import SyncedConfig.Identifier
import SyncedConfig.Proofs.Collection.Spellings
import SyncedConfig.Proofs.Hex
import SyncedConfig.Proofs.Text.Cut

/-!
# Identifiers and the keys that they hold

The digits of an identifier are those of its key, in either case. So an identifier is accepted
exactly if it reads, with small digits, like the characters in front and a key of 32 octets, and
identifiers of one kind hold one key exactly if they are the same with small digits.
-/
namespace SyncedConfig

/-- The octets of the key that an identifier holds. -/
def Identifier.publicKey? (id : String) : Option Bytes := Hex.decode? (id.toList.drop 2)

def Identifier.small (id : String) : String := String.ofList (id.toList.map Char.toLower)

namespace IdKind

open Identifier

variable {kind : IdKind} {id other : String} {key : Bytes}

theorem size_digits {digits : List Char} (h : ∀ c ∈ digits, Hex.isDigit c) :
    Text.size digits = digits.length :=
  Text.size_of_ascii fun c hc => Hex.toNat_lt_of_isDigit (h c hc)

/-- An identifier is made of the characters in front and the digits of a key. -/
theorem accepts_iff : kind.accepts id ↔ ∃ digits, id.toList = kind.lead ++ digits ∧
    digits.length = keyDigits ∧ ∀ c ∈ digits, Hex.isDigit c := by
  simp only [accepts, Bool.and_eq_true, decide_eq_true_eq, List.isPrefixOf_iff_prefix]
  constructor
  · rintro ⟨⟨hsize, digits, hsplit⟩, hdigits⟩
    rw [← hsplit, Text.dropOctets?_append, Option.any_some, List.all_eq_true] at hdigits
    rw [← hsplit, Text.size_append, size_digits hdigits] at hsize
    exact ⟨digits, hsplit.symm, Nat.add_left_cancel hsize, hdigits⟩
  · rintro ⟨digits, hsplit, hlength, hdigits⟩
    rw [hsplit, Text.dropOctets?_append, Option.any_some, List.all_eq_true, Text.size_append,
      size_digits hdigits, hlength]
    exact ⟨⟨rfl, digits, rfl⟩, hdigits⟩

/-- An identifier: the characters in front and 64 digits in either case. -/
def IsIdentifier (kind : IdKind) (id : String) : Prop :=
  ∃ digits, id.toList = kind.lead ++ digits ∧ digits.length = 64 ∧ ∀ c ∈ digits, Hex.isDigit c

theorem accepts_iff_isIdentifier : kind.accepts id ↔ kind.IsIdentifier id := accepts_iff

theorem IsIdentifier.ne_empty (h : kind.IsIdentifier id) : id ≠ "" := by
  rintro rfl
  have haccepts : kind.accepts "" := accepts_iff_isIdentifier.2 h
  cases kind <;> cases haccepts

theorem lead_lt (kind : IdKind) : ∀ c ∈ kind.lead, c.toNat < 0x41 := by
  cases kind <;> simp [lead]

theorem toList_small (id : String) : (small id).toList = id.toList.map Char.toLower :=
  String.toList_ofList

/-- With small digits an identifier reads like the characters in front and the octets of a key. -/
theorem accepts_iff_small : kind.accepts id ↔
    ∃ key, key.length = 32 ∧ (small id).toList = kind.lead ++ Hex.encode key := by
  rw [accepts_iff, toList_small]
  constructor
  · rintro ⟨digits, hsplit, hlength, hdigits⟩
    obtain ⟨key, hkey⟩ := Option.isSome_iff_exists.1
      (Hex.decode?_isSome_iff.2 ⟨by rw [hlength, keyDigits], hdigits⟩)
    have hsmall := Hex.decode?_eq_some_iff.1 hkey
    refine ⟨key, ?_, ?_⟩
    · have htwice := congrArg List.length hsmall
      rw [List.length_map, Hex.length_encode, hlength, keyDigits] at htwice
      omega
    · rw [hsplit, List.map_append, hsmall, (ServerUrl.map_toLower_eq_iff kind.lead_lt).2 rfl]
  · rintro ⟨key, hlength, hsmall⟩
    obtain ⟨front, digits, hsplit, hfront, hdigits⟩ := List.map_eq_append_iff.1 hsmall
    have hkey := Hex.decode?_eq_some_iff.2 hdigits
    have hsome : (Hex.decode? digits).isSome := by rw [hkey]; rfl
    have hcount := congrArg List.length hdigits
    rw [List.length_map, Hex.length_encode, hlength] at hcount
    refine ⟨digits, ?_, hcount, (Hex.decode?_isSome_iff.1 hsome).2⟩
    rw [hsplit, (ServerUrl.map_toLower_eq_iff kind.lead_lt).1 hfront]

theorem publicKey?_eq_some (h : (small id).toList = kind.lead ++ Hex.encode key) :
    publicKey? id = some key := by
  have hlead : kind.lead.length = 2 := by cases kind <;> rfl
  rw [publicKey?, Hex.decode?_eq_some_iff, List.map_drop, ← toList_small, h, ← hlead,
    List.drop_left]

/-- Identifiers of one kind hold one key exactly if they differ in nothing but the case of
digits. -/
theorem publicKey?_eq_iff (h : kind.accepts id) (h' : kind.accepts other) :
    publicKey? id = publicKey? other ↔ small id = small other := by
  obtain ⟨key, -, hid⟩ := accepts_iff_small.1 h
  obtain ⟨key', -, hother⟩ := accepts_iff_small.1 h'
  rw [publicKey?_eq_some hid, publicKey?_eq_some hother, Option.some.injEq, ← String.toList_inj,
    hid, hother, List.append_right_inj, Hex.encode_inj]

theorem small_small (id : String) : small (small id) = small id := by
  rw [small, toList_small, ServerUrl.map_toLower_map_toLower, small]

theorem accepts_small : kind.accepts (small id) ↔ kind.accepts id := by
  rw [accepts_iff_small, small_small, accepts_iff_small]

end IdKind

end SyncedConfig
