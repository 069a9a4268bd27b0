import SyncedConfig.Host.Buffer
import SyncedConfig.Proofs.Dump.Faithful

/-!
# Dumps hold no control characters

A compact document has no layout, and its texts are escaped where they have control characters. So
none of its octets is below that of a space. In particular none is zero, and the dump of a config
is handed over to a host as it is.
-/
namespace SyncedConfig

/-- Whether a text has no characters below U+0020. -/
def Plain (text : List Char) : Prop := ∀ c ∈ text, 0x20 ≤ c.toNat

namespace Plain

variable {text more : List Char} {c : Char}

@[simp] theorem nil : Plain [] := fun _ h => nomatch h

@[simp] theorem cons : Plain (c :: text) ↔ 0x20 ≤ c.toNat ∧ Plain text := List.forall_mem_cons

@[simp] theorem append : Plain (text ++ more) ↔ Plain text ∧ Plain more := List.forall_mem_append

instance (text : List Char) : Decidable (Plain text) :=
  decidable_of_iff (text.all fun c => 0x20 ≤ c.toNat) (by simp [Plain])

theorem not_mem (h : Plain text) (hc : c.toNat < 0x20) : c ∉ text :=
  fun hmem => absurd (h c hmem) (Nat.not_le_of_lt hc)

theorem of_subset (h : Plain text) (hmore : more ⊆ text) : Plain more := fun c hc => h c (hmore hc)

theorem le_of_mem_encode (h : Plain text) {b : UInt8} (hb : b ∈ Utf8.encode text) :
    0x20 ≤ b.toNat := by
  obtain ⟨c, hc, hb⟩ := List.mem_flatMap.1 hb
  by_cases hascii : c.toNat < 0x80
  · rw [Utf8.utf8EncodeChar_ascii hascii, List.mem_singleton] at hb
    rw [hb, Utf8.toNat_ofNat (by omega)]
    exact h c hc
  · have hle := Utf8.le_of_mem_utf8EncodeChar (Nat.le_of_not_lt hascii) hb
    omega

/-- A string is stored as its octets, which say as much and are not to be decoded first. -/
theorem toList_iff {s : String} :
    Plain s.toList ↔ ∀ b ∈ s.toByteArray.data.toList, 0x20 ≤ b.toNat := by
  have hoctets : s.toByteArray.data.toList = Utf8.encode s.toList := by
    rw [← String.utf8Encode_toList]
    simp [List.utf8Encode, Utf8.encode]
  rw [hoctets]
  refine ⟨fun h b hb => h.le_of_mem_encode hb, fun h c hc => ?_⟩
  by_cases hascii : c.toNat < 0x80
  · have hb : UInt8.ofNat c.toNat ∈ Utf8.encode s.toList :=
      List.mem_flatMap.2 ⟨c, hc, by simp [Utf8.utf8EncodeChar_ascii hascii]⟩
    simpa [Utf8.toNat_ofNat (Nat.lt_trans hascii (by decide))] using h _ hb
  · omega

instance (s : String) : Decidable (Plain s.toList) :=
  decidable_of_iff (s.toByteArray.data.toList.all fun b => 0x20 ≤ b.toNat)
    (by simp only [toList_iff, List.all_eq_true, decide_eq_true_eq])

end Plain

namespace Json

theorem plain_escapeChar (c : Char) : Plain (escapeChar c) := by
  have hdigit : ∀ n < 16, 0x20 ≤ (Hex.digitChar n).toNat := by decide
  unfold escapeChar
  split
  case h_8 =>
    split
    next hcontrol =>
      have hhigh := hdigit (c.toNat / 16) (by omega)
      have hlow := hdigit (c.toNat % 16) (by omega)
      simp [hhigh, hlow]
    next hcontrol => simpa using hcontrol
  all_goals simp

theorem plain_quote (s : String) : Plain (quote s) := by
  have hbody : Plain (s.toList.flatMap escapeChar) := fun c hc => by
    obtain ⟨d, -, hc⟩ := List.mem_flatMap.1 hc
    exact plain_escapeChar d c hc
  simp [quote, hbody]

theorem plain_digitChar : ∀ n < 16, Plain [Nat.digitChar n] := by decide

theorem plain_toDigits {base : Nat} (h : 1 < base) (hbase : base ≤ 16) (n : Nat) :
    Plain (Nat.toDigits base n) := by
  induction n using Nat.strongRecOn with
  | _ n ih =>
    by_cases hn : n < base
    · rw [Nat.toDigits_of_lt_base hn]
      exact plain_digitChar n (by omega)
    · have hless : n / base < n := Nat.div_lt_self (by omega) h
      have hlast : n % base < base := Nat.mod_lt n (by omega)
      rw [Nat.toDigits_of_base_le h (Nat.le_of_not_lt hn), Plain.append]
      exact ⟨ih _ hless, plain_digitChar _ (by omega)⟩

theorem plain_ofNat (n : Nat) : Plain (Decimal.ofNat n) := plain_toDigits (by decide) (by decide) n

theorem plain_ofInt (n : Int) : Plain (Decimal.ofInt n) := by
  cases n with
  | ofNat n => exact plain_ofNat n
  | negSucc n => simp [Decimal.ofInt, plain_ofNat]

section brackets

variable {depth : Nat}

@[simp] theorem Layout.compact_lead : Layout.compact.lead depth = [] := rfl

@[simp] theorem Layout.compact_close : Layout.compact.close depth = [] := rfl

@[simp] theorem Layout.compact_colon : Layout.compact.colon = [':'] := rfl

theorem plain_printItems {items : List Json}
    (h : ∀ item ∈ items, Plain (item.print .compact (depth + 1))) :
    Plain (printItems .compact depth items) := by
  induction items with
  | nil => exact Plain.nil
  | cons item items ih =>
    obtain ⟨hitem, hitems⟩ := List.forall_mem_cons.1 h
    simp [printItems, hitem, ih hitems]

theorem plain_printMembers {members : List (String × Json)}
    (h : ∀ member ∈ members, Plain (member.2.print .compact (depth + 1))) :
    Plain (printMembers .compact depth members) := by
  induction members with
  | nil => exact Plain.nil
  | cons member members ih =>
    obtain ⟨hmember, hmembers⟩ := List.forall_mem_cons.1 h
    simp [printMembers, plain_quote, hmember, ih hmembers]

end brackets

theorem plain_print : (nesting : Nat) → (j : Json) → j.Readable nesting → (depth : Nat) →
    Plain (j.print .compact depth)
  | 0, .null, _, _ | _ + 1, .null, _, _ => by simp [print]
  | 0, .bool b, _, _ | _ + 1, .bool b, _, _ => by cases b <;> simp [print]
  | 0, .text s, _, _ | _ + 1, .text s, _, _ => by simp [print, plain_quote]
  | 0, .integer n, _, _ | _ + 1, .integer n, _, _ => by simp [print, plain_ofInt]
  | 0, .float _, h, _ | _ + 1, .float _, h, _ | 0, .list _, h, _ | 0, .object _, h, _ => h.elim
  | nesting + 1, .list [], _, _ | nesting + 1, .object [], _, _ => by simp [print]
  | nesting + 1, .list (item :: items), h, depth => by
    obtain ⟨hitem, hitems⟩ := List.forall_mem_cons.1 fun item hitem =>
      plain_print nesting item (h item hitem) (depth + 1)
    simp [print, hitem, plain_printItems hitems]
  | nesting + 1, .object ((name, value) :: members), h, depth => by
    obtain ⟨hvalue, hmembers⟩ := List.forall_mem_cons.1 fun member hmember =>
      plain_print nesting member.2 (h.2 member hmember) (depth + 1)
    simp [print, plain_quote, hvalue, plain_printMembers hmembers]

end Json

namespace Handle

theorem le_of_mem_dump (h : Handle) {b : UInt8} (hb : b ∈ Utf8.ofString h.dump) :
    0x20 ≤ b.toNat := by
  have hplain := Json.plain_print _ h.document h.readable_document 0
  rw [dump, Json.compact, Utf8.ofString, String.toList_ofList] at hb
  exact hplain.le_of_mem_encode hb

/-- A dump is handed over as it is. -/
theorem terminatedDump_eq (h : Handle) :
    h.terminatedDump = .ok (Utf8.ofString h.dump ++ [0]) := by
  have hzero : ¬ (Utf8.ofString h.dump).contains 0 := by
    intro hmem
    exact absurd (h.le_of_mem_dump (List.contains_iff_mem.1 hmem)) (by decide)
  rw [terminatedDump]
  exact if_neg hzero

theorem terminatedDumpOrEmpty_eq (h : Handle) :
    h.terminatedDumpOrEmpty = Utf8.ofString h.dump ++ [0] := by
  rw [terminatedDumpOrEmpty, terminatedDump_eq]

end Handle
end SyncedConfig
