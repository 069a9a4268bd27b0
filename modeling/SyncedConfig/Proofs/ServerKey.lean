import SyncedConfig.Proofs.Collection.Spellings
import SyncedConfig.Proofs.Dump.Base64
import SyncedConfig.Proofs.Identifier

/-!
# Keys of servers as texts

The key of the server of a community is read from 64 hexadecimal digits in either case, and from
no other text. It is written with the same digits, but small ones, and read again from these. So
what a dump has of a community under the name of the key tells exactly the key that is kept.
-/
namespace SyncedConfig

open Identifier

namespace Community

/-- The texts of a key: 64 hexadecimal digits, in either case. -/
structure IsKeyText (text : String) : Prop where
  length_eq : text.toList.length = 64
  digits : ∀ c ∈ text.toList, Hex.isDigit c

variable {baseUrl room text : String} {c : Community} {e : SyncError}

theorem toList_keyText (c : Community) : c.keyText.toList = Hex.encode c.key.toList :=
  String.toList_ofList

/-- To read a key is to find the one that is written like the text, but with small digits. -/
theorem parse_eq_ok_iff : parse baseUrl room text = .ok c ↔
    c.baseUrl = baseUrl ∧ c.room = room ∧ c.keyText = small text := by
  constructor
  · intro h
    rw [parse] at h
    split at h
    next octets hoctets =>
      split at h
      next hlength =>
        obtain rfl := Except.ok.inj h
        refine ⟨rfl, rfl, ?_⟩
        rw [small, Hex.decode?_eq_some_iff.1 hoctets]
        rfl
      next => cases h
    next => cases h
  · rintro ⟨rfl, rfl, hkey⟩
    refine parse_of_decode? ?_
    rw [Hex.decode?_eq_some_iff, ← IdKind.toList_small, ← hkey, toList_keyText]

/-- A text has the form of a key exactly if a key is written like it, but with small digits. -/
theorem isKeyText_iff : IsKeyText text ↔
    ∃ key : Vector UInt8 32, (small text).toList = Hex.encode key.toList := by
  rw [IdKind.toList_small]
  constructor
  · rintro ⟨hlength, hdigits⟩
    obtain ⟨octets, hoctets⟩ := Option.isSome_iff_exists.1
      (Hex.decode?_isSome_iff.2 ⟨by rw [hlength], hdigits⟩)
    have hsmall := Hex.decode?_eq_some_iff.1 hoctets
    have htwice := congrArg List.length hsmall
    rw [List.length_map, hlength, Hex.length_encode] at htwice
    have hcount : octets.length = 32 := by omega
    exact ⟨⟨octets.toArray, by rw [List.size_toArray, hcount]⟩, hsmall⟩
  · rintro ⟨key, hsmall⟩
    have hsome : (Hex.decode? text.toList).isSome := by rw [Hex.decode?_eq_some_iff.2 hsmall]; rfl
    have htwice := congrArg List.length hsmall
    rw [List.length_map, Hex.length_encode, Vector.length_toList] at htwice
    exact ⟨htwice, (Hex.decode?_isSome_iff.1 hsome).2⟩

theorem exists_parse_iff (baseUrl room : String) :
    (∃ c, parse baseUrl room text = .ok c) ↔ IsKeyText text := by
  rw [isKeyText_iff]
  constructor
  · rintro ⟨c, h⟩
    obtain ⟨-, -, hkey⟩ := parse_eq_ok_iff.1 h
    exact ⟨c.key, by rw [← hkey, toList_keyText]⟩
  · rintro ⟨key, hkey⟩
    refine ⟨⟨baseUrl, room, key⟩, parse_eq_ok_iff.2 ⟨rfl, rfl, String.toList_inj.1 ?_⟩⟩
    rw [toList_keyText, hkey]

theorem eq_of_parse_eq_error (h : parse baseUrl room text = .error e) : e = .invalidKey text := by
  rw [parse] at h
  split at h
  next =>
    split at h
    next => cases h
    next => exact (Except.error.inj h).symm
  next => exact (Except.error.inj h).symm

/-- Any other text is refused, and named in the error. -/
theorem parse_eq_error_iff :
    parse baseUrl room text = .error e ↔ ¬ IsKeyText text ∧ e = .invalidKey text := by
  rw [← exists_parse_iff baseUrl room]
  cases h : parse baseUrl room text with
  | ok c => simp
  | error e' =>
    obtain rfl := eq_of_parse_eq_error h
    simp [eq_comm]

end Community

/-- A document has a member under the name of the key exactly if its record is about a community,
and then the text of the key. -/
theorem CollectionKind.member?_pubKey (c : CollectionKind) (record : c.Record) :
    (c.recordDocument record).member? "pub_key" =
      (c.community? record).map fun a => .text a.keyText := by
  cases c with
  | conversations => cases record <;> rfl
  | groups => cases record <;> rfl
  | contacts | members => rfl

/-- The key of a server is read from the texts of 64 hexadecimal digits, and any other text is
refused and named. Server and room are kept as they are given, and the key is written like the text
but with small digits, from which it is read again under any server and room. So both dumps of a
collection have the text of the key that is kept where a record is about a community, and there
only. -/
theorem Community.key_read_from_its_text :
    (∀ baseUrl room text,
      ((∃ c, parse baseUrl room text = .ok c) ↔ IsKeyText text) ∧
      (∀ c, parse baseUrl room text = .ok c ↔
        c.baseUrl = baseUrl ∧ c.room = room ∧ c.keyText = small text) ∧
      ∀ e, parse baseUrl room text = .error e ↔ ¬ IsKeyText text ∧ e = .invalidKey text) ∧
    (∀ (a : Community) (baseUrl room : String),
      parse baseUrl room a.keyText = .ok { baseUrl, room, key := a.key }) ∧
    ∀ (c : CollectionKind) (config : Config (.collection c)), ∃ documents,
      Json.parse (Utf8.ofString (Handle.config _ config).dump) = .ok (.list documents) ∧
      Json.parse (Utf8.ofString (Handle.config _ config).dumpPretty) = .ok (.list documents) ∧
      List.Forall₂ (fun record document => document.member? "pub_key" =
        (c.community? record).map fun a => .text a.keyText) config.records documents := by
  refine ⟨fun baseUrl room text => ⟨exists_parse_iff baseUrl room, fun _ => parse_eq_ok_iff,
    fun _ => parse_eq_error_iff⟩, fun a baseUrl room => ?_, fun c config => ?_⟩
  · exact parse_keyText { a with baseUrl, room }
  · let handle := Handle.config _ config
    refine ⟨_, handle.parse_dump, handle.parse_dumpPretty, ?_⟩
    exact List.forall₂_map_right_iff.2 (List.forall₂_same.2 fun record _ => c.member?_pubKey record)

/-- As many octets as a key has digits are not enough. -/
example : ¬ Community.IsKeyText (String.ofList (List.replicate 32 'é')) := fun h =>
  absurd h.length_eq (by rw [String.toList_ofList]; decide)

end SyncedConfig
