import SyncedConfig.Proofs.Dump.Numbers
import SyncedConfig.Proofs.Dump.Octets

/-!
# Base64 text loses nothing

The Base64 text of octets has four characters for every three of them, digits of the standard
alphabet first and then as many `=` as fill up the last group. A reader that takes only texts of
this form, with zero bits behind the last octet, gets back the octets, and no two texts have the
same. So keys are got back from the dumps of all configs.
-/
namespace SyncedConfig

namespace Base64

def isDigit (c : Char) : Bool :=
  ('A' ≤ c && c ≤ 'Z') || ('a' ≤ c && c ≤ 'z') || c.isDigit || c = '+' || c = '/'

/-- Whether a text is made of groups of four digits, the last of which may end in one or two `=`
behind digits whose last bits are zero. -/
def isStrict : List Char → Bool
  | [] => true
  | [p, q, '=', '='] => isDigit p && isDigit q && digitValue q % 16 = 0
  | [p, q, r, '='] => isDigit p && isDigit q && isDigit r && digitValue r % 4 = 0
  | p :: q :: r :: s :: rest =>
    isDigit p && isDigit q && isDigit r && isDigit s && isStrict rest
  | _ => false

/-- The octets of a text, which is refused if it is not in strict form. -/
def decode? (text : List Char) : Option Bytes :=
  if isStrict text then some (decode text) else none

/-- The number of `=` behind the digits of so many octets. -/
def padding (n : Nat) : Nat := (3 - n % 3) % 3

variable {c : Char} {text : List Char}

theorem isDigit_digitChar : ∀ n < 64, isDigit (digitChar n) := by decide

theorem toNat_lt_of_isDigit (h : isDigit c) : c.toNat < 128 := by
  simp only [isDigit, Char.isDigit, Bool.or_eq_true, Bool.and_eq_true, decide_eq_true_eq,
    Char.le_def, UInt32.le_iff_toNat_le, ge_iff_le] at h
  rcases h with (((⟨-, h⟩ | ⟨-, h⟩) | ⟨-, h⟩) | rfl) | rfl
  · exact Nat.lt_of_le_of_lt h (by decide)
  · exact Nat.lt_of_le_of_lt h (by decide)
  · exact Nat.lt_of_le_of_lt h (by decide)
  · decide
  · decide

theorem of_isDigit {p : Char → Prop} (hall : ∀ n < 128, isDigit (Char.ofNat n) → p (Char.ofNat n))
    (h : isDigit c) : p c :=
  Utf8.of_ascii (p := fun c => isDigit c → p c) hall (toNat_lt_of_isDigit h) h

theorem exists_eq_digitChar (h : isDigit c) : ∃ n < 64, c = digitChar n :=
  have hvalue : digitValue c < 64 ∧ c = digitChar (digitValue c) :=
    of_isDigit (p := fun c => digitValue c < 64 ∧ c = digitChar (digitValue c)) (by decide) h
  ⟨digitValue c, hvalue⟩

theorem escapeChar_of_isDigit (h : isDigit c) : Json.escapeChar c = [c] :=
  of_isDigit (p := fun c => Json.escapeChar c = [c]) (by decide) h

theorem group_of_digits {x y z w : Nat} (hx : x < 64) (hy : y < 64) (hz : z < 64) (hw : w < 64) :
    group (UInt8.ofNat (x * 4 + y / 16)) (UInt8.ofNat (y % 16 * 16 + z / 4))
      (UInt8.ofNat (z % 4 * 64 + w)) = (digitChar x, digitChar y, digitChar z, digitChar w) := by
  simp only [group, UInt8.toNat_ofNat']
  congr 2 <;> congr <;> omega

theorem isStrict_encode (data : Bytes) : isStrict (encode data) := by
  fun_induction encode data with
  | case1 => rfl
  | case2 a p q r s h =>
    obtain ⟨x, y, z, w, ⟨rfl, rfl, rfl, rfl⟩, ⟨hx, hy, -, -⟩, -, hb, -⟩ := group_eq h
    have hrest : y % 16 = 0 := by
      rw [UInt8.toNat_zero] at hb
      omega
    simp [isStrict, isDigit_digitChar, digitValue_digitChar, hx, hy, hrest]
  | case3 a b p q r s h =>
    obtain ⟨x, y, z, w, ⟨rfl, rfl, rfl, rfl⟩, ⟨hx, hy, hz, -⟩, -, -, hc⟩ := group_eq h
    have hrest : z % 4 = 0 := by
      rw [UInt8.toNat_zero] at hc
      omega
    simp [isStrict, isDigit_digitChar, digitValue_digitChar, digitChar_ne_pad, hx, hy, hz, hrest]
  | case4 a b c rest p q r s h ih =>
    obtain ⟨x, y, z, w, ⟨rfl, rfl, rfl, rfl⟩, ⟨hx, hy, hz, hw⟩, -⟩ := group_eq h
    simp [isStrict, isDigit_digitChar, digitChar_ne_pad, hx, hy, hz, hw, ih]

theorem encode_decode (h : isStrict text) : encode (decode text) = text := by
  have hzero : (0 : Nat) < 64 := by decide
  fun_induction isStrict text with
  | case1 => rfl
  | case2 p q =>
    simp only [Bool.and_eq_true, decide_eq_true_eq] at h
    obtain ⟨⟨hp, hq⟩, hrest⟩ := h
    obtain ⟨x, hx, rfl⟩ := exists_eq_digitChar hp
    obtain ⟨y, hy, rfl⟩ := exists_eq_digitChar hq
    rw [digitValue_digitChar y hy] at hrest
    have hgroup := group_of_digits hx hy hzero hzero
    rw [hrest] at hgroup
    simp only [decode, digitValue_digitChar, hx, hy, if_true, encode]
    exact congrArg (fun g : Char × Char × Char × Char => [g.1, g.2.1, '=', '=']) hgroup
  | case3 p q r hr =>
    simp only [Bool.and_eq_true, decide_eq_true_eq] at h
    obtain ⟨⟨⟨hp, hq⟩, hr⟩, hrest⟩ := h
    obtain ⟨x, hx, rfl⟩ := exists_eq_digitChar hp
    obtain ⟨y, hy, rfl⟩ := exists_eq_digitChar hq
    obtain ⟨z, hz, rfl⟩ := exists_eq_digitChar hr
    rw [digitValue_digitChar z hz] at hrest
    have hgroup := group_of_digits hx hy hz hzero
    rw [hrest] at hgroup
    simp only [decode, digitValue_digitChar, digitChar_ne_pad, hx, hy, hz, if_true, if_false,
      encode]
    exact congrArg (fun g : Char × Char × Char × Char => [g.1, g.2.1, g.2.2.1, '=']) hgroup
  | case4 p q r s rest _ _ ih =>
    simp only [Bool.and_eq_true] at h
    obtain ⟨⟨⟨⟨hp, hq⟩, hr⟩, hs⟩, hrest⟩ := h
    obtain ⟨x, hx, rfl⟩ := exists_eq_digitChar hp
    obtain ⟨y, hy, rfl⟩ := exists_eq_digitChar hq
    obtain ⟨z, hz, rfl⟩ := exists_eq_digitChar hr
    obtain ⟨w, hw, rfl⟩ := exists_eq_digitChar hs
    have hgroup := group_of_digits hx hy hz hw
    simp only [decode, digitValue_digitChar, digitChar_ne_pad, hx, hy, hz, hw, if_false, encode,
      hgroup, ih hrest]
  | case5 => cases h

/-- The texts in strict form are the texts of octets. -/
theorem decode?_eq_some_iff {data : Bytes} : decode? text = some data ↔ text = encode data := by
  rw [decode?]
  constructor
  · intro h
    split at h
    next hstrict => rw [← Option.some.inj h, encode_decode hstrict]
    next => cases h
  · rintro rfl
    rw [if_pos (isStrict_encode data), decode_encode]

example : decode? ['a', 'G', 'k', '='] = some [0x68, 0x69] := by decide

/-- The last bits behind the last octet are not zero. -/
example : decode? ['a', 'G', 'l', '='] = none := by decide

theorem length_encode (data : Bytes) : (encode data).length = 4 * ((data.length + 2) / 3) := by
  fun_induction encode data with
  | case1 => rfl
  | case2 => simp
  | case3 => simp
  | case4 a b c rest p q r s h ih =>
    simp only [List.length_cons, ih]
    omega

/-- Behind the digits come as many `=` as the last group wants. -/
theorem encode_eq_append (data : Bytes) : ∃ digits : List Char, (∀ c ∈ digits, isDigit c) ∧
    encode data = digits ++ List.replicate (padding data.length) '=' := by
  fun_induction encode data with
  | case1 => exact ⟨[], List.forall_mem_nil _, rfl⟩
  | case2 a p q r s h =>
    obtain ⟨x, y, z, w, ⟨rfl, rfl, rfl, rfl⟩, ⟨hx, hy, -, -⟩, -⟩ := group_eq h
    exact ⟨[digitChar x, digitChar y], by simp [isDigit_digitChar, hx, hy], rfl⟩
  | case3 a b p q r s h =>
    obtain ⟨x, y, z, w, ⟨rfl, rfl, rfl, rfl⟩, ⟨hx, hy, hz, -⟩, -⟩ := group_eq h
    exact ⟨[digitChar x, digitChar y, digitChar z], by simp [isDigit_digitChar, hx, hy, hz], rfl⟩
  | case4 a b c rest p q r s h ih =>
    obtain ⟨x, y, z, w, ⟨rfl, rfl, rfl, rfl⟩, ⟨hx, hy, hz, hw⟩, -⟩ := group_eq h
    obtain ⟨digits, hdigits, hrest⟩ := ih
    have hpadding : padding (rest.length + 3) = padding rest.length := by simp [padding]
    refine ⟨digitChar x :: digitChar y :: digitChar z :: digitChar w :: digits, ?_, ?_⟩
    · simpa [isDigit_digitChar, hx, hy, hz, hw] using hdigits
    · simp [hrest, hpadding]

theorem encode_eq_nil_iff {data : Bytes} : encode data = [] ↔ data = [] := by
  rw [← List.length_eq_zero_iff, length_encode, ← List.length_eq_zero_iff]
  omega

theorem flatMap_escapeChar_encode (data : Bytes) :
    (encode data).flatMap Json.escapeChar = encode data := by
  obtain ⟨digits, hdigits, heq⟩ := encode_eq_append data
  have hplain : ∀ c ∈ encode data, Json.escapeChar c = [c] := by
    rw [heq]
    intro c hc
    rcases List.mem_append.1 hc with hc | hc
    · exact escapeChar_of_isDigit (hdigits c hc)
    · rw [List.eq_of_mem_replicate hc]
      rfl
  rw [List.flatMap_congr hplain, List.flatMap_singleton']

end Base64

namespace Json

def at? : List String → Json → Option Json
  | [], document => some document
  | name :: path, document => (document.member? name).bind (at? path)

/-- The octets of which a value has the text, if it has that of any. -/
def octets? : Json → Option Bytes
  | text s => Base64.decode? s.toList
  | _ => none

theorem octets?_ofBytes (data : Bytes) : (ofBytes data).octets? = some data := by
  rw [ofBytes, octets?, String.toList_ofList]
  exact Base64.decode?_eq_some_iff.2 rfl

theorem compact_ofBytes (data : Bytes) :
    (ofBytes data).compact = String.ofList ('"' :: (Base64.encode data ++ ['"'])) := by
  rw [compact, ofBytes, print, quote, String.toList_ofList, Base64.flatMap_escapeChar_encode]
  rfl

end Json

/-- Octets of a record, with the names that lead to them in a dump. A dump may leave them out. -/
structure OctetsField where
  path : List String
  shown? : Option Bytes

/-- The document has a text at this place exactly if it shows the octets, and then theirs. -/
def OctetsField.ReadsBack (field : OctetsField) (document : Json) : Prop :=
  (document.at? field.path).map Json.octets? = field.shown?.map some

/-- The key of a picture, which is shown if there is a picture. -/
def Picture.octetsField (p : Picture) (name : String) : OctetsField :=
  ⟨[name, "key"], if p.isEmpty then none else some p.key⟩

def UserGroup.octetsFields : UserGroup → List OctetsField
  | group g => [⟨["secret_key"], g.secretKey⟩, ⟨["auth_data"], g.authData⟩]
  | legacyGroup g => [⟨["enc_pubkey"], g.publicKey⟩, ⟨["enc_seckey"], g.secretKey⟩]
  | community _ => []

theorem OctetsField.readsBack_of_lookup {name : String} {data : Bytes}
    {members : List (String × Json)} (h : members.lookup name = some (.ofBytes data)) :
    ReadsBack ⟨[name], data⟩ (.object members) := by
  simp [ReadsBack, Json.at?, Json.member?, h, Json.octets?_ofBytes]

theorem Picture.octetsField_readsBack {p : Picture} {name : String}
    {members : List (String × Json)} (h : members.lookup name = some p.document) :
    (p.octetsField name).ReadsBack (.object members) := by
  by_cases hempty : p.isEmpty
  · simp [OctetsField.ReadsBack, octetsField, Json.at?, Json.member?, h, document, hempty]
  · simp [OctetsField.ReadsBack, octetsField, Json.at?, Json.member?, h, document, hempty,
      Json.octets?_ofBytes, List.lookup_cons]

theorem UserGroup.octetsFields_readBack (g : UserGroup) :
    ∀ field ∈ g.octetsFields, field.ReadsBack g.document := by
  cases g with
  | group g =>
    simp only [octetsFields, List.forall_mem_cons]
    exact ⟨OctetsField.readsBack_of_lookup rfl, OctetsField.readsBack_of_lookup rfl,
      List.forall_mem_nil _⟩
  | legacyGroup g =>
    simp only [octetsFields, List.forall_mem_cons]
    exact ⟨OctetsField.readsBack_of_lookup rfl, OctetsField.readsBack_of_lookup rfl,
      List.forall_mem_nil _⟩
  | community g => exact List.forall_mem_nil _

namespace Kind

/-- The octets of a part: the keys of groups and of pictures. -/
def octetsFields : (k : Kind) → k.Part → List OctetsField
  | profile, p => [p.picture.octetsField "profile_pic"]
  | collection .conversations, _ => []
  | collection .groups, g => UserGroup.octetsFields g
  | collection .contacts, c => [(Contact.picture c).octetsField "profile_picture"]
  | collection .members, m => [(Member.picture m).octetsField "profile_picture"]
  | info, d => [d.picture.octetsField "profile_pic"]

theorem octetsFields_readBack : (k : Kind) → (content : k.Content) → (part : k.Part) →
    ∀ field ∈ k.octetsFields part, field.ReadsBack (k.partDocument content part)
  | profile, _, _ => List.forall_mem_singleton.2 (Picture.octetsField_readsBack rfl)
  | collection .conversations, _, _ => List.forall_mem_nil _
  | collection .groups, _, g => UserGroup.octetsFields_readBack g
  | collection .contacts, _, _ => List.forall_mem_singleton.2 (Picture.octetsField_readsBack rfl)
  | collection .members, _, _ => List.forall_mem_singleton.2 (Picture.octetsField_readsBack rfl)
  | info, _, _ => List.forall_mem_singleton.2 (Picture.octetsField_readsBack rfl)

/-- All parts of a content, in the order in which they are dumped. -/
def parts : (k : Kind) → k.Content → List k.Part
  | profile, p => [p]
  | collection _, records => records.values
  | info, g => [g.details]

def partDocuments : Kind → Json → List Json
  | collection _, .list items => items
  | _, document => [document]

theorem partDocuments_document : (k : Kind) → (content : k.Content) →
    k.partDocuments (k.document content) = (k.parts content).map (k.partDocument content)
  | profile, _ => rfl
  | collection _, _ => rfl
  | info, _ => rfl

end Kind

/-- The Base64 text of octets has four characters for every three of them or fewer, first digits and
then the `=` that fill up the last group. A reader that takes texts in strict form only takes
exactly the texts of octets, and gets back the octets. No character is escaped between quotes. So
each part of a config has, in both dumps, texts from which its keys are got back. -/
theorem Base64.octets_read_back :
    (∀ data, (encode data).length = 4 * ((data.length + 2) / 3)) ∧
    (∀ data, ∃ digits : List Char, (∀ c ∈ digits, isDigit c) ∧
      encode data = digits ++ List.replicate (padding data.length) '=') ∧
    (∀ text data, decode? text = some data ↔ text = encode data) ∧
    Function.Injective encode ∧
    (∀ data, encode data = [] ↔ data = []) ∧
    (∀ data, (Json.ofBytes data).octets? = some data ∧
      (Json.ofBytes data).compact = String.ofList ('"' :: (encode data ++ ['"']))) ∧
    ∀ (k : Kind) (c : Config k), ∃ whole,
      Json.parse (Utf8.ofString (Handle.config k c).dump) = .ok whole ∧
      Json.parse (Utf8.ofString (Handle.config k c).dumpPretty) = .ok whole ∧
      List.Forall₂ (fun part document => ∀ field ∈ k.octetsFields part, field.ReadsBack document)
        (k.parts c.content) (k.partDocuments whole) := by
  refine ⟨length_encode, encode_eq_append, fun _ _ => decode?_eq_some_iff,
    fun _ _ => encode_inj.1, fun _ => encode_eq_nil_iff,
    fun data => ⟨Json.octets?_ofBytes data, Json.compact_ofBytes data⟩, fun k c => ?_⟩
  let handle := Handle.config k c
  refine ⟨_, handle.parse_dump, handle.parse_dumpPretty, ?_⟩
  have hdocuments : k.partDocuments (Handle.config k c).document =
      (k.parts c.content).map (k.partDocument c.content) := k.partDocuments_document c.content
  rw [hdocuments, List.forall₂_map_right_iff, List.forall₂_same]
  exact fun part _ => k.octetsFields_readBack c.content part

end SyncedConfig
