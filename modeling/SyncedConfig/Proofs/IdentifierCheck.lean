import SyncedConfig.Config.Collection
import SyncedConfig.Proofs.Identifier

/-!
# Identifiers are checked octet by octet

An identifier is checked on its octets: they are counted, the first ones are compared, and behind
these the text is cut, so that the others can be looked at one by one. What is cut off is a text of
its own, and so the cut never goes through a character, whatever text is checked. The check accepts
the characters in front with 64 digits, and whatever takes an identifier refuses all other texts
before it does anything.
-/
namespace SyncedConfig

namespace Utf8

variable {text more lead : List Char}

theorem chars_decodeFrom_encode (text : List Char) (data : Bytes) :
    (decodeFrom none (encode text ++ data)).chars = text ++ (decodeFrom none data).chars := by
  induction text with
  | nil => rfl
  | cons c text ih =>
    rw [encode_cons, List.append_assoc, decodeFrom_utf8EncodeChar, Decoded.cons, ih,
      List.cons_append]

/-- No character is encoded like the beginning of other ones. -/
theorem encode_isPrefix_iff : encode lead <+: encode text ↔ lead <+: text := by
  constructor
  · rintro ⟨data, hdata⟩
    have htext : decode (encode text) = ⟨text, none⟩ := decode_encode text
    have hchars := chars_decodeFrom_encode lead data
    rw [hdata, ← decode, htext] at hchars
    exact ⟨_, hchars.symm⟩
  · rintro ⟨behind, rfl⟩
    rw [encode_append]
    exact List.prefix_append ..

end Utf8

namespace Hex

/-- Whether an octet is that of a digit. -/
def isDigitOctet (b : UInt8) : Bool :=
  (0x30 ≤ b && b ≤ 0x39) || (0x61 ≤ b && b ≤ 0x66) || (0x41 ≤ b && b ≤ 0x46)

theorem isDigitOctet_eq_false {b : UInt8} (h : 0x80 ≤ b.toNat) : isDigitOctet b = false := by
  simp only [isDigitOctet, UInt8.le_iff_toNat_le, UInt8.reduceToNat, Bool.or_eq_false_iff,
    Bool.and_eq_false_iff, decide_eq_false_iff_not]
  omega

theorem all_utf8EncodeChar (c : Char) :
    (String.utf8EncodeChar c).all isDigitOctet = isDigit c := by
  by_cases hc : c.toNat < 0x80
  · rw [Utf8.utf8EncodeChar_ascii hc]
    exact Utf8.of_ascii (p := fun c => [UInt8.ofNat c.toNat].all isDigitOctet = isDigit c)
      (by decide +kernel) hc
  · have hdigit : isDigit c = false := eq_false_of_ne_true fun h => hc (toNat_lt_of_isDigit h)
    obtain ⟨b, rest, hoctets⟩ : ∃ b rest, String.utf8EncodeChar c = b :: rest :=
      List.exists_cons_of_ne_nil String.utf8EncodeChar_ne_nil
    have hb : 0x80 ≤ b.toNat :=
      Utf8.le_of_mem_utf8EncodeChar (Nat.le_of_not_lt hc) (hoctets ▸ List.mem_cons_self ..)
    rw [hoctets, List.all_cons, isDigitOctet_eq_false hb, hdigit, Bool.false_and]

theorem all_encode (text : List Char) : (Utf8.encode text).all isDigitOctet = text.all isDigit := by
  induction text with
  | nil => rfl
  | cons c text ih =>
    rw [Utf8.encode_cons, List.all_append, all_utf8EncodeChar, ih, List.all_cons]

end Hex

namespace IdKind

variable {kind : IdKind} {id : String}

/-- The check as it goes over the octets of a text. A condition is looked at only where those
before it hold, and there is no result where the text would be cut inside of a character. -/
def examine (kind : IdKind) (id : String) : Option Bool :=
  let octets := Utf8.ofString id
  let lead := Utf8.encode kind.lead
  if octets.length = lead.length + keyDigits then
    if lead.isPrefixOf octets then
      if Text.isBoundary id.toList lead.length then
        some ((octets.drop lead.length).all Hex.isDigitOctet)
      else none
    else some false
  else some false

/-- The characters in front are not followed by a part of a character. -/
theorem isBoundary_of_isPrefix (h : Utf8.encode kind.lead <+: Utf8.ofString id) :
    Text.isBoundary id.toList (Utf8.encode kind.lead).length := by
  refine Text.isBoundary_iff.2 ⟨kind.lead, Utf8.encode_isPrefix_iff.1 h, ?_⟩
  rw [Text.size_eq_length]

theorem examine_eq (kind : IdKind) (id : String) : kind.examine id = some (kind.accepts id) := by
  have hcount : Text.size id.toList = (Utf8.ofString id).length := Text.size_eq_length _
  have hfirst : Text.size kind.lead = (Utf8.encode kind.lead).length := Text.size_eq_length _
  have hprefix : (Utf8.encode kind.lead).isPrefixOf (Utf8.ofString id) =
      kind.lead.isPrefixOf id.toList := by
    rw [Bool.eq_iff_iff, List.isPrefixOf_iff_prefix, List.isPrefixOf_iff_prefix, Utf8.ofString,
      Utf8.encode_isPrefix_iff]
  rw [examine, accepts, hprefix, hcount, hfirst]
  by_cases hsize : (Utf8.ofString id).length = (Utf8.encode kind.lead).length + keyDigits
  · by_cases hlead : kind.lead.isPrefixOf id.toList
    · obtain ⟨digits, hsplit⟩ := List.isPrefixOf_iff_prefix.1 hlead
      have hoctets : Utf8.ofString id = Utf8.encode kind.lead ++ Utf8.encode digits := by
        rw [Utf8.ofString, ← hsplit, Utf8.encode_append]
      have hboundary := isBoundary_of_isPrefix (hoctets ▸ List.prefix_append ..)
      have hdrop := Text.dropOctets?_append kind.lead digits
      rw [hfirst, hsplit] at hdrop
      have hall : ((Utf8.ofString id).drop (Utf8.encode kind.lead).length).all Hex.isDigitOctet =
          digits.all Hex.isDigit := by
        rw [hoctets, List.drop_left, Hex.all_encode]
      simp [hsize, hlead, hboundary, hdrop, hall]
    · simp [hsize, hlead]
  · simp [hsize]

/-- What is done under a text that must be an identifier of some kind: a draft is asked for, a
member is put into a legacy group, the details of a group are created, or a blinded id is read. -/
inductive TakenBy : (kind : IdKind) → {α : Type} → (String → Except SyncError α) → Prop
  | contact (config : Config .contacts) : TakenBy .account config.contactDraft
  | member (config : Config .members) : TakenBy .account config.memberDraft
  | oneToOne (config : Config .conversations) : TakenBy .account config.oneToOneDraft
  | groupChat (config : Config .conversations) : TakenBy .group config.groupChatDraft
  | legacyChat (config : Config .conversations) : TakenBy .account config.legacyChatDraft
  | group (config : Config .groups) : TakenBy .group config.groupDraft
  | legacyGroup (config : Config .groups) : TakenBy .account config.legacyGroupDraft
  | inserted (g : LegacyGroup) (admin : Bool) : TakenBy .account fun id => g.insertMember id admin
  | created : TakenBy .group (Config.create .info)
  | blinded : TakenBy .blinded BlindedId.parse

variable {α : Type} {take : String → Except SyncError α} {e : SyncError}

theorem TakenBy.exists_ok (h : kind.TakenBy take) (hid : kind.accepts id) :
    ∃ a, take id = .ok a := by
  have hcheck : kind.check id = .ok () := if_pos hid
  cases h with
  | contact config | member config | inserted g admin | created | blinded =>
    simp only [Config.contactDraft, Config.memberDraft, LegacyGroup.insertMember, Config.create,
      BlindedId.parse, hcheck]
    exact ⟨_, rfl⟩
  | _ =>
    simp only [Config.oneToOneDraft, Config.groupChatDraft, Config.legacyChatDraft,
      Config.groupDraft, Config.legacyGroupDraft, hcheck, bind, Except.bind]
    split <;> exact ⟨_, rfl⟩

theorem TakenBy.eq_error (h : kind.TakenBy take) (hid : ¬ kind.accepts id) :
    take id = .error (.invalidId id) := by
  have hcheck : kind.check id = .error (.invalidId id) := if_neg hid
  cases h with
  | _ =>
    simp only [Config.contactDraft, Config.memberDraft, Config.oneToOneDraft,
      Config.groupChatDraft, Config.legacyChatDraft, Config.groupDraft, Config.legacyGroupDraft,
      LegacyGroup.insertMember, Config.create, BlindedId.parse, hcheck]
    rfl

theorem TakenBy.exists_ok_iff (h : kind.TakenBy take) :
    (∃ a, take id = .ok a) ↔ kind.IsIdentifier id := by
  rw [← accepts_iff_isIdentifier]
  refine ⟨fun ⟨a, ha⟩ => ?_, h.exists_ok⟩
  by_contra hid
  rw [h.eq_error hid] at ha
  cases ha

/-- Any other text is refused, and named in the error. -/
theorem TakenBy.eq_error_iff (h : kind.TakenBy take) :
    take id = .error e ↔ ¬ kind.IsIdentifier id ∧ e = .invalidId id := by
  rw [← accepts_iff_isIdentifier]
  constructor
  · intro he
    have hid : ¬ kind.accepts id := fun hid => by
      obtain ⟨a, ha⟩ := h.exists_ok hid
      rw [ha] at he
      cases he
    rw [h.eq_error hid] at he
    exact ⟨hid, (Except.error.inj he).symm⟩
  · rintro ⟨hid, rfl⟩
    exact h.eq_error hid

end IdKind

namespace LegacyGroup

/-- Puts a member into the group in its place: an answer, and what the group is behind it. -/
def putMember (g : LegacyGroup) (id : String) (admin : Bool) :
    Except SyncError Bool × LegacyGroup :=
  match IdKind.account.check id with
  | .error e => (.error e, g)
  | .ok () =>
    (.ok (g.people.get? id ≠ some admin), { g with people := g.people.insert id admin })

theorem insertMember_eq (g : LegacyGroup) (id : String) (admin : Bool) :
    g.insertMember id admin =
      (g.putMember id admin).1.map fun changed => (changed, (g.putMember id admin).2) := by
  rw [insertMember, putMember]
  cases IdKind.account.check id <;> rfl

end LegacyGroup

namespace IdKind

/-- The check of a text comes to the cut only where the octets in front are those of the kind, and
there the text may be cut, since a character ends. So the check always has a result, and it accepts
exactly the identifiers, which are made of the characters in front and 64 digits. Whatever takes an
identifier succeeds for these, and refuses any other text by an error that has the text itself. A
legacy group is then as it was before. -/
theorem examined_without_cutting_characters (kind : IdKind) (id : String) :
    ((Utf8.ofString id).length = (Utf8.encode kind.lead).length + keyDigits →
      Utf8.encode kind.lead <+: Utf8.ofString id →
        Text.isBoundary id.toList (Utf8.encode kind.lead).length = true) ∧
    kind.examine id = some (kind.accepts id) ∧
    (kind.accepts id ↔ kind.IsIdentifier id) ∧
    (∀ {α : Type} (take : String → Except SyncError α), kind.TakenBy take →
      ((∃ a, take id = .ok a) ↔ kind.IsIdentifier id) ∧
      ∀ e, take id = .error e ↔ ¬ kind.IsIdentifier id ∧ e = .invalidId id) ∧
    ∀ (g : LegacyGroup) (admin : Bool),
      g.insertMember id admin =
        (g.putMember id admin).1.map (fun changed => (changed, (g.putMember id admin).2)) ∧
      (¬ IdKind.account.IsIdentifier id →
        g.putMember id admin = (.error (.invalidId id), g)) := by
  refine ⟨fun _ => isBoundary_of_isPrefix, examine_eq kind id, accepts_iff_isIdentifier,
    fun take h => ⟨h.exists_ok_iff, fun _ => h.eq_error_iff⟩, fun g admin =>
    ⟨g.insertMember_eq id admin, fun hid => ?_⟩⟩
  rw [← accepts_iff_isIdentifier] at hid
  rw [LegacyGroup.putMember, check, if_neg hid]

/-- Text with as many octets as an identifier, the right ones in front, but fewer characters. -/
theorem wide_characters_refused :
    let id := String.ofList ('0' :: '5' :: List.replicate 32 'é')
    let config : Config .contacts := { content := KeyMap.empty }
    ((Utf8.ofString id).length = (Utf8.encode account.lead).length + keyDigits ∧
      Utf8.encode account.lead <+: Utf8.ofString id ∧ account.TakenBy config.contactDraft) ∧
    Text.isBoundary id.toList (Utf8.encode account.lead).length = true ∧
    account.examine id = some false ∧ config.contactDraft id = .error (.invalidId id) := by
  intro id config
  have hsize : (Utf8.ofString id).length = (Utf8.encode account.lead).length + keyDigits := by
    decide +kernel
  have hlead : Utf8.encode account.lead <+: Utf8.ofString id :=
    List.isPrefixOf_iff_prefix.1 (by decide +kernel)
  have haccepts : account.accepts id = false := by decide +kernel
  obtain ⟨hboundary, hexamine, hform, htaken, -⟩ := examined_without_cutting_characters account id
  have hnot : ¬ account.IsIdentifier id := fun h => by
    rw [hform.2 h] at haccepts
    cases haccepts
  exact ⟨⟨hsize, hlead, .contact config⟩, hboundary hsize hlead, by rw [hexamine, haccepts],
    ((htaken _ (.contact config)).2 _).2 ⟨hnot, rfl⟩⟩

end IdKind
end SyncedConfig
