import SyncedConfig.Proofs.Collection.Communities
import SyncedConfig.Proofs.Collection.Origin
import SyncedConfig.Proofs.Identifier

/-!
# One account under several identifiers

The digits of an identifier may be in either case, and a collection takes the identifiers of one
account that differ in it for different ones. So nothing that is put under one of them is found or
erased under another, and an account has one record at most if whoever puts records spells its
identifier in one way.
-/
namespace SyncedConfig

open Identifier

/-- Identifiers of one account, which differ in nothing but the case of digits. -/
structure SameAccount (a b : String) : Prop where
  accepts : IdKind.account.accepts a
  accepts_other : IdKind.account.accepts b
  small_eq : small a = small b

variable {a b : String}

/-- Identifiers are of one account exactly if they hold one key. -/
theorem sameAccount_iff (ha : IdKind.account.accepts a) (hb : IdKind.account.accepts b) :
    SameAccount a b ↔ publicKey? a = publicKey? b := by
  rw [IdKind.publicKey?_eq_iff ha hb]
  exact ⟨SameAccount.small_eq, fun hsmall => ⟨ha, hb, hsmall⟩⟩

variable {c : CollectionKind} {key : String → c.Key} {ask : String → Request c}

/-- Records that are kept under the identifier of an account, each with the key and the request for
a draft that go with an identifier. -/
inductive ByAccount : (c : CollectionKind) → (String → c.Key) → (String → Request c) → Prop
  | contact : ByAccount .contacts (fun id => id) .contact
  | member : ByAccount .members (fun id => id) .member
  | oneToOne : ByAccount .conversations .oneToOne .oneToOne
  | legacyChat : ByAccount .conversations .legacyGroup .legacyChat
  | legacyGroup : ByAccount .groups .legacyGroup .legacyGroup

/-- A record is kept under an identifier of an account. -/
def About (key : String → c.Key) (a : String) (record : c.Record) : Prop :=
  ∃ b, SameAccount a b ∧ c.keyOf record = key b

namespace ByAccount

theorem key_inj (h : ByAccount c key ask) : key a = key b ↔ a = b := by
  cases h <;> simp

theorem target (h : ByAccount c key ask) (haccepts : IdKind.account.accepts a) :
    ∃ blank, (ask a).target = .ok (key a, blank) := by
  cases h <;> exact ⟨_, by simp only [Request.target, IdKind.check, if_pos haccepts]; rfl⟩

end ByAccount

namespace Config

variable {config start : Config (.collection c)} {record : c.Record}

/-- The draft for an identifier has the key of this identifier, and is the record that is kept
under it if there is one. -/
theorem draft_by_account (h : ByAccount c key ask) (hown : EntryChange.OwnKeys config.get?)
    (haccepts : IdKind.account.accepts a) : ∃ draft, config.draft (ask a) = .ok draft ∧
      c.keyOf draft = key a ∧ ∀ record, config.get? (key a) = some record → draft = record := by
  obtain ⟨blank, htarget⟩ := h.target haccepts
  have hserves := serves hown (ask a)
  rw [Serves, htarget] at hserves
  obtain ⟨draft, hdraft, hkey, hstored, -⟩ := hserves
  refine ⟨draft, hdraft, hkey, fun record hget => ?_⟩
  rw [hget] at hstored
  exact hstored.1

/-- A record that is put under one identifier is the draft for another one only if they are the
same. -/
theorem draft_set_iff (h : ByAccount c key ask) (hown : EntryChange.OwnKeys config.get?)
    (hkey : c.keyOf record = key a) (hb : IdKind.account.accepts b) :
    (config.set record).draft (ask b) = .ok record ↔ a = b := by
  obtain ⟨draft, hdraft, hdraftKey, hstored⟩ := draft_by_account h (ownKeys_set hown record) hb
  rw [hdraft, Except.ok.injEq]
  constructor
  · rintro rfl
    exact h.key_inj.1 (hkey.symm.trans hdraftKey)
  · rintro rfl
    refine hstored record ?_
    rw [get?_set, EntryChange.perform, if_pos hkey.symm]

theorem mem_records_erase_set_iff (h : ByAccount c key ask)
    (hown : EntryChange.OwnKeys config.get?) (hkey : c.keyOf record = key a) :
    record ∈ ((config.set record).erase (key b)).2.records ↔ a ≠ b := by
  have hput : record ∈ (config.set record).records := (mem_records_set hown).2 (.inl rfl)
  rw [mem_records_erase (ownKeys_set hown record), and_iff_right hput, hkey, ne_eq, h.key_inj]

def OneRecordEach (key : String → c.Key) (config : Config (.collection c)) : Prop :=
  ∀ a, ∀ r ∈ config.records, ∀ s ∈ config.records, About key a r → About key a s → r = s

/-- Where no two records are about one account, it stays so when a record is put exactly if what is
kept about its account has the same key. -/
theorem oneRecordEach_set_iff (hown : EntryChange.OwnKeys config.get?)
    (hone : OneRecordEach key config) : OneRecordEach key (config.set record) ↔
      ∀ a, About key a record → ∀ s ∈ config.records, About key a s →
        c.keyOf s = c.keyOf record := by
  constructor
  · intro hset a har s hs has
    by_contra hne
    have heq := hset a s ((mem_records_set hown).2 (.inr ⟨hs, hne⟩)) record
      ((mem_records_set hown).2 (.inl rfl)) has har
    exact hne (congrArg c.keyOf heq)
  · intro hsame a r hr s hs har has
    rcases (mem_records_set hown).1 hr with rfl | ⟨hrkept, hrne⟩ <;>
      rcases (mem_records_set hown).1 hs with rfl | ⟨hskept, hsne⟩
    · rfl
    · exact absurd (hsame a har s hskept has) hsne
    · exact absurd (hsame a has r hrkept har) hrne
    · exact hone a r hrkept s hskept har has

theorem oneRecordEach_run {id : String} (hcreate : create (.collection c) id = .ok start)
    {actions : List (Action (.collection c))}
    (hone : ∀ a r s, start.Brings actions r → start.Brings actions s → About key a r →
      About key a s → c.keyOf r = c.keyOf s) : OneRecordEach key (start.run actions) := by
  intro a r hr s hs har has
  have hown := ownKeys_run hcreate actions
  have hkey := hone a r s (brings_of_mem_records hcreate hr) (brings_of_mem_records hcreate hs)
    har has
  have hget := (mem_records_iff hown).1 hr
  rw [hkey, (mem_records_iff hown).1 hs] at hget
  exact (Option.some.inj hget).symm

/-- Where all identifiers that are brought have small digits, they find and erase whatever is kept
about an account. -/
theorem small_finds_run (h : ByAccount c key ask) {id : String}
    (hcreate : create (.collection c) id = .ok start) {actions : List (Action (.collection c))}
    (hsmall : ∀ a r, start.Brings actions r → About key a r → c.keyOf r = key (small a))
    {r : c.Record} (hr : r ∈ (start.run actions).records) (har : About key a r) :
    (start.run actions).draft (ask (small a)) = .ok r ∧
      ∀ s ∈ ((start.run actions).erase (key (small a))).2.records, ¬ About key a s := by
  have hown := ownKeys_run hcreate actions
  have hkey : c.keyOf r = key (small a) := hsmall a r (brings_of_mem_records hcreate hr) har
  obtain ⟨b, hb, -⟩ := har
  constructor
  · obtain ⟨draft, hdraft, -, hstored⟩ :=
      draft_by_account h hown (IdKind.accepts_small.2 hb.accepts)
    rw [hdraft, hstored r ((get?_eq_some_iff hown).2 ⟨hkey, hr⟩)]
  · intro s hs has
    obtain ⟨hkept, hne⟩ := (mem_records_erase hown).1 hs
    exact hne (hsmall a s (brings_of_mem_records hcreate hkept) has)

/-- Identifiers are of one account exactly if they hold one key. At the end of any run, of a record
that is put under one identifier of an account, each other one of the same account makes a different
draft and leaves the record where it is erased. No two records are about one account if all that are
brought about it have one identifier. If all that are brought have identifiers with small digits,
then the one with small digits finds the record about an account, and to erase it leaves none. -/
theorem one_spelling_one_record (h : ByAccount c key ask) {id : String}
    (hcreate : create (.collection c) id = .ok start) (actions : List (Action (.collection c))) :
    let config := start.run actions
    (∀ a b, IdKind.account.accepts a → IdKind.account.accepts b →
      (SameAccount a b ↔ publicKey? a = publicKey? b)) ∧
    (∀ a b record, SameAccount a b → c.keyOf record = key a →
      ((config.set record).draft (ask b) = .ok record ↔ a = b) ∧
      (record ∈ ((config.set record).erase (key b)).2.records ↔ a ≠ b)) ∧
    (OneRecordEach key config → ∀ record, OneRecordEach key (config.set record) ↔
      ∀ a, About key a record → ∀ s ∈ config.records, About key a s →
        c.keyOf s = c.keyOf record) ∧
    ((∀ a r s, start.Brings actions r → start.Brings actions s → About key a r →
      About key a s → c.keyOf r = c.keyOf s) → OneRecordEach key config) ∧
    ((∀ a r, start.Brings actions r → About key a r → c.keyOf r = key (small a)) →
      ∀ a, ∀ r ∈ config.records, About key a r →
        config.draft (ask (small a)) = .ok r ∧
          ∀ s ∈ (config.erase (key (small a))).2.records, ¬ About key a s) := by
  intro config
  have hown := ownKeys_run hcreate actions
  refine ⟨fun _ _ => sameAccount_iff, ?_, fun hone _ => oneRecordEach_set_iff hown hone,
    oneRecordEach_run hcreate, ?_⟩
  · intro a b record hsame hkey
    exact ⟨draft_set_iff h hown hkey hsame.accepts_other, mem_records_erase_set_iff h hown hkey⟩
  · intro hsmall a r hr har
    exact small_finds_run h hcreate hsmall hr har

/-- A contact that is put under an identifier with small digits is found and erased by it, and a
second one under the same digits in capitals would be one too many. -/
theorem contact_found_by_small_digits :
    let id := String.ofList ('0' :: '5' :: List.replicate 64 'a')
    let capital := String.ofList ('0' :: '5' :: List.replicate 64 'A')
    let start : Config .contacts := { content := {} }
    let contact : Contact := { sessionId := id, name := "n" }
    let actions : List (Action .contacts) := [.edit (.set contact), .markDumped]
    let config := start.run actions
    (ByAccount .contacts (fun id => id) .contact ∧ create .contacts "" = .ok start ∧
      SameAccount capital id) ∧
    config.draft (.contact (small capital)) = .ok contact ∧
      ¬ OneRecordEach (fun id => id) (config.set { contact with sessionId := capital }) := by
  intro id capital start contact actions config
  have hcreate : create .contacts "" = .ok start := rfl
  have hsmall : small capital = id ∧ small id = id := by decide +kernel
  have hcapital : SameAccount capital id :=
    ⟨by decide +kernel, by decide +kernel, hsmall.1.trans hsmall.2.symm⟩
  have hbrings : ∀ r, start.Brings actions r → r = contact := by
    rintro r (hset | ⟨m, hm, -⟩)
    · simpa [actions] using hset
    · cases hm
  have hkeys : ∀ a r, start.Brings actions r → About (c := .contacts) (fun id => id) a r →
      CollectionKind.contacts.keyOf r = small a := by
    rintro a r hr ⟨b, hb, hkey⟩
    obtain rfl := hbrings r hr
    calc CollectionKind.contacts.keyOf contact = small id := hsmall.2.symm
      _ = small b := congrArg small hkey
      _ = small a := hb.small_eq.symm
  have hmem : contact ∈ config.records := by decide +kernel
  have habout : About (c := .contacts) (fun id => id) capital contact := ⟨id, hcapital, rfl⟩
  obtain ⟨-, -, hset, hone, hfinds⟩ := one_spelling_one_record .contact hcreate actions
  refine ⟨⟨.contact, hcreate, hcapital⟩, (hfinds hkeys capital contact hmem habout).1, ?_⟩
  intro hboth
  have hconfig : OneRecordEach (fun id => id) config := by
    refine hone fun a r s hr hs _ _ => ?_
    rw [hbrings r hr, hbrings s hs]
  have hcapitals : SameAccount capital capital := ⟨hcapital.accepts, hcapital.accepts, rfl⟩
  have hsame : id = capital :=
    (hset hconfig _).1 hboth capital ⟨capital, hcapitals, rfl⟩ contact hmem habout
  exact absurd hsame (by decide)

/-- Two contacts for one key, and neither is found or erased under the identifier of the other. -/
theorem capital_digits_split_contact :
    let little := String.ofList ('0' :: '5' :: List.replicate 64 'a')
    let capital := String.ofList ('0' :: '5' :: List.replicate 64 'A')
    let start : Config .contacts := { content := {} }
    let config := start.run [.edit (.set { sessionId := capital, blocked := true })]
    SameAccount capital little ∧ publicKey? capital = publicKey? little ∧
      config.contactDraft little = .ok { sessionId := little } ∧
      (config.erase little).1 = false ∧
      (config.set { sessionId := little }).records =
        [{ sessionId := capital, blocked := true }, { sessionId := little }] := by
  intro little capital start config
  have haccepts : IdKind.account.accepts little := by decide +kernel
  have hcapital : SameAccount capital little := ⟨by decide +kernel, haccepts, by decide +kernel⟩
  have hdraft : config.contactDraft little = .ok { sessionId := little } := by
    have habsent : config.get? little = none := by decide +kernel
    simp only [contactDraft, IdKind.check, if_pos haccepts, habsent]
    rfl
  exact ⟨hcapital, (sameAccount_iff hcapital.accepts haccepts).1 hcapital, hdraft,
    by decide +kernel, by decide +kernel⟩

end Config
end SyncedConfig
