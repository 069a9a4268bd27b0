import SyncedConfig.Proofs.Collection.Origin
import SyncedConfig.Proofs.DeltaFormat

/-!
# The people of legacy groups

Nobody is put into a legacy group but under the identifier of an account. The reader of data,
though, takes any text for one. So the people of the groups that come about are those with such
identifiers, and those who are in a group as it was read.
-/
namespace SyncedConfig.LegacyGroup

/-- Data is read as a legacy group, as a group of a user, or as a delta that puts the group. -/
inductive ReadFrom (data : Bytes) (g : LegacyGroup) : Prop
  | alone (h : LegacyGroup.schema.decode data = .ok g)
  | tagged (h : UserGroup.schema.decode data = .ok (.legacyGroup g))
  | put (delta : Kind.groups.Change) (h : Kind.groups.changeSchema.decode data = .ok delta)
      (hset : .legacyGroup g ∈ delta.set)

/-- The legacy groups that come about where some data is read. A group is created without people,
edited in all but its people, or read, people are put into it and erased, and it is kept at the end
of a run in which only such groups are put and only such data is merged. -/
inductive Obtained (given : Bytes → Prop) : LegacyGroup → Prop
  | created (sessionId : String) : Obtained given { sessionId, people := .empty }
  | edited {g : LegacyGroup} (hg : Obtained given g) (other : LegacyGroup) :
      Obtained given { other with people := g.people }
  | inserted {g g' : LegacyGroup} {id : String} {admin changed : Bool} (hg : Obtained given g)
      (h : g.insertMember id admin = .ok (changed, g')) : Obtained given g'
  | erased {g : LegacyGroup} (hg : Obtained given g) (id : String) :
      Obtained given (g.eraseMember id).2
  | read {g : LegacyGroup} {data : Bytes} (hdata : given data) (h : g.ReadFrom data) :
      Obtained given g
  | kept {g : LegacyGroup} {id : String} {start : Config .groups} {actions : List (Action .groups)}
      (h : Config.create .groups id = .ok start)
      (hset : ∀ other, .edit (.set (.legacyGroup other)) ∈ actions → Obtained given other)
      (hmerged : ∀ m ∈ start.along Config.delivered actions, given m.data)
      (hmem : .legacyGroup g ∈ (start.run actions).records) : Obtained given g

/-- A person is in a group as it is read. -/
def ReadIn (given : Bytes → Prop) (person : String) : Prop :=
  ∃ data g, given data ∧ ReadFrom data g ∧ person ∈ g.people.keys

variable {given : Bytes → Prop} {g g' : LegacyGroup} {person id : String} {admin changed : Bool}

/-- A member is put exactly under the identifier of an account. -/
theorem insertMember_isOk_iff :
    (∃ result, g.insertMember id admin = .ok result) ↔ IdKind.account.accepts id := by
  simp only [insertMember, IdKind.check]
  split
  next h => exact iff_of_true ⟨_, rfl⟩ h
  next h =>
    refine iff_of_false ?_ h
    rintro ⟨result, hresult⟩
    cases hresult

theorem of_insertMember_eq_ok (h : g.insertMember id admin = .ok (changed, g')) :
    IdKind.account.accepts id ∧ g'.people = g.people.insert id admin := by
  refine ⟨insertMember_isOk_iff.1 ⟨_, h⟩, ?_⟩
  simp only [insertMember, IdKind.check] at h
  split at h
  next =>
    cases h
    rfl
  next => cases h

/-- Every legacy group is read from some data, whoever is in it. -/
theorem exists_readFrom (g : LegacyGroup) : ∃ data, ReadFrom data g := by
  have h : LegacyGroup.schema.WellFormed := by decide
  exact ⟨LegacyGroup.schema.encode g, .alone (LegacyGroup.schema.decode_encode h g)⟩

/-- Whoever is in a group that comes about has the identifier of an account, or is in one as it was
read. -/
theorem Obtained.accepts_or_readIn (h : Obtained given g) :
    ∀ person ∈ g.people.keys, IdKind.account.accepts person ∨ ReadIn given person := by
  induction h with
  | created => exact List.forall_mem_nil _
  | edited _ _ ih => exact ih
  | @inserted g g' id admin changed _ h ih =>
    obtain ⟨haccepts, hpeople⟩ := of_insertMember_eq_ok h
    intro person hperson
    rw [hpeople] at hperson
    rcases KeyMap.mem_keys_insert.1 hperson with rfl | hbefore
    · exact .inl haccepts
    · exact ih person hbefore
  | erased _ id ih => exact fun person hperson => ih person (KeyMap.mem_keys_erase.1 hperson).2
  | @read g data hdata h => exact fun person hperson => .inr ⟨data, g, hdata, h, hperson⟩
  | @kept g id start actions h _ hmerged hmem ih =>
    -- the group was put as it is, by an edit or by a message
    rcases Config.brings_of_mem_records h hmem with hedit | ⟨m, hm, delta, hdecode, hset⟩
    · exact ih g hedit
    · exact fun person hperson =>
        .inr ⟨m.data, g, hmerged m hm, .put delta hdecode hset, hperson⟩

theorem exists_obtained_iff (given : Bytes → Prop) (person : String) :
    (∃ g, Obtained given g ∧ person ∈ g.people.keys) ↔
      IdKind.account.accepts person ∨ ReadIn given person := by
  constructor
  · rintro ⟨g, hg, hperson⟩
    exact hg.accepts_or_readIn person hperson
  · rintro (haccepts | ⟨data, g, hdata, hread, hperson⟩)
    · let blank : LegacyGroup := { sessionId := "", people := .empty }
      have hok : ∃ result, blank.insertMember person true = .ok result :=
        insertMember_isOk_iff.2 haccepts
      obtain ⟨⟨changed, g⟩, hinsert⟩ := hok
      refine ⟨g, .inserted (.created "") hinsert, ?_⟩
      rw [(of_insertMember_eq_ok hinsert).2]
      exact KeyMap.mem_keys_insert.2 (.inl rfl)
    · exact ⟨g, .read hdata hread, hperson⟩

/-- The people of the legacy groups that come about, where some data is read, are those with the
identifier of an account and those who are in a group as it was read, and nobody else. So all of
them have such an identifier exactly if all have it who are in a group as it was read. Nobody is put
into a group under anything else, but every group is read from some data, whoever is in it. -/
theorem people_accepted_or_read (given : Bytes → Prop) :
    (∀ person, (∃ g, Obtained given g ∧ person ∈ g.people.keys) ↔
      IdKind.account.accepts person ∨ ReadIn given person) ∧
    ((∀ g, Obtained given g → ∀ person ∈ g.people.keys, IdKind.account.accepts person) ↔
      ∀ person, ReadIn given person → IdKind.account.accepts person) ∧
    (∀ (g : LegacyGroup) id admin,
      (∃ result, g.insertMember id admin = .ok result) ↔ IdKind.account.accepts id) ∧
    ∀ g, ∃ data, ReadFrom data g := by
  refine ⟨exists_obtained_iff given, ⟨?_, ?_⟩, fun _ _ _ => insertMember_isOk_iff, exists_readFrom⟩
  · rintro h person ⟨data, g, hdata, hread, hperson⟩
    exact h g (.read hdata hread) person hperson
  · intro h g hg person hperson
    exact (hg.accepts_or_readIn person hperson).elim id (h person)

/-- A message that is merged brings a person who cannot be put into any group. -/
theorem merged_with_malformed_person :
    let start : Config .groups := { content := {} }
    let data := Utf8.encode ("\x7b\"set\":[\x7b\"legacy_group\":\x7b\"base\":\x7b\x7d," ++
      "\"session_id\":\"s\",\"enc_pubkey\":[],\"enc_seckey\":[]," ++
      "\"disappearing_timer\":\x7b\"secs\":0,\"nanos\":0\x7d," ++
      "\"members\":\x7b\"x\":true\x7d\x7d\x7d]\x7d").toList
    let g : LegacyGroup := { sessionId := "s", people := KeyMap.empty.insert "x" true }
    Config.create .groups "" = .ok start ∧
      (start.run [.merge [⟨"h", data⟩]]).records = [.legacyGroup g] ∧
      Obtained (· = data) g ∧ "x" ∈ g.people.keys ∧ ¬ IdKind.account.accepts "x" := by
  intro start data g
  have hcreate : Config.create .groups "" = .ok start := rfl
  have hrecords : (start.run [.merge [⟨"h", data⟩]]).records = [.legacyGroup g] := by
    decide +kernel
  have hmerged : ∀ m ∈ start.along Config.delivered [.merge [⟨"h", data⟩]], m.data = data := by
    intro m hm
    simp only [Config.along, Config.delivered, List.append_nil] at hm
    split at hm
    next => rw [List.mem_singleton.1 hm]
    next => cases hm
  have hobtained : Obtained (· = data) g := by
    refine .kept hcreate (fun other hset => ?_) hmerged ?_
    · cases List.mem_singleton.1 hset
    · rw [hrecords]
      exact List.mem_singleton.2 rfl
  exact ⟨hcreate, hrecords, hobtained, by decide, by decide⟩

end SyncedConfig.LegacyGroup
