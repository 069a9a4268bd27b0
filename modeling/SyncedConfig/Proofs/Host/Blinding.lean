import SyncedConfig.Host.Abi
import SyncedConfig.Proofs.IdentifierCheck
import SyncedConfig.Proofs.Text.Valid

/-!
# Blinded ids come in pairs

Whether the two blinded ids that are derived for a host are passed on as they come or only if they
are well formed, both ways agree on the ids that are well formed, and the checked way tells why
there are none. To a host that has a routine of its own either both ids are handed over, as the
routine wrote them, or nothing is.
-/
namespace SyncedConfig

open Identifier IdKind

namespace BlindedId

variable {id other : String} {a b : BlindedId}

theorem parse_of_isIdentifier (h : blinded.IsIdentifier id) : parse id = .ok ⟨small id⟩ := by
  have hcheck : blinded.check id = .ok () := if_pos (accepts_iff_isIdentifier.2 h)
  rw [parse, hcheck]
  rfl

theorem parse_eq_ok_iff : parse id = .ok a ↔ blinded.IsIdentifier id ∧ a.text = small id := by
  constructor
  · intro h
    have hid : blinded.IsIdentifier id := TakenBy.blinded.exists_ok_iff.1 ⟨a, h⟩
    rw [parse_of_isIdentifier hid] at h
    cases h
    exact ⟨hid, rfl⟩
  · rintro ⟨hid, htext⟩
    rw [parse_of_isIdentifier hid, ← htext]

/-- The text of a blinded id is read as the same one. -/
theorem parse_text (h : parse id = .ok a) : parse a.text = .ok a := by
  obtain ⟨hid, htext⟩ := parse_eq_ok_iff.1 h
  rw [parse_eq_ok_iff, htext, small_small, ← accepts_iff_isIdentifier, accepts_small,
    accepts_iff_isIdentifier]
  exact ⟨hid, rfl⟩

theorem eq_iff_small_eq (ha : parse id = .ok a) (hb : parse other = .ok b) :
    a = b ↔ small id = small other := by
  obtain ⟨-, hatext⟩ := parse_eq_ok_iff.1 ha
  obtain ⟨-, hbtext⟩ := parse_eq_ok_iff.1 hb
  rw [← hatext, ← hbtext]
  cases a
  cases b
  simp

end BlindedId

namespace BlindedIds

/-- Why a derivation leads to no blinded ids: it fails, or the first id that is not well formed. -/
inductive Refused : Except SyncError (String × String) → SyncError → Prop
  | failed (e : SyncError) : Refused (.error e) e
  | first {x : String} (y : String) (h : ¬ blinded.IsIdentifier x) :
      Refused (.ok (x, y)) (.invalidId x)
  | second {x y : String} (h : blinded.IsIdentifier x) (h' : ¬ blinded.IsIdentifier y) :
      Refused (.ok (x, y)) (.invalidId y)

variable {blinder : Blinder} {sessionId serverKey : String} {a b : BlindedId} {cause : SyncError}
  {e : HostError}

/-- There is a reason unless both ids are well formed. -/
theorem refused_or_isIdentifier (outcome : Except SyncError (String × String)) :
    (∃ cause, Refused outcome cause) ∨
      ∃ x y, outcome = .ok (x, y) ∧ blinded.IsIdentifier x ∧ blinded.IsIdentifier y := by
  rcases outcome with e | ⟨x, y⟩
  · exact .inl ⟨e, .failed e⟩
  by_cases hx : blinded.IsIdentifier x
  · by_cases hy : blinded.IsIdentifier y
    · exact .inr ⟨x, y, rfl, hx, hy⟩
    · exact .inl ⟨_, .second hx hy⟩
  · exact .inl ⟨_, .first y hx⟩

theorem deriveChecked_eq_ok_iff : deriveChecked blinder sessionId serverKey = .ok (a, b) ↔
    ∃ x y, blinder sessionId serverKey = .ok (x, y) ∧
      BlindedId.parse x = .ok a ∧ BlindedId.parse y = .ok b := by
  rw [deriveChecked]
  rcases blinder sessionId serverKey with e | ⟨x, y⟩
  · simp [Except.mapError, bind, Except.bind]
  · cases hx : BlindedId.parse x <;> cases hy : BlindedId.parse y <;>
      simp [Except.mapError, bind, Except.bind, pure, Except.pure, hx, hy]

theorem deriveChecked_of_refused (h : Refused (blinder sessionId serverKey) cause) :
    deriveChecked blinder sessionId serverKey = .error (.blinding cause) := by
  rw [deriveChecked]
  generalize blinder sessionId serverKey = outcome at h
  cases h with
  | failed => rfl
  | @first x y hx =>
    have hparse : BlindedId.parse x = .error (.invalidId x) :=
      TakenBy.blinded.eq_error_iff.2 ⟨hx, rfl⟩
    simp [Except.mapError, bind, Except.bind, hparse]
  | @second x y hx hy =>
    have hparse : BlindedId.parse y = .error (.invalidId y) :=
      TakenBy.blinded.eq_error_iff.2 ⟨hy, rfl⟩
    simp [Except.mapError, bind, Except.bind, BlindedId.parse_of_isIdentifier hx, hparse]

theorem deriveChecked_eq_error_iff : deriveChecked blinder sessionId serverKey = .error e ↔
    ∃ cause, e = .blinding cause ∧ Refused (blinder sessionId serverKey) cause := by
  constructor
  · intro he
    rcases refused_or_isIdentifier (blinder sessionId serverKey) with
      ⟨cause, hcause⟩ | ⟨x, y, houtcome, hx, hy⟩
    · rw [deriveChecked_of_refused hcause] at he
      exact ⟨cause, (Except.error.inj he).symm, hcause⟩
    · have hok := deriveChecked_eq_ok_iff.2 ⟨x, y, houtcome, BlindedId.parse_of_isIdentifier hx,
        BlindedId.parse_of_isIdentifier hy⟩
      rw [hok] at he
      cases he
  · rintro ⟨cause, rfl, hcause⟩
    exact deriveChecked_of_refused hcause

/-- The checked derivation gives blinded ids exactly if the routine gives two ids that are well
formed, which the unchecked one then passes on. They have the same digits, but small ones, and are
read again from their texts. Otherwise the error tells that the routine failed, or names the first
id that is not well formed. Where the routine fails the unchecked derivation gives two empty texts.
Blinded ids are the same exactly if they are read from texts that differ in nothing but the case of
letters. -/
theorem derivations_agree (blinder : Blinder) (sessionId serverKey : String) :
    let outcome := blinder sessionId serverKey
    let ids := derive blinder sessionId serverKey
    let checked := deriveChecked blinder sessionId serverKey
    (∀ a b, checked = .ok (a, b) ↔ ∃ x y, outcome = .ok (x, y) ∧
      (blinded.IsIdentifier x ∧ a.text = small x) ∧ blinded.IsIdentifier y ∧ b.text = small y) ∧
    (∀ a b, checked = .ok (a, b) → outcome = .ok (ids.first, ids.second) ∧ ids.isEmpty = false ∧
      BlindedId.parse a.text = .ok a ∧ BlindedId.parse b.text = .ok b) ∧
    (∀ e, checked = .error e ↔ ∃ cause, e = .blinding cause ∧ Refused outcome cause) ∧
    (∀ e, outcome = .error e → ids.first = "" ∧ ids.second = "") ∧
    ∀ x y a b, BlindedId.parse x = .ok a → BlindedId.parse y = .ok b →
      (a = b ↔ small x = small y) := by
  intro outcome ids checked
  refine ⟨fun a b => ?_, fun a b hchecked => ?_, fun e => deriveChecked_eq_error_iff,
    fun e he => ?_, fun x y a b => BlindedId.eq_iff_small_eq⟩
  · rw [deriveChecked_eq_ok_iff]
    simp only [BlindedId.parse_eq_ok_iff]
    rfl
  · obtain ⟨x, y, houtcome, hx, hy⟩ := deriveChecked_eq_ok_iff.1 hchecked
    have hids : ids = ⟨x, y⟩ := by
      change ofOutcome outcome = _
      rw [show outcome = .ok (x, y) from houtcome, ofOutcome]
    have hempty : x ≠ "" := (BlindedId.parse_eq_ok_iff.1 hx).1.ne_empty
    rw [hids]
    exact ⟨houtcome, by simp [isEmpty, hempty], BlindedId.parse_text hx, BlindedId.parse_text hy⟩
  · have hids : ids = {} := by
      change ofOutcome outcome = _
      rw [he, ofOutcome]
    exact ⟨by rw [hids], by rw [hids]⟩

/-- Capital digits are passed on as they come, but small ones if they are checked, while a routine
that fails leads to two empty texts or to its error. -/
theorem capital_digits_agree :
    let capital := "15" ++ String.ofList (.replicate 64 'A')
    let little := "15" ++ String.ofList (.replicate 64 'a')
    let blinder : Blinder := fun _ _ => .ok (capital, little)
    let broken : Blinder := fun _ _ => .error (.blinding "no key")
    (blinded.IsIdentifier capital ∧ blinded.IsIdentifier little) ∧
    (deriveChecked blinder "" "" = .ok (⟨little⟩, ⟨little⟩) ∧
      (derive blinder "" "").first = capital ∧ BlindedId.parse little = .ok ⟨little⟩) ∧
    deriveChecked broken "" "" = .error (.blinding (.blinding "no key")) ∧
    (derive broken "" "").first = "" := by
  intro capital little blinder broken
  have hcapital : blinded.IsIdentifier capital := accepts_iff_isIdentifier.1 (by decide +kernel)
  have hlittle : blinded.IsIdentifier little := accepts_iff_isIdentifier.1 (by decide +kernel)
  have hsmall : little = small capital ∧ little = small little := by decide +kernel
  obtain ⟨hread, hagree, -⟩ := derivations_agree blinder "" ""
  obtain ⟨-, -, hrefused, hfailed, -⟩ := derivations_agree broken "" ""
  have hchecked : deriveChecked blinder "" "" = .ok (⟨little⟩, ⟨little⟩) :=
    (hread _ _).2 ⟨capital, little, rfl, ⟨hcapital, hsmall.1⟩, hlittle, hsmall.2⟩
  exact ⟨⟨hcapital, hlittle⟩, ⟨hchecked, rfl, (hagree _ _ hchecked).2.2.1⟩,
    (hrefused _).2 ⟨_, rfl, .failed _⟩, (hfailed _ rfl).1⟩

end BlindedIds

/-- Whether some data is text. -/
def Utf8.IsText (data : Bytes) : Prop := ∃ text, ofString text = data

namespace Abi

variable {filled : Filled} {x y : String}

def Filled.both (filled : Filled) : HandedIds where
  first? := filled.first.toList
  firstLength := blindedIdLength
  second? := filled.second.toList
  secondLength := blindedIdLength

theorem Filled.ids_eq_ok_iff : filled.ids = .ok (x, y) ↔ filled.accepted ∧
    Utf8.ofString x = filled.first.toList ∧ Utf8.ofString y = filled.second.toList := by
  rw [ids, ← Utf8.toText_eq_ok_iff, ← Utf8.toText_eq_ok_iff]
  cases filled.accepted
  · simp [throw, throwThe, MonadExceptOf.throw, bind, Except.bind]
  · cases Utf8.toText filled.first.toList <;> cases Utf8.toText filled.second.toList <;>
      simp [Except.mapError, bind, Except.bind, pure, Except.pure]

theorem handOver_eq {buffer : Vector UInt8 blindedIdLength} (h : Utf8.ofString x = buffer.toList) :
    x ≠ "" ∧ handOver x = (some buffer.toList, blindedIdLength) := by
  have hempty : x ≠ "" := by
    rintro rfl
    have hlength : (Utf8.ofString "").length = blindedIdLength := by rw [h, Vector.length_toList]
    cases hlength
  refine ⟨hempty, ?_⟩
  simp only [handOver, if_neg hempty, h, Vector.length_toList]

theorem Filled.handed_eq_both (h : filled.ids = .ok (x, y)) : filled.handed = filled.both := by
  obtain ⟨-, hfirst, hsecond⟩ := ids_eq_ok_iff.1 h
  obtain ⟨hx, hxhanded⟩ := handOver_eq hfirst
  obtain ⟨hy, hyhanded⟩ := handOver_eq hsecond
  simp [handed, h, BlindedIds.ofOutcome, HandedIds.ofIds, hx, hy, hxhanded, hyhanded, both]

theorem Filled.handed_eq_none {e : SyncError} (h : filled.ids = .error e) :
    filled.handed = ⟨none, 0, none, 0⟩ := by
  simp [handed, h, BlindedIds.ofOutcome, HandedIds.ofIds]

theorem Filled.handed_cases (filled : Filled) :
    filled.handed = ⟨none, 0, none, 0⟩ ∨ filled.handed = filled.both := by
  cases h : filled.ids with
  | error e => exact .inl (handed_eq_none h)
  | ok ids => exact .inr (handed_eq_both h)

theorem Filled.handed_eq_both_iff : filled.handed = filled.both ↔
    filled.accepted ∧ Utf8.IsText filled.first.toList ∧ Utf8.IsText filled.second.toList := by
  constructor
  · intro h
    cases hids : filled.ids with
    | error e =>
      rw [handed_eq_none hids] at h
      cases h
    | ok ids =>
      obtain ⟨haccepted, hfirst, hsecond⟩ := ids_eq_ok_iff.1 hids
      exact ⟨haccepted, ⟨_, hfirst⟩, ⟨_, hsecond⟩⟩
  · rintro ⟨haccepted, ⟨x, hx⟩, ⟨y, hy⟩⟩
    exact handed_eq_both (ids_eq_ok_iff.2 ⟨haccepted, hx, hy⟩)

/-- If both buffers are handed over, they tell all that a routine has left. -/
theorem Filled.eq_of_handed_eq_both {first second : Vector UInt8 blindedIdLength}
    (h : filled.handed = both ⟨true, first, second⟩) : filled = ⟨true, first, second⟩ := by
  rcases filled.handed_cases with hnone | hboth
  · rw [hnone] at h
    cases h
  · have haccepted : filled.accepted = true := (handed_eq_both_iff.1 hboth).1
    rw [hboth] at h
    have hfirst : filled.first.toList = first.toList :=
      Option.some.inj (congrArg HandedIds.first? h)
    have hsecond : filled.second.toList = second.toList :=
      Option.some.inj (congrArg HandedIds.second? h)
    obtain ⟨accepted, x, y⟩ := filled
    rw [Filled.mk.injEq]
    exact ⟨haccepted, Vector.toList_inj.1 hfirst, Vector.toList_inj.1 hsecond⟩

/-- There are both buffers or neither of them, and each length is that of its buffer. -/
structure HandedIds.Matched (ids : HandedIds) : Prop where
  together : ids.first?.isSome = ids.second?.isSome
  firstLength_eq : ids.firstLength = (ids.first?.getD []).length
  secondLength_eq : ids.secondLength = (ids.second?.getD []).length

theorem Filled.matched_handed (filled : Filled) : filled.handed.Matched := by
  rcases filled.handed_cases with h | h
  · rw [h]
    exact ⟨rfl, rfl, rfl⟩
  · rw [h]
    exact ⟨rfl, (Vector.length_toList ..).symm, (Vector.length_toList ..).symm⟩

section Routines

variable {m : Type → Type} [Monad m] {routine? : Option (Routine m)} {sessionId serverKey : Bytes}

/-- A routine is run once, on exactly the octets of the host. -/
theorem createIds_of_isText {routine : Routine m} (hid : Utf8.IsText sessionId)
    (hkey : Utf8.IsText serverKey) : createIds (some routine) sessionId serverKey = do
      let filled ← routine sessionId serverKey
      return filled.handed := by
  obtain ⟨id, rfl⟩ := hid
  obtain ⟨key, rfl⟩ := hkey
  have hidText : Utf8.toText (Utf8.ofString id) = .ok id := Utf8.toText_eq_ok_iff.2 rfl
  have hkeyText : Utf8.toText (Utf8.ofString key) = .ok key := Utf8.toText_eq_ok_iff.2 rfl
  simp only [createIds, hidText, hkeyText]

/-- Nothing is run where there is no routine, or its input would not be text. -/
theorem createIds_eq_pure
    (h : routine? = none ∨ ¬ Utf8.IsText sessionId ∨ ¬ Utf8.IsText serverKey) :
    createIds routine? sessionId serverKey = pure ⟨none, 0, none, 0⟩ := by
  rcases routine? with - | routine
  · rfl
  cases hid : Utf8.toText sessionId with
  | error defect => simp only [createIds, hid]
  | ok id =>
    cases hkey : Utf8.toText serverKey with
    | error defect => simp only [createIds, hid, hkey]
    | ok key =>
      rcases h with h | h | h
      · cases h
      · exact absurd ⟨id, Utf8.toText_eq_ok_iff.1 hid⟩ h
      · exact absurd ⟨key, Utf8.toText_eq_ok_iff.1 hkey⟩ h

end Routines

section PureRoutines

variable {routine? : Option (Routine Id)} {sessionId serverKey : Bytes}

/-- A routine that does nothing else has both its buffers handed over exactly if it is run, takes
its input and leaves text in both. -/
theorem run_createIds_eq_iff {first second : Vector UInt8 blindedIdLength} :
    Id.run (createIds routine? sessionId serverKey) = Filled.both ⟨true, first, second⟩ ↔
      ∃ routine, routine? = some routine ∧ Utf8.IsText sessionId ∧ Utf8.IsText serverKey ∧
        Id.run (routine sessionId serverKey) = ⟨true, first, second⟩ ∧
        Utf8.IsText first.toList ∧ Utf8.IsText second.toList := by
  constructor
  · intro h
    by_cases hnone : routine? = none ∨ ¬ Utf8.IsText sessionId ∨ ¬ Utf8.IsText serverKey
    · rw [createIds_eq_pure hnone] at h
      cases h
    · obtain ⟨hsome, hid, hkey⟩ : routine? ≠ none ∧ Utf8.IsText sessionId ∧ Utf8.IsText serverKey :=
        by simpa only [not_or, not_not] using hnone
      obtain ⟨routine, rfl⟩ := Option.ne_none_iff_exists'.1 hsome
      rw [createIds_of_isText hid hkey] at h
      change (Id.run (routine sessionId serverKey)).handed = _ at h
      have hfilled := Filled.eq_of_handed_eq_both h
      rw [hfilled, Filled.handed_eq_both_iff] at h
      exact ⟨routine, rfl, hid, hkey, hfilled, h.2⟩
  · rintro ⟨routine, rfl, hid, hkey, hfilled, htexts⟩
    rw [createIds_of_isText hid hkey]
    change (Id.run (routine sessionId serverKey)).handed = _
    rw [hfilled]
    exact Filled.handed_eq_both_iff.2 ⟨rfl, htexts⟩

end PureRoutines

/-- Let a host have blinded ids derived, with or without a routine and from any octets. If there is
a routine and the octets are text, then it is run on just these octets; otherwise nothing is run at
all and nothing is handed over. However the routine fills its buffers, either nothing is handed
over, or both buffers are as they were filled; and this is so exactly if the routine took its input
and both buffers are text. So there is never one buffer without the other, nor a length that is not
that of its buffer. Of a routine that does nothing else, what is handed over tells all of this. -/
theorem blinded_ids_all_or_nothing {m : Type → Type} [Monad m] (routine? : Option (Routine m))
    (sessionId serverKey : Bytes) :
    (∀ routine, routine? = some routine → Utf8.IsText sessionId → Utf8.IsText serverKey →
      createIds routine? sessionId serverKey = do
        let filled ← routine sessionId serverKey
        return filled.handed) ∧
    (routine? = none ∨ ¬ Utf8.IsText sessionId ∨ ¬ Utf8.IsText serverKey →
      createIds routine? sessionId serverKey = pure ⟨none, 0, none, 0⟩) ∧
    (∀ filled : Filled,
      (filled.handed = ⟨none, 0, none, 0⟩ ∨ filled.handed = filled.both) ∧
      (filled.handed = filled.both ↔ filled.accepted ∧
        Utf8.IsText filled.first.toList ∧ Utf8.IsText filled.second.toList) ∧
      filled.handed.Matched) ∧
    ∀ (plain? : Option (Routine Id)) (first second : Vector UInt8 blindedIdLength),
      Id.run (createIds plain? sessionId serverKey) =
          ⟨some first.toList, blindedIdLength, some second.toList, blindedIdLength⟩ ↔
        ∃ routine, plain? = some routine ∧ Utf8.IsText sessionId ∧ Utf8.IsText serverKey ∧
          Id.run (routine sessionId serverKey) = ⟨true, first, second⟩ ∧
          Utf8.IsText first.toList ∧ Utf8.IsText second.toList := by
  refine ⟨?_, createIds_eq_pure, fun filled =>
    ⟨filled.handed_cases, Filled.handed_eq_both_iff, filled.matched_handed⟩, fun _ _ _ =>
    run_createIds_eq_iff⟩
  rintro routine rfl hid hkey
  exact createIds_of_isText hid hkey

/-- A routine that notes its calls is called once, and not for a key that is not text. -/
theorem noted_calls :
    let filled : Filled := ⟨true, .replicate blindedIdLength 0x61, .replicate blindedIdLength 0x62⟩
    let routine : Routine (StateM (List (Bytes × Bytes))) := fun sessionId serverKey => do
      modify ((sessionId, serverKey) :: ·)
      return filled
    (Utf8.IsText [0x78] ∧ Utf8.IsText [0xc3, 0xa9] ∧ ¬ Utf8.IsText [0xff]) ∧
    (createIds (some routine) [0x78] [0xc3, 0xa9]).run [] =
      (filled.both, [([0x78], [0xc3, 0xa9])]) ∧
    (createIds (some routine) [0x78] [0xff]).run [] = (⟨none, 0, none, 0⟩, []) := by
  intro filled routine
  have hid : Utf8.IsText [0x78] := ⟨"x", by decide⟩
  have hkey : Utf8.IsText [0xc3, 0xa9] := ⟨"é", by decide⟩
  have hbroken : ¬ Utf8.IsText [0xff] := by
    rintro ⟨text, htext⟩
    cases Utf8.toText_eq_ok_iff.2 htext
  have hfilled : Utf8.IsText filled.first.toList ∧ Utf8.IsText filled.second.toList :=
    ⟨⟨.ofList (.replicate 66 'a'), by decide +kernel⟩,
      ⟨.ofList (.replicate 66 'b'), by decide +kernel⟩⟩
  obtain ⟨hrun, -, hhanded, -⟩ := blinded_ids_all_or_nothing (some routine) [0x78] [0xc3, 0xa9]
  obtain ⟨-, hpure, -⟩ := blinded_ids_all_or_nothing (some routine) [0x78] [0xff]
  have hboth : filled.handed = filled.both := (hhanded filled).2.1.2 ⟨rfl, hfilled⟩
  refine ⟨⟨hid, hkey, hbroken⟩, ?_, ?_⟩
  · rw [hrun routine rfl hid hkey, ← hboth]
    rfl
  · rw [hpure (.inr (.inr hbroken))]
    rfl

end Abi
end SyncedConfig
