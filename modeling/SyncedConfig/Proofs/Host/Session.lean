import SyncedConfig.Host.Abi
import SyncedConfig.Proofs.Delivery
import SyncedConfig.Proofs.Dump.Plain
import SyncedConfig.Proofs.Host.Report
import SyncedConfig.Proofs.Run
import SyncedConfig.Proofs.Text.Valid

/-!
# Sessions of a host

A host opens a config and then calls for merges and dumps in any order. Each call has one of a few
answers, told apart by whether there is a handle, whether the hash is text and what comes of
merging the message. So a session does to the config what merging its messages one by one does.
-/
namespace SyncedConfig

theorem Kind.ofCode?_eq_some_iff {code : UInt32} {k : Kind} :
    ofCode? code = some k ↔ k.code = code := by
  constructor
  · intro h
    simpa using List.find?_some h
  · rintro rfl
    rcases k with _ | (_ | _ | _ | _) | _ <;> rfl

namespace Abi

inductive Call
  | merge (hash data : Bytes) (buffer? : Option Bytes)
  | dump

/-- What a call returns, and what it leaves in the buffer of the host. -/
inductive Reply
  | merged (accepted : Bool) (buffer? : Option Bytes)
  | dumped (octets : Bytes)

def serve (handle? : Option Handle) : Call → Reply × Option Handle
  | .merge hash data buffer? =>
    let merged := merge handle? hash data buffer?
    (.merged merged.accepted merged.buffer?, merged.handle?)
  | .dump => (.dumped (dump handle?), handle?)

def serveAll (handle? : Option Handle) : List Call → List Reply × Option Handle
  | [] => ([], handle?)
  | call :: rest =>
    let (reply, handle?) := serve handle? call
    let (replies, handle?) := serveAll handle? rest
    (reply :: replies, handle?)

/-- How a call must be answered, and what becomes of the handle. -/
inductive Answers : Option Handle → Call → Reply → Option Handle → Prop
  | dumpsNone : Answers none .dump (.dumped (Utf8.ofString emptyDocument ++ [0])) none
  | dumps (h : Handle) : Answers (some h) .dump (.dumped (Utf8.ofString h.dump ++ [0])) (some h)
  /-- Nothing is merged without a handle. -/
  | noHandle {hash data : Bytes} {before after : Option Bytes}
      (report : before.Rel (Reported (some "null config handle")) after) :
      Answers none (.merge hash data before) (.merged false after) none
  /-- Nothing is merged under a hash that is not text, whether or not there is any data. -/
  | noText {h : Handle} {hash data : Bytes} {defect : String} {before after : Option Bytes}
      (htext : ∀ text, Utf8.ofString text ≠ hash) (hdefect : Utf8.toText hash = .error defect)
      (report : before.Rel (Reported (some ("hash is not valid utf-8: " ++ defect))) after) :
      Answers (some h) (.merge hash data before) (.merged false after) (some h)
  | refused {h h' : Handle} {hash : String} {data : Bytes} {e : HostError}
      {before after : Option Bytes} (hmerge : h.merge ⟨hash, data⟩ = (.error e, h'))
      (report : before.Rel (Reported (some e.text)) after) :
      Answers (some h) (.merge (Utf8.ofString hash) data before) (.merged false after) (some h')
  | merged {h h' : Handle} {hash : String} {data : Bytes} {accepted : Bool}
      {before after : Option Bytes} (hmerge : h.merge ⟨hash, data⟩ = (.ok accepted, h'))
      (report : before.Rel (Reported none) after) :
      Answers (some h) (.merge (Utf8.ofString hash) data before) (.merged accepted after) (some h')

/-- How the calls of a session must be answered, each from where the one before it leaves off. -/
inductive Answered : Option Handle → List Call → List Reply → Option Handle → Prop
  | nil (handle? : Option Handle) : Answered handle? [] [] handle?
  | cons {before middle after : Option Handle} {call : Call} {reply : Reply} {calls : List Call}
      {replies : List Reply} (head : Answers before call reply middle)
      (tail : Answered middle calls replies after) :
      Answered before (call :: calls) (reply :: replies) after

theorem answers_merge (handle? : Option Handle) (hash data : Bytes) (buffer? : Option Bytes) :
    let served := merge handle? hash data buffer?
    Answers handle? (.merge hash data buffer?) (.merged served.accepted served.buffer?)
      served.handle? := by
  cases handle? with
  | none =>
    refine .noHandle (reported_map ?_ buffer?)
    rintro _ ⟨⟩
    exact ⟨'n', _, rfl, by decide⟩
  | some h =>
    cases htext : Utf8.toText hash with
    | error defect =>
      have hnone : ∀ text, Utf8.ofString text ≠ hash := by
        intro text heq
        rw [Utf8.toText_eq_ok_iff.2 heq] at htext
        cases htext
      simp only [merge, mergeMessage, htext]
      refine .noText hnone htext (reported_map ?_ buffer?)
      rintro _ ⟨⟩
      exact Telling.append ⟨'h', _, rfl, by decide⟩ defect
    | ok text =>
      obtain rfl := Utf8.toText_eq_ok_iff.1 htext
      rcases hmerge : h.merge ⟨text, data⟩ with ⟨result, h'⟩
      simp only [merge, mergeMessage, htext, hmerge]
      cases result with
      | error e =>
        refine .refused hmerge (reported_map ?_ buffer?)
        rintro _ ⟨⟩
        exact e.telling_text
      | ok accepted =>
        refine .merged hmerge (reported_map ?_ buffer?)
        rintro _ ⟨⟩

theorem answers_serve (handle? : Option Handle) (call : Call) :
    Answers handle? call (serve handle? call).1 (serve handle? call).2 := by
  cases call with
  | merge hash data buffer? => exact answers_merge handle? hash data buffer?
  | dump =>
    cases handle? with
    | none => exact .dumpsNone
    | some h =>
      have hdump : dump (some h) = Utf8.ofString h.dump ++ [0] := h.terminatedDumpOrEmpty_eq
      rw [serve, hdump]
      exact .dumps h

/-- All calls of a session are answered as they must be. -/
theorem answered_serveAll (handle? : Option Handle) (calls : List Call) :
    Answered handle? calls (serveAll handle? calls).1 (serveAll handle? calls).2 := by
  induction calls generalizing handle? with
  | nil => exact .nil handle?
  | cons call rest ih => exact .cons (answers_serve handle? call) (ih _)

/-- The merge that a call amounts to, if its hash is text. -/
def Call.action? {k : Kind} : Call → Option (Action k)
  | merge hash data _ => (Utf8.toText hash).toOption.map fun text => .merge [⟨text, data⟩]
  | dump => none

theorem handle_merge {k : Kind} (c : Config k) (m : Message) :
    ((Handle.config k c).merge m).2 = .config k (c.act (.merge [m])) := by
  rw [Handle.merge_config, Config.act]
  rcases c.merge [m] with ⟨result, c'⟩
  cases result <;> rfl

theorem serve_config {k : Kind} (c : Config k) (call : Call) :
    (serve (some (.config k c)) call).2 = some (.config k (c.run call.action?.toList)) := by
  cases call with
  | dump => rfl
  | merge hash data buffer? =>
    cases htext : Utf8.toText hash with
    | error defect => simp [serve, merge, mergeMessage, Call.action?, Except.toOption, htext]
    | ok text =>
      simp [serve, merge, mergeMessage, Call.action?, Except.toOption, htext, handle_merge]

/-- A session merges its messages one by one into the config behind the handle. -/
theorem serveAll_config {k : Kind} (c : Config k) (calls : List Call) :
    (serveAll (some (.config k c)) calls).2 =
      some (.config k (c.run (calls.filterMap Call.action?))) := by
  induction calls generalizing c with
  | nil => rfl
  | cons call rest ih =>
    have hactions : (call :: rest).filterMap (Call.action? (k := k)) =
        call.action?.toList ++ rest.filterMap Call.action? := by
      rw [List.filterMap_cons]
      cases call.action? (k := k) <;> rfl
    calc (serveAll (some (.config k c)) (call :: rest)).2
        = (serveAll (serve (some (.config k c)) call).2 rest).2 := rfl
      _ = some (.config k ((c.run call.action?.toList).run (rest.filterMap Call.action?))) := by
        rw [serve_config, ih]
      _ = some (.config k (c.run ((call :: rest).filterMap Call.action?))) := by
        rw [hactions, Config.run_append]

theorem openConfig_eq_some_iff {code : UInt32} {id : Bytes} {handle : Handle} :
    openConfig code id = some handle ↔ ∃ (k : Kind) (start : Config k), k.code = code ∧
      Config.create k ((Utf8.toText id).toOption.getD "") = .ok start ∧
      .config k start = handle := by
  have htoOption {k : Kind} {id : String} {start : Config k} :
      (Config.create k id).toOption = some start ↔ Config.create k id = .ok start := by
    cases Config.create k id <;> simp [Except.toOption]
  simp [openConfig, Option.bind_eq_some_iff, Kind.ofCode?_eq_some_iff, htoOption]

/-- A config is created unless it is to have the id of a group, and has another one. -/
theorem exists_create_iff {k : Kind} {id : String} :
    (∃ start, Config.create k id = .ok start) ↔ (k = .info → IdKind.group.accepts id) := by
  cases k with
  | info =>
    by_cases h : IdKind.group.accepts id = true <;>
      simp [Config.create, IdKind.check, h, bind, Except.bind, pure, Except.pure]
  | _ => simp [Config.create]

/-- Octets that are not text count as an empty text, which is no identifier. -/
theorem accepts_toText_iff {kind : IdKind} {id : Bytes} :
    kind.accepts ((Utf8.toText id).toOption.getD "") ↔
      ∃ text, Utf8.ofString text = id ∧ kind.accepts text := by
  constructor
  · intro haccepts
    cases htext : Utf8.toText id with
    | error defect =>
      rw [htext] at haccepts
      have hempty : kind.accepts "" = false := by cases kind <;> rfl
      exact absurd haccepts (Bool.eq_false_iff.1 hempty)
    | ok text =>
      rw [htext] at haccepts
      exact ⟨text, Utf8.toText_eq_ok_iff.1 htext, haccepts⟩
  · rintro ⟨text, htext, haccepts⟩
    rw [Utf8.toText_eq_ok_iff.2 htext]
    exact haccepts

theorem isSome_openConfig_iff {code : UInt32} {id : Bytes} :
    (openConfig code id).isSome ↔ ∃ k : Kind, k.code = code ∧
      (k = .info → ∃ group, Utf8.ofString group = id ∧ IdKind.group.accepts group) := by
  simp only [← accepts_toText_iff, ← exists_create_iff, Option.isSome_iff_exists,
    openConfig_eq_some_iff]
  constructor
  · rintro ⟨_, k, start, hcode, hcreate, rfl⟩
    exact ⟨k, hcode, start, hcreate⟩
  · rintro ⟨k, hcode, start, hcreate⟩
    exact ⟨_, k, start, hcode, hcreate, rfl⟩

/-- A host gets a handle if its code is that of a kind and, for the details of a group, its octets
are the text of the id of a group. All its calls are then answered as they must be, one after the
other, and in the end the handle has the config that merging the messages of these calls one by one
into a new config makes. -/
theorem session_refines (code : UInt32) (id : Bytes) (calls : List Call) :
    let opened := openConfig code id
    let served := serveAll opened calls
    (opened.isSome ↔ ∃ k : Kind, k.code = code ∧
      (k = .info → ∃ group, Utf8.ofString group = id ∧ IdKind.group.accepts group)) ∧
    Answered opened calls served.1 served.2 ∧
    ∀ handle, opened = some handle → ∃ (k : Kind) (text : String) (start : Config k),
      k.code = code ∧ (k = .info → Utf8.ofString text = id) ∧
      Config.create k text = .ok start ∧ handle = .config k start ∧
      served.2 = some (.config k (start.run (calls.filterMap Call.action?))) := by
  intro opened served
  refine ⟨isSome_openConfig_iff, answered_serveAll opened calls, ?_⟩
  intro handle hopened
  obtain ⟨k, start, hcode, hcreate, rfl⟩ := openConfig_eq_some_iff.1 hopened
  refine ⟨k, _, start, hcode, ?_, hcreate, rfl, ?_⟩
  · intro hinfo
    obtain ⟨text, htext, -⟩ := accepts_toText_iff.1 (exists_create_iff.1 ⟨start, hcreate⟩ hinfo)
    rw [Utf8.toText_eq_ok_iff.2 htext]
    exact htext
  · have hserved : served = serveAll (some (.config k start)) calls := by rw [← hopened]
    rw [hserved, serveAll_config]

theorem contacts_session_served :
    let calls : List Call := [.merge [0xff] [] (some [7, 7, 7, 7]),
      .merge (Utf8.ofString "first") [0x7b, 0x7d] (some [7, 7]),
      .merge (Utf8.ofString "first") [0x7b] (some [7]), .dump]
    let opened := openConfig 3 []
    let served := serveAll opened calls
    opened = some (.config .contacts { content := {} }) ∧
      served.1 = [.merged false (some [0x68, 0x61, 0x73, 0]), .merged true (some [0, 7]),
        .merged false (some [0]), .dumped [0x5b, 0x5d, 0]] ∧
      Answered opened calls served.1 served.2 ∧
      ∃ (k : Kind) (text : String) (start : Config k), k.code = 3 ∧
        (k = .info → Utf8.ofString text = []) ∧ Config.create k text = .ok start ∧
        .config .contacts { content := {} } = Handle.config k start ∧
        served.2 = some (.config k (start.run (calls.filterMap Call.action?))) := by
  intro calls opened served
  have hopened : opened = some (.config .contacts { content := {} }) := rfl
  obtain ⟨-, hanswered, hhandle⟩ := session_refines 3 [] calls
  exact ⟨hopened, rfl, hanswered, hhandle _ hopened⟩

end Abi
end SyncedConfig
