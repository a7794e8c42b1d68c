import NatsDemo.Control.World
import NatsDemo.Lib.Embed

/-!
# The dead letter desk

All the handlers on JOBS_DLQ: besides those that list and reprocess its entries, the ones that
set up the stream, remove it, empty it and tell how it stands.  The stream may be absent, and
one that is set up again counts from one again; `epoch` tells which it is, for the sake of
statements only.
-/

namespace NatsDemo.Control.Desk
open Lib Go Messaging

/-- What `dlq-inspector` has not been given, and what it has not acknowledged. -/
structure InspectorInfo where
  pending : ℕ
  ackPending : ℕ

/-- Calls that may fail with an error give its text. -/
inductive Op where
  | entries (o : Control.Op)
  /-- `stream.Info`, with the bytes. -/
  | streamState
  /-- `stream.Consumer` and `cons.Info`. -/
  | inspector
  | createOrUpdateStream
  | createOrUpdateConsumer
  | deleteStream
  | purge

abbrev Op.Res : Op → Type
  | .entries o => o.Res
  | .streamState => Option (StreamInfo × ℕ)
  | .inspector => Option InspectorInfo
  | .createOrUpdateStream | .createOrUpdateConsumer | .deleteStream | .purge => Option String

/-- The requests. -/
inductive Label where
  | entries (l : Control.Label)
  | status
  | setup
  | cleanup
  | purge

abbrev Prog := Proc (Call Op Label) (Call.Res Op.Res Response)

def op (o : Op) : Prog (Op.Res o) := Proc.perform (Call.prim o)

@[simp] theorem op_eq (o : Op) : op o = Proc.call (Call.prim o) Proc.ret := rfl

def connected : Prog Bool := op (.entries .connected)

def getStream : Prog Bool := op (.entries .getStream)

/-! ## The handlers -/

def unavailable : Response := ⟨503, .obj [("error", .str "NATS connection unavailable")]⟩

def failure (text : String) : Response := ⟨500, .obj [("error", .str text)]⟩

/-- The status of a stream that is there; without its consumer all its messages are pending. -/
def statusResponse (info : Option (StreamInfo × ℕ)) (inspector : Option InspectorInfo) : Response :=
  let (state, bytes) := info.getD (⟨0, 0, 0⟩, 0)
  let cinfo := inspector.getD ⟨state.msgs, 0⟩
  ⟨200, .obj [("ack_pending", .int cinfo.ackPending), ("bytes", .int bytes),
    ("consumer", .str "dlq-inspector"), ("first_seq", .int state.firstSeq),
    ("initialized", .bool true), ("last_seq", .int state.lastSeq), ("messages", .int state.msgs),
    ("pending", .int cinfo.pending), ("stream", .str "JOBS_DLQ")]⟩

/-- `GetDLQStatus`. -/
def getDLQStatus : Prog Response := do
  if !(← connected) then
    return ⟨200, .obj [("bytes", .int 0), ("consumer", .str "dlq-inspector"), ("messages", .int 0),
      ("pending", .int 0), ("stream", .str "JOBS_DLQ")]⟩
  else if !(← getStream) then
    return ⟨200, .obj [("ack_pending", .int 0), ("bytes", .int 0),
      ("consumer", .str "dlq-inspector"), ("first_seq", .int 0), ("initialized", .bool false),
      ("last_seq", .int 0), ("messages", .int 0), ("pending", .int 0), ("stream", .str "JOBS_DLQ")]⟩
  else
    let info ← op .streamState
    let inspector ← op .inspector
    return statusResponse info inspector

/-- `EnsureDLQStream`, with the text of its error. -/
def ensureDLQStream : Prog (Option String) := do
  match ← op .createOrUpdateStream with
  | some err => return some s!"failed to add or update JOBS_DLQ stream: {err}"
  | none =>
    match ← op .createOrUpdateConsumer with
    | some err => return some s!"failed to create durable consumer dlq-inspector: {err}"
    | none => return none

/-- `SetupDLQ`. -/
def setupDLQ : Prog Response := do
  if !(← connected) then return unavailable
  else
    match ← ensureDLQStream with
    | some err => return failure s!"Failed to setup DLQ stream: {err}"
    | none => return ⟨200, .obj [("initialized", .bool true),
        ("message", .str "JOBS_DLQ stream and dlq-inspector consumer created successfully."),
        ("success", .bool true)]⟩

/-- `CleanupDLQ`. -/
def cleanupDLQ : Prog Response := do
  if !(← connected) then return unavailable
  else
    match ← op .deleteStream with
    | some err => return failure s!"Failed to cleanup DLQ stream: {err}"
    | none => return ⟨200, .obj [("initialized", .bool false),
        ("message", .str "JOBS_DLQ stream removed successfully."), ("success", .bool true)]⟩

/-- `PurgeDLQ`. -/
def purgeDLQ : Prog Response := do
  if !(← connected) then return unavailable
  else if !(← getStream) then return failure "Failed to get JOBS_DLQ stream"
  else
    match ← op .purge with
    | some err => return failure s!"Failed to purge JOBS_DLQ stream: {err}"
    | none => return ⟨200, .obj [("message", .str "JOBS_DLQ stream purged successfully"),
        ("purged", .bool true), ("stream", .str "JOBS_DLQ")]⟩

/-- The calls on the entries are calls of the desk. -/
def callOf : Call Control.Op Control.Label → Call Op Label
  | .prim o => .prim (.entries o)
  | .fork l => .fork (.entries l)
  | .await i => .await i

def answerOf : ∀ c : Call Control.Op Control.Label,
    Call.Res Op.Res Response (callOf c) → Call.Res Control.Op.Res Response c
  | .prim _, r => r
  | .fork _, i => i
  | .await _, a => a

/-- The program of a request. -/
def handler : Label → Prog Response
  | .entries l => (Control.handler l).embed callOf answerOf
  | .status => getDLQStatus
  | .setup => setupDLQ
  | .cleanup => cleanupDLQ
  | .purge => purgeDLQ

/-! ## The streams -/

/-- JOBS_DLQ, if it is there, and JOBS. -/
structure Shared where
  stream : Option (Log String Msg) := none
  epoch : ℕ := 0
  jobs : Log String Stored := { window := 120 * Time.second }
  clock : Time := 0

/-- The outcome of a call: whether it succeeds, whether it is carried out all the same, the
text of its error, and what the broker tells beyond the entries. -/
structure Choice where
  toChoice : Control.Choice := {}
  err : String := ""
  bytes : ℕ := 0
  inspector : Option InspectorInfo := none

inductive Input where
  | request (l : Label)
  | storeDLQ (m : Msg)
  | storeJob (m : Msg)
  | tick (d : ℕ)

namespace Shared

/-- The streams with a given JOBS_DLQ. -/
def withQueue (s : Shared) (dlq : Log String Msg) : Control.Shared :=
  { dlq, jobs := s.jobs, clock := s.clock }

/-- The entry under a sequence number. -/
def entry (s : Shared) (seq : ℕ) : Option RawMsg :=
  s.stream.bind fun dlq => (s.withQueue dlq).entry seq

/-- The answer to a call on the entries when JOBS_DLQ is absent. -/
def absent : (o : Control.Op) → o.Res → o.Res
  | .getStream, _ | .deleteMsg _, _ => false
  | .streamInfo, _ | .getMsg _, _ => none
  | .connected, r | .now, r | .publishMsg _ _, r | .publishEvent _, r => r

/-- The outcome of a call that gives the text of its error. -/
def outcome (x : Choice) : Option String := if x.toChoice.ok then none else some x.err

def emptied (dlq : Log String Msg) : Log String Msg :=
  { dlq with records := dlq.records.map fun r => { r with deleted := true } }

/-- The effect of an operation. -/
def exec (x : Choice) (s : Shared) : (o : Op) → Op.Res o × Shared
  | .entries o =>
    match s.stream with
    | some dlq =>
      let r := (s.withQueue dlq).exec x.toChoice o
      (r.1, { s with stream := some r.2.dlq, jobs := r.2.jobs })
    | none =>
      let r := (s.withQueue { window := 120 * Time.second }).exec x.toChoice o
      (absent o r.1, { s with jobs := r.2.jobs })
  | .streamState =>
    (if x.toChoice.ok then s.stream.map fun dlq => ((s.withQueue dlq).info, x.bytes) else none, s)
  | .inspector => (if s.stream.isSome then x.inspector else none, s)
  | .createOrUpdateStream =>
    (outcome x, if x.toChoice.done ∧ s.stream.isNone then
      { s with stream := some { window := 120 * Time.second }, epoch := s.epoch + 1 } else s)
  | .createOrUpdateConsumer => (outcome x, s)
  | .deleteStream =>
    if s.stream.isSome then
      (outcome x, if x.toChoice.done then { s with stream := none } else s)
    else (some x.err, s)
  | .purge =>
    if s.stream.isSome then
      (outcome x, if x.toChoice.done then { s with stream := s.stream.map emptied } else s)
    else (some x.err, s)

/-- The effect of a move of the surroundings; what is published to an absent stream is lost. -/
def input (s : Shared) : Input → Shared × List Label
  | .request l => (s, [l])
  | .storeDLQ m =>
    ({ s with stream := s.stream.map fun dlq => dlq.publish s.clock m.msgID m }, [])
  | .storeJob m => ({ s with jobs := s.jobs.publish s.clock m.msgID ⟨none, m⟩ }, [])
  | .tick d => ({ s with clock := s.clock + d }, [])

end Shared

/-- The machine of the desk. -/
def world : Machine Shared Input Choice Op Label Response Op.Res where
  body := handler
  exec := fun o x s => s.exec x o
  env := fun e s => s.input e

abbrev State := Machine.State world
abbrev Thread := Machine.Thread world
abbrev Act := Machine.Act Input Choice

/-- The streams as they are found, before any request. -/
def State.start (s : Shared) : State := { shared := s, threads := [] }

def after (s : Shared) (as : List Act) : State := run Machine.step (State.start s) as

end NatsDemo.Control.Desk
