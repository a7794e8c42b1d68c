import NatsDemo.Lib.Log
import NatsDemo.Control.DLQ

/-!
# The control service at work

The machine of any number of requests on the streams JOBS and JOBS_DLQ.  A sequence number
counts from one, a deleted entry is not given back, and a call that fails may have been
carried out all the same, the answer alone being lost.
-/

namespace NatsDemo.Control
open Lib Go Messaging

/-- A message of JOBS, and the entry that a request made it from. -/
structure Stored where
  origin : Option ℕ := none
  msg : Msg

structure Shared where
  dlq : Log String Msg := { window := 120 * Time.second }
  jobs : Log String Stored := { window := 120 * Time.second }
  clock : Time := 0

structure Choice where
  ok : Bool := true
  lost : Bool := false

/-- A call is carried out. -/
def Choice.done (x : Choice) : Bool := x.ok || x.lost

/-- The moves of the surroundings: requests, entries and jobs that others publish, and the
passing of time. -/
inductive Input where
  | request (l : Label)
  | storeDLQ (m : Msg)
  | storeJob (m : Msg)
  | tick (d : ℕ)

namespace Shared

/-- The entry under a sequence number. -/
def entry (s : Shared) : ℕ → Option RawMsg
  | 0 => none
  | i + 1 => (s.dlq.get? i).map fun r => ⟨r.body, r.time⟩

/-- `stream.Info`. -/
def info (s : Shared) : StreamInfo where
  msgs := (s.dlq.records.filter fun r => !r.deleted).length
  firstSeq := s.dlq.records.findIdx (fun r => !r.deleted) + 1
  lastSeq := s.dlq.records.length

def deleteMsg (s : Shared) : ℕ → Shared
  | 0 => s
  | i + 1 => { s with dlq := s.dlq.delete i }

def publishJob (s : Shared) (job : Stored) : Shared :=
  { s with jobs := s.jobs.publish s.clock job.msg.msgID job }

/-- The effect of an operation. -/
def exec (x : Choice) (s : Shared) : (o : Op) → Op.Res o × Shared
  | .connected => (x.ok, s)
  | .getStream => (x.ok, s)
  | .streamInfo => (if x.ok then some s.info else none, s)
  | .getMsg seq => (if x.ok then s.entry seq else none, s)
  | .now => (s.clock, s)
  | .publishMsg origin m => (x.ok, if x.done then s.publishJob ⟨some origin, m⟩ else s)
  | .deleteMsg seq => (x.ok, if x.done then s.deleteMsg seq else s)
  | .publishEvent _ => ((), s)

/-- The effect of a move of the surroundings, and the requests it starts. -/
def input (s : Shared) : Input → Shared × List Label
  | .request l => (s, [l])
  | .storeDLQ m => ({ s with dlq := s.dlq.publish s.clock m.msgID m }, [])
  | .storeJob m => (s.publishJob ⟨none, m⟩, [])
  | .tick d => ({ s with clock := s.clock + d }, [])

end Shared

/-- The machine of the control service. -/
def world : Machine Shared Input Choice Op Label Response Op.Res where
  body := handler
  exec := fun o x s => s.exec x o
  env := fun e s => s.input e

abbrev State := Machine.State world
abbrev Thread := Machine.Thread world
abbrev Act := Machine.Act Input Choice

def stepWorld (s : State) (a : Act) : State := Machine.step s a

/-- Nobody has asked for anything yet. -/
def State.start (dlq : Log String Msg) : State := { shared := { dlq }, threads := [] }

/-- A dead letter of a job. -/
def deadLetter (jobID : String) : Msg where
  subject := subjectJobDLQ
  data := some (.obj [("job_id", .str jobID), ("failure_reason", .str "timeout"),
    ("payload", .obj [("text", .str "x")])])

/-- The next calls of a request, when all of them succeed. -/
def calls (i n : ℕ) : List Act := List.replicate n (.op i {})

end NatsDemo.Control
