import NatsDemo.Go.Time
import NatsDemo.Lib.Threads
import NatsDemo.Messaging.Message

/-!
# The dead letter queue in the control service

The handlers that list and reprocess the entries of JOBS_DLQ, as programs over their
calls to the broker.  Both walk the sequence numbers from the first to the last, and each
has its own test for what a valid entry is.

A publish to JOBS names the entry it was made from, for the sake of statements only.
-/

namespace NatsDemo.Control
open Lib Go Jobs Messaging

/-- A failed message in the stream JOBS_DLQ. -/
structure DLQMessage where
  sequence : ℤ := 0
  jobID : String := ""
  type : String := ""
  originalSubject : String := ""
  deliveryAttempts : ℤ := 0
  failureReason : String := ""
  timestamp : String := ""
  worker : String := ""
  payload : Payload := none

namespace DLQMessage

def fields : List (String × FieldDecoder DLQMessage) :=
  [("sequence", intField 0 (2 ^ 64 - 1) fun e n => { e with sequence := n }),
   ("job_id", stringField fun e x => { e with jobID := x }),
   ("type", stringField fun e x => { e with type := x }),
   ("original_subject", stringField fun e x => { e with originalSubject := x }),
   ("delivery_attempts", intField (-2 ^ 63) (2 ^ 63 - 1)
     fun e n => { e with deliveryAttempts := n }),
   ("failure_reason", stringField fun e x => { e with failureReason := x }),
   ("timestamp", stringField fun e x => { e with timestamp := x }),
   ("worker", stringField fun e x => { e with worker := x }),
   ("payload", anyMapField payload fun e m => { e with payload := m })]

/-- The entry of a body that decodes without an error. -/
def parse (data : Option Json) : Option DLQMessage :=
  let r := Go.unmarshal fields {} data
  if r.2 then some r.1 else none

/-- A map under `omitempty`. -/
def payloadField (e : DLQMessage) : List (String × Json) :=
  match e.payload with
  | none | some [] => []
  | some m => [("payload", marshalMap (some m))]

/-- `json.Marshal(item)`. -/
def marshal (e : DLQMessage) : Json :=
  .obj ([("sequence", .int e.sequence), ("job_id", .str e.jobID), ("type", .str e.type),
    ("original_subject", .str e.originalSubject), ("delivery_attempts", .int e.deliveryAttempts),
    ("failure_reason", .str e.failureReason), ("timestamp", .str e.timestamp)] ++
    omitEmpty "worker" e.worker ++ e.payloadField)

end DLQMessage

/-- A message as the stream gives it back. -/
structure RawMsg where
  msg : Msg
  time : Time

structure StreamInfo where
  msgs : ℕ
  firstSeq : ℕ
  lastSeq : ℕ

inductive Op where
  | connected
  | getStream
  | streamInfo
  | getMsg (seq : ℕ)
  | now
  | publishMsg (origin : ℕ) (m : Msg)
  | deleteMsg (seq : ℕ)
  | publishEvent (m : Msg)

abbrev Op.Res : Op → Type
  | .connected | .getStream | .publishMsg _ _ | .deleteMsg _ => Bool
  | .streamInfo => Option StreamInfo
  | .getMsg _ => Option RawMsg
  | .now => Time
  | .publishEvent _ => Unit

structure Response where
  status : ℕ
  body : Json

/-- The requests. -/
inductive Label where
  | messages
  | reprocess (body : Option Json) (query : String)

abbrev Prog := Proc (Call Op Label) (Call.Res Op.Res Response)

def op (o : Op) : Prog (Op.Res o) := Proc.perform (Call.prim o)

@[simp] theorem op_eq (o : Op) : op o = Proc.call (Call.prim o) Proc.ret := rfl

/-- The sequence numbers that a handler walks. -/
def StreamInfo.walked (i : StreamInfo) : List ℕ :=
  List.range' i.firstSeq (i.lastSeq + 1 - i.firstSeq)

/-! ## Listing -/

/-- What `GetDLQMessages` lists of a message: entries that have no job, or neither a
payload nor a reason, are skipped. -/
def listEntry (seq : ℕ) (raw : RawMsg) : Option DLQMessage :=
  match DLQMessage.parse raw.msg.data with
  | none => none
  | some item =>
    if item.jobID = "" ∨ item.payload.isNone ∧ item.failureReason = "" then none
    else some { item with
      sequence := seq
      timestamp := if item.timestamp = "" then Time.formatRFC3339 raw.time else item.timestamp
      originalSubject :=
        if item.originalSubject = "" then raw.msg.header.get "X-Original-Subject"
        else item.originalSubject }

def listAll : List ℕ → List DLQMessage → Prog (List DLQMessage)
  | [], messages => return messages
  | seq :: seqs, messages => do
    match ← op (.getMsg seq) with
    | none => listAll seqs messages
    | some raw => listAll seqs (messages ++ (listEntry seq raw).toList)

def listResponse (messages : List DLQMessage) : Response :=
  ⟨200, .arr (messages.map DLQMessage.marshal)⟩

/-- `GetDLQMessages`. -/
def getDLQMessages : Prog Response := do
  if !(← op .connected) then return listResponse []
  else if !(← op .getStream) then return listResponse []
  else
    match ← op .streamInfo with
    | none => return listResponse []
    | some info =>
      if info.msgs = 0 then return listResponse []
      else
        let messages ← listAll info.walked []
        return listResponse messages

/-! ## Reprocessing -/

/-- The payload with the simulated failure cleared. -/
def repairedPayload (p : GoMap Value) (now : Time) : GoMap Value :=
  GoMap.set
    (GoMap.set (p.filter fun e => e.1 ≠ "simulate_failure" ∧ e.1 ≠ "simulate_failure_count")
      "reprocessed_at" (.str (Time.formatRFC3339 now)))
    "recovered_from_dlq" (.bool true)

def repairedJob (item : DLQMessage) (now : Time) : Job where
  jobID := item.jobID
  type := item.type
  deliveryMode := "JETSTREAM"
  payload := some (repairedPayload (item.payload.getD []) now)

/-- The message for the stream JOBS; each of its times is a reading of its own. -/
def repairedMsg (item : DLQMessage) (t1 t2 t3 : Time) : Msg where
  subject := subjectJobSubmitted
  header := (((Header.set [] "Content-Type" "application/json").set
    "Nats-Msg-Id" s!"rep-{item.jobID}-{t2}").set
    "X-Message-Id" s!"msg-rep-{item.jobID}-{t3}").set "X-Source" "demo-control" |>.set
    "X-Delivery-Mode" "JETSTREAM"
  data := some (repairedJob item t1).marshal

def reprocessedEvent (item : DLQMessage) : Msg where
  subject := subjectJobReprocessed
  header := (Header.set [] "Nats-Msg-Id" item.jobID).set "X-Source" "demo-control"
  data := some (.obj [("delivery_count", .int 1), ("delivery_mode", .str "JETSTREAM"),
    ("job_id", .str item.jobID), ("status", .str "REPROCESSED"), ("type", .str item.type)])

/-- Publish an entry anew, and delete it from the stream; whether it was published. -/
def republish (seq : ℕ) (item : DLQMessage) : Prog Bool := do
  let t1 ← op .now
  let t2 ← op .now
  let t3 ← op .now
  let ok ← op (.publishMsg seq (repairedMsg item t1 t2 t3))
  if ok then
    let _ ← op (.deleteMsg seq)
    op (.publishEvent (reprocessedEvent item))
    return true
  else return false

/-- The jobs seen, and those reprocessed. -/
structure Progress where
  seenJobs : List String := []
  reprocessedJobs : List String := []

/-- One round of the loop. -/
def reprocessEntry (filter : String) (seq : ℕ) (s : Progress) : Prog Progress := do
  match ← op (.getMsg seq) with
  | none => return s
  | some raw =>
    match DLQMessage.parse raw.msg.data with
    | none => return s
    | some item =>
      if filter ≠ "" ∧ item.jobID ≠ filter then return s
      -- an entry that is not a valid job payload is deleted and skipped
      else if item.jobID = "" ∨ item.payload.isNone then
        let _ ← op (.deleteMsg seq)
        return s
      -- and so is a further entry of a job
      else if item.jobID ∈ s.seenJobs then
        let _ ← op (.deleteMsg seq)
        return s
      else
        let ok ← republish seq item
        return ⟨item.jobID :: s.seenJobs,
          if ok then s.reprocessedJobs ++ [item.jobID] else s.reprocessedJobs⟩

/-! ### The verdict on an entry -/

/-- The entry in what a request got. -/
def entryIn (raw : Option RawMsg) : Option DLQMessage :=
  raw.bind fun raw => DLQMessage.parse raw.msg.data

/-- The entry is for the run. -/
def Matches (filter : String) (item : DLQMessage) : Prop := filter = "" ∨ item.jobID = filter

/-- What a round does: leave the entry alone, delete it, or republish it. -/
inductive Verdict where
  | skip
  | drop
  | take (item : DLQMessage)

def verdict (filter : String) (seenJobs : List String) (raw : Option RawMsg) : Verdict :=
  match entryIn raw with
  | none => .skip
  | some item =>
    if filter ≠ "" ∧ item.jobID ≠ filter then .skip
    else if item.jobID = "" ∨ item.payload.isNone then .drop
    else if item.jobID ∈ seenJobs then .drop
    else .take item

/-- The round after its verdict. -/
def carryOut (seq : ℕ) (s : Progress) : Verdict → Prog Progress
  | .skip => return s
  | .drop => do
    let _ ← op (.deleteMsg seq)
    return s
  | .take item => do
    let ok ← republish seq item
    return ⟨item.jobID :: s.seenJobs,
      if ok then s.reprocessedJobs ++ [item.jobID] else s.reprocessedJobs⟩

/-- A round gets the message, comes to its verdict and carries it out. -/
theorem reprocessEntry_eq (filter : String) (seq : ℕ) (s : Progress) :
    reprocessEntry filter seq s =
      Proc.call (.prim (.getMsg seq)) fun raw =>
        carryOut seq s (verdict filter s.seenJobs raw) := by
  simp only [reprocessEntry, op_eq, Proc.call_bind, Proc.ret_bind]
  congr 1
  funext raw
  cases raw with
  | none => rfl
  | some raw =>
    cases hitem : DLQMessage.parse raw.msg.data with
    | none => simp [verdict, entryIn, hitem, carryOut]
    | some item =>
      simp only [verdict, entryIn, Option.bind_some, hitem]
      split_ifs <;> rfl

/-- The reasons of a verdict. -/
inductive Judged (filter : String) (seenJobs : List String) (raw : Option RawMsg) : Verdict → Prop
  | skipped (h : ∀ item, entryIn raw = some item → ¬ Matches filter item) :
      Judged filter seenJobs raw .skip
  | invalid (item : DLQMessage) (hitem : entryIn raw = some item) (hm : Matches filter item)
      (h : item.jobID = "" ∨ item.payload.isNone) : Judged filter seenJobs raw .drop
  | further (item : DLQMessage) (hitem : entryIn raw = some item) (hm : Matches filter item)
      (hjob : item.jobID ≠ "") (hp : item.payload.isSome) (hseen : item.jobID ∈ seenJobs) :
      Judged filter seenJobs raw .drop
  | taken (item : DLQMessage) (hitem : entryIn raw = some item) (hm : Matches filter item)
      (hjob : item.jobID ≠ "") (hp : item.payload.isSome) (hseen : item.jobID ∉ seenJobs) :
      Judged filter seenJobs raw (.take item)

theorem verdict_spec (filter : String) (seenJobs : List String) (raw : Option RawMsg) :
    Judged filter seenJobs raw (verdict filter seenJobs raw) := by
  cases hitem : entryIn raw with
  | none =>
    simp only [verdict, hitem]
    exact .skipped fun item h => by simp [hitem] at h
  | some item =>
    simp only [verdict, hitem]
    by_cases hno : filter ≠ "" ∧ item.jobID ≠ filter
    · rw [if_pos hno]
      refine .skipped fun item' h => ?_
      obtain rfl : item = item' := Option.some_inj.mp (hitem.symm.trans h)
      rintro (h | h)
      · exact hno.1 h
      · exact hno.2 h
    have hm : Matches filter item := by
      by_cases hfilter : filter = ""
      · exact Or.inl hfilter
      · exact Or.inr (by_contra fun hne => hno ⟨hfilter, hne⟩)
    rw [if_neg hno]
    by_cases hinvalid : item.jobID = "" ∨ item.payload.isNone
    · rw [if_pos hinvalid]
      exact .invalid item hitem hm hinvalid
    have hjob : item.jobID ≠ "" := fun h => hinvalid (Or.inl h)
    have hp : item.payload.isSome := by
      cases hpayload : item.payload with
      | none => exact absurd (Or.inr (by simp [hpayload])) hinvalid
      | some p => rfl
    rw [if_neg hinvalid]
    by_cases hseen : item.jobID ∈ seenJobs
    · rw [if_pos hseen]
      exact .further item hitem hm hjob hp hseen
    · rw [if_neg hseen]
      exact .taken item hitem hm hjob hp hseen

/-! ### The whole run -/

def reprocessAll (filter : String) : List ℕ → Progress → Prog Progress
  | [], s => return s
  | seq :: seqs, s => do
    let s' ← reprocessEntry filter seq s
    reprocessAll filter seqs s'

/-- The job asked for, by the body or else by the query; empty for all. -/
def requestedJobID (body : Option Json) (query : String) : String :=
  let id := (Go.unmarshal [("job_id", stringField fun _ x => x)] "" body).1
  if id = "" then query else id

def nothingToReprocess : Response :=
  ⟨200, .obj [("jobs", .arr []), ("message", .str "No messages in JOBS_DLQ to reprocess"),
    ("reprocessed", .int 0)]⟩

def reprocessed (jobs : List String) : Response :=
  ⟨200, .obj [("jobs", .arr (jobs.map .str)),
    ("message", .str (s!"Successfully reprocessed {jobs.length} job(s) from JOBS_DLQ " ++
      "back into JOBS stream")),
    ("reprocessed", .int jobs.length)]⟩

/-- `ReprocessDLQ`, for the job asked for. -/
def reprocessDLQ (filter : String) : Prog Response := do
  if !(← op .connected) then
    return ⟨503, .obj [("error", .str "NATS connection unavailable")]⟩
  else if !(← op .getStream) then
    return ⟨500, .obj [("error", .str "Failed to get JOBS_DLQ stream")]⟩
  else
    match ← op .streamInfo with
    | none => return nothingToReprocess
    | some info =>
      if info.msgs = 0 then return nothingToReprocess
      else
        let s ← reprocessAll filter info.walked {}
        return reprocessed s.reprocessedJobs

/-- The program of a request. -/
def handler : Label → Prog Response
  | .messages => getDLQMessages
  | .reprocess body query => reprocessDLQ (requestedJobID body query)

end NatsDemo.Control
