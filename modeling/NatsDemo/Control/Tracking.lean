import Mathlib.Data.List.Induction
import Mathlib.Data.List.Nodup
import Mathlib.Data.List.Perm.Subperm
import NatsDemo.Control.Listing

/-!
# What the tracker retains

The calls on the tracker since it was last cleared are a history of events.  The buffer is
the latest part of that history, and the listing sorts it.  The types of the jobs are kept
apart from the buffer: an event that has to go leaves the type of its job behind.
-/

namespace NatsDemo.Control
open Go Lib

/-- A call on the tracker, with the time it finds. -/
inductive TrackerCall where
  | addEvent (e : Event) (now : Time)
  | processLifecycleEvent (why subject : String) (data : Option Json) (source msgID : String)
      (now : Time)
  | clearActivities
  | getActivities

/-- The tracker after a call; the listing sorts a copy of the buffer. -/
def Tracker.call (zone : Time → Time) (t : Tracker) : TrackerCall → Tracker
  | .addEvent e now => t.addEvent zone e now
  | .processLifecycleEvent why subject data source msgID now =>
    match t.processLifecycleEvent zone why subject data source msgID now with
    | .ok t' => t'
    | .error _ => t
  | .clearActivities => t.clearActivities
  | .getActivities => t

def Tracker.after (zone : Time → Time) (cs : List TrackerCall) : Tracker :=
  run (Tracker.call zone) {} cs

/-! ## The history -/

/-- The event that a call records, if it records one. -/
def TrackerCall.event : TrackerCall → Option (Event × Time)
  | .addEvent e now => some (e, now)
  | .processLifecycleEvent _ subject data source msgID now =>
    let r := Go.unmarshal LifecyclePayload.fields {} data
    if !r.2 then none
    else if r.1.jobID = "" then none
    else if subject = "jobs.validate" ∨ subject = "jobs.dlq" then none
    else some (lifecycleEvent subject source msgID r.1, now)
  | .clearActivities => none
  | .getActivities => none

def TrackerCall.clears : TrackerCall → Bool
  | .clearActivities => true
  | _ => false

/-- The events recorded since the last clear, the latest first. -/
def sinceClear (cs : List TrackerCall) : List (Event × Time) :=
  (cs.reverse.takeWhile fun c => !c.clears).filterMap TrackerCall.event

/-- The last type that is not empty among those of the events of a job. -/
def lastType (history : List (Event × Time)) (jobID : String) : Option String :=
  (history.find? fun e => e.1.jobID = jobID ∧ e.1.jobType ≠ "").map fun e => e.1.jobType

/-- What is listed of an event: what it tells, with the time of the day, and with its own type
or else with the last one of its job. -/
def entry (zone : Time → Time) (older : List (Event × Time)) (e : Event) (now : Time) :
    Activity where
  timestamp := Time.formatClock (zone now)
  jobID := e.jobID
  event := e.status
  subject := e.subject
  worker := e.worker
  deliveryCount := e.deliveryCount
  deliveryMode := e.deliveryMode
  sequence := e.sequence
  msgID := e.msgID
  jobType := if e.jobType = "" then (lastType older e.jobID).getD "" else e.jobType
  category := determineCategory e.subject e.status
  action := determineAction e.subject e.status
  recorded := now

def entries (zone : Time → Time) : List (Event × Time) → List Activity
  | [] => []
  | (e, now) :: older => entry zone older e now :: entries zone older

theorem entries_map_jobID (zone : Time → Time) (history : List (Event × Time)) :
    (entries zone history).map Activity.jobID = history.map fun e => e.1.jobID := by
  induction history with
  | nil => rfl
  | cons e older ih =>
    rw [entries, List.map_cons, List.map_cons, ih]
    rfl

theorem sinceClear_concat (cs : List TrackerCall) (c : TrackerCall) : sinceClear (cs ++ [c]) =
    if c.clears then [] else c.event.toList ++ sinceClear cs := by
  cases hclears : c.clears <;> cases hevent : c.event <;>
    simp [sinceClear, hclears, hevent]

/-- Events that are added with no clear between them are all there. -/
theorem sinceClear_addEvents (es : List (Event × Time)) :
    sinceClear (es.map fun e => .addEvent e.1 e.2) = es.reverse := by
  induction es using List.reverseRecOn with
  | nil => rfl
  | append_singleton es e ih =>
    rw [List.map_append, List.map_singleton, sinceClear_concat, ih]
    simp [TrackerCall.clears, TrackerCall.event]

/-! ## What a call does -/

theorem Tracker.call_eq (zone : Time → Time) (t : Tracker) (c : TrackerCall) : t.call zone c =
    if c.clears then {}
    else match c.event with
      | some e => t.addEvent zone e.1 e.2
      | none => t := by
  cases c with
  | addEvent e now => rfl
  | clearActivities => rfl
  | getActivities => rfl
  | processLifecycleEvent why subject data source msgID now =>
    simp only [call, processLifecycleEvent, TrackerCall.clears, TrackerCall.event,
      Bool.false_eq_true, if_false]
    split_ifs <;> rfl

/-- The buffer holds the latest activities of the history, and the cache the types. -/
structure Tracker.Retains (zone : Time → Time) (t : Tracker) (history : List (Event × Time)) :
    Prop where
  activities : t.activities = (entries zone history).take 200
  jobTypes : ∀ jobID, t.jobTypes.get? jobID = lastType history jobID

theorem lastType_cons (e : Event × Time) (older : List (Event × Time)) (jobID : String) :
    lastType (e :: older) jobID =
      if e.1.jobID = jobID ∧ e.1.jobType ≠ "" then some e.1.jobType
      else lastType older jobID := by
  rw [lastType, List.find?_cons]
  split_ifs with h
  · simp [h]
  · simp [h, lastType]

theorem Tracker.retains_addEvent {zone : Time → Time} {t : Tracker}
    {history : List (Event × Time)} (h : t.Retains zone history) (e : Event) (now : Time) :
    (t.addEvent zone e now).Retains zone ((e, now) :: history) := by
  have hentry : t.activityOf zone e now = entry zone history e now := by
    simp only [entry, activityOf, jobTypeOf, h.jobTypes]
  constructor
  · rw [addEvent, entries, hentry, h.activities, List.take_succ_cons, List.take_succ_cons,
      List.take_take]
    rfl
  · intro jobID
    rw [lastType_cons, ← h.jobTypes jobID, addEvent]
    by_cases htype : e.jobType = ""
    · simp [htype]
    · by_cases hjob : e.jobID = jobID
      · simp [htype, hjob]
      · have hne : jobID ≠ e.jobID := fun heq => hjob heq.symm
        simp [htype, hjob, hne]

/-- Whatever was called, the tracker retains the history. -/
theorem Tracker.retains_after (zone : Time → Time) (cs : List TrackerCall) :
    (after zone cs).Retains zone (sinceClear cs) := by
  induction cs using List.reverseRecOn with
  | nil => exact ⟨rfl, fun _ => rfl⟩
  | append_singleton cs c ih =>
    rw [after, run_append, run_cons, run_nil, ← after, sinceClear_concat, call_eq]
    cases hclears : c.clears with
    | true => exact ⟨rfl, fun _ => rfl⟩
    | false =>
      cases hevent : c.event with
      | none => exact ih
      | some e => exact retains_addEvent ih e.1 e.2

/-! ## The listing -/

/-- How far a status puts an activity ahead of others of the same job and second. -/
def statusWeight (status : String) : ℕ :=
  if status ∈ ["SCHEDULED", "PUBLISHED", "STORED", "REQUEST_SENT", "DEDUPLICATED", "REPROCESSED",
    "SAGA_STARTED", "SAGA_TRIGGERED", "OP1_RESERVE", "OP2_PAYMENT"] then 1
  else if status ∈ ["RECEIVED", "DELIVERED", "REQUEST_RECEIVED", "REDELIVERED", "SAGA_STEP",
    "SAGA_COMPENSATING", "OP1_COMPLETED", "OP1_FAILED", "OP2_COMPLETED", "OP2_FAILED",
    "OP1_COMPENSATING", "OP1_COMPENSATED"] then 2
  else if status ∈ ["PROCESSING", "REPLY_SENT", "NAK_WITH_DELAY", "ACK_TIMEOUT_SIMULATED"] then 3
  else if status ∈ ["COMPLETED", "FAILED", "ACKED", "NO CONSUMER", "REPLY_RECEIVED",
    "REQUEST_TIMEOUT", "REPLAYED", "DLQ_PUBLISHED", "SAGA_COMPLETED", "SAGA_COMPENSATED",
    "SAGA_FAILED"] then 4
  else 0

theorem getStatusWeight_eq (status : String) : getStatusWeight status = statusWeight status := by
  simp only [getStatusWeight, statusesByWeight, List.findIdx?_cons, statusWeight]
  split_ifs <;> simp_all

/-- What the listing is, for a history of events, the latest first. -/
structure Lists (zone : Time → Time) (history : List (Event × Time)) (l : List Activity) :
    Prop where
  /-- Each of the latest 200 activities is listed once. -/
  perm : l.Perm ((entries zone history).take 200)
  /-- Later readings first, then the jobs in order, then heavier statuses first. -/
  ordered : l.Pairwise fun a b => b.timestamp < a.timestamp ∨ a.timestamp = b.timestamp ∧
    (a.jobID < b.jobID ∨ a.jobID = b.jobID ∧ statusWeight b.event ≤ statusWeight a.event)
  /-- Activities that agree in all three are listed the latest first. -/
  stable : ∀ timestamp jobID weight,
    (l.filter fun a =>
      a.timestamp = timestamp ∧ a.jobID = jobID ∧ statusWeight a.event = weight) =
    ((entries zone history).take 200).filter fun a =>
      a.timestamp = timestamp ∧ a.jobID = jobID ∧ statusWeight a.event = weight

/-- **The listing is a sorted window.**  Whatever was called, the listing is that of the
events since the last clear, and it leaves the tracker as it is. -/
theorem Tracker.getActivities_lists (zone : Time → Time) (cs : List TrackerCall) :
    Lists zone (sinceClear cs) (after zone cs).getActivities ∧
      after zone (cs ++ [.getActivities]) = after zone cs := by
  have hretains := retains_after zone cs
  have hlisting : (after zone cs).getActivities =
      sortOn Activity.listingKey ((entries zone (sinceClear cs)).take 200) := by
    rw [getActivities_eq, hretains.activities]
  refine ⟨⟨?_, ?_, ?_⟩, ?_⟩
  · rw [hlisting]
    exact sortOn_perm Activity.listingKey _
  · rw [hlisting]
    refine (sortOn_pairwise_le Activity.listingKey _).imp ?_
    intro a b hle
    rw [← getStatusWeight_eq, ← getStatusWeight_eq]
    exact (Activity.listingKey_le_iff a b).mp hle
  · intro timestamp jobID weight
    have hkey (a : Activity) :
        a.listingKey = toLex (.toDual timestamp, toLex (jobID, .toDual weight)) ↔
          a.timestamp = timestamp ∧ a.jobID = jobID ∧ statusWeight a.event = weight := by
      simp [Activity.listingKey, getStatusWeight_eq]
    have hclass := filter_sortOn Activity.listingKey ((entries zone (sinceClear cs)).take 200)
      (toLex (.toDual timestamp, toLex (jobID, .toDual weight)))
    simp only [hkey] at hclass
    rw [hlisting, hclass]
  · rw [after, run_append]
    rfl

/-! ## The bound -/

/-- The buffer is capped, and the cache knows only jobs of the buffer. -/
structure Tracker.Bounded (t : Tracker) : Prop where
  activities : t.activities.length ≤ 200
  jobTypes : ∀ jobID ∈ t.jobTypes.keys, jobID ∈ t.activities.map Activity.jobID
  entries : t.jobTypes.keys.length ≤ 200

/-- A call that makes an activity leave a full buffer leaves no type behind: the job of that
activity has none, or it is still in the buffer. -/
def Tracker.LeavesNoType (t : Tracker) (c : TrackerCall) : Prop :=
  ∀ e ∈ c.event, ∀ oldest ∈ t.activities[199]?, oldest.jobID ∈ t.jobTypes.keys →
    oldest.jobID = e.1.jobID ∨ oldest.jobID ∈ (t.activities.take 199).map Activity.jobID

theorem Tracker.mem_keys_addEvent {t : Tracker} {zone : Time → Time} {e : Event} {now : Time}
    {jobID : String} : jobID ∈ (t.addEvent zone e now).jobTypes.keys ↔
      jobID = e.jobID ∧ e.jobType ≠ "" ∨ jobID ∈ t.jobTypes.keys := by
  rw [addEvent]
  by_cases htype : e.jobType = ""
  · simp [htype]
  · simp [htype, GoMap.mem_keys_set]

theorem Tracker.mem_jobs_addEvent {t : Tracker} {zone : Time → Time} {e : Event} {now : Time}
    {jobID : String} : jobID ∈ (t.addEvent zone e now).activities.map Activity.jobID ↔
      jobID = e.jobID ∨ jobID ∈ (t.activities.take 199).map Activity.jobID := by
  rw [addEvent, List.take_succ_cons, List.map_cons, List.mem_cons]
  rfl

theorem Tracker.nodup_keys_call {zone : Time → Time} {t : Tracker} (ht : t.jobTypes.keys.Nodup)
    (c : TrackerCall) : (t.call zone c).jobTypes.keys.Nodup := by
  rw [call_eq]
  cases hclears : c.clears with
  | true => exact List.nodup_nil
  | false =>
    cases hevent : c.event with
    | none => exact ht
    | some e =>
      by_cases htype : e.1.jobType = ""
      · simpa [addEvent, htype] using ht
      · simpa [addEvent, htype] using GoMap.nodup_keys_set ht _ _

/-- Where the buffer is capped and the cache knows only its jobs, the cache is no larger. -/
theorem Tracker.bounded_of_subset {t : Tracker} (hnodup : t.jobTypes.keys.Nodup)
    (hlength : t.activities.length ≤ 200)
    (hsub : ∀ jobID ∈ t.jobTypes.keys, jobID ∈ t.activities.map Activity.jobID) : t.Bounded := by
  have hle : t.jobTypes.keys.length ≤ (t.activities.map Activity.jobID).length :=
    (hnodup.subperm hsub).length_le
  rw [List.length_map] at hle
  exact ⟨hlength, hsub, by omega⟩

/-- What an event does to a bounded tracker. -/
theorem Tracker.bounded_addEvent_iff {zone : Time → Time} {t : Tracker} {e : Event} {now : Time}
    (hnodup : (t.addEvent zone e now).jobTypes.keys.Nodup) (ht : t.Bounded) :
    (t.addEvent zone e now).Bounded ↔
      ∀ oldest ∈ t.activities[199]?, oldest.jobID ∈ t.jobTypes.keys →
        oldest.jobID = e.jobID ∨ oldest.jobID ∈ (t.activities.take 199).map Activity.jobID := by
  constructor
  · intro h oldest _ hkey
    exact mem_jobs_addEvent.mp (h.jobTypes _ (mem_keys_addEvent.mpr (.inr hkey)))
  · intro h
    refine bounded_of_subset hnodup (List.length_take_le _ _) ?_
    intro jobID hkey
    rw [mem_jobs_addEvent]
    rcases mem_keys_addEvent.mp hkey with ⟨hjob, -⟩ | hold
    · exact .inl hjob
    · -- the job was in the buffer, so it still is unless only the oldest activity is of it
      obtain ⟨a, ha, rfl⟩ := List.mem_map.mp (ht.jobTypes jobID hold)
      obtain ⟨i, hi, rfl⟩ := List.getElem_of_mem ha
      by_cases hlast : i = 199
      · subst hlast
        exact h _ (List.getElem?_eq_getElem hi) hold
      · have hlength := ht.activities
        have hkept : t.activities[i] ∈ t.activities.take 199 :=
          List.mem_take_iff_getElem.mpr ⟨i, by omega, rfl⟩
        exact .inr (List.mem_map_of_mem hkept)

theorem Tracker.bounded_empty : ({} : Tracker).Bounded :=
  ⟨Nat.zero_le _, fun _ h => absurd h List.not_mem_nil, Nat.zero_le _⟩

/-- **When the tracker is bounded.**  Exactly in the runs in which no activity that leaves the
buffer is the last one of a job with a type. -/
theorem Tracker.bounded_iff (zone : Time → Time) (cs : List TrackerCall) :
    Throughout (call zone) Bounded {} cs ↔ Meets (call zone) LeavesNoType {} cs := by
  refine throughout_iff_meets (fun t => t.jobTypes.keys.Nodup) ?_ ?_ cs List.nodup_nil
    bounded_empty
  · intro t c hnodup ht
    have hnodup' : (t.call zone c).jobTypes.keys.Nodup := nodup_keys_call hnodup c
    rw [LeavesNoType]
    rw [call_eq] at hnodup' ⊢
    cases c with
    | clearActivities =>
      simp only [TrackerCall.clears, TrackerCall.event, if_true]
      simp [bounded_empty]
    | getActivities => simpa [TrackerCall.clears, TrackerCall.event] using ht
    | addEvent e now =>
      simpa [TrackerCall.clears, TrackerCall.event] using bounded_addEvent_iff hnodup' ht
    | processLifecycleEvent why subject data source msgID now =>
      cases hevent :
          (TrackerCall.processLifecycleEvent why subject data source msgID now).event with
      | none => simpa [TrackerCall.clears, hevent] using ht
      | some e =>
        rw [hevent] at hnodup'
        simpa [TrackerCall.clears] using bounded_addEvent_iff hnodup' ht
  · intro t c hnodup _ _
    exact nodup_keys_call hnodup c

/-- The cache knows each job that had a type since the last clear. -/
theorem Tracker.mem_keys_after_iff (zone : Time → Time) (cs : List TrackerCall) (jobID : String) :
    jobID ∈ (after zone cs).jobTypes.keys ↔
      ∃ e ∈ sinceClear cs, e.1.jobID = jobID ∧ e.1.jobType ≠ "" := by
  rw [GoMap.mem_keys_iff, (retains_after zone cs).jobTypes, ← Option.isSome_iff_exists, lastType,
    Option.isSome_map, List.find?_isSome]
  simp

/-- One event of a job with a type, and after it as many of another job as the buffer holds. -/
def pushedOut : List (Event × Time) :=
  ({ jobID := "job-1", status := "PUBLISHED", subject := "jobs.submitted", jobType := "email" }, 0)
    :: List.replicate 200
      ({ jobID := "job-2", status := "PROCESSING", subject := "jobs.processing" }, 0)

/-- The first job has left the buffer, and its type is still there. -/
theorem Tracker.not_bounded_pushedOut :
    ¬ Throughout (call id) Bounded {} (pushedOut.map fun e => .addEvent e.1 e.2) := by
  intro h
  have hlast := h.last
  rw [← after] at hlast
  have hkey : "job-1" ∈ (after id (pushedOut.map fun e => .addEvent e.1 e.2)).jobTypes.keys := by
    rw [mem_keys_after_iff, sinceClear_addEvents]
    exact ⟨_, List.mem_reverse.mpr List.mem_cons_self, rfl, by decide⟩
  have hjob := hlast.jobTypes "job-1" hkey
  rw [(retains_after id _).activities, sinceClear_addEvents, List.map_take, entries_map_jobID,
    pushedOut, List.reverse_cons, List.reverse_replicate, List.map_append, List.map_replicate,
    List.take_append_of_le_length (by rw [List.length_replicate]), List.take_replicate,
    List.mem_replicate] at hjob
  exact absurd hjob.2 (by decide)

end NatsDemo.Control
