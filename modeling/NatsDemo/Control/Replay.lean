import NatsDemo.Control.Activity
import NatsDemo.Go.RoundTrip
import NatsDemo.Jobs.Model

/-!
# Replayed messages in the activity log

The replay of a stored message is an event on `jobs.replayed`, which the subscription of the
activity log takes in.  A body that does not decode gets an identity made from its sequence
number; one that decodes without a job id keeps the empty one, and that is refused.
-/

namespace NatsDemo.Control
open Go Jobs Messaging

/-- The job that a replay names: an undecodable body gets one from its sequence number. -/
def replayedJob (data : Option Json) (seq : ℕ) : Job :=
  let r := Job.unmarshal data
  if r.2 then r.1 else { r.1 with jobID := s!"seq-{seq}", type := "unknown" }

/-- The event that `ReplayJobs` publishes for a stored message, its keys as `json.Marshal`
orders them. -/
def replayMsg (data : Option Json) (seq : ℕ) : Msg where
  subject := subjectJobReplayed
  header := (((Header.set [] "Content-Type" "application/json").set "X-Source"
    "replay-consumer").set "X-Delivery-Mode" "JETSTREAM").set "Nats-Msg-Id" s!"replay-seq-{seq}"
  data := some (.obj
    [("delivery_count", .int 1), ("delivery_mode", .str "JETSTREAM"),
     ("job_id", .str (replayedJob data seq).jobID), ("msg_id", .str s!"replay-seq-{seq}"),
     ("sequence", .int seq), ("status", .str "REPLAYED"),
     ("type", .str (replayedJob data seq).type)])

/-- The payload that the tracker reads in a replay event. -/
def replayPayload (data : Option Json) (seq : ℕ) : LifecyclePayload where
  jobID := (replayedJob data seq).jobID
  type := (replayedJob data seq).type
  status := "REPLAYED"
  deliveryCount := 1
  deliveryMode := "JETSTREAM"
  sequence := seq
  msgID := s!"replay-seq-{seq}"

/-- The tracker reads the event as it was written. -/
theorem unmarshal_replayMsg (data : Option Json) {seq : ℕ} (hseq : seq < 2 ^ 64) :
    Go.unmarshal LifecyclePayload.fields {} (replayMsg data seq).data =
      (replayPayload data seq, true) := by
  have hcount (p : LifecyclePayload) :
      decodeKey LifecyclePayload.fields "delivery_count" (.int 1) p =
        ({ p with deliveryCount := 1 }, true) := rfl
  have hsequence (p : LifecyclePayload) :
      decodeKey LifecyclePayload.fields "sequence" (.int seq) p =
        ({ p with sequence := seq }, true) := if_pos (by omega)
  simp only [replayMsg, Go.unmarshal]
  rw [decodeFields_cons _ _ _ (hcount _)]
  rw [decodeFields_cons _ _ _ rfl]
  rw [decodeFields_cons _ _ _ rfl]
  rw [decodeFields_cons _ _ _ rfl]
  rw [decodeFields_cons _ _ _ (hsequence _)]
  rw [decodeFields_cons _ _ _ rfl]
  rw [decodeFields_cons _ _ _ rfl]
  rfl

/-- The replay of a message is accepted and adds one activity, REPLAYED and with the sequence
number of the message, to a buffer that keeps 200. -/
def ReachesLog (t : Tracker) (zone : Time → Time) (why : String) (data : Option Json) (seq : ℕ)
    (now : Time) : Prop :=
  ∃ t' a, t.tap zone why (replayMsg data seq) now = .ok t' ∧
    t'.activities = (a :: t.activities).take 200 ∧ a.event = "REPLAYED" ∧ a.sequence = seq

/-- Where the body of a message is not refused, its job has an id. -/
theorem replayedJob_jobID_ne (data : Option Json) (seq : ℕ) :
    (replayedJob data seq).jobID ≠ "" ↔ ∀ job, Job.parse data = some job → job.jobID ≠ "" := by
  rw [replayedJob, Job.parse]
  split_ifs with hfits
  · simp
  · simp

/-- The subscription records a replay event, unless it lacks a job id. -/
theorem tap_replayMsg (t : Tracker) (zone : Time → Time) (why : String) (data : Option Json)
    {seq : ℕ} (hseq : seq < 2 ^ 64) (now : Time) :
    t.tap zone why (replayMsg data seq) now =
      if (replayedJob data seq).jobID = "" then .error "lifecycle event payload missing job_id"
      else .ok (t.addEvent zone (lifecycleEvent "jobs.replayed" "replay-consumer"
        s!"replay-seq-{seq}" (replayPayload data seq)) now) := by
  have hsubject : (replayMsg data seq).subject = "jobs.replayed" := rfl
  have hid : (replayMsg data seq).header.get "Nats-Msg-Id" = s!"replay-seq-{seq}" :=
    Header.get_set_self _ _ _
  have hsource : (replayMsg data seq).header.get "X-Source" = "replay-consumer" := by
    simp [replayMsg]
  have hne : s!"replay-seq-{seq}" ≠ "" := by simp
  rw [Tracker.tap, Tracker.processLifecycleEvent, unmarshal_replayMsg data hseq, hsubject, hid,
    hsource, if_neg hne]
  rfl

/-- **When a replay reaches the log.**  The replay of a stored message is accepted and listed
under its sequence number if and only if its body does not decode as a job, or decodes as one
with a job id. -/
theorem reachesLog_iff (t : Tracker) (zone : Time → Time) (why : String) (data : Option Json)
    {seq : ℕ} (hseq : seq < 2 ^ 64) (now : Time) :
    ReachesLog t zone why data seq now ↔ ∀ job, Job.parse data = some job → job.jobID ≠ "" := by
  rw [← replayedJob_jobID_ne data seq, ReachesLog, tap_replayMsg t zone why data hseq]
  constructor
  · rintro ⟨t', a, hok, -⟩ hid
    rw [if_pos hid] at hok
    cases hok
  · intro hid
    rw [if_neg hid]
    exact ⟨_, _, rfl, rfl, rfl, rfl⟩

/-- A body that is not JSON. -/
theorem reachesLog_malformed : ReachesLog {} id "" none 7 0 :=
  (reachesLog_iff {} id "" none (by decide) 0).mpr nofun

/-- A body that is an object without a job id is refused. -/
theorem not_reachesLog : ¬ ReachesLog {} id "" (some (.obj [])) 7 0 := by
  rintro ⟨t', a, hok, -⟩
  have hid : (replayedJob (some (.obj [])) 7).jobID = "" := rfl
  rw [tap_replayMsg {} id "" (some (.obj [])) (by decide), if_pos hid] at hok
  cases hok

end NatsDemo.Control
