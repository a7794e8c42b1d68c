import NatsDemo.Control.DLQ
import NatsDemo.Jobs.RoundTrip

/-!
# The repair of an entry

What the message is that a run of reprocessing publishes for an entry of JOBS_DLQ, said of the
message alone: it is for the workers, and they read the entry's job in it, with its payload as it
was but for the simulated failure and the two marks of the repair.
-/

namespace NatsDemo.Control
open Lib Go Jobs Messaging

/-! ## The payload, repaired -/

/-- What the repair does to a payload.  Values are the same when they are written alike. -/
structure Repaired (p q : Payload) : Prop where
  kept : ∀ key ∉ ["simulate_failure", "simulate_failure_count", "reprocessed_at",
    "recovered_from_dlq"], (q.entry key).map Value.toJson = (p.entry key).map Value.toJson
  cleared : q.entry "simulate_failure" = none ∧ q.entry "simulate_failure_count" = none
  stamped : ∃ time, q.entry "reprocessed_at" = some (.str time)
  marked : q.entry "recovered_from_dlq" = some (.bool true)

theorem get?_repairedPayload (p : GoMap Value) (now : Time) (key : String) :
    (repairedPayload p now).get? key =
      if key = "recovered_from_dlq" then some (.bool true)
      else if key = "reprocessed_at" then some (.str (Time.formatRFC3339 now))
      else if key ≠ "simulate_failure" ∧ key ≠ "simulate_failure_count" then p.get? key
      else none := by
  rw [repairedPayload]
  by_cases hmarked : key = "recovered_from_dlq"
  · rw [if_pos hmarked, hmarked, GoMap.get?_set_self]
  rw [if_neg hmarked, GoMap.get?_set_of_ne _ _ hmarked]
  by_cases hstamped : key = "reprocessed_at"
  · rw [if_pos hstamped, hstamped, GoMap.get?_set_self]
  rw [if_neg hstamped, GoMap.get?_set_of_ne _ _ hstamped]
  exact GoMap.get?_filter (fun k => k ≠ "simulate_failure" ∧ k ≠ "simulate_failure_count") p key

theorem wfEntries_repairedPayload {p : GoMap Value} (hp : Value.WfEntries p) (now : Time) :
    Value.WfEntries (repairedPayload p now) := by
  have htime : (Value.str (Time.formatRFC3339 now)).Wf := trivial
  have hmark : (Value.bool true).Wf := trivial
  exact wfEntries_set (wfEntries_set (wfEntries_filter hp _) _ htime) _ hmark

/-- The payload of an entry, repaired and read by the next worker. -/
theorem repaired_repairedPayload {p : GoMap Value} (hp : Value.WfEntries p) (now : Time) :
    Repaired (some p) (some (reread (repairedPayload p now))) := by
  have hget (key : String) : Payload.entry (some (reread (repairedPayload p now))) key =
      ((repairedPayload p now).get? key).map fun v => v.toJson.toValue :=
    get?_reread (wfEntries_iff.mp (wfEntries_repairedPayload hp now)).1 key
  constructor
  · intro key hkey
    simp only [List.mem_cons, List.not_mem_nil, or_false, not_or] at hkey
    obtain ⟨hfailure, hcount, hstamped, hmarked⟩ := hkey
    rw [hget, get?_repairedPayload, if_neg hmarked, if_neg hstamped,
      if_pos ⟨hfailure, hcount⟩]
    show _ = (p.get? key).map Value.toJson
    cases hv : p.get? key with
    | none => rfl
    | some v =>
      obtain ⟨hnodup, hwf⟩ := wfEntries_iff.mp hp
      exact congrArg some
        (toJson_toValue_toJson v (hwf _ ((GoMap.get?_eq_some_iff hnodup).mp hv)))
  · refine ⟨?_, ?_⟩ <;> rw [hget, get?_repairedPayload] <;> rfl
  · exact ⟨_, by rw [hget, get?_repairedPayload]; rfl⟩
  · rw [hget, get?_repairedPayload]
    rfl

/-- What is repaired of a payload that was read again, is repaired of the payload. -/
theorem Repaired.of_reread {p : GoMap Value} {q : Payload} (hp : Value.WfEntries p)
    (h : Repaired (some (reread p)) q) : Repaired (some p) q := by
  obtain ⟨hnodup, hwf⟩ := wfEntries_iff.mp hp
  refine ⟨fun key hkey => (h.kept key hkey).trans ?_, h.cleared, h.stamped, h.marked⟩
  show ((reread p).get? key).map Value.toJson = (p.get? key).map Value.toJson
  rw [get?_reread hnodup]
  cases hv : p.get? key with
  | none => rfl
  | some v =>
    exact congrArg some
      (toJson_toValue_toJson v (hwf _ ((GoMap.get?_eq_some_iff hnodup).mp hv)))

/-! ## The message -/

/-- A message hands the job of an entry on to the workers, repaired. -/
structure RepairOf (item : DLQMessage) (m : Msg) : Prop where
  subject : m.subject = "jobs.submitted"
  mode : m.header.get "X-Delivery-Mode" = "JETSTREAM"
  job : ∃ job, Job.parse m.data = some job ∧ job.jobID = item.jobID ∧ job.type = item.type ∧
    job.deliveryMode = "JETSTREAM" ∧ Repaired item.payload job.payload

/-- The message that the control service builds of an entry is read as the repaired job. -/
theorem parse_repairedMsg {item : DLQMessage} (hp : item.payload.Wf) (t1 t2 t3 : Time) :
    Job.parse (repairedMsg item t1 t2 t3).data = some { repairedJob item t1 with
      payload := some (reread (repairedPayload (item.payload.getD []) t1)) } := by
  refine Job.parse_marshal rfl ?_
  intro p hp'
  obtain rfl := Option.some_inj.mp hp'
  refine wfEntries_repairedPayload ?_ t1
  cases hpayload : item.payload with
  | none => trivial
  | some p => exact hp p hpayload

theorem DLQMessage.payload_wf (data : Option Json) :
    (Go.unmarshal DLQMessage.fields {} data).1.payload.Wf := by
  have hzero : Payload.Wf none := by
    intro m hm
    cases hm
  refine unmarshal_inv (P := fun e : DLQMessage => e.payload.Wf) ?_ hzero data
  simp only [DLQMessage.fields, List.forall_mem_cons]
  refine ⟨?_, ?_, ?_, ?_, ?_, ?_, ?_, ?_, ?_, ?_⟩
  case refine_1 => exact intField_inv fun _ _ => id
  case refine_5 => exact intField_inv fun _ _ => id
  case refine_9 => exact anyMapField_inv fun _ _ => rfl
  case refine_10 =>
    intro f hf
    cases hf
  all_goals exact stringField_inv fun _ _ => id

theorem DLQMessage.wf_of_parse {data : Option Json} {item : DLQMessage}
    (h : DLQMessage.parse data = some item) : item.payload.Wf := by
  rw [DLQMessage.parse] at h
  split_ifs at h
  obtain rfl := Option.some_inj.mp h
  exact DLQMessage.payload_wf data

theorem wf_of_entryIn {raw : Option RawMsg} {item : DLQMessage} (h : entryIn raw = some item) :
    item.payload.Wf := by
  obtain ⟨raw, -, hparse⟩ := Option.bind_eq_some_iff.mp h
  exact DLQMessage.wf_of_parse hparse

/-- The message built of an entry that has a payload hands its job on. -/
theorem repairOf_repairedMsg {item : DLQMessage} (hwf : item.payload.Wf)
    (hp : item.payload.isSome) (t1 t2 t3 : Time) :
    RepairOf item (repairedMsg item t1 t2 t3) := by
  obtain ⟨p, hpayload⟩ := Option.isSome_iff_exists.mp hp
  have hread := parse_repairedMsg hwf t1 t2 t3
  refine ⟨rfl, by simp [repairedMsg], _, hread, rfl, rfl, rfl, ?_⟩
  rw [hpayload]
  exact repaired_repairedPayload (hwf p hpayload) t1

end NatsDemo.Control
