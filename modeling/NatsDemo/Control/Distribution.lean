import NatsDemo.Control.Relay
import NatsDemo.Processor.Tally

/-!
# The distribution that the control service shows

The control service passes the status of the queue group on.  What it reads of the reply it
writes again, so nothing is lost on the way: the numbers shown are those of the processor.
Where there is no connection or no reply, it shows a status of its own.
-/

namespace NatsDemo.Go

theorem addInts_cons_int {n : ℤ} (h : minInt ≤ n ∧ n ≤ maxInt) (m : GoMap ℤ) (k : String)
    (fields : List (String × Json)) :
    addInts m ((k, .int n) :: fields) = addInts (m.set k n) fields := by
  simp [addInts, h]

/-- Integers that fit are added under new keys as they are. -/
theorem addInts_eq {es : List (String × ℤ)} {m : GoMap ℤ}
    (hfits : ∀ e ∈ es, minInt ≤ e.2 ∧ e.2 ≤ maxInt) (hkeys : (GoMap.keys es).Nodup)
    (hnew : ∀ e ∈ es, e.1 ∉ m.keys) :
    addInts m (es.map fun e => (e.1, .int e.2)) = (es.reverse ++ m, true) := by
  induction es generalizing m with
  | nil => rfl
  | cons e es ih =>
    obtain ⟨hnot, hkeys⟩ := List.nodup_cons.mp hkeys
    obtain ⟨hfit, hfits⟩ := List.forall_mem_cons.mp hfits
    obtain ⟨hfresh, hnew⟩ := List.forall_mem_cons.mp hnew
    have hset : m.set e.1 e.2 = e :: m := by
      rw [GoMap.set, List.filter_eq_self.mpr]
      intro e' he'
      have hne : e'.1 ≠ e.1 := fun h => hfresh (h ▸ GoMap.mem_keys_of_mem he')
      simpa using hne
    have hnew' : ∀ e' ∈ es, e'.1 ∉ GoMap.keys (e :: m) := by
      intro e' he'
      rw [GoMap.keys_cons, List.mem_cons, not_or]
      exact ⟨fun h => hnot (h ▸ GoMap.mem_keys_of_mem he'), hnew e' he'⟩
    rw [List.map_cons, addInts_cons_int hfit, hset, ih hfits hkeys hnew', List.reverse_cons,
      List.append_assoc, List.singleton_append]

/-- A map is written in the same order whatever its values are made into. -/
theorem GoMap.sorted_map {α β : Type} (f : α → β) (m : GoMap α) :
    sorted (m.map fun e => (e.1, f e.2)) = (sorted m).map fun e => (e.1, f e.2) := by
  exact (List.map_insertionSort _ _ (fun e : String × α => (e.1, f e.2)) m
    fun _ _ _ _ => Iff.rfl).symm

end NatsDemo.Go

namespace NatsDemo.Control
open Lib Go Messaging

/-! ## The handlers -/

/-- The status that is shown without the processor. -/
def defaultStatus : QueueGroupStatus where
  subject := subjectJobQueue
  queueGroup := queueGroupJobWorkers
  workers := 1
  distribution := some [("processor-1", 0), ("processor-2", 0)]

/-- `GetQueueGroupStatus`, with the reply, if one comes; `connected` tells whether there is a
connection to ask over. -/
def getQueueGroupStatus (why : String) (connected : Bool) (reply : Option (Option Json)) :
    Response :=
  if !connected then ⟨200, defaultStatus.marshal⟩
  else
    match reply with
    | none => ⟨200, defaultStatus.marshal⟩
    | some data =>
      let status := Go.unmarshal QueueGroupStatus.fields {} data
      if status.2 then ⟨200, status.1.marshal⟩
      else failure 500 ("Failed to parse queue group status: " ++ why)

/-- `PostQueueGroupReset`, with the reply, if one comes. -/
def postQueueGroupReset (why : String) : Option (Option Json) → Response
  | none => failure 504 ("Failed to reset queue group distribution: " ++ why)
  | some reply =>
    let resp := Go.unmarshal QueueGroupStatus.fields {} reply
    if resp.2 then ⟨200, resp.1.marshal⟩
    else failure 500 ("Invalid response from processor: " ++ why)

/-! ## What gets through -/

/-- The status of an `App` as it is read. -/
def statusOf (a : Processor.App) : QueueGroupStatus where
  subject := subjectJobQueue
  queueGroup := queueGroupJobWorkers
  workers := a.queueWorkersCount
  distribution :=
    some ((GoMap.sorted a.queueDistribution).map fun e => (e.1, (e.2 : ℤ))).reverse

/-- The numbers of a status fit into an `int`. -/
structure Countable (a : Processor.App) : Prop where
  workers : (a.queueWorkersCount : ℤ) ≤ maxInt
  counts : ∀ e ∈ a.queueDistribution, (e.2 : ℤ) ≤ maxInt
  nodup : a.queueDistribution.keys.Nodup

theorem unmarshal_queueStatus {a : Processor.App} (h : Countable a) :
    Go.unmarshal QueueGroupStatus.fields {} (some a.queueStatus) = (statusOf a, true) := by
  have hint (n : ℕ) : minInt ≤ (n : ℤ) := le_trans (by decide) (Int.natCast_nonneg n)
  have hkeys : (GoMap.keys
      ((GoMap.sorted a.queueDistribution).map fun e => (e.1, (e.2 : ℤ)))).Nodup := by
    rw [GoMap.keys, List.map_map]
    exact ((GoMap.sorted_perm a.queueDistribution).map Prod.fst).nodup_iff.mpr h.nodup
  have hfits : ∀ e ∈ (GoMap.sorted a.queueDistribution).map fun e => (e.1, (e.2 : ℤ)),
      minInt ≤ e.2 ∧ e.2 ≤ maxInt := by
    intro e he
    obtain ⟨e', he', rfl⟩ := List.mem_map.mp he
    exact ⟨hint _, h.counts e' ((GoMap.sorted_perm _).mem_iff.mp he')⟩
  have hadd := addInts_eq (m := []) hfits hkeys fun _ _ => List.not_mem_nil
  rw [List.map_map, List.append_nil] at hadd
  have hworkers (s : QueueGroupStatus) : decodeKey QueueGroupStatus.fields "workers"
      (.int a.queueWorkersCount) s = ({ s with workers := a.queueWorkersCount }, true) :=
    if_pos ⟨hint _, h.workers⟩
  have hdistribution (s : QueueGroupStatus) (hs : s.distribution = none) :
      decodeKey QueueGroupStatus.fields "distribution"
        (Processor.marshalCounts a.queueDistribution) s =
        ({ s with distribution := (statusOf a).distribution }, true) := by
    have hfield : intMapField QueueGroupStatus.distribution
        (fun s m => { s with distribution := m }) (Processor.marshalCounts a.queueDistribution) s =
        ({ s with distribution := (statusOf a).distribution }, true) := by
      rw [Processor.marshalCounts, intMapField, hs]
      exact congrArg (fun r : GoMap ℤ × Bool => ({ s with distribution := some r.1 }, r.2)) hadd
    exact hfield
  have hdoc : Go.unmarshal QueueGroupStatus.fields {} (some a.queueStatus) =
      decodeFields QueueGroupStatus.fields [("subject", .str subjectJobQueue),
        ("queue_group", .str queueGroupJobWorkers), ("workers", .int a.queueWorkersCount),
        ("distribution", Processor.marshalCounts a.queueDistribution)] {} := rfl
  rw [hdoc]
  rw [decodeFields_cons _ _ _ rfl, decodeFields_cons _ _ _ rfl,
    decodeFields_cons _ _ _ (hworkers _), decodeFields_cons _ _ _ (hdistribution _ rfl)]
  rfl

theorem marshal_statusOf {a : Processor.App} (h : Countable a) :
    (statusOf a).marshal = a.queueStatus := by
  have hperm : (((GoMap.sorted a.queueDistribution).map fun e => (e.1, (e.2 : ℤ))).reverse).Perm
      (a.queueDistribution.map fun e => (e.1, (e.2 : ℤ))) :=
    (List.reverse_perm _).trans ((GoMap.sorted_perm _).map _)
  have hkeys : (GoMap.keys (a.queueDistribution.map fun e => (e.1, (e.2 : ℤ)))).Nodup := by
    rw [GoMap.keys, List.map_map]
    exact h.nodup
  have hsorted := (GoMap.sorted_eq_of_perm hperm.symm hkeys).symm.trans
    (GoMap.sorted_map (fun n : ℕ => (n : ℤ)) a.queueDistribution)
  rw [QueueGroupStatus.marshal, statusOf]
  dsimp only
  rw [hsorted, List.map_map]
  rfl

/-- **A status that fits gets through.**  It is shown as the processor tells it. -/
theorem getQueueGroupStatus_eq (why : String) {a : Processor.App} (h : Countable a) :
    getQueueGroupStatus why true (some (some a.queueStatus)) = ⟨200, a.queueStatus⟩ := by
  simp only [getQueueGroupStatus, unmarshal_queueStatus h, marshal_statusOf h]
  rfl

theorem postQueueGroupReset_eq (why : String) {a : Processor.App} (h : Countable a) :
    postQueueGroupReset why (some (some a.queueStatus)) = ⟨200, a.queueStatus⟩ := by
  simp only [postQueueGroupReset, unmarshal_queueStatus h, marshal_statusOf h]
  rfl

/-! ## What is shown -/

section
open Processor Processor.Service
variable (arch : Platform)

/-- The numbers of a run that is not too long fit. -/
theorem countable_run {as : List Service.Act} (h : (as.length : ℤ) ≤ maxInt) :
    Countable (after arch as).shared.app where
  workers := by
    have hle := queueWorkersCount_run arch as
    have hfive : (5 : ℤ) ≤ maxInt := by decide
    omega
  counts := by
    rintro ⟨w, n⟩ he
    have hshown : shown (after arch as).shared.app w = n := by
      rw [shown, (GoMap.get?_eq_some_iff (fits_run arch as).nodup).mpr he]
      rfl
    have hcount := List.countP_le_length (p := countsFor w)
      (l := since isQueueReset (deeds arch as))
    have hsince : (since isQueueReset (deeds arch as)).length ≤ (deeds arch as).length :=
      length_since_le _
    have hdeeds : (deeds arch as).length ≤ as.length := Machine.length_journal_le _ _
    rw [← shown_run, hshown] at hcount
    exact le_trans (mod_cast hcount.trans (hsince.trans hdeeds)) h
  nodup := (fits_run arch as).nodup

/-- **The distribution is an account of the messages.**  After any run, the control service
shows for each worker how many messages it took since the last reset, and the numbers add up
to all of them; over the whole run, a worker has counted exactly the messages that it began
with and could read. -/
theorem distribution_accounts {as : List Service.Act} (h : (as.length : ℤ) ≤ maxInt)
    (why : String) : let a := (after arch as).shared.app
    getQueueGroupStatus why true (some (some a.queueStatus)) = ⟨200, a.queueStatus⟩ ∧
      (∀ w, shown a w = (since isQueueReset (deeds arch as)).countP (countsFor w)) ∧
      a.queueDistribution.total = (since isQueueReset (deeds arch as)).countP counts ∧
      ∀ w, (deeds arch as).countP (countsFor w) =
        (after arch as).threads.countP (took arch w) :=
  ⟨getQueueGroupStatus_eq why (countable_run arch h), shown_run arch as,
    (fits_run arch as).total, countP_deeds arch as⟩

/-- A message before a reset, and one after it. -/
def resetBetween : List Service.Act :=
  let job : Msg := { subject := subjectJobQueue, data := some (.obj [("job_id", .str "a")]) }
  [.env (.input (.subscribeQueueGroup fun _ => none)), .env (.input (.queue 0 job)), .op 0 {},
    .env .queueReset, .env (.input (.queue 0 job)), .op 1 {}]

theorem distribution_accounts_reset :
    getQueueGroupStatus "" true
        (some (some (after .amd64 resetBetween).shared.app.queueStatus)) =
      ⟨200, .obj [("subject", .str "jobs.queue"), ("queue_group", .str "job-workers"),
        ("workers", .int 1), ("distribution", .obj [("processor-1", .int 1)])]⟩ ∧
    (deeds .amd64 resetBetween).countP (countsFor "processor-1") = 2 := by
  obtain ⟨hstatus, -, -, hdeeds⟩ := @distribution_accounts .amd64 resetBetween
    (by decide) ""
  refine ⟨hstatus.trans rfl, (hdeeds "processor-1").trans rfl⟩

end

end NatsDemo.Control
