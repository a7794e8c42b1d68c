import NatsDemo.Go.RoundTrip
import NatsDemo.Processor.Config
import NatsDemo.Processor.Responders

/-!
# The status of the consumer

`GET /consumer` asks the processor for its status and fills in what it does not find.
What the workers have pulled is not in the reply, so it always shows the default.
-/

namespace NatsDemo.Control
open Lib Go Processor

/-- What `GetConsumerStatus` answers of the processor. -/
structure ConsumerStatus where
  name : String := "job-processor"
  type : String := "durable"
  workers : ℤ := 1
  ordering : String := "normal"
  deliverPolicy : String := "all"
  ackPolicy : String := "explicit"
  distribution : GoMap ℤ := (List.range' 1 5).map fun i => (workerName i, 0)

/-- The reply as it is read. -/
structure ProcStatus where
  status : String := ""
  processing : Bool := false
  workers : ℤ := 0
  consumerName : String := ""
  consumerType : String := ""
  ordering : String := ""
  deliverPolicy : String := ""
  ackPolicy : String := ""
  distribution : Option (GoMap ℤ) := none

def ProcStatus.fields : List (String × FieldDecoder ProcStatus) :=
  [("status", stringField fun s x => { s with status := x }),
   ("processing", boolField fun s x => { s with processing := x }),
   ("workers", intField minInt maxInt fun s n => { s with workers := n }),
   ("consumer_name", stringField fun s x => { s with consumerName := x }),
   ("consumer_type", stringField fun s x => { s with consumerType := x }),
   ("ordering", stringField fun s x => { s with ordering := x }),
   ("deliver_policy", stringField fun s x => { s with deliverPolicy := x }),
   ("ack_policy", stringField fun s x => { s with ackPolicy := x }),
   ("distribution", intMapField distribution fun s m => { s with distribution := m })]

/-- A text that is there, or else the default. -/
def orDefault (x dflt : String) : String := if x = "" then dflt else x

/-- What is found in the reply takes the place of the defaults. -/
def ProcStatus.overlay (p : ProcStatus) (c : ConsumerStatus) : ConsumerStatus where
  name := orDefault p.consumerName c.name
  type := orDefault p.consumerType c.type
  workers := if 0 < p.workers then p.workers else c.workers
  ordering := orDefault p.ordering c.ordering
  deliverPolicy := orDefault p.deliverPolicy c.deliverPolicy
  ackPolicy := orDefault p.ackPolicy c.ackPolicy
  distribution := p.distribution.getD c.distribution

/-- The first part of `GetConsumerStatus`, for the reply that comes, if one does. -/
def getConsumerStatus (reply : Option String) : ConsumerStatus :=
  match reply with
  | none => {}
  | some text =>
    let r := Go.unmarshal ProcStatus.fields {} (documentOf text)
    if r.2 then r.1.overlay {} else {}

/-- The answer says of the consumer what the processor has. -/
structure RoundTrips (a : App) : Prop where
  name : (getConsumerStatus (some a.statusReply)).name = a.consumerName
  type : (getConsumerStatus (some a.statusReply)).type = a.consumerConfig.type
  workers : (getConsumerStatus (some a.statusReply)).workers = a.consumerConfig.workers
  ordering : (getConsumerStatus (some a.statusReply)).ordering = a.consumerConfig.ordering
  deliverPolicy : (getConsumerStatus (some a.statusReply)).deliverPolicy =
    a.consumerConfig.deliverPolicy
  ackPolicy : (getConsumerStatus (some a.statusReply)).ackPolicy = a.consumerConfig.ackPolicy
  distribution : ∀ k, (getConsumerStatus (some a.statusReply)).distribution.get? k =
    (a.consumerDistribution.get? k).map fun n : ℕ => (n : ℤ)

/-- The workers have pulled nothing yet. -/
def NothingPulled (a : App) : Prop :=
  ∀ k, a.consumerDistribution.get? k = ({} : App).consumerDistribution.get? k

theorem getConsumerStatus_of_configured {a : App} (h : Configured a) :
    getConsumerStatus (some a.statusReply) = { workers := a.consumerConfig.workers } := by
  have hdoc := parse_statusReply (a := a) (by rw [h.type]; decide) (by rw [h.name]; decide)
    (by rw [h.ordering]; decide) (by rw [h.deliverPolicy]; decide) (by rw [h.ackPolicy]; decide)
  obtain ⟨hlow, hhigh⟩ := h.workers
  have hrange : minInt ≤ (a.consumerConfig.workers : ℤ) ∧ (a.consumerConfig.workers : ℤ) ≤ maxInt :=
    ⟨le_trans (by decide) (Int.natCast_nonneg _), le_trans (Int.ofNat_le.mpr hhigh) (by decide)⟩
  have hworkers (s : ProcStatus) : decodeKey ProcStatus.fields "workers"
      (.int a.consumerConfig.workers) s = ({ s with workers := a.consumerConfig.workers }, true) :=
    if_pos hrange
  have hread : Go.unmarshal ProcStatus.fields {} (documentOf a.statusReply) =
      ({ status := "ACTIVE", processing := a.processingEnabled, workers := a.consumerConfig.workers,
         consumerName := "job-processor", consumerType := "durable", ordering := "normal",
         deliverPolicy := "all", ackPolicy := "explicit" }, true) := by
    rw [documentOf, hdoc, h.type, h.name, h.ordering, h.deliverPolicy, h.ackPolicy, Go.unmarshal]
    rw [decodeFields_cons _ _ _ rfl, decodeFields_cons _ _ _ rfl, decodeFields_cons _ _ _ rfl,
      decodeFields_cons _ _ _ rfl, decodeFields_cons _ _ _ (hworkers _)]
    rfl
  have hpos : 0 < (a.consumerConfig.workers : ℤ) := by omega
  rw [getConsumerStatus, hread]
  simp only [if_true, ProcStatus.overlay, if_pos hpos]
  rfl

/-- The default is what the processor starts with. -/
theorem get?_default (k : String) : ({} : ConsumerStatus).distribution.get? k =
    (({} : App).consumerDistribution.get? k).map fun n : ℕ => (n : ℤ) :=
  GoMap.get?_map (fun n : ℕ => (n : ℤ)) ({} : App).consumerDistribution k

/-- In a configured processor all is as in the answer but what was pulled. -/
theorem roundTrips_iff {a : App} (h : Configured a) : RoundTrips a ↔ NothingPulled a := by
  have hstatus := getConsumerStatus_of_configured h
  constructor
  · intro hr k
    have hk := hr.distribution k
    rw [hstatus] at hk
    exact Option.map_injective Nat.cast_injective (hk.symm.trans (get?_default k))
  · intro hnothing
    refine ⟨?_, ?_, ?_, ?_, ?_, ?_, ?_⟩ <;> rw [hstatus]
    · exact h.name.symm
    · exact h.type.symm
    · exact h.ordering.symm
    · exact h.deliverPolicy.symm
    · exact h.ackPolicy.symm
    · intro k
      rw [hnothing k]
      exact get?_default k

/-! ## Runs -/

section
variable {arch : Platform}

/-- The step records that a worker has pulled a message. -/
def RecordsPull (s : Processor.State arch) : Processor.Act → Prop
  | .env _ => False
  | .op i _ => ∃ t w k, s.threads[i]? = some t ∧ t.rest = .call (.prim (.recordWorkerPull w)) k

theorem distribution_exec (x : Processor.Choice) (s : Processor.Shared) {o : Processor.Op}
    (ho : ∀ w, o ≠ .recordWorkerPull w) :
    (s.exec x o).2.app.consumerDistribution = s.app.consumerDistribution := by
  cases o with
  | recordWorkerPull w => exact absurd rfl (ho w)
  | subscribeJetStream | fetch n | ack seq | term seq | publishDLQ origin m =>
    simp [Processor.Shared.exec]
  | _ => rfl

theorem distribution_input (s : Processor.Shared) (e : Processor.Input) :
    (s.input e).1.app.consumerDistribution = s.app.consumerDistribution := by
  cases e with
  | control a =>
    cases a with
    | subscribeJetStream now b =>
      simp [Processor.Shared.input, Section.change, Processor.Shared.apply]
    | _ => rfl
  | _ => rfl

theorem distribution_step {s : Processor.State arch} {a : Processor.Act} (ha : ¬ RecordsPull s a) :
    (Processor.stepWorld arch s a).shared.app.consumerDistribution =
      s.shared.app.consumerDistribution := by
  rw [Processor.stepWorld]
  refine Machine.shared_step
    (fun s' : Processor.Shared => s'.app.consumerDistribution = s.shared.app.consumerDistribution)
    rfl ?_ ?_
  · exact fun e _ => distribution_input s.shared e
  · rintro i x t o k rfl ht hr
    refine distribution_exec x s.shared ?_
    intro w ho
    subst ho
    exact ha ⟨t, w, k, ht, hr⟩

/-- What is recorded is a pull. -/
theorem not_nothingPulled_record (a : App) (w : String) :
    ¬ NothingPulled (a.recordWorkerPull w) := by
  intro hnext
  have hw : some ((a.consumerDistribution.get? w).getD 0 + 1) =
      ({} : App).consumerDistribution.get? w := by
    rw [← hnext w]
    exact (GoMap.get?_set_self a.consumerDistribution w _).symm
  have hmem := (GoMap.get?_eq_some_iff (by decide)).mp hw.symm
  obtain ⟨i, -, hi⟩ := List.mem_map.mp hmem
  exact absurd (congrArg Prod.snd hi) (Nat.succ_ne_zero _).symm

theorem nothingPulled_step_iff {s : Processor.State arch} {a : Processor.Act}
    (h : NothingPulled s.shared.app) :
    NothingPulled (Processor.stepWorld arch s a).shared.app ↔ ¬ RecordsPull s a := by
  constructor
  · intro hnext hrecords
    cases a with
    | env e => exact hrecords
    | op i x =>
      obtain ⟨t, w, k, ht, hr⟩ := hrecords
      rw [Processor.stepWorld, Machine.step_prim x ht hr] at hnext
      exact not_nothingPulled_record _ w hnext
  · intro ha k
    rw [distribution_step ha]
    exact h k

/-- **When the status is true.**  It is so all along a run if and only if no worker pulls a
message in it. -/
theorem roundTrips_iff_no_pull (arch : Platform) (as : List Processor.Act) :
    Throughout (Processor.stepWorld arch) (fun s => RoundTrips s.shared.app)
        (Processor.State.empty arch) as ↔
      Meets (Processor.stepWorld arch) (fun s a => ¬ RecordsPull s a)
        (Processor.State.empty arch) as := by
  refine throughout_iff_meets (fun s : Processor.State arch => Configured s.shared.app) ?_
    (fun s a h _ _ => h.step a) as configured_init
    ((roundTrips_iff configured_init).mpr fun _ => rfl)
  intro s a hconfig hround
  rw [roundTrips_iff (hconfig.step a)]
  exact nothingPulled_step_iff ((roundTrips_iff hconfig).mp hround)

/-- The status is true in every state reached. -/
def StatusTrue (arch : Platform) : Prop :=
  ∀ as, RoundTrips (run (Processor.stepWorld arch) (Processor.State.empty arch) as).shared.app

/-- A worker has pulled one message, and the status says that none has. -/
theorem not_statusTrue : ¬ StatusTrue .amd64 := by
  intro h
  let as : List Processor.Act := startUp ++ [.env (.store (jetStreamMsg "j1" []))] ++
    pulling 0 0 ++ Processor.calls 2 1
  have hnothing := (roundTrips_iff (configured_run .amd64 as)).mp (h as) "processor-1"
  exact absurd hnothing (by decide)

end

end NatsDemo.Control
