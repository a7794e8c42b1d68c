import NatsDemo.Processor.Genuine
import NatsDemo.Processor.Toggle

/-!
# Binding the consumer again

A pull loop gives the consumer up and binds it anew in one branch only, that of a fetch
of one message which fails.  So only a loop that stands in this branch can repair a lost
binding: for all others the guard at the top of the loop is shut.
-/

namespace NatsDemo.Processor
open Lib Go Jobs Messaging

/-- How far a loop is in the branch of the failed fetch. -/
inductive Repair where
  | idle
  | failed
  | unbound
  deriving DecidableEq

def Label.isPull : Label → Bool
  | .pull _ _ => true
  | _ => false

/-- Who gives up the consumer is a pull loop whose fetch has failed, and who binds it is
one that has just given it up. -/
def repairing (l : Label) : Contract Shared (Call Op Label) (Call.Res Op.Res Bool) Repair where
  pre g
    | .prim .unbindConsumer => g = .failed ∧ l.isPull = true
    | .prim .subscribeJetStream => g = .unbound ∧ l.isPull = true
    | _ => g = .idle
  ans _ _ _ _ := True
  next g _
    | .prim (.fetch n), f =>
      match f with
      | .error => if n = 1 then .failed else g
      | _ => g
    | .prim .unbindConsumer, _ => .unbound
    | .prim .subscribeJetStream, _ => .idle
    | _, _ => g

/-- To fetch, and to give up or bind the consumer. -/
def Rebinds : Call Op Label → Prop
  | .prim (.fetch _) | .prim .unbindConsumer | .prim .subscribeJetStream => True
  | _ => False

section
variable {arch : Platform} {l : Label}

theorem repairing_of_avoids {p : Prog Bool} (hp : p.Avoids Rebinds) :
    p.wp (repairing l) (fun _ g => g = .idle) .idle := by
  refine Proc.wp_of_avoids (fun g => g = .idle) ?_ ?_ hp (fun _ _ hg => hg) rfl
  · intro g c o r ho hg
    simp only [repairing]
    split
    · exact absurd trivial ho
    · exact absurd trivial ho
    · exact absurd trivial ho
    · exact hg
  · intro g o ho hg
    simp only [repairing]
    split
    · exact absurd trivial ho
    · exact absurd trivial ho
    · exact hg

theorem handleAll_avoids_rebinds (ctx : ℕ) (worker : String) (ds : List Delivery) :
    (handleAll ctx worker ds).Avoids Rebinds := by
  induction ds with
  | nil => simp [handleAll, again, Rebinds]
  | cons d ds ih =>
    refine ⟨id, fun t => ⟨id, fun stop => ?_⟩⟩
    cases stop with
    | true => trivial
    | false => exact ih

theorem repairing_pullBatch (ctx : ℕ) (worker : String) (once : Bool) :
    (pullBatch ctx worker once).wp (repairing l) (fun _ g => g = .idle) .idle := by
  simp only [pullBatch, op_eq, Proc.call_bind, Proc.ret_bind, Proc.wp_call]
  refine ⟨rfl, fun c f _ => ?_⟩
  have hidle : (repairing l).next .idle c (.prim (.fetch 3)) f = .idle := by cases f <;> rfl
  rw [hidle]
  split
  next d1 d2 d3 =>
    refine repairing_of_avoids ?_
    cases once <;>
      simp [handleOutOfOrderBatch, Handling.recordBatchEvent, Handling.resetIfOnce, again, Rebinds]
  next ds _ _ => exact repairing_of_avoids (handleAll_avoids_rebinds ctx worker ds)
  next => exact repairing_of_avoids (by simp [again, Rebinds])

theorem repairing_pullOne (hl : l.isPull = true) (ctx : ℕ) (worker : String) :
    (pullOne ctx worker).wp (repairing l) (fun _ g => g = .idle) .idle := by
  simp only [pullOne, op_eq, Proc.call_bind, Proc.ret_bind, Proc.wp_call]
  refine ⟨rfl, fun c f _ => ?_⟩
  cases f with
  | batch ds => exact repairing_of_avoids (handleAll_avoids_rebinds ctx worker ds)
  | timeout => exact repairing_of_avoids (by simp [again, Rebinds])
  | error =>
    refine ⟨⟨rfl, hl⟩, fun _ _ _ => ⟨⟨rfl, hl⟩, fun _ _ _ => ?_⟩⟩
    exact repairing_of_avoids (by simp [again, Rebinds])

theorem repairing_jsPullLoop (hl : l.isPull = true) (ctx : ℕ) (worker : String) :
    (jsPullLoop ctx worker).wp (repairing l) (fun _ g => g = .idle) .idle := by
  simp only [jsPullLoop, op_eq, Proc.call_bind, Proc.ret_bind, Proc.wp_call, Proc.wp_ite]
  refine ⟨rfl, fun _ done _ => ?_⟩
  split_ifs
  · rfl
  · refine ⟨rfl, fun _ flags _ => ?_⟩
    split_ifs
    · refine ⟨rfl, fun _ r _ => ?_⟩
      split_ifs
      · exact repairing_pullBatch ctx worker r.2
      · exact repairing_pullOne hl ctx worker
    · exact repairing_of_avoids (by simp [again, Rebinds])

theorem foreign_of_rebinds {κ : Kind} (hκ : κ ≠ .pull) (o : Call Op Label) (ho : Rebinds o) :
    Foreign κ o := by
  cases o with
  | prim o => cases o <;> first | exact ho.elim | simp [Foreign, users, hκ]
  | _ => exact ho.elim

theorem repairing_program (arch : Platform) (l : Label) :
    (program arch l).wp (repairing l) (fun _ g => g = .idle) .idle := by
  cases l with
  | pull ctx worker => exact repairing_jsPullLoop rfl ctx worker
  | _ => exact repairing_of_avoids (program_avoids (foreign_of_rebinds nofun))

/-- How far a goroutine is. -/
def repair (t : Thread arch) : Repair := (repairing t.label).after .idle t.hist

theorem repairing_rest (t : Thread arch) :
    t.rest.wp (repairing t.label) (fun _ g => g = .idle) (repair t) :=
  (t.traced.wp (repairing_program arch t.label) (meets_of_mem (fun _ _ _ => trivial) _)).2

theorem repair_advance {t : Thread arch} {o : Call Op Label}
    {k : Call.Res Op.Res Bool o → Prog Bool} (hr : t.rest = .call o k) (c : Shared)
    (r : Call.Res Op.Res Bool o) :
    repair (t.advance hr c r) = (repairing t.label).next (repair t) c o r :=
  Contract.after_snoc _ _ _ _

end

/-! ## What can be repaired -/

section
variable {arch : Platform}

/-- A pull loop stands between its failed fetch and the new binding. -/
def Rebinding (s : State arch) : Prop :=
  ∃ (i : ℕ) (t : Thread arch), s.threads[i]? = some t ∧ t.label.isPull = true ∧
    ((∃ k, t.rest = .call (.prim .unbindConsumer) k) ∨
      ∃ k, t.rest = .call (.prim .subscribeJetStream) k)

theorem rebinding_of_repair {s : State arch} {i : ℕ} {t : Thread arch}
    (ht : s.threads[i]? = some t) (hrepair : repair t ≠ .idle) : Rebinding s := by
  have hwp := repairing_rest t
  cases hr : t.rest with
  | ret a =>
    rw [hr] at hwp
    exact absurd hwp hrepair
  | call o k =>
    rw [hr] at hwp
    have hpre := hwp.1
    cases o with
    | prim o =>
      cases o with
      | unbindConsumer => exact ⟨i, t, ht, hpre.2, Or.inl ⟨k, hr⟩⟩
      | subscribeJetStream => exact ⟨i, t, ht, hpre.2, Or.inr ⟨k, hr⟩⟩
      | _ => exact absurd hpre hrepair
    | _ => exact absurd hpre hrepair

/-- A goroutine of the pull loops: a loop, or what a loop waits for. -/
def Label.ofPullLoop : Label → Bool
  | .pull _ _ | .handle _ _ | .healGap _ => true
  | _ => false

/-- The pull loops move, and nobody else does, and every call to the broker succeeds. -/
def PullsAlone (s : State arch) : Act → Prop
  | .env _ => False
  | .op i x => (∃ t, s.threads[i]? = some t ∧ t.label.ofPullLoop = true) ∧
      x.ok = true ∧ x.binding = .bound

/-- The pull loops alone bind the consumer again. -/
def Repairable (s : State arch) : Prop :=
  ∃ as, Meets (stepWorld arch) PullsAlone s as ∧
    (run (stepWorld arch) s as).shared.app.jsConsumer = true

/-- A pull loop that has neither ended nor been cancelled. -/
def HasLiveLoop (s : State arch) : Prop :=
  ∃ (i : ℕ) (t : Thread arch) (ctx : ℕ) (w : String), s.threads[i]? = some t ∧
    t.label = .pull ctx w ∧ (∀ b, t.rest ≠ .ret b) ∧ s.shared.cancelled[ctx]? = some false

/-- The processor is on and has a live loop, but no consumer. -/
structure Lost (s : State arch) : Prop where
  enabled : s.shared.app.processingEnabled = true
  live : HasLiveLoop s
  unbound : s.shared.app.jsConsumer = false

/-- No loop is about to bind the consumer. -/
structure Stuck (s : State arch) : Prop where
  unbound : s.shared.app.jsConsumer = false
  idle : ∀ (i : ℕ) t, s.threads[i]? = some t → repair t = .idle

theorem jsConsumer_exec (x : Choice) (s : Shared) {o : Op} (ho : ¬ Rebinds (.prim o)) :
    (s.exec x o).2.app.jsConsumer = s.app.jsConsumer := by
  cases o with
  | fetch n | unbindConsumer | subscribeJetStream => exact absurd trivial ho
  | ack seq | term seq | publishDLQ origin m => simp [Shared.exec]
  | _ => rfl

/-- A goroutine that is not in the branch makes neither of the calls of the branch. -/
theorem pre_of_idle {t : Thread arch} {o : Call Op Label} {k : Call.Res Op.Res Bool o → Prog Bool}
    (hr : t.rest = .call o k) (hidle : repair t = .idle) :
    o ≠ .prim .unbindConsumer ∧ o ≠ .prim .subscribeJetStream := by
  have hwp := repairing_rest t
  rw [hr, hidle] at hwp
  constructor
  · rintro rfl
    exact absurd hwp.1.1 (by decide)
  · rintro rfl
    exact absurd hwp.1.1 (by decide)

/-- A fetch that gets through is no error. -/
theorem fetch_ne_error {s : Shared} {x : Choice} (hx : x.ok = true) (n : ℕ) :
    (s.fetch x n).1 ≠ .error := by
  cases hin : x.inTime <;> simp [Shared.fetch, hx, hin]

theorem repair_prim {t : Thread arch} {o : Op} {k : Op.Res o → Prog Bool}
    (hr : t.rest = .call (.prim o) k) (hidle : repair t = .idle) {s : Shared} {x : Choice}
    (hx : x.ok = true) : repair (t.advance hr s (s.exec x o).1) = .idle := by
  obtain ⟨hunbind, hsubscribe⟩ := pre_of_idle hr hidle
  rw [repair_advance, hidle]
  cases o with
  | unbindConsumer => exact absurd rfl hunbind
  | subscribeJetStream => exact absurd rfl hsubscribe
  | fetch n =>
    have hne := fetch_ne_error (s := s) hx n
    simp only [Shared.exec]
    cases hf : (s.fetch x n).1 with
    | error => exact absurd hf hne
    | _ => rfl
  | _ => rfl

theorem Stuck.step {s : State arch} {a : Act} (hs : Stuck s) (ha : PullsAlone s a) :
    Stuck (stepWorld arch s a) where
  unbound := by
    rw [stepWorld]
    refine Machine.shared_step (fun s : Shared => s.app.jsConsumer = false) hs.unbound ?_ ?_
    · rintro e rfl
      exact ha.elim
    · intro i x t o k _ ht hr
      obtain ⟨-, hsubscribe⟩ := pre_of_idle hr (hs.idle i t ht)
      cases o with
      | unbindConsumer => rfl
      | subscribeJetStream => exact absurd rfl hsubscribe
      | fetch n => exact (congrArg App.jsConsumer (s.shared.app_fetch x n)).trans hs.unbound
      | _ => exact (jsConsumer_exec x s.shared id).trans hs.unbound
  idle j u hu := by
    cases (Machine.step_spec s a).origin hu with
    | same hu => exact hs.idle j u hu
    | started l _ _ hl =>
      subst hl
      rfl
    | @prim t o k x hact ht hr hadv =>
      subst hact hadv
      exact repair_prim hr (hs.idle j t ht) ha.2.1
    | @other t o k ht hr ho r hadv =>
      subst hadv
      rw [repair_advance, hs.idle j t ht]
      cases o with
      | prim p => exact absurd rfl (ho p)
      | _ => rfl

theorem not_repairable_of_not_rebinding {s : State arch}
    (hunbound : s.shared.app.jsConsumer = false) (hno : ¬ Rebinding s) : ¬ Repairable s := by
  have hstuck : Stuck s := by
    refine ⟨hunbound, fun i t ht => ?_⟩
    by_contra hrepair
    exact hno (rebinding_of_repair ht hrepair)
  rintro ⟨as, has, hbound⟩
  have hend := run_inv Stuck (fun s a hs ha => hs.step ha) hstuck has
  exact Bool.false_ne_true (hend.unbound.symm.trans hbound)

/-! ### The branch goes on to bind -/

theorem bound_of_subscribe {s : State arch} {i : ℕ} {t : Thread arch} {k : Unit → Prog Bool}
    (ht : s.threads[i]? = some t) (hr : t.rest = .call (.prim .subscribeJetStream) k) :
    (stepWorld arch s (.op i {})).shared.app.jsConsumer = true := by
  rw [stepWorld, Machine.step_prim {} ht hr]
  exact Pool.jsConsumer_subscribeJetStream_bound s.shared.app s.shared.clock

theorem pullsAlone_of_isPull {s : State arch} {i : ℕ} {t : Thread arch}
    (ht : s.threads[i]? = some t) (hpull : t.label.isPull = true) : PullsAlone s (.op i {}) := by
  refine ⟨⟨t, ht, ?_⟩, rfl, rfl⟩
  cases hl : t.label <;> simp_all [Label.isPull, Label.ofPullLoop]

/-- After giving the consumer up, the loop subscribes. -/
theorem subscribe_of_unbind {t : Thread arch} {k : Unit → Prog Bool}
    (hr : t.rest = .call (.prim .unbindConsumer) k) (c : Shared) :
    ∃ k', (t.advance hr c ()).rest = .call (.prim .subscribeJetStream) k' := by
  have hwp := repairing_rest (t.advance hr c ())
  rw [repair_advance] at hwp
  cases hr' : (t.advance hr c ()).rest with
  | ret a =>
    rw [hr'] at hwp
    cases hwp
  | call o k' =>
    rw [hr'] at hwp
    have hpre := hwp.1
    cases o with
    | prim o =>
      cases o with
      | subscribeJetStream => exact ⟨k', rfl⟩
      | unbindConsumer => cases hpre.1
      | _ => cases hpre
    | _ => cases hpre

theorem repairable_of_rebinding {s : State arch} (h : Rebinding s) : Repairable s := by
  obtain ⟨i, t, ht, hpull, ⟨k, hr⟩ | ⟨k, hr⟩⟩ := h
  · obtain ⟨k', hr'⟩ := subscribe_of_unbind hr s.shared
    have hlt : i < s.threads.length := (List.getElem?_eq_some_iff.mp ht).1
    have ht' : (stepWorld arch s (.op i {})).threads[i]? = some (t.advance hr s.shared ()) := by
      rw [stepWorld, Machine.step_prim {} ht hr]
      exact List.getElem?_set_self hlt
    exact ⟨[.op i {}, .op i {}], ⟨pullsAlone_of_isPull ht hpull,
      pullsAlone_of_isPull ht' hpull, trivial⟩, bound_of_subscribe ht' hr'⟩
  · exact ⟨[.op i {}], ⟨pullsAlone_of_isPull ht hpull, trivial⟩, bound_of_subscribe ht hr⟩

/-- **When a lost binding is repaired.**  In a reachable state without a consumer, the pull
loops can bind it again if and only if one of them stands between a failed fetch and the
new binding. -/
theorem repairable_iff (arch : Platform) (as : List Act)
    (hlost : Lost (run (stepWorld arch) (State.empty arch) as)) :
    Repairable (run (stepWorld arch) (State.empty arch) as) ↔
      Rebinding (run (stepWorld arch) (State.empty arch) as) := by
  constructor
  · intro h
    by_contra hno
    exact not_repairable_of_not_rebinding hlost.unbound hno h
  · exact repairable_of_rebinding

/-- The fetch of a loop fails, and it has just given the consumer up. -/
def rebindingRun : List Act := startUp ++ calls 0 3 ++ .op 0 { ok := false } :: calls 0 1

theorem lost_rebindingRun : Lost (run (stepWorld .amd64) (State.empty .amd64) rebindingRun) :=
  ⟨rfl, ⟨0, _, 0, "processor-1", rfl, rfl, nofun, rfl⟩, rfl⟩

theorem repairable_rebindingRun :
    Repairable (run (stepWorld .amd64) (State.empty .amd64) rebindingRun) :=
  (repairable_iff .amd64 rebindingRun lost_rebindingRun).mpr
    ⟨0, _, rfl, rfl, Or.inr ⟨_, rfl⟩⟩

/-- Every lost binding can be repaired. -/
def LostIsRepairable (arch : Platform) : Prop :=
  ∀ as, Lost (run (stepWorld arch) (State.empty arch) as) →
    Repairable (run (stepWorld arch) (State.empty arch) as)

/-- The stream is missing when the processor starts. -/
theorem not_lostIsRepairable : ¬ LostIsRepairable .amd64 := by
  intro h
  let as : List Act :=
    [.env (.control (.subscribeJetStream 0 .noStream)), .env (.control .startWorkers)]
  have hlost : Lost (run (stepWorld .amd64) (State.empty .amd64) as) :=
    ⟨rfl, ⟨0, _, 0, "processor-1", rfl, rfl, nofun, rfl⟩, rfl⟩
  refine not_repairable_of_not_rebinding hlost.unbound ?_ (h as hlost)
  rintro ⟨i, t, ht, -, hr⟩
  obtain rfl : i = 0 := by
    have hlt := (List.getElem?_eq_some_iff.mp ht).1
    exact Nat.lt_one_iff.mp hlt
  cases ht
  rcases hr with ⟨k, hr⟩ | ⟨k, hr⟩ <;> cases hr

end

end NatsDemo.Processor
