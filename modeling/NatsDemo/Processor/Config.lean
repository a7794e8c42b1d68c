import NatsDemo.Processor.World

/-!
# The configuration of the consumer

No request changes more of the consumer's configuration than the number of its workers,
so the policies are those set at the start.
-/

namespace NatsDemo.Processor
open Lib Go

/-- The configuration, and the name that comes of it, are those of the start, up to the
number of workers. -/
structure Configured (a : App) : Prop where
  config : ∃ n, 1 ≤ n ∧ n ≤ 5 ∧ a.consumerConfig = { workers := n }
  name : a.consumerName = "job-processor"

namespace Configured
variable {a a' : App}

theorem of_eq (h : Configured a) (hconfig : a'.consumerConfig = a.consumerConfig)
    (hname : a'.consumerName = a.consumerName) : Configured a' :=
  ⟨by rw [hconfig]; exact h.config, hname.trans h.name⟩

theorem type (h : Configured a) : a.consumerConfig.type = "durable" := by
  obtain ⟨n, -, -, heq⟩ := h.config
  rw [heq]

theorem ackPolicy (h : Configured a) : a.consumerConfig.ackPolicy = "explicit" := by
  obtain ⟨n, -, -, heq⟩ := h.config
  rw [heq]

theorem ordering (h : Configured a) : a.consumerConfig.ordering = "normal" := by
  obtain ⟨n, -, -, heq⟩ := h.config
  rw [heq]

theorem deliverPolicy (h : Configured a) : a.consumerConfig.deliverPolicy = "all" := by
  obtain ⟨n, -, -, heq⟩ := h.config
  rw [heq]

theorem workers (h : Configured a) :
    1 ≤ a.consumerConfig.workers ∧ a.consumerConfig.workers ≤ 5 := by
  obtain ⟨n, hlow, hhigh, heq⟩ := h.config
  rw [heq]
  exact ⟨hlow, hhigh⟩

theorem subscribeJetStream (h : Configured a) (now : Time) (b : Binding) :
    Configured (a.subscribeJetStream now b) := by
  have hat : a.consumerNameAt now = "job-processor" := by
    rw [App.consumerNameAt, h.type]
    rfl
  simp only [App.subscribeJetStream]
  split_ifs
  · exact h
  · cases b with
    | noStream => exact h
    | createFailed => exact ⟨h.config, hat⟩
    | bound => exact ⟨h.config, hat⟩

theorem scaleWorkers (h : Configured a) (next : ℕ) (target : ℤ) :
    Configured (a.scaleWorkers next target).app := by
  obtain ⟨n, -, -, heq⟩ := h.config
  refine ⟨⟨clampWorkers target, ?_, ?_, ?_⟩, h.name⟩
  · rw [clampWorkers]
    split_ifs <;> omega
  · rw [clampWorkers]
    split_ifs <;> omega
  · rw [App.scaleWorkers, heq]
    rfl

theorem exec {s : Shared} (h : Configured s.app) (x : Choice) (o : Op) :
    Configured (s.exec x o).2.app := by
  cases o with
  | fetch n => exact h.of_eq (by simp [Shared.exec]) (by simp [Shared.exec])
  | ack seq | term seq => exact h.of_eq (by simp [Shared.exec]) (by simp [Shared.exec])
  | publishDLQ origin m => exact h.of_eq (by simp [Shared.exec]) (by simp [Shared.exec])
  | subscribeJetStream => exact h.subscribeJetStream s.clock x.binding
  | _ => exact h.of_eq rfl rfl

theorem input {s : Shared} (h : Configured s.app) (e : Input) : Configured (s.input e).1.app := by
  cases e with
  | control a =>
    cases a with
    | subscribeJetStream now b => exact h.subscribeJetStream now b
    | scaleWorkers n => exact h.scaleWorkers _ n
    | _ => exact h.of_eq rfl rfl
  | _ => exact h.of_eq rfl rfl

theorem step {arch : Platform} {s : State arch} (h : Configured s.shared.app) (a : Act) :
    Configured (stepWorld arch s a).shared.app := by
  rw [stepWorld]
  refine Machine.shared_step (fun s : Shared => Configured s.app) h ?_ ?_
  · exact fun e _ => h.input e
  · exact fun _ x _ o _ _ _ _ => h.exec x o

end Configured

theorem configured_init : Configured {} := ⟨⟨1, by decide, by decide, rfl⟩, rfl⟩

/-- In every state reached the configuration is that of the start. -/
theorem configured_run (arch : Platform) (as : List Act) :
    Configured (run (stepWorld arch) (State.empty arch) as).shared.app :=
  run_inv_all (fun s : State arch => Configured s.shared.app) (fun _ a h => h.step a) as
    configured_init

end NatsDemo.Processor
