import NatsDemo.Processor.Sent

/-!
# What becomes of a message

Which of the calls that decide about its message a handling makes: whether it routes it
to the dead letter queue, terminates it or acknowledges it.
-/

namespace NatsDemo.Processor
open Lib Go Jobs Messaging

/-- The calls by which a worker decides about a message. -/
def Decides : Call Op Label → Prop
  | .prim (.ack _) | .prim (.term _) | .prim (.publishDLQ _ _) => True
  | _ => False

/-- To terminate a message, or to route it to the dead letter queue. -/
def Drops : Call Op Label → Prop
  | .prim (.term _) | .prim (.publishDLQ _ _) => True
  | _ => False

/-- The message is acknowledged. -/
def Acknowledged (seq : ℕ) (calls : List Done) : Prop := ∃ ok, ⟨.prim (.ack seq), ok⟩ ∈ calls

theorem decides_of_drops (o : Call Op Label) (h : Drops o) : Decides o := by
  cases o with
  | prim o => cases o <;> first | exact h.elim | trivial
  | _ => exact h.elim

theorem not_decides_of_reports {o : Call Op Label} (h : Reports o) : ¬ Decides o := by
  cases o with
  | prim o => cases o <;> first | exact h.elim | exact id
  | _ => exact h.elim

section
variable {arch : Platform} {answer : ℕ → (c : Call Op Label) → Call.Res Op.Res Bool c} {n : ℕ}

/-- Nothing is decided before the scenario is read. -/
theorem mem_process_iff (h : Handling) : ∃ k, ∀ e : Done, Decides e.1 →
    (e ∈ (h.process arch).transcript answer n ↔
      e ∈ (h.conclude arch (answer k (.prim .readScenario))).transcript answer (k + 1)) := by
  obtain ⟨k, htranscript, -⟩ := exists_read arch answer n h
  refine ⟨k, fun e he => ?_⟩
  rw [htranscript, List.mem_append, List.mem_cons]
  constructor
  · rintro (hmem | rfl | hmem)
    · exact absurd he (not_decides_of_reports (reports_start hmem))
    · exact he.elim
    · exact hmem
  · intro hmem
    exact Or.inr (Or.inr hmem)

/-! ## Routing to the dead letter queue -/

/-- What is routed is the dead letter of the handling, whose simulated failure fired and
which no scenario took. -/
theorem routed_of_publish {h : Handling} {origin : ℕ} {m : Msg} {ok : Bool}
    (hmem : (⟨.prim (.publishDLQ origin m), ok⟩ : Done) ∈ (h.process arch).transcript answer n) :
    (∃ value, Handling.branchOf (Handling.overrideScenario h.job.payload value)
      h.attemptCount = none) ∧
    Handling.failureFires arch h.job.payload h.attemptCount ∧ ∃ now, m = h.dlqMsg arch now := by
  obtain ⟨k, hk⟩ := mem_process_iff h
  have hend := (hk ⟨.prim (.publishDLQ origin m), ok⟩ trivial).mp hmem
  rw [Handling.conclude] at hend
  split at hend
  next b _ => exact absurd trivial ((runBranch_avoids h _ b).not_mem_transcript _ hend)
  next hbranch =>
    refine ⟨⟨_, hbranch⟩, ?_⟩
    rw [Handling.evaluate] at hend
    split_ifs at hend with hfires hmax
    · refine ⟨hfires, ?_⟩
      have htail : (h.ackIfWanted >>= fun _ => (Proc.ret false : Prog Bool)).Avoids Marked := by
        simp [Handling.ackIfWanted, Marked]
      rcases List.mem_cons.mp hend with heq | hend
      · cases heq
      · rcases List.mem_cons.mp hend with heq | hend
        · exact ⟨_, by cases heq; rfl⟩
        · rcases List.mem_cons.mp hend with heq | hend
          · cases heq
          · exact absurd trivial (htail.not_mem_transcript _ hend)
    · exact absurd trivial ((retry_avoids arch h).not_mem_transcript _ hend)
    · exact absurd trivial ((complete_avoids h).not_mem_transcript _ hend)

/-! ## Going through -/

/-- No branch but that of a poison message drops its message. -/
theorem conclude_avoids_drops {h : Handling} {r : String × Bool}
    (hterm : Handling.overrideScenario h.job.payload r.1 ≠ "term_message")
    (hfires : ¬ Handling.failureFires arch h.job.payload h.attemptCount) :
    (h.conclude arch r).Avoids Drops := by
  rw [Handling.conclude]
  split
  next b hb =>
    have hne : b ≠ .term := by
      intro hb'
      subst hb'
      exact hterm (scenario_of_branchOf hb)
    refine runBranch_avoids_of h r.2 fun o hcall => ?_
    cases hcall with
    | term => exact absurd rfl hne
    | _ => exact id
  next =>
    rw [Handling.evaluate, if_neg hfires]
    simp [Handling.complete, Handling.recordWorkerEvent, Handling.ackIfWanted, Drops]

theorem acknowledged_complete {h : Handling}
    (hpolicy : ∀ k, answer k (.prim .readAckPolicy) ≠ "none") :
    Acknowledged h.d.seq (h.complete.transcript answer n) := by
  refine ⟨answer (n + 2) (.prim (.ack h.d.seq)), ?_⟩
  simp [Handling.complete, Handling.recordWorkerEvent, Handling.ackIfWanted, hpolicy]

/-- A handling that no scenario takes and that does not fail acknowledges. -/
theorem acknowledged_process {h : Handling}
    (hpolicy : ∀ k, answer k (.prim .readAckPolicy) ≠ "none")
    (hbranch : ∀ k, Handling.branchOf (Handling.overrideScenario h.job.payload
      (answer k (.prim .readScenario)).1) h.attemptCount = none)
    (hfires : ¬ Handling.failureFires arch h.job.payload h.attemptCount) :
    Acknowledged h.d.seq ((h.process arch).transcript answer n) := by
  obtain ⟨k, hk⟩ := mem_process_iff h
  have hend : h.conclude arch (answer k (.prim .readScenario)) = h.complete := by
    simp only [Handling.conclude, hbranch k, Handling.evaluate, if_neg hfires]
  obtain ⟨ok, hok⟩ := acknowledged_complete (h := h) (n := k + 1) hpolicy
  exact ⟨ok, (hk ⟨.prim (.ack h.d.seq), ok⟩ trivial).mpr (hend ▸ hok)⟩

theorem process_keeps {h : Handling}
    (hterm : ∀ k, Handling.overrideScenario h.job.payload
      (answer k (.prim .readScenario)).1 ≠ "term_message")
    (hfires : ¬ Handling.failureFires arch h.job.payload h.attemptCount) :
    ∀ e ∈ (h.process arch).transcript answer n, ¬ Drops e.1 := by
  obtain ⟨k, hk⟩ := mem_process_iff h
  intro e he hdrop
  have hend := (hk e (decides_of_drops e.1 hdrop)).mp he
  exact (conclude_avoids_drops (hterm k) hfires).not_mem_transcript e hend hdrop

end

end NatsDemo.Processor
