import NatsDemo.Processor.Seen

/-!
# Deliveries are genuine

A goroutine that handles a message got it from a fetch, so what it handles under a
sequence number is the message that the stream holds under that number.  And only the
handling of a message publishes dead letters.
-/

namespace NatsDemo.Processor
open Lib Go Jobs Messaging

/-- What a goroutine passes on to a handling was fetched, and only a handling publishes. -/
def passOn (l : Label) :
    Contract Shared (Call Op Label) (Call.Res Op.Res Bool) (List Delivery) where
  pre got
    | .fork (.handle d _) => d ∈ got
    | .prim (.publishDLQ _ _) => l.handling ≠ none
    | _ => True
  ans _ _ _ _ := True
  next got _
    | .prim (.fetch _), f => got ++ f.messages
    | _, _ => got

def ForksHandling : Call Op Label → Prop
  | .fork (.handle _ _) => True
  | _ => False

section
variable {arch : Platform} {l : Label} {got : List Delivery}

theorem passOn_of_avoids {p : Prog Bool} (hp : p.Avoids Marked) :
    p.wp (passOn l) (fun _ _ => True) got := by
  refine Proc.wp_of_avoids (fun _ => True) (fun _ _ _ _ _ _ => trivial) ?_ hp
    (fun _ _ _ => trivial) trivial
  intro g o ho _
  simp only [passOn]
  split
  · exact absurd trivial ho
  · exact absurd trivial ho
  · trivial

theorem passOn_of_handling {h : Handling} (hl : l.handling = some h) {p : Prog Bool}
    (hp : p.Avoids ForksHandling) : p.wp (passOn l) (fun _ _ => True) got := by
  refine Proc.wp_of_avoids (fun _ => True) (fun _ _ _ _ _ _ => trivial) ?_ hp
    (fun _ _ _ => trivial) trivial
  intro g o ho _
  simp only [passOn]
  split
  · exact absurd trivial ho
  · simp [hl]
  · trivial

theorem passOn_handleAll (ctx : ℕ) (worker : String) {ds : List Delivery} (hds : ds ⊆ got) :
    (handleAll ctx worker ds).wp (passOn l) (fun _ _ => True) got := by
  induction ds with
  | nil => exact passOn_of_avoids (by simp [handleAll, again, Marked])
  | cons d ds ih =>
    refine ⟨hds List.mem_cons_self, fun _ t _ => ⟨trivial, fun _ stop _ => ?_⟩⟩
    cases stop with
    | true => trivial
    | false => exact ih (List.subset_of_cons_subset hds)

theorem passOn_pullBatch (ctx : ℕ) (worker : String) (once : Bool) :
    (pullBatch ctx worker once).wp (passOn l) (fun _ _ => True) got := by
  simp only [pullBatch, op_eq, Proc.call_bind, Proc.ret_bind, Proc.wp_call]
  refine ⟨trivial, fun _ f _ => ?_⟩
  split
  next d1 d2 d3 _ =>
    refine passOn_of_avoids ?_
    cases once <;>
      simp [handleOutOfOrderBatch, Handling.recordBatchEvent, Handling.resetIfOnce, again, Marked]
  next ds _ _ => exact passOn_handleAll ctx worker (List.subset_append_right got ds)
  next => exact passOn_of_avoids (by simp [again, Marked])

theorem passOn_pullOne (ctx : ℕ) (worker : String) :
    (pullOne ctx worker).wp (passOn l) (fun _ _ => True) got := by
  simp only [pullOne, op_eq, Proc.call_bind, Proc.ret_bind, Proc.wp_call]
  refine ⟨trivial, fun _ f _ => ?_⟩
  cases f with
  | batch ds => exact passOn_handleAll ctx worker (List.subset_append_right got _)
  | timeout => exact passOn_of_avoids (by simp [again, Marked])
  | error => exact passOn_of_avoids (by simp [again, Marked])

theorem passOn_jsPullLoop (ctx : ℕ) (worker : String) :
    (jsPullLoop ctx worker).wp (passOn l) (fun _ _ => True) got := by
  simp only [jsPullLoop, op_eq, Proc.call_bind, Proc.ret_bind, Proc.wp_call]
  refine ⟨trivial, fun _ done _ => ?_⟩
  cases done with
  | true => trivial
  | false =>
    refine ⟨trivial, fun _ flags _ => ?_⟩
    by_cases hflags : (flags.1 && flags.2) = true
    · simp only [hflags]
      refine ⟨trivial, fun c r _ => ?_⟩
      beta_reduce
      by_cases hvalue : r.1 = "out_of_order_ack"
      · rw [if_pos hvalue]
        exact passOn_pullBatch ctx worker r.2
      · rw [if_neg hvalue]
        exact passOn_pullOne ctx worker
    · simp only [hflags]
      exact passOn_of_avoids (by simp [again, Marked])

theorem foreign_of_marked {κ : Kind} (hpull : κ ≠ .pull) (hhandle : κ ≠ .handle)
    (o : Call Op Label) (ho : Marked o) : Foreign κ o := by
  cases o with
  | prim o => cases o <;> first | exact ho.elim | simp [Foreign, users, hpull, hhandle]
  | fork l => cases l <;> first | exact ho.elim | simp [Foreign, users, hpull]
  | await i => exact ho.elim

theorem foreign_of_forksHandling (o : Call Op Label) (ho : ForksHandling o) :
    Foreign .handle o := by
  cases o with
  | fork l => cases l <;> first | exact ho.elim | simp [Foreign, users]
  | _ => exact ho.elim

theorem passOn_program (arch : Platform) (l : Label) :
    (program arch l).wp (passOn l) (fun _ _ => True) [] := by
  cases l with
  | pull ctx worker => exact passOn_jsPullLoop ctx worker
  | handle d worker =>
    cases hl : (Label.handle d worker).handling with
    | some h => exact passOn_of_handling hl (program_avoids foreign_of_forksHandling)
    | none =>
      have hl' : Handling.ofDelivery d worker = none := hl
      simp only [program, handleJetStreamMsg, hl']
      exact passOn_of_avoids (by simp [Marked])
  | _ =>
    refine passOn_of_avoids (program_avoids (foreign_of_marked ?_ ?_)) <;> intro h <;> cases h

end

/-! ## The messages of the stream -/

/-- The messages that were stored in JOBS; none is ever changed. -/
def Shared.msgs (s : Shared) : List Msg := s.jobs.map Stored.msg

/-- The stream holds the message of a delivery. -/
def Shared.Holds (s : Shared) (d : Delivery) : Prop := s.msgs[d.seq]? = some d.msg

theorem deliver_spec (jobs : List Stored) (qs : List ℕ) :
    (deliver jobs qs).2.map Stored.msg = jobs.map Stored.msg ∧
      ∀ d ∈ (deliver jobs qs).1, (jobs.map Stored.msg)[d.seq]? = some d.msg := by
  induction qs generalizing jobs with
  | nil => simp [deliver]
  | cons q qs ih =>
    cases hj : jobs[q]? with
    | none => simpa only [deliver, hj] using ih jobs
    | some j =>
      by_cases hsettled : j.settled = true
      · simpa only [deliver, hj, if_pos hsettled] using ih jobs
      · have hmsgs : (jobs.set q { j with delivered := j.delivered + 1 }).map Stored.msg =
            jobs.map Stored.msg := Machine.map_set_same hj rfl
        obtain ⟨hmap, hmem⟩ := ih (jobs.set q { j with delivered := j.delivered + 1 })
        rw [hmsgs] at hmap hmem
        simp only [deliver, hj, if_neg hsettled]
        refine ⟨hmap, fun d hd => ?_⟩
        cases List.mem_cons.mp hd with
        | inl hd =>
          subst hd
          simp [hj]
        | inr hd => exact hmem d hd

theorem msgs_fetch (s : Shared) (x : Choice) (n : ℕ) : (s.fetch x n).2.msgs = s.msgs := by
  simp only [Shared.fetch]
  split_ifs
  · exact (deliver_spec s.jobs _).1
  · rfl
  · rfl

theorem msgs_settle (s : Shared) (ok : Bool) (seq : ℕ) : (s.settle ok seq).2.msgs = s.msgs := by
  cases ok with
  | false => rfl
  | true => exact Machine.map_modify_same s.jobs seq fun _ => rfl

theorem msgs_exec (x : Choice) (s : Shared) (o : Op) : (s.exec x o).2.msgs = s.msgs := by
  cases o with
  | fetch n => exact msgs_fetch s x n
  | ack seq | term seq => exact msgs_settle s x.ok seq
  | publishDLQ origin m => exact congrArg (List.map Stored.msg) (s.jobs_publishDLQ x.ok origin m)
  | _ => rfl

/-- A fetch gives messages of the stream. -/
theorem holds_of_fetch {s : Shared} {x : Choice} {n : ℕ} {d : Delivery}
    (hd : d ∈ (s.fetch x n).1.messages) : s.Holds d := by
  simp only [Shared.fetch] at hd
  split_ifs at hd
  · exact (deliver_spec s.jobs _).2 d hd
  · cases hd
  · cases hd

/-- Messages are only added to the stream. -/
theorem msgs_input (s : Shared) (e : Input) : s.msgs <+: (s.input e).1.msgs := by
  cases e with
  | store m =>
    refine ⟨[m], ?_⟩
    simp [Shared.input, Shared.msgs]
  | _ => exact List.prefix_refl _

theorem holds_of_grown {s s' : Shared} (h : s.msgs <+: s'.msgs) {d : Delivery}
    (hd : s.Holds d) : s'.Holds d := by
  obtain ⟨hlt, -⟩ := List.getElem?_eq_some_iff.mp hd
  obtain ⟨ms, hms⟩ := h
  rw [Shared.Holds, ← hms, List.getElem?_append_left hlt]
  exact hd

section
variable {arch : Platform}

theorem msgs_step (s : State arch) (a : Act) :
    s.shared.msgs <+: (stepWorld arch s a).shared.msgs := by
  rw [stepWorld]
  refine Machine.shared_step (fun s' : Shared => s.shared.msgs <+: s'.msgs) List.prefix_rfl ?_ ?_
  · exact fun e _ => msgs_input s.shared e
  · exact fun _ x _ o _ _ _ _ => (msgs_exec x s.shared o).symm ▸ List.prefix_rfl

/-- What a goroutine was handed by its fetches. -/
def received (t : Thread arch) : List Delivery := (passOn t.label).after [] t.hist

/-- A fact about deliveries holds of what was fetched, and of what is handled. -/
structure Backed (Φ : Shared → Delivery → Prop) (s : State arch) : Prop where
  received : ∀ (i : ℕ) t d, s.threads[i]? = some t → d ∈ received t → Φ s.shared d
  handled : ∀ (i : ℕ) t d w, s.threads[i]? = some t → t.label = .handle d w → Φ s.shared d

/-- The stream holds what was fetched, and what is handled. -/
abbrev Genuine (s : State arch) : Prop := Backed Shared.Holds s

theorem received_advance {t : Thread arch} {o : Call Op Label}
    {k : Call.Res Op.Res Bool o → Prog Bool} (hr : t.rest = .call o k) (c : Shared)
    (r : Call.Res Op.Res Bool o) :
    received (t.advance hr c r) = (passOn t.label).next (received t) c o r :=
  Contract.after_snoc _ _ _ _

/-- A fork of a handling passes on what was received. -/
theorem received_of_fork {t : Thread arch} {d : Delivery} {w : String} {k : ℕ → Prog Bool}
    (hr : t.rest = .call (.fork (.handle d w)) k) : d ∈ received t := by
  have h := (t.traced.wp (passOn_program arch t.label) (meets_of_mem (fun _ _ _ => trivial) _)).2
  rw [hr] at h
  exact h.1

/-- Who publishes is a handling. -/
theorem handling_of_publish {t : Thread arch} {origin : ℕ} {m : Msg} {k : Bool → Prog Bool}
    (hr : t.rest = .call (.prim (.publishDLQ origin m)) k) : ∃ h, t.label.handling = some h := by
  have h := (t.traced.wp (passOn_program arch t.label) (meets_of_mem (fun _ _ _ => trivial) _)).2
  rw [hr] at h
  exact Option.ne_none_iff_exists'.mp h.1

/-- The inputs start pull loops and the callbacks of subscriptions. -/
theorem not_handle_of_input {s : Shared} {e : Input} {d : Delivery} {w : String} :
    Label.handle d w ∉ (s.input e).2 := by
  cases e with
  | putScenario value once => simp [Shared.input]
  | control a => simp [Shared.input, Shared.loops]
  | store m => by_cases hsub : s.app.sub <;> simp [Shared.input, hsub]
  | validate m => by_cases hsub : s.app.valSub <;> simp [Shared.input, hsub]
  | _ => simp [Shared.input]

theorem Backed.empty (Φ : Shared → Delivery → Prop) : Backed Φ (State.empty arch) where
  received i t d ht := by simp [State.empty] at ht
  handled i t d w ht := by simp [State.empty] at ht

/-- What lasts, and is true of the messages of a fetch, holds of all deliveries. -/
theorem Backed.step {Φ : Shared → Delivery → Prop} {s : State arch} {a : Act}
    (hlasts : ∀ d, Φ s.shared d → Φ (stepWorld arch s a).shared d)
    (hfetch : ∀ (i : ℕ) x t n k, a = .op i x → s.threads[i]? = some t →
      t.rest = .call (.prim (.fetch n)) k →
      ∀ d ∈ (s.shared.fetch x n).1.messages, Φ (s.shared.fetch x n).2 d)
    (hs : Backed Φ s) : Backed Φ (stepWorld arch s a) where
  received j u d hu hd := by
    cases (Machine.step_spec s a).origin hu with
    | same hu => exact hlasts d (hs.received j u d hu hd)
    | started l _ _ hl =>
      subst hl
      cases hd
    | @prim t o k x hact ht hr hadv =>
      subst hadv
      rw [received_advance] at hd
      cases o with
      | fetch n =>
        subst hact
        have hshared : (stepWorld arch s (.op j x)).shared = (s.shared.fetch x n).2 :=
          congrArg Machine.State.shared (Machine.step_prim x ht hr)
        cases List.mem_append.mp hd with
        | inl hd => exact hlasts d (hs.received j t d ht hd)
        | inr hd => exact hshared ▸ hfetch j x t n k rfl ht hr d hd
      | _ => exact hlasts d (hs.received j t d ht hd)
    | @other t o k ht hr ho r hadv =>
      subst hadv
      rw [received_advance] at hd
      cases o with
      | prim p => exact absurd rfl (ho p)
      | fork l => exact hlasts d (hs.received j t d ht hd)
      | await i => exact hlasts d (hs.received j t d ht hd)
  handled j u d w hu hlabel := by
    cases (Machine.step_spec s a).origin hu with
    | same hu => exact hlasts d (hs.handled j u d w hu hlabel)
    | started l _ hstarts hl =>
      subst hl
      obtain rfl : l = .handle d w := hlabel
      rcases hstarts with ⟨e, -, hl⟩ | ⟨i, t, k, ht, hr⟩
      · exact absurd hl not_handle_of_input
      · exact hlasts d (hs.received i t d ht (received_of_fork hr))
    | prim x hact ht hr hadv =>
      subst hadv
      exact hlasts d (hs.handled j _ d w ht hlabel)
    | other ht hr ho r hadv =>
      subst hadv
      exact hlasts d (hs.handled j _ d w ht hlabel)

theorem Genuine.step {s : State arch} {a : Act} (hs : Genuine s) :
    Genuine (stepWorld arch s a) := by
  refine Backed.step (fun d hd => holds_of_grown (msgs_step s a) hd) ?_ hs
  intro i x t n k _ _ _ d hd
  exact holds_of_grown (msgs_fetch s.shared x n ▸ List.prefix_rfl) (holds_of_fetch hd)

/-- Handlings of one sequence number are handlings of one message. -/
theorem Genuine.msg_eq {s : State arch} (hs : Genuine s) {i j : ℕ} {t u : Thread arch}
    {d d' : Delivery} {w w' : String} (ht : s.threads[i]? = some t) (hu : s.threads[j]? = some u)
    (hlt : t.label = .handle d w) (hlu : u.label = .handle d' w') (hseq : d.seq = d'.seq) :
    d.msg = d'.msg := by
  have hd : s.shared.msgs[d.seq]? = some d.msg := hs.handled i t d w ht hlt
  have hd' : s.shared.msgs[d.seq]? = some d'.msg := hseq ▸ hs.handled j u d' w' hu hlu
  exact Option.some_inj.mp (hd.symm.trans hd')

end

end NatsDemo.Processor
