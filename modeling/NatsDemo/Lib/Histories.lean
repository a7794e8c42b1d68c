import Mathlib.Algebra.GroupWithZero.Nat
import NatsDemo.Lib.Journal

/-!
# Histories and the journal

The history of a thread is its part of the journal, so what a program does in every
execution is known of the entries of the journal, and a number of entries is a sum over the
threads.  A call that no program of a good label makes is made by nobody, as long as only
good labels are started.
-/

namespace NatsDemo.Lib

/-! ## What is so all along -/

section
variable {κ Op : Type} {Res : Op → Type} {α : Type}

/-- An operation with its answer. -/
def Event.done (e : Event κ Op Res) : (o : Op) × Res o := ⟨e.op, e.ans⟩

/-- The discipline that what was done so far is as it should be. -/
def Contract.record (κ : Type) (Φ : List ((o : Op) × Res o) → Prop) :
    Contract κ Op Res (List ((o : Op) × Res o)) where
  pre g _ := Φ g
  ans _ _ _ _ := True
  next g _ o r := g ++ [⟨o, r⟩]

variable {Φ : List ((o : Op) × Res o) → Prop}

theorem Contract.after_record (g : List ((o : Op) × Res o)) (h : List (Event κ Op Res)) :
    (record κ Φ).after g h = g ++ h.map Event.done := by
  induction h using List.reverseRecOn with
  | nil => exact (List.append_nil g).symm
  | append_singleton h e ih =>
    rw [Contract.after_snoc, ih, List.map_append, ← List.append_assoc]
    rfl

/-- What is so at every call of a program and at its end is so of each of its histories. -/
theorem Trace.of_record {p q : Proc Op Res α} {h : List (Event κ Op Res)} (t : Trace p h q)
    (hp : p.wp (Contract.record κ Φ) (fun _ g => Φ g) []) : Φ (h.map Event.done) := by
  have hafter := t.after_of_wp (Φ := Φ) hp (meets_of_mem (fun _ _ _ => trivial) _)
    (fun _ _ hpre => hpre) (fun _ _ hQ => hQ)
  rwa [Contract.after_record, List.nil_append] at hafter

end

namespace Machine

variable {σ A χ Op L α : Type} {Res : Op → Type} {M : Machine σ A χ Op L α Res}

/-! ## The entries of a thread -/

/-- The operation among the calls, with its answer. -/
def opOf : (c : Call Op L) × Call.Res Res α c → Option ((o : Op) × Res o)
  | ⟨.prim o, r⟩ => some ⟨o, r⟩
  | _ => none

@[simp] theorem opOf_prim (o : Op) (r : Res o) :
    opOf (⟨.prim o, r⟩ : (c : Call Op L) × Call.Res Res α c) = some ⟨o, r⟩ := rfl
@[simp] theorem opOf_fork (l : L) (r : ℕ) :
    opOf (⟨.fork l, r⟩ : (c : Call Op L) × Call.Res Res α c) = none := rfl
@[simp] theorem opOf_await (j : ℕ) (r : α) :
    opOf (⟨.await j, r⟩ : (c : Call Op L) × Call.Res Res α c) = none := rfl

namespace Thread

/-- The operations that a thread has done. -/
def ops (t : Thread M) : List ((o : Op) × Res o) := (t.hist.map Event.done).filterMap opOf

@[simp] theorem ops_start (l : L) : (start l : Thread M).ops = [] := rfl

theorem ops_advance_prim (t : Thread M) {o : Op} {k : Res o → Proc _ _ α}
    (h : t.rest = .call (.prim o) k) (c : σ) (r : Res o) :
    (t.advance h c r).ops = t.ops ++ [⟨o, r⟩] := by
  rw [ops, advance, List.map_append, List.filterMap_append]
  rfl

theorem ops_advance_other (t : Thread M) {o : Call Op L} {k : Call.Res Res α o → Proc _ _ α}
    (h : t.rest = .call o k) (ho : ∀ p, o ≠ .prim p) (c : σ) (r : Call.Res Res α o) :
    (t.advance h c r).ops = t.ops := by
  rw [ops, advance, List.map_append, List.filterMap_append]
  cases o with
  | prim p => exact absurd rfl (ho p)
  | fork l => exact List.append_nil _
  | await j => exact List.append_nil _

end Thread

/-- The operations of the thread `i` among some entries. -/
def opsBy (i : ℕ) (ds : List (Deed A Op Res)) : List ((o : Op) × Res o) :=
  ds.filterMap fun
    | .op j o r => if j = i then some ⟨o, r⟩ else none
    | .env _ => none

/-- The operations that the thread `i` has done. -/
def State.opsOf (s : State M) (i : ℕ) : List ((o : Op) × Res o) :=
  (s.threads[i]?).elim [] Thread.ops

/-- The operations of the thread `i` in a list of threads. -/
theorem elim_ops_set {ts : List (Thread M)} {i j : ℕ} {t u : Thread M} (ht : ts[j]? = some t) :
    ((ts.set j u)[i]?).elim [] Thread.ops =
      if j = i then u.ops else (ts[i]?).elim [] Thread.ops := by
  have hj : j < ts.length := (List.getElem?_eq_some_iff.mp ht).1
  split_ifs with h
  · rw [← h, List.getElem?_set_self hj]
    rfl
  · rw [List.getElem?_set_ne h]

/-- New threads have done nothing. -/
theorem elim_ops_append_start (ts : List (Thread M)) (ls : List L) (i : ℕ) :
    ((ts ++ ls.map Thread.start)[i]?).elim [] Thread.ops = (ts[i]?).elim [] Thread.ops := by
  rcases Nat.lt_or_ge i ts.length with hi | hi
  · rw [List.getElem?_append_left hi]
  · rw [List.getElem?_append_right hi, List.getElem?_eq_none hi, List.getElem?_map]
    cases ls[i - ts.length]? <;> rfl

theorem opsOf_step (s : State M) (a : Act A χ) (i : ℕ) :
    (step s a).opsOf i = s.opsOf i ++ opsBy i (deeds s a) := by
  cases a with
  | env e => exact (elim_ops_append_start _ _ i).trans (List.append_nil _).symm
  | op j x =>
    cases ht : s.threads[j]? with
    | none => simp [step, deeds, ht, opsBy]
    | some t =>
      have hsame : s.opsOf i = if j = i then t.ops else s.opsOf i := by
        split_ifs with h
        · rw [State.opsOf, ← h, ht]
          rfl
        · rfl
      cases hr : t.rest with
      | ret a => simp [step_ret x ht hr, deeds, ht, hr, opsBy]
      | call o k =>
        cases o with
        | prim o =>
          rw [step_prim x ht hr, State.opsOf, elim_ops_set ht, Thread.ops_advance_prim]
          simp only [deeds, ht, hr, Option.map_some, opsBy, List.filterMap_cons, List.filterMap_nil]
          split_ifs with h
          · rw [hsame, if_pos h]
          · exact (List.append_nil _).symm
        | fork l =>
          have hother := elim_ops_append_start (s.threads.set j (t.advance hr s.shared
            s.threads.length)) [l] i
          rw [elim_ops_set ht, t.ops_advance_other hr (by simp)] at hother
          rw [step_fork x ht hr]
          refine hother.trans ?_
          simp only [deeds, ht, hr, Option.map_some, opsBy, List.filterMap_nil, List.append_nil]
          exact hsame.symm
        | await l =>
          have hnone : opsBy i (deeds s (.op j x)) = [] := by simp [deeds, ht, hr, opsBy]
          rw [hnone, List.append_nil]
          rcases step_await x ht hr with h | ⟨a, h⟩
          · rw [h]
          · rw [h, State.opsOf, elim_ops_set ht, t.ops_advance_other hr (by simp)]
            exact hsame.symm

/-- **A history is a part of the journal.** -/
theorem opsOf_run (s : State M) (as : List (Act A χ)) (i : ℕ) :
    (run step s as).opsOf i = s.opsOf i ++ opsBy i (journal step deeds s as) := by
  induction as generalizing s with
  | nil => exact (List.append_nil _).symm
  | cons a as ih =>
    rw [run_cons, ih, opsOf_step, List.append_assoc, journal_cons, opsBy, opsBy, opsBy,
      List.filterMap_append]

/-- What a thread has done is in the journal, where there were no threads at first. -/
theorem mem_journal_of_mem_ops {s : State M} (hs : s.threads = []) {as : List (Act A χ)} {i : ℕ}
    {t : Thread M} (ht : (run step s as).threads[i]? = some t) {o : Op} {r : Res o}
    (h : ⟨o, r⟩ ∈ t.ops) : .op i o r ∈ journal step deeds s as := by
  have hops : t.ops = opsBy i (journal step deeds s as) := by
    have hrun := opsOf_run s as i
    rw [State.opsOf, ht, State.opsOf, hs] at hrun
    exact hrun
  rw [hops] at h
  obtain ⟨d, hd, hby⟩ := List.mem_filterMap.mp h
  cases d with
  | env e => cases hby
  | op j o' r' =>
    dsimp only at hby
    split_ifs at hby with hj
    cases Option.some_inj.mp hby
    exact hj ▸ hd

/-! ## What a program tells -/

end Machine

section
variable {κ Op ι : Type} {Res : Op → Type} {α β : Type} (pick : (o : Op) × Res o → Option ι)

/-- Whatever is answered, the result and what is picked from all that is done satisfy `S`. -/
def Proc.Tells : Proc Op Res α → (α → List ι → Prop) → Prop
  | .ret a, S => S a []
  | .call o k, S => ∀ r, (k r).Tells fun a l => S a ((pick ⟨o, r⟩).toList ++ l)

variable {pick} {S : α → List ι → Prop}

@[simp] theorem Proc.tells_ret (a : α) :
    (Proc.ret a : Proc Op Res α).Tells pick S ↔ S a [] := Iff.rfl
@[simp] theorem Proc.tells_call (o : Op) (k : Res o → Proc Op Res α) :
    (Proc.call o k).Tells pick S ↔
      ∀ r, (k r).Tells pick fun a l => S a ((pick ⟨o, r⟩).toList ++ l) := Iff.rfl

@[simp] theorem Proc.tells_ite (c : Prop) [Decidable c] (p q : Proc Op Res α) :
    (if c then p else q).Tells pick S ↔ if c then p.Tells pick S else q.Tells pick S := by
  split <;> rfl

theorem Proc.Tells.mono {p : Proc Op Res α} {S' : α → List ι → Prop} (h : p.Tells pick S)
    (hS : ∀ a l, S a l → S' a l) : p.Tells pick S' := by
  induction p generalizing S S' with
  | ret a => exact hS a [] h
  | call o k ih => exact fun r => ih r (h r) fun a l => hS a _

/-- What is told in a sequence is told in its parts, one after the other. -/
theorem Proc.tells_bind {p : Proc Op Res α} {f : α → Proc Op Res β} {T : β → List ι → Prop} :
    (p >>= f).Tells pick T ↔
      p.Tells pick fun a l => (f a).Tells pick fun b l' => T b (l ++ l') := by
  induction p generalizing T with
  | ret a => rfl
  | call o k ih => simp only [call_bind, tells_call, ih, List.append_assoc]

theorem Proc.Tells.bind {p : Proc Op Res α} {f : α → Proc Op Res β} {T : β → List ι → Prop}
    (hp : p.Tells pick S) (hf : ∀ a l, S a l → (f a).Tells pick fun b l' => T b (l ++ l')) :
    (p >>= f).Tells pick T := tells_bind.mpr (hp.mono hf)

/-- A program that avoids what is picked tells nothing. -/
theorem Proc.tells_of_avoids {φ : Op → Prop} (hpick : ∀ o r, ¬ φ o → pick ⟨o, r⟩ = none)
    {p : Proc Op Res α} (hp : p.Avoids φ) : p.Tells pick fun _ l => l = [] := by
  induction p with
  | ret a => rfl
  | call o k ih =>
    intro r
    rw [hpick o r hp.1]
    exact ih r (hp.2 r)

/-- Every program tells something in the end. -/
theorem Proc.Tells.exists {p : Proc Op Res α} (h : p.Tells pick S) (answer : (o : Op) → Res o) :
    ∃ a l, S a l := by
  induction p generalizing S with
  | ret a => exact ⟨a, [], h⟩
  | call o k ih =>
    obtain ⟨a, l, hl⟩ := ih (answer o) (h (answer o))
    exact ⟨a, _, hl⟩

theorem Trace.tells {p q : Proc Op Res α} {h : List (Event κ Op Res)} (t : Trace p h q)
    (hp : p.Tells pick S) :
    q.Tells pick fun a l => S a ((h.map Event.done).filterMap pick ++ l) := by
  induction t with
  | nil => exact hp
  | @snoc h o k c r t ih =>
    refine (ih r).mono fun a l hl => ?_
    have hdone : (⟨c, o, r⟩ : Event κ Op Res).done = ⟨o, r⟩ := rfl
    rw [List.map_append, List.map_singleton, hdone, List.filterMap_append, List.append_assoc]
    cases hpick : pick ⟨o, r⟩ with
    | none =>
      rw [hpick] at hl
      rwa [List.filterMap_cons_none hpick]
    | some x =>
      rw [hpick] at hl
      rwa [List.filterMap_cons_some hpick]

/-- What was told so far is the beginning of what is told in all, and all of it at the end. -/
theorem Trace.told {p q : Proc Op Res α} {h : List (Event κ Op Res)} (t : Trace p h q)
    (hp : p.Tells pick S) (answer : (o : Op) → Res o) : ∃ a l, S a l ∧
      (h.map Event.done).filterMap pick <+: l ∧
      ∀ b, q = .ret b → b = a ∧ (h.map Event.done).filterMap pick = l := by
  have hq := t.tells hp
  cases q with
  | ret b =>
    have hS : S b ((h.map Event.done).filterMap pick) := by
      rwa [Proc.tells_ret, List.append_nil] at hq
    exact ⟨b, _, hS, List.prefix_refl _, fun b' hb => ⟨(Proc.ret.inj hb).symm, rfl⟩⟩
  | call o k =>
    obtain ⟨a, l, hl⟩ := hq.exists answer
    exact ⟨a, _, hl, List.prefix_append _ l, fun b hb => nomatch hb⟩

end

namespace Machine

variable {σ A χ Op L α : Type} {Res : Op → Type} {M : Machine σ A χ Op L α Res}

/-! ## Who started whom -/

theorem labels_advance {ts : List (Thread M)} {i : ℕ} {t : Thread M} {o : Call Op L}
    {k : Call.Res Res α o → Proc _ _ α} (ht : ts[i]? = some t) (hr : t.rest = .call o k) (c : σ)
    (r : Call.Res Res α o) :
    ts.map Thread.label <+: (ts.set i (t.advance hr c r)).map Thread.label := by
  have hsame : (ts.set i (t.advance hr c r)).map Thread.label = ts.map Thread.label :=
    map_set_same ht rfl
  exact hsame ▸ List.prefix_refl _

/-- No label is changed, and threads only come to be. -/
theorem labels_step (s : State M) (a : Act A χ) :
    s.threads.map Thread.label <+: (step s a).threads.map Thread.label := by
  have h := step_spec s a
  generalize step s a = s' at h
  cases h with
  | idle => exact List.prefix_refl _
  | env e => exact (List.prefix_append _ _).map _
  | prim x ht hr => exact labels_advance ht hr _ _
  | fork x ht hr => exact (labels_advance ht hr _ _).trans ((List.prefix_append _ _).map _)
  | await x ht hr hu ha => exact labels_advance ht hr _ _

theorem labels_run (s : State M) (as : List (Act A χ)) :
    s.threads.map Thread.label <+: (run step s as).threads.map Thread.label := by
  induction as generalizing s with
  | nil => exact List.prefix_refl _
  | cons a as ih => exact (labels_step s a).trans (ih (step s a))

/-- A thread keeps its label. -/
theorem label_run {s : State M} {as : List (Act A χ)} {i : ℕ} {t u : Thread M}
    (ht : s.threads[i]? = some t) (hu : (run step s as).threads[i]? = some u) :
    u.label = t.label := by
  obtain ⟨rest, hrest⟩ := labels_run s as
  have hi : i < s.threads.length := (List.getElem?_eq_some_iff.mp ht).1
  have hold : ((run step s as).threads.map Thread.label)[i]? = some t.label := by
    rw [← hrest, List.getElem?_append_left (by simpa using hi), List.getElem?_map, ht]
    rfl
  rw [List.getElem?_map, hu] at hold
  exact Option.some_inj.mp hold

/-- The thread `j` has started the thread `i`. -/
def Started (s : State M) (j i : ℕ) (l : L) : Prop :=
  ∃ u, s.threads[j]? = some u ∧ (⟨.fork l, i⟩ : (c : Call Op L) × Call.Res Res α c) ∈
    u.hist.map Event.done

/-- Histories grow. -/
theorem Started.step {s : State M} {j i : ℕ} {l : L} (h : Started s j i l) (a : Act A χ) :
    Started (step s a) j i l := by
  obtain ⟨u, hu, hmem⟩ := h
  obtain ⟨v, hv⟩ := (step_spec s a).kept hu
  refine ⟨v, hv, ?_⟩
  cases (step_spec s a).origin hv with
  | same h =>
    obtain rfl : u = v := Option.some_inj.mp (hu.symm.trans h)
    exact hmem
  | started l' hj => exact absurd (hu.symm.trans hj) (Option.some_ne_none u)
  | prim x ha ht hr h =>
    obtain rfl := Option.some_inj.mp (hu.symm.trans ht)
    rw [h, Thread.advance, List.map_append]
    exact List.mem_append_left _ hmem
  | other ht hr ho r h =>
    obtain rfl := Option.some_inj.mp (hu.symm.trans ht)
    rw [h, Thread.advance, List.map_append]
    exact List.mem_append_left _ hmem

theorem Started.run {s : State M} {j i : ℕ} {l : L} (h : Started s j i l) (as : List (Act A χ)) :
    Started (Lib.run Machine.step s as) j i l :=
  run_inv_all (Started · j i l) (fun _ a hs => hs.step a) as h

/-- Of the labels that the environment does not start, every thread was started by another. -/
def Fathered (φ : L → Prop) (s : State M) : Prop :=
  ∀ (i : ℕ) (t : Thread M), s.threads[i]? = some t → φ t.label → ∃ j, Started s j i t.label

theorem Fathered.step {φ : L → Prop} (henv : ∀ e c, ∀ l ∈ (M.env e c).2, ¬ φ l) {s : State M}
    (hs : Fathered φ s) (a : Act A χ) : Fathered φ (Machine.step s a) := by
  intro i v hv hφ
  rcases Nat.lt_or_ge i s.threads.length with hi | hi
  · obtain ⟨t, ht⟩ : ∃ t, s.threads[i]? = some t := ⟨_, List.getElem?_eq_getElem hi⟩
    have hrun : Lib.run Machine.step s [a] = Machine.step s a := rfl
    have hlabel : v.label = t.label := label_run ht (hrun ▸ hv)
    obtain ⟨j, hj⟩ := hs i t ht (hlabel ▸ hφ)
    exact ⟨j, hlabel ▸ hj.step a⟩
  · have h := step_spec s a
    generalize Machine.step s a = s' at h hv ⊢
    cases h with
    | idle => exact absurd (List.getElem?_eq_some_iff.mp hv).1 (Nat.not_lt.mpr hi)
    | env e =>
      rw [List.getElem?_append_right hi] at hv
      obtain ⟨l, hl, rfl⟩ := List.mem_map.mp (List.mem_of_getElem? hv)
      exact absurd hφ (henv e s.shared l hl)
    | prim x ht hr =>
      rw [List.getElem?_eq_none (by simpa using hi)] at hv
      cases hv
    | @fork j t l k x ht hr =>
      rw [List.getElem?_append_right (by simpa using hi)] at hv
      have hj : j < s.threads.length := (List.getElem?_eq_some_iff.mp ht).1
      have hlt := (List.getElem?_eq_some_iff.mp hv).1
      obtain rfl : i = s.threads.length := by
        rw [List.length_set, List.length_singleton] at hlt
        omega
      rw [List.length_set, Nat.sub_self, List.getElem?_cons_zero] at hv
      obtain rfl := Option.some_inj.mp hv
      refine ⟨j, t.advance hr s.shared s.threads.length, ?_, ?_⟩
      · rw [List.getElem?_append_left (by simpa using hj), List.getElem?_set_self hj]
      · rw [Thread.advance, List.map_append]
        exact List.mem_append_right _ (List.mem_singleton.mpr rfl)
    | await x ht hr hu ha =>
      rw [List.getElem?_eq_none (by simpa using hi)] at hv
      cases hv

/-! ## What the threads saw -/

/-- Every call of a history was made in a state of the run, and an operation was answered
there. -/
theorem seen_in_run {s : State M} (hs : s.threads = []) {as : List (Act A χ)} {t : Thread M}
    (ht : t ∈ (run step s as).threads) : ∀ e ∈ t.hist, ∃ bs, bs <+: as ∧
      e.ctx = (run step s bs).shared ∧
      ∀ o r, e.done = ⟨.prim o, r⟩ → ∃ x, r = (M.exec o x e.ctx).1 := by
  induction as using List.reverseRecOn generalizing t with
  | nil =>
    rw [run_nil, hs] at ht
    cases ht
  | append_singleton as a ih =>
    have hrun : run step s (as ++ [a]) = step (run step s as) a := run_append s as [a]
    rw [hrun] at ht
    have hold {t : Thread M} (ht : t ∈ (run step s as).threads) (e) (he : e ∈ t.hist) :
        ∃ bs, bs <+: as ++ [a] ∧ e.ctx = (run step s bs).shared ∧
          ∀ o r, e.done = ⟨.prim o, r⟩ → ∃ x, r = (M.exec o x e.ctx).1 := by
      obtain ⟨bs, hbs, he⟩ := ih ht e he
      exact ⟨bs, hbs.trans (List.prefix_append _ _), he⟩
    obtain ⟨j, hj⟩ := List.mem_iff_getElem?.mp ht
    cases (step_spec (run step s as) a).origin hj with
    | same h => exact hold (List.mem_of_getElem? h)
    | started l _ _ h =>
      intro e he
      rw [h] at he
      cases he
    | prim x _ ht' hr h =>
      intro e he
      rw [h] at he
      rcases List.mem_append.mp he with he | he
      · exact hold (List.mem_of_getElem? ht') e he
      · obtain rfl := List.mem_singleton.mp he
        refine ⟨as, List.prefix_append _ _, rfl, fun o r hdone => ?_⟩
        cases hdone
        exact ⟨x, rfl⟩
    | other ht' hr ho r h =>
      intro e he
      rw [h] at he
      rcases List.mem_append.mp he with he | he
      · exact hold (List.mem_of_getElem? ht') e he
      · obtain rfl := List.mem_singleton.mp he
        refine ⟨as, List.prefix_append _ _, rfl, fun o r hdone => ?_⟩
        cases hdone
        exact absurd rfl (ho o)

/-! ## Numbers of entries -/

theorem sum_map_set {β : Type} {l : List β} {f : β → ℕ} {i d : ℕ} {b b' : β}
    (hb : l[i]? = some b) (hd : f b' = f b + d) :
    ((l.set i b').map f).sum = (l.map f).sum + d := by
  induction l generalizing i with
  | nil => simp at hb
  | cons c l ih =>
    cases i with
    | zero =>
      obtain rfl : c = b := by simpa using hb
      rw [List.set_cons_zero, List.map_cons, List.map_cons, List.sum_cons, List.sum_cons, hd]
      omega
    | succ i =>
      rw [List.set_cons_succ, List.map_cons, List.map_cons, List.sum_cons, List.sum_cons,
        ih (by simpa using hb), Nat.add_assoc]

/-- The entry is an operation of which the answer satisfies a condition. -/
def Deed.sat (p : (o : Op) × Res o → Bool) : Deed A Op Res → Bool
  | .env _ => false
  | .op _ o r => p ⟨o, r⟩

variable (p : (o : Op) × Res o → Bool)

/-- How many operations of a kind the threads have done. -/
def State.total (s : State M) : ℕ := (s.threads.map fun t => t.ops.countP p).sum

theorem sum_append_start (ts : List (Thread M)) (ls : List L) :
    ((ts ++ ls.map Thread.start).map fun t : Thread M => t.ops.countP p).sum =
      (ts.map fun t => t.ops.countP p).sum := by
  rw [List.map_append, List.sum_append, List.map_map]
  simp [Function.comp_def]

theorem total_step (s : State M) (a : Act A χ) :
    (step s a).total p = s.total p + (deeds s a).countP (Deed.sat p) := by
  cases a with
  | env e => exact sum_append_start p _ _
  | op j x =>
    cases ht : s.threads[j]? with
    | none => simp [step, deeds, ht]
    | some t =>
      cases hr : t.rest with
      | ret a => simp [step_ret x ht hr, deeds, ht, hr]
      | call o k =>
        cases o with
        | prim o =>
          rw [step_prim x ht hr, State.total, State.total]
          refine sum_map_set ht ?_
          rw [Thread.ops_advance_prim, List.countP_append]
          simp only [deeds, ht, hr, Option.map_some]
          rfl
        | fork l =>
          rw [step_fork x ht hr, State.total]
          refine (sum_append_start p _ [l]).trans ?_
          simp only [deeds, ht, hr, Option.map_some, List.countP_nil]
          exact sum_map_set ht (by rw [t.ops_advance_other hr (by simp), Nat.add_zero])
        | await l =>
          have hnone : deeds s (.op j x) = [] := by simp [deeds, ht, hr]
          rw [hnone, List.countP_nil, Nat.add_zero]
          rcases step_await x ht hr with h | ⟨a, h⟩
          · rw [h]
          · rw [h]
            refine sum_map_set (d := 0) ht ?_
            rw [t.ops_advance_other hr (by simp), Nat.add_zero]

/-- Each entry of the journal was made by one thread. -/
theorem total_run (s : State M) (as : List (Act A χ)) :
    (run step s as).total p = s.total p + (journal step deeds s as).countP (Deed.sat p) := by
  induction as generalizing s with
  | nil => rfl
  | cons a as ih =>
    rw [run_cons, ih, total_step, journal_cons, List.countP_append, Nat.add_assoc]

/-- A thread does none of the operations that its program avoids. -/
theorem Thread.countP_ops_eq_zero {t : Thread M}
    (h : (M.body t.label).Avoids fun c => ∃ o r, c = .prim o ∧ p ⟨o, r⟩ = true) :
    t.ops.countP p = 0 := by
  refine List.countP_eq_zero.mpr fun d hd hp => ?_
  obtain ⟨c, hc, hop⟩ := List.mem_filterMap.mp hd
  obtain ⟨e, he, rfl⟩ := List.mem_map.mp hc
  refine t.traced.not_mem h e he ?_
  obtain ⟨ctx, o, r⟩ := e
  cases o with
  | prim o =>
    obtain rfl : ⟨o, r⟩ = d := Option.some_inj.mp hop
    exact ⟨o, r, rfl, hp⟩
  | fork l => cases hop
  | await j => cases hop

/-! ## What good threads do -/

/-- Threads with good labels make no bad call, and start no others. -/
structure Disciplined (M : Machine σ A χ Op L α Res) (I : σ → Prop) (good : L → Prop)
    (bad : Call Op L → Prop) : Prop where
  body : ∀ l, good l → (M.body l).Avoids bad
  fork : ∀ l, ¬ bad (.fork l) → good l
  env : ∀ e c, I c → I (M.env e c).1 ∧ ∀ l ∈ (M.env e c).2, good l
  exec : ∀ o x c, ¬ bad (.prim o) → I c → I (M.exec o x c).2

variable {I : σ → Prop} {good : L → Prop} {bad : Call Op L → Prop}

/-- The invariant of a discipline. -/
structure Orderly (s : State M) (I : σ → Prop) (good : L → Prop) : Prop where
  shared : I s.shared
  labels : ∀ t ∈ s.threads, good t.label

theorem Orderly.not_bad {s : State M} (hs : Orderly s I good) (h : Disciplined M I good bad)
    {i : ℕ} {t : Thread M} {o : Call Op L} {k : Call.Res Res α o → Proc _ _ α}
    (ht : s.threads[i]? = some t) (hr : t.rest = .call o k) : ¬ bad o := by
  have havoids := t.traced.avoids (h.body _ (hs.labels t (List.mem_of_getElem? ht)))
  rw [hr] at havoids
  exact havoids.1

theorem Orderly.step {s : State M} (hs : Orderly s I good) (h : Disciplined M I good bad)
    (a : Act A χ) : Orderly (Machine.step s a) I good where
  shared := shared_step I hs.shared (fun e _ => (h.env e s.shared hs.shared).1)
    fun _ x _ o _ _ ht hr => h.exec o x s.shared (hs.not_bad h ht hr) hs.shared
  labels u hu := by
    obtain ⟨j, hj⟩ := List.mem_iff_getElem?.mp hu
    cases (step_spec s a).origin hj with
    | same hj => exact hs.labels u (List.mem_of_getElem? hj)
    | started l _ hl hu =>
      rw [hu]
      obtain ⟨e, -, hl⟩ | ⟨i, t, k, ht, hr⟩ := hl
      · exact (h.env e s.shared hs.shared).2 l hl
      · exact h.fork l (hs.not_bad h ht hr)
    | prim x _ ht hr hu =>
      have hlabel := hs.labels _ (List.mem_of_getElem? ht)
      rwa [hu]
    | other ht hr _ r hu =>
      have hlabel := hs.labels _ (List.mem_of_getElem? ht)
      rwa [hu]

theorem Orderly.run {s : State M} (hs : Orderly s I good) (h : Disciplined M I good bad)
    (as : List (Act A χ)) : Orderly (Lib.run Machine.step s as) I good := by
  induction as generalizing s with
  | nil => exact hs
  | cons a as ih => exact ih (hs.step h a)

/-- A disciplined machine makes no bad call. -/
theorem Orderly.journal {s : State M} (hs : Orderly s I good) (h : Disciplined M I good bad)
    (as : List (Act A χ)) {i : ℕ} {o : Op} {r : Res o}
    (hmem : .op i o r ∈ journal Machine.step deeds s as) : ¬ bad (.prim o) := by
  induction as generalizing s with
  | nil => cases hmem
  | cons a as ih =>
    rcases List.mem_append.mp hmem with hmem | hmem
    · cases a with
      | env e => simp [deeds] at hmem
      | op j x =>
        cases ht : s.threads[j]? with
        | none => simp [deeds, ht] at hmem
        | some t =>
          cases hr : t.rest with
          | ret a => simp [deeds, ht, hr] at hmem
          | call o' k =>
            cases o' with
            | prim o' =>
              simp only [deeds, ht, hr, Option.map_some, List.mem_singleton, Deed.op.injEq] at hmem
              obtain ⟨-, rfl, -⟩ := hmem
              exact hs.not_bad h ht hr
            | fork l => simp [deeds, ht, hr] at hmem
            | await l => simp [deeds, ht, hr] at hmem
    · exact ih (hs.step h a) hmem

end Machine
end NatsDemo.Lib
