import Mathlib.Data.List.DropRight
import Mathlib.Data.List.Induction
import Mathlib.Logic.Function.Iterate
import NatsDemo.Lib.Threads

/-!
# Journals

What the steps of a run give out, one after the other, is the journal of the run.  A part
of the state that a step changes by its entries alone is a fold over the journal, so what
is to be known of it are facts about lists: how many entries there are of a kind, which
came after the last one that starts anew, which are the latest.

The journal of a machine lists the moves of the environment and the operations of the
threads with their answers.
-/

namespace NatsDemo.Lib

section
variable {σ α β γ : Type} (step : σ → α → σ) (out : σ → α → List β)

/-- What the steps of the run from `s` give out. -/
def journal : σ → List α → List β
  | _, [] => []
  | s, a :: as => out s a ++ journal (step s a) as

variable {step out}

@[simp] theorem journal_nil (s : σ) : journal step out s [] = [] := rfl
@[simp] theorem journal_cons (s : σ) (a : α) (as : List α) :
    journal step out s (a :: as) = out s a ++ journal step out (step s a) as := rfl

/-- What a step keeps of a state and the journal so far, a run keeps. -/
theorem journal_inv {P : σ → List β → Prop}
    (hstep : ∀ s es a, P s es → P (step s a) (es ++ out s a)) {s : σ} {es : List β} (hs : P s es)
    (as : List α) : P (run step s as) (es ++ journal step out s as) := by
  induction as generalizing s es with
  | nil => rwa [journal_nil, List.append_nil]
  | cons a as ih =>
    rw [journal_cons, ← List.append_assoc]
    exact ih (hstep s es a hs)

/-- What two journals of the same steps have in common. -/
theorem filterMap_journal {out' : σ → α → List γ} {δ : Type} {f : β → Option δ} {g : γ → Option δ}
    (h : ∀ s a, (out s a).filterMap f = (out' s a).filterMap g) (s : σ) (as : List α) :
    (journal step out s as).filterMap f = (journal step out' s as).filterMap g := by
  induction as generalizing s with
  | nil => rfl
  | cons a as ih =>
    rw [journal_cons, journal_cons, List.filterMap_append, List.filterMap_append, h, ih]

/-- Where a step gives out one entry at most, each entry is given out by a step of the run, after
the ones before it. -/
theorem journal_split (hout : ∀ s a, (out s a).length ≤ 1) {s : σ} {as : List α} {pre post : List β}
    {e : β} (h : journal step out s as = pre ++ e :: post) :
    ∃ bs a cs, as = bs ++ a :: cs ∧ journal step out s bs = pre ∧ out (run step s bs) a = [e] := by
  induction as generalizing s pre with
  | nil => simp at h
  | cons a as ih =>
    have hone := hout s a
    rw [journal_cons] at h
    cases hhead : out s a with
    | nil =>
      rw [hhead, List.nil_append] at h
      obtain ⟨bs, a', cs, rfl, hpre, he⟩ := ih h
      exact ⟨a :: bs, a', cs, rfl, by rw [journal_cons, hhead, hpre, List.nil_append], he⟩
    | cons e₀ es =>
      obtain rfl : es = [] := by
        rw [hhead, List.length_cons] at hone
        exact List.eq_nil_of_length_eq_zero (Nat.le_zero.mp (Nat.le_of_succ_le_succ hone))
      rw [hhead, List.singleton_append] at h
      cases pre with
      | nil =>
        obtain ⟨rfl, -⟩ := List.cons_eq_cons.mp h
        exact ⟨[], a, as, rfl, rfl, hhead⟩
      | cons p pre =>
        obtain ⟨rfl, htail⟩ := List.cons_eq_cons.mp h
        obtain ⟨bs, a', cs, rfl, hpre, he⟩ := ih htail
        exact ⟨a :: bs, a', cs, rfl, by rw [journal_cons, hhead, hpre, List.singleton_append], he⟩

/-- **Views are folds.**  What every step changes by its entries is what the journal makes
of its first value. -/
theorem view_run (view : σ → γ) {f : γ → β → γ}
    (hview : ∀ s a, view (step s a) = (out s a).foldl f (view s)) (s : σ) (as : List α) :
    view (run step s as) = (journal step out s as).foldl f (view s) := by
  induction as generalizing s with
  | nil => rfl
  | cons a as ih => rw [run_cons, ih, hview, journal_cons, List.foldl_append]

end

/-! ## Draws

A draw answers by the state of a dispenser and moves it on; nothing else moves it. -/

section
variable {σ α β γ δ : Type} {step : σ → α → σ} {out : σ → α → List β}

/-- The steps of a system, as far as a dispenser goes. -/
structure Dispenser (step : σ → α → σ) (out : σ → α → List β) (pick : β → Option δ)
    (view : σ → γ) (next : γ → γ) (given : γ → δ → Prop) : Prop where
  draw : ∀ s a, (out s a).filterMap pick = [] ∧ view (step s a) = view s ∨
    ∃ d, (out s a).filterMap pick = [d] ∧ given (view s) d ∧ view (step s a) = next (view s)

variable {pick : β → Option δ} {view : σ → γ} {next : γ → γ} {given : γ → δ → Prop}

/-- **Draws come in turn.**  The draws of a run are given by the states of the dispenser, one
after the other. -/
theorem Dispenser.run (h : Dispenser step out pick view next given) (s : σ) (as : List α) :
    view (run step s as) = next^[((journal step out s as).filterMap pick).length] (view s) ∧
      ∀ (k : ℕ) d, ((journal step out s as).filterMap pick)[k]? = some d →
        given (next^[k] (view s)) d := by
  induction as generalizing s with
  | nil => exact ⟨rfl, fun k d hd => by simp at hd⟩
  | cons a as ih =>
    obtain ⟨hview, hgiven⟩ := ih (step s a)
    rw [run_cons, journal_cons, List.filterMap_append]
    obtain ⟨hout, hsame⟩ | ⟨d₀, hout, hd₀, hnext⟩ := h.draw s a
    · rw [hsame] at hview hgiven
      rw [hout, List.nil_append]
      exact ⟨hview, hgiven⟩
    · rw [hnext] at hview hgiven
      rw [hout, List.singleton_append]
      refine ⟨by rw [hview, List.length_cons, Function.iterate_succ_apply], fun k d hd => ?_⟩
      cases k with
      | zero =>
        obtain rfl : d₀ = d := by simpa using hd
        exact hd₀
      | succ k =>
        rw [Function.iterate_succ_apply]
        exact hgiven k d (by simpa using hd)

end

/-! ## Since the last fresh start -/

section
variable {β γ : Type} (resets : β → Bool)

/-- The entries after the last one that starts anew. -/
def since (es : List β) : List β := es.rtakeWhile fun e => !resets e

variable {resets}

theorem since_concat (es : List β) (e : β) :
    since resets (es ++ [e]) = if resets e then [] else since resets es ++ [e] := by
  cases he : resets e <;> simp [since, he]

theorem length_since_le (es : List β) : (since resets es).length ≤ es.length :=
  (List.rtakeWhile_suffix _ _).length_le

/-- A counter that is set back by some entries shows how many of the others came since. -/
theorem foldl_count (p : β → Bool) (es : List β) :
    es.foldl (fun n e => if resets e then 0 else if p e then n + 1 else n) 0 =
      (since resets es).countP p := by
  induction es using List.reverseRecOn with
  | nil => rfl
  | append_singleton es e ih =>
    rw [List.foldl_concat, since_concat, ih]
    split_ifs with hreset hp
    · rfl
    · simp [hp]
    · simp [hp]

/-- A list that takes new entries in front, keeps `cap` of them, and is emptied by the entries
that give none, holds the latest ones. -/
theorem foldl_window (cap : ℕ) (pick : β → Option γ) (es : List β) :
    es.foldl (fun w e => (pick e).elim [] fun x => (x :: w).take cap) [] =
      ((since (fun e => (pick e).isNone) es).filterMap pick).reverse.take cap := by
  induction es using List.reverseRecOn with
  | nil => simp [since]
  | append_singleton es e ih =>
    rw [List.foldl_concat, since_concat, ih]
    cases hx : pick e with
    | none => simp
    | some x =>
      rw [Option.isNone_some, if_neg Bool.false_ne_true, List.filterMap_append,
        List.filterMap_cons_some hx, List.filterMap_nil, List.reverse_append,
        List.reverse_singleton, List.singleton_append, Option.elim_some]
      cases cap with
      | zero => rfl
      | succ n =>
        rw [List.take_succ_cons, List.take_succ_cons, List.take_take]
        congr 2
        omega

end

/-! ## The journal of a machine -/

/-- An entry: a move of the environment, or an operation of the thread `i`. -/
inductive Deed (A Op : Type) (Res : Op → Type) where
  | env (e : A)
  | op (i : ℕ) (o : Op) (r : Res o)

namespace Machine
variable {σ A χ Op L α γ : Type} {Res : Op → Type} {M : Machine σ A χ Op L α Res}

/-- What a step does to the shared state. -/
def deeds (s : State M) : Act A χ → List (Deed A Op Res)
  | .env e => [.env e]
  | .op i x =>
    match (s.threads[i]?).map Thread.rest with
    | some (.call (.prim o) _) => [.op i o (M.exec o x s.shared).1]
    | _ => []

/-- What a step does, and what it makes of the shared state. -/
theorem deeds_cases (s : State M) (a : Act A χ) :
    deeds s a = [] ∧ (step s a).shared = s.shared ∨
    (∃ e, deeds s a = [.env e] ∧ (step s a).shared = (M.env e s.shared).1) ∨
    ∃ i o x, a = .op i x ∧ deeds s a = [.op i o (M.exec o x s.shared).1] ∧
      (step s a).shared = (M.exec o x s.shared).2 := by
  cases a with
  | env e => exact .inr (.inl ⟨e, rfl, rfl⟩)
  | op i x =>
    cases ht : s.threads[i]? with
    | none => exact .inl ⟨by simp [deeds, ht], by simp [step, ht]⟩
    | some t =>
      cases hr : t.rest with
      | ret a => exact .inl ⟨by simp [deeds, ht, hr], by rw [step_ret x ht hr]⟩
      | call o k =>
        cases o with
        | prim o =>
          exact .inr (.inr ⟨i, o, x, rfl, by simp [deeds, ht, hr], by rw [step_prim x ht hr]⟩)
        | fork l => exact .inl ⟨by simp [deeds, ht, hr], by rw [step_fork x ht hr]⟩
        | await j =>
          refine .inl ⟨by simp [deeds, ht, hr], ?_⟩
          rcases step_await x ht hr with h | ⟨a, h⟩ <;> rw [h]

/-- An operation is one of a thread that is there. -/
theorem exists_thread_of_mem_deeds {s : State M} {a : Act A χ} {i : ℕ} {o : Op} {r : Res o}
    (h : .op i o r ∈ deeds s a) : ∃ t, s.threads[i]? = some t := by
  cases a with
  | env e => simp [deeds] at h
  | op j x =>
    cases ht : s.threads[j]? with
    | none => simp [deeds, ht] at h
    | some t =>
      cases hr : t.rest with
      | ret a => simp [deeds, ht, hr] at h
      | call c k =>
        cases c with
        | prim o' =>
          simp only [deeds, ht, hr, Option.map_some, List.mem_singleton, Deed.op.injEq] at h
          exact ⟨t, h.1 ▸ ht⟩
        | fork l => simp [deeds, ht, hr] at h
        | await j => simp [deeds, ht, hr] at h

/-- A step leaves one entry at most. -/
theorem length_deeds_le (s : State M) (a : Act A χ) : (deeds s a).length ≤ 1 := by
  obtain ⟨hd, -⟩ | ⟨e, hd, -⟩ | ⟨i, o, x, -, hd, -⟩ := deeds_cases s a <;> simp [hd]

theorem length_journal_le (s : State M) (as : List (Act A χ)) :
    (journal step deeds s as).length ≤ as.length := by
  induction as generalizing s with
  | nil => exact Nat.le_refl 0
  | cons a as ih =>
    have hrest := ih (step s a)
    have hone := length_deeds_le s a
    rw [journal_cons, List.length_append, List.length_cons]
    omega

variable {f : γ → Deed A Op Res → γ} (view : σ → γ)

theorem view_step (henv : ∀ e c, view (M.env e c).1 = f (view c) (.env e))
    (hexec : ∀ i o x c, view (M.exec o x c).2 = f (view c) (.op i o (M.exec o x c).1))
    (s : State M) (a : Act A χ) : view (step s a).shared = (deeds s a).foldl f (view s.shared) := by
  obtain ⟨hd, hs⟩ | ⟨e, hd, hs⟩ | ⟨i, o, x, -, hd, hs⟩ := deeds_cases s a
  · rw [hd, hs, List.foldl_nil]
  · rw [hd, hs]
    exact henv e s.shared
  · rw [hd, hs]
    exact hexec i o x s.shared

/-- What the operations and the moves change by themselves is a fold over the journal. -/
theorem view_run (henv : ∀ e c, view (M.env e c).1 = f (view c) (.env e))
    (hexec : ∀ i o x c, view (M.exec o x c).2 = f (view c) (.op i o (M.exec o x c).1))
    (s : State M) (as : List (Act A χ)) :
    view (run step s as).shared = (journal step deeds s as).foldl f (view s.shared) :=
  Lib.view_run (fun s : State M => view s.shared) (view_step view henv hexec) s as

/-- A dispenser that the operations alone draw from. -/
theorem dispenser_of_exec {δ : Type} {pick : Deed A Op Res → Option δ} {next : γ → γ}
    {given : γ → δ → Prop} (hnone : ∀ e, pick (.env e) = none)
    (henv : ∀ e c, view (M.env e c).1 = view c)
    (hexec : ∀ i o x c,
      pick (.op i o (M.exec o x c).1) = none ∧ view (M.exec o x c).2 = view c ∨
      ∃ d, pick (.op i o (M.exec o x c).1) = some d ∧ given (view c) d ∧
        view (M.exec o x c).2 = next (view c)) :
    Dispenser step (deeds (M := M)) pick (fun s => view s.shared) next given where
  draw s a := by
    obtain ⟨hd, hs⟩ | ⟨e, hd, hs⟩ | ⟨i, o, x, -, hd, hs⟩ := deeds_cases s a
    · exact .inl ⟨by rw [hd, List.filterMap_nil], by rw [hs]⟩
    · exact .inl ⟨by rw [hd, List.filterMap_cons_none (hnone e), List.filterMap_nil],
        by rw [hs, henv]⟩
    · rw [hd, hs]
      obtain ⟨hpick, hview⟩ | ⟨d, hpick, hgiven, hview⟩ := hexec i o x s.shared
      · exact .inl ⟨by rw [List.filterMap_cons_none hpick, List.filterMap_nil], hview⟩
      · exact .inr ⟨d, by rw [List.filterMap_cons_some hpick, List.filterMap_nil], hgiven, hview⟩

end Machine

end NatsDemo.Lib
