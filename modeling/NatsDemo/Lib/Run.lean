import Mathlib.Data.List.Basic
import Mathlib.Order.Defs.PartialOrder

/-!
# Runs of a labelled transition function

A system is given by its step function alone.  A label resolves every choice of a
step, who moves as well as what the environment answers, so a run is a list of
labels and the state it reaches is a fold.  A label that is not enabled leaves the
state as it is.

Two ways of talking about all the steps of a run are used below.  `Meets` says that
a condition on the state before a step, and on its label, holds at every step;
`Throughout` says that a predicate holds in every state the run passes through.
`throughout_iff_meets` is the rule for exact conditions: where a step from a good
state keeps the property if and only if the condition holds of that step, a whole run
keeps the property if and only if all of its steps meet the condition.
-/

namespace NatsDemo.Lib

variable {σ α : Type} (step : σ → α → σ)

/-- The state reached from `s` by the labels `as`. -/
def run (s : σ) (as : List α) : σ := as.foldl step s

/-- Every step of the run from `s` meets `cond`, read on the state before the step. -/
def Meets (cond : σ → α → Prop) : σ → List α → Prop
  | _, [] => True
  | s, a :: as => cond s a ∧ Meets cond (step s a) as

/-- `P` holds in every state of the run from `s`, its first and its last included. -/
def Throughout (P : σ → Prop) : σ → List α → Prop
  | s, [] => P s
  | s, a :: as => P s ∧ Throughout P (step s a) as

variable {step} {cond : σ → α → Prop} {P : σ → Prop}

@[simp] theorem run_nil (s : σ) : run step s [] = s := rfl
@[simp] theorem run_cons (s : σ) (a : α) (as : List α) :
    run step s (a :: as) = run step (step s a) as := rfl

theorem run_append (s : σ) (as bs : List α) :
    run step s (as ++ bs) = run step (run step s as) bs := by
  simp [run, List.foldl_append]

@[simp] theorem meets_nil (s : σ) : Meets step cond s [] := trivial
@[simp] theorem meets_cons (s : σ) (a : α) (as : List α) :
    Meets step cond s (a :: as) ↔ cond s a ∧ Meets step cond (step s a) as := Iff.rfl

theorem meets_append (s : σ) (as bs : List α) :
    Meets step cond s (as ++ bs) ↔
      Meets step cond s as ∧ Meets step cond (run step s as) bs := by
  induction as generalizing s with
  | nil => simp
  | cons a as ih => simp [ih, and_assoc]

theorem meets_and {cond' : σ → α → Prop} {s : σ} {as : List α} :
    Meets step (fun s a => cond s a ∧ cond' s a) s as ↔
      Meets step cond s as ∧ Meets step cond' s as := by
  induction as generalizing s with
  | nil => simp
  | cons a as ih => simp [ih, and_and_and_comm]

theorem meets_of_mem {as : List α} (h : ∀ a ∈ as, ∀ s, cond s a) (s : σ) :
    Meets step cond s as := by
  induction as generalizing s with
  | nil => trivial
  | cons a as ih =>
    exact ⟨h a List.mem_cons_self s, ih (fun b hb => h b (List.mem_cons_of_mem a hb)) (step s a)⟩

/-- The steps of a run are those from the states its prefixes reach. -/
theorem meets_iff_forall {s : σ} {as : List α} :
    Meets step cond s as ↔ ∀ bs a cs, as = bs ++ a :: cs → cond (run step s bs) a := by
  constructor
  · rintro h bs a cs rfl
    exact ((meets_append s bs (a :: cs)).mp h).2.1
  · intro h
    induction as generalizing s with
    | nil => trivial
    | cons a as ih =>
      refine ⟨h [] a as rfl, ih ?_⟩
      rintro bs b cs rfl
      exact h (a :: bs) b cs rfl

/-- What is true of every step is true of the step of each label. -/
theorem Meets.of_mem {s : σ} {as : List α} (h : Meets step cond s as) {a : α} (ha : a ∈ as) :
    ∃ s', cond s' a := by
  induction as generalizing s with
  | nil => cases ha
  | cons b as ih =>
    cases List.mem_cons.mp ha with
    | inl hab => exact ⟨s, hab ▸ h.1⟩
    | inr hmem => exact ih h.2 hmem

instance decidableMeets [∀ s a, Decidable (cond s a)] :
    ∀ (s : σ) (as : List α), Decidable (Meets step cond s as)
  | _, [] => inferInstanceAs (Decidable True)
  | s, a :: as =>
    have := decidableMeets (step s a) as
    inferInstanceAs (Decidable (cond s a ∧ Meets step cond (step s a) as))

/-- The states of a run are those its prefixes reach. -/
theorem throughout_iff_forall (s : σ) (as : List α) :
    Throughout step P s as ↔ ∀ bs, bs <+: as → P (run step s bs) := by
  induction as generalizing s with
  | nil => simp [Throughout]
  | cons a as ih =>
    simp only [Throughout, ih]
    constructor
    · rintro ⟨hs, h⟩ bs hbs
      cases bs with
      | nil => exact hs
      | cons b bs =>
        obtain ⟨rfl, htail⟩ := List.cons_prefix_cons.mp hbs
        exact h bs htail
    · intro h
      refine ⟨h [] List.nil_prefix, ?_⟩
      intro bs hbs
      exact h (a :: bs) (List.cons_prefix_cons.mpr ⟨rfl, hbs⟩)

theorem Throughout.last {s : σ} {as : List α} (h : Throughout step P s as) :
    P (run step s as) :=
  (throughout_iff_forall s as).mp h as (List.prefix_refl as)

/-! ## Invariants -/

/-- An invariant of the steps that meet the condition holds where such a run ends. -/
theorem run_inv (Inv : σ → Prop) (hstep : ∀ s a, Inv s → cond s a → Inv (step s a))
    {s : σ} {as : List α} (hs : Inv s) (has : Meets step cond s as) : Inv (run step s as) := by
  induction as generalizing s with
  | nil => exact hs
  | cons a as ih => exact ih (hstep s a hs has.1) has.2

/-- An invariant of every step holds in every state reached. -/
theorem run_inv_all (Inv : σ → Prop) (hstep : ∀ s a, Inv s → Inv (step s a)) {s : σ} (as : List α)
    (hs : Inv s) : Inv (run step s as) := by
  induction as generalizing s with
  | nil => exact hs
  | cons a as ih => exact ih (hstep s a hs)

/-- What an invariant implies holds all along a run whose steps meet the condition. -/
theorem throughout_of_inv (Inv : σ → Prop) (hP : ∀ s, Inv s → P s)
    (hstep : ∀ s a, Inv s → cond s a → Inv (step s a)) {s : σ} {as : List α} (hs : Inv s)
    (has : Meets step cond s as) : Throughout step P s as := by
  induction as generalizing s with
  | nil => exact hP s hs
  | cons a as ih => exact ⟨hP s hs, ih (hstep s a hs has.1) has.2⟩

/-- A condition on steps that follows from an invariant holds all along the run. -/
theorem meets_of_inv (Inv : σ → Prop) {cond' : σ → α → Prop}
    (hstep : ∀ s a, Inv s → cond s a → Inv (step s a))
    (hcond : ∀ s a, Inv s → cond s a → cond' s a) {s : σ} {as : List α}
    (hs : Inv s) (has : Meets step cond s as) : Meets step cond' s as := by
  induction as generalizing s with
  | nil => trivial
  | cons a as ih => exact ⟨hcond s a hs has.1, ih (hstep s a hs has.1) has.2⟩

/-- **Exact conditions.**  From a good state the property survives a step if and only
if the step meets the condition, and the invariant survives whenever the property
does: then the runs that keep the property are those whose steps meet the condition. -/
theorem throughout_iff_meets (Inv : σ → Prop)
    (hexact : ∀ s a, Inv s → P s → (P (step s a) ↔ cond s a))
    (hinv : ∀ s a, Inv s → P s → P (step s a) → Inv (step s a)) {s : σ}
    (as : List α) (hs : Inv s) (hP : P s) :
    Throughout step P s as ↔ Meets step cond s as := by
  induction as generalizing s with
  | nil => simp [Throughout, hP]
  | cons a as ih =>
    simp only [Throughout, meets_cons]
    constructor
    · rintro ⟨-, h⟩
      have hP' : P (step s a) := by
        cases as with
        | nil => exact h
        | cons b bs => exact h.1
      have hs' := hinv s a hs hP hP'
      exact ⟨(hexact s a hs hP).mp hP', (ih hs' hP').mp h⟩
    · rintro ⟨hc, h⟩
      have hP' := (hexact s a hs hP).mpr hc
      have hs' := hinv s a hs hP hP'
      exact ⟨hP, (ih hs' hP').mpr h⟩

end NatsDemo.Lib
