import NatsDemo.Lib.Threads

/-!
# Rely and guarantee

What a thread knows of the shared state and the others cannot undo.  A regime says what is so
of every state, how states can grow, what an operation may only be done under, and what a
thread is started with; each program is then checked by itself, and `Regime.sound` puts the
checks together for all interleavings.
-/

namespace NatsDemo.Lib

variable {σ A χ Op L α β : Type} {Res : Op → Type}

/-- What the threads of a machine rely on and guarantee. -/
structure Regime (σ L Op : Type) where
  inv : σ → Prop
  le : σ → σ → Prop
  pre : Op → σ → Prop
  starts : L → σ → Prop

namespace Proc

/-- From what is known, the program does each operation only where it may, and ends as `Q` says.
What was found and made by an operation stays known, as far as states only grow. -/
def Secures (R : Regime σ L Op) (exec : (o : Op) → χ → σ → Res o × σ) :
    Proc (Call Op L) (Call.Res Res α) β → (σ → Prop) → (β → σ → Prop) → Prop
  | .ret b, K, Q => ∀ s, R.inv s → K s → Q b s
  | .call (.prim o) k, K, Q => ∀ x s, R.inv s → K s → R.pre o s ∧
      (k (exec o x s).1).Secures R exec (fun s' => K s' ∧ R.le (exec o x s).2 s') Q
  | .call (.fork l) k, K, Q => (∀ s, R.inv s → K s → R.starts l s) ∧
      ∀ i, (k i).Secures R exec K Q
  | .call (.await _) k, K, Q => ∀ a, (k a).Secures R exec K Q

variable {R : Regime σ L Op} {exec : (o : Op) → χ → σ → Res o × σ} {K K' : σ → Prop}

@[simp] theorem secures_ret (b : β) (Q : β → σ → Prop) :
    (ret b : Proc (Call Op L) (Call.Res Res α) β).Secures R exec K Q ↔
      ∀ s, R.inv s → K s → Q b s := Iff.rfl
@[simp] theorem secures_prim (o : Op) (k : Res o → Proc (Call Op L) (Call.Res Res α) β)
    (Q : β → σ → Prop) : (call (.prim o) k).Secures R exec K Q ↔
      ∀ x s, R.inv s → K s → R.pre o s ∧
        (k (exec o x s).1).Secures R exec (fun s' => K s' ∧ R.le (exec o x s).2 s') Q := Iff.rfl

/-- Who knows more secures as much. -/
theorem Secures.mono {p : Proc (Call Op L) (Call.Res Res α) β} {Q Q' : β → σ → Prop}
    (h : p.Secures R exec K Q) (hK : ∀ s, R.inv s → K' s → K s) (hQ : ∀ b s, Q b s → Q' b s) :
    p.Secures R exec K' Q' := by
  induction p generalizing K K' with
  | ret b => exact fun s hs hk => hQ b s (h s hs (hK s hs hk))
  | call o k ih =>
    cases o with
    | prim o =>
      intro x s hs hk
      obtain ⟨hpre, hrest⟩ := h x s hs (hK s hs hk)
      exact ⟨hpre, ih _ hrest fun s' hs' hk' => ⟨hK s' hs' hk'.1, hk'.2⟩⟩
    | fork l => exact ⟨fun s hs hk => h.1 s hs (hK s hs hk), fun i => ih i (h.2 i) hK⟩
    | await j => exact fun a => ih a (h a) hK

/-- A sequence is secure when its second part is, from what the first one ends with. -/
theorem Secures.bind {γ : Type} {p : Proc (Call Op L) (Call.Res Res α) β}
    {f : β → Proc (Call Op L) (Call.Res Res α) γ} {Q : β → σ → Prop} {Q' : γ → σ → Prop}
    (h : p.Secures R exec K Q) (hf : ∀ b, (f b).Secures R exec (Q b) Q') :
    (p >>= f).Secures R exec K Q' := by
  induction p generalizing K with
  | ret b => exact (hf b).mono h fun _ _ hq => hq
  | call o k ih =>
    cases o with
    | prim o =>
      intro x s hs hk
      obtain ⟨hpre, hrest⟩ := h x s hs hk
      exact ⟨hpre, ih _ hrest⟩
    | fork l => exact ⟨h.1, fun i => ih i (h.2 i)⟩
    | await j => exact fun a => ih a (h a)

end Proc

/-! ## Soundness -/

/-- The checks of a regime: states grow under every move and every operation that is allowed,
what a thread is started with lasts, and every program is secure. -/
structure Regime.Checked (R : Regime σ L Op) (M : Machine σ A χ Op L α Res)
    (post : L → α → σ → Prop) : Prop where
  refl : ∀ s, R.le s s
  trans : ∀ s s' s'', R.le s s' → R.le s' s'' → R.le s s''
  env : ∀ e s, R.inv s → R.inv (M.env e s).1 ∧ R.le s (M.env e s).1 ∧
    ∀ l ∈ (M.env e s).2, R.starts l (M.env e s).1
  exec : ∀ o x s, R.inv s → R.pre o s → R.inv (M.exec o x s).2 ∧ R.le s (M.exec o x s).2
  lasts : ∀ l s s', R.starts l s → R.le s s' → R.starts l s'
  body : ∀ l, (M.body l).Secures R M.exec (R.starts l) (post l)

namespace Machine
variable {M : Machine σ A χ Op L α Res} {R : Regime σ L Op} {post : L → α → σ → Prop}

/-- A thread knows something that lasts, and what is left of it is secure from there. -/
def Thread.Secure (R : Regime σ L Op) (post : L → α → σ → Prop) (s : σ) (t : Thread M) : Prop :=
  ∃ K : σ → Prop, (∀ s s', K s → R.le s s' → K s') ∧ K s ∧
    t.rest.Secures R M.exec K (post t.label)

theorem Thread.Secure.grow {s s' : σ} {t : Thread M} (h : t.Secure R post s) (hle : R.le s s') :
    t.Secure R post s' := by
  obtain ⟨K, hlasts, hk, hrest⟩ := h
  exact ⟨K, hlasts, hlasts s s' hk hle, hrest⟩

/-- The invariant of the states, and that of each thread. -/
def Secure (R : Regime σ L Op) (post : L → α → σ → Prop) (s : State M) : Prop :=
  R.inv s.shared ∧ ∀ t ∈ s.threads, t.Secure R post s.shared

variable (hR : R.Checked M post)
include hR

theorem secure_start {l : L} {s : σ} (h : R.starts l s) :
    (Thread.start l : Thread M).Secure R post s :=
  ⟨R.starts l, hR.lasts l, h, hR.body l⟩

theorem secure_step {s : State M} (hs : Secure R post s) (a : Act A χ) :
    Secure R post (step s a) := by
  obtain ⟨hinv, hthreads⟩ := hs
  have h := step_spec s a
  generalize step s a = s' at h
  cases h with
  | idle => exact ⟨hinv, hthreads⟩
  | env e =>
    obtain ⟨hinv', hle, hnew⟩ := hR.env e s.shared hinv
    refine ⟨hinv', fun t ht => ?_⟩
    rcases List.mem_append.mp ht with ht | ht
    · exact (hthreads t ht).grow hle
    · obtain ⟨l, hl, rfl⟩ := List.mem_map.mp ht
      exact secure_start hR (hnew l hl)
  | @prim i t o k x ht hr =>
    obtain ⟨K, hlasts, hk, hrest⟩ := hthreads t (List.mem_of_getElem? ht)
    rw [hr] at hrest
    obtain ⟨hpre, hnext⟩ := hrest x s.shared hinv hk
    obtain ⟨hinv', hle⟩ := hR.exec o x s.shared hinv hpre
    refine ⟨hinv', fun u hu => ?_⟩
    rcases List.mem_or_eq_of_mem_set hu with hu | rfl
    · exact (hthreads u hu).grow hle
    · refine ⟨_, fun s₁ s₂ h h' => ?_, ⟨hlasts _ _ hk hle, hR.refl _⟩, hnext⟩
      exact ⟨hlasts s₁ s₂ h.1 h', hR.trans _ s₁ s₂ h.2 h'⟩
  | @fork i t l k x ht hr =>
    obtain ⟨K, hlasts, hk, hrest⟩ := hthreads t (List.mem_of_getElem? ht)
    rw [hr] at hrest
    refine ⟨hinv, fun u hu => ?_⟩
    rcases List.mem_append.mp hu with hu | hu
    · rcases List.mem_or_eq_of_mem_set hu with hu | rfl
      · exact hthreads u hu
      · exact ⟨K, hlasts, hk, hrest.2 _⟩
    · obtain rfl := List.mem_singleton.mp hu
      exact secure_start hR (hrest.1 s.shared hinv hk)
  | @await i j t u a k x ht hr hu ha =>
    obtain ⟨K, hlasts, hk, hrest⟩ := hthreads t (List.mem_of_getElem? ht)
    rw [hr] at hrest
    refine ⟨hinv, fun v hv => ?_⟩
    rcases List.mem_or_eq_of_mem_set hv with hv | rfl
    · exact hthreads v hv
    · exact ⟨K, hlasts, hk, hrest a⟩

theorem secure_run {s : State M} (hs : Secure R post s) (as : List (Act A χ)) :
    Secure R post (run step s as) :=
  run_inv_all (Secure R post) (fun _ a hs => secure_step hR hs a) as hs

/-- **Soundness.**  In every state of every run, the invariant holds, and what a program promises
of its result holds of each thread that has come to one. -/
theorem post_of_checked {s : State M} (hinv : R.inv s.shared) (hs : s.threads = [])
    (as : List (Act A χ)) : R.inv (run step s as).shared ∧
      ∀ t ∈ (run step s as).threads, ∀ a, t.rest = .ret a →
        post t.label a (run step s as).shared := by
  have hstart : Secure R post s := ⟨hinv, fun t ht => by rw [hs] at ht; cases ht⟩
  obtain ⟨hinv', hthreads⟩ := secure_run hR hstart as
  refine ⟨hinv', fun t ht a ha => ?_⟩
  obtain ⟨K, -, hk, hrest⟩ := hthreads t ht
  rw [ha] at hrest
  exact hrest _ hinv' hk

end Machine

end NatsDemo.Lib
