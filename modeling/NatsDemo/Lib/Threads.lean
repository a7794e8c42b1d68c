import NatsDemo.Lib.Proc

/-!
# Threads on a shared state

A machine runs any number of programs at once.  A step is either a move of the
environment, which may start threads, or the next call of one thread: an operation on
the shared state, the start of another thread, or a wait for the result of one.  Each
thread carries its history together with the proof that its program got where it is by
that history, so what `Trace.wp` knows of the program is known of every thread.

`Machine.Step` lists what a step can do; `Machine.step_spec` says there is nothing else.
-/

namespace NatsDemo.Lib

/-- What a thread can ask for. -/
inductive Call (Op L : Type) where
  | prim (o : Op)
  | fork (l : L)
  | await (i : ℕ)

/-- The answers: a fork gives the number of the new thread, a wait the result awaited. -/
abbrev Call.Res {Op L : Type} (Res : Op → Type) (α : Type) : Call Op L → Type
  | .prim o => Res o
  | .fork _ => ℕ
  | .await _ => α

/-- A machine with shared states `σ`: the program behind each label of `L`, the effect
of an operation under a choice of the surroundings, and the environment's own moves. -/
structure Machine (σ A χ Op L α : Type) (Res : Op → Type) where
  body : L → Proc (Call Op L) (Call.Res Res α) α
  exec : (o : Op) → χ → σ → Res o × σ
  env : A → σ → σ × List L

namespace Machine
variable {σ A χ Op L α : Type} {Res : Op → Type}

/-- A thread: what it was started as, what it did, and what is left of its program. -/
structure Thread (M : Machine σ A χ Op L α Res) where
  label : L
  hist : List (Event σ (Call Op L) (Call.Res Res α))
  rest : Proc (Call Op L) (Call.Res Res α) α
  traced : Trace (M.body label) hist rest

structure State (M : Machine σ A χ Op L α Res) where
  shared : σ
  threads : List (Thread M)

/-- A step is a move of the environment, or the next call of the thread numbered `i`. -/
inductive Act (A χ : Type) where
  | env (e : A)
  | op (i : ℕ) (x : χ)

variable {M : Machine σ A χ Op L α Res}

def Thread.start (l : L) : Thread M := ⟨l, [], M.body l, .nil _⟩

/-- The thread after its next call was made in `c` and answered by `r`. -/
def Thread.advance (t : Thread M) {o : Call Op L} {k : Call.Res Res α o → Proc _ _ α}
    (h : t.rest = .call o k) (c : σ) (r : Call.Res Res α o) : Thread M :=
  ⟨t.label, t.hist ++ [⟨c, o, r⟩], k r, .snoc c r (h ▸ t.traced)⟩

/-- The thread numbered `i` makes its next call, if it has one and is not made to wait. -/
def stepThread (s : State M) (i : ℕ) (x : χ) (t : Thread M) : State M :=
  match h : t.rest with
  | .ret _ => s
  | .call (.prim o) _ =>
    ⟨(M.exec o x s.shared).2,
      s.threads.set i (t.advance h s.shared (M.exec o x s.shared).1)⟩
  | .call (.fork l) _ =>
    ⟨s.shared, s.threads.set i (t.advance h s.shared s.threads.length) ++ [.start l]⟩
  | .call (.await j) _ =>
    match (s.threads[j]?).map Thread.rest with
    | some (.ret a) => ⟨s.shared, s.threads.set i (t.advance h s.shared a)⟩
    | _ => s

def step (s : State M) : Act A χ → State M
  | .env e => ⟨(M.env e s.shared).1, s.threads ++ (M.env e s.shared).2.map .start⟩
  | .op i x => (s.threads[i]?).elim s (stepThread s i x)

/-! ## The step of a thread, by its next call -/

section
variable {s : State M} {i : ℕ} {t : Thread M} (x : χ)

theorem step_prim {o : Op} {k : Res o → Proc _ _ α} (ht : s.threads[i]? = some t)
    (hr : t.rest = .call (.prim o) k) :
    step s (.op i x) = ⟨(M.exec o x s.shared).2,
      s.threads.set i (t.advance hr s.shared (M.exec o x s.shared).1)⟩ := by
  rw [step, ht]
  obtain ⟨label, hist, rest, traced⟩ := t
  cases hr
  rfl

theorem step_fork {l : L} {k : ℕ → Proc _ _ α} (ht : s.threads[i]? = some t)
    (hr : t.rest = .call (.fork l) k) :
    step s (.op i x) =
      ⟨s.shared, s.threads.set i (t.advance hr s.shared s.threads.length) ++ [.start l]⟩ := by
  rw [step, ht]
  obtain ⟨label, hist, rest, traced⟩ := t
  cases hr
  rfl

theorem step_await {j : ℕ} {k : α → Proc _ _ α} (ht : s.threads[i]? = some t)
    (hr : t.rest = .call (.await j) k) :
    step s (.op i x) = s ∨
      ∃ a : α, step s (.op i x) = ⟨s.shared, s.threads.set i (t.advance hr s.shared a)⟩ := by
  rw [step, ht]
  obtain ⟨label, hist, rest, traced⟩ := t
  cases hr
  simp only [Option.elim_some, stepThread]
  split
  next a _ => exact Or.inr ⟨a, rfl⟩
  next => exact Or.inl rfl

theorem step_ret {a : α} (ht : s.threads[i]? = some t) (hr : t.rest = .ret a) :
    step s (.op i x) = s := by
  rw [step, ht]
  obtain ⟨label, hist, rest, traced⟩ := t
  cases hr
  rfl

end

/-! ## What a step can do -/

/-- The cases of a step: nothing happened, the environment moved, or one thread made
its next call. -/
inductive Step (s : State M) : Act A χ → State M → Prop
  | idle (a : Act A χ) : Step s a s
  | env (e : A) :
      Step s (.env e) ⟨(M.env e s.shared).1, s.threads ++ (M.env e s.shared).2.map .start⟩
  | prim {i : ℕ} {t : Thread M} {o : Op} {k : Res o → Proc _ _ α} (x : χ)
      (ht : s.threads[i]? = some t) (hr : t.rest = .call (.prim o) k) :
      Step s (.op i x) ⟨(M.exec o x s.shared).2,
        s.threads.set i (t.advance hr s.shared (M.exec o x s.shared).1)⟩
  | fork {i : ℕ} {t : Thread M} {l : L} {k : ℕ → Proc _ _ α} (x : χ)
      (ht : s.threads[i]? = some t) (hr : t.rest = .call (.fork l) k) :
      Step s (.op i x)
        ⟨s.shared, s.threads.set i (t.advance hr s.shared s.threads.length) ++ [.start l]⟩
  | await {i j : ℕ} {t u : Thread M} {a : α} {k : α → Proc _ _ α} (x : χ)
      (ht : s.threads[i]? = some t) (hr : t.rest = .call (.await j) k)
      (hu : s.threads[j]? = some u) (ha : u.rest = .ret a) :
      Step s (.op i x) ⟨s.shared, s.threads.set i (t.advance hr s.shared a)⟩

theorem stepThread_spec (s : State M) {i : ℕ} (x : χ) {t : Thread M}
    (ht : s.threads[i]? = some t) : Step s (.op i x) (stepThread s i x t) := by
  rw [stepThread]
  split
  · exact .idle _
  · exact .prim x ht _
  · exact .fork x ht _
  · split
    next a hj =>
      obtain ⟨u, hu, ha⟩ := Option.map_eq_some_iff.mp hj
      exact .await x ht _ hu ha
    next => exact .idle _

theorem step_spec (s : State M) (a : Act A χ) : Step s a (step s a) := by
  cases a with
  | env e => exact .env e
  | op i x =>
    cases ht : s.threads[i]? with
    | none => simpa [step, ht] using Step.idle _
    | some t => simpa [step, ht] using stepThread_spec s x ht

/-- The shared part after a step is that before it, or what the environment or one operation
has made of that. -/
theorem shared_step (Φ : σ → Prop) {s : State M} {a : Act A χ} (hsame : Φ s.shared)
    (henv : ∀ e, a = .env e → Φ (M.env e s.shared).1)
    (hprim : ∀ (i : ℕ) x t o k, a = .op i x → s.threads[i]? = some t →
      t.rest = .call (.prim o) k → Φ (M.exec o x s.shared).2) : Φ (step s a).shared := by
  have h := step_spec s a
  generalize step s a = s' at h
  cases h with
  | env e => exact henv e rfl
  | prim x ht hr => exact hprim _ x _ _ _ rfl ht hr
  | _ => exact hsame

/-- A step starts a thread for the environment, or for the fork that is the next call. -/
def Starts (s : State M) (a : Act A χ) (l : L) : Prop :=
  (∃ e, a = .env e ∧ l ∈ (M.env e s.shared).2) ∨
    ∃ (i : ℕ) (t : Thread M) (k : ℕ → Proc _ _ α),
      s.threads[i]? = some t ∧ t.rest = .call (.fork l) k

/-- Where a thread of the state after a step comes from: it was there as it is, it has
just been started, or it is the one that made its next call, an operation or another. -/
inductive Origin (s : State M) (a : Act A χ) (j : ℕ) (u : Thread M) : Prop
  | same (h : s.threads[j]? = some u)
  | started (l : L) (hj : s.threads[j]? = none) (hl : Starts s a l) (h : u = .start l)
  | prim {t : Thread M} {o : Op} {k : Res o → Proc _ _ α} (x : χ) (ha : a = .op j x)
      (ht : s.threads[j]? = some t) (hr : t.rest = .call (.prim o) k)
      (h : u = t.advance hr s.shared (M.exec o x s.shared).1)
  | other {t : Thread M} {o : Call Op L} {k : Call.Res Res α o → Proc _ _ α}
      (ht : s.threads[j]? = some t) (hr : t.rest = .call o k) (ho : ∀ p, o ≠ .prim p)
      (r : Call.Res Res α o) (h : u = t.advance hr s.shared r)

theorem getElem?_set_cases {β : Type} {l : List β} {i j : ℕ} {b u : β}
    (h : (l.set i b)[j]? = some u) : l[j]? = some u ∨ j = i ∧ u = b := by
  by_cases hij : i = j
  · subst hij
    by_cases hi : i < l.length
    · exact Or.inr ⟨rfl, by simpa [List.getElem?_set_self hi] using h.symm⟩
    · simp [hi] at h
  · exact Or.inl (by rwa [List.getElem?_set_ne hij] at h)

theorem map_set_modify {β γ : Type} {f : β → γ} {g : γ → γ} {l : List β} {i : ℕ} {b b' : β}
    (hb : l[i]? = some b) (hg : f b' = g (f b)) :
    (l.set i b').map f = (l.map f).modify i g := by
  have hi : i < l.length := (List.getElem?_eq_some_iff.mp hb).1
  apply List.ext_getElem?
  intro j
  by_cases hij : i = j
  · subst hij
    have hget : l[i] = b := Option.some_inj.mp ((List.getElem?_eq_getElem hi).symm.trans hb)
    simp [hi, hg, hget]
  · simp [hij]

/-- What is the same of the old and the new element does not show an update. -/
theorem map_set_same {β γ : Type} {f : β → γ} {l : List β} {i : ℕ} {b b' : β}
    (hb : l[i]? = some b) (hf : f b' = f b) : (l.set i b').map f = l.map f := by
  rw [map_set_modify (g := id) hb hf, List.modify_id]

theorem map_modify_same {β γ : Type} {f : β → γ} {g : β → β} (l : List β) (i : ℕ)
    (hg : ∀ b, f (g b) = f b) : (l.modify i g).map f = l.map f := by
  apply List.ext_getElem?
  intro j
  by_cases hij : i = j
  · subst hij
    cases hb : l[i]? with
    | none => simp [hb]
    | some b => simp [hb, hg]
  · simp [hij]

theorem getElem?_modify_cases {β : Type} {l : List β} {i j : ℕ} {f : β → β} {u : β}
    (h : (l.modify i f)[j]? = some u) :
    l[j]? = some u ∧ i ≠ j ∨ i = j ∧ ∃ b, l[j]? = some b ∧ u = f b := by
  by_cases hij : i = j
  · subst hij
    obtain ⟨b, hb, hu⟩ := Option.map_eq_some_iff.mp ((List.getElem?_modify_eq f i l).symm.trans h)
    exact Or.inr ⟨rfl, b, hb, hu.symm⟩
  · exact Or.inl ⟨by rwa [List.getElem?_modify_ne f l hij] at h, hij⟩

theorem Step.origin {s s' : State M} {a : Act A χ} (h : Step s a s') {j : ℕ} {u : Thread M}
    (hu : s'.threads[j]? = some u) : Origin s a j u := by
  cases h with
  | idle => exact .same hu
  | env e =>
    rcases Nat.lt_or_ge j s.threads.length with hj | hj
    · exact .same (by rwa [List.getElem?_append_left hj] at hu)
    · rw [List.getElem?_append_right hj] at hu
      obtain ⟨l, hl, rfl⟩ := List.mem_map.mp (List.mem_of_getElem? hu)
      exact .started l (List.getElem?_eq_none hj) (Or.inl ⟨e, rfl, hl⟩) rfl
  | prim x ht hr =>
    rcases getElem?_set_cases hu with hu | ⟨rfl, rfl⟩
    · exact .same hu
    · exact .prim x rfl ht hr rfl
  | @fork i t l k x ht hr =>
    rcases Nat.lt_or_ge j (s.threads.set i (t.advance hr s.shared s.threads.length)).length
      with hj | hj
    · rw [List.getElem?_append_left hj] at hu
      rcases getElem?_set_cases hu with hu | ⟨rfl, rfl⟩
      · exact .same hu
      · exact .other ht hr (by simp) _ rfl
    · rw [List.getElem?_append_right hj] at hu
      have hnone : s.threads[j]? = none := List.getElem?_eq_none (by simpa using hj)
      exact .started l hnone (Or.inr ⟨i, t, k, ht, hr⟩)
        (List.mem_singleton.mp (List.mem_of_getElem? hu))
  | await x ht hr hw ha =>
    rcases getElem?_set_cases hu with hu | ⟨rfl, rfl⟩
    · exact .same hu
    · exact .other ht hr (by simp) _ rfl

/-- No thread goes away. -/
theorem Step.kept {s s' : State M} {a : Act A χ} (h : Step s a s') {j : ℕ} {t : Thread M}
    (ht : s.threads[j]? = some t) : ∃ u, s'.threads[j]? = some u := by
  have hj : j < s.threads.length := (List.getElem?_eq_some_iff.mp ht).1
  have hj' : j < s'.threads.length := by
    cases h with
    | idle => exact hj
    | prim x _ hr => simpa using hj
    | await x _ hr => simpa using hj
    | env e => exact Nat.lt_of_lt_of_le hj (by simp)
    | fork x _ hr => exact Nat.lt_of_lt_of_le hj (by simp)
  exact ⟨_, List.getElem?_eq_getElem hj'⟩

end Machine

end NatsDemo.Lib
