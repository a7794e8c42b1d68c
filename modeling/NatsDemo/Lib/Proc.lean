import NatsDemo.Lib.Run

/-!
# Programs over a set of operations

A program is a tree: it stops with a result, or performs an operation and goes on
with the answer.  What an operation does to the world is not part of the program, so
one program can be run alone against fixed answers, interleaved with others on a
shared state, or looked at through all its possible histories.

Reasoning about every history goes through a `Contract`: a ghost state, updated by
each operation and its answer, and what each operation may assume of it.  `wp` is the
corresponding precondition, computed on the tree; `Trace.wp` is its soundness.
-/

namespace NatsDemo.Lib

/-- A program over the operations `Op`, where `Res o` is the type of the answers to `o`. -/
inductive Proc (Op : Type) (Res : Op → Type) (α : Type) where
  | ret (a : α)
  | call (o : Op) (k : Res o → Proc Op Res α)

namespace Proc
variable {Op : Type} {Res : Op → Type} {α β γ : Type}

/-- Run the continuation on the result of the first program. -/
def bind : Proc Op Res α → (α → Proc Op Res β) → Proc Op Res β
  | ret a, f => f a
  | call o k, f => call o fun r => (k r).bind f

instance : Monad (Proc Op Res) where
  pure := ret
  bind := bind

/-- The program that performs one operation and returns its answer. -/
def perform (o : Op) : Proc Op Res (Res o) := call o ret

@[simp] theorem pure_eq (a : α) : (pure a : Proc Op Res α) = ret a := rfl
@[simp] theorem ret_bind (a : α) (f : α → Proc Op Res β) : (ret a >>= f) = f a := rfl
@[simp] theorem call_bind (o : Op) (k : Res o → Proc Op Res α) (f : α → Proc Op Res β) :
    (call o k >>= f) = call o fun r => k r >>= f := rfl
@[simp] theorem perform_bind (o : Op) (f : Res o → Proc Op Res β) :
    (perform o >>= f) = call o f := rfl

@[simp] theorem ite_bind (c : Prop) [Decidable c] (p q : Proc Op Res α)
    (f : α → Proc Op Res β) :
    ((if c then p else q) >>= f) = if c then p >>= f else q >>= f := by split <;> rfl

theorem bind_ret (p : Proc Op Res α) : (p >>= ret) = p := by
  induction p with
  | ret a => rfl
  | call o k ih => simp [ih]

theorem bind_assoc (p : Proc Op Res α) (f : α → Proc Op Res β) (g : β → Proc Op Res γ) :
    (p >>= f >>= g) = (p >>= fun a => f a >>= g) := by
  induction p with
  | ret a => rfl
  | call o k ih => simp [ih]

instance : LawfulMonad (Proc Op Res) :=
  LawfulMonad.mk' _ bind_ret (fun _ _ => rfl) bind_assoc

/-! ## What every execution does -/

/-- No execution performs an operation of the given kind. -/
def Avoids (φ : Op → Prop) : Proc Op Res α → Prop
  | ret _ => True
  | call o k => ¬ φ o ∧ ∀ r, Avoids φ (k r)

/-- Every complete execution performs an operation of the given kind. -/
def Must (φ : Op → Prop) : Proc Op Res α → Prop
  | ret _ => False
  | call o k => φ o ∨ ∀ r, Must φ (k r)

/-- Every complete execution ends with this result. -/
def Returns (a : α) : Proc Op Res α → Prop
  | ret b => b = a
  | call _ k => ∀ r, Returns a (k r)

section
variable {φ : Op → Prop}

@[simp] theorem avoids_ret (a : α) : (ret a : Proc Op Res α).Avoids φ := trivial
@[simp] theorem avoids_call (o : Op) (k : Res o → Proc Op Res α) :
    (call o k).Avoids φ ↔ ¬ φ o ∧ ∀ r, (k r).Avoids φ := Iff.rfl
@[simp] theorem must_ret (a : α) : ¬ (ret a : Proc Op Res α).Must φ := id
@[simp] theorem must_call (o : Op) (k : Res o → Proc Op Res α) :
    (call o k).Must φ ↔ φ o ∨ ∀ r, (k r).Must φ := Iff.rfl

@[simp] theorem returns_ret (a b : α) : (ret b : Proc Op Res α).Returns a ↔ b = a := Iff.rfl
@[simp] theorem returns_call (a : α) (o : Op) (k : Res o → Proc Op Res α) :
    (call o k).Returns a ↔ ∀ r, (k r).Returns a := Iff.rfl

@[simp] theorem returns_ite (a : α) (c : Prop) [Decidable c] (p q : Proc Op Res α) :
    (if c then p else q).Returns a ↔ if c then p.Returns a else q.Returns a := by split <;> rfl

@[simp] theorem avoids_ite (c : Prop) [Decidable c] (p q : Proc Op Res α) :
    (if c then p else q).Avoids φ ↔ if c then p.Avoids φ else q.Avoids φ := by split <;> rfl

end

theorem Avoids.bind {φ : Op → Prop} {p : Proc Op Res α} {f : α → Proc Op Res β}
    (hp : p.Avoids φ) (hf : ∀ a, (f a).Avoids φ) : (p >>= f).Avoids φ := by
  induction p with
  | ret a => exact hf a
  | call o k ih => exact ⟨hp.1, fun r => ih r (hp.2 r)⟩

theorem Avoids.mono {φ ψ : Op → Prop} {p : Proc Op Res α} (hp : p.Avoids φ)
    (h : ∀ o, ψ o → φ o) : p.Avoids ψ := by
  induction p with
  | ret a => trivial
  | call o k ih => exact ⟨fun ho => hp.1 (h o ho), fun r => ih r (hp.2 r)⟩

/-- Whatever comes before it, what the end must do is done. -/
theorem Must.of_end {φ : Op → Prop} {f : α → Proc Op Res β} (hf : ∀ a, (f a).Must φ)
    (p : Proc Op Res α) : (p >>= f).Must φ := by
  induction p with
  | ret a => exact hf a
  | call o k ih => exact Or.inr ih

/-- The operations performed, with their answers, when the `n`-th operation of all is
answered by `answer n`. -/
def transcript (answer : ℕ → (o : Op) → Res o) : ℕ → Proc Op Res α → List ((o : Op) × Res o)
  | _, ret _ => []
  | n, call o k => ⟨o, answer n o⟩ :: transcript answer (n + 1) (k (answer n o))

/-- The result reached with these answers. -/
def result (answer : ℕ → (o : Op) → Res o) : ℕ → Proc Op Res α → α
  | _, ret a => a
  | n, call o k => result answer (n + 1) (k (answer n o))

section
variable {answer : ℕ → (o : Op) → Res o} {n : ℕ}

@[simp] theorem transcript_ret (a : α) : (ret a : Proc Op Res α).transcript answer n = [] := rfl
@[simp] theorem transcript_call (o : Op) (k : Res o → Proc Op Res α) :
    (call o k).transcript answer n =
      ⟨o, answer n o⟩ :: (k (answer n o)).transcript answer (n + 1) := rfl
@[simp] theorem result_ret (a : α) : (ret a : Proc Op Res α).result answer n = a := rfl
@[simp] theorem result_call (o : Op) (k : Res o → Proc Op Res α) :
    (call o k).result answer n = (k (answer n o)).result answer (n + 1) := rfl

/-- What every execution returns, a run returns. -/
theorem Returns.result_eq {a : α} {p : Proc Op Res α} (h : p.Returns a) :
    p.result answer n = a := by
  induction p generalizing n with
  | ret b => exact h
  | call o k ih => exact ih _ (h (answer n o))

theorem transcript_bind (p : Proc Op Res α) (f : α → Proc Op Res β) :
    (p >>= f).transcript answer n = p.transcript answer n ++
      (f (p.result answer n)).transcript answer (n + (p.transcript answer n).length) := by
  induction p generalizing n with
  | ret a => rfl
  | call o k ih => simp [ih, Nat.add_assoc, Nat.add_comm 1]

theorem result_bind (p : Proc Op Res α) (f : α → Proc Op Res β) :
    (p >>= f).result answer n =
      (f (p.result answer n)).result answer (n + (p.transcript answer n).length) := by
  induction p generalizing n with
  | ret a => rfl
  | call o k ih => simp [ih, Nat.add_assoc, Nat.add_comm 1]

theorem mem_transcript_bind {p : Proc Op Res α} {f : α → Proc Op Res β} {e : (o : Op) × Res o} :
    e ∈ (p >>= f).transcript answer n ↔ e ∈ p.transcript answer n ∨
      e ∈ (f (p.result answer n)).transcript answer (n + (p.transcript answer n).length) := by
  rw [transcript_bind, List.mem_append]

/-! What is picked out of a transcript, where that does not depend on the answers. -/

section
variable {ι : Type} {f : (o : Op) × Res o → Option ι} {x : Option ι} {xs : List ι}

theorem filterMap_call {o : Op} {k : Res o → Proc Op Res α} (ho : ∀ r, f ⟨o, r⟩ = x)
    (hk : ∀ r n, ((k r).transcript answer n).filterMap f = xs) (n : ℕ) :
    ((call o k).transcript answer n).filterMap f = x.toList ++ xs := by
  rw [transcript_call]
  cases x with
  | none =>
    rw [List.filterMap_cons_none (ho _)]
    exact hk _ _
  | some y =>
    rw [List.filterMap_cons_some (ho _)]
    exact congrArg _ (hk _ _)

theorem filterMap_call_none {o : Op} {k : Res o → Proc Op Res α} (ho : ∀ r, f ⟨o, r⟩ = none)
    (hk : ∀ r n, ((k r).transcript answer n).filterMap f = xs) (n : ℕ) :
    ((call o k).transcript answer n).filterMap f = xs := filterMap_call ho hk n

theorem filterMap_ite {c : Prop} [Decidable c] {p q : Proc Op Res α}
    (hp : ∀ n, (p.transcript answer n).filterMap f = xs)
    (hq : ∀ n, (q.transcript answer n).filterMap f = xs) (n : ℕ) :
    ((if c then p else q).transcript answer n).filterMap f = xs := by
  split_ifs
  · exact hp n
  · exact hq n

end

/-- What `Must` promises of every execution shows in each run against fixed answers. -/
theorem Must.exists_mem_transcript {φ : Op → Prop} {p : Proc Op Res α} (h : p.Must φ)
    (answer : ℕ → (o : Op) → Res o) (n : ℕ) : ∃ e ∈ p.transcript answer n, φ e.1 := by
  induction p generalizing n with
  | ret a => exact h.elim
  | call o k ih =>
    rcases h with h | h
    · exact ⟨_, List.mem_cons_self, h⟩
    · obtain ⟨e, he, hφ⟩ := ih _ (h (answer n o)) (n + 1)
      exact ⟨e, List.mem_cons_of_mem _ he, hφ⟩

/-- What `Avoids` excludes of every execution is absent from each run. -/
theorem Avoids.not_mem_transcript {φ : Op → Prop} {p : Proc Op Res α} (h : p.Avoids φ) :
    ∀ e ∈ p.transcript answer n, ¬ φ e.1 := by
  induction p generalizing n with
  | ret a => simp
  | call o k ih =>
    intro e he
    rcases List.mem_cons.mp he with rfl | he
    · exact h.1
    · exact ih _ (h.2 (answer n o)) e he

/-- A run shows an operation of the given kind just where a condition demands it. -/
theorem exists_mem_transcript_iff {φ : Op → Prop} {p : Proc Op Res α} {c : Prop}
    (hmust : c → p.Must φ) (havoids : ¬ c → p.Avoids φ) :
    (∃ e ∈ p.transcript answer n, φ e.1) ↔ c := by
  constructor
  · rintro ⟨e, he, hφ⟩
    by_contra hc
    exact (havoids hc).not_mem_transcript e he hφ
  · exact fun hc => (hmust hc).exists_mem_transcript answer n

end

/-- Where every operation has an answer, no program both must and avoids. -/
theorem Must.not_avoids {φ : Op → Prop} {p : Proc Op Res α} (h : p.Must φ)
    (answer : (o : Op) → Res o) : ¬ p.Avoids φ := by
  intro havoids
  obtain ⟨e, he, hφ⟩ := h.exists_mem_transcript (fun _ => answer) 0
  exact havoids.not_mem_transcript e he hφ

end Proc

/-! ## Histories -/

/-- An operation with its answer, and what its performer could see at that moment. -/
structure Event (κ Op : Type) (Res : Op → Type) where
  ctx : κ
  op : Op
  ans : Res op

variable {κ Op : Type} {Res : Op → Type} {α β G : Type}

/-- `Trace p h q`: after the history `h` the program `p` has become `q`. -/
inductive Trace : Proc Op Res α → List (Event κ Op Res) → Proc Op Res α → Prop
  | nil (p : Proc Op Res α) : Trace p [] p
  | snoc {p : Proc Op Res α} {h : List (Event κ Op Res)} {o : Op}
      {k : Res o → Proc Op Res α} (c : κ) (r : Res o) (t : Trace p h (.call o k)) :
      Trace p (h ++ [⟨c, o, r⟩]) (k r)

/-- What a program avoids, what is left of it avoids. -/
theorem Trace.avoids {φ : Op → Prop} {p q : Proc Op Res α} {h : List (Event κ Op Res)}
    (t : Trace p h q) (hp : p.Avoids φ) : q.Avoids φ := by
  induction t with
  | nil => exact hp
  | snoc c r t ih => exact ih.2 r

/-- What a program avoids is absent from its histories. -/
theorem Trace.not_mem {φ : Op → Prop} {p q : Proc Op Res α} {h : List (Event κ Op Res)}
    (t : Trace p h q) (hp : p.Avoids φ) : ∀ e ∈ h, ¬ φ e.op := by
  induction t with
  | nil => simp
  | snoc c r t ih =>
    intro e he
    rcases List.mem_append.mp he with he | he
    · exact ih e he
    · obtain rfl := List.mem_singleton.mp he
      exact (t.avoids hp).1

/-- A discipline for the operations of a program, over a ghost state `G`: what an
operation may assume of it, which answers are considered, and how it moves on. -/
structure Contract (κ Op : Type) (Res : Op → Type) (G : Type) where
  pre : G → Op → Prop
  ans : G → κ → (o : Op) → Res o → Prop
  next : G → κ → (o : Op) → Res o → G

namespace Contract

/-- The ghost step of an event. -/
def step (C : Contract κ Op Res G) (g : G) (e : Event κ Op Res) : G :=
  C.next g e.ctx e.op e.ans

/-- The ghost state after a history. -/
def after (C : Contract κ Op Res G) (g : G) (h : List (Event κ Op Res)) : G :=
  run C.step g h

/-- Every answer of the history is among those considered. -/
def Answered (C : Contract κ Op Res G) : G → List (Event κ Op Res) → Prop :=
  Meets C.step fun g e => C.ans g e.ctx e.op e.ans

/-- Every operation of the history found what it may assume. -/
def Obeyed (C : Contract κ Op Res G) : G → List (Event κ Op Res) → Prop :=
  Meets C.step fun g e => C.pre g e.op

@[simp] theorem after_nil (C : Contract κ Op Res G) (g : G) : C.after g [] = g := rfl

theorem after_snoc (C : Contract κ Op Res G) (g : G) (h : List (Event κ Op Res))
    (e : Event κ Op Res) : C.after g (h ++ [e]) = C.step (C.after g h) e :=
  run_append g h [e]

end Contract

/-- The precondition of a program for a contract and a condition on its result. -/
def Proc.wp (C : Contract κ Op Res G) : Proc Op Res α → (α → G → Prop) → G → Prop
  | .ret a, Q, g => Q a g
  | .call o k, Q, g =>
      C.pre g o ∧ ∀ c r, C.ans g c o r → (k r).wp C Q (C.next g c o r)

section
variable {C : Contract κ Op Res G}

@[simp] theorem Proc.wp_ret (a : α) (Q : α → G → Prop) (g : G) :
    (Proc.ret a : Proc Op Res α).wp C Q g ↔ Q a g := Iff.rfl
@[simp] theorem Proc.wp_call (o : Op) (k : Res o → Proc Op Res α) (Q : α → G → Prop)
    (g : G) : (Proc.call o k).wp C Q g ↔
      C.pre g o ∧ ∀ c r, C.ans g c o r → (k r).wp C Q (C.next g c o r) := Iff.rfl

@[simp] theorem Proc.wp_ite (c : Prop) [Decidable c] (p q : Proc Op Res α)
    (Q : α → G → Prop) (g : G) :
    (if c then p else q).wp C Q g ↔ if c then p.wp C Q g else q.wp C Q g := by split <;> rfl

theorem Proc.wp_mono {p : Proc Op Res α} {Q Q' : α → G → Prop} {g : G}
    (h : p.wp C Q g) (hQ : ∀ a g, Q a g → Q' a g) : p.wp C Q' g := by
  induction p generalizing g with
  | ret a => exact hQ a g h
  | call o k ih => exact ⟨h.1, fun c r hr => ih r (h.2 c r hr)⟩

/-- A program that avoids some operations, where a condition on the ghost state lasts
under the others and is all they assume. -/
theorem Proc.wp_of_avoids {φ : Op → Prop} (I : G → Prop)
    (hI : ∀ g c o r, ¬ φ o → I g → I (C.next g c o r)) (hpre : ∀ g o, ¬ φ o → I g → C.pre g o)
    {p : Proc Op Res α} {Q : α → G → Prop} {g : G} (hp : p.Avoids φ) (hQ : ∀ a g, I g → Q a g)
    (hg : I g) : p.wp C Q g := by
  induction p generalizing g with
  | ret a => exact hQ a g hg
  | call o k ih =>
    exact ⟨hpre g o hp.1 hg, fun c r _ => ih r (hp.2 r) (hI g c o r hp.1 hg)⟩

/-- The precondition of a sequence is that of its first part for that of the second. -/
theorem Proc.wp_bind {p : Proc Op Res α} {f : α → Proc Op Res β} {Q : β → G → Prop}
    {g : G} : (p >>= f).wp C Q g ↔ p.wp C (fun a g' => (f a).wp C Q g') g := by
  induction p generalizing g with
  | ret a => rfl
  | call o k ih => simp only [call_bind, wp_call, ih]

/-- **Soundness of `wp`.**  Along a history whose answers are among those considered,
every operation finds what it may assume, and what is left of the program still
satisfies its precondition. -/
theorem Trace.wp {p q : Proc Op Res α} {h : List (Event κ Op Res)} {Q : α → G → Prop}
    {g : G} (t : Trace p h q) (hp : p.wp C Q g) (hans : C.Answered g h) :
    C.Obeyed g h ∧ q.wp C Q (C.after g h) := by
  induction t with
  | nil => exact ⟨trivial, hp⟩
  | @snoc h o k c r t ih =>
    obtain ⟨hh, hr, -⟩ := (meets_append g h _).mp hans
    obtain ⟨hobey, hpre, hk⟩ := ih hh
    refine ⟨(meets_append g h _).mpr ⟨hobey, hpre, trivial⟩, ?_⟩
    rw [Contract.after_snoc]
    exact hk c r hr

/-- What every operation and the result may assume is true after any history. -/
theorem Trace.after_of_wp {p q : Proc Op Res α} {h : List (Event κ Op Res)}
    {Q : α → G → Prop} {g : G} {Φ : G → Prop} (t : Trace p h q) (hp : p.wp C Q g)
    (hans : C.Answered g h) (hpre : ∀ g o, C.pre g o → Φ g) (hQ : ∀ a g, Q a g → Φ g) :
    Φ (C.after g h) := by
  have hq := (t.wp hp hans).2
  cases q with
  | ret a => exact hQ a _ hq
  | call o k => exact hpre _ o hq.1

end

end NatsDemo.Lib
