import NatsDemo.Lib.Histories

/-!
# Programs among more operations

A program over some operations is one over more of them.  What holds along its executions
under a contract holds there too, under a contract that says the same of its operations.
-/

namespace NatsDemo.Lib

variable {κ Op Op' : Type} {Res : Op → Type} {Res' : Op' → Type} {α β G : Type}

/-- The program with each operation made under another name, and the answers read back. -/
def Proc.embed (f : Op → Op') (g : ∀ o, Res' (f o) → Res o) :
    Proc Op Res α → Proc Op' Res' α
  | .ret a => .ret a
  | .call o k => .call (f o) fun r => (k (g o r)).embed f g

variable {f : Op → Op'} {g : ∀ o, Res' (f o) → Res o}

@[simp] theorem Proc.embed_ret (a : α) : (Proc.ret a : Proc Op Res α).embed f g = .ret a := rfl
@[simp] theorem Proc.embed_call (o : Op) (k : Res o → Proc Op Res α) :
    (Proc.call o k).embed f g = .call (f o) fun r => (k (g o r)).embed f g := rfl

theorem Proc.embed_bind (p : Proc Op Res α) (h : α → Proc Op Res β) :
    (p >>= h).embed f g = p.embed f g >>= fun a => (h a).embed f g := by
  induction p with
  | ret a => rfl
  | call o k ih =>
    rw [Proc.call_bind, Proc.embed_call, Proc.embed_call, Proc.call_bind]
    exact congrArg _ (funext fun r => ih (g o r))

/-- A contract that says the same of the operations under their other names. -/
structure Contract.Extends (C' : Contract κ Op' Res' G) (C : Contract κ Op Res G) (f : Op → Op')
    (g : ∀ o, Res' (f o) → Res o) : Prop where
  pre : ∀ s o, C.pre s o → C'.pre s (f o)
  ans : ∀ s c o r, C'.ans s c (f o) r → C.ans s c o (g o r)
  next : ∀ s c o r, C'.next s c (f o) r = C.next s c o (g o r)

theorem Proc.wp_embed {C' : Contract κ Op' Res' G} {C : Contract κ Op Res G}
    (h : C'.Extends C f g) {p : Proc Op Res α} {Q : α → G → Prop} {s : G} (hp : p.wp C Q s) :
    (p.embed f g).wp C' Q s := by
  induction p generalizing s with
  | ret a => exact hp
  | call o k ih =>
    refine ⟨h.pre s o hp.1, fun c r hr => ?_⟩
    rw [h.next]
    exact ih (g o r) (hp.2 c (g o r) (h.ans s c o r hr))

theorem Proc.avoids_embed {φ : Op' → Prop} {p : Proc Op Res α} (h : p.Avoids fun o => φ (f o)) :
    (p.embed f g).Avoids φ := by
  induction p with
  | ret a => trivial
  | call o k ih => exact ⟨h.1, fun r => ih (g o r) (h.2 (g o r))⟩

end NatsDemo.Lib
