import Mathlib.Data.List.Nodup

/-!
# Work done at most once

Workers take items one at a time; an item that was taken is done in the end, or let go.
Where no worker takes an item that is done, or that another worker has, no item is done
twice.
-/

namespace NatsDemo.Lib

/-- The items done, in their order, and the item that each worker has. -/
structure Leases (ι : Type) where
  done : List ι
  taken : List (Option ι)

namespace Leases
variable {ι : Type} {l : Leases ι} {i j : ℕ} {x : ι}

/-- A worker takes an item, or lets go of its item. -/
def set (l : Leases ι) (i : ℕ) (o : Option ι) : Leases ι := { l with taken := l.taken.set i o }

/-- A worker has done an item. -/
def finish (l : Leases ι) (i : ℕ) (x : ι) : Leases ι := ⟨l.done ++ [x], l.taken.set i none⟩

/-- Workers come along, and have taken nothing yet. -/
def join (l : Leases ι) (n : ℕ) : Leases ι := { l with taken := l.taken ++ List.replicate n none }

/-- The item is not done, and no other worker has it. -/
def Free (l : Leases ι) (i : ℕ) (x : ι) : Prop :=
  x ∉ l.done ∧ ∀ j, l.taken[j]? = some (some x) → j = i

instance [DecidableEq ι] : Decidable (l.Free i x) :=
  decidable_of_iff (x ∉ l.done ∧ ∀ j < l.taken.length, l.taken[j]? = some (some x) → j = i) <|
    and_congr_right' ⟨fun h j hj => h j (List.getElem?_eq_some_iff.mp hj).1 hj, fun h j _ => h j⟩

structure Exclusive (l : Leases ι) : Prop where
  nodup : l.done.Nodup
  free : ∀ i x, l.taken[i]? = some (some x) → l.Free i x

theorem taken_set {o : Option ι} (h : (l.taken.set i o)[j]? = some (some x)) :
    j = i ∧ o = some x ∨ j ≠ i ∧ l.taken[j]? = some (some x) := by
  by_cases hij : j = i
  · subst hij
    by_cases hj : j < l.taken.length
    · exact Or.inl ⟨rfl, by simpa [hj] using h⟩
    · simp [hj] at h
  · exact Or.inr ⟨hij, by rwa [List.getElem?_set_ne (Ne.symm hij)] at h⟩

theorem Exclusive.release (h : l.Exclusive) (i : ℕ) : (l.set i none).Exclusive where
  nodup := h.nodup
  free j x hj := by
    rcases taken_set hj with ⟨-, hnone⟩ | ⟨-, hj⟩
    · cases hnone
    · refine ⟨(h.free j x hj).1, fun k hk => ?_⟩
      rcases taken_set hk with ⟨-, hnone⟩ | ⟨-, hk⟩
      · cases hnone
      · exact (h.free j x hj).2 k hk

theorem Exclusive.take (h : l.Exclusive) (hx : l.Free i x) : (l.set i (some x)).Exclusive where
  nodup := h.nodup
  free j y hj := by
    rcases taken_set hj with ⟨rfl, heq⟩ | ⟨hne, hj⟩
    · cases heq
      refine ⟨hx.1, fun k hk => ?_⟩
      rcases taken_set hk with ⟨hki, -⟩ | ⟨-, hk⟩
      · exact hki
      · exact hx.2 k hk
    · refine ⟨(h.free j y hj).1, fun k hk => ?_⟩
      rcases taken_set hk with ⟨-, heq⟩ | ⟨-, hk⟩
      · -- the item that was taken now is free, so no other worker has it
        cases heq
        exact absurd (hx.2 j hj) hne
      · exact (h.free j y hj).2 k hk

theorem Exclusive.finish (h : l.Exclusive) (hi : l.taken[i]? = some (some x)) :
    (l.finish i x).Exclusive where
  nodup := by
    obtain ⟨hdone, -⟩ := h.free i x hi
    exact List.Nodup.append h.nodup (List.nodup_singleton x)
      (List.disjoint_singleton.mpr hdone)
  free j y hj := by
    rcases taken_set hj with ⟨-, hnone⟩ | ⟨hne, hj⟩
    · cases hnone
    · obtain ⟨hdone, honly⟩ := h.free j y hj
      refine ⟨?_, fun k hk => ?_⟩
      · intro hy
        cases List.mem_append.mp hy with
        | inl hold => exact hdone hold
        | inr hnew =>
          cases List.mem_singleton.mp hnew
          exact hne (honly i hi).symm
      · rcases taken_set hk with ⟨-, hnone⟩ | ⟨-, hk⟩
        · cases hnone
        · exact honly k hk

theorem taken_join {n : ℕ} (h : (l.join n).taken[j]? = some (some x)) :
    l.taken[j]? = some (some x) := by
  by_cases hj : j < l.taken.length
  · rwa [join, List.getElem?_append_left hj] at h
  · rw [join, List.getElem?_append_right (Nat.not_lt.mp hj)] at h
    cases List.eq_of_mem_replicate (List.mem_of_getElem? h)

theorem Exclusive.join (h : l.Exclusive) (n : ℕ) : (l.join n).Exclusive where
  nodup := h.nodup
  free j x hj :=
    ⟨(h.free j x (taken_join hj)).1, fun k hk => (h.free j x (taken_join hj)).2 k (taken_join hk)⟩

end Leases

end NatsDemo.Lib
