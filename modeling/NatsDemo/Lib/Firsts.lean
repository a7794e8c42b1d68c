import Mathlib.Data.List.DropRight
import Mathlib.Data.List.Nodup
import Mathlib.Data.List.Perm.Subperm

/-!
# First occurrences

`List.eraseDups` keeps the first occurrence of every value, in their order.  Below is how it
grows as values come in one by one, and when a value is still among the last `n` kept.
`List.find?` gives the first match, and which one that is depends on the order.
-/

namespace NatsDemo.Lib

variable {α : Type} [BEq α] [LawfulBEq α] {xs ys : List α} {a : α} {n : ℕ}

theorem eraseDups_concat_of_mem (ha : a ∈ xs) : (xs ++ [a]).eraseDups = xs.eraseDups := by
  have hgone : [a].removeAll xs = [] := by simp [List.removeAll, ha]
  rw [List.eraseDups_append, hgone, List.eraseDups_nil, List.append_nil]

theorem eraseDups_concat_of_not_mem (ha : a ∉ xs) :
    (xs ++ [a]).eraseDups = xs.eraseDups ++ [a] := by
  have hkept : [a].removeAll xs = [a] := by simp [List.removeAll, ha]
  rw [List.eraseDups_append, hkept, List.eraseDups_cons]
  rfl

theorem nodup_eraseDups (xs : List α) : xs.eraseDups.Nodup := by
  induction xs using List.reverseRecOn with
  | nil => exact List.nodup_nil
  | append_singleton xs a ih =>
    by_cases ha : a ∈ xs
    · rw [eraseDups_concat_of_mem ha]
      exact ih
    · rw [eraseDups_concat_of_not_mem ha, ← List.concat_eq_append]
      exact ih.concat fun hmem => ha (List.mem_eraseDups.mp hmem)

/-- The values of `ys` that are not in `xs`, by their first occurrence. -/
def newIn (xs ys : List α) : List α := (ys.removeAll xs).eraseDups

theorem eraseDups_append_eq (xs ys : List α) :
    (xs ++ ys).eraseDups = xs.eraseDups ++ newIn xs ys := List.eraseDups_append

theorem length_newIn_le (xs ys : List α) : (newIn xs ys).length ≤ ys.length := by
  have hsub : newIn xs ys ⊆ ys :=
    fun _ ha => (List.mem_filter.mp (List.mem_eraseDups.mp ha)).1
  exact ((nodup_eraseDups _).subperm hsub).length_le

/-! ## The first match -/

omit [BEq α] [LawfulBEq α] in
/-- What is true of the first match in every order of a list is true of all its matches. -/
theorem forall_perm_find?_iff {p : α → Bool} {Q : α → Prop} :
    (∀ ys : List α, ys.Perm xs → ∃ a ∈ ys.find? p, Q a) ↔
      (∃ a ∈ xs, p a) ∧ ∀ a ∈ xs, p a → Q a := by
  constructor
  · intro h
    constructor
    · obtain ⟨a, ha, -⟩ := h xs (List.Perm.refl xs)
      exact ⟨a, List.mem_of_find?_eq_some ha, List.find?_some ha⟩
    · intro a ha hp
      -- in the order that begins with it, it is the first match
      obtain ⟨before, after, rfl⟩ := List.append_of_mem ha
      obtain ⟨b, hb, hQ⟩ := h (a :: (before ++ after)) List.perm_middle.symm
      rw [List.find?_cons_of_pos hp] at hb
      obtain rfl := Option.mem_some_iff.mp hb
      exact hQ
  · rintro ⟨⟨a, ha, hp⟩, hall⟩ ys hperm
    have hfound : (ys.find? p).isSome := List.find?_isSome.mpr ⟨a, hperm.mem_iff.mpr ha, hp⟩
    obtain ⟨b, hb⟩ := Option.isSome_iff_exists.mp hfound
    exact ⟨b, hb, hall b (hperm.mem_iff.mp (List.mem_of_find?_eq_some hb)) (List.find?_some hb)⟩

omit [BEq α] [LawfulBEq α] in
/-- Where a property is lost for good, what is left after dropping it is what does not have it. -/
theorem mem_dropWhile_iff {p : α → Bool} (h : xs.Pairwise fun a b => p b → p a) :
    a ∈ xs.dropWhile p ↔ a ∈ xs ∧ ¬ p a := by
  induction xs with
  | nil => simp
  | cons x xs ih =>
    obtain ⟨hx, hxs⟩ := List.pairwise_cons.mp h
    rw [List.dropWhile_cons, List.mem_cons]
    split_ifs with hp
    · rw [ih hxs]
      constructor
      · rintro ⟨hmem, hnot⟩
        exact ⟨.inr hmem, hnot⟩
      · rintro ⟨rfl | hmem, hnot⟩
        · exact absurd hp hnot
        · exact ⟨hmem, hnot⟩
    · rw [List.mem_cons, iff_self_and]
      rintro (rfl | hmem) hpa
      · exact hp hpa
      · exact hp (hx a hmem hpa)

omit [BEq α] [LawfulBEq α] in
theorem mem_dropWhile_of_not {p : α → Bool} (ha : a ∈ xs) (hp : ¬ p a) : a ∈ xs.dropWhile p := by
  rw [← List.takeWhile_append_dropWhile (p := p) (l := xs), List.mem_append] at ha
  exact ha.resolve_left fun hmem => hp (List.mem_takeWhile_imp hmem)

/-! ## The last values kept -/

omit [BEq α] [LawfulBEq α] in
theorem mem_rtake_append_cons (h : ys.length < n) : a ∈ (xs ++ a :: ys).rtake n := by
  have hle : (xs ++ a :: ys).length - n ≤ xs.length := by
    rw [List.length_append, List.length_cons]
    omega
  rw [List.rtake, List.drop_append_of_le_length hle]
  exact List.mem_append_right _ List.mem_cons_self

/-- A value is among the last `n` kept if fewer than `n` new ones came after it. -/
theorem mem_rtake_eraseDups (ha : a ∉ xs) (h : (newIn (xs ++ [a]) ys).length < n) :
    a ∈ (xs ++ a :: ys).eraseDups.rtake n := by
  have happend : xs ++ a :: ys = xs ++ [a] ++ ys := by simp
  rw [happend, eraseDups_append_eq, eraseDups_concat_of_not_mem ha, List.append_assoc]
  exact mem_rtake_append_cons h

omit [BEq α] [LawfulBEq α] in
/-- To append to the last `n + 1` values and to drop the first one, where there are too many. -/
theorem rtake_concat (xs : List α) (a : α) (n : ℕ) :
    (xs ++ [a]).rtake (n + 1) =
      if n + 1 < (xs.rtake (n + 1) ++ [a]).length then (xs.rtake (n + 1) ++ [a]).tail
      else xs.rtake (n + 1) ++ [a] := by
  have hlen : (xs.rtake (n + 1)).length = min (n + 1) xs.length := by
    rw [List.rtake, List.length_drop]
    omega
  rw [List.rtake_concat_succ, List.length_append, hlen, List.length_singleton]
  split_ifs with h
  · have hdrop : (xs.rtake (n + 1)).drop 1 = xs.rtake n := by
      rw [List.rtake, List.rtake, List.drop_drop]
      congr 1
      omega
    have hne : xs.rtake (n + 1) ≠ [] := by
      intro hnil
      rw [hnil, List.length_nil] at hlen
      omega
    rw [List.tail_append_of_ne_nil hne, ← List.drop_one, hdrop]
  · have hall : xs.rtake n = xs.rtake (n + 1) := by
      rw [List.rtake, List.rtake]
      congr 1
      omega
    rw [hall]

end NatsDemo.Lib
