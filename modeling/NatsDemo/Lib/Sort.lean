import Mathlib.Data.List.Sort
import Mathlib.Order.Defs.LinearOrder

/-!
# Stable sorting by a key

Elements with one key keep their order.  So when a list has its pairs in some relation, the
sorted list has them in that relation too unless a pair with different keys is against it.
-/

namespace NatsDemo.Lib

variable {α β : Type} [LinearOrder β] (key : α → β)

/-- The stable sort in the order of the keys. -/
def sortOn (l : List α) : List α := l.mergeSort fun a b => decide (key a ≤ key b)

theorem sortOn_perm (l : List α) : (sortOn key l).Perm l := List.mergeSort_perm l _

private theorem key_trans (a b c : α) (hab : decide (key a ≤ key b))
    (hbc : decide (key b ≤ key c)) :
    decide (key a ≤ key c) :=
  decide_eq_true (le_trans (of_decide_eq_true hab) (of_decide_eq_true hbc))

private theorem key_total (a b : α) : decide (key a ≤ key b) || decide (key b ≤ key a) := by
  simpa using le_total (key a) (key b)

theorem sortOn_pairwise_le (l : List α) : (sortOn key l).Pairwise fun a b => key a ≤ key b := by
  have h := List.pairwise_mergeSort (key_trans key) (key_total key) l
  exact h.imp fun hab => of_decide_eq_true hab

/-- **Stability.**  The elements with one key stay in their order. -/
theorem filter_sortOn (l : List α) (k : β) :
    (sortOn key l).filter (fun a => key a = k) = l.filter fun a => key a = k := by
  have hclass : (l.filter fun a => key a = k).Pairwise fun a b => decide (key a ≤ key b) := by
    refine List.pairwise_of_forall_mem_list ?_
    intro a ha b hb
    have hka : key a = k := by simpa using (List.mem_filter.mp ha).2
    have hkb : key b = k := by simpa using (List.mem_filter.mp hb).2
    simp [hka, hkb]
  have hsub := (List.sublist_mergeSort (key_trans key) (key_total key) hclass
    List.filter_sublist).filter fun a => key a = k
  rw [List.filter_filter] at hsub
  simp only [Bool.and_self] at hsub
  have hlen := ((sortOn_perm key l).filter fun a => key a = k).length_eq
  exact (hsub.eq_of_length hlen.symm).symm

section
variable {key} {D : α → α → Prop} {l : List α}

/-- A list in order is determined by its elements with each key. -/
theorem eq_of_filter_eq {l' : List α} (hl : l.Pairwise fun a b => key a ≤ key b)
    (hl' : l'.Pairwise fun a b => key a ≤ key b)
    (h : ∀ k, l.filter (fun a => key a = k) = l'.filter fun a => key a = k) : l = l' := by
  induction l generalizing l' with
  | nil =>
    cases l' with
    | nil => rfl
    | cons b l' => simpa using h (key b)
  | cons a l ih =>
    cases l' with
    | nil => simpa using h (key a)
    | cons b l' =>
      obtain ⟨hal, htail⟩ := List.pairwise_cons.mp hl
      obtain ⟨hbl, htail'⟩ := List.pairwise_cons.mp hl'
      have hfirst := h (key a)
      have ha : a ∈ b :: l' := by
        have hmem : a ∈ (a :: l).filter fun c => key c = key a := by simp
        rw [hfirst] at hmem
        exact (List.mem_filter.mp hmem).1
      have hb : b ∈ a :: l := by
        have hmem : b ∈ (b :: l').filter fun c => key c = key b := by simp
        rw [← h (key b)] at hmem
        exact (List.mem_filter.mp hmem).1
      -- the first of each list is not above any element of the other
      have hkey : key b = key a := by
        refine le_antisymm ?_ ?_
        · cases List.mem_cons.mp ha with
          | inl heq => rw [heq]
          | inr hmem => exact hbl a hmem
        · cases List.mem_cons.mp hb with
          | inl heq => rw [heq]
          | inr hmem => exact hal b hmem
      rw [List.filter_cons_of_pos (by simp), List.filter_cons_of_pos (by simp [hkey])] at hfirst
      obtain ⟨rfl, -⟩ := List.cons_eq_cons.mp hfirst
      refine congrArg (a :: ·) (ih htail htail' ?_)
      intro k
      have hk := h k
      rw [List.filter_cons, List.filter_cons] at hk
      split_ifs at hk
      · exact (List.cons_eq_cons.mp hk).2
      · exact hk

/-- The sorted list depends only on the order of the elements with one key. -/
theorem sortOn_congr {l' : List α}
    (h : ∀ k, l.filter (fun a => key a = k) = l'.filter fun a => key a = k) :
    sortOn key l = sortOn key l' := by
  refine eq_of_filter_eq (sortOn_pairwise_le key l) (sortOn_pairwise_le key l') ?_
  intro k
  rw [filter_sortOn, filter_sortOn, h k]

/-- Elements with keys of their own are sorted in one way, wherever they come from. -/
theorem filter_eq_of_perm {l' : List α} (h : l.Perm l')
    (hkey : l.Pairwise fun a b => key a ≠ key b) (k : β) :
    l.filter (fun a => key a = k) = l'.filter fun a => key a = k := by
  have hclass := h.filter fun a => decide (key a = k)
  have hone : (l.filter fun a => decide (key a = k)).Pairwise fun _ _ => False := by
    refine (hkey.filter _).imp_of_mem ?_
    intro a b ha hb hne
    have hka : key a = k := by simpa using (List.mem_filter.mp ha).2
    have hkb : key b = k := by simpa using (List.mem_filter.mp hb).2
    exact hne (hka.trans hkb.symm)
  generalize l.filter (fun a => decide (key a = k)) = m at hclass hone
  match m, hone with
  | [], _ => exact (List.nil_perm.mp hclass).symm
  | [a], _ => exact (List.singleton_perm.mp hclass)
  | a :: b :: m, hone => cases (List.pairwise_cons.mp hone).1 b List.mem_cons_self

/-- What the sorted list of a list in order looks like, exactly. -/
theorem sortOn_pairwise_iff (h : l.Pairwise D) :
    (sortOn key l).Pairwise D ↔ ∀ a ∈ l, ∀ b ∈ l, key a < key b → D a b := by
  have hmem (a : α) : a ∈ sortOn key l ↔ a ∈ l := (sortOn_perm key l).mem_iff
  have hsorted := sortOn_pairwise_le key l
  constructor
  · intro hD a ha b hb hlt
    obtain ⟨i, hi, rfl⟩ := List.getElem_of_mem ((hmem a).mpr ha)
    obtain ⟨j, hj, rfl⟩ := List.getElem_of_mem ((hmem b).mpr hb)
    rcases Nat.lt_trichotomy i j with hij | rfl | hij
    · exact List.pairwise_iff_getElem.mp hD i j hi hj hij
    · exact absurd hlt (lt_irrefl _)
    · exact absurd hlt (not_lt.mpr (List.pairwise_iff_getElem.mp hsorted j i hj hi hij))
  · intro hD
    rw [List.pairwise_iff_forall_sublist]
    intro a b hab
    have hle : key a ≤ key b := List.pairwise_iff_forall_sublist.mp hsorted hab
    cases lt_or_eq_of_le hle with
    | inl hlt =>
      have ha : a ∈ l := (hmem a).mp (hab.subset List.mem_cons_self)
      have hb : b ∈ l := (hmem b).mp (hab.subset (List.mem_cons_of_mem a List.mem_cons_self))
      exact hD a ha b hb hlt
    | inr heq =>
      -- the two are among the elements with their key, which did not move
      have hclass := hab.filter fun c => key c = key b
      rw [filter_sortOn] at hclass
      simp only [heq, decide_true, List.filter_cons_of_pos, List.filter_nil] at hclass
      exact List.pairwise_iff_forall_sublist.mp h (hclass.trans List.filter_sublist)

end

end NatsDemo.Lib
