import Mathlib.Algebra.GroupWithZero.Nat
import Mathlib.Data.List.Sort

/-!
# Go maps with string keys

A map is the list of its entries, the latest binding of a key first.  A missing key
reads as nothing, to be turned into the zero value by the caller; the order of a
`range` over a map is not fixed by Go, so nothing below depends on it.
-/

namespace NatsDemo.Go

/-- A non-nil `map[string]α`. -/
abbrev GoMap (α : Type) := List (String × α)

namespace GoMap
variable {α β : Type}

def get? (m : GoMap α) (k : String) : Option α := List.lookup k m

def set (m : GoMap α) (k : String) (v : α) : GoMap α :=
  (k, v) :: m.filter fun e => !decide (e.1 = k)

@[simp] theorem get?_nil (k : String) : get? ([] : GoMap α) k = none := rfl

theorem get?_cons (e : String × α) (m : GoMap α) (k : String) :
    get? (e :: m : GoMap α) k = if k = e.1 then some e.2 else get? m k := by
  obtain ⟨a, v⟩ := e
  by_cases h : k = a
  · simp [get?, h]
  · simp [get?, List.lookup_cons, beq_false_of_ne h, h]

theorem get?_filter_ne (m : GoMap α) {k k' : String} (h : k' ≠ k) :
    get? (m.filter fun e => !decide (e.1 = k)) k' = get? m k' := by
  induction m with
  | nil => rfl
  | cons e m ih =>
    by_cases he : e.1 = k
    · have hk : k' ≠ e.1 := by rwa [he]
      simp [he, get?_cons, h, ih]
    · simp [he, get?_cons, ih]

theorem get?_filter_self (m : GoMap α) (k : String) :
    get? (m.filter fun e => !decide (e.1 = k)) k = none := by
  induction m with
  | nil => rfl
  | cons e m ih =>
    by_cases he : e.1 = k
    · simpa [he] using ih
    · have hk : ¬ k = e.1 := fun h => he h.symm
      simpa [he, get?_cons, hk] using ih

@[simp] theorem get?_set_self (m : GoMap α) (k : String) (v : α) :
    (m.set k v).get? k = some v := by simp [set, get?_cons]

@[simp] theorem get?_set_of_ne (m : GoMap α) {k k' : String} (v : α) (h : k' ≠ k) :
    (m.set k v).get? k' = m.get? k' := by
  rw [set, get?_cons, if_neg h, get?_filter_ne m h]

/-- The entries in the order of their keys, as `encoding/json` writes a map. -/
def sorted (m : GoMap α) : List (String × α) := m.insertionSort (·.1 ≤ ·.1)

/-! ## Maps with one binding of each key -/

def keys (m : GoMap α) : List String := List.map Prod.fst m

@[simp] theorem keys_nil : keys ([] : GoMap α) = [] := rfl
@[simp] theorem keys_cons (e : String × α) (m : GoMap α) : keys (e :: m) = e.1 :: keys m := rfl

theorem mem_keys_of_mem {m : GoMap α} {k : String} {v : α} (h : (k, v) ∈ m) : k ∈ m.keys :=
  List.mem_map_of_mem (f := Prod.fst) h

theorem mem_keys_iff {m : GoMap α} {k : String} : k ∈ m.keys ↔ ∃ v, m.get? k = some v := by
  induction m with
  | nil => simp
  | cons e m ih =>
    rw [keys_cons, List.mem_cons, get?_cons, ih]
    split_ifs with h
    · simp [h]
    · simp [h]

theorem mem_keys_set {m : GoMap α} {k k' : String} {v : α} :
    k' ∈ (m.set k v).keys ↔ k' = k ∨ k' ∈ m.keys := by
  by_cases h : k' = k
  · simp [h, mem_keys_iff]
  · simp [h, mem_keys_iff]

theorem get?_eq_some_iff {m : GoMap α} (hm : m.keys.Nodup) {k : String} {v : α} :
    m.get? k = some v ↔ (k, v) ∈ m := by
  induction m with
  | nil => simp
  | cons e m ih =>
    obtain ⟨hnot, hm⟩ := List.nodup_cons.mp hm
    rw [get?_cons, List.mem_cons]
    split_ifs with h
    · subst h
      have habsent : (e.1, v) ∉ m := fun hmem => hnot (mem_keys_of_mem hmem)
      simp [habsent, Prod.ext_iff, eq_comm]
    · simp [Prod.ext_iff, h, ih hm]

theorem get?_of_perm {m m' : GoMap α} (h : m.Perm m') (hm : m.keys.Nodup) (k : String) :
    m.get? k = m'.get? k := by
  have hm' : m'.keys.Nodup := (h.map Prod.fst).nodup_iff.mp hm
  apply Option.ext
  intro v
  rw [get?_eq_some_iff hm, get?_eq_some_iff hm', h.mem_iff]

theorem get?_map (f : α → β) (m : GoMap α) (k : String) :
    get? (m.map fun e => (e.1, f e.2)) k = (m.get? k).map f := by
  induction m with
  | nil => rfl
  | cons e m ih =>
    rw [List.map_cons, get?_cons, get?_cons]
    split_ifs
    · rfl
    · exact ih

theorem get?_filter (P : String → Prop) [DecidablePred P] (m : GoMap α) (k : String) :
    get? (m.filter fun e => P e.1) k = if P k then m.get? k else none := by
  induction m with
  | nil => simp
  | cons e m ih =>
    by_cases he : P e.1
    · rw [List.filter_cons_of_pos (by simpa using he), get?_cons, get?_cons, ih]
      by_cases hk : k = e.1
      · subst hk
        rw [if_pos rfl, if_pos he, if_pos rfl]
      · rw [if_neg hk, if_neg hk]
    · rw [List.filter_cons_of_neg (by simpa using he), get?_cons, ih]
      by_cases hk : k = e.1
      · subst hk
        rw [if_neg he, if_neg he]
      · rw [if_neg hk]

theorem nodup_keys_set {m : GoMap α} (hm : m.keys.Nodup) (k : String) (v : α) :
    (m.set k v).keys.Nodup := by
  refine List.nodup_cons.mpr ⟨?_, ?_⟩
  · intro h
    obtain ⟨e, he, hk⟩ := List.mem_map.mp h
    have hne : e.1 ≠ k := by simpa using (List.mem_filter.mp he).2
    exact hne hk
  · exact hm.sublist (List.filter_sublist.map Prod.fst)

/-- A new key stands in front of the others. -/
theorem set_of_not_mem {m : GoMap α} {k : String} (h : k ∉ m.keys) (v : α) :
    m.set k v = (k, v) :: m := by
  have hfilter : m.filter (fun e => !decide (e.1 = k)) = m := by
    rw [List.filter_eq_self]
    intro e he
    have hne : e.1 ≠ k := by
      rintro rfl
      exact h (mem_keys_of_mem he)
    simp [hne]
  rw [set, hfilter]

theorem sorted_perm (m : GoMap α) : (sorted m).Perm m := List.perm_insertionSort _ m

/-- The order in which a map is kept does not show when it is written. -/
theorem sorted_eq_of_perm {m m' : GoMap α} (h : m.Perm m') (hm : m.keys.Nodup) :
    sorted m = sorted m' := by
  have htotal : Std.Total fun e e' : String × α => e.1 ≤ e'.1 :=
    ⟨fun e e' => String.le_total e.1 e'.1⟩
  have htrans : IsTrans (String × α) fun e e' => e.1 ≤ e'.1 := ⟨fun _ _ _ => String.le_trans⟩
  refine List.Perm.eq_of_pairwise ?_ (List.pairwise_insertionSort _ m)
    (List.pairwise_insertionSort _ m') ((sorted_perm m).trans (h.trans (sorted_perm m').symm))
  intro e e' he he' hle hle'
  have hkey : e.1 = e'.1 := String.le_antisymm hle hle'
  have hmem : e ∈ m := (sorted_perm m).mem_iff.mp he
  have hmem' : e' ∈ m := h.mem_iff.mpr ((sorted_perm m').mem_iff.mp he')
  have hval : some e.2 = some e'.2 := by
    rw [← (get?_eq_some_iff hm).mpr hmem, hkey, (get?_eq_some_iff hm).mpr hmem']
  exact Prod.ext hkey (Option.some_inj.mp hval)

/-! ## Maps that grow entry by entry -/

/-- Where every entry of a list changes the value of its own key, the value of a key depends
on its own entries alone. -/
theorem get?_foldl_set {ε : Type} (key : ε → String) (f : ε → Option α → α) (es : List ε)
    (m : GoMap α) (k : String) :
    (es.foldl (fun m e => GoMap.set m (key e) (f e (GoMap.get? m (key e)))) m).get? k =
      (es.filter fun e => key e = k).foldl (fun v e => some (f e v)) (m.get? k) := by
  induction es generalizing m with
  | nil => rfl
  | cons e es ih =>
    rw [List.foldl_cons, ih]
    by_cases he : key e = k
    · subst he
      rw [get?_set_self, List.filter_cons_of_pos (by simp), List.foldl_cons]
    · rw [get?_set_of_ne _ _ (Ne.symm he), List.filter_cons_of_neg (by simpa using he)]

/-! ## Maps of counters -/

/-- The sum of the values. -/
def total (m : GoMap ℕ) : ℕ := (List.map Prod.snd m).sum

theorem total_eq_add_filter {m : GoMap ℕ} (hm : m.keys.Nodup) (k : String) :
    m.total = (m.get? k).getD 0 + total (m.filter fun e => !decide (e.1 = k)) := by
  induction m with
  | nil => rfl
  | cons e m ih =>
    obtain ⟨hnot, hm⟩ := List.nodup_cons.mp hm
    have hcons : total (e :: m) = e.2 + total m := List.sum_cons
    rw [hcons, get?_cons]
    split_ifs with h
    · subst h
      have hrest : (m.filter fun e' => !decide (e'.1 = e.1)) = m := by
        refine List.filter_eq_self.mpr fun e' he' => ?_
        have hne : e'.1 ≠ e.1 := fun h => hnot (h ▸ mem_keys_of_mem he')
        simpa using hne
      have hhead : ((e :: m).filter fun e' => !decide (e'.1 = e.1)) = m := by
        rw [List.filter_cons_of_neg (by simp), hrest]
      rw [hhead]
      rfl
    · have hkeep : total ((e :: m).filter fun e' => !decide (e'.1 = k)) =
          e.2 + total (m.filter fun e' => !decide (e'.1 = k)) := by
        rw [List.filter_cons_of_pos (by simpa using Ne.symm h)]
        exact List.sum_cons
      rw [hkeep, ih hm, Nat.add_left_comm]

/-- A key that counts one more. -/
theorem total_set_succ {m : GoMap ℕ} (hm : m.keys.Nodup) (k : String) :
    (m.set k ((m.get? k).getD 0 + 1)).total = m.total + 1 := by
  have hset : (m.set k ((m.get? k).getD 0 + 1)).total = (m.get? k).getD 0 + 1 +
      total (m.filter fun e => !decide (e.1 = k)) := List.sum_cons
  rw [hset, total_eq_add_filter hm k]
  omega

end GoMap

end NatsDemo.Go
