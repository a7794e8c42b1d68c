import Mathlib.Data.List.Basic

/-!
# Deduplicating logs

A log stores records in the order of their arrival.  A record may carry an identifier;
a publish is suppressed, though accepted, when a record with its identifier was stored
less than a window before it.  Deleting a record keeps it in the deduplication.
-/

namespace NatsDemo.Lib

structure Record (ι β : Type) where
  id : Option ι
  time : ℕ
  body : β
  deleted : Bool := false

structure Log (ι β : Type) where
  window : ℕ
  records : List (Record ι β) := []

namespace Log
variable {ι β : Type} [DecidableEq ι]

/-- A record with the identifier was stored within the window before `now`. -/
def Duplicate (l : Log ι β) (now : ℕ) (id : Option ι) : Prop :=
  id.isSome ∧ ∃ r ∈ l.records, r.id = id ∧ now < r.time + l.window

instance (l : Log ι β) (now : ℕ) (id : Option ι) : Decidable (l.Duplicate now id) :=
  inferInstanceAs (Decidable (_ ∧ ∃ r ∈ l.records, _))

def publish (l : Log ι β) (now : ℕ) (id : Option ι) (body : β) : Log ι β :=
  if l.Duplicate now id then l
  else { l with records := l.records ++ [⟨id, now, body, false⟩] }

/-- Mark the record at an index as deleted. -/
def delete (l : Log ι β) (i : ℕ) : Log ι β :=
  { l with records := l.records.modify i fun r => { r with deleted := true } }

/-- The record at an index, unless it was deleted. -/
def get? (l : Log ι β) (i : ℕ) : Option (Record ι β) :=
  (l.records[i]?).filter fun r => !r.deleted

omit [DecidableEq ι] in
theorem get?_delete (l : Log ι β) (i j : ℕ) :
    (l.delete i).get? j = if j = i then none else l.get? j := by
  rw [delete, get?, get?]
  dsimp only
  rw [List.getElem?_modify]
  by_cases hij : j = i
  · subst hij
    cases l.records[j]? <;> simp
  · simp [hij, Ne.symm hij]

@[simp] theorem publish_window (l : Log ι β) (now : ℕ) (id : Option ι) (body : β) :
    (l.publish now id body).window = l.window := by
  rw [publish]
  split <;> rfl

theorem publish_of_duplicate {l : Log ι β} {now : ℕ} {id : Option ι} (h : l.Duplicate now id)
    (body : β) : l.publish now id body = l := by simp [publish, h]

theorem publish_of_not_duplicate {l : Log ι β} {now : ℕ} {id : Option ι}
    (h : ¬ l.Duplicate now id) (body : β) :
    (l.publish now id body).records = l.records ++ [⟨id, now, body, false⟩] := by
  simp [publish, h]

/-- A record stays where it is. -/
theorem mem_publish_of_mem {l : Log ι β} {r : Record ι β} (h : r ∈ l.records) (now : ℕ)
    (id : Option ι) (body : β) : r ∈ (l.publish now id body).records := by
  by_cases hdup : l.Duplicate now id
  · rwa [publish_of_duplicate hdup]
  · rw [publish_of_not_duplicate hdup]
    exact List.mem_append_left _ h

theorem mem_publish_cases {l : Log ι β} {r : Record ι β} {now : ℕ} {id : Option ι} {body : β}
    (h : r ∈ (l.publish now id body).records) :
    r ∈ l.records ∨ ¬ l.Duplicate now id ∧ r = ⟨id, now, body, false⟩ := by
  by_cases hdup : l.Duplicate now id
  · rw [publish_of_duplicate hdup] at h
    exact Or.inl h
  · rw [publish_of_not_duplicate hdup] at h
    cases List.mem_append.mp h with
    | inl hold => exact Or.inl hold
    | inr hnew => exact Or.inr ⟨hdup, List.mem_singleton.mp hnew⟩

end Log

end NatsDemo.Lib
