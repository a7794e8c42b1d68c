import NatsDemo.Go.Json
import NatsDemo.Go.Rounding

/-!
# Writing a decoded value and reading it again

What has come out of a document, an entry of a payload above all, is written and read
again on its way through the services.  It stays the same up to the order in which the
entries of a map are kept, and that order does not show when it is written.
-/

namespace NatsDemo.Go

mutual

/-- What can come out of a document: numbers are rounded, and a key of a map has one
entry. -/
def Value.Wf : Value → Prop
  | .float q => roundToFloat64 q = some q
  | .slice xs => Value.WfAll xs
  | .map m => Value.WfEntries m
  | _ => True

def Value.WfAll : List Value → Prop
  | [] => True
  | x :: xs => x.Wf ∧ Value.WfAll xs

def Value.WfEntries : List (String × Value) → Prop
  | [] => True
  | (k, v) :: m => (k ∉ GoMap.keys m ∧ v.Wf) ∧ Value.WfEntries m

end

theorem wfEntries_iff {m : GoMap Value} :
    Value.WfEntries m ↔ m.keys.Nodup ∧ ∀ e ∈ m, e.2.Wf := by
  induction m with
  | nil => simp [Value.WfEntries]
  | cons e m ih =>
    obtain ⟨k, v⟩ := e
    simp only [Value.WfEntries, ih, GoMap.keys_cons, List.nodup_cons, List.forall_mem_cons]
    tauto

theorem wfEntries_set {m : GoMap Value} (hm : Value.WfEntries m) (k : String) {v : Value}
    (hv : v.Wf) : Value.WfEntries (m.set k v) := by
  rw [wfEntries_iff] at hm ⊢
  refine ⟨GoMap.nodup_keys_set hm.1 k v, ?_⟩
  intro e he
  rcases List.mem_cons.mp he with rfl | he
  · exact hv
  · exact hm.2 e (List.mem_filter.mp he).1

theorem wfEntries_filter {m : GoMap Value} (hm : Value.WfEntries m) (p : String × Value → Bool) :
    Value.WfEntries (m.filter p) := by
  rw [wfEntries_iff] at hm ⊢
  exact ⟨hm.1.sublist (List.filter_sublist.map Prod.fst),
    fun e he => hm.2 e (List.mem_filter.mp he).1⟩

theorem wf_ofNumber (q : ℚ) : (Value.ofNumber q).Wf := by
  rw [Value.ofNumber]
  cases h : roundToFloat64 q with
  | none => trivial
  | some v => exact round_round h

mutual

theorem wf_toValue : ∀ j : Json, j.toValue.Wf
  | .null | .bool _ | .str _ => trivial
  | .int n => wf_ofNumber n
  | .frac q => wf_ofNumber q
  | .arr xs => wf_toValues xs
  | .obj fields => wf_addTo fields (m := []) trivial

theorem wf_toValues : ∀ xs : List Json, Value.WfAll (Json.toValues xs)
  | [] => trivial
  | x :: xs => ⟨wf_toValue x, wf_toValues xs⟩

theorem wf_addTo : ∀ (fields : List (String × Json)) {m : GoMap Value}, Value.WfEntries m →
    Value.WfEntries (Json.addTo m fields)
  | [], _, hm => hm
  | (k, v) :: fields, _, hm => wf_addTo fields (wfEntries_set hm k (wf_toValue v))

end

/-! ## Writing and reading a map -/

theorem toFields_eq (m : GoMap Value) :
    Value.toFields m = m.map fun e => (e.1, e.2.toJson) := by
  induction m with
  | nil => rfl
  | cons e m ih =>
    obtain ⟨k, v⟩ := e
    rw [Value.toFields, ih, List.map_cons]

theorem keys_toFields (m : GoMap Value) : GoMap.keys (Value.toFields m) = m.keys := by
  simp [toFields_eq, GoMap.keys, Function.comp_def]

/-- Entries with keys of their own pile up. -/
theorem addTo_eq {fields : List (String × Json)} {m : GoMap Value}
    (hnodup : (GoMap.keys fields).Nodup) (hnew : ∀ k ∈ GoMap.keys fields, k ∉ m.keys) :
    Json.addTo m fields = (fields.map fun e => (e.1, e.2.toValue)).reverse ++ m := by
  induction fields generalizing m with
  | nil => rfl
  | cons e fields ih =>
    obtain ⟨k, v⟩ := e
    obtain ⟨hk, hnodup⟩ := List.nodup_cons.mp hnodup
    have hfilter : m.filter (fun e => !decide (e.1 = k)) = m := by
      rw [List.filter_eq_self]
      intro e he
      have hne : e.1 ≠ k := by
        rintro rfl
        exact hnew _ List.mem_cons_self (GoMap.mem_keys_of_mem he)
      simp [hne]
    have hset : m.set k v.toValue = (k, v.toValue) :: m := by rw [GoMap.set, hfilter]
    rw [Json.addTo, hset, ih hnodup]
    · simp
    · intro k' hk'
      have hne : k' ≠ k := by
        rintro rfl
        exact hk hk'
      simpa [hne] using hnew k' (List.mem_cons_of_mem k hk')

/-- The map as it is read from what was written of it. -/
def reread (m : GoMap Value) : GoMap Value := Json.addTo [] (GoMap.sorted (Value.toFields m))

theorem sorted_keys_nodup {m : GoMap Value} (hm : m.keys.Nodup) :
    (GoMap.keys (GoMap.sorted (Value.toFields m))).Nodup := by
  have hperm := (GoMap.sorted_perm (Value.toFields m)).map Prod.fst
  rw [GoMap.keys, hperm.nodup_iff, ← GoMap.keys, keys_toFields]
  exact hm

theorem reread_eq {m : GoMap Value} (hm : m.keys.Nodup) : reread m =
    ((GoMap.sorted (Value.toFields m)).map fun e => (e.1, e.2.toValue)).reverse := by
  rw [reread, addTo_eq (sorted_keys_nodup hm) (by simp), List.append_nil]

theorem reread_perm {m : GoMap Value} (hm : m.keys.Nodup) :
    (reread m).Perm (m.map fun e => (e.1, e.2.toJson.toValue)) := by
  rw [reread_eq hm]
  refine (List.reverse_perm _).trans ?_
  refine ((GoMap.sorted_perm (Value.toFields m)).map fun e => (e.1, e.2.toValue)).trans ?_
  rw [toFields_eq, List.map_map]
  rfl

theorem wfEntries_reread (m : GoMap Value) : Value.WfEntries (reread m) :=
  wf_addTo _ (m := []) trivial

/-- Each entry is read as it was written. -/
theorem get?_reread {m : GoMap Value} (hm : m.keys.Nodup) (k : String) :
    (reread m).get? k = (m.get? k).map fun v => v.toJson.toValue := by
  have hnodup : (reread m).keys.Nodup := (wfEntries_iff.mp (wfEntries_reread m)).1
  rw [GoMap.get?_of_perm (reread_perm hm) hnodup]
  exact GoMap.get?_map (fun v => v.toJson.toValue) m k

theorem sorted_toFields_reread {m : GoMap Value} (hm : m.keys.Nodup)
    (hsame : ∀ e ∈ m, e.2.toJson.toValue.toJson = e.2.toJson) :
    GoMap.sorted (Value.toFields (reread m)) = GoMap.sorted (Value.toFields m) := by
  have hperm : (Value.toFields (reread m)).Perm (Value.toFields m) := by
    have h := (reread_perm hm).map fun e => (e.1, e.2.toJson)
    have hmap : ((m.map fun e => (e.1, e.2.toJson.toValue)).map fun e => (e.1, e.2.toJson)) =
        m.map fun e => (e.1, e.2.toJson) := by
      rw [List.map_map]
      exact List.map_congr_left fun e he => Prod.ext rfl (hsame e he)
    rw [toFields_eq, toFields_eq]
    exact hmap ▸ h
  refine GoMap.sorted_eq_of_perm hperm ?_
  rw [keys_toFields]
  exact (wfEntries_iff.mp (wfEntries_reread m)).1

/-! ## Writing and reading a value -/

theorem toValue_ofFloat {q : ℚ} (hq : roundToFloat64 q = some q) :
    (Json.ofFloat q).toValue = .float q := by
  have hnum : Value.ofNumber q = .float q := by rw [Value.ofNumber, hq]; rfl
  rw [Json.ofFloat]
  split_ifs with h
  · have hint : (q.num : ℚ) = q := (Rat.den_eq_one_iff q).mp h.1
    rw [Json.toValue, hint, hnum]
  · exact hnum

mutual

/-- What was read stays the same when it is written and read again. -/
theorem toJson_toValue_toJson : ∀ v : Value, v.Wf → v.toJson.toValue.toJson = v.toJson
  | .nil, _ | .bool _, _ | .str _, _ => rfl
  | .float q, h => by rw [Value.toJson, toValue_ofFloat h, Value.toJson]
  | .slice xs, h => by
    rw [Value.toJson, Json.toValue, Value.toJson, toJsons_toValues_toJsons xs h]
  | .map m, h => by
    rw [Value.toJson, Json.toValue, Value.toJson]
    exact congrArg Json.obj (sorted_toFields_reread (wfEntries_iff.mp h).1 (toJson_entries m h))

theorem toJsons_toValues_toJsons : ∀ xs : List Value, Value.WfAll xs →
    Value.toJsons (Json.toValues (Value.toJsons xs)) = Value.toJsons xs
  | [], _ => rfl
  | x :: xs, h => by
    rw [Value.toJsons, Json.toValues, Value.toJsons, toJson_toValue_toJson x h.1,
      toJsons_toValues_toJsons xs h.2]

theorem toJson_entries : ∀ m : List (String × Value), Value.WfEntries m →
    ∀ e ∈ m, e.2.toJson.toValue.toJson = e.2.toJson
  | [], _, _, he => absurd he List.not_mem_nil
  | (_, v) :: m, h, e, he => by
    rcases List.mem_cons.mp he with rfl | he
    · exact toJson_toValue_toJson v h.1.2
    · exact toJson_entries m h.2 e he

end

theorem fitsFields_iff {fields : List (String × Json)} :
    Json.fitsFields fields = true ↔ ∀ e ∈ fields, e.2.fits = true := by
  induction fields with
  | nil => simp [Json.fitsFields]
  | cons e fields ih =>
    obtain ⟨k, v⟩ := e
    simp [Json.fitsFields, ih]

theorem fitsFields_sorted {fields : List (String × Json)} :
    Json.fitsFields (GoMap.sorted fields) = Json.fitsFields fields := by
  rw [Bool.eq_iff_iff, fitsFields_iff, fitsFields_iff]
  exact forall_congr' fun e => by rw [(GoMap.sorted_perm fields).mem_iff]

mutual

theorem fits_toJson : ∀ v : Value, v.Wf → v.toJson.fits = true
  | .nil, _ | .bool _, _ | .str _, _ => rfl
  | .float q, h => by
    have hq : (roundToFloat64 q).isSome = true := by
      rw [show roundToFloat64 q = some q from h]
      rfl
    rw [Value.toJson, Json.ofFloat]
    split_ifs with hint
    · rwa [Json.fits, (Rat.den_eq_one_iff q).mp hint.1]
    · exact hq
  | .slice xs, h => fitsAll_toJsons xs h
  | .map m, h => fitsFields_sorted.trans (fitsFields_toFields m h)

theorem fitsAll_toJsons : ∀ xs : List Value, Value.WfAll xs →
    Json.fitsAll (Value.toJsons xs) = true
  | [], _ => rfl
  | x :: xs, h => by
    rw [Value.toJsons, Json.fitsAll, fits_toJson x h.1, fitsAll_toJsons xs h.2]
    rfl

theorem fitsFields_toFields : ∀ m : List (String × Value), Value.WfEntries m →
    Json.fitsFields (Value.toFields m) = true
  | [], _ => rfl
  | (_, v) :: m, h => by
    rw [Value.toFields, Json.fitsFields, fits_toJson v h.1.2, fitsFields_toFields m h.2]
    rfl

end

/-! ## Reading strings -/

/-- Strings under keys of their own pile up. -/
theorem addStrings_eq {fields : List (String × String)} {m : GoMap String}
    (hnodup : (GoMap.keys fields).Nodup) (hnew : ∀ k ∈ GoMap.keys fields, k ∉ m.keys) :
    addStrings m (fields.map fun e => (e.1, Json.str e.2)) = (fields.reverse ++ m, true) := by
  induction fields generalizing m with
  | nil => rfl
  | cons e fields ih =>
    obtain ⟨k, x⟩ := e
    obtain ⟨hk, hnodup⟩ := List.nodup_cons.mp hnodup
    have hset : m.set k x = (k, x) :: m := GoMap.set_of_not_mem (hnew k List.mem_cons_self) x
    rw [List.map_cons, addStrings, hset, ih hnodup]
    · simp
    · intro k' hk'
      have hne : k' ≠ k := by
        rintro rfl
        exact hk hk'
      simpa [hne] using hnew k' (List.mem_cons_of_mem k hk')

/-! ## Structs -/

section
variable {S : Type} {table : List (String × FieldDecoder S)}

/-- What every field keeps, the whole of a document keeps. -/
theorem decodeFields_inv {P : S → Prop} (hkeep : ∀ f ∈ table, ∀ v s, P s → P (f.2 v s).1)
    (fields : List (String × Json)) {s : S} (hs : P s) : P (decodeFields table fields s).1 := by
  induction fields generalizing s with
  | nil => exact hs
  | cons e fields ih =>
    obtain ⟨key, v⟩ := e
    refine ih ?_
    rw [decodeKey]
    cases hfind : table.find? fun f => foldName f.1 = foldName key with
    | none => exact hs
    | some f => exact hkeep f (List.mem_of_find?_eq_some hfind) v s hs

theorem unmarshal_inv {P : S → Prop} (hkeep : ∀ f ∈ table, ∀ v s, P s → P (f.2 v s).1)
    {zero : S} (hzero : P zero) (data : Option Json) : P (unmarshal table zero data).1 := by
  cases data with
  | none => exact hzero
  | some j =>
    cases j with
    | obj fields => exact decodeFields_inv hkeep fields hzero
    | _ => exact hzero

theorem stringField_inv {P : S → Prop} {set : S → String → S} (h : ∀ s x, P s → P (set s x))
    (v : Json) (s : S) (hs : P s) : P (stringField set v s).1 := by
  cases v <;> first | exact h s _ hs | exact hs

theorem intField_inv {P : S → Prop} {lo hi : ℤ} {set : S → ℤ → S}
    (h : ∀ s n, P s → P (set s n)) (v : Json) (s : S) (hs : P s) :
    P (intField lo hi set v s).1 := by
  cases v with
  | int n =>
    rw [intField]
    split_ifs
    · exact h s n hs
    · exact hs
  | _ => exact hs

theorem decodeFields_cons (key : String) (v : Json) (fields : List (String × Json)) {s s' : S}
    (hkey : decodeKey table key v s = (s', true)) :
    decodeFields table ((key, v) :: fields) s = decodeFields table fields s' := by
  simp only [decodeFields, hkey, Bool.true_and, Prod.mk.eta]

/-- A field that is left out when it is empty is read as the empty string. -/
theorem decodeFields_omitEmpty (name x : String) (fields : List (String × Json)) {s s' : S}
    (hkey : decodeKey table name (.str x) s = (s', true)) (hempty : x = "" → s' = s) :
    decodeFields table (omitEmpty name x ++ fields) s = decodeFields table fields s' := by
  rw [omitEmpty]
  split_ifs with hx
  · rw [hempty hx, List.nil_append]
  · exact decodeFields_cons name (.str x) fields hkey

end

end NatsDemo.Go
