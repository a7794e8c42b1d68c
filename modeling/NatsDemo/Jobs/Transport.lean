import NatsDemo.Jobs.RoundTrip

/-!
# Jobs in transit

A job with headers, written by one service and read by the next.  The maps may come out in
another order; everything that the services look at in a job stays what it was, and so does
what is written of it the next time.
-/

namespace NatsDemo.Jobs
open Go

/-- The headers as they are read from what was written of them. -/
def rereadHeaders : Option (GoMap String) → Option (GoMap String)
  | none | some [] => none
  | some m => some (GoMap.sorted m).reverse

/-- The job as it is read from what was written of it. -/
def Job.reread (j : Job) : Job :=
  { j with headers := rereadHeaders j.headers, payload := j.payload.map Go.reread }

/-- The job is as it comes out of a document. -/
structure Job.Wf (j : Job) : Prop where
  headers : ∀ m, j.headers = some m → m.keys.Nodup
  payload : j.payload.Wf

/-! ## Reading -/

theorem stringMapField_inv {S : Type} {get : S → Option (GoMap String)}
    {set : S → Option (GoMap String) → S} (hget : ∀ s m, get (set s m) = m) (v : Json) (s : S)
    (hs : ∀ m, get s = some m → m.keys.Nodup) :
    ∀ m, get (stringMapField get set v s).1 = some m → m.keys.Nodup := by
  have hadd (fields : List (String × Json)) (m : GoMap String) (hm : m.keys.Nodup) :
      (addStrings m fields).1.keys.Nodup := by
    induction fields generalizing m with
    | nil => exact hm
    | cons e fields ih =>
      obtain ⟨k, v⟩ := e
      cases v <;> exact ih _ (GoMap.nodup_keys_set hm k _)
  cases v with
  | obj fields =>
    intro m hm
    rw [stringMapField, hget] at hm
    obtain rfl := Option.some_inj.mp hm
    refine hadd fields _ ?_
    cases hold : get s with
    | none => exact List.nodup_nil
    | some m => exact hs m hold
  | null =>
    intro m hm
    rw [stringMapField, hget] at hm
    cases hm
  | _ => exact hs

theorem Job.headers_nodup (data : Option Json) :
    ∀ m, (Job.unmarshal data).1.headers = some m → m.keys.Nodup := by
  have hzero : ∀ m, (none : Option (GoMap String)) = some m → m.keys.Nodup := by
    intro m hm
    cases hm
  refine unmarshal_inv (P := fun j : Job => ∀ m, j.headers = some m → m.keys.Nodup) ?_ hzero data
  simp only [Job.fields, List.forall_mem_cons]
  refine ⟨?_, ?_, ?_, ?_, ?_, ?_, ?_, ?_, ?_, ?_, List.forall_mem_nil _⟩
  case refine_8 => exact stringMapField_inv fun _ _ => rfl
  case refine_9 => intro v s hs; cases v <;> exact hs
  all_goals exact stringField_inv fun _ _ => id

/-- What is read from a document can be written again. -/
theorem Job.wf_unmarshal (data : Option Json) : (Job.unmarshal data).1.Wf :=
  ⟨Job.headers_nodup data, Job.payload_wf data⟩

theorem Job.decode_headerField {j : Job} (h : ∀ m, j.headers = some m → m.keys.Nodup)
    (fields : List (String × Json)) {s : Job} (hempty : s.headers = none) :
    decodeFields Job.fields (j.headerField ++ fields) s =
      decodeFields Job.fields fields { s with headers := rereadHeaders j.headers } := by
  rw [Job.headerField]
  cases hm : j.headers with
  | none => rw [rereadHeaders, List.nil_append, ← hempty]
  | some m =>
    cases m with
    | nil => rw [rereadHeaders, List.nil_append, ← hempty]
    | cons e m =>
      have hnodup : (GoMap.keys (GoMap.sorted (e :: m))).Nodup :=
        ((GoMap.sorted_perm (e :: m)).map Prod.fst).nodup_iff.mpr (h _ hm)
      have hread := addStrings_eq hnodup (m := []) (by simp)
      have hkey (v : Json) : decodeKey Job.fields "headers" v s =
          stringMapField Job.headers (fun j m => { j with headers := m }) v s := rfl
      refine decodeFields_cons _ _ _ ?_
      rw [hkey, stringMapField, hempty, Option.getD_none, hread, List.append_nil]
      rfl

/-- **A job survives the way.**  It is read from what was written of it, up to the order in
which its maps are kept. -/
theorem Job.parse_marshal_reread {j : Job} (h : j.Wf) :
    Job.parse (some j.marshal) = some j.reread := by
  have hdecode : Job.unmarshal (some j.marshal) = (j.reread, true) := by
    have hheaders (fields) (s : Job) (hs : s.headers = none) :=
      Job.decode_headerField (j := j) h.headers fields hs
    have hpayload (s : Job) (hs : s.payload = none) : decodeKey Job.fields "payload"
        (marshalMap j.payload) s = ({ s with payload := j.payload.map Go.reread }, true) :=
      @anyMapField_marshalMap Job Job.payload (fun j m => { j with payload := m }) j.payload
        h.payload s hs
    simp only [Job.unmarshal, Go.unmarshal, Job.marshal, List.append_assoc, List.cons_append]
    rw [decodeFields_cons _ _ _ rfl]
    rw [decodeFields_omitEmpty _ _ _ rfl (by intro h; rw [h])]
    rw [decodeFields_omitEmpty _ _ _ rfl (by intro h; rw [h])]
    rw [decodeFields_omitEmpty _ _ _ rfl (by intro h; rw [h])]
    rw [decodeFields_omitEmpty _ _ _ rfl (by intro h; rw [h])]
    rw [decodeFields_omitEmpty _ _ _ rfl (by intro h; rw [h])]
    rw [decodeFields_omitEmpty _ _ _ rfl (by intro h; rw [h])]
    rw [hheaders _ _ rfl]
    rw [decodeFields_cons _ _ _ (hpayload _ rfl)]
    rw [← List.append_nil (omitEmpty "trace_id" j.traceID)]
    rw [decodeFields_omitEmpty _ _ _ rfl (by intro h; rw [h])]
    rfl
  rw [Job.parse, hdecode]
  rfl

/-! ## What stays the same -/

section
variable {p : Payload}

theorem Payload.Wf.keys (hp : p.Wf) : ∀ m, p = some m → m.keys.Nodup :=
  fun m hm => (wfEntries_iff.mp (hp m hm)).1

theorem Payload.Wf.entry (hp : p.Wf) {key : String} {v : Value} (hv : p.entry key = some v) :
    v.Wf := by
  cases p with
  | none => cases hv
  | some m =>
    obtain ⟨hnodup, hwf⟩ := wfEntries_iff.mp (hp m rfl)
    exact hwf _ ((GoMap.get?_eq_some_iff hnodup).mp hv)

theorem Payload.entry_reread (hp : p.Wf) (key : String) :
    Payload.entry (p.map Go.reread) key = (p.entry key).map fun v => v.toJson.toValue := by
  cases p with
  | none => rfl
  | some m => exact get?_reread (hp.keys m rfl) key

/-- An entry is the same, unless it is a list or a map. -/
theorem Payload.entry_reread_cases (hp : p.Wf) (key : String) :
    Payload.entry (p.map Go.reread) key = p.entry key ∨
    (∃ xs ys, p.entry key = some (.slice xs) ∧
      Payload.entry (p.map Go.reread) key = some (.slice ys)) ∨
    ∃ m m', p.entry key = some (.map m) ∧
      Payload.entry (p.map Go.reread) key = some (.map m') := by
  rw [entry_reread hp]
  cases hv : p.entry key with
  | none => exact .inl rfl
  | some v =>
    cases v with
    | slice xs => exact .inr (.inl ⟨_, _, rfl, rfl⟩)
    | map m => exact .inr (.inr ⟨_, _, rfl, rfl⟩)
    | float q => exact .inl (congrArg some (toValue_ofFloat (hp.entry hv)))
    | _ => exact .inl rfl

theorem Payload.flag_reread (hp : p.Wf) (key : String) :
    Payload.flag (p.map Go.reread) key = p.flag key := by
  rw [flag, flag]
  obtain h | ⟨_, _, h, h'⟩ | ⟨_, _, h, h'⟩ := entry_reread_cases hp key
  · rw [h]
  · rw [h, h']
  · rw [h, h']

theorem Payload.text_reread (hp : p.Wf) (key : String) :
    Payload.text (p.map Go.reread) key = p.text key := by
  rw [text, text]
  obtain h | ⟨_, _, h, h'⟩ | ⟨_, _, h, h'⟩ := entry_reread_cases hp key
  · rw [h]
  · rw [h, h']
  · rw [h, h']

theorem Payload.int_reread (hp : p.Wf) (arch : Platform) (key : String) :
    Payload.int arch (p.map Go.reread) key = p.int arch key := by
  rw [int, int]
  obtain h | ⟨_, _, h, h'⟩ | ⟨_, _, h, h'⟩ := entry_reread_cases hp key
  · rw [h]
  · rw [h, h']
  · rw [h, h']

theorem Payload.positive_reread (hp : p.Wf) (arch : Platform) (key : String) (dflt : ℤ) :
    Payload.positive arch (p.map Go.reread) key dflt = p.positive arch key dflt := by
  rw [positive, positive, int_reread hp]

theorem Payload.isEmpty_reread (hp : p.Wf) :
    ((p.map Go.reread).getD []).isEmpty = (p.getD []).isEmpty := by
  cases p with
  | none => rfl
  | some m =>
    have hlength : (Go.reread m).length = m.length := by
      rw [(reread_perm (hp.keys m rfl)).length_eq, List.length_map]
    rw [Option.map_some, Option.getD_some, Option.getD_some, Bool.eq_iff_iff,
      List.isEmpty_iff_length_eq_zero, List.isEmpty_iff_length_eq_zero, hlength]

/-- What is written of it the next time is the same. -/
theorem Payload.marshalMap_reread (hp : p.Wf) : marshalMap (p.map Go.reread) = marshalMap p := by
  cases p with
  | none => rfl
  | some m =>
    rw [Option.map_some, marshalMap, marshalMap, Value.toJson, Value.toJson]
    exact congrArg Json.obj (sorted_toFields_reread (hp.keys m rfl) (toJson_entries m (hp m rfl)))

end

end NatsDemo.Jobs
