import NatsDemo.Go.RoundTrip
import NatsDemo.Jobs.Model

/-!
# Jobs written and read again

The services hand jobs on by writing them, and the next one reads what was written.
-/

namespace NatsDemo.Jobs
open Go

/-- The payload is as it comes out of a document. -/
def Payload.Wf (p : Payload) : Prop := ∀ m, p = some m → Value.WfEntries m

theorem anyMapField_inv {S : Type} {get : S → Payload} {set : S → Payload → S}
    (hget : ∀ s p, get (set s p) = p) (v : Json) (s : S) (hs : (get s).Wf) :
    (get (anyMapField get set v s).1).Wf := by
  cases v with
  | obj fields =>
    rw [anyMapField, hget]
    intro m hm
    obtain rfl := Option.some_inj.mp hm
    refine wf_addTo fields ?_
    cases hp : get s with
    | none => exact trivial
    | some m => exact hs m hp
  | null =>
    rw [anyMapField, hget]
    intro m hm
    cases hm
  | _ => exact hs

theorem Job.payload_wf (data : Option Json) : (Job.unmarshal data).1.payload.Wf := by
  have hzero : Payload.Wf none := by
    intro m hm
    cases hm
  refine unmarshal_inv (P := fun j : Job => j.payload.Wf) ?_ hzero data
  simp only [Job.fields, List.forall_mem_cons]
  refine ⟨?_, ?_, ?_, ?_, ?_, ?_, ?_, ?_, ?_, ?_, nofun⟩
  case refine_8 => intro v s hs; cases v <;> exact hs
  case refine_9 => exact anyMapField_inv fun _ _ => rfl
  all_goals exact stringField_inv fun _ _ => id

theorem Job.wf_of_parse {data : Option Json} {job : Job} (h : Job.parse data = some job) :
    job.payload.Wf := by
  rw [Job.parse] at h
  split_ifs at h
  obtain rfl := Option.some_inj.mp h
  exact Job.payload_wf data

/-- A payload read into a field that is empty. -/
theorem anyMapField_marshalMap {S : Type} {get : S → Payload} {set : S → Payload → S} {p : Payload}
    (hp : p.Wf) {s : S} (hempty : get s = none) :
    anyMapField get set (marshalMap p) s = (set s (p.map reread), true) := by
  cases p with
  | none => rfl
  | some m =>
    have hfits : Json.fitsFields (GoMap.sorted (Value.toFields m)) = true :=
      fitsFields_sorted.trans (fitsFields_toFields m (hp m rfl))
    rw [marshalMap, Value.toJson, anyMapField, hempty, hfits]
    rfl

/-- A job without headers is read as it was written, its payload entry by entry. -/
theorem Job.parse_marshal {j : Job} (hheaders : j.headers = none) (hp : j.payload.Wf) :
    Job.parse (some j.marshal) = some { j with payload := j.payload.map reread } := by
  have hdecode : Job.unmarshal (some j.marshal) =
      ({ j with payload := j.payload.map reread }, true) := by
    obtain ⟨jobID, type, subject, mode, msgID, source, contentType, headers, payload, traceID⟩ := j
    obtain rfl : headers = none := hheaders
    have hpayload (s : Job) (hs : s.payload = none) : decodeKey Job.fields "payload"
        (marshalMap payload) s = ({ s with payload := payload.map reread }, true) :=
      @anyMapField_marshalMap Job Job.payload (fun j m => { j with payload := m }) payload hp s hs
    simp only [Job.unmarshal, Go.unmarshal, Job.marshal, Job.headerField, List.append_nil,
      List.append_assoc, List.cons_append]
    rw [decodeFields_cons _ _ _ rfl]
    rw [decodeFields_omitEmpty _ _ _ rfl (by intro h; subst h; rfl)]
    rw [decodeFields_omitEmpty _ _ _ rfl (by intro h; subst h; rfl)]
    rw [decodeFields_omitEmpty _ _ _ rfl (by intro h; subst h; rfl)]
    rw [decodeFields_omitEmpty _ _ _ rfl (by intro h; subst h; rfl)]
    rw [decodeFields_omitEmpty _ _ _ rfl (by intro h; subst h; rfl)]
    rw [decodeFields_omitEmpty _ _ _ rfl (by intro h; subst h; rfl)]
    rw [decodeFields_cons _ _ _ (hpayload _ rfl)]
    rw [← List.append_nil (omitEmpty "trace_id" traceID)]
    rw [decodeFields_omitEmpty _ _ _ rfl (by intro h; subst h; rfl)]
    rfl
  rw [Job.parse, hdecode]
  rfl

end NatsDemo.Jobs
