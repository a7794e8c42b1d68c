import NatsDemo.Go.Json

/-!
# Jobs

The record that travels on the bus, as `encoding/json` decodes and encodes it, and the
readings of the payload's knobs.  A key missing from the payload, a payload that is
`nil` and an entry of another type all read as absent.
-/

namespace NatsDemo.Jobs
open Go

/-- A payload of type `map[string]interface{}`, which may be `nil`. -/
abbrev Payload := Option (GoMap Value)

structure Job where
  jobID : String := ""
  type : String := ""
  subject : String := ""
  deliveryMode : String := ""
  msgID : String := ""
  source : String := ""
  contentType : String := ""
  headers : Option (GoMap String) := none
  payload : Payload := none
  traceID : String := ""

namespace Job

def fields : List (String × FieldDecoder Job) :=
  [("job_id", stringField fun j x => { j with jobID := x }),
   ("type", stringField fun j x => { j with type := x }),
   ("subject", stringField fun j x => { j with subject := x }),
   ("delivery_mode", stringField fun j x => { j with deliveryMode := x }),
   ("msg_id", stringField fun j x => { j with msgID := x }),
   ("source", stringField fun j x => { j with source := x }),
   ("content_type", stringField fun j x => { j with contentType := x }),
   ("headers", stringMapField headers fun j m => { j with headers := m }),
   ("payload", anyMapField payload fun j m => { j with payload := m }),
   ("trace_id", stringField fun j x => { j with traceID := x })]

/-- `json.Unmarshal(data, &job)`: the job as far as it was decoded, and whether all of
the document fitted. -/
def unmarshal (data : Option Json) : Job × Bool := Go.unmarshal fields {} data

/-- The job of a body that decodes without an error. -/
def parse (data : Option Json) : Option Job :=
  let r := unmarshal data
  if r.2 then some r.1 else none

/-- The headers under `omitempty`, which drops an empty map as it drops a `nil` one. -/
def headerField (j : Job) : List (String × Json) :=
  match j.headers with
  | none | some [] => []
  | some m => [("headers", .obj ((GoMap.sorted m).map fun e => (e.1, .str e.2)))]

/-- `json.Marshal(job)`. -/
def marshal (j : Job) : Json :=
  .obj (("job_id", .str j.jobID) :: omitEmpty "type" j.type ++ omitEmpty "subject" j.subject ++
    omitEmpty "delivery_mode" j.deliveryMode ++ omitEmpty "msg_id" j.msgID ++
    omitEmpty "source" j.source ++ omitEmpty "content_type" j.contentType ++ j.headerField ++
    ("payload", marshalMap j.payload) :: omitEmpty "trace_id" j.traceID)

end Job

namespace Payload

/-- The entry of a key. -/
def entry (p : Payload) (key : String) : Option Value := (p.getD []).get? key

/-- `val, ok := p[key].(bool); ok && val`. -/
def flag (p : Payload) (key : String) : Bool :=
  match p.entry key with
  | some (.bool b) => b
  | _ => false

/-- `p[key].(string)`, the empty string where the entry is no string. -/
def text (p : Payload) (key : String) : String :=
  match p.entry key with
  | some (.str s) => s
  | _ => ""

/-- `p[key].(float64)` under the conversion to `int`.  The `.(int)` alternative of the
source never applies, since no decoded entry is an `int`. -/
def int (arch : Platform) (p : Payload) (key : String) : Option ℤ :=
  match p.entry key with
  | some (.float q) => some (intOfFloat arch q)
  | _ => none

/-- A knob that counts only when it is positive. -/
def positive (arch : Platform) (p : Payload) (key : String) (dflt : ℤ) : ℤ :=
  match p.int arch key with
  | some n => if 0 < n then n else dflt
  | none => dflt

end Payload

end NatsDemo.Jobs
