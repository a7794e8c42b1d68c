import Mathlib.Data.List.TakeWhile
import NatsDemo.Control.DLQ
import NatsDemo.Go.RoundTrip
import NatsDemo.Processor.Responders

/-!
# Requests passed on to the processor

The control service checks a request, sends it to the processor and answers with what it
reads of the reply.  A reply that reports an error is a document like any other, and the
records it is read into have no field for the error.
-/

namespace NatsDemo.Control
open Lib Go Jobs Messaging

/-- An error answer, with a text that may be that of another error. -/
def failure (status : ℕ) (error : String) : Response := ⟨status, .obj [("error", .str error)]⟩

/-! ## The size of the queue group -/

structure QueueGroupStatus where
  subject : String := ""
  queueGroup : String := ""
  workers : ℤ := 0
  distribution : Option (GoMap ℤ) := none

namespace QueueGroupStatus

def fields : List (String × FieldDecoder QueueGroupStatus) :=
  [("subject", stringField fun s x => { s with subject := x }),
   ("queue_group", stringField fun s x => { s with queueGroup := x }),
   ("workers", intField minInt maxInt fun s n => { s with workers := n }),
   ("distribution", intMapField distribution fun s m => { s with distribution := m })]

/-- `json.Marshal(resp)`. -/
def marshal (s : QueueGroupStatus) : Json :=
  .obj [("subject", .str s.subject), ("queue_group", .str s.queueGroup),
    ("workers", .int s.workers),
    ("distribution", match s.distribution with
      | none => .null
      | some m => .obj ((GoMap.sorted m).map fun e => (e.1, .int e.2)))]

end QueueGroupStatus

/-- The payload that `PutQueueGroupConfig` sends on for a body, or its refusal. -/
def queueGroupRequest (why : String) (body : Option Json) : Except Response Json :=
  let req := Processor.queueGroupConfig body
  if !req.2 then .error (failure 400 ("Invalid queue group config payload: " ++ why))
  else if req.1 < 1 ∨ 5 < req.1 then .error (failure 400 "Workers must be between 1 and 5")
  else .ok (.obj [("workers", .int req.1)])

/-- The answer of `PutQueueGroupConfig` to a reply, or to none. -/
def queueGroupAnswer (why : String) : Option (Option Json) → Response
  | none => failure 504 ("Processor service did not respond: " ++ why)
  | some reply =>
    let resp := Go.unmarshal QueueGroupStatus.fields {} reply
    if resp.2 then ⟨200, resp.1.marshal⟩
    else failure 500 ("Invalid response from processor: " ++ why)

/-- `PutQueueGroupConfig` with the processor behind it: `err` tells which subscriptions fail,
and `replied` whether the reply comes in time. -/
def putQueueGroupConfig (why : String) (err : ℕ → Option String) (replied : Bool)
    (body : Option Json) (a : Processor.App) : Processor.App × Response :=
  match queueGroupRequest why body with
  | .error resp => (a, resp)
  | .ok payload =>
    let r := a.setQueueConfig err (some payload)
    (r.1, queueGroupAnswer why (if replied then some r.2 else none))

/-! ## Switching the processor -/

/-- The payload that `PutProcessorState` sends on. -/
def stateRequest (body : Option Json) : Except Response Json :=
  let req := Go.unmarshal [("enabled", boolField fun _ x => x)] false body
  if req.2 then .ok (.obj [("enabled", .bool req.1)])
  else .error (failure 400 "Invalid request payload")

structure StateStatus where
  status : String := ""
  enabled : Bool := false

def StateStatus.fields : List (String × FieldDecoder StateStatus) :=
  [("status", stringField fun s x => { s with status := x }),
   ("enabled", boolField fun s x => { s with enabled := x })]

def StateStatus.marshal (s : StateStatus) : Json :=
  .obj [("status", .str s.status), ("enabled", .bool s.enabled)]

def stateAnswer (why : String) : Option (Option Json) → Response
  | none => failure 504 ("Processor service did not respond: " ++ why)
  | some reply =>
    let resp := Go.unmarshal StateStatus.fields {} reply
    if resp.2 then ⟨200, resp.1.marshal⟩ else failure 500 "Invalid response from processor"

/-- How the calls to the broker go while the processor is switched. -/
structure Toggling where
  coreOk : Bool
  now : Time
  binding : Processor.Binding
  replied : Bool
  /-- The number of the next context. -/
  next : ℕ

/-- `PutProcessorState` with the processor behind it. -/
def putProcessorState (why : String) (t : Toggling) (body : Option Json) (a : Processor.App) :
    Processor.App × Response :=
  match stateRequest body with
  | .error resp => (a, resp)
  | .ok payload =>
    let r := a.setState t.next t.coreOk t.now t.binding (some payload)
    (r.1, stateAnswer why (if t.replied then some r.2 else none))

/-! ## When a size takes effect -/

/-- The error texts of the broker's client stand for themselves between quotes. -/
def PlainErrors (err : ℕ → Option String) : Prop := ∀ i e, err i = some e → JsonText.Plain e

/-- None of the subscriptions for a size fails. -/
def AllSubscribe (err : ℕ → Option String) (n : ℤ) : Prop :=
  ∀ i : ℕ, 1 ≤ i → (i : ℤ) ≤ n → err i = none

section
variable {err : ℕ → Option String} {n : ℕ}

theorem allSubscribe_iff : AllSubscribe err n ↔ ∀ i ∈ List.range' 1 n, err i = none := by
  simp only [AllSubscribe, List.mem_range'_1]
  constructor
  · intro h i hi
    exact h i hi.1 (by omega)
  · intro h i hlow hhigh
    exact h i ⟨hlow, by omega⟩

theorem length_subscribed_iff :
    (Processor.App.subscribed err n).length = n ↔ AllSubscribe err n := by
  have hlen : (List.range' 1 n).length = n := List.length_range'
  rw [allSubscribe_iff, Processor.App.subscribed]
  constructor
  · intro h
    have hsame := (List.takeWhile_prefix fun i => (err i).isNone).eq_of_length (h.trans hlen.symm)
    intro i hi
    exact Option.isNone_iff_eq_none.mp (List.takeWhile_eq_self_iff.mp hsame i hi)
  · intro h
    rw [List.takeWhile_eq_self_iff.mpr, hlen]
    intro i hi
    exact Option.isNone_iff_eq_none.mpr (h i hi)

theorem queueGroupError_eq_none_iff :
    Processor.App.queueGroupError err n = none ↔ AllSubscribe err n := by
  rw [allSubscribe_iff, Processor.App.queueGroupError, List.findSome?_eq_none_iff]
  simp only [Option.map_eq_none_iff]

theorem plain_workerName (i : ℕ) : JsonText.Plain (Processor.workerName i) :=
  JsonText.plain_append.mpr ⟨by decide, JsonText.plain_toString i⟩

/-- The error of a failed size is plain where those of the subscriptions are. -/
theorem plain_queueGroupError (hplain : PlainErrors err) {e : String}
    (he : Processor.App.queueGroupError err n = some e) : JsonText.Plain e := by
  obtain ⟨i, -, he⟩ := List.exists_of_findSome?_eq_some he
  obtain ⟨e', he', rfl⟩ := Option.map_eq_some_iff.mp he
  refine JsonText.plain_append.mpr ⟨JsonText.plain_append.mpr ⟨JsonText.plain_append.mpr
    ⟨by decide, plain_workerName i⟩, by decide⟩, hplain i e' he'⟩

/-- An answer of success means that the group has the size asked for. -/
def SizeTakesEffect (why : String) (err : ℕ → Option String) (replied : Bool)
    (body : Option Json) (a : Processor.App) : Prop :=
  (putQueueGroupConfig why err replied body a).2.status = 200 →
    ((putQueueGroupConfig why err replied body a).1.queueSubs.length : ℤ) =
      (Processor.queueGroupConfig body).1

/-- The request names a size that the service passes on. -/
def ValidSize (body : Option Json) : Prop :=
  (Processor.queueGroupConfig body).2 = true ∧
    1 ≤ (Processor.queueGroupConfig body).1 ∧ (Processor.queueGroupConfig body).1 ≤ 5

theorem queueGroupRequest_of_valid (why : String) {body : Option Json} (h : ValidSize body) :
    queueGroupRequest why body =
      .ok (.obj [("workers", .int (Processor.queueGroupConfig body).1)]) := by
  obtain ⟨hdecoded, hlow, hhigh⟩ := h
  have hrange : ¬ ((Processor.queueGroupConfig body).1 < 1 ∨
      5 < (Processor.queueGroupConfig body).1) := by omega
  simp only [queueGroupRequest, hdecoded, Bool.not_true, Bool.false_eq_true, if_false,
    if_neg hrange]

theorem queueGroupRequest_of_not_valid (why : String) {body : Option Json} (h : ¬ ValidSize body) :
    ∃ text, queueGroupRequest why body = .error (failure 400 text) := by
  simp only [queueGroupRequest]
  split_ifs with hdecoded hrange
  · exact ⟨_, rfl⟩
  · exact ⟨_, rfl⟩
  · refine absurd ⟨?_, ?_, ?_⟩ h
    · simpa using hdecoded
    · omega
    · omega

/-- The processor reads the size that was sent. -/
theorem queueGroupConfig_sent {m : ℤ} (hlow : 1 ≤ m) (hhigh : m ≤ 5) :
    Processor.queueGroupConfig (some (.obj [("workers", .int m)])) = (m, true) := by
  have hrange : minInt ≤ m ∧ m ≤ maxInt := by
    constructor
    · exact le_trans (by decide) hlow
    · exact le_trans hhigh (by decide)
  have hkey : decodeKey [("workers", intField minInt maxInt fun _ n => n)] "workers" (.int m) 0 =
      (m, true) := if_pos hrange
  rw [Processor.queueGroupConfig, Go.unmarshal, decodeFields_cons _ _ _ hkey]
  rfl

theorem setQueueConfig_sent (a : Processor.App) {n : ℕ} (hlow : 1 ≤ n) (hhigh : n ≤ 5) :
    (a.setQueueConfig err (some (.obj [("workers", .int n)]))).1.queueSubs =
        (Processor.App.subscribed err n).map Processor.workerName ∧
      ∀ e, Processor.App.queueGroupError err n = some e →
        (a.setQueueConfig err (some (.obj [("workers", .int n)]))).2 =
          Processor.documentOf (Processor.errorReply ("Failed to reconfigure: " ++ e)) := by
  have hcount : (a.setQueueWorkers n err).queueWorkersCount = n := by
    have hclamp : Processor.clampWorkers n = n := by
      rw [Processor.clampWorkers, if_neg (by omega), if_neg (by omega)]
      exact Int.toNat_natCast n
    exact hclamp
  have hsubs : (a.setQueueWorkers n err).queueSubs =
      (Processor.App.subscribed err n).map Processor.workerName := by
    conv_rhs => rw [← hcount]
    rfl
  have hread := queueGroupConfig_sent (m := n) (by omega) (by omega)
  constructor
  · rw [Processor.setQueueConfig_fst, hread, if_pos rfl]
    exact hsubs
  · intro e he
    simp only [Processor.App.setQueueConfig, hread, if_true, hcount, he]

/-- A reply that reports an error is read as an empty status. -/
theorem status_of_errorReply (why : String) {text : String} (h : JsonText.Plain text) :
    (queueGroupAnswer why (some (Processor.documentOf (Processor.errorReply text)))).status =
      200 := by
  rw [Processor.documentOf, Processor.parse_errorReply h]
  rfl

theorem sizeTakesEffect_iff (why : String) (hplain : PlainErrors err) (replied : Bool)
    (body : Option Json) (a : Processor.App) :
    SizeTakesEffect why err replied body a ↔
      (ValidSize body → replied = true → AllSubscribe err (Processor.queueGroupConfig body).1) := by
  by_cases hvalid : ValidSize body
  · have hrequest := queueGroupRequest_of_valid why hvalid
    obtain ⟨n, hn⟩ := Int.eq_ofNat_of_zero_le (le_trans zero_le_one hvalid.2.1)
    have hlow : 1 ≤ n := by have := hvalid.2.1; omega
    have hhigh : n ≤ 5 := by have := hvalid.2.2; omega
    obtain ⟨hsubs, herror⟩ : _ ∧ ∀ e, Processor.App.queueGroupError err n = some e → _ :=
      setQueueConfig_sent a hlow hhigh
    simp only [SizeTakesEffect, putQueueGroupConfig, hrequest, hn, hsubs, List.length_map,
      Nat.cast_inj, hvalid, true_implies]
    cases replied with
    | false => simp [queueGroupAnswer, failure]
    | true =>
      rw [length_subscribed_iff]
      simp only [if_true, true_implies]
      refine ⟨fun h => ?_, fun h _ => h⟩
      by_contra hno
      -- the error that the reply reports is not seen
      obtain ⟨e, he⟩ := Option.ne_none_iff_exists'.mp (mt queueGroupError_eq_none_iff.mp hno)
      have htext : JsonText.Plain ("Failed to reconfigure: " ++ e) :=
        JsonText.plain_append.mpr ⟨by decide, plain_queueGroupError hplain he⟩
      rw [herror e he, status_of_errorReply why htext] at h
      exact hno (h rfl)
  · obtain ⟨text, hrequest⟩ := queueGroupRequest_of_not_valid why hvalid
    simp [SizeTakesEffect, putQueueGroupConfig, hrequest, failure, hvalid]

end

/-! ## When switching on takes effect -/

/-- An answer of success that says RUNNING means that the processor is subscribed to Core
NATS and has its consumer. -/
def StateTakesEffect (why : String) (t : Toggling) (body : Option Json) (a : Processor.App) :
    Prop :=
  (∃ enabled, (putProcessorState why t body a).2 =
      ⟨200, StateStatus.marshal ⟨"RUNNING", enabled⟩⟩) →
    (putProcessorState why t body a).1.sub = true ∧
      (putProcessorState why t body a).1.jsConsumer = true

/-- The request asks to switch the processor on. -/
def SwitchesOn (body : Option Json) : Prop :=
  Go.unmarshal [("enabled", boolField fun _ x => x)] false body = (true, true)

theorem natsState_on (a : Processor.App) (t : Toggling) :
    (a.natsState t.next true t.coreOk t.now t.binding).sub = (a.sub || t.coreOk) ∧
      ((a.natsState t.next true t.coreOk t.now t.binding).jsConsumer = true ↔
        a.jsConsumer = true ∨ t.binding = .bound) := by
  obtain ⟨name, bound, hframe⟩ :=
    ((a.setEnabled true).subscribeCore t.coreOk).subscribeJetStream_eq t.now t.binding
  constructor
  · show (((a.setEnabled true).subscribeCore t.coreOk).subscribeJetStream t.now
      t.binding).sub = _
    rw [hframe]
    rfl
  · show (((a.setEnabled true).subscribeCore t.coreOk).subscribeJetStream t.now
      t.binding).jsConsumer = true ↔ _
    have hsame : ((a.setEnabled true).subscribeCore t.coreOk).jsConsumer = a.jsConsumer := rfl
    simp only [Processor.App.subscribeJetStream, hsame]
    cases hjs : a.jsConsumer with
    | true => simp [hsame, hjs]
    | false => cases t.binding <;> simp [hsame, hjs]

theorem stateTakesEffect_iff (why : String) (t : Toggling) (body : Option Json)
    (a : Processor.App) :
    StateTakesEffect why t body a ↔ (SwitchesOn body → t.replied = true →
      (a.sub = true ∨ t.coreOk = true) ∧ (a.jsConsumer = true ∨ t.binding = .bound)) := by
  rw [StateTakesEffect, SwitchesOn, putProcessorState, stateRequest]
  obtain ⟨enabled, decoded⟩ := Go.unmarshal [("enabled", boolField fun _ x => x)] false body
  cases decoded with
  | false => simp [failure]
  | true =>
    have hsent : Go.unmarshal [("enabled", boolField fun _ x => x)] false
        (some (.obj [("enabled", .bool enabled)])) = (enabled, true) := rfl
    have hread : stateAnswer why (some (some (.obj [("enabled", .bool enabled),
        ("status", .str (if enabled then "RUNNING" else "STOPPED"))]))) =
        ⟨200, StateStatus.marshal ⟨if enabled then "RUNNING" else "STOPPED", enabled⟩⟩ := rfl
    simp only [Processor.App.setState, hsent, if_true, Processor.documentOf_stateReply]
    cases hreplied : t.replied with
    | false => simp [stateAnswer, failure]
    | true =>
      simp only [if_true, hread]
      cases enabled with
      | false => simp [StateStatus.marshal]
      | true =>
        obtain ⟨hsub, hjs⟩ := natsState_on a t
        simp [StateStatus.marshal, hsub, hjs]

/-- **When a successful answer is true.**  The queue group has the size asked for if and only
if no subscription for a valid request that is answered fails; the processor said to be
running has both its bindings if and only if it had them or its calls succeed. -/
theorem takesEffect_iff (why : String) {err : ℕ → Option String} (hplain : PlainErrors err)
    (replied : Bool) (t : Toggling) (size state : Option Json) (a : Processor.App) :
    (SizeTakesEffect why err replied size a ↔
      (ValidSize size → replied = true → AllSubscribe err (Processor.queueGroupConfig size).1)) ∧
    (StateTakesEffect why t state a ↔ (SwitchesOn state → t.replied = true →
      (a.sub = true ∨ t.coreOk = true) ∧ (a.jsConsumer = true ∨ t.binding = .bound))) :=
  ⟨sizeTakesEffect_iff why hplain replied size a, stateTakesEffect_iff why t state a⟩

/-- The second subscription finds the connection closed. -/
def closing : ℕ → Option String := fun i => if i = 2 then some "nats: connection closed" else none

theorem plainErrors_closing : PlainErrors closing := by
  intro i e he
  rw [closing] at he
  split_ifs at he
  obtain rfl := Option.some_inj.mp he
  decide

theorem takesEffect_one :
    SizeTakesEffect "" closing true (some (.obj [("workers", .int 1)])) {} := by
  refine (takesEffect_iff "" plainErrors_closing true ⟨true, 0, .bound, true, 0⟩ _ none {}).1.mpr ?_
  intro _ _ i hlow hhigh
  have hone : i = 1 := by
    have hsize : (i : ℤ) ≤ 1 := hhigh
    omega
  rw [hone]
  rfl

/-- Every successful answer is true. -/
def AlwaysTakesEffect : Prop :=
  (∀ why err replied body a, PlainErrors err → SizeTakesEffect why err replied body a) ∧
    ∀ why t body a, StateTakesEffect why t body a

/-- Two workers are asked for, and one subscription is made. -/
theorem not_alwaysTakesEffect : ¬ AlwaysTakesEffect := by
  intro h
  have hsize := h.1 "" closing true (some (.obj [("workers", .int 2)])) {} plainErrors_closing
  have hall := (sizeTakesEffect_iff "" plainErrors_closing true _ {}).mp hsize
    ⟨by decide, by decide, by decide⟩ rfl 2 (by decide) (by decide)
  cases hall

end NatsDemo.Control
