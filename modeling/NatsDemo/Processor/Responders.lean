import NatsDemo.Go.JsonText
import NatsDemo.Messaging.Message
import NatsDemo.Processor.Pool

/-!
# The replies of the processor

What the responders of `control.go` do and answer.  Most replies are written by a format
string; the status of the queue group is marshalled.  A reply is given as the document that
its text is, if it is one.
-/

namespace NatsDemo.Processor
open Lib Go

namespace App

/-- The reply on `status.processor`. -/
def statusReply (a : App) : String :=
  "\x7b\"status\":\"ACTIVE\",\"processing\":" ++ toString a.processingEnabled ++
    ",\"consumer_type\":\"" ++ a.consumerConfig.type ++ "\",\"consumer_name\":\"" ++
    a.consumerName ++ "\",\"workers\":" ++ toString a.consumerConfig.workers ++
    ",\"ordering\":\"" ++ a.consumerConfig.ordering ++ "\",\"deliver_policy\":\"" ++
    a.consumerConfig.deliverPolicy ++ "\",\"ack_policy\":\"" ++ a.consumerConfig.ackPolicy ++
    "\"\x7d"

end App

/-- What `processor.state.set` answers to a request that it could read. -/
def stateReply (enabled : Bool) : String :=
  let statusVal := if enabled then "RUNNING" else "STOPPED"
  "\x7b\"enabled\":" ++ toString enabled ++ ",\"status\":\"" ++ statusVal ++ "\"\x7d"

/-- What a responder answers to a request that it cannot carry out. -/
def errorReply (text : String) : String := "\x7b\"error\":\"" ++ text ++ "\"\x7d"

def documentOf (text : String) : Option Json := JsonText.parse text.toList

/-- `json.Marshal` of a `map[string]int`. -/
def marshalCounts (m : GoMap ℕ) : Json :=
  .obj ((GoMap.sorted m).map fun e => (e.1, .int e.2))

/-- The status of the queue group. -/
def App.queueStatus (a : App) : Json :=
  .obj [("subject", .str Messaging.subjectJobQueue),
    ("queue_group", .str Messaging.queueGroupJobWorkers), ("workers", .int a.queueWorkersCount),
    ("distribution", marshalCounts a.queueDistribution)]

/-! ## The responders -/

/-- The toggle of `processor.state.set`; errors of the subscriptions are logged. -/
def App.natsState (next : ℕ) (enabled coreOk : Bool) (now : Time) (b : Binding) (a : App) : App :=
  if enabled then
    ((((a.setEnabled true).subscribeCore coreOk).subscribeJetStream now b).startWorkers next).app
  else (a.setEnabled false).unsubscribeCore.cancelWorkers.app.unsubscribeJetStream

/-- It is what the sections of the request come to. -/
theorem app_perform_natsState (p : Pool) (enabled coreOk : Bool) (now : Time) (b : Binding) :
    (p.perform (.natsState enabled coreOk now b)).app =
      p.app.natsState p.loops.length enabled coreOk now b := by
  cases enabled <;> rfl

/-- The responder on `processor.state.set`. -/
def App.setState (next : ℕ) (coreOk : Bool) (now : Time) (b : Binding) (data : Option Json)
    (a : App) : App × Option Json :=
  let req := Go.unmarshal [("enabled", boolField fun _ x => x)] false data
  if req.2 then (a.natsState next req.1 coreOk now b, documentOf (stateReply req.1))
  else (a, documentOf (errorReply "Invalid payload"))

/-- The `workers` of a request. -/
def queueGroupConfig (data : Option Json) : ℤ × Bool :=
  Go.unmarshal [("workers", intField minInt maxInt fun _ n => n)] 0 data

/-- The responder on `queuegroup.config.set`. -/
def App.setQueueConfig (err : ℕ → Option String) (data : Option Json) (a : App) :
    App × Option Json :=
  let req := queueGroupConfig data
  if req.2 then
    let a' := a.setQueueWorkers req.1 err
    match queueGroupError err a'.queueWorkersCount with
    | some e => (a', documentOf (errorReply ("Failed to reconfigure: " ++ e)))
    | none => (a', some a'.queueStatus)
  else (a, documentOf (errorReply "Invalid payload"))

/-- Whatever is answered, a request that can be read is carried out as far as it goes. -/
theorem setQueueConfig_fst (err : ℕ → Option String) (data : Option Json) (a : App) :
    (a.setQueueConfig err data).1 =
      if (queueGroupConfig data).2 then a.setQueueWorkers (queueGroupConfig data).1 err else a := by
  rw [App.setQueueConfig]
  split_ifs
  · dsimp only
    split <;> rfl
  · rfl

/-! ## The documents they are -/

theorem plainFields_cons {k : String} {v : JsonText.Scalar}
    {fields : List (String × JsonText.Scalar)} (hkey : JsonText.Plain k) (hvalue : v.Plain)
    (hfields : JsonText.PlainFields fields) :
    JsonText.PlainFields ((k, v) :: fields) :=
  List.forall_mem_cons.mpr ⟨⟨hkey, hvalue⟩, hfields⟩

theorem parse_statusReply {a : App} (htype : JsonText.Plain a.consumerConfig.type)
    (hname : JsonText.Plain a.consumerName) (hordering : JsonText.Plain a.consumerConfig.ordering)
    (hdeliver : JsonText.Plain a.consumerConfig.deliverPolicy)
    (hack : JsonText.Plain a.consumerConfig.ackPolicy) :
    JsonText.parse a.statusReply.toList = some (.obj
      [("status", .str "ACTIVE"), ("processing", .bool a.processingEnabled),
       ("consumer_type", .str a.consumerConfig.type), ("consumer_name", .str a.consumerName),
       ("workers", .int a.consumerConfig.workers), ("ordering", .str a.consumerConfig.ordering),
       ("deliver_policy", .str a.consumerConfig.deliverPolicy),
       ("ack_policy", .str a.consumerConfig.ackPolicy)]) := by
  -- the pieces of the format string, cut where a value starts or ends
  have h1 : "\x7b\"status\":\"ACTIVE\",\"processing\":".toList = '\x7b' ::
      (JsonText.quoted "status".toList ++ ':' :: (JsonText.Scalar.str "ACTIVE").render ++ ',' ::
        JsonText.quoted "processing".toList ++ [':']) := rfl
  have h2 : ",\"consumer_type\":\"".toList =
      ',' :: (JsonText.quoted "consumer_type".toList ++ [':', '\"']) := rfl
  have h3 : "\",\"consumer_name\":\"".toList =
      '\"' :: ',' :: (JsonText.quoted "consumer_name".toList ++ [':', '\"']) := rfl
  have h4 : "\",\"workers\":".toList =
      '\"' :: ',' :: (JsonText.quoted "workers".toList ++ [':']) := rfl
  have h5 : ",\"ordering\":\"".toList =
      ',' :: (JsonText.quoted "ordering".toList ++ [':', '\"']) := rfl
  have h6 : "\",\"deliver_policy\":\"".toList =
      '\"' :: ',' :: (JsonText.quoted "deliver_policy".toList ++ [':', '\"']) := rfl
  have h7 : "\",\"ack_policy\":\"".toList =
      '\"' :: ',' :: (JsonText.quoted "ack_policy".toList ++ [':', '\"']) := rfl
  have h8 : "\"\x7d".toList = ['\"', '\x7d'] := rfl
  have htext : a.statusReply.toList = JsonText.renderObject ("status", .str "ACTIVE")
      [("processing", .bool a.processingEnabled), ("consumer_type", .str a.consumerConfig.type),
       ("consumer_name", .str a.consumerName), ("workers", .nat a.consumerConfig.workers),
       ("ordering", .str a.consumerConfig.ordering),
       ("deliver_policy", .str a.consumerConfig.deliverPolicy),
       ("ack_policy", .str a.consumerConfig.ackPolicy)] := by
    unfold App.statusReply
    simp only [String.toList_append, h1, h2, h3, h4, h5, h6, h7, h8,
      JsonText.renderObject, JsonText.renderMember, JsonText.renderRest,
      JsonText.Scalar.render_bool, JsonText.Scalar.render_nat, JsonText.Scalar.render_str,
      List.append_assoc, List.cons_append, List.nil_append]
  have hactive : JsonText.Plain "ACTIVE" := by decide
  rw [htext, JsonText.parse_renderObject]
  · rfl
  · exact plainFields_cons (by decide) hactive <| plainFields_cons (by decide) trivial <|
      plainFields_cons (by decide) htype <| plainFields_cons (by decide) hname <|
      plainFields_cons (by decide) trivial <| plainFields_cons (by decide) hordering <|
      plainFields_cons (by decide) hdeliver <| plainFields_cons (by decide) hack
        (List.forall_mem_nil _)

theorem parse_errorReply {text : String} (h : JsonText.Plain text) :
    JsonText.parse (errorReply text).toList = some (.obj [("error", .str text)]) := by
  have htext : (errorReply text).toList = JsonText.renderObject ("error", .str text) [] := by
    simp [errorReply, JsonText.renderObject, JsonText.renderMember, JsonText.renderRest,
      JsonText.quoted, JsonText.Scalar.render]
  rw [htext, JsonText.parse_renderObject]
  · rfl
  · exact plainFields_cons (by decide) h (List.forall_mem_nil _)

theorem documentOf_stateReply (enabled : Bool) : documentOf (stateReply enabled) = some (.obj
    [("enabled", .bool enabled),
     ("status", .str (if enabled then "RUNNING" else "STOPPED"))]) := by
  have hplain : JsonText.Plain (if enabled then "RUNNING" else "STOPPED") := by
    cases enabled <;> decide
  have htext : (stateReply enabled).toList = JsonText.renderObject ("enabled", .bool enabled)
      [("status", .str (if enabled then "RUNNING" else "STOPPED"))] := by
    unfold stateReply
    simp [JsonText.renderObject, JsonText.renderMember, JsonText.renderRest, JsonText.quoted,
      JsonText.Scalar.render_bool, JsonText.Scalar.render_str]
  rw [documentOf, htext, JsonText.parse_renderObject]
  · rfl
  · exact plainFields_cons (by decide) trivial
      (plainFields_cons (by decide) hplain (List.forall_mem_nil _))

end NatsDemo.Processor
