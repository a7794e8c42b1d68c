import Mathlib.Data.List.Nodup
import NatsDemo.Go.Parse
import NatsDemo.Messaging.Message

/-!
# Streams and consumers

What the broker keeps of its streams, and the calls that make and delete streams and their
consumers.  A call may fail, and one that does changes nothing.  To create a stream or a
consumer that is already there updates its configuration and nothing else.
-/

namespace NatsDemo.Messaging
open Go

/-! ## Configurations -/

structure StreamConfig where
  name : String
  subjects : List String
  duplicates : Instant

inductive DeliverPolicy where
  | all
  | byStartSequence (seq : ℕ)
  | byStartTime (start : Instant)

inductive AckPolicy where
  | explicit
  | none

inductive ReplayPolicy where
  | instant
  | original

structure ConsumerConfig where
  name : String
  filterSubject : String
  deliverPolicy : DeliverPolicy := .all
  ackPolicy : AckPolicy := .explicit
  ackWait : Instant := 0
  replayPolicy : ReplayPolicy := .instant

/-! ## State -/

/-- A message under its sequence number, with the time at which it was stored. -/
structure StreamMsg where
  seq : ℕ
  time : Instant
  msg : Msg

/-- A consumer, with the numbers of the messages it has delivered and of those acknowledged. -/
structure Consumer where
  config : ConsumerConfig
  delivered : List ℕ := []
  acknowledged : List ℕ := []

/-- A stream: the messages still in it, and the last number it has given to one. -/
structure JetStream where
  config : StreamConfig
  messages : List StreamMsg := []
  lastSeq : ℕ := 0
  consumers : GoMap Consumer := []
  ordered : messages.Pairwise fun m m' => m.seq < m'.seq
  numbered : ∀ m ∈ messages, 0 < m.seq ∧ m.seq ≤ lastSeq

/-- A stream that was never used. -/
def JetStream.fresh (config : StreamConfig) : JetStream where
  config := config
  ordered := List.Pairwise.nil
  numbered := fun _ h => absurd h List.not_mem_nil

def JetStream.nextSeq (s : JetStream) : ℕ := s.lastSeq + 1

theorem JetStream.eq_of_seq_eq (s : JetStream) {m m' : StreamMsg} (hm : m ∈ s.messages)
    (hm' : m' ∈ s.messages) (hseq : m.seq = m'.seq) : m = m' := by
  have hseqs : (s.messages.map StreamMsg.seq).Nodup :=
    List.pairwise_map.mpr (s.ordered.imp ne_of_lt)
  exact List.inj_on_of_nodup_map hseqs hm hm' hseq

/-- The messages from the position on at which a consumer starts. -/
def JetStream.fromStart (s : JetStream) : DeliverPolicy → List StreamMsg
  | .all => s.messages
  | .byStartSequence seq => s.messages.dropWhile fun m => m.seq < seq
  | .byStartTime start => s.messages.dropWhile fun m => m.time < start

/-- What a new consumer delivers, whose filter has no wildcard. -/
def JetStream.deliveries (s : JetStream) (c : ConsumerConfig) : List StreamMsg :=
  (s.fromStart c.deliverPolicy).filter fun m => m.msg.subject = c.filterSubject

/-- The streams by their names. -/
abbrev Broker := GoMap JetStream

/-! ## Calls

`fault` is the error of a call that fails. -/

namespace Broker

def streamNotFound : String := "nats: API error: code=404 err_code=10059 description=stream not found"

/-- `DeleteStream`, which takes the consumers of the stream with it. -/
def deleteStream (b : Broker) (name : String) (fault : Option String) : Option String × Broker :=
  match fault, b.get? name with
  | some err, _ => (some err, b)
  | none, none => (some streamNotFound, b)
  | none, some _ => (none, b.filter fun e => !decide (e.1 = name))

/-- `CreateOrUpdateStream`. -/
def createOrUpdateStream (b : Broker) (config : StreamConfig) (fault : Option String) :
    Option String × Broker :=
  match fault, b.get? config.name with
  | some err, _ => (some err, b)
  | none, none => (none, b.set config.name (.fresh config))
  | none, some s => (none, b.set config.name { s with config })

/-- `CreateOrUpdateConsumer` on a stream. -/
def createOrUpdateConsumer (b : Broker) (stream : String) (config : ConsumerConfig)
    (fault : Option String) : Option String × Broker :=
  match fault, b.get? stream with
  | some err, _ => (some err, b)
  | none, none => (some streamNotFound, b)
  | none, some s =>
    let c := (s.consumers.get? config.name).elim { config } fun c => { c with config }
    (none, b.set stream { s with consumers := s.consumers.set config.name c })

/-- Change the consumers of a stream. -/
def withConsumers (b : Broker) (stream : String) (f : GoMap Consumer → GoMap Consumer) : Broker :=
  (b.get? stream).elim b fun s => b.set stream { s with consumers := f s.consumers }

/-- `CreateConsumer` on a stream that has no consumer of that name. -/
def createConsumer (b : Broker) (stream : String) (config : ConsumerConfig)
    (fault : Option String) : Option String × Broker :=
  match fault with
  | some err => (some err, b)
  | none => (none, b.withConsumers stream fun cs => cs.set config.name { config })

/-- A new consumer delivers all it has to, in order, without any acknowledgement. -/
def consume (b : Broker) (stream : String) (config : ConsumerConfig) : List StreamMsg × Broker :=
  let ms := ((b.get? stream).elim [] fun s => s.deliveries config)
  (ms, b.withConsumers stream fun cs =>
    cs.set config.name { config, delivered := ms.map StreamMsg.seq })

/-- `DeleteConsumer`. -/
def deleteConsumer (b : Broker) (stream name : String) (fault : Option String) :
    Option String × Broker :=
  match fault with
  | some err => (some err, b)
  | none => (none, b.withConsumers stream fun cs => cs.filter fun e => !decide (e.1 = name))

theorem get?_withConsumers {b : Broker} {stream : String} {s : JetStream}
    (hs : b.get? stream = some s) (f : GoMap Consumer → GoMap Consumer) :
    (b.withConsumers stream f).get? stream = some { s with consumers := f s.consumers } := by
  rw [withConsumers, hs]
  exact GoMap.get?_set_self _ _ _

end Broker

/-! ## JOBS -/

def jobsStreamConfig : StreamConfig where
  name := "JOBS"
  subjects := ["jobs.submitted"]
  duplicates := 120 * Instant.second

def jobProcessorConfig : ConsumerConfig where
  name := "job-processor"
  deliverPolicy := .all
  ackPolicy := .explicit
  ackWait := 5 * Instant.second
  filterSubject := "jobs.submitted"

end NatsDemo.Messaging
