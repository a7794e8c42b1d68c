import NatsDemo.Lib.Histories
import NatsDemo.Processor.Pool
import NatsDemo.Processor.World

/-!
# The processor service

The processor at work, and the requests on top that set its counters and its events back or
end its subscriptions: the responder on `queuegroup.reset`, `DELETE /processor/events`, the event
of `POST /processor/restart`, and what `Stop` takes down besides the sections of the controls.
-/

namespace NatsDemo.Processor
open Lib Go

namespace App

/-- The responder on `queuegroup.reset`: a new map, with the workers of the group. -/
def resetQueueGroup (a : App) : App :=
  { a with queueDistribution :=
      (List.range' 1 a.queueWorkersCount).map fun i => (workerName i, 0) }

/-- `EventTracker.Clear`. -/
def clearEvents (a : App) : App := { a with events := [] }

/-- The event of `POST /processor/restart`, which comes after its section. -/
def reportRestart (shown : Time) (a : App) : App :=
  a.recordWorkerEvent "SYSTEM" "SUPERVISOR" "[SUPERVISOR RESPAWN]" "#8B5CF6"
    "Manual supervisor restart of worker goroutine" 0 "JETSTREAM" shown

def unsubscribeQueueGroup (a : App) : App := { a with queueSubs := [] }

def unsubscribeValidation (a : App) : App := { a with valSub := false }

end App

/-! ## The counters -/

/-- What the workers count and report. -/
structure Counters where
  attempts : GoMap ℕ
  coreWorkerCounter : ℕ
  consumerDistribution : GoMap ℕ
  queueDistribution : GoMap ℕ
  events : List ProcessorEvent

def App.counters (a : App) : Counters :=
  ⟨a.attempts, a.coreWorkerCounter, a.consumerDistribution, a.queueDistribution, a.events⟩

theorem App.counters_subscribeJetStream (a : App) (now : Time) (b : Binding) :
    (a.subscribeJetStream now b).counters = a.counters := by
  obtain ⟨name, bound, hframe⟩ := a.subscribeJetStream_eq now b
  rw [hframe]
  rfl

/-- The operations that count or report. -/
theorem counters_exec (x : Choice) (s : Shared) (o : Op) :
    (s.exec x o).2.app.counters = match o with
      | .recordWorkerPull w => (s.app.recordWorkerPull w).counters
      | .recordWorkerEvent jobID jobType tag tagColor details attempt mode =>
        (s.app.recordWorkerEvent jobID jobType tag tagColor details attempt mode x.shown).counters
      | .nextCoreWorker n => (s.app.nextCoreWorker n).2.counters
      | .countAttempt jobID => (s.app.countAttempt jobID).2.counters
      | .countQueueMessage w => (s.app.countQueueMessage w).counters
      | _ => s.app.counters := by
  cases o with
  | fetch n | ack seq | term seq | publishDLQ origin m => simp [Shared.exec]
  | subscribeJetStream => exact s.app.counters_subscribeJetStream s.clock x.binding
  | _ => rfl

/-- The surroundings of the processor neither count nor report. -/
theorem counters_input (s : Shared) (e : Input) : (s.input e).1.app.counters = s.app.counters := by
  cases e with
  | control a =>
    cases a with
    | subscribeJetStream now b => exact s.app.counters_subscribeJetStream now b
    | _ => rfl
  | _ => rfl

/-! ## The machine -/

/-- A move of the surroundings, or a request on top of those. -/
inductive Demand where
  | input (e : Input)
  | queueReset
  | clearEvents
  | reportRestart (shown : Time)
  | unsubscribeQueueGroup
  | unsubscribeValidation

namespace Shared

def demand (s : Shared) : Demand → Shared × List Label
  | .input e => s.input e
  | .queueReset => ({ s with app := s.app.resetQueueGroup }, [])
  | .clearEvents => ({ s with app := s.app.clearEvents }, [])
  | .reportRestart shown => ({ s with app := s.app.reportRestart shown }, [])
  | .unsubscribeQueueGroup => ({ s with app := s.app.unsubscribeQueueGroup }, [])
  | .unsubscribeValidation => ({ s with app := s.app.unsubscribeValidation }, [])

end Shared

/-- The machine of the service. -/
def service (arch : Platform) : Machine Shared Demand Choice Op Label Bool Op.Res where
  body := program arch
  exec := fun o x s => s.exec x o
  env := fun e s => s.demand e

namespace Service

abbrev State (arch : Platform) := Machine.State (service arch)
abbrev Thread (arch : Platform) := Machine.Thread (service arch)
abbrev Act := Machine.Act Demand Choice
abbrev Deed := Lib.Deed Demand Op Op.Res

variable (arch : Platform)

def State.empty : State arch := { shared := {}, threads := [] }

/-- The service after a run. -/
def after (as : List Act) : State arch := run Machine.step (State.empty arch) as

/-- What was done in a run. -/
def deeds (as : List Act) : List Deed := journal Machine.step Machine.deeds (State.empty arch) as

end Service

end NatsDemo.Processor
