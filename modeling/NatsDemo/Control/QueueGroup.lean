import NatsDemo.Lib.Run
import NatsDemo.Control.Relay

/-!
# The size of the queue group under failure

A request on `queuegroup.config.set` stores the new size, drops the old subscriptions and
then makes the new ones in turn.  Where one of them fails, those before it stay, the size
stays too, and nothing of the group before the request is left.
-/

namespace NatsDemo.Control
open Lib Go
open Processor (App workerName clampWorkers)

/-- A request on `queuegroup.config.set`; `err` gives the error of the call of `QueueSubscribe`
for a worker, if it fails. -/
structure SizeRequest where
  data : Option Json
  err : ℕ → Option String

namespace SizeRequest

/-- The size that the request comes to, when it can be read. -/
def size (r : SizeRequest) : Option ℕ :=
  let req := Processor.queueGroupConfig r.data
  if req.2 then some (clampWorkers req.1) else none

def serve (a : App) (r : SizeRequest) : App := (a.setQueueConfig r.err r.data).1

/-- The request is answered with an error. -/
def Fails (r : SizeRequest) : Prop :=
  match r.size with
  | none => True
  | some n => App.queueGroupError r.err n ≠ none

/-- No subscription fails that a request which can be read asks for. -/
def Subscribes (r : SizeRequest) : Prop := ∀ n, r.size = some n → AllSubscribe r.err n

theorem serve_of_size_none {r : SizeRequest} (h : r.size = none) (a : App) : r.serve a = a := by
  have hunread : (Processor.queueGroupConfig r.data).2 = false := by
    simpa [size] using h
  rw [serve, Processor.setQueueConfig_fst, hunread]
  rfl

theorem serve_of_size {r : SizeRequest} {n : ℕ} (h : r.size = some n) (a : App) :
    r.serve a = { a with queueWorkersCount := n }.subscribeQueueGroup r.err := by
  obtain ⟨hread, rfl⟩ : (Processor.queueGroupConfig r.data).2 = true ∧
      clampWorkers (Processor.queueGroupConfig r.data).1 = n := by
    simpa [size] using h
  rw [serve, Processor.setQueueConfig_fst, if_pos hread]
  rfl

end SizeRequest

/-- The number of workers in an answer of `queuegroup.status`. -/
def toldWorkers (a : App) : Option Json :=
  match a.queueStatus with
  | .obj fields => fields.lookup "workers"
  | _ => none

/-- The status tells how many subscriptions are active, and these are the first so many. -/
structure HonestSize (a : App) : Prop where
  told : toldWorkers a = some (.int a.queueSubs.length)
  names : a.queueSubs = (List.range' 1 a.queueSubs.length).map workerName

/-- A request that fails leaves the group as it was. -/
def KeptOnFailure (a : App) (r : SizeRequest) : Prop :=
  r.Fails → (r.serve a).queueSubs = a.queueSubs ∧
    (r.serve a).queueWorkersCount = a.queueWorkersCount

/-- The size is honest after each of the requests, and those that fail change nothing. -/
def HonestRequests (a : App) (rs : List SizeRequest) : Prop :=
  Throughout (fun a r => r.serve a) HonestSize a rs ∧
    Meets (fun a r => r.serve a) KeptOnFailure a rs

section
variable {a : App} {err : ℕ → Option String} {r : SizeRequest}

theorem toldWorkers_eq (a : App) : toldWorkers a = some (.int a.queueWorkersCount) := rfl

/-- The subscriptions made before a failure are the first ones. -/
theorem subscribed_eq_range' (err : ℕ → Option String) (n : ℕ) :
    App.subscribed err n = List.range' 1 (App.subscribed err n).length := by
  have hprefix : App.subscribed err n <+: List.range' 1 n := List.takeWhile_prefix _
  have hle : (App.subscribed err n).length ≤ n := by
    simpa using hprefix.length_le
  conv_lhs => rw [List.prefix_iff_eq_take.mp hprefix]
  exact List.take_range'_of_length_ge hle

/-- Whatever fails, the subscriptions are those of the first workers; their number is the size
when none fails, and only then. -/
theorem honestSize_subscribeQueueGroup_iff :
    HonestSize (a.subscribeQueueGroup err) ↔ AllSubscribe err a.queueWorkersCount := by
  have hsubs : (a.subscribeQueueGroup err).queueSubs =
      (App.subscribed err a.queueWorkersCount).map workerName := rfl
  have hlength : (a.subscribeQueueGroup err).queueSubs.length =
      (App.subscribed err a.queueWorkersCount).length := by
    rw [hsubs, List.length_map]
  rw [← length_subscribed_iff]
  constructor
  · intro h
    have htold := h.told
    rw [toldWorkers_eq, hlength, Option.some_inj, Json.int.injEq, Nat.cast_inj] at htold
    exact htold.symm
  · intro h
    refine ⟨?_, ?_⟩
    · rw [hlength, h]
      exact toldWorkers_eq a
    · rw [hlength, hsubs, ← subscribed_eq_range']

theorem honestSize_serve_iff (ha : HonestSize a) : HonestSize (r.serve a) ↔ r.Subscribes := by
  cases hsize : r.size with
  | none => simp [SizeRequest.serve_of_size_none hsize, SizeRequest.Subscribes, hsize, ha]
  | some n =>
    rw [SizeRequest.serve_of_size hsize, honestSize_subscribeQueueGroup_iff]
    simp [SizeRequest.Subscribes, hsize]

/-- A request that meets the condition fails only when it cannot be read. -/
theorem SizeRequest.Subscribes.keptOnFailure (h : r.Subscribes) : KeptOnFailure a r := by
  intro hfails
  cases hsize : r.size with
  | none => rw [SizeRequest.serve_of_size_none hsize]; exact ⟨rfl, rfl⟩
  | some n =>
    rw [SizeRequest.Fails, hsize] at hfails
    exact absurd (queueGroupError_eq_none_iff.mpr (h n hsize)) hfails

end

/-- **When the size is honest.**  After a start without a failure, the size of the queue group
is honest under a sequence of requests if and only if no subscription fails that one of
them asks for. -/
theorem honestRequests_iff {a : App} {err : ℕ → Option String}
    (hstart : App.queueGroupError err a.queueWorkersCount = none) (rs : List SizeRequest) :
    HonestRequests (a.subscribeQueueGroup err) rs ↔ ∀ r ∈ rs, r.Subscribes := by
  have hfirst : HonestSize (a.subscribeQueueGroup err) :=
    honestSize_subscribeQueueGroup_iff.mpr (queueGroupError_eq_none_iff.mp hstart)
  have hruns : Throughout (fun a r => SizeRequest.serve a r) HonestSize
      (a.subscribeQueueGroup err) rs ↔ Meets (fun a r => SizeRequest.serve a r)
        (fun _ r => r.Subscribes) (a.subscribeQueueGroup err) rs :=
    throughout_iff_meets (fun _ => True) (fun _ _ _ ha => honestSize_serve_iff ha)
      (fun _ _ _ _ _ => trivial) rs trivial hfirst
  rw [HonestRequests, hruns]
  constructor
  · rintro ⟨h, -⟩ r hr
    exact (h.of_mem hr).choose_spec
  · intro h
    exact ⟨meets_of_mem (fun r hr _ => h r hr) _,
      meets_of_mem (fun r hr _ => (h r hr).keptOnFailure) _⟩

/-- Two workers are asked for, then four, and the third request cannot be read. -/
theorem honestRequests_two_four : HonestRequests (({} : App).subscribeQueueGroup fun _ => none)
    [⟨some (.obj [("workers", .int 2)]), fun _ => none⟩,
     ⟨some (.obj [("workers", .int 4)]), fun _ => none⟩, ⟨none, closing⟩] := by
  refine (honestRequests_iff rfl _).mpr ?_
  simp only [List.forall_mem_cons]
  refine ⟨fun _ _ _ _ _ => rfl, fun _ _ _ _ _ => rfl, fun n hn => ?_, List.forall_mem_nil _⟩
  cases hn

/-- The size is honest whichever subscriptions fail. -/
def AlwaysHonestSize : Prop :=
  ∀ (a : App) (err : ℕ → Option String) (rs : List SizeRequest),
    App.queueGroupError err a.queueWorkersCount = none →
      HonestRequests (a.subscribeQueueGroup err) rs

/-- Three workers are asked for, and the second subscription fails: the group is left with one,
and the status says three. -/
theorem not_alwaysHonestSize : ¬ AlwaysHonestSize := by
  intro h
  have hrun := h {} (fun _ => none) [⟨some (.obj [("workers", .int 3)]), closing⟩] rfl
  have htold := hrun.1.last.told
  have hthree : toldWorkers (run (fun a r => SizeRequest.serve a r)
      (({} : App).subscribeQueueGroup fun _ => none)
      [⟨some (.obj [("workers", .int 3)]), closing⟩]) = some (.int 3) := rfl
  rw [hthree, Option.some_inj, Json.int.injEq] at htold
  exact absurd htold (by decide)

end NatsDemo.Control
