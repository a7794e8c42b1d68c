import NatsDemo.Control.Repair
import NatsDemo.Control.World

/-!
# What reprocessing destroys

`ReprocessDLQ` run alone against any content of the stream and any pattern of failures.
A round of its loop deletes an entry that is no valid payload, one of a job already seen,
and one that it has republished; a job counts as seen before its publish is known to have
succeeded, and an entry without a payload is deleted though it is listed.
-/

namespace NatsDemo.Control
open Lib Go Jobs Messaging

/-- What a run meets: the stream's entries, and which calls succeed. -/
structure Env where
  connected : Bool := true
  stream : Bool := true
  info : Option StreamInfo
  content : ℕ → Option RawMsg
  getOk : ℕ → Bool := fun _ => true
  publishOk : ℕ → Bool := fun _ => true
  deleteOk : ℕ → Bool := fun _ => true
  clock : ℕ → Time := fun _ => 0

/-- What a run does to the two streams. -/
inductive Effect where
  | publish (seq : ℕ) (m : Msg) (ok : Bool)
  | delete (seq : ℕ) (ok : Bool)

def effectOf : (c : Call Op Label) × Call.Res Op.Res Response c → Option Effect
  | ⟨.prim (.publishMsg seq m), ok⟩ => some (.publish seq m ok)
  | ⟨.prim (.deleteMsg seq), ok⟩ => some (.delete seq ok)
  | _ => none

namespace Env

def answer (e : Env) (n : ℕ) : (c : Call Op Label) → Call.Res Op.Res Response c
  | .prim .connected => e.connected
  | .prim .getStream => e.stream
  | .prim .streamInfo => e.info
  | .prim (.getMsg seq) => if e.getOk seq then e.content seq else none
  | .prim .now => e.clock n
  | .prim (.publishMsg origin _) => e.publishOk origin
  | .prim (.deleteMsg seq) => e.deleteOk seq
  | .prim (.publishEvent _) => ()
  | .fork _ => (0 : ℕ)
  | .await _ => nothingToReprocess

/-- The effects of a program whose first call is the `n`-th of the run. -/
def effects {α : Type} (e : Env) (n : ℕ) (p : Proc (Call Op Label) (Call.Res Op.Res Response) α) :
    List Effect :=
  (p.transcript e.answer n).filterMap effectOf

/-- The entry that the run gets at a sequence number. -/
def fetched (e : Env) (seq : ℕ) : Option DLQMessage :=
  entryIn (if e.getOk seq then e.content seq else none)

/-- What the run finds out about the stream, where it gets to the loop. -/
def starts (e : Env) : Option StreamInfo :=
  if e.connected && e.stream then
    e.info.bind fun info => if info.msgs = 0 then none else some info
  else none

end Env

/-- The run gets a valid entry of the job. -/
def Env.Valid (e : Env) (filter : String) (seq : ℕ) (j : String) : Prop :=
  ∃ item, e.fetched seq = some item ∧ Matches filter item ∧ item.jobID = j ∧ j ≠ "" ∧
    item.payload.isSome

/-- The effects publish the entry of a sequence number, repaired, with success. -/
def Env.Publishes (e : Env) (q : ℕ) (es : List Effect) : Prop :=
  ∃ item m, e.fetched q = some item ∧ RepairOf item m ∧ Effect.publish q m true ∈ es

/-- One round: the effects it has, and the progress after it. -/
inductive Round (e : Env) (filter : String) (seq : ℕ) (s : Progress) :
    List Effect → Progress → Prop
  | skipped (h : ∀ item, e.fetched seq = some item → ¬ Matches filter item) :
      Round e filter seq s [] s
  | invalid (item : DLQMessage) (hf : e.fetched seq = some item) (hm : Matches filter item)
      (h : item.jobID = "" ∨ item.payload.isNone) :
      Round e filter seq s [.delete seq (e.deleteOk seq)] s
  | further (item : DLQMessage) (hf : e.fetched seq = some item) (hm : Matches filter item)
      (hjob : item.jobID ≠ "") (hp : item.payload.isSome) (hseen : item.jobID ∈ s.seenJobs) :
      Round e filter seq s [.delete seq (e.deleteOk seq)] s
  | published (item : DLQMessage) (m : Msg) (done : List String)
      (hf : e.fetched seq = some item) (hm : Matches filter item)
      (hjob : item.jobID ≠ "") (hp : item.payload.isSome) (hseen : item.jobID ∉ s.seenJobs)
      (hok : e.publishOk seq = true) (hrepair : RepairOf item m) :
      Round e filter seq s [.publish seq m true, .delete seq (e.deleteOk seq)]
        ⟨item.jobID :: s.seenJobs, done⟩
  | failed (item : DLQMessage) (m : Msg) (done : List String)
      (hf : e.fetched seq = some item) (hm : Matches filter item)
      (hjob : item.jobID ≠ "") (hp : item.payload.isSome) (hseen : item.jobID ∉ s.seenJobs)
      (hok : e.publishOk seq = false) :
      Round e filter seq s [.publish seq m false] ⟨item.jobID :: s.seenJobs, done⟩

section
variable {e : Env} {filter : String}

theorem Env.publishes_append {q : ℕ} {es es' : List Effect} :
    e.Publishes q (es ++ es') ↔ e.Publishes q es ∨ e.Publishes q es' := by
  simp only [Env.Publishes, List.mem_append, and_or_left, exists_or]

theorem not_publishes_of_no_publish {q : ℕ} {es : List Effect}
    (h : ∀ m, Effect.publish q m true ∉ es) : ¬ e.Publishes q es := by
  rintro ⟨-, m, -, -, hm⟩
  exact h m hm

theorem effects_bind {α β : Type} (n : ℕ)
    (p : Proc (Call Op Label) (Call.Res Op.Res Response) α)
    (f : α → Proc (Call Op Label) (Call.Res Op.Res Response) β) :
    e.effects n (p >>= f) = e.effects n p ++
      e.effects (n + (p.transcript e.answer n).length) (f (p.result e.answer n)) := by
  simp [Env.effects, Proc.transcript_bind]

@[simp] theorem effects_ret {α : Type} (n : ℕ) (a : α) : e.effects n (Proc.ret a) = [] := rfl

@[simp] theorem effects_call {α : Type} (n : ℕ) (c : Call Op Label)
    (k : Call.Res Op.Res Response c → Proc (Call Op Label) (Call.Res Op.Res Response) α) :
    e.effects n (Proc.call c k) =
      (effectOf ⟨c, e.answer n c⟩).toList ++ e.effects (n + 1) (k (e.answer n c)) := by
  cases h : effectOf ⟨c, e.answer n c⟩ <;> simp [Env.effects, h]

theorem republish_spec (e : Env) (seq : ℕ) (item : DLQMessage) (n : ℕ) :
    (republish seq item).result e.answer n = e.publishOk seq ∧
      ∃ t1 t2 t3, e.effects n (republish seq item) =
        .publish seq (repairedMsg item t1 t2 t3) (e.publishOk seq) ::
          (if e.publishOk seq then [.delete seq (e.deleteOk seq)] else []) := by
  cases hok : e.publishOk seq <;>
    refine ⟨?_, e.clock n, e.clock (n + 1), e.clock (n + 2), ?_⟩ <;>
      simp [republish, Env.answer, effectOf, hok]

theorem round_spec (filter : String) (seq : ℕ) (s : Progress) (n : ℕ) :
    Round e filter seq s (e.effects n (reprocessEntry filter seq s))
      ((reprocessEntry filter seq s).result e.answer n) := by
  have hspec := verdict_spec filter s.seenJobs (if e.getOk seq then e.content seq else none)
  have hget : e.answer n (.prim (.getMsg seq)) = if e.getOk seq then e.content seq else none := rfl
  simp only [reprocessEntry_eq, effects_call, Proc.result_call, hget]
  generalize verdict filter s.seenJobs (if e.getOk seq then e.content seq else none) = v at hspec
  cases hspec with
  | skipped h => exact .skipped h
  | invalid item hf hm h => exact .invalid item hf hm h
  | further item hf hm hjob hp hseen => exact .further item hf hm hjob hp hseen
  | taken item hf hm hjob hp hseen =>
    obtain ⟨hresult, t1, t2, t3, heffects⟩ := republish_spec e seq item (n + 1)
    have hrepair := repairOf_repairedMsg (wf_of_entryIn hf) hp t1 t2 t3
    simp only [carryOut, effects_bind, Proc.result_bind, hresult, heffects]
    cases hok : e.publishOk seq with
    | true => exact .published item _ _ hf hm hjob hp hseen hok hrepair
    | false => exact .failed item _ _ hf hm hjob hp hseen hok

namespace Round
variable {seq : ℕ} {s s' : Progress} {es : List Effect}

theorem not_valid (h : ∀ item, e.fetched seq = some item → ¬ Matches filter item) (j : String) :
    ¬ e.Valid filter seq j := by
  rintro ⟨item, hf, hm, -⟩
  exact h item hf hm

theorem valid_iff {item : DLQMessage} (hf : e.fetched seq = some item) (hm : Matches filter item)
    (j : String) : e.Valid filter seq j ↔
      item.jobID = j ∧ item.jobID ≠ "" ∧ item.payload.isSome := by
  constructor
  · rintro ⟨item', hf', -, rfl, hjob, hp⟩
    obtain rfl : item = item' := Option.some_inj.mp (hf.symm.trans hf')
    exact ⟨rfl, hjob, hp⟩
  · rintro ⟨rfl, hjob, hp⟩
    exact ⟨item, hf, hm, rfl, hjob, hp⟩

theorem seenJobs (h : Round e filter seq s es s') (j : String) :
    j ∈ s'.seenJobs ↔ j ∈ s.seenJobs ∨ e.Valid filter seq j := by
  cases h with
  | skipped h => simp [not_valid h]
  | invalid item hf hm h =>
    rw [valid_iff hf hm]
    rcases h with h | h <;> simp_all
  | further item hf hm hjob hp hseen =>
    rw [valid_iff hf hm]
    constructor
    · exact Or.inl
    · rintro (h | ⟨rfl, -⟩)
      · exact h
      · exact hseen
  | published item m done hf hm hjob hp hseen hok hrepair =>
    rw [valid_iff hf hm]
    simp [hjob, hp, or_comm, eq_comm]
  | failed item m done hf hm hjob hp hseen hok =>
    rw [valid_iff hf hm]
    simp [hjob, hp, or_comm, eq_comm]

theorem publish_iff (h : Round e filter seq s es s') (q : ℕ) :
    e.Publishes q es ↔
      q = seq ∧ e.publishOk seq = true ∧ ∃ j, e.Valid filter seq j ∧ j ∉ s.seenJobs := by
  cases h with
  | skipped h => simp [not_publishes_of_no_publish, not_valid h]
  | invalid item hf hm h =>
    simp only [valid_iff hf hm]
    refine iff_of_false (not_publishes_of_no_publish (by simp)) ?_
    rcases h with h | h <;> simp_all
  | further item hf hm hjob hp hseen =>
    simp [not_publishes_of_no_publish, valid_iff hf hm, hseen]
  | published item m done hf hm hjob hp hseen hok hrepair =>
    constructor
    · rintro ⟨item', m', hf', -, hmem⟩
      have hsame : q = seq ∧ m' = m := by simpa using hmem
      exact ⟨hsame.1, hok, _, (valid_iff hf hm _).mpr ⟨rfl, hjob, hp⟩, hseen⟩
    · rintro ⟨rfl, -⟩
      exact ⟨item, m, hf, hrepair, List.mem_cons_self⟩
  | failed item m done hf hm hjob hp hseen hok =>
    simp [not_publishes_of_no_publish, hok]

theorem delete_iff (h : Round e filter seq s es s') (q : ℕ) :
    Effect.delete q true ∈ es ↔ q = seq ∧ e.deleteOk seq = true ∧
      ∃ item, e.fetched seq = some item ∧ Matches filter item ∧
        (item.jobID = "" ∨ item.payload.isNone ∨ item.jobID ∈ s.seenJobs ∨
          e.publishOk seq = true) := by
  cases h with
  | skipped h =>
    simp only [List.not_mem_nil, false_iff, not_and, not_exists]
    rintro - - item hf hm
    exact absurd hm (h item hf)
  | invalid item hf hm h =>
    rcases h with h | h
    · simp [hf, hm, h]
    · have hnone : item.payload = none := Option.isNone_iff_eq_none.mp h
      simp [hf, hm, hnone]
  | further item hf hm hjob hp hseen => simp [hf, hm, hseen]
  | published item m done hf hm hjob hp hseen hok hrepair => simp [hf, hm, hok]
  | failed item m done hf hm hjob hp hseen hok =>
    have hp' : item.payload ≠ none := Option.isSome_iff_ne_none.mp hp
    simp [hf, hjob, hp', hseen, hok]

end Round

/-! ## The loop -/

/-- The jobs seen are those of the valid entries from `a` up to the present one. -/
def SeenFrom (e : Env) (filter : String) (a cur : ℕ) (s : Progress) : Prop :=
  ∀ j, j ∈ s.seenJobs ↔ ∃ q, a ≤ q ∧ q < cur ∧ e.Valid filter q j

/-- The first valid entry of a job from `a` on. -/
def FirstFrom (e : Env) (filter : String) (a q : ℕ) (j : String) : Prop :=
  e.Valid filter q j ∧ ∀ q', a ≤ q' → q' < q → ¬ e.Valid filter q' j

theorem SeenFrom.step {a cur : ℕ} {s s' : Progress} {es : List Effect} (ha : a ≤ cur)
    (hs : SeenFrom e filter a cur s) (h : Round e filter cur s es s') :
    SeenFrom e filter a (cur + 1) s' := by
  intro j
  rw [h.seenJobs, hs]
  constructor
  · rintro (⟨q, hq, hlt, hvalid⟩ | hvalid)
    · exact ⟨q, hq, Nat.lt_succ_of_lt hlt, hvalid⟩
    · exact ⟨cur, ha, Nat.lt_succ_self cur, hvalid⟩
  · rintro ⟨q, hq, hlt, hvalid⟩
    cases Nat.lt_succ_iff_lt_or_eq.mp hlt with
    | inl hlt => exact Or.inl ⟨q, hq, hlt, hvalid⟩
    | inr heq =>
      subst heq
      exact Or.inr hvalid

theorem SeenFrom.not_mem_iff {a cur : ℕ} {s : Progress} (hs : SeenFrom e filter a cur s)
    (j : String) : j ∉ s.seenJobs ↔ ∀ q', a ≤ q' → q' < cur → ¬ e.Valid filter q' j := by
  rw [hs]
  simp only [not_exists, not_and]

theorem effects_reprocessAll (e : Env) (filter : String) (k cur n : ℕ) (s : Progress) :
    ∃ n' s', Round e filter cur s (e.effects n (reprocessEntry filter cur s)) s' ∧
      e.effects n (reprocessAll filter (List.range' cur (k + 1)) s) =
        e.effects n (reprocessEntry filter cur s) ++
          e.effects n' (reprocessAll filter (List.range' (cur + 1) k) s') :=
  ⟨_, _, round_spec filter cur s n, effects_bind n _ _⟩

/-- The present number, or one of those behind it. -/
theorem range_succ_iff {P : ℕ → Prop} {cur k q : ℕ} :
    (q = cur ∧ P cur) ∨ ((cur + 1 ≤ q ∧ q < cur + 1 + k) ∧ P q) ↔
      (cur ≤ q ∧ q < cur + (k + 1)) ∧ P q := by
  by_cases hq : q = cur
  · subst hq
    have hself : q ≤ q ∧ q < q + (k + 1) := by omega
    have hnot : ¬ (q + 1 ≤ q ∧ q < q + 1 + k) := by omega
    simp only [hself, hnot, true_and, false_and, or_false, and_self]
  · have hiff : (cur + 1 ≤ q ∧ q < cur + 1 + k) ↔ (cur ≤ q ∧ q < cur + (k + 1)) := by omega
    simp only [hq, false_and, false_or, hiff]

theorem publish_mem_iff {a : ℕ} (k : ℕ) {cur : ℕ} {s : Progress} (n q : ℕ) (ha : a ≤ cur)
    (hs : SeenFrom e filter a cur s) :
    e.Publishes q (e.effects n (reprocessAll filter (List.range' cur k) s)) ↔
      (cur ≤ q ∧ q < cur + k) ∧ e.publishOk q = true ∧ ∃ j, FirstFrom e filter a q j := by
  induction k generalizing cur s n with
  | zero => simp [reprocessAll, not_publishes_of_no_publish]
  | succ k ih =>
    obtain ⟨n', s', hround, heffects⟩ := effects_reprocessAll e filter k cur n s
    rw [heffects, Env.publishes_append, hround.publish_iff,
      ih n' (Nat.le_succ_of_le ha) (hs.step ha hround)]
    simp only [hs.not_mem_iff]
    exact range_succ_iff (P := fun q => e.publishOk q = true ∧ ∃ j, FirstFrom e filter a q j)

theorem delete_mem_iff {a : ℕ} (k : ℕ) {cur : ℕ} {s : Progress} (n q : ℕ) (ha : a ≤ cur)
    (hs : SeenFrom e filter a cur s) :
    Effect.delete q true ∈ e.effects n (reprocessAll filter (List.range' cur k) s) ↔
      (cur ≤ q ∧ q < cur + k) ∧ e.deleteOk q = true ∧
        ∃ item, e.fetched q = some item ∧ Matches filter item ∧
          (item.jobID = "" ∨ item.payload.isNone ∨
            (∃ q', a ≤ q' ∧ q' < q ∧ e.Valid filter q' item.jobID) ∨ e.publishOk q = true) := by
  induction k generalizing cur s n with
  | zero => simp [reprocessAll]
  | succ k ih =>
    obtain ⟨n', s', hround, heffects⟩ := effects_reprocessAll e filter k cur n s
    rw [heffects, List.mem_append, hround.delete_iff,
      ih n' (Nat.le_succ_of_le ha) (hs.step ha hround)]
    simp only [hs _]
    exact range_succ_iff (P := fun q => e.deleteOk q = true ∧
      ∃ item, e.fetched q = some item ∧ Matches filter item ∧
        (item.jobID = "" ∨ item.payload.isNone ∨
          (∃ q', a ≤ q' ∧ q' < q ∧ e.Valid filter q' item.jobID) ∨ e.publishOk q = true))

/-! ## A whole run -/

def Env.Deleted (e : Env) (filter : String) (seq : ℕ) : Prop :=
  Effect.delete seq true ∈ e.effects 0 (reprocessDLQ filter)

/-- The run has published the entry, repaired, with success. -/
def Env.Republished (e : Env) (filter : String) (seq : ℕ) : Prop :=
  e.Publishes seq (e.effects 0 (reprocessDLQ filter))

theorem effects_reprocessDLQ (e : Env) (filter : String) :
    ∃ n, e.effects 0 (reprocessDLQ filter) =
      e.starts.elim [] fun info => e.effects n (reprocessAll filter info.walked {}) := by
  refine ⟨3, ?_⟩
  rw [Env.starts]
  cases hconnected : e.connected with
  | false => simp [reprocessDLQ, Env.answer, effectOf, hconnected]
  | true =>
    cases hstream : e.stream with
    | false => simp [reprocessDLQ, Env.answer, effectOf, hconnected, hstream]
    | true =>
      cases hinfo : e.info with
      | none => simp [reprocessDLQ, Env.answer, effectOf, hconnected, hstream, hinfo]
      | some info =>
        by_cases hmsgs : info.msgs = 0
        · simp [reprocessDLQ, Env.answer, effectOf, hconnected, hstream, hinfo, hmsgs]
        · simp [reprocessDLQ, Env.answer, effectOf, hconnected, hstream, hinfo, hmsgs, effects_bind]

theorem seenFrom_empty (e : Env) (filter : String) (a : ℕ) : SeenFrom e filter a a {} := by
  intro j
  simp only [List.not_mem_nil, false_iff]
  rintro ⟨q, hq, hlt, -⟩
  exact absurd hlt (Nat.not_lt.mpr hq)

theorem walked_iff {info : StreamInfo} {q : ℕ} :
    (info.firstSeq ≤ q ∧ q < info.firstSeq + (info.lastSeq + 1 - info.firstSeq)) ↔
      (info.firstSeq ≤ q ∧ q ≤ info.lastSeq) := by omega

theorem republished_iff (q : ℕ) : e.Republished filter q ↔
    ∃ info, e.starts = some info ∧ (info.firstSeq ≤ q ∧ q ≤ info.lastSeq) ∧
      e.publishOk q = true ∧ ∃ j, FirstFrom e filter info.firstSeq q j := by
  obtain ⟨n, heffects⟩ := effects_reprocessDLQ e filter
  rw [Env.Republished]
  rw [heffects]
  cases hstarts : e.starts with
  | none => simp [not_publishes_of_no_publish]
  | some info =>
    have h := publish_mem_iff (info.lastSeq + 1 - info.firstSeq) n q (Nat.le_refl info.firstSeq)
      (seenFrom_empty e filter info.firstSeq)
    rw [walked_iff] at h
    simpa [StreamInfo.walked] using h

theorem deleted_iff (q : ℕ) : e.Deleted filter q ↔
    ∃ info, e.starts = some info ∧ (info.firstSeq ≤ q ∧ q ≤ info.lastSeq) ∧
      e.deleteOk q = true ∧ ∃ item, e.fetched q = some item ∧ Matches filter item ∧
        (item.jobID = "" ∨ item.payload.isNone ∨
          (∃ q', info.firstSeq ≤ q' ∧ q' < q ∧ e.Valid filter q' item.jobID) ∨
          e.publishOk q = true) := by
  obtain ⟨n, heffects⟩ := effects_reprocessDLQ e filter
  rw [Env.Deleted]
  rw [heffects]
  cases hstarts : e.starts with
  | none => simp
  | some info =>
    have h := delete_mem_iff (info.lastSeq + 1 - info.firstSeq) n q (Nat.le_refl info.firstSeq)
      (seenFrom_empty e filter info.firstSeq)
    rw [walked_iff] at h
    simpa [StreamInfo.walked] using h

/-! ## What is listed and deleted -/

/-- `GetDLQMessages` would list the entry. -/
def Env.Listed (e : Env) (seq : ℕ) (item : DLQMessage) : Prop :=
  ∃ raw, e.content seq = some raw ∧ listEntry seq raw = some item

/-- What is listed and deleted had its job republished. -/
def Env.Preserves (e : Env) (filter : String) : Prop :=
  ∀ seq item, e.Listed seq item → e.Deleted filter seq →
    ∃ seq' item', e.Listed seq' item' ∧ item'.jobID = item.jobID ∧ e.Republished filter seq'

/-- A listed entry that the run gets and can delete, without being the first valid one of
its job, has a first valid one that can be published. -/
def Env.Rescued (e : Env) (filter : String) : Prop :=
  ∀ info, e.starts = some info → ∀ seq item, info.firstSeq ≤ seq → seq ≤ info.lastSeq →
    e.fetched seq = some item → Matches filter item → item.jobID ≠ "" →
    (item.payload.isSome ∨ item.failureReason ≠ "") → e.deleteOk seq = true →
    ¬ FirstFrom e filter info.firstSeq seq item.jobID →
    ∃ q, info.firstSeq ≤ q ∧ q ≤ info.lastSeq ∧ FirstFrom e filter info.firstSeq q item.jobID ∧
      e.publishOk q = true

theorem listEntry_eq_some {seq : ℕ} {raw : RawMsg} {item₀ item : DLQMessage}
    (hparse : DLQMessage.parse raw.msg.data = some item₀) (h : listEntry seq raw = some item) :
    item₀.jobID = item.jobID ∧ item₀.jobID ≠ "" ∧
      (item₀.payload.isSome ∨ item₀.failureReason ≠ "") := by
  by_cases hskip : item₀.jobID = "" ∨ item₀.payload.isNone ∧ item₀.failureReason = ""
  · simp only [listEntry, hparse, if_pos hskip, reduceCtorEq] at h
  · simp only [listEntry, hparse, if_neg hskip, Option.some.injEq] at h
    push Not at hskip
    refine ⟨by rw [← h], hskip.1, ?_⟩
    cases hpayload : item₀.payload with
    | none => exact Or.inr (hskip.2 (by simp [hpayload]))
    | some p => exact Or.inl rfl

theorem listEntry_of_parse (seq : ℕ) {raw : RawMsg} {item₀ : DLQMessage}
    (hparse : DLQMessage.parse raw.msg.data = some item₀) (hjob : item₀.jobID ≠ "")
    (hbody : item₀.payload.isSome ∨ item₀.failureReason ≠ "") :
    ∃ item, listEntry seq raw = some item ∧ item.jobID = item₀.jobID := by
  have hkept : ¬ (item₀.jobID = "" ∨ item₀.payload.isNone ∧ item₀.failureReason = "") := by
    rintro (h | ⟨hnone, hreason⟩)
    · exact hjob h
    · cases hbody with
      | inl hsome => simp [Option.isNone_iff_eq_none.mp hnone] at hsome
      | inr hne => exact hne hreason
  simp only [listEntry, hparse, if_neg hkept]
  exact ⟨_, rfl, rfl⟩

theorem fetched_eq_some {seq : ℕ} {item : DLQMessage} (h : e.fetched seq = some item) :
    ∃ raw, e.content seq = some raw ∧ DLQMessage.parse raw.msg.data = some item := by
  rw [Env.fetched] at h
  split_ifs at h with hok
  · exact Option.bind_eq_some_iff.mp h
  · cases h

/-- A listed entry that the run gets is the one listed. -/
theorem Env.Listed.entry {seq : ℕ} {item₀ item : DLQMessage} (h : e.Listed seq item)
    (hf : e.fetched seq = some item₀) :
    item₀.jobID = item.jobID ∧ item₀.jobID ≠ "" ∧
      (item₀.payload.isSome ∨ item₀.failureReason ≠ "") := by
  obtain ⟨raw, hraw, hlist⟩ := h
  obtain ⟨raw', hraw', hparse⟩ := fetched_eq_some hf
  obtain rfl : raw = raw' := Option.some_inj.mp (hraw.symm.trans hraw')
  exact listEntry_eq_some hparse hlist

theorem listed_of_fetched {seq : ℕ} {item₀ : DLQMessage} (hf : e.fetched seq = some item₀)
    (hjob : item₀.jobID ≠ "") (hbody : item₀.payload.isSome ∨ item₀.failureReason ≠ "") :
    ∃ item, e.Listed seq item ∧ item.jobID = item₀.jobID := by
  obtain ⟨raw, hraw, hparse⟩ := fetched_eq_some hf
  obtain ⟨item, hlist, heq⟩ := listEntry_of_parse seq hparse hjob hbody
  exact ⟨item, ⟨raw, hraw, hlist⟩, heq⟩

theorem listed_of_valid {q : ℕ} {j : String} (h : e.Valid filter q j) :
    ∃ item, e.Listed q item ∧ item.jobID = j := by
  obtain ⟨item₀, hf, -, rfl, hjob, hp⟩ := h
  exact listed_of_fetched hf hjob (Or.inl hp)

/-- An entry for the run that is not the first valid one of its job is deleted if it can
be. -/
theorem deleted_of_not_first {info : StreamInfo} {seq : ℕ} {item : DLQMessage}
    (hstarts : e.starts = some info) (hrange : info.firstSeq ≤ seq ∧ seq ≤ info.lastSeq)
    (hf : e.fetched seq = some item) (hm : Matches filter item) (hjob : item.jobID ≠ "")
    (hok : e.deleteOk seq = true) (hfirst : ¬ FirstFrom e filter info.firstSeq seq item.jobID) :
    e.Deleted filter seq := by
  rw [deleted_iff]
  refine ⟨info, hstarts, hrange, hok, item, hf, hm, Or.inr ?_⟩
  cases hp : item.payload with
  | none => exact Or.inl rfl
  | some p =>
    have hvalid : e.Valid filter seq item.jobID := ⟨item, hf, hm, rfl, hjob, by simp [hp]⟩
    unfold FirstFrom at hfirst
    push Not at hfirst
    exact Or.inr (Or.inl (hfirst hvalid))

/-- **When reprocessing preserves the jobs.**  For every content and every pattern of
failures, every listed entry that is deleted had its job republished, if and only if the
entries that are not the first of their job are rescued. -/
theorem preserves_iff_rescued (e : Env) (filter : String) :
    e.Preserves filter ↔ e.Rescued filter := by
  constructor
  · intro h info hstarts seq item hle hge hf hm hjob hbody hok hfirst
    obtain ⟨listed, hlisted, heq⟩ := listed_of_fetched hf hjob hbody
    have hdeleted := deleted_of_not_first hstarts ⟨hle, hge⟩ hf hm hjob hok hfirst
    obtain ⟨q, item', hlisted', heq', hrep⟩ := h seq listed hlisted hdeleted
    obtain ⟨info', hstarts', hrange, hpub, j, hj⟩ := (republished_iff q).mp hrep
    obtain rfl : info = info' := Option.some_inj.mp (hstarts.symm.trans hstarts')
    have hjobs : j = item.jobID := by
      obtain ⟨item₀, hf₀, -, rfl, -⟩ := hj.1
      calc item₀.jobID = item'.jobID := (hlisted'.entry hf₀).1
        _ = listed.jobID := heq'
        _ = item.jobID := heq
    subst hjobs
    exact ⟨q, hrange.1, hrange.2, hj, hpub⟩
  · intro h seq listed hlisted hdeleted
    obtain ⟨info, hstarts, hrange, hok, item, hf, hm, hcause⟩ := (deleted_iff seq).mp hdeleted
    obtain ⟨heq, hjob, hbody⟩ := hlisted.entry hf
    by_cases hfirst : FirstFrom e filter info.firstSeq seq item.jobID
    · -- the first valid entry of a job is deleted for no reason but its publish
      have hpub : e.publishOk seq = true := by
        rcases hcause with hempty | hnone | ⟨q, hle, hlt, hvalid⟩ | hpub
        · exact absurd hempty hjob
        · obtain ⟨item', hf', -, -, -, hp⟩ := hfirst.1
          obtain rfl : item = item' := Option.some_inj.mp (hf.symm.trans hf')
          simp [Option.isNone_iff_eq_none.mp hnone] at hp
        · exact absurd hvalid (hfirst.2 q hle hlt)
        · exact hpub
      exact ⟨seq, listed, hlisted, rfl,
        (republished_iff seq).mpr ⟨info, hstarts, hrange, hpub, _, hfirst⟩⟩
    · obtain ⟨q, hle, hge, hq, hpub⟩ :=
        h info hstarts seq item hrange.1 hrange.2 hf hm hjob hbody hok hfirst
      obtain ⟨item', hlisted', heq'⟩ := listed_of_valid hq.1
      exact ⟨q, item', hlisted', heq'.trans heq,
        (republished_iff q).mpr ⟨info, hstarts, ⟨hle, hge⟩, hpub, _, hq⟩⟩

end

/-! ## A failed publish with a second entry behind it -/

/-- Two entries of one job, and no publish that succeeds. -/
def failedPublish : Env where
  info := some ⟨2, 1, 2⟩
  content := fun seq => if seq = 1 ∨ seq = 2 then some ⟨deadLetter "a", 0⟩ else none
  publishOk := fun _ => false

theorem not_preserves_failedPublish : ¬ failedPublish.Preserves "" := by
  intro h
  have heffects : ∃ m, failedPublish.effects 0 (reprocessDLQ "") =
      [.publish 1 m false, .delete 2 true] := ⟨_, rfl⟩
  obtain ⟨m, heffects⟩ := heffects
  have hdeleted : failedPublish.Deleted "" 2 := by simp [Env.Deleted, heffects]
  obtain ⟨q, item, -, -, -, m', -, -, hm⟩ := h 2 _ ⟨_, rfl, rfl⟩ hdeleted
  simp [heffects] at hm

end NatsDemo.Control
