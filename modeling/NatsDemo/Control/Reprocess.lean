import NatsDemo.Control.Preserve

/-!
# What reprocessing comes to

`ReprocessDLQ` run alone on the streams, where no call fails.  Of each job it publishes the
first entry with a payload, in the order of the stream, and it deletes whatever entry decodes
and is for the run.
-/

namespace NatsDemo.Control
open Lib Go Jobs Messaging

/-- What a run on the streams meets, when every call succeeds. -/
def Shared.env (s : Shared) (clock : ℕ → Time) : Env where
  info := some s.info
  content := s.entry
  clock := clock

/-- What an effect of a run makes of the streams. -/
def Shared.apply (s : Shared) : Effect → Shared
  | .publish seq m ok => if ok then s.publishJob ⟨some seq, m⟩ else s
  | .delete seq ok => if ok then s.deleteMsg seq else s

/-- The streams after a run. -/
def Shared.after (s : Shared) (es : List Effect) : Shared := run apply s es

/-- An entry for the run that has a job and a payload. -/
structure Shared.Usable (s : Shared) (filter : String) (q : ℕ) (item : DLQMessage) : Prop where
  entry : entryIn (s.entry q) = some item
  matching : Matches filter item
  jobID : item.jobID ≠ ""
  payload : item.payload.isSome

/-- No usable entry of its job comes before it. -/
structure Shared.First (s : Shared) (filter : String) (q : ℕ) (item : DLQMessage) : Prop where
  usable : s.Usable filter q item
  first : ∀ q' < q, ∀ item', s.Usable filter q' item' → item'.jobID ≠ item.jobID

/-- A message that was published, under the number of the entry that it comes from. -/
def publishOf : Effect → Option (ℕ × Msg)
  | .publish seq m ok => if ok then some (seq, m) else none
  | .delete _ _ => none

/-- The message hands on the job of the entry. -/
def Repairs (p : ℕ × Msg) (pick : ℕ × DLQMessage) : Prop :=
  p.1 = pick.1 ∧ RepairOf pick.2 p.2

/-- The response that reports these jobs. -/
def Reports (jobs : List String) (r : Response) : Prop :=
  ∃ text, r = ⟨200, .obj [("jobs", .arr (jobs.map .str)), ("message", .str text),
    ("reprocessed", .int jobs.length)]⟩

/-- What a run comes to that publishes the entries `picks`. -/
structure Reprocesses (s : Shared) (clock : ℕ → Time) (filter : String)
    (picks : List (ℕ × DLQMessage)) : Prop where
  first : ∀ q item, (q, item) ∈ picks ↔ s.First filter q item
  covers : ∀ q item, s.Usable filter q item → item.jobID ∈ picks.map fun x => x.2.jobID
  increasing : picks.Pairwise fun x y => x.1 < y.1
  published : List.Forall₂ Repairs
    (((s.env clock).effects 0 (reprocessDLQ filter)).filterMap publishOf) picks
  distinct : (picks.map fun x => x.2.jobID).Nodup
  reported : Reports (picks.map fun x => x.2.jobID)
    ((reprocessDLQ filter).result (s.env clock).answer 0)
  left : ∀ q raw, (s.after ((s.env clock).effects 0 (reprocessDLQ filter))).entry q = some raw ↔
    s.entry q = some raw ∧ ∀ item, entryIn (some raw) = some item → ¬ Matches filter item

/-! ## The streams -/

section
variable {s : Shared} {q : ℕ}

/-- An entry is within the bounds that the stream tells. -/
theorem Shared.bounds_of_entry {raw : RawMsg} (h : s.entry q = some raw) :
    s.info.msgs ≠ 0 ∧ s.info.firstSeq ≤ q ∧ q ≤ s.info.lastSeq := by
  cases q with
  | zero => cases h
  | succ i =>
    obtain ⟨r, hr, -⟩ := Option.map_eq_some_iff.mp h
    obtain ⟨hr, hdeleted⟩ := Option.filter_eq_some_iff.mp hr
    obtain ⟨hlt, hget⟩ := List.getElem?_eq_some_iff.mp hr
    refine ⟨?_, ?_, hlt⟩
    · have hmem : r ∈ s.dlq.records.filter fun r => !r.deleted :=
        List.mem_filter.mpr ⟨List.mem_of_getElem? hr, hdeleted⟩
      exact (List.length_pos_of_mem hmem).ne'
    · refine Nat.succ_le_succ ?_
      by_contra hnot
      have hgone := List.not_of_lt_findIdx (not_le.mp hnot)
      rw [hget, hdeleted] at hgone
      cases hgone

theorem Shared.entry_deleteMsg (s : Shared) (seq q : ℕ) :
    (s.deleteMsg seq).entry q = if q = seq then none else s.entry q := by
  cases seq with
  | zero =>
    cases q with
    | zero => rfl
    | succ j => rfl
  | succ i =>
    cases q with
    | zero => rfl
    | succ j =>
      have hget := s.dlq.get?_delete i j
      by_cases hij : j = i
      · simp only [hij, if_true] at hget ⊢
        simp only [Shared.deleteMsg, Shared.entry, hget, Option.map_none]
      · have hij' : ¬ j + 1 = i + 1 := fun h => hij (Nat.succ.inj h)
        rw [if_neg hij] at hget
        simp only [Shared.deleteMsg, Shared.entry, hget, if_neg hij']

/-- The entries left by a run are those it has not deleted. -/
theorem Shared.entry_after (s : Shared) (es : List Effect) (q : ℕ) (raw : RawMsg) :
    (s.after es).entry q = some raw ↔ s.entry q = some raw ∧ Effect.delete q true ∉ es := by
  induction es generalizing s with
  | nil => simp [Shared.after]
  | cons x es ih =>
    have hcons : s.after (x :: es) = (s.apply x).after es := rfl
    rw [hcons, ih, List.mem_cons, not_or, ← and_assoc]
    refine and_congr_left fun _ => ?_
    cases x with
    | publish seq m ok =>
      have hsame : (s.apply (.publish seq m ok)).entry q = s.entry q := by cases ok <;> rfl
      simp [hsame]
    | delete seq ok =>
      cases ok with
      | false => simp [Shared.apply]
      | true =>
        simp only [Shared.apply, if_true, Shared.entry_deleteMsg]
        split_ifs with hq <;> simp [hq]

end

/-! ## The loop -/

/-- The entries that the loop publishes. -/
def picksFrom (s : Shared) (filter : String) : List String → List ℕ → List (ℕ × DLQMessage)
  | _, [] => []
  | seen, q :: qs =>
    match verdict filter seen (s.entry q) with
    | .take item => (q, item) :: picksFrom s filter (item.jobID :: seen) qs
    | _ => picksFrom s filter seen qs

section
variable {s : Shared} {clock : ℕ → Time} {filter : String}

variable (clock) in
/-- A round publishes and deletes the entry that it takes. -/
theorem round_of_take {st : Progress} {q : ℕ} {item : DLQMessage}
    (hv : verdict filter st.seenJobs (s.entry q) = .take item) (n : ℕ) :
    (∃ m, Repairs (q, m) (q, item) ∧
      ((s.env clock).effects n (reprocessEntry filter q st)).filterMap publishOf = [(q, m)]) ∧
    (reprocessEntry filter q st).result (s.env clock).answer n =
      ⟨item.jobID :: st.seenJobs, st.reprocessedJobs ++ [item.jobID]⟩ := by
  have hget : (s.env clock).answer n (.prim (.getMsg q)) = s.entry q := rfl
  have hjudged := verdict_spec filter st.seenJobs (s.entry q)
  rw [hv] at hjudged
  rw [reprocessEntry_eq, effects_call, Proc.result_call, hget, hv]
  cases hjudged with
  | taken item hitem hm hjob hp hseen =>
    exact ⟨⟨_, ⟨rfl, repairOf_repairedMsg (wf_of_entryIn hitem) hp _ _ _⟩, rfl⟩, rfl⟩

variable (clock) in
theorem round_of_not_take {st : Progress} {q : ℕ}
    (hv : ∀ item, verdict filter st.seenJobs (s.entry q) ≠ .take item) (n : ℕ) :
    ((s.env clock).effects n (reprocessEntry filter q st)).filterMap publishOf = [] ∧
      (reprocessEntry filter q st).result (s.env clock).answer n = st := by
  have hget : (s.env clock).answer n (.prim (.getMsg q)) = s.entry q := rfl
  rw [reprocessEntry_eq, effects_call, Proc.result_call, hget]
  cases hverdict : verdict filter st.seenJobs (s.entry q) with
  | skip => exact ⟨rfl, rfl⟩
  | drop => exact ⟨rfl, rfl⟩
  | take item => exact absurd hverdict (hv item)

variable (s clock filter) in
/-- By induction over the numbers to be walked: what is published, and what is reported. -/
theorem reprocessAll_spec (qs : List ℕ) (st : Progress) (n : ℕ) :
    List.Forall₂ Repairs
      (((s.env clock).effects n (reprocessAll filter qs st)).filterMap publishOf)
      (picksFrom s filter st.seenJobs qs) ∧
    ((reprocessAll filter qs st).result (s.env clock).answer n).reprocessedJobs =
      st.reprocessedJobs ++ (picksFrom s filter st.seenJobs qs).map fun x => x.2.jobID := by
  induction qs generalizing st n with
  | nil => exact ⟨.nil, (List.append_nil _).symm⟩
  | cons q qs ih =>
    have hbind : reprocessAll filter (q :: qs) st =
      reprocessEntry filter q st >>= reprocessAll filter qs := rfl
    rw [hbind, effects_bind, Proc.result_bind, List.filterMap_append, picksFrom]
    split
    next item hv =>
      obtain ⟨⟨m, hm, hpublished⟩, hresult⟩ := round_of_take clock hv n
      rw [hpublished, hresult]
      obtain ⟨hrest, hreported⟩ := ih ⟨item.jobID :: st.seenJobs, _⟩ _
      refine ⟨.cons hm hrest, hreported.trans ?_⟩
      simp
    next hno =>
      obtain ⟨hpublished, hresult⟩ := round_of_not_take clock hno n
      rw [hpublished, hresult]
      exact ih st _

/-! ## The entries published -/

theorem take_iff {seen : List String} {q : ℕ} {item : DLQMessage} :
    verdict filter seen (s.entry q) = .take item ↔
      s.Usable filter q item ∧ item.jobID ∉ seen := by
  have hspec := verdict_spec filter seen (s.entry q)
  generalize verdict filter seen (s.entry q) = v at hspec
  cases hspec with
  | skipped h => exact iff_of_false (by simp) fun hu => h item hu.1.entry hu.1.matching
  | invalid item' hitem hm h =>
    refine iff_of_false (by simp) ?_
    rintro ⟨⟨hentry, -, hjob, hp⟩, -⟩
    obtain rfl := Option.some_inj.mp (hitem.symm.trans hentry)
    rcases h with h | h
    · exact hjob h
    · simp [Option.isNone_iff_eq_none.mp h] at hp
  | further item' hitem hm hjob hp hseen =>
    refine iff_of_false (by simp) ?_
    rintro ⟨⟨hentry, -⟩, hnot⟩
    obtain rfl := Option.some_inj.mp (hitem.symm.trans hentry)
    exact hnot hseen
  | taken item' hitem hm hjob hp hseen =>
    rw [Verdict.take.injEq]
    constructor
    · rintro rfl
      exact ⟨⟨hitem, hm, hjob, hp⟩, hseen⟩
    · rintro ⟨hu, -⟩
      exact Option.some_inj.mp (hitem.symm.trans hu.entry)

theorem Shared.Usable.unique {q : ℕ} {item item' : DLQMessage} (h : s.Usable filter q item)
    (h' : s.Usable filter q item') : item = item' :=
  Option.some_inj.mp (h.entry.symm.trans h'.entry)

/-- The entries published from `cur` on: the first of each job that was not seen before. -/
theorem mem_picksFrom_iff (k : ℕ) {cur : ℕ} {seen : List String} {q : ℕ} {item : DLQMessage} :
    (q, item) ∈ picksFrom s filter seen (List.range' cur k) ↔
      (cur ≤ q ∧ q < cur + k) ∧ s.Usable filter q item ∧ item.jobID ∉ seen ∧
        ∀ q', cur ≤ q' → q' < q → ∀ item', s.Usable filter q' item' →
          item'.jobID ≠ item.jobID := by
  induction k generalizing cur seen with
  | zero =>
    simp only [List.range'_zero, picksFrom, List.not_mem_nil, false_iff, not_and]
    intro hrange
    omega
  | succ k ih =>
    rw [List.range'_succ, picksFrom]
    split
    next item₀ hv =>
      obtain ⟨hu₀, hseen₀⟩ := take_iff.mp hv
      rw [List.mem_cons, ih, List.mem_cons, not_or, Prod.mk.injEq]
      constructor
      · rintro (⟨rfl, rfl⟩ | ⟨hrange, hu, ⟨hne, hseen⟩, hfirst⟩)
        · exact ⟨by omega, hu₀, hseen₀, fun q' hle hlt => absurd hlt (not_lt.mpr hle)⟩
        · refine ⟨by omega, hu, hseen, fun q' hle hlt item' hu' => ?_⟩
          rcases hle.eq_or_lt with rfl | hlt'
          · rw [hu'.unique hu₀]
            exact Ne.symm hne
          · exact hfirst q' hlt' hlt item' hu'
      · rintro ⟨hrange, hu, hseen, hfirst⟩
        rcases hrange.1.eq_or_lt with rfl | hlt
        · exact Or.inl ⟨rfl, hu.unique hu₀⟩
        · refine Or.inr ⟨by omega, hu, ⟨?_, hseen⟩, fun q' hle => hfirst q' (by omega)⟩
          exact (hfirst cur le_rfl hlt item₀ hu₀).symm
    next hno =>
      rw [ih]
      constructor
      · rintro ⟨hrange, hu, hseen, hfirst⟩
        refine ⟨by omega, hu, hseen, fun q' hle hlt item' hu' => ?_⟩
        rcases hle.eq_or_lt with rfl | hlt'
        · -- a usable entry that is not taken is of a job seen before
          intro heq
          exact hno item' (take_iff.mpr ⟨hu', heq ▸ hseen⟩)
        · exact hfirst q' hlt' hlt item' hu'
      · rintro ⟨hrange, hu, hseen, hfirst⟩
        rcases hrange.1.eq_or_lt with rfl | hlt
        · exact absurd (take_iff.mpr ⟨hu, hseen⟩) (hno item)
        · exact ⟨by omega, hu, hseen, fun q' hle => hfirst q' (by omega)⟩

theorem picksFrom_sublist (seen : List String) (qs : List ℕ) :
    ((picksFrom s filter seen qs).map Prod.fst).Sublist qs := by
  induction qs generalizing seen with
  | nil => exact .slnil
  | cons q qs ih =>
    rw [picksFrom]
    split
    · exact (ih _).cons_cons q
    · exact (ih _).cons q

variable (s filter) in
theorem increasing_picksFrom (seen : List String) (cur k : ℕ) :
    (picksFrom s filter seen (List.range' cur k)).Pairwise fun x y => x.1 < y.1 := by
  have hwalked : (List.range' cur k).Pairwise (· < ·) := List.pairwise_lt_range'
  exact List.pairwise_map.mp (hwalked.sublist (picksFrom_sublist seen _))

/-- The entries published by a run. -/
theorem mem_picks_iff {q : ℕ} {item : DLQMessage} :
    (q, item) ∈ picksFrom s filter [] s.info.walked ↔ s.First filter q item := by
  rw [StreamInfo.walked, mem_picksFrom_iff, walked_iff]
  constructor
  · rintro ⟨-, hu, -, hfirst⟩
    refine ⟨hu, fun q' hlt item' hu' => ?_⟩
    obtain ⟨raw, hraw, -⟩ := Option.bind_eq_some_iff.mp hu'.entry
    exact hfirst q' (Shared.bounds_of_entry hraw).2.1 hlt item' hu'
  · rintro ⟨hu, hfirst⟩
    obtain ⟨raw, hraw, -⟩ := Option.bind_eq_some_iff.mp hu.entry
    exact ⟨(Shared.bounds_of_entry hraw).2, hu, List.not_mem_nil,
      fun q' _ hlt => hfirst q' hlt⟩

/-! ## A whole run -/

/-- A run finds nothing to do, or comes to the loop. -/
theorem run_reprocessDLQ (s : Shared) (clock : ℕ → Time) (filter : String) :
    (s.info.msgs = 0 ∧ (s.env clock).effects 0 (reprocessDLQ filter) = [] ∧
      (reprocessDLQ filter).result (s.env clock).answer 0 = nothingToReprocess) ∨
    (s.env clock).effects 0 (reprocessDLQ filter) =
      (s.env clock).effects 3 (reprocessAll filter s.info.walked {}) ∧
    (reprocessDLQ filter).result (s.env clock).answer 0 =
      reprocessed ((reprocessAll filter s.info.walked {}).result
        (s.env clock).answer 3).reprocessedJobs := by
  by_cases hmsgs : s.info.msgs = 0
  · refine Or.inl ⟨hmsgs, ?_, ?_⟩ <;>
      simp [reprocessDLQ, Env.answer, Shared.env, effectOf, hmsgs]
  · refine Or.inr ⟨?_, ?_⟩ <;>
      simp [reprocessDLQ, Env.answer, Shared.env, effectOf, hmsgs, effects_bind,
        Proc.result_bind]

variable (s clock filter) in
/-- A run deletes the entries for it that decode. -/
theorem deleted_iff_matching (q : ℕ) : (s.env clock).Deleted filter q ↔
    ∃ item, entryIn (s.entry q) = some item ∧ Matches filter item := by
  rw [deleted_iff]
  constructor
  · rintro ⟨info, -, -, -, item, hitem, hm, -⟩
    exact ⟨item, hitem, hm⟩
  · rintro ⟨item, hitem, hm⟩
    obtain ⟨raw, hraw, -⟩ := Option.bind_eq_some_iff.mp hitem
    obtain ⟨hmsgs, hrange⟩ := Shared.bounds_of_entry hraw
    refine ⟨s.info, ?_, hrange, rfl, item, hitem, hm, Or.inr (Or.inr (Or.inr rfl))⟩
    simp [Env.starts, Shared.env, hmsgs]

theorem distinct_of_first {picks : List (ℕ × DLQMessage)}
    (hpicks : ∀ q item, (q, item) ∈ picks → s.First filter q item)
    (hincreasing : picks.Pairwise fun x y => x.1 < y.1) :
    (picks.map fun x => x.2.jobID).Nodup := by
  rw [List.Nodup, List.pairwise_map]
  refine hincreasing.imp_of_mem fun {x y} hx hy hlt => ?_
  exact (hpicks y.1 y.2 hy).first x.1 hlt x.2 (hpicks x.1 x.2 hx).usable

/-- Of each job with a usable entry, one is the first. -/
theorem exists_first {q : ℕ} {item : DLQMessage} (hu : s.Usable filter q item) :
    ∃ q' item', s.First filter q' item' ∧ item'.jobID = item.jobID := by
  induction q using Nat.strong_induction_on generalizing item with
  | _ q ih =>
    by_cases hfirst : s.First filter q item
    · exact ⟨q, item, hfirst, rfl⟩
    · have hearlier : ∃ q' < q, ∃ item', s.Usable filter q' item' ∧ item'.jobID = item.jobID := by
        by_contra hnone
        refine hfirst ⟨hu, fun q' hlt item' hu' heq => hnone ⟨q', hlt, item', hu', heq⟩⟩
      obtain ⟨q', hlt, item', hu', heq⟩ := hearlier
      obtain ⟨q'', item'', hfirst', heq'⟩ := ih q' hlt hu'
      exact ⟨q'', item'', hfirst', heq'.trans heq⟩

theorem picks_eq_nil (h : s.info.msgs = 0) : picksFrom s filter [] s.info.walked = [] := by
  refine List.eq_nil_iff_forall_not_mem.mpr fun ⟨q, item⟩ hmem => ?_
  obtain ⟨raw, hraw, -⟩ := Option.bind_eq_some_iff.mp (mem_picks_iff.mp hmem).usable.entry
  exact (Shared.bounds_of_entry hraw).1 h

theorem reprocesses (s : Shared) (clock : ℕ → Time) (filter : String) :
    Reprocesses s clock filter (picksFrom s filter [] s.info.walked) := by
  have hincreasing := increasing_picksFrom s filter [] s.info.firstSeq
    (s.info.lastSeq + 1 - s.info.firstSeq)
  obtain ⟨hpublished, hreported⟩ := reprocessAll_spec s clock filter
    s.info.walked {} 3
  refine ⟨fun _ _ => mem_picks_iff, ?_, hincreasing, ?_,
    distinct_of_first (fun _ _ => mem_picks_iff.mp) hincreasing, ?_, ?_⟩
  · intro q item hu
    obtain ⟨q', item', hfirst, heq⟩ := exists_first hu
    rw [← heq]
    exact List.mem_map_of_mem (f := fun x : ℕ × DLQMessage => x.2.jobID)
      (mem_picks_iff.mpr hfirst)
  · rcases run_reprocessDLQ s clock filter with ⟨hmsgs, heffects, -⟩ | ⟨heffects, -⟩
    · rw [heffects, picks_eq_nil hmsgs]
      exact .nil
    · rw [heffects]
      exact hpublished
  · rcases run_reprocessDLQ s clock filter with ⟨hmsgs, -, hresult⟩ | ⟨-, hresult⟩
    · rw [hresult, picks_eq_nil hmsgs]
      exact ⟨_, rfl⟩
    · rw [hresult, hreported]
      exact ⟨_, rfl⟩
  · intro q raw
    rw [Shared.entry_after]
    refine and_congr_right fun hentry => ?_
    have hdeleted := deleted_iff_matching s clock filter q
    rw [hentry] at hdeleted
    refine (not_congr hdeleted).trans ?_
    simp only [not_exists, not_and]

/-- A run for one job publishes one entry of it at most. -/
theorem Reprocesses.of_filter {picks : List (ℕ × DLQMessage)}
    (h : Reprocesses s clock filter picks) (hfilter : filter ≠ "") :
    (picks = [] ∧ ∀ q item, ¬ s.Usable filter q item) ∨
      ∃ q item, picks = [(q, item)] ∧ item.jobID = filter := by
  have hjob : ∀ x ∈ picks, x.2.jobID = filter := by
    intro x hx
    exact ((h.first x.1 x.2).mp hx).usable.matching.resolve_left hfilter
  cases picks with
  | nil => exact Or.inl ⟨rfl, fun q item hu => List.not_mem_nil (h.covers q item hu)⟩
  | cons x xs =>
    refine Or.inr ⟨x.1, x.2, ?_, hjob x List.mem_cons_self⟩
    have hnodup := (List.nodup_cons.mp h.distinct).1
    cases xs with
    | nil => rfl
    | cons y ys =>
      have hsame : y.2.jobID = x.2.jobID :=
        (hjob y (by simp)).trans (hjob x List.mem_cons_self).symm
      exact absurd (List.mem_map.mpr ⟨y, List.mem_cons_self, hsame⟩) hnodup

end

/-- **What reprocessing comes to.**  Where no call fails, a run hands on the job of the first
usable entry of each, repaired and in the order of the stream, reports just these jobs, and
deletes the entries for it that decode.  For a given job this is one entry at most, and for
all of them it leaves those that do not decode. -/
theorem reprocessDLQ_exactly (s : Shared) (clock : ℕ → Time) (filter : String) :
    ∃ picks, Reprocesses s clock filter picks ∧
      (filter ≠ "" → (picks = [] ∧ ∀ q item, ¬ s.Usable filter q item) ∨
        ∃ q item, picks = [(q, item)] ∧ item.jobID = filter) ∧
      (filter = "" → ∀ q raw,
        (s.after ((s.env clock).effects 0 (reprocessDLQ filter))).entry q = some raw ↔
          s.entry q = some raw ∧ entryIn (some raw) = none) := by
  have h := reprocesses s clock filter
  refine ⟨_, h, h.of_filter, ?_⟩
  rintro rfl q raw
  rw [h.left]
  refine and_congr_right fun _ => ?_
  constructor
  · intro hnone
    exact Option.eq_none_iff_forall_ne_some.mpr fun item hitem => hnone item hitem (Or.inl rfl)
  · rintro hnone item hitem
    rw [hnone] at hitem
    cases hitem

end NatsDemo.Control
