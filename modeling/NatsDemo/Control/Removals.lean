import NatsDemo.Control.Desk
import NatsDemo.Control.Reprocess

/-!
# What becomes of the entries

An entry of JOBS_DLQ goes by a purge, by a cleanup, or by a run of reprocessing that has read an
entry under its number.  As long as the stream was not set up anew in between, what was read is
that entry, and the run had a reason to delete it.
-/

namespace NatsDemo.Control.Desk
open Lib Go Jobs Messaging

/-! ## What a request has noted -/

/-- An entry that was read, or a message that was published for one with success. -/
inductive Noted where
  | read (seq : ℕ) (raw : RawMsg)
  | published (seq : ℕ) (m : Msg)

def noteOf : (o : Control.Op) → o.Res → List Noted
  | .getMsg seq, some raw => [.read seq raw]
  | .publishMsg seq m, true => [.published seq m]
  | _, _ => []

/-- A run deletes an entry that it has read and that is for it, if it is no valid payload, its job
was handed on to the workers, or it follows an entry of the same job. -/
def Justified (filter : String) (notes : List Noted) (seq : ℕ) (raw : RawMsg) : Prop :=
  .read seq raw ∈ notes ∧ ∃ item, entryIn (some raw) = some item ∧ Matches filter item ∧
    (item.jobID = "" ∨ item.payload.isNone ∨
      (∃ m, .published seq m ∈ notes ∧ RepairOf item m) ∨
      ∃ seq' raw' item', seq' < seq ∧ .read seq' raw' ∈ notes ∧ entryIn (some raw') = some item' ∧
        item'.jobID = item.jobID ∧ item'.payload.isSome)

/-- A request deletes only entries that it may delete. -/
def deleting (filter : String) :
    Contract Shared (Call Control.Op Control.Label) (Call.Res Control.Op.Res Response)
      (List Noted) where
  pre notes
    | .prim (.deleteMsg seq) => ∃ raw, Justified filter notes seq raw
    | _ => True
  ans _ _ _ _ := True
  next notes _
    | .prim o, r => notes ++ noteOf o r
    | _, _ => notes

section
variable {filter : String} {notes : List Noted}

/-- The jobs seen are those of entries read before the ones to come. -/
def SeenBefore (notes : List Noted) (seenJobs : List String) (seqs : List ℕ) : Prop :=
  ∀ j ∈ seenJobs, ∃ seq raw item, .read seq raw ∈ notes ∧ entryIn (some raw) = some item ∧
    item.jobID = j ∧ item.payload.isSome ∧ ∀ q ∈ seqs, seq < q

theorem SeenBefore.mono {notes notes' : List Noted} {seenJobs : List String} {seqs seqs' : List ℕ}
    (h : SeenBefore notes seenJobs seqs) (hnotes : notes ⊆ notes') (hseqs : seqs' ⊆ seqs) :
    SeenBefore notes' seenJobs seqs' := by
  intro j hj
  obtain ⟨seq, raw, item, hread, hitem, hjob, hp, hlt⟩ := h j hj
  exact ⟨seq, raw, item, hnotes hread, hitem, hjob, hp, fun q hq => hlt q (hseqs hq)⟩

/-- What a run has read of a job keeps the job seen. -/
theorem SeenBefore.cons {seenJobs : List String} {seq : ℕ} {seqs : List ℕ} {raw : RawMsg}
    {item : DLQMessage} (h : SeenBefore notes seenJobs seqs) (hread : .read seq raw ∈ notes)
    (hitem : entryIn (some raw) = some item) (hp : item.payload.isSome)
    (hseqs : ∀ q ∈ seqs, seq < q) : SeenBefore notes (item.jobID :: seenJobs) seqs := by
  intro j hj
  rcases List.mem_cons.mp hj with rfl | hj
  · exact ⟨seq, raw, item, hread, hitem, rfl, hp, hseqs⟩
  · exact h j hj

/-- An entry that is taken is published, and deleted if that succeeds. -/
theorem wp_republish {seq : ℕ} {raw : RawMsg} {item : DLQMessage} (hread : .read seq raw ∈ notes)
    (hitem : entryIn (some raw) = some item) (hm : Matches filter item)
    (hp : item.payload.isSome) :
    (republish seq item).wp (deleting filter) (fun _ notes' => notes ⊆ notes') notes := by
  simp only [republish, Control.op_eq, Proc.call_bind, Proc.ret_bind]
  refine ⟨trivial, fun _ t1 _ => ⟨trivial, fun _ t2 _ => ⟨trivial, fun _ t3 _ => ⟨trivial,
    fun _ ok _ => ?_⟩⟩⟩⟩
  have hgrown (new : List Noted) : notes ⊆ notes ++ noteOf .now t1 ++ noteOf .now t2 ++
      noteOf .now t3 ++ new := fun q hq => by simp [hq]
  cases ok with
  | false => exact hgrown _
  | true =>
    refine ⟨⟨raw, hgrown _ hread, item, hitem, hm, .inr (.inr (.inl ⟨_, ?_,
      repairOf_repairedMsg (wf_of_entryIn hitem) hp t1 t2 t3⟩))⟩, fun _ ok _ =>
      ⟨trivial, fun _ _ _ => ?_⟩⟩
    · exact List.mem_append_right _ (List.mem_singleton.mpr rfl)
    · exact List.Subset.trans (List.Subset.trans (hgrown _) (List.subset_append_left _ _))
        (List.subset_append_left _ _)

theorem wp_reprocessEntry {seq : ℕ} {seqs : List ℕ} (hseqs : ∀ q ∈ seqs, seq < q) (s : Progress)
    (hseen : SeenBefore notes s.seenJobs (seq :: seqs)) :
    (reprocessEntry filter seq s).wp (deleting filter)
      (fun s' notes' => SeenBefore notes' s'.seenJobs seqs) notes := by
  rw [reprocessEntry_eq]
  refine ⟨trivial, fun _ raw _ => ?_⟩
  have hgrown : notes ⊆ notes ++ noteOf (.getMsg seq) raw := List.subset_append_left _ _
  have hafter : SeenBefore (notes ++ noteOf (.getMsg seq) raw) s.seenJobs seqs :=
    hseen.mono hgrown (List.subset_cons_self _ _)
  have hread {item : DLQMessage} (hitem : entryIn raw = some item) :
      ∃ raw', raw = some raw' ∧ .read seq raw' ∈ notes ++ noteOf (.getMsg seq) raw := by
    cases raw with
    | none => cases hitem
    | some raw => exact ⟨raw, rfl, List.mem_append_right _ (List.mem_singleton.mpr rfl)⟩
  have hjudged := verdict_spec filter s.seenJobs raw
  show Proc.wp _ (carryOut seq s (verdict filter s.seenJobs raw)) _
    (notes ++ noteOf (.getMsg seq) raw)
  generalize verdict filter s.seenJobs raw = v at hjudged ⊢
  cases hjudged with
  | skipped h => exact hafter
  | invalid item hitem hm h =>
    obtain ⟨raw, rfl, hread⟩ := hread hitem
    refine ⟨⟨raw, hread, item, hitem, hm, h.imp_right Or.inl⟩, fun _ ok _ => ?_⟩
    exact hafter.mono (List.subset_append_left _ _) (List.Subset.refl _)
  | further item hitem hm hjob hp hs =>
    obtain ⟨raw, rfl, hread⟩ := hread hitem
    obtain ⟨seq', raw', item', hread', hitem', hjob', hp', hlt⟩ := hseen _ hs
    refine ⟨⟨raw, hread, item, hitem, hm, .inr (.inr (.inr ⟨seq', raw', item',
      hlt seq List.mem_cons_self, hgrown hread', hitem', hjob', hp'⟩))⟩, fun _ ok _ => ?_⟩
    exact hafter.mono (List.subset_append_left _ _) (List.Subset.refl _)
  | taken item hitem hm hjob hp hs =>
    obtain ⟨raw, rfl, hread⟩ := hread hitem
    refine Proc.wp_bind.mpr (Proc.wp_mono (wp_republish hread hitem hm hp) fun ok notes' hsub => ?_)
    exact (hafter.cons hread hitem hp hseqs).mono hsub (List.Subset.refl _)

theorem wp_reprocessAll (seqs : List ℕ) (hsorted : seqs.Pairwise (· < ·)) (s : Progress)
    (hseen : SeenBefore notes s.seenJobs seqs) :
    (reprocessAll filter seqs s).wp (deleting filter) (fun _ _ => True) notes := by
  induction seqs generalizing s notes with
  | nil => trivial
  | cons seq seqs ih =>
    obtain ⟨hseqs, htail⟩ := List.pairwise_cons.mp hsorted
    exact Proc.wp_bind.mpr (Proc.wp_mono (wp_reprocessEntry hseqs s hseen) fun s' _ hs' =>
      ih htail s' hs')

theorem wp_reprocessDLQ :
    (reprocessDLQ filter).wp (deleting filter) (fun _ _ => True) notes := by
  simp only [reprocessDLQ, Control.op_eq, Proc.call_bind, Proc.ret_bind]
  refine ⟨trivial, fun _ connected _ => ?_⟩
  cases connected with
  | false => trivial
  | true =>
    refine ⟨trivial, fun _ stream _ => ?_⟩
    cases stream with
    | false => trivial
    | true =>
      refine ⟨trivial, fun _ info _ => ?_⟩
      cases info with
      | none => trivial
      | some info =>
        by_cases hmsgs : info.msgs = 0
        · simp [hmsgs]
        · simp only [if_neg hmsgs]
          exact Proc.wp_bind.mpr (Proc.wp_mono (wp_reprocessAll _ List.pairwise_lt_range' {}
            (by simp [SeenBefore])) fun _ _ _ => trivial)

end

/-! ## The calls that take entries away -/

/-- The job that a request of reprocessing asks for. -/
def Label.filter : Label → Option String
  | .entries (.reprocess body query) => some (requestedJobID body query)
  | _ => none

/-- What a request may call to take entries away. -/
def removing (l : Label) :
    Contract Shared (Call Op Label) (Call.Res Op.Res Response) (List Noted) where
  pre notes
    | .prim (.entries (.deleteMsg seq)) => ∃ filter raw, l.filter = some filter ∧
      Justified filter notes seq raw
    | .prim .deleteStream => l = .cleanup
    | .prim .purge => l = .purge
    | _ => True
  ans _ _ _ _ := True
  next notes _
    | .prim (.entries o), r => notes ++ noteOf o r
    | _, _ => notes

theorem removing_extends {l : Label} {filter : String} (h : l.filter = some filter) :
    (removing l).Extends (deleting filter) callOf answerOf where
  pre notes c hc := by
    cases c with
    | prim o =>
      cases o with
      | deleteMsg seq =>
        obtain ⟨raw, hraw⟩ := hc
        exact ⟨filter, raw, h, hraw⟩
      | _ => trivial
    | _ => trivial
  ans _ _ _ _ _ := trivial
  next notes _ c r := by cases c <;> rfl

/-- The calls that take entries away. -/
def Removes : Call Op Label → Prop
  | .prim (.entries (.deleteMsg _)) | .prim .deleteStream | .prim .purge => True
  | _ => False

theorem wp_removing_of_avoids {l : Label} {p : Prog Response} {notes : List Noted}
    (hp : p.Avoids Removes) : p.wp (removing l) (fun _ _ => True) notes := by
  refine Proc.wp_of_avoids (fun _ => True) (fun _ _ _ _ _ _ => trivial) ?_ hp
    (fun _ _ _ => trivial) trivial
  intro notes c hc _
  cases c with
  | prim o =>
    cases o with
    | entries o =>
      cases o with
      | deleteMsg seq => exact absurd trivial hc
      | _ => trivial
    | deleteStream | purge => exact absurd trivial hc
    | _ => trivial
  | _ => trivial

theorem listAll_avoids (seqs : List ℕ) (messages : List DLQMessage) :
    (listAll seqs messages).Avoids fun c => Removes (callOf c) := by
  induction seqs generalizing messages with
  | nil => trivial
  | cons seq seqs ih =>
    refine ⟨id, fun raw => ?_⟩
    cases raw with
    | none => exact ih messages
    | some raw => exact ih _

theorem getDLQMessages_avoids : getDLQMessages.Avoids fun c => Removes (callOf c) := by
  simp only [getDLQMessages, Control.op_eq, Proc.call_bind, Proc.ret_bind]
  refine ⟨id, fun connected => ?_⟩
  cases connected with
  | false => trivial
  | true =>
    refine ⟨id, fun stream => ?_⟩
    cases stream with
    | false => trivial
    | true =>
      refine ⟨id, fun info => ?_⟩
      cases info with
      | none => trivial
      | some info =>
        by_cases hmsgs : info.msgs = 0
        · simp [hmsgs]
        · have hlist := listAll_avoids info.walked []
          simp only [if_neg hmsgs]
          exact hlist.bind fun _ => trivial

theorem getDLQStatus_avoids : getDLQStatus.Avoids Removes := by
  refine ⟨id, fun connected => ?_⟩
  cases connected with
  | false => trivial
  | true =>
    refine ⟨id, fun stream => ?_⟩
    cases stream with
    | false => trivial
    | true => exact ⟨id, fun _ => ⟨id, fun _ => trivial⟩⟩

theorem setupDLQ_avoids : setupDLQ.Avoids Removes := by
  refine ⟨id, fun connected => ?_⟩
  cases connected with
  | false => trivial
  | true =>
    refine ⟨id, fun err => ?_⟩
    cases err with
    | some err => trivial
    | none =>
      refine ⟨id, fun err => ?_⟩
      cases err <;> trivial

theorem wp_handler (l : Label) : (handler l).wp (removing l) (fun _ _ => True) [] := by
  cases l with
  | entries l =>
    cases l with
    | messages => exact wp_removing_of_avoids (Proc.avoids_embed getDLQMessages_avoids)
    | reprocess body query =>
      exact Proc.wp_embed (removing_extends (l := .entries (.reprocess body query)) rfl)
        wp_reprocessDLQ
  | status => exact wp_removing_of_avoids getDLQStatus_avoids
  | setup => exact wp_removing_of_avoids setupDLQ_avoids
  | cleanup =>
    refine ⟨trivial, fun _ connected _ => ?_⟩
    cases connected with
    | false => trivial
    | true =>
      refine ⟨rfl, fun _ err _ => ?_⟩
      cases err <;> trivial
  | purge =>
    refine ⟨trivial, fun _ connected _ => ?_⟩
    cases connected with
    | false => trivial
    | true =>
      refine ⟨trivial, fun _ stream _ => ?_⟩
      cases stream with
      | false => trivial
      | true =>
        refine ⟨rfl, fun _ err _ => ?_⟩
        cases err <;> trivial

/-! ## Streams grow -/

/-- What a record is, deleted or not. -/
def kept (dlq : Log String Msg) : List (Option String × ℕ × Msg) :=
  dlq.records.map fun r => (r.id, r.time, r.body)

/-- Within an epoch a stream only takes records, until it is removed. -/
def Grows (s s' : Shared) : Prop :=
  s.epoch ≤ s'.epoch ∧ (s.epoch = s'.epoch → ∀ dlq', s'.stream = some dlq' →
    ∃ dlq, s.stream = some dlq ∧ kept dlq <+: kept dlq')

theorem Grows.refl (s : Shared) : Grows s s :=
  ⟨Nat.le_refl _, fun _ dlq h => ⟨dlq, h, List.prefix_rfl⟩⟩

theorem Grows.trans {s s' s'' : Shared} (h : Grows s s') (h' : Grows s' s'') : Grows s s'' := by
  refine ⟨h.1.trans h'.1, fun heq dlq'' hdlq'' => ?_⟩
  have hfirst : s.epoch = s'.epoch := Nat.le_antisymm h.1 (heq ▸ h'.1)
  obtain ⟨dlq', hdlq', hp'⟩ := h'.2 (hfirst.symm.trans heq) dlq'' hdlq''
  obtain ⟨dlq, hdlq, hp⟩ := h.2 hfirst dlq' hdlq'
  exact ⟨dlq, hdlq, hp.trans hp'⟩

theorem kept_publish (dlq : Log String Msg) (now : ℕ) (id : Option String) (m : Msg) :
    kept dlq <+: kept (dlq.publish now id m) := by
  by_cases hdup : dlq.Duplicate now id
  · simp [Log.publish_of_duplicate hdup]
  · rw [kept, kept, Log.publish_of_not_duplicate hdup, List.map_append]
    exact List.prefix_append _ _

theorem kept_delete (dlq : Log String Msg) (i : ℕ) : kept (dlq.delete i) = kept dlq :=
  Machine.map_modify_same dlq.records i fun _ => rfl

theorem kept_emptied (dlq : Log String Msg) : kept (Shared.emptied dlq) = kept dlq := by
  rw [kept, kept, Shared.emptied, List.map_map]
  rfl

/-- A call on the entries leaves what the records are. -/
theorem kept_exec (x : Control.Choice) (s : Control.Shared) (o : Control.Op) :
    kept (s.exec x o).2.dlq = kept s.dlq := by
  cases o with
  | deleteMsg seq =>
    show kept (if x.done then s.deleteMsg seq else s).dlq = _
    split_ifs
    · cases seq with
      | zero => rfl
      | succ i => exact kept_delete s.dlq i
    · rfl
  | publishMsg origin m =>
    show kept (if x.done then s.publishJob ⟨some origin, m⟩ else s).dlq = _
    split_ifs <;> rfl
  | _ => rfl

/-- An empty stream grows into any that is set up later. -/
theorem grows_removed (s : Shared) (jobs : Log String Stored) (clock : Time) :
    Grows s { s with stream := none, jobs, clock } := ⟨Nat.le_refl _, fun _ _ h => nomatch h⟩

theorem grows_of_kept {s : Shared} {dlq dlq' : Log String Msg} (h : s.stream = some dlq)
    (hkept : kept dlq <+: kept dlq') (jobs : Log String Stored) (clock : Time) :
    Grows s { s with stream := some dlq', jobs, clock } :=
  ⟨Nat.le_refl _, fun _ _ heq => ⟨dlq, h, Option.some_inj.mp heq ▸ hkept⟩⟩

theorem grows_exec (x : Choice) (s : Shared) (o : Op) : Grows s (s.exec x o).2 := by
  cases o with
  | entries o =>
    cases h : s.stream with
    | some dlq =>
      simp only [Shared.exec, h]
      exact grows_of_kept h (kept_exec x.toChoice (s.withQueue dlq) o ▸ List.prefix_rfl) _ _
    | none =>
      simp only [Shared.exec, h]
      exact h ▸ grows_removed s _ _
  | streamState | inspector | createOrUpdateConsumer => exact Grows.refl s
  | createOrUpdateStream =>
    simp only [Shared.exec]
    split_ifs with hset
    · exact ⟨Nat.le_succ _, fun heq => absurd heq (Nat.ne_of_lt (Nat.lt_succ_self _))⟩
    · exact Grows.refl s
  | deleteStream =>
    simp only [Shared.exec]
    split_ifs with hstream hdone
    · exact grows_removed s _ _
    · exact Grows.refl s
    · exact Grows.refl s
  | purge =>
    cases h : s.stream with
    | some dlq =>
      simp only [Shared.exec, h, Option.isSome_some, if_true, Option.map_some]
      split_ifs
      · exact grows_of_kept h (kept_emptied dlq ▸ List.prefix_rfl) _ _
      · exact Grows.refl s
    | none =>
      simp only [Shared.exec, h]
      exact Grows.refl s

theorem grows_input (s : Shared) (e : Input) : Grows s (s.input e).1 := by
  cases e with
  | storeDLQ m =>
    cases h : s.stream with
    | some dlq =>
      simp only [Shared.input, h, Option.map_some]
      exact grows_of_kept h (kept_publish dlq _ _ m) _ _
    | none =>
      simp only [Shared.input, h, Option.map_none]
      exact grows_removed s _ _
  | _ => exact ⟨Nat.le_refl _, fun _ dlq h => ⟨dlq, h, List.prefix_rfl⟩⟩

theorem grows_run (s : State) (as : List Act) : Grows s.shared (run Machine.step s as).shared := by
  induction as generalizing s with
  | nil => exact Grows.refl _
  | cons a as ih =>
    have hstep : Grows s.shared (Machine.step s a).shared :=
      Machine.shared_step (Grows s.shared) (Grows.refl _) (fun e _ => grows_input s.shared e)
        fun _ x _ o _ _ _ _ => grows_exec x s.shared o
    exact hstep.trans (ih (Machine.step s a))

/-! ## Entries -/

/-- The entry under a number is the record there, if it was not deleted. -/
theorem entry_eq_some {s : Shared} {seq : ℕ} {raw : RawMsg} (h : s.entry seq = some raw) :
    ∃ dlq i r, s.stream = some dlq ∧ seq = i + 1 ∧ dlq.get? i = some r ∧ raw = ⟨r.body, r.time⟩ := by
  obtain ⟨dlq, hdlq, hentry⟩ := Option.bind_eq_some_iff.mp h
  cases seq with
  | zero => cases hentry
  | succ i =>
    obtain ⟨r, hr, hraw⟩ := Option.map_eq_some_iff.mp hentry
    exact ⟨dlq, i, r, hdlq, rfl, hr, hraw.symm⟩

theorem kept_of_get? {dlq : Log String Msg} {i : ℕ} {r : Record String Msg}
    (h : dlq.get? i = some r) : (kept dlq)[i]? = some (r.id, r.time, r.body) := by
  rw [kept, List.getElem?_map, (Option.filter_eq_some_iff.mp h).1]
  rfl

/-- What stands under a number stays there until the stream is set up anew. -/
theorem entry_of_grows {s s' : Shared} (h : Grows s s') (hepoch : s.epoch = s'.epoch) {seq : ℕ}
    {raw raw' : RawMsg} (hraw : s.entry seq = some raw) (hraw' : s'.entry seq = some raw') :
    raw = raw' := by
  obtain ⟨dlq', i', r', hdlq', rfl, hr', rfl⟩ := entry_eq_some hraw'
  obtain ⟨dlq₀, i, r, hdlq₀, hi, hr, rfl⟩ := entry_eq_some hraw
  obtain ⟨dlq, hdlq, hp⟩ := h.2 hepoch dlq' hdlq'
  obtain rfl : dlq₀ = dlq := Option.some_inj.mp (hdlq₀.symm.trans hdlq)
  obtain rfl : i' = i := Nat.succ.inj hi
  obtain ⟨new, hnew⟩ := hp
  have hget := kept_of_get? hr
  have hget' := kept_of_get? hr'
  rw [← hnew, List.getElem?_append_left (List.getElem?_eq_some_iff.mp hget).1, hget] at hget'
  simp only [Option.some_inj, Prod.mk.injEq] at hget'
  rw [hget'.2.1, hget'.2.2]

/-- A publish leaves what is there. -/
theorem get?_publish {dlq : Log String Msg} {i : ℕ} {r : Record String Msg}
    (h : dlq.get? i = some r) (now : ℕ) (id : Option String) (m : Msg) :
    (dlq.publish now id m).get? i = some r := by
  obtain ⟨hr, hdeleted⟩ := Option.filter_eq_some_iff.mp h
  refine Option.filter_eq_some_iff.mpr ⟨?_, hdeleted⟩
  by_cases hdup : dlq.Duplicate now id
  · rwa [Log.publish_of_duplicate hdup]
  · rwa [Log.publish_of_not_duplicate hdup,
      List.getElem?_append_left (List.getElem?_eq_some_iff.mp hr).1]

theorem entry_input {s : Shared} {seq : ℕ} {raw : RawMsg} (h : s.entry seq = some raw) (e : Input) :
    (s.input e).1.entry seq = some raw := by
  cases e with
  | storeDLQ m =>
    obtain ⟨dlq, i, r, hdlq, rfl, hr, rfl⟩ := entry_eq_some h
    simp only [Shared.input, hdlq, Option.map_some]
    have hstored := get?_publish hr s.clock m.msgID m
    exact congrArg (Option.map fun r : Record String Msg => (⟨r.body, r.time⟩ : RawMsg)) hstored
  | _ => exact h

/-- The calls after which an entry is gone. -/
theorem removes_of_gone {x : Choice} {s : Shared} {o : Op} {seq : ℕ} {raw : RawMsg}
    (h : s.entry seq = some raw) (hgone : (s.exec x o).2.entry seq = none) :
    o = .entries (.deleteMsg seq) ∨ o = .purge ∨ o = .deleteStream := by
  have hstill : s.entry seq ≠ none := by simp [h]
  cases o with
  | entries o =>
    refine .inl ?_
    obtain ⟨dlq, hdlq, -⟩ := Option.bind_eq_some_iff.mp h
    have hentry : s.entry seq = (s.withQueue dlq).entry seq := by
      rw [Shared.entry, hdlq]
      rfl
    have hexec : (s.exec x (.entries o)).2.entry seq =
        ((s.withQueue dlq).exec x.toChoice o).2.entry seq := by
      simp only [Shared.exec, hdlq]
      cases seq <;> rfl
    rw [hexec] at hgone
    rw [hentry] at hstill
    cases o with
    | deleteMsg seq' =>
      by_cases hseq : seq = seq'
      · rw [hseq]
      · refine absurd hgone ?_
        show (if x.toChoice.done then (s.withQueue dlq).deleteMsg seq' else
          s.withQueue dlq).entry seq ≠ none
        split_ifs
        · rwa [Control.Shared.entry_deleteMsg, if_neg hseq]
        · exact hstill
    | publishMsg origin m =>
      refine absurd hgone ?_
      show (if x.toChoice.done then (s.withQueue dlq).publishJob ⟨some origin, m⟩ else
        s.withQueue dlq).entry seq ≠ none
      split_ifs
      · cases seq <;> exact hstill
      · exact hstill
    | _ => exact absurd hgone hstill
  | purge => exact .inr (.inl rfl)
  | deleteStream => exact .inr (.inr rfl)
  | createOrUpdateStream =>
    obtain ⟨dlq, hdlq, -⟩ := Option.bind_eq_some_iff.mp h
    simp only [Shared.exec, hdlq, Option.isNone_some, Bool.false_eq_true, and_false,
      if_false] at hgone
    exact absurd hgone hstill
  | _ => exact absurd hgone hstill

/-! ## The causes -/

/-- What a request has noted so far. -/
def noted (t : Thread) : List Noted := (removing t.label).after [] t.hist

theorem eq_getMsg_of_read {o : Control.Op} {r : o.Res} {seq : ℕ} {raw : RawMsg}
    (h : .read seq raw ∈ noteOf o r) :
    (⟨o, r⟩ : (o : Control.Op) × o.Res) = ⟨.getMsg seq, some raw⟩ := by
  cases o with
  | getMsg seq' =>
    cases r with
    | none => cases h
    | some raw' =>
      cases List.mem_singleton.mp h
      rfl
  | publishMsg origin m =>
    cases r with
    | false => cases h
    | true => cases List.mem_singleton.mp h
  | _ => cases h

/-- What was read was got by a call. -/
theorem exists_event_of_read {l : Label} {seq : ℕ} {raw : RawMsg}
    {h : List (Lib.Event Shared (Call Op Label) (Call.Res Op.Res Response))}
    (hmem : .read seq raw ∈ (removing l).after [] h) :
    ∃ e ∈ h, e.done = ⟨.prim (.entries (.getMsg seq)), some raw⟩ := by
  induction h using List.reverseRecOn with
  | nil => cases hmem
  | append_singleton h e ih =>
    rw [Contract.after_snoc] at hmem
    have hold (hmem : .read seq raw ∈ (removing l).after [] h) :
        ∃ e' ∈ h ++ [e], e'.done = ⟨.prim (.entries (.getMsg seq)), some raw⟩ := by
      obtain ⟨e', he', hdone⟩ := ih hmem
      exact ⟨e', List.mem_append_left _ he', hdone⟩
    obtain ⟨ctx, c, r⟩ := e
    cases c with
    | prim o =>
      cases o with
      | entries o =>
        rcases List.mem_append.mp hmem with hmem | hmem
        · exact hold hmem
        · refine ⟨_, List.mem_append_right _ (List.mem_singleton.mpr rfl), ?_⟩
          obtain ⟨rfl, hr⟩ := Sigma.mk.inj (eq_getMsg_of_read hmem)
          cases hr
          rfl
      | _ => exact hold hmem
    | _ => exact hold hmem

/-- What a call gets is an entry of the stream. -/
theorem entry_of_getMsg {x : Choice} {s : Shared} {seq : ℕ} {raw : RawMsg}
    (h : some raw = (s.exec x (.entries (.getMsg seq))).1) : s.entry seq = some raw := by
  cases hdlq : s.stream with
  | none =>
    simp only [Shared.exec, hdlq] at h
    cases h
  | some dlq =>
    simp only [Shared.exec, hdlq] at h
    change some raw = if x.toChoice.ok then (s.withQueue dlq).entry seq else none at h
    split_ifs at h
    · rw [Shared.entry, hdlq]
      exact h.symm

/-- **Why an entry goes.**  If a step takes away an entry, it is a call of a purge, of a cleanup,
or of a run of reprocessing; and that has read an entry under its number before, for which it has
a reason.  If the stream is still the one it was then, that entry is the one taken away. -/
theorem removal_has_cause (s : Shared) (as : List Act) (a : Act) {seq : ℕ} {raw : RawMsg}
    (h : (after s as).shared.entry seq = some raw)
    (hgone : (Machine.step (after s as) a).shared.entry seq = none) :
    ∃ (i : ℕ) (x : Choice) (t : Thread), a = .op i x ∧ (after s as).threads[i]? = some t ∧
      (t.label = .purge ∨ t.label = .cleanup ∨ ∃ filter raw' bs, t.label.filter = some filter ∧
        Justified filter (noted t) seq raw' ∧ bs <+: as ∧
        (after s bs).shared.entry seq = some raw' ∧
        ((after s bs).shared.epoch = (after s as).shared.epoch → raw' = raw)) := by
  have hstill : (after s as).shared.entry seq ≠ none := by simp [h]
  have hstep := Machine.step_spec (after s as) a
  generalize hs' : Machine.step (after s as) a = s' at hstep hgone
  cases hstep with
  | idle | fork | await => exact absurd hgone hstill
  | env e => exact absurd hgone (by simp [world, entry_input h e])
  | @prim i t o k x ht hr =>
    refine ⟨i, x, t, rfl, ht, ?_⟩
    have hpre := (t.traced.wp (wp_handler t.label) (meets_of_mem (fun _ _ _ => trivial) _)).2
    rw [hr] at hpre
    obtain rfl | rfl | rfl := removes_of_gone h hgone
    · obtain ⟨filter, raw', hlabel, hjustified⟩ := hpre.1
      obtain ⟨e, he, hdone⟩ := exists_event_of_read hjustified.1
      obtain ⟨bs, hbs, hctx, hanswer⟩ := Machine.seen_in_run rfl (List.mem_of_getElem? ht) e he
      obtain ⟨x', hx'⟩ := hanswer _ _ hdone
      have hentry : (after s bs).shared.entry seq = some raw' := hctx ▸ entry_of_getMsg hx'
      refine .inr (.inr ⟨filter, raw', bs, hlabel, hjustified, hbs, hentry, fun hepoch => ?_⟩)
      obtain ⟨cs, rfl⟩ := hbs
      have hgrows := grows_run (after s bs) cs
      rw [show run Machine.step (after s bs) cs = after s (bs ++ cs) from
        (run_append _ bs cs).symm] at hgrows
      exact entry_of_grows hgrows hepoch hentry h
    · exact .inl hpre.1
    · exact .inr (.inl hpre.1)

/-- A dead letter is stored, and a run of reprocessing has just published it. -/
def reprocessOne : List Act :=
  [.env (.storeDLQ (deadLetter "a")), .env (.request (.entries (.reprocess none "")))] ++
    List.replicate 8 (.op 0 {})

theorem removal_has_cause_reprocess :
    let s := after { stream := some { window := 120 * Time.second } } reprocessOne
    ∃ t raw, s.threads[0]? = some t ∧ Justified "" (noted t) 1 raw := by
  obtain ⟨raw, h⟩ : ∃ raw, (after { stream := some { window := 120 * Time.second } }
      reprocessOne).shared.entry 1 = some raw := Option.isSome_iff_exists.mp (by decide +kernel)
  have hgone : (Machine.step (after { stream := some { window := 120 * Time.second } }
      reprocessOne) (.op 0 {})).shared.entry 1 = none :=
    Option.isNone_iff_eq_none.mp (by decide +kernel)
  have hfilter : ((after { stream := some { window := 120 * Time.second } }
      reprocessOne).threads[0]?).map (fun t => t.label.filter) = some (some "") := by
    decide +kernel
  obtain ⟨i, x, t, hact, ht, hcause⟩ := removal_has_cause _ reprocessOne (.op 0 {}) h hgone
  obtain ⟨rfl, -⟩ := Machine.Act.op.inj hact
  rw [ht] at hfilter
  have hlabel : t.label.filter = some "" := Option.some_inj.mp hfilter
  obtain hpurge | hcleanup | ⟨filter, raw', -, hl, hjustified, -⟩ := hcause
  · rw [hpurge] at hlabel
    cases hlabel
  · rw [hcleanup] at hlabel
    cases hlabel
  · obtain rfl : filter = "" := Option.some_inj.mp (hl.symm.trans hlabel)
    exact ⟨t, raw', ht, hjustified⟩

end NatsDemo.Control.Desk
