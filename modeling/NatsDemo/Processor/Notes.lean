import Mathlib.Data.List.ReduceOption
import NatsDemo.Processor.Stories

/-!
# The event log

What `GET /processor/events` shows against what was done: the log is a window on the notes of
the run, in which the stories of its tasks are interleaved, and no task that is announced reports
before its announcement.  A task is what one thread of the machine does: a handling of a message,
an iteration of a pull loop, or what a goroutine of another kind does.

Notes stand in the order in which they are recorded.  Their times need not: an event is stamped
before it takes the lock of the log.
-/

namespace NatsDemo.Processor
open Lib Go Messaging

namespace Service

/-- A report with its author and its stamp; the manual restart has no author. -/
structure Note where
  author : Option ℕ
  report : Report
  shown : Time
  deriving DecidableEq

def Note.event (n : Note) : ProcessorEvent := n.report.stamp n.shown

/-- The report of `POST /processor/restart`. -/
def manualRestart : Report :=
  ⟨"SYSTEM", "SUPERVISOR", "[SUPERVISOR RESPAWN]", "#8B5CF6",
    "Manual supervisor restart of worker goroutine", 0, "JETSTREAM"⟩

def reportOf : (o : Op) × Op.Res o → Option Report
  | ⟨.recordWorkerEvent jobID jobType tag tagColor details attempt mode, _⟩ =>
    some ⟨jobID, jobType, tag, tagColor, details, attempt, mode⟩
  | _ => none

/-- What is noted of a deed; the log may also be cleared, which leaves no note. -/
def entryOf (x : Choice) : Deed → Option (Option Note)
  | .env .clearEvents => some none
  | .env (.reportRestart shown) => some (some ⟨none, manualRestart, shown⟩)
  | .env _ => none
  | .op i o r => (reportOf ⟨o, r⟩).map fun report => some ⟨some i, report, x.shown⟩

/-- What is not up to the processor in an act. -/
def choiceOf : Act → Choice
  | .env _ => {}
  | .op _ x => x

section
variable (arch : Platform)

def entriesOf (s : State arch) (a : Act) : List (Option Note) :=
  (Machine.deeds s a).filterMap (entryOf (choiceOf a))

/-- What was noted in a run, and when the log was cleared. -/
def entries (as : List Act) : List (Option Note) :=
  journal Machine.step (entriesOf arch) (State.empty arch) as

def notes (as : List Act) : List Note := (entries arch as).reduceOption

/-! ## The window -/

/-- What an entry makes of the log. -/
def windowed (w : List ProcessorEvent) (e : Option Note) : List ProcessorEvent :=
  (e.map Note.event).elim [] fun x => (x :: w).take 50

theorem events_exec (x : Choice) (s : Shared) (i : ℕ) (o : Op) : (s.exec x o).2.app.events =
    (entryOf x (.op i o (s.exec x o).1)).toList.foldl windowed s.app.events := by
  have h := congrArg Counters.events (counters_exec x s o)
  cases o <;> exact h

theorem events_demand (x : Choice) (s : Shared) (e : Demand) : (s.demand e).1.app.events =
    (entryOf x (.env e)).toList.foldl windowed s.app.events := by
  cases e with
  | input e => exact congrArg Counters.events (counters_input s e)
  | _ => rfl

theorem filterMap_singleton {β γ : Type} (f : β → Option γ) (b : β) :
    [b].filterMap f = (f b).toList := by
  cases h : f b <;> simp [h]

/-- A step changes the log by its entries. -/
theorem events_step (s : State arch) (a : Act) : (Machine.step s a).shared.app.events =
    (entriesOf arch s a).foldl windowed s.shared.app.events := by
  obtain ⟨hd, hs⟩ | ⟨e, hd, hs⟩ | ⟨i, o, x, rfl, hd, hs⟩ := Machine.deeds_cases s a
  · rw [entriesOf, hd, hs]
    rfl
  · rw [entriesOf, hd, hs, filterMap_singleton]
    exact events_demand _ s.shared e
  · rw [entriesOf, hd, hs, filterMap_singleton]
    exact events_exec x s.shared i o

/-- The log holds the latest fifty notes since it was last cleared. -/
theorem events_run (as : List Act) : (after arch as).shared.app.events =
    ((since Option.isNone (entries arch as)).reduceOption.map Note.event).reverse.take 50 := by
  have hview := view_run (fun s : State arch => s.shared.app.events) (events_step arch)
    (State.empty arch) as
  have hwindow := foldl_window 50 (Option.map Note.event) (entries arch as)
  simp only [Option.isNone_map] at hwindow
  rw [List.reduceOption, List.map_filterMap]
  exact hview.trans hwindow

/-! ## The notes of a task -/

/-- The report of a note, if it is one of a task. -/
def Note.reportOf (i : ℕ) (n : Note) : Option Report :=
  if n.author = some i then some n.report else none

/-- The reports of a task among some notes. -/
def reportsBy (i : ℕ) (ns : List Note) : List Report := ns.filterMap (Note.reportOf i)

/-- What a task has told. -/
def told {arch : Platform} (t : Thread arch) : List Word :=
  (t.hist.map Event.done).filterMap wordOf

theorem reports_told (t : Thread arch) :
    (told t).filterMap Word.report = t.ops.filterMap reportOf := by
  rw [told, Machine.Thread.ops, List.filterMap_filterMap, List.filterMap_filterMap]
  refine List.filterMap_congr fun d _ => ?_
  obtain ⟨c, r⟩ := d
  cases c with
  | prim o => cases o <;> rfl
  | fork l =>
    show (if l.herald.isSome then some (Word.starts l r) else none).bind Word.report = none
    split_ifs <;> rfl
  | await j => rfl

/-- The notes of a task are what its operations report. -/
theorem reportsBy_eq (as : List Act) (i : ℕ) :
    reportsBy i (notes arch as) = (Machine.opsBy i (deeds arch as)).filterMap reportOf := by
  rw [reportsBy, notes, List.reduceOption, List.filterMap_filterMap, Machine.opsBy,
    List.filterMap_filterMap]
  refine filterMap_journal (fun s a => ?_) (State.empty arch) as
  rw [entriesOf, List.filterMap_filterMap]
  refine List.filterMap_congr fun d _ => ?_
  cases d with
  | env e => cases e <;> rfl
  | op j o r =>
    have hbind : ((entryOf (choiceOf a) (.op j o r)).bind fun e => (id e).bind (Note.reportOf i)) =
        (reportOf ⟨o, r⟩).bind fun report => if j = i then some report else none := by
      rw [entryOf, Option.bind_map]
      refine congrArg _ (funext fun report => ?_)
      simp [Note.reportOf]
    rw [hbind]
    dsimp only
    split_ifs with h
    · exact Option.bind_fun_some _
    · exact Option.bind_fun_none _

/-- The notes of a task are what it told. -/
theorem reportsBy_notes {as : List Act} {i : ℕ} {t : Thread arch}
    (ht : (after arch as).threads[i]? = some t) :
    reportsBy i (notes arch as) = (told t).filterMap Word.report := by
  have hops : t.ops = Machine.opsBy i (deeds arch as) := by
    have hrun := Machine.opsOf_run (State.empty arch) as i
    rw [Machine.State.opsOf, show (run Machine.step (State.empty arch) as).threads[i]? = some t
      from ht] at hrun
    exact hrun
  rw [reportsBy_eq, reports_told, hops]

/-- **The log tells stories.**  The log shows the latest notes since it was last cleared, the newest
first.  What a handling, an iteration of a pull loop or another task notes over a run are the
reports of one of its stories, from the first on, and all of them once it has ended. -/
theorem log_tells_stories (as : List Act) :
    (after arch as).shared.app.events =
        ((since Option.isNone (entries arch as)).reduceOption.map Note.event).reverse.take 50 ∧
      ∀ (i : ℕ) (t : Thread arch), (after arch as).threads[i]? = some t → ∃ ws,
        Story arch ws t.label ∧ reportsBy i (notes arch as) <+: ws.filterMap Word.report ∧
        ∀ b, t.rest = .ret b → reportsBy i (notes arch as) = ws.filterMap Word.report := by
  refine ⟨events_run arch as, fun i t ht => ?_⟩
  obtain ⟨_, ws, hstory, hprefix, hend⟩ := t.traced.told (tells_program t.label) someAnswer
  rw [reportsBy_notes arch ht]
  exact ⟨ws, hstory, hprefix.filterMap _, fun b hb => congrArg _ (hend b hb).2⟩

/-! ## Announcements -/

/-- The surroundings start no task that is to be announced. -/
theorem herald_demand (e : Demand) (c : Shared) :
    ∀ l ∈ (c.demand e).2, ¬ l.herald.isSome = true := by
  intro l hl
  cases e with
  | input e =>
    cases e with
    | control a =>
      obtain ⟨i, hi, rfl⟩ := List.mem_mapIdx.mp hl
      exact Bool.false_ne_true
    | store m =>
      change l ∈ if c.app.sub then [Label.core m] else [] at hl
      split_ifs at hl
      · exact List.mem_singleton.mp hl ▸ Bool.false_ne_true
      · cases hl
    | queue i m =>
      obtain ⟨w, -, rfl⟩ := List.mem_map.mp hl
      exact Bool.false_ne_true
    | validate m =>
      change l ∈ if c.app.valSub then [Label.validate m c.app.name] else [] at hl
      split_ifs at hl
      · exact List.mem_singleton.mp hl ▸ Bool.false_ne_true
      · cases hl
    | _ => cases hl
  | _ => cases hl

/-- Whoever is to be announced was started by a task of the machine. -/
theorem started_run {as : List Act} {i : ℕ} {t : Thread arch}
    (ht : (after arch as).threads[i]? = some t) (hherald : t.label.herald.isSome) :
    ∃ j, Machine.Started (after arch as) j i t.label := by
  refine run_inv_all (Machine.Fathered (M := service arch) fun l => l.herald.isSome = true)
    (fun s a hs => hs.step herald_demand a) as ?_ i t ht hherald
  intro i t ht
  cases ht

/-- The start of a task that is to be announced is a word of the one that starts it. -/
theorem starts_of_started {s : State arch} {i j : ℕ} {l : Label} (h : Machine.Started s j i l)
    (hherald : l.herald.isSome) :
    ∃ u, s.threads[j]? = some u ∧ .starts l i ∈ told u := by
  obtain ⟨u, hu, hmem⟩ := h
  exact ⟨u, hu, List.mem_filterMap.mpr ⟨_, hmem, if_pos hherald⟩⟩

/-- A task that starts one has announced it, and starts no other. -/
theorem announced_of_starts {t : Thread arch} {l : Label} {i : ℕ} (h : .starts l i ∈ told t) :
    (∃ r, l.herald = some r ∧ r ∈ (told t).filterMap Word.report) ∧
      ∀ l' i', .starts l' i' ∈ told t → l' = l ∧ i' = i := by
  obtain ⟨_, ws, hstory, ⟨rest, hrest⟩, -⟩ := t.traced.told (tells_program t.label) someAnswer
  obtain ⟨pre, post, hsplit⟩ := List.append_of_mem h
  have hws : ws = pre ++ .starts l i :: (post ++ rest) := by
    rw [← hrest, show (t.hist.map Event.done).filterMap wordOf = told t from rfl, hsplit]
    simp
  obtain ⟨⟨r, hherald, hr⟩, hunique⟩ := hstory.start_unique hws
  refine ⟨⟨r, hherald, ?_⟩, fun l' i' hmem => hunique l' i' ?_⟩
  · exact List.mem_filterMap.mpr ⟨.tell r, hsplit ▸ List.mem_append_left _ hr, rfl⟩
  · exact hrest ▸ List.mem_append_left rest hmem

/-- A note was made by a step of its author, after the notes before it. -/
theorem notes_split {as : List Act} {pre post : List Note} {n : Note} {i : ℕ}
    (h : notes arch as = pre ++ n :: post) (hauthor : n.author = some i) :
    ∃ bs cs, as = bs ++ cs ∧ notes arch bs = pre ∧ ∃ t, (after arch bs).threads[i]? = some t := by
  obtain ⟨es, es', hentries, hpre, hpost⟩ := List.filterMap_eq_append_iff.mp h
  obtain ⟨gap, e, es₁, rfl, hgap, he, -⟩ := List.filterMap_eq_cons_iff.mp hpost
  obtain rfl : e = some n := he
  rw [← List.append_assoc] at hentries
  have hone (s : State arch) (a : Act) : (entriesOf arch s a).length ≤ 1 :=
    (List.length_filterMap_le _ _).trans (Machine.length_deeds_le s a)
  obtain ⟨bs, a, cs, rfl, hbs, ha⟩ := journal_split hone hentries
  refine ⟨bs, a :: cs, rfl, ?_, ?_⟩
  · rw [notes, entries, hbs, List.reduceOption_append, List.reduceOption,
      List.filterMap_eq_nil_iff.mpr hgap, List.append_nil]
    exact hpre
  · obtain ⟨d, hd, hdn⟩ := List.mem_filterMap.mp (ha.symm ▸ List.mem_singleton.mpr rfl :
      some n ∈ entriesOf arch (after arch bs) a)
    cases d with
    | env e =>
      cases e with
      | reportRestart shown =>
        cases hdn
        cases hauthor
      | _ => cases hdn
    | op j o r =>
      obtain ⟨report, -, hn⟩ := Option.map_eq_some_iff.mp hdn
      cases hn
      cases hauthor
      exact Machine.exists_thread_of_mem_deeds hd

/-- **Announced first.**  A supervisor reports a respawn, and the holder of a hole that it is
healed, only after the report of the crash or of the hole, by the handling or the iteration that
started it; and that one has started nobody else who is to be announced. -/
theorem announced_first {as : List Act} {pre post : List Note} {n : Note} {i : ℕ} {t : Thread arch}
    {r : Report} (h : notes arch as = pre ++ n :: post) (hauthor : n.author = some i)
    (ht : (after arch as).threads[i]? = some t) (hherald : t.label.herald = some r) :
    ∃ j, ∃ n' ∈ pre, n'.author = some j ∧ n'.report = r ∧
      ∀ i' l, l.herald.isSome →
        (Machine.Started (after arch as) j i' l ↔ i' = i ∧ l = t.label) := by
  have hsome : t.label.herald.isSome := by rw [hherald]; rfl
  obtain ⟨bs, cs, rfl, rfl, t₀, ht₀⟩ := notes_split arch h hauthor
  have hafter : after arch (bs ++ cs) = run Machine.step (after arch bs) cs := run_append _ bs cs
  have hlabel : t.label = t₀.label := Machine.label_run ht₀ (hafter ▸ ht)
  rw [hlabel] at hherald hsome ⊢
  obtain ⟨j, hj⟩ := started_run arch ht₀ hsome
  obtain ⟨u, hu, hstarts⟩ := starts_of_started arch hj hsome
  obtain ⟨⟨r', hr', hmem⟩, -⟩ := announced_of_starts arch hstarts
  obtain rfl : r' = r := Option.some_inj.mp (hr'.symm.trans hherald)
  rw [← reportsBy_notes arch hu] at hmem
  obtain ⟨n', hn', hreport⟩ := List.mem_filterMap.mp hmem
  rw [Note.reportOf] at hreport
  split_ifs at hreport with hby
  have hlasts : Machine.Started (after arch (bs ++ cs)) j i t₀.label := hafter ▸ hj.run cs
  refine ⟨j, n', hn', hby, Option.some_inj.mp hreport, fun i' l hl => ⟨fun hstarted => ?_, ?_⟩⟩
  · obtain ⟨v, hv, hstarts'⟩ := starts_of_started arch hlasts hsome
    obtain ⟨v', hv', hmem'⟩ := starts_of_started arch hstarted hl
    obtain rfl : v = v' := Option.some_inj.mp (hv.symm.trans hv')
    obtain ⟨hl', hi'⟩ := (announced_of_starts arch hstarts').2 l i' hmem'
    exact ⟨hi', hl'⟩
  · rintro ⟨rfl, rfl⟩
    exact hlasts

end

/-- A worker crashes with its first job, and its supervisor revives it. -/
def crashAndRespawn : List Act :=
  let job : Msg :=
    { subject := subjectJobSubmitted
      header := Header.set [] "X-Delivery-Mode" "JETSTREAM"
      data := some (.obj [("job_id", .str "a"), ("type", .str "data-sync"),
        ("delivery_mode", .str "JETSTREAM")]) }
  [.env (.input (.putScenario "crash_before_ack" true)),
    .env (.input (.control (.subscribeJetStream 0 .bound))),
    .env (.input (.control .startWorkers)), .env (.input (.store job))] ++
  List.replicate 3 (.op 0 {}) ++ [.op 0 { picks := [0] }, .op 0 {}] ++
  List.replicate 8 (.op 1 {}) ++ List.replicate 2 (.op 2 {})

theorem announced_first_crash : ∃ j, ∃ n' ∈ (notes .amd64 crashAndRespawn).take 3,
    n'.author = some j ∧ n'.report.tag = "[GOROUTINE CRASH]" ∧
      ∃ l, Machine.Started (after .amd64 crashAndRespawn) j 2 l := by
  let revival : Supervision := ⟨workerName 1, "a", "data-sync", "JETSTREAM", 1⟩
  have h : notes .amd64 crashAndRespawn = (notes .amd64 crashAndRespawn).take 3 ++
      [⟨some 2, revival.respawned, 0⟩] := by decide +kernel
  have hthread : ((after .amd64 crashAndRespawn).threads[2]?.bind fun t => t.label.herald) =
      some revival.crashed := by decide +kernel
  obtain ⟨t, ht, hherald⟩ := Option.bind_eq_some_iff.mp hthread
  obtain ⟨j, n', hn', hauthor, hreport, hstarted⟩ := announced_first .amd64 h rfl ht hherald
  exact ⟨j, n', hn', hauthor, by rw [hreport]; rfl, t.label,
    (hstarted 2 t.label (by rw [hherald]; rfl)).mpr ⟨rfl, rfl⟩⟩

end Service

end NatsDemo.Processor
