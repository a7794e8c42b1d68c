import NatsDemo.Lib.Firsts
import NatsDemo.Messaging.Publisher

/-!
# The trace context in the headers

The context is written under its exact key and read under any key that equals it up to case,
in whichever order the map is walked.  So a header of another case that was there before may
be read in its place.

The propagator is not ours: `trace` is what it sets, and it is taken to set the key of the
context to the value `v` and no other key that equals it up to case.
-/

namespace NatsDemo.Messaging
open Go Jobs Lib

def traceparent : String := "traceparent"

/-- `strings.EqualFold`, where one of the two is ASCII. -/
def equalFold (x y : String) : Bool := foldName x = foldName y

namespace Header

/-- A header that `NatsHeaderCarrier.Get` stops at. -/
def answers (key : String) (e : String × List String) : Bool :=
  equalFold e.1 key && !e.2.isEmpty

/-- `NatsHeaderCarrier.Get`, on the entries in the order in which the map is walked. -/
def carrierGet (entries : Header) (key : String) : String :=
  ((entries.find? (answers key)).elim [] Prod.snd).headD ""

/-- `InjectTraceContext` into a header that is not nil, for a propagator that sets `trace`. -/
def inject (h : Header) (trace : GoMap String) : Header := trace.foldl (fun h e => h.set e.1 e.2) h

/-- Extraction finds the value, however the map is walked. -/
def Extracts (h : Header) (v : String) : Prop :=
  ∀ entries : Header, entries.Perm h → carrierGet entries traceparent = v

end Header

/-- The propagator sets the key of the context, to this value. -/
structure Injects (trace : GoMap String) (v : String) : Prop where
  sets : ∃ e ∈ trace, e.1 = traceparent
  only : ∀ e ∈ trace, equalFold e.1 traceparent → e = (traceparent, v)

namespace Header
variable {h : Header} {trace : GoMap String} {v : String}

theorem inject_cons (h : Header) (e : String × String) (trace : GoMap String) :
    h.inject (e :: trace) = (h.set e.1 e.2).inject trace := rfl

theorem nodup_keys_inject (hnodup : GoMap.keys h |>.Nodup) (trace : GoMap String) :
    (GoMap.keys (h.inject trace)).Nodup := by
  induction trace generalizing h with
  | nil => exact hnodup
  | cons e trace ih => exact ih (GoMap.nodup_keys_set hnodup e.1 [e.2])

theorem get?_inject {key : String} (honly : ∀ e ∈ trace, e.1 = key → e.2 = v)
    (hset : GoMap.get? h key = some [v] ∨ ∃ e ∈ trace, e.1 = key) :
    GoMap.get? (h.inject trace) key = some [v] := by
  induction trace generalizing h with
  | nil =>
    rcases hset with hget | ⟨e, he, -⟩
    · exact hget
    · cases he
  | cons e trace ih =>
    obtain ⟨hfirst, hrest⟩ := List.forall_mem_cons.mp honly
    rw [inject_cons]
    refine ih hrest ?_
    by_cases he : e.1 = key
    · refine .inl ?_
      rw [Header.set, he, hfirst he, GoMap.get?_set_self]
    · rw [Header.set, GoMap.get?_set_of_ne _ _ (fun heq => he heq.symm)]
      refine hset.imp id ?_
      rintro ⟨e', he', hkey⟩
      cases List.mem_cons.mp he' with
      | inl heq => exact absurd (heq ▸ hkey) he
      | inr hmem => exact ⟨e', hmem, hkey⟩

/-- The headers that may be read for the context after it was injected. -/
theorem mem_inject_iff (hnodup : (GoMap.keys h).Nodup) (htrace : Injects trace v)
    {e : String × List String} (hfold : equalFold e.1 traceparent) :
    e ∈ h.inject trace ↔ e = (traceparent, [v]) ∨ e.1 ≠ traceparent ∧ e ∈ h := by
  obtain ⟨key, values⟩ := e
  have hget := GoMap.get?_eq_some_iff (nodup_keys_inject hnodup trace) (k := key) (v := values)
  by_cases hkey : key = traceparent
  · subst hkey
    have hvalue : GoMap.get? (h.inject trace) traceparent = some [v] := by
      refine get?_inject ?_ (.inr htrace.sets)
      intro e he heq
      exact congrArg Prod.snd (htrace.only e he (by rw [heq]; exact hfold))
    rw [← hget, hvalue]
    simp [eq_comm]
  · have hother : ∀ e ∈ trace, e.1 ≠ key := by
      intro e he heq
      have hval := htrace.only e he (by rw [heq]; exact hfold)
      exact hkey (heq.symm.trans (congrArg Prod.fst hval))
    rw [← hget, inject, get?_foldl_set_of_none hother, GoMap.get?_eq_some_iff hnodup]
    simp [hkey]

theorem answers_iff {key : String} {e : String × List String} :
    answers key e ↔ equalFold e.1 key ∧ ∃ x, e.2.head? = some x := by
  obtain ⟨k, values⟩ := e
  cases values with
  | nil => simp [answers]
  | cons x xs => simp [answers]

/-- What is extracted in every order is what every header has that may be read. -/
theorem extracts_iff (hfound : ∃ e ∈ h, answers traceparent e) :
    h.Extracts v ↔ ∀ e ∈ h, answers traceparent e → e.2.headD "" = v := by
  have hfirst : (∀ entries : Header, entries.Perm h →
      ∃ e ∈ entries.find? (answers traceparent), e.2.headD "" = v) ↔
        (∃ e ∈ h, answers traceparent e) ∧ ∀ e ∈ h, answers traceparent e → e.2.headD "" = v :=
    forall_perm_find?_iff
  rw [and_iff_right hfound] at hfirst
  rw [← hfirst]
  refine forall₂_congr fun entries hperm => ?_
  obtain ⟨e, he, hanswers⟩ := hfound
  have hsome : (entries.find? (answers traceparent)).isSome :=
    List.find?_isSome.mpr ⟨e, hperm.mem_iff.mpr he, hanswers⟩
  obtain ⟨first, hfind⟩ := Option.isSome_iff_exists.mp hsome
  simp [carrierGet, hfind]

/-- The headers that may be read for the context are the injected one and those before it. -/
theorem answers_inject_iff (hnodup : (GoMap.keys h).Nodup) (htrace : Injects trace v) :
    (∀ e ∈ h.inject trace, answers traceparent e → e.2.headD "" = v) ↔
      ∀ e ∈ h, equalFold e.1 traceparent → e.1 ≠ traceparent → ∀ x ∈ e.2.head?, x = v := by
  constructor
  · intro hall e he hfold hne x hx
    have hmem := (mem_inject_iff hnodup htrace hfold).mpr (.inr ⟨hne, he⟩)
    have hhead := hall e hmem (answers_iff.mpr ⟨hfold, x, hx⟩)
    rw [List.headD_eq_head?_getD, hx] at hhead
    exact hhead
  · intro hall e he hanswers
    obtain ⟨hfold, x, hx⟩ := answers_iff.mp hanswers
    rcases (mem_inject_iff hnodup htrace hfold).mp he with rfl | ⟨hne, hold⟩
    · rfl
    · rw [List.headD_eq_head?_getD, hx]
      exact hall e hold hfold hne x hx

theorem exists_answers_inject (hnodup : (GoMap.keys h).Nodup) (htrace : Injects trace v) :
    ∃ e ∈ h.inject trace, answers traceparent e := by
  have hfold : equalFold traceparent traceparent := decide_eq_true rfl
  exact ⟨(traceparent, [v]), (mem_inject_iff hnodup htrace hfold).mpr (.inl rfl),
    answers_iff.mpr ⟨hfold, v, rfl⟩⟩

/-- **When the trace context survives.**  Extraction finds what was injected, in every order of
the map, if and only if no other header that equals the key up to case has a first value that
is another one. -/
theorem extracts_inject_iff (h : Header) (trace : GoMap String) (v : String)
    (hnodup : (GoMap.keys h).Nodup) (htrace : Injects trace v) :
    (h.inject trace).Extracts v ↔
      ∀ e ∈ h, equalFold e.1 traceparent → e.1 ≠ traceparent → ∀ x ∈ e.2.head?, x = v :=
  (extracts_iff (exists_answers_inject hnodup htrace)).trans (answers_inject_iff hnodup htrace)

/-- A context, as the propagator writes it. -/
def context : String := "00-0af7651916cd43dd8448eb211c80319c-b7ad6b7169203331-01"

theorem injects_context : Injects [(traceparent, context)] context :=
  ⟨⟨_, List.mem_singleton_self _, rfl⟩, fun _ he _ => List.mem_singleton.mp he⟩

/-- An old context under the exact key is replaced. -/
theorem extracts_inject_replaced :
    (inject [("Content-Type", ["application/json"]), (traceparent, ["00-old"])]
      [(traceparent, context)]).Extracts context :=
  (extracts_inject_iff _ _ _ (by decide) injects_context).mpr (by decide)

end Header

/-! ## Submitted jobs -/

theorem nodup_keys_setCustom {h : Header} (hnodup : (GoMap.keys h).Nodup) (m : GoMap String) :
    (GoMap.keys (setCustom h m)).Nodup := by
  induction m generalizing h with
  | nil => exact hnodup
  | cons e m ih =>
    by_cases he : e.1 = ""
    · simpa [setCustom, he] using ih hnodup
    · simpa [setCustom, Header.set, he] using ih (GoMap.nodup_keys_set hnodup e.1 [e.2])

theorem get?_setCustom {h : Header} {m : GoMap String} (hnodup : m.keys.Nodup) {key : String}
    (hkey : key ≠ "") :
    GoMap.get? (setCustom h m) key = ((m.get? key).map fun x => [x]).or (GoMap.get? h key) := by
  induction m generalizing h with
  | nil => rfl
  | cons e m ih =>
    obtain ⟨hnot, hnodup⟩ := List.nodup_cons.mp hnodup
    rw [setCustom, ih hnodup, GoMap.get?_cons]
    by_cases he : key = e.1
    · subst he
      have habsent : GoMap.get? m e.1 = none := by
        rw [Option.eq_none_iff_forall_ne_some]
        intro x hx
        exact hnot (GoMap.mem_keys_iff.mpr ⟨x, hx⟩)
      simp [habsent, hkey, Header.set]
    · by_cases hname : e.1 = ""
      · simp [hname, hkey]
      · simp [hname, he, Header.set]

/-- The publisher's own headers do not have the key of the context, in any case. -/
theorem not_equalFold_publisherHeader {job : Job} {now : Time} {key : String}
    (hkey : key ∈ GoMap.keys (publisherHeader job now)) : ¬ equalFold key traceparent := by
  have hnames : ∀ name ∈ ["X-Delivery-Mode", "X-Source", "X-Message-Id", "Nats-Msg-Id",
      "Content-Type"], ¬ equalFold name traceparent := by decide
  refine hnames key ?_
  by_cases hid : job.msgID = ""
  · simp [publisherHeader, Header.set, GoMap.mem_keys_set, hid] at hkey
    rcases hkey with rfl | rfl | rfl | rfl <;> simp
  · simpa [publisherHeader, Header.set, GoMap.mem_keys_set, hid] using hkey

theorem nodup_keys_publisherHeader (job : Job) (now : Time) :
    (GoMap.keys (publisherHeader job now)).Nodup := by
  have hset {h : Header} (hnodup : (GoMap.keys h).Nodup) (k x : String) :
      (GoMap.keys (h.set k x)).Nodup := GoMap.nodup_keys_set hnodup k [x]
  have hempty : (GoMap.keys ([] : Header)).Nodup := List.nodup_nil
  rw [publisherHeader]
  refine hset (hset (hset ?_ _ _) _ _) _ _
  by_cases hid : job.msgID = ""
  · rw [if_pos hid]
    exact hset hempty _ _
  · rw [if_neg hid]
    exact hset (hset hempty _ _) _ _

/-- The headers of a job are the only ones that may be read in place of its context. -/
theorem jobSubmitted_extracts_iff {job : Job} {now : Time} {trace : GoMap String} {v : String}
    (hheaders : (GoMap.keys (job.headers.getD [])).Nodup) (htrace : Injects trace v) :
    (jobSubmitted job now trace).header.Extracts v ↔
      ∀ e ∈ job.headers.getD [], equalFold e.1 traceparent → e.1 ≠ traceparent → e.2 = v := by
  have hnodup := nodup_keys_setCustom (nodup_keys_publisherHeader job now) (job.headers.getD [])
  have hread (e : String × List String) (hfold : equalFold e.1 traceparent) :
      e ∈ setCustom (publisherHeader job now) (job.headers.getD []) ↔
        ∃ x, (e.1, x) ∈ job.headers.getD [] ∧ e.2 = [x] := by
    have hname : e.1 ≠ "" := by
      rintro heq
      rw [heq] at hfold
      exact absurd hfold (by decide)
    have hown : GoMap.get? (publisherHeader job now) e.1 = none := by
      rw [Option.eq_none_iff_forall_ne_some]
      intro x hx
      exact not_equalFold_publisherHeader (GoMap.mem_keys_iff.mpr ⟨x, hx⟩) hfold
    rw [← Prod.mk.eta (p := e), ← GoMap.get?_eq_some_iff hnodup, get?_setCustom hheaders hname,
      hown, Option.or_none, Option.map_eq_some_iff]
    simp only [GoMap.get?_eq_some_iff hheaders, eq_comm]
  have hheader : (jobSubmitted job now trace).header =
      (setCustom (publisherHeader job now) (job.headers.getD [])).inject trace := rfl
  rw [hheader, Header.extracts_iff (Header.exists_answers_inject hnodup htrace),
    Header.answers_inject_iff hnodup htrace]
  constructor
  · intro hall e he hfold hne
    exact hall (e.1, [e.2]) ((hread _ hfold).mpr ⟨e.2, he, rfl⟩) hfold hne e.2 rfl
  · intro hall e he hfold hne x hx
    obtain ⟨y, hy, hvalues⟩ := (hread e hfold).mp he
    rw [hvalues, List.head?_cons, Option.mem_some_iff] at hx
    exact hx ▸ hall (e.1, y) hy hfold hne

/-- A job that was submitted with a header of its own for the context, in another case. -/
def tracedJob : Job where
  jobID := "job-1"
  type := "email"
  headers := some [("Traceparent", "00-old")]

/-- The header of the job may be read in place of the context that was injected. -/
theorem not_extracts_tracedJob :
    ¬ (jobSubmitted tracedJob 0 [(traceparent, Header.context)]).header.Extracts
      Header.context := by
  have hnodup : (GoMap.keys (tracedJob.headers.getD [])).Nodup := List.nodup_singleton _
  rw [jobSubmitted_extracts_iff hnodup Header.injects_context]
  intro h
  have hold := h ("Traceparent", "00-old") (List.mem_singleton_self _) (by decide) (by decide)
  exact absurd hold (by decide)

end NatsDemo.Messaging
