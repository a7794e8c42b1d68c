import NatsDemo.Control.Tracking

/-!
# Arrival order

Events of one second come over several subscriptions, in any order.  The buffer keeps the
order in which they came; the listing does not show it as long as job and status tell the
events apart and none of them changes what is known of its job.
-/

namespace NatsDemo.Control
open Go Lib

/-- The activity without the instant at which it was recorded, which is never listed. -/
def Activity.listed (a : Activity) : Activity := { a with recorded := 0 }

@[simp] theorem Activity.listingKey_listed (a : Activity) : a.listed.listingKey = a.listingKey :=
  rfl

/-- The events are of jobs whose type is known, and none has another type. -/
def Tracker.Knows (t : Tracker) (es : List Event) : Prop :=
  ∀ e ∈ es, ∃ type, t.jobTypes.get? e.jobID = some type ∧ (e.jobType = "" ∨ e.jobType = type)

/-- No two events of one job have statuses of one weight. -/
def ToldApart (es : List Event) : Prop :=
  es.Pairwise fun e e' => e.jobID = e'.jobID → getStatusWeight e.status ≠ getStatusWeight e'.status

namespace Tracker
variable {zone : Time → Time} {t : Tracker} {xs ys : List (Event × Time)}

/-- The tracker after some more events, each recorded at its own time. -/
def recordMore (zone : Time → Time) (t : Tracker) (es : List (Event × Time)) : Tracker :=
  run (fun t e => t.addEvent zone e.1 e.2) t es

theorem get?_jobTypes_addEvent {t : Tracker} {e : Event} {type : String}
    (hknown : t.jobTypes.get? e.jobID = some type) (hsame : e.jobType = "" ∨ e.jobType = type)
    (now : Time) (jobID : String) :
    (t.addEvent zone e now).jobTypes.get? jobID = t.jobTypes.get? jobID := by
  rw [addEvent]
  by_cases htype : e.jobType = ""
  · simp [htype]
  · have heq : some e.jobType = some type := congrArg some (hsame.resolve_left htype)
    by_cases hjob : jobID = e.jobID
    · simp [htype, hjob, hknown, heq]
    · simp [htype, hjob]

/-- Events of known jobs are recorded as the tracker would record each of them alone. -/
theorem recordMore_eq (hknown : t.Knows (xs.map Prod.fst))
    (hfit : t.activities.length + xs.length ≤ 200) :
    (∀ jobID, (recordMore zone t xs).jobTypes.get? jobID = t.jobTypes.get? jobID) ∧
      (recordMore zone t xs).activities =
        (xs.reverse.map fun e => t.activityOf zone e.1 e.2) ++ t.activities := by
  induction xs using List.reverseRecOn with
  | nil => exact ⟨fun _ => rfl, rfl⟩
  | append_singleton xs e ih =>
    rw [List.map_append, List.map_singleton, Knows, List.forall_mem_append] at hknown
    rw [List.length_append, List.length_singleton] at hfit
    obtain ⟨htypes, hbuffer⟩ := ih hknown.1 (by omega)
    obtain ⟨type, hget, hsame⟩ := hknown.2 e.1 (List.mem_singleton_self e.1)
    have hactivity : (recordMore zone t xs).activityOf zone e.1 e.2 = t.activityOf zone e.1 e.2 := by
      simp only [activityOf, jobTypeOf, htypes]
    rw [recordMore, run_append, run_cons, run_nil, ← recordMore]
    constructor
    · intro jobID
      rw [get?_jobTypes_addEvent ((htypes e.1.jobID).trans hget) hsame, htypes]
    · rw [addEvent, hactivity, hbuffer, List.reverse_concat, List.map_cons, List.cons_append]
      refine List.take_of_length_le ?_
      rw [List.length_cons, List.length_append, List.length_map, List.length_reverse]
      omega

/-- Within a second all instants are listed alike. -/
theorem listed_activityOf {e : Event} {now : Time} {second : ℕ}
    (hsecond : Time.toSecond (zone now) = second) : (t.activityOf zone e now).listed =
      t.activityOf (fun _ => second * Time.second) e 0 := by
  have hstamp : Time.formatClock (zone now) = Time.formatClock (second * Time.second) := by
    rw [Time.formatClock_eq_iff, Time.secondOfDay, Time.secondOfDay, hsecond, Time.toSecond,
      Nat.mul_div_cancel second (by decide)]
  simp only [Activity.listed, activityOf, hstamp]

theorem listed_getActivities (t : Tracker) : t.getActivities.map Activity.listed =
    sortOn Activity.listingKey (t.activities.map Activity.listed) := by
  rw [getActivities_eq]
  exact List.map_mergeSort fun _ _ _ _ => rfl

theorem listed_recordMore {second : ℕ} (hsecond : ∀ e ∈ xs, Time.toSecond (zone e.2) = second)
    (hknown : t.Knows (xs.map Prod.fst)) (hfit : t.activities.length + xs.length ≤ 200) :
    (recordMore zone t xs).activities.map Activity.listed =
      ((xs.map Prod.fst).reverse.map fun e => t.activityOf (fun _ => second * Time.second) e 0) ++
        t.activities.map Activity.listed := by
  rw [(recordMore_eq hknown hfit).2, List.map_append, List.map_map, ← List.map_reverse,
    List.map_map]
  congr 1
  refine List.map_congr_left ?_
  intro e he
  exact listed_activityOf (hsecond e (List.mem_reverse.mp he))

/-- **Arrival order does not show.**  Events of one second that job and status tell apart are
listed in one way, whatever the order in which they are recorded. -/
theorem getActivities_anyOrder (zone : Time → Time) (cs : List TrackerCall) (second : ℕ)
    (xs ys : List (Event × Time)) (hperm : (xs.map Prod.fst).Perm (ys.map Prod.fst))
    (hxs : ∀ e ∈ xs, Time.toSecond (zone e.2) = second)
    (hys : ∀ e ∈ ys, Time.toSecond (zone e.2) = second)
    (hfit : (after zone cs).activities.length + xs.length ≤ 200)
    (hknown : (after zone cs).Knows (xs.map Prod.fst)) (happart : ToldApart (xs.map Prod.fst)) :
    (recordMore zone (after zone cs) xs).getActivities.map Activity.listed =
      (recordMore zone (after zone cs) ys).getActivities.map Activity.listed := by
  generalize after zone cs = t at hfit hknown ⊢
  have hlength : xs.length = ys.length := by simpa using hperm.length_eq
  have hknown' : t.Knows (ys.map Prod.fst) := fun e he => hknown e (hperm.mem_iff.mpr he)
  let f (e : Event) : Activity := t.activityOf (fun _ => second * Time.second) e 0
  have hkey : ((xs.map Prod.fst).map f).Pairwise fun a b => a.listingKey ≠ b.listingKey := by
    refine happart.map f ?_
    intro e e' hne heq
    have hfields : e.jobID = e'.jobID ∧ getStatusWeight e.status = getStatusWeight e'.status := by
      simpa [f, Activity.listingKey, activityOf] using heq
    exact hne hfields.1 hfields.2
  rw [listed_getActivities, listed_getActivities, listed_recordMore hxs hknown hfit,
    listed_recordMore hys hknown' (by omega)]
  refine sortOn_congr ?_
  intro k
  have hx : ((xs.map Prod.fst).map f).Perm ((xs.map Prod.fst).reverse.map f) :=
    (List.reverse_perm _).symm.map f
  have hy : ((xs.map Prod.fst).map f).Perm ((ys.map Prod.fst).reverse.map f) :=
    (hperm.trans (List.reverse_perm _).symm).map f
  rw [List.filter_append, List.filter_append, ← filter_eq_of_perm hx hkey k,
    ← filter_eq_of_perm hy hkey k]

end Tracker

/-- The submission of a job, an hour before the rest. -/
def submission : List TrackerCall :=
  [.addEvent { jobID := "job-1", status := "PUBLISHED", subject := "jobs.submitted",
               jobType := "email" } 0]

def receivedEvent : Event := { jobID := "job-1", status := "RECEIVED", subject := "jobs.received" }

def processingEvent : Event :=
  { jobID := "job-1", status := "PROCESSING", subject := "jobs.processing" }

/-- The job is received and processed within a second, and the two are recorded either way. -/
theorem Tracker.getActivities_eitherOrder :
    (recordMore id (after id submission) [(receivedEvent, 3600 * Time.second),
      (processingEvent, 3600 * Time.second + 7)]).getActivities.map Activity.listed =
    (recordMore id (after id submission) [(processingEvent, 3600 * Time.second + 2),
      (receivedEvent, 3600 * Time.second + 9)]).getActivities.map Activity.listed := by
  refine getActivities_anyOrder id submission 3600 _ _ ?_ (by decide) (by decide) (by decide) ?_ ?_
  · exact List.Perm.swap processingEvent receivedEvent []
  · have hevents : ∀ e ∈ [receivedEvent, processingEvent], e.jobID = "job-1" ∧ e.jobType = "" := by
      simp [receivedEvent, processingEvent]
    intro e he
    obtain ⟨hjob, htype⟩ := hevents e he
    exact ⟨"email", hjob ▸ rfl, .inl htype⟩
  · simp only [ToldApart, List.map_cons, List.map_nil, List.pairwise_pair]
    decide

end NatsDemo.Control
