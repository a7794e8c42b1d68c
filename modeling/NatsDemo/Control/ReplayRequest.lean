import NatsDemo.Control.Relay
import NatsDemo.Go.Parse

/-!
# Requests for a replay

A request gives its range by sequence numbers or by times, under names of two generations,
and says or implies which of the two it means.  What passes the checks is a closed range; one
of times without an end has the zero time in its place.
-/

namespace NatsDemo.Control
open Go

/-! ## Requests -/

structure ReplayRequest where
  replayFrom : String := ""
  startSequence : ℕ := 0
  endSequence : ℕ := 0
  fromSequence : ℕ := 0
  toSequence : ℕ := 0
  startTime : String := ""
  endTime : String := ""
  fromTime : String := ""
  toTime : String := ""
  replayMode : String := ""

namespace ReplayRequest

def uint64Field (set : ReplayRequest → ℕ → ReplayRequest) : FieldDecoder ReplayRequest :=
  intField 0 (2 ^ 64 - 1) fun r n => set r n.toNat

def fields : List (String × FieldDecoder ReplayRequest) :=
  [("replay_from", stringField fun r x => { r with replayFrom := x }),
   ("start_sequence", uint64Field fun r n => { r with startSequence := n }),
   ("end_sequence", uint64Field fun r n => { r with endSequence := n }),
   ("from_sequence", uint64Field fun r n => { r with fromSequence := n }),
   ("to_sequence", uint64Field fun r n => { r with toSequence := n }),
   ("start_time", stringField fun r x => { r with startTime := x }),
   ("end_time", stringField fun r x => { r with endTime := x }),
   ("from_time", stringField fun r x => { r with fromTime := x }),
   ("to_time", stringField fun r x => { r with toTime := x }),
   ("replay_mode", stringField fun r x => { r with replayMode := x })]

/-- The request that a body is decoded into. -/
def ofBody (body : Option Json) : ReplayRequest := (Go.unmarshal fields {} body).1

/-- The fields of the older generation stand in for those that are missing. -/
def normalise (r : ReplayRequest) : ReplayRequest :=
  let startTime := if r.startTime = "" ∧ r.fromTime ≠ "" then r.fromTime else r.startTime
  { r with
    startSequence :=
      if r.startSequence = 0 ∧ 0 < r.fromSequence then r.fromSequence else r.startSequence
    endSequence := if r.endSequence = 0 ∧ 0 < r.toSequence then r.toSequence else r.endSequence
    startTime := startTime
    endTime := if r.endTime = "" ∧ r.toTime ≠ "" then r.toTime else r.endTime
    replayFrom :=
      if r.replayFrom ≠ "" then r.replayFrom else if startTime ≠ "" then "time" else "sequence" }

end ReplayRequest

def parseReplayTime (val : String) : Except String Instant :=
  if val = "" then .error "empty time string"
  else
    let layouts := [Instant.rfc3339, Instant.toMinute, Instant.toSecond, Instant.rfc3339Nano]
    match layouts.findSome? fun l => Instant.parse l val with
    | some t => .ok t
    | none => .error ("could not parse time: " ++ val)

/-- The range of a request that has passed the checks; a range of times without an end has the
zero time there. -/
inductive ReplayRange where
  | time (parsedStartTime parsedEndTime : Instant)
  | sequence (startSequence endSequence : ℕ)

/-- The checks of a normalised request in time mode. -/
def timeRange (r : ReplayRequest) : Except Response ReplayRange :=
  if r.startTime = "" then .error (failure 400 "start_time is required for time-based replay")
  else
    match parseReplayTime r.startTime with
    | .error err => .error (failure 400 ("invalid start_time: " ++ err))
    | .ok start =>
      if r.endTime = "" then .ok (.time start Instant.zero)
      else
        match parseReplayTime r.endTime with
        | .error err => .error (failure 400 ("invalid end_time: " ++ err))
        | .ok stop =>
          if start < stop then .ok (.time start stop)
          else .error (failure 400 "start_time must be before end_time")

/-- Those in sequence mode; the default end is computed in `uint64`. -/
def sequenceRange (r : ReplayRequest) : Except Response ReplayRange :=
  let start := if r.startSequence = 0 then 1 else r.startSequence
  let stop := if r.endSequence = 0 then (start + 100) % 2 ^ 64 else r.endSequence
  if stop < start then
    .error (failure 400 "end_sequence must be greater than or equal to start_sequence")
  else .ok (.sequence start stop)

def replayRange (r : ReplayRequest) : Except Response ReplayRange :=
  if r.replayFrom = "time" then timeRange r else sequenceRange r

/-! ## What a request asks for -/

def firstNonZero (ns : List ℕ) : ℕ := (ns.find? fun n => decide (n ≠ 0)).getD 0

namespace ReplayRequest

def firstSequence (r : ReplayRequest) : ℕ := firstNonZero [r.startSequence, r.fromSequence, 1]

def lastSequence (r : ReplayRequest) : ℕ :=
  firstNonZero [r.endSequence, r.toSequence, (r.firstSequence + 100) % 2 ^ 64]

def startText (r : ReplayRequest) : String := if r.startTime = "" then r.fromTime else r.startTime

def endText (r : ReplayRequest) : String := if r.endTime = "" then r.toTime else r.endTime

/-- A request says that it is by time, or says nothing and has a start time. -/
def ByTime (r : ReplayRequest) : Prop :=
  r.replayFrom = "time" ∨ r.replayFrom = "" ∧ r.startText ≠ ""

end ReplayRequest

/-! ## The checks -/

theorem firstNonZero_eq (a b c : ℕ) :
    firstNonZero [a, b, c] = if a ≠ 0 then a else if b ≠ 0 then b else c := by
  by_cases ha : a = 0
  · by_cases hb : b = 0
    · by_cases hc : c = 0
      · simp [firstNonZero, ha, hb, hc]
      · simp [firstNonZero, ha, hb, hc]
    · simp [firstNonZero, ha, hb]
  · simp [firstNonZero, ha]

namespace ReplayRequest

theorem normalise_startTime (r : ReplayRequest) : r.normalise.startTime = r.startText := by
  by_cases hstart : r.startTime = ""
  · by_cases hfrom : r.fromTime = ""
    · simp [normalise, startText, hstart, hfrom]
    · simp [normalise, startText, hstart, hfrom]
  · simp [normalise, startText, hstart]

theorem normalise_endTime (r : ReplayRequest) : r.normalise.endTime = r.endText := by
  by_cases hend : r.endTime = ""
  · by_cases hto : r.toTime = ""
    · simp [normalise, endText, hend, hto]
    · simp [normalise, endText, hend, hto]
  · simp [normalise, endText, hend]

theorem normalise_replayFrom (r : ReplayRequest) :
    r.normalise.replayFrom = "time" ↔ r.ByTime := by
  have hfrom : r.normalise.replayFrom = if r.replayFrom ≠ "" then r.replayFrom
      else if r.normalise.startTime ≠ "" then "time" else "sequence" := rfl
  rw [hfrom, normalise_startTime, ByTime]
  by_cases hempty : r.replayFrom = ""
  · simp [hempty]
  · simp [hempty]

theorem sequenceRange_normalise (r : ReplayRequest) : sequenceRange r.normalise =
    if r.lastSequence < r.firstSequence then
      .error (failure 400 "end_sequence must be greater than or equal to start_sequence")
    else .ok (.sequence r.firstSequence r.lastSequence) := by
  have hstart : (if r.normalise.startSequence = 0 then 1 else r.normalise.startSequence) =
      r.firstSequence := by
    rw [normalise, firstSequence, firstNonZero_eq]
    by_cases hstart : r.startSequence = 0
    · by_cases hfrom : r.fromSequence = 0
      · simp [hstart, hfrom]
      · simp [hstart, hfrom, Nat.pos_of_ne_zero]
    · simp [hstart]
  have hstop : (if r.normalise.endSequence = 0 then (r.firstSequence + 100) % 2 ^ 64
      else r.normalise.endSequence) = r.lastSequence := by
    rw [normalise, lastSequence, firstNonZero_eq]
    by_cases hend : r.endSequence = 0
    · by_cases hto : r.toSequence = 0
      · simp [hend, hto]
      · simp [hend, hto, Nat.pos_of_ne_zero]
    · simp [hend]
  simp only [sequenceRange, hstart, hstop]

theorem firstSequence_pos (r : ReplayRequest) : 0 < r.firstSequence := by
  rw [firstSequence, firstNonZero_eq]
  split_ifs
  · omega
  · omega
  · omega

end ReplayRequest

/-- How the checks of the times end. -/
theorem timeRange_cases (r : ReplayRequest) :
    (∃ text, timeRange r = .error (failure 400 text)) ∨
    ∃ start stop, timeRange r = .ok (.time start stop) ∧ parseReplayTime r.startTime = .ok start ∧
      (r.endTime = "" ∧ stop = Instant.zero ∨
        parseReplayTime r.endTime = .ok stop ∧ start < stop) := by
  rw [timeRange]
  by_cases hempty : r.startTime = ""
  · exact .inl ⟨_, if_pos hempty⟩
  rw [if_neg hempty]
  cases hstart : parseReplayTime r.startTime with
  | error err => exact .inl ⟨_, rfl⟩
  | ok start =>
    by_cases hend : r.endTime = ""
    · exact .inr ⟨start, Instant.zero, if_pos hend, rfl, .inl ⟨hend, rfl⟩⟩
    dsimp only
    rw [if_neg hend]
    cases hstop : parseReplayTime r.endTime with
    | error err => exact .inl ⟨_, rfl⟩
    | ok stop =>
      by_cases hlt : start < stop
      · exact .inr ⟨start, stop, if_pos hlt, rfl, .inr ⟨rfl, hlt⟩⟩
      · exact .inl ⟨_, if_neg hlt⟩

/-- A request that does not pass the checks is a bad one. -/
theorem replayRange_error {r : ReplayRequest} {resp : Response} (h : replayRange r = .error resp) :
    resp.status = 400 := by
  rw [replayRange] at h
  by_cases htime : r.replayFrom = "time"
  · rw [if_pos htime] at h
    rcases timeRange_cases r with ⟨text, heq⟩ | ⟨start, stop, heq, -⟩
    · cases heq.symm.trans h
      rfl
    · cases heq.symm.trans h
  · simp only [if_neg htime, sequenceRange] at h
    split_ifs at h <;> cases h <;> rfl

/-- The range of a request that passes the checks. -/
theorem replayRange_ok {r : ReplayRequest} {range : ReplayRange}
    (h : replayRange r.normalise = .ok range) :
    (¬ r.ByTime ∧ range = .sequence r.firstSequence r.lastSequence ∧
      r.firstSequence ≤ r.lastSequence) ∨
    (r.ByTime ∧ ∃ start stop, range = .time start stop ∧
      parseReplayTime r.startText = .ok start ∧
      (r.endText = "" ∧ stop = Instant.zero ∨
        parseReplayTime r.endText = .ok stop ∧ start < stop)) := by
  rw [replayRange] at h
  by_cases htime : r.ByTime
  · rw [if_pos (r.normalise_replayFrom.mpr htime)] at h
    rcases timeRange_cases r.normalise with ⟨text, heq⟩ | ⟨start, stop, heq, hparsed⟩
    · cases heq.symm.trans h
    · rw [r.normalise_startTime, r.normalise_endTime] at hparsed
      exact .inr ⟨htime, start, stop, Except.ok.inj (h.symm.trans heq), hparsed⟩
  · rw [if_neg (mt r.normalise_replayFrom.mp htime), r.sequenceRange_normalise] at h
    split_ifs at h with hlt
    cases h
    exact .inl ⟨htime, rfl, not_lt.mp hlt⟩

theorem parseReplayTime_empty {t : Instant} : parseReplayTime "" ≠ .ok t := by
  rw [parseReplayTime, if_pos rfl]
  exact fun h => by cases h

end NatsDemo.Control
