/-
# Where log records go

A program sets the filter, switches capturing on and off, reads and drains the capture buffer
and logs records, in any order.  What the logger does with a record depends on two things that
change independently: the level that was set last (`levelAfter`) and whether capturing was
switched on or off last (`capturingAfter`).

**Every record that passes the filter reaches one sink, in order** (`Logger.run_sorts`).  The
records that were drained and then those left in the buffer are the records that passed while
capturing was on; the written lines are the others that passed.  Both are in the order in which
they were logged, each record once.  To drain the buffer and to switch capturing on again may
come at any moment between two records, so what the induction carries is what was drained so far
together with the buffer, not the buffer alone.
-/

import Interop.Log
import Mathlib.Data.List.Induction

namespace Interop
namespace Log

/-! ### Actions and replies -/

/-- What a program does with the logger. -/
inductive Action
  | setLevel (level : Level)
  /-- Sets the level that a text names. -/
  | setLevelFromText (text : String)
  | startCapture
  | stopCapture
  /-- Reads the capture buffer. -/
  | readCaptured
  /-- Drains the capture buffer. -/
  | takeCaptured
  | log (r : Record)

/-- What the logger answers. -/
inductive Reply
  | done
  /-- The text names no level. -/
  | rejected (text : String)
  /-- A copy of the buffer. -/
  | copied (records : List Record)
  /-- The records that were in the buffer. -/
  | drained (records : List Record)

/-- The records that a reply takes away from the logger. -/
def Reply.taken : Reply → List Record
  | drained records => records
  | _ => []

namespace Logger

/-- One action. -/
def act (l : Logger) : Action → Reply × Logger
  | .setLevel level => (.done, l.setLevel level)
  | .setLevelFromText text =>
    match l.setLevelFromText? text with
    | some l => (.done, l)
    | none => (.rejected text, l)
  | .startCapture => (.done, l.startCapture)
  | .stopCapture => (.done, l.stopCapture)
  | .readCaptured => (.copied l.captured, l)
  | .takeCaptured => (.drained l.takeCaptured.1, l.takeCaptured.2)
  | .log r => (.done, l.log r.level r.target r.message)

/-- A sequence of actions, with all replies in order. -/
def run (l : Logger) (actions : List Action) : List Reply × Logger :=
  actions.foldl (fun s a => (s.1 ++ [(s.2.act a).1], (s.2.act a).2)) ([], l)

/-- The records that a sequence of actions takes away. -/
def taken (l : Logger) (actions : List Action) : List Record :=
  (l.run actions).1.flatMap Reply.taken

end Logger

/-! ### The moment of a record -/

namespace Action

/-- The level that the action sets, if it sets one. -/
def level? : Action → Option Level
  | setLevel level => some level
  | setLevelFromText text => Level.parse? text
  | _ => none

/-- Whether the action switches capturing on or off, if it does either. -/
def capturing? : Action → Option Bool
  | startCapture => some true
  | stopCapture => some false
  | _ => none

/-- The record that the action logs, if it logs one. -/
def record? : Action → Option Record
  | log r => some r
  | _ => none

end Action

/-- The level that was set last, or `start`. -/
def levelAfter (start : Level) (before : List Action) : Level :=
  (before.filterMap Action.level?).getLastD start

/-- Whether capturing was switched on last, or `start`. -/
def capturingAfter (start : Bool) (before : List Action) : Bool :=
  (before.filterMap Action.capturing?).getLastD start

/-- A record, and what was done before it was logged. -/
structure Entry where
  before : List Action
  record : Record

/-- The record that `a` logs, if it logs one, after the actions `before`. -/
def Entry.of (before : List Action) (a : Action) : List Entry :=
  a.record?.toList.map (Entry.mk before)

/-- The records that are logged after the actions `before`. -/
def entriesFrom (before : List Action) : List Action → List Entry
  | [] => []
  | a :: rest => Entry.of before a ++ entriesFrom (before ++ [a]) rest

/-- The records that are logged, in order. -/
def entries (actions : List Action) : List Entry :=
  entriesFrom [] actions

/-- The record is no more verbose than the filter was at that moment. -/
def Entry.passes (l : Logger) (e : Entry) : Bool :=
  e.record.level.rank ≤ (levelAfter l.level e.before).rank

/-- The records that passed the filter. -/
def Logger.passed (l : Logger) (actions : List Action) : List Entry :=
  (entries actions).filter (Entry.passes l)

/-- The records that passed the filter while capturing was on, or while it was off. -/
def Logger.passedWhile (l : Logger) (on : Bool) (actions : List Action) : List Record :=
  ((l.passed actions).filter fun e => capturingAfter l.capturing e.before == on).map (·.record)

section

variable {l : Logger} {actions before : List Action} {a : Action} {level : Level} {on : Bool}

/-! ### Histories with one action more -/

/-- The last action that sets the level decides it. -/
theorem levelAfter_concat :
    levelAfter level (before ++ [a]) = a.level?.getD (levelAfter level before) := by
  rw [levelAfter, List.filterMap_append]
  rcases h : a.level? with _ | set
  · simp [h, levelAfter]
  · simp [h]

/-- The last action that starts or stops a capture decides it. -/
theorem capturingAfter_concat :
    capturingAfter on (before ++ [a]) = a.capturing?.getD (capturingAfter on before) := by
  rw [capturingAfter, List.filterMap_append]
  rcases h : a.capturing? with _ | switched
  · simp [h, capturingAfter]
  · simp [h]

/-- The entries of one action more come last. -/
theorem entriesFrom_concat (before actions : List Action) (a : Action) :
    entriesFrom before (actions ++ [a]) =
      entriesFrom before actions ++ Entry.of (before ++ actions) a := by
  induction actions generalizing before with
  | nil => simp [entriesFrom]
  | cons b rest ih => simp [entriesFrom, ih]

namespace Logger

/-- One action more starts from the log that the others left. -/
theorem run_concat (l : Logger) (actions : List Action) (a : Action) :
    l.run (actions ++ [a]) =
      ((l.run actions).1 ++ [((l.run actions).2.act a).1], ((l.run actions).2.act a).2) := by
  rw [run, List.foldl_append]
  rfl

/-- What one action more takes comes last. -/
theorem taken_concat (l : Logger) (actions : List Action) (a : Action) :
    l.taken (actions ++ [a]) = l.taken actions ++ ((l.run actions).2.act a).1.taken := by
  rw [taken, run_concat, List.flatMap_append, List.flatMap_singleton]
  rfl

/-! ### One action -/

/-- A level is set from a text if the text names one. -/
theorem setLevelFromText?_eq (l : Logger) (text : String) :
    l.setLevelFromText? text = (Level.parse? text).map l.setLevel := rfl

/-- The record of an action, if it passes the filter while capturing is on, or while it is
off. -/
def accepted (l : Logger) (on : Bool) (a : Action) : List Record :=
  a.record?.toList.filter fun r => l.enabled r.level && l.capturing == on

/-- To log a record is to send it to the sink in use if it passes. -/
theorem act_log (l : Logger) (r : Record) : l.act (.log r) = (.done, l.add r) := by
  rw [act, log_eq_add]

/-- An action sets the level that it names, and no other action does. -/
theorem level_act (l : Logger) (a : Action) : (l.act a).2.level = a.level?.getD l.level := by
  cases a with
  | setLevelFromText text =>
    rcases h : Level.parse? text with _ | set <;>
      simp [act, setLevelFromText?_eq, Action.level?, h, setLevel]
  | log r =>
    rw [act_log]
    show (l.add r).level = l.level
    unfold add write
    split_ifs <;> rfl
  | _ => rfl

/-- An action starts or stops a capture if it says so, and no other action does. -/
theorem capturing_act (l : Logger) (a : Action) :
    (l.act a).2.capturing = a.capturing?.getD l.capturing := by
  cases a with
  | setLevelFromText text =>
    rcases h : Level.parse? text with _ | set <;>
      simp [act, setLevelFromText?_eq, Action.capturing?, h, setLevel]
  | log r =>
    rw [act_log]
    show (l.add r).capturing = l.capturing
    unfold add write
    split_ifs <;> rfl
  | _ => rfl

/-- What an action takes away and what it leaves in the buffer is what was in the buffer and
the record that is captured. -/
theorem taken_append_captured_act (l : Logger) (a : Action) :
    (l.act a).1.taken ++ (l.act a).2.captured = l.captured ++ l.accepted true a := by
  cases a with
  | setLevelFromText text =>
    rcases h : Level.parse? text with _ | set <;>
      simp [act, setLevelFromText?_eq, h, setLevel, Reply.taken, accepted, Action.record?]
  | log r =>
    rw [act_log]
    show (l.add r).captured = _
    unfold add write
    cases henabled : l.enabled r.level <;> cases hon : l.capturing <;>
      simp [accepted, Action.record?, henabled, hon]
  | _ => simp [act, accepted, Action.record?, Reply.taken, setLevel, startCapture, stopCapture,
      takeCaptured]

/-- A record that passes while capturing is off is written. -/
theorem written_act (l : Logger) (a : Action) :
    (l.act a).2.written = l.written ++ l.accepted false a := by
  cases a with
  | setLevelFromText text =>
    rcases h : Level.parse? text with _ | set <;>
      simp [act, setLevelFromText?_eq, h, setLevel, accepted, Action.record?]
  | log r =>
    rw [act_log]
    show (l.add r).written = _
    unfold add write
    cases henabled : l.enabled r.level <;> cases hon : l.capturing <;>
      simp [accepted, Action.record?, henabled, hon]
  | _ => simp [act, accepted, Action.record?, setLevel, startCapture, stopCapture, takeCaptured]

/-! ### Runs -/

/-- The level after a run is that of its last action with one. -/
theorem level_run (l : Logger) (actions : List Action) :
    (l.run actions).2.level = levelAfter l.level actions := by
  induction actions using List.reverseRecOn with
  | nil => rfl
  | append_singleton before a ih => rw [run_concat, level_act, ih, levelAfter_concat]

/-- A capture is on after a run if its last action about one says so. -/
theorem capturing_run (l : Logger) (actions : List Action) :
    (l.run actions).2.capturing = capturingAfter l.capturing actions := by
  induction actions using List.reverseRecOn with
  | nil => rfl
  | append_singleton before a ih => rw [run_concat, capturing_act, ih, capturingAfter_concat]

/-- What passes during one action more comes last. -/
theorem passedWhile_concat (l : Logger) (on : Bool) (actions : List Action) (a : Action) :
    l.passedWhile on (actions ++ [a]) =
      l.passedWhile on actions ++ (l.run actions).2.accepted on a := by
  have hentries : entries (actions ++ [a]) = entries actions ++ Entry.of actions a :=
    entriesFrom_concat [] actions a
  rw [passedWhile, passed, hentries, List.filter_append, List.filter_append, List.map_append]
  congr 1
  rw [List.filter_filter, Entry.of, List.filter_map, List.map_map]
  show List.map id _ = _
  rw [List.map_id, accepted]
  refine List.filter_congr fun r _ => ?_
  rw [enabled, level_run, capturing_run]
  exact Bool.and_comm _ _

/-- What was drained and what is left in the buffer. -/
theorem taken_append_captured_run (l : Logger) (actions : List Action) :
    l.taken actions ++ (l.run actions).2.captured = l.captured ++ l.passedWhile true actions := by
  induction actions using List.reverseRecOn with
  | nil => exact (List.append_nil _).symm
  | append_singleton before a ih =>
    rw [taken_concat, run_concat, passedWhile_concat, List.append_assoc,
      taken_append_captured_act, ← List.append_assoc, ih, List.append_assoc]

/-- What was written. -/
theorem written_run (l : Logger) (actions : List Action) :
    (l.run actions).2.written = l.written ++ l.passedWhile false actions := by
  induction actions using List.reverseRecOn with
  | nil => exact (List.append_nil _).symm
  | append_singleton before a ih =>
    rw [run_concat, passedWhile_concat, written_act, ih, List.append_assoc]

/-- A record that passes goes to one of the two sinks. -/
theorem passed_perm (l : Logger) (actions : List Action) :
    ((l.passed actions).map (·.record)).Perm
      (l.passedWhile true actions ++ l.passedWhile false actions) := by
  have hoff : (fun e : Entry => capturingAfter l.capturing e.before == false) =
      fun e => !(capturingAfter l.capturing e.before == true) := by
    funext e
    cases capturingAfter l.capturing e.before <;> rfl
  rw [passedWhile, passedWhile, hoff, ← List.map_append]
  exact (List.filter_append_perm _ _).symm.map _

/-- Where the records of a run have gone. -/
structure Sorts (l : Logger) (actions : List Action) : Prop where
  /-- What was drained, and then the buffer, holds the records that passed while capturing was
  on, in order. -/
  captured : l.taken actions ++ (l.run actions).2.captured =
    l.captured ++ l.passedWhile true actions
  /-- The written lines hold the others that passed, in order. -/
  written : (l.run actions).2.written = l.written ++ l.passedWhile false actions
  output : (l.run actions).2.output =
    l.output ++ String.join ((l.passedWhile false actions).map Record.line)
  /-- **No record that passed is lost, and none is there twice.** -/
  passed : ((l.passed actions).map (·.record)).Perm
    (l.passedWhile true actions ++ l.passedWhile false actions)
  /-- To read the buffer changes nothing. -/
  readCaptured : (l.run actions).2.act .readCaptured =
    (.copied (l.run actions).2.captured, (l.run actions).2)
  /-- To switch capturing off keeps the buffer, and to switch it on does so too. -/
  stopCapture : ((l.run actions).2.act .stopCapture).2.captured = (l.run actions).2.captured
  startCapture : ((l.run actions).2.act .startCapture).2.captured = (l.run actions).2.captured
  /-- A text that names no level is given back and changes nothing. -/
  rejected : ∀ text, Level.parse? text = none →
    (l.run actions).2.act (.setLevelFromText text) = (.rejected text, (l.run actions).2)

/-- **Every record that passes the filter reaches one sink, in order,** whatever was done with
the logger before. -/
theorem run_sorts (l : Logger) (actions : List Action) : l.Sorts actions where
  captured := taken_append_captured_run l actions
  written := written_run l actions
  output := by rw [output, written_run, List.map_append, String.join_append, output]
  passed := passed_perm l actions
  readCaptured := rfl
  stopCapture := rfl
  startCapture := rfl
  rejected text hnone := by rw [act, setLevelFromText?_eq, hnone]; rfl

/-- A record that is drained, one that is kept in the buffer while it is not in use, and one that
is written in between; the fourth does not pass. -/
example :
    let record : Level → Record := fun level => ⟨level, "t", "m"⟩
    fresh.run [.startCapture, .log (record .info), .takeCaptured, .log (record .warn),
      .stopCapture, .log (record .error), .setLevel .error, .startCapture,
      .log (record .info), .readCaptured] =
    ([.done, .done, .drained [record .info], .done, .done, .done, .done, .done, .done,
      .copied [record .warn]], ⟨.error, true, [record .warn], [record .error]⟩) := by
  rfl

end Logger

end

end Log
end Interop
