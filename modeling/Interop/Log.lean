/-
# The log

Records have one of five levels and pass a filter that names the most verbose
level let through.  A record that passes goes to exactly one of two sinks: the
capture buffer while capturing is on, the written lines otherwise.
-/

import Interop.Text.Blank
import Interop.Text.Case

namespace Interop
namespace Log

/-- How severe a record is. -/
inductive Level
  | error
  | warn
  | info
  | debug
  | trace
deriving DecidableEq

namespace Level

/-- The place of the level, the most severe first. -/
def rank : Level → Nat
  | error => 0
  | warn => 1
  | info => 2
  | debug => 3
  | trace => 4

/-- The name of the level. -/
def name : Level → String
  | error => "ERROR"
  | warn => "WARN"
  | info => "INFO"
  | debug => "DEBUG"
  | trace => "TRACE"

/-- The number of the terminal colour of the level. -/
def colour : Level → String
  | error => "31"
  | warn => "33"
  | info => "32"
  | debug => "36"
  | trace => "35"

/-- The level that a text names, blanks around it and the case of ASCII letters
set aside. -/
def parse? (text : String) : Option Level :=
  match Text.lowercaseAscii (Text.trim text) with
  | "error" => some error
  | "warn" => some warn
  | "warning" => some warn
  | "info" => some info
  | "debug" => some debug
  | "trace" => some trace
  | _ => none

/-- What is said of a text that names no level. -/
def rejection (text : String) : String :=
  "Invalid log level: " ++ text

/-- Different levels have different ranks. -/
theorem rank_injective {a b : Level} (h : a.rank = b.rank) : a = b := by
  cases a <;> cases b <;> simp_all [rank]

end Level

/-- The variable of the environment that names the level. -/
def levelVariable : String := "FINBRIDGE_LOG"

/-- One log record. -/
structure Record where
  level : Level
  target : String
  message : String
deriving DecidableEq

/-- The record as it is written, with the level in its colour. -/
def Record.line (r : Record) : String :=
  "\x1b[" ++ r.level.colour ++ "m[" ++ r.level.name ++ "]\x1b[0m " ++ r.target ++ ": " ++
    r.message ++ "\n"

/-- The filter, the capture buffer and the lines written so far. -/
structure Logger where
  level : Level
  capturing : Bool
  captured : List Record
  written : List Record

namespace Logger

/-- A logger that lets `level` through and has seen no record. -/
def ofLevel (level : Level) : Logger := ⟨level, false, [], []⟩

/-- The logger of a fresh program. -/
def fresh : Logger := ofLevel .info

/-- Whether records of this level pass the filter. -/
def enabled (l : Logger) (level : Level) : Bool :=
  level.rank ≤ l.level.rank

/-- Sends the record to the sink in use. -/
def write (l : Logger) (r : Record) : Logger :=
  if l.capturing then { l with captured := l.captured ++ [r] }
  else { l with written := l.written ++ [r] }

/-- Sends the record to the sink in use if it passes the filter. -/
def add (l : Logger) (r : Record) : Logger :=
  if l.enabled r.level then l.write r else l

/-- Logs a message.  The filter is asked here, before there is a record, and once more by
`add`. -/
def log (l : Logger) (level : Level) (target message : String) : Logger :=
  if l.enabled level then l.add ⟨level, target, message⟩ else l

/-- Sets the filter. -/
def setLevel (l : Logger) (level : Level) : Logger := { l with level }

/-- Sets the filter to the level that `text` names, if it names one. -/
def setLevelFromText? (l : Logger) (text : String) : Option Logger :=
  (Level.parse? text).map l.setLevel

/-- Sends the records from now on to the capture buffer. -/
def startCapture (l : Logger) : Logger := { l with capturing := true }

/-- Writes the records from now on, keeping the buffer. -/
def stopCapture (l : Logger) : Logger := { l with capturing := false }

/-- The captured records and the logger with an empty buffer. -/
def takeCaptured (l : Logger) : List Record × Logger :=
  (l.captured, { l with captured := [] })

/-- Everything written so far, as one text. -/
def output (l : Logger) : String :=
  String.join (l.written.map Record.line)

/-- The two looks at the filter agree, so that the first of them decides nothing. -/
theorem log_eq_add (l : Logger) (level : Level) (target message : String) :
    l.log level target message = l.add ⟨level, target, message⟩ := by
  cases h : l.enabled level <;> simp [log, add, h]

end Logger

end Log
end Interop
