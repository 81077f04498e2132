/-
# The configuration of the bridge

Two settings: what a second release of a handle does, and the level of the log.
Both can be named in the environment; a setting that is not named keeps its
default, which for the release policy depends on the build, and one text that
cannot be read spoils the whole configuration.

A variable of the environment holds bytes, and need not hold a text at all.  One
that does not is looked up as if it were not set (`Environment.lookup`).
-/

import Interop.Error
import Interop.KeyMap
import Interop.Log

namespace Interop

/-! ### The environment -/

/-- The variables of a process, each with its bytes. -/
structure Environment where
  values : KeyMap ByteArray

namespace Environment

/-- Why a variable cannot be read as a text. -/
inductive VarError
  | notPresent
  /-- The bytes of the variable are no text in UTF-8. -/
  | notUnicode
deriving DecidableEq

/-- No variable is set. -/
def empty : Environment := ⟨.empty⟩

/-- The text of a variable. -/
def var (e : Environment) (name : String) : Except VarError String :=
  match e.values.get? name with
  | none => .error .notPresent
  | some bytes =>
    match String.fromUTF8? bytes with
    | none => .error .notUnicode
    | some text => .ok text

/-- The text of a variable, if it has one: a variable that is set to bytes that are
no text counts as one that is not set. -/
def lookup (e : Environment) (name : String) : Option String :=
  (e.var name).toOption

/-- A variable has a text just when it is set to the bytes of that text. -/
theorem lookup_eq_some_iff {e : Environment} {name text : String} :
    e.lookup name = some text ↔ e.values.get? name = some text.toByteArray := by
  rw [lookup, var]
  cases e.values.get? name with
  | none => simp [Except.toOption]
  | some bytes =>
    by_cases hvalid : bytes.IsValidUTF8
    · simp [String.fromUTF8?, hvalid, Except.toOption, String.fromUTF8, ← String.toByteArray_inj]
    · have hne : bytes ≠ text.toByteArray := fun h => hvalid (h ▸ text.isValidUTF8)
      simp [String.fromUTF8?, hvalid, Except.toOption, hne]

/-- A variable has no text if it is not set, or set to bytes that are none. -/
theorem lookup_eq_none_iff {e : Environment} {name : String} :
    e.lookup name = none ↔ ∀ bytes, e.values.get? name = some bytes → ¬ bytes.IsValidUTF8 := by
  rw [lookup, var]
  cases e.values.get? name with
  | none => simp [Except.toOption]
  | some bytes => by_cases hvalid : bytes.IsValidUTF8 <;>
      simp [String.fromUTF8?, hvalid, Except.toOption]

end Environment

/-! ### The settings -/

/-- How the program was built: with its debug assertions or without them. -/
inductive Build
  | debug
  | release
deriving DecidableEq

/-- What a handle does when it is released a second time. -/
inductive ReleasePolicy
  /-- The second release fails. -/
  | strict
  /-- The second release is logged and otherwise ignored. -/
  | lenient
deriving DecidableEq

namespace ReleasePolicy

/-- The variable of the environment that names the policy. -/
def variableName : String := "FINBRIDGE_RELEASE_POLICY"

/-- The name of the policy. -/
def name : ReleasePolicy → String
  | strict => "Strict"
  | lenient => "Lenient"

/-- The policy where none is named. -/
def forBuild : Build → ReleasePolicy
  | .debug => strict
  | .release => lenient

/-- The policy that a text names, blanks around it and the case of ASCII letters
set aside. -/
def parse (text : String) : Except BridgeError ReleasePolicy :=
  match Text.lowercaseAscii (Text.trim text) with
  | "strict" => .ok strict
  | "lenient" => .ok lenient
  | _ => .error (.invalidConfig variableName text)

end ReleasePolicy

/-- The settings of a program. -/
structure Config where
  releasePolicy : ReleasePolicy
  logLevel : Log.Level
deriving DecidableEq

namespace Config

/-- The settings where nothing else is said. -/
def standard (build : Build) : Config := ⟨.forBuild build, .info⟩

/-- The log level named by a text of the environment. -/
def readLevel (text : String) : Except BridgeError Log.Level :=
  match Log.Level.parse? text with
  | some level => .ok level
  | none => .error (.invalidConfig Log.levelVariable text)

/-- A setting that is read where it is named and falls back elsewhere. -/
def setting {α : Type} (read : String → Except BridgeError α) (fallback : α) :
    Option String → Except BridgeError α
  | some text => read text
  | none => .ok fallback

/-- The settings that `lookup` names, the policy being read before the level. -/
def fromLookup (build : Build) (lookup : String → Option String) : Except BridgeError Config := do
  let policy ← setting ReleasePolicy.parse (standard build).releasePolicy
    (lookup ReleasePolicy.variableName)
  let level ← setting readLevel (standard build).logLevel (lookup Log.levelVariable)
  return ⟨policy, level⟩

end Config

end Interop
