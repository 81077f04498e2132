/-
# The state of a running program

Besides its objects a program has an environment, a log, one configuration and one
registry of its own.  The configuration is resolved at most once: by `install`, or
by the first `current` that finds none.  An environment that cannot be read gives
the whole default configuration.  The registry is made on first use and then holds
the core parcel.
-/

import Interop.Config
import Interop.Parcel.Classes

namespace Interop

/-- What a program holds apart from its objects. -/
structure Program where
  build : Build
  environment : Environment
  logger : Log.Logger
  config : Option Config
  registry : Option Registry

namespace Program

/-- A program that has done nothing yet. -/
def fresh (build : Build) (environment : Environment) : Program :=
  ⟨build, environment, .fresh, none, none⟩

/-- A program with the default settings of a debug build and the core parcel
registered. -/
def ready : Program :=
  ⟨.debug, .empty, .fresh, some (.standard .debug), some Parcel.registry⟩

/-- Logs a message. -/
def log (p : Program) (level : Log.Level) (target message : String) : Program :=
  { p with logger := p.logger.log level target message }

/-- The target of the records about the configuration. -/
def configTarget : String := "finbridge::config"

/-- The configuration that the environment asks for. -/
def readEnvironment (p : Program) : Except BridgeError Config :=
  Config.fromLookup p.build p.environment.lookup

/-- Puts a configuration into effect unless there is one, and says whether it
did. -/
def install (p : Program) (config : Config) : Bool × Program :=
  match p.config with
  | some _ => (false, p)
  | none =>
    let p := { p with config := some config, logger := p.logger.setLevel config.logLevel }
    (true, p.log .debug configTarget
      ("bridge configuration installed, log level " ++ config.logLevel.name))

/-- The configuration in effect, resolved from the environment if there is none. -/
def current (p : Program) : Config × Program :=
  match p.config with
  | some config => (config, p)
  | none =>
    match p.readEnvironment with
    | .ok config =>
      (config, { p with config := some config, logger := p.logger.setLevel config.logLevel })
    | .error e =>
      let p := p.log .error configTarget (e.message ++ "; using default bridge configuration")
      (.standard p.build, { p with config := some (.standard p.build) })

/-- Sets the level of the log to the one that the environment names, if it names
one, and answers the level in effect; a text that names none is given back. -/
def initLevel (p : Program) : Except String Log.Level × Program :=
  match p.environment.lookup Log.levelVariable with
  | none => (.ok p.logger.level, p)
  | some text =>
    match p.logger.setLevelFromText? text with
    | some logger => (.ok logger.level, { p with logger })
    | none => (.error text, p)

/-- The registry of the program, made on first use. -/
def openRegistry (p : Program) : Registry × Program :=
  match p.registry with
  | some r => (r, p)
  | none =>
    let (l, failure) := Parcel.enrolled p.logger
    let p := { p with registry := some l.registry, logger := l.logger }
    (l.registry, match failure with
      | none => p.log .debug Registry.logTarget
        ("global class registry bootstrapped with " ++ toString l.registry.names.length ++ " names")
      | some e => p.log .error Registry.logTarget
        ("failed to bootstrap core classes: " ++ e.message))

/-- The registry as native code sees it. -/
def registryView (p : Program) : Registry :=
  p.registry.getD Parcel.registry

/-- The program with another registry of its own. -/
def withRegistry (p : Program) (l : Registry.Logged) : Program :=
  { p with registry := some l.registry, logger := l.logger }

end Program

end Interop
