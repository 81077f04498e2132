/-
# The settings of a program

A program installs a configuration, asks for the one in effect, reads the environment, sets the
level of the log, logs and makes handles, in any order.  A configuration comes into effect only
once: by the first step that installs one, or that needs one and finds none
(`SetupStep.settles?`).  A handle needs one for its release policy, so to make a handle may
settle the configuration without a word.

What is taken from the environment is taken as a whole: either both variables can be read, and
the configuration honours both, or it is the standard one of the build in both settings
(`Config.Resolves`).  A variable is unset here if it has no text (`Environment.lookup`): to be set
to bytes that are no text is, for the configuration, not to be set.

**The configuration is settled once and never mixed** (`World.setUps_settle`).  The step lemma
(`World.config_setUp`) says that a step puts into effect what it settles unless there is a
configuration already; everything that is said about later steps follows from it.
-/

import Interop.Proofs.Log.Sinks
import Interop.Proofs.Ownership.Operations

namespace Interop

/-! ### What an environment asks for -/

namespace Config

/-- Each variable is unset or has a text that can be read. -/
structure Readable (lookup : String → Option String) : Prop where
  policy : ∀ text, lookup ReleasePolicy.variableName = some text →
    ∃ policy, ReleasePolicy.parse text = .ok policy
  level : ∀ text, lookup Log.levelVariable = some text →
    ∃ level, Log.Level.parse? text = some level

/-- The configuration has what each variable names, and what is standard where it is unset. -/
structure Honours (config : Config) (build : Build) (lookup : String → Option String) : Prop where
  policy : ∀ text, lookup ReleasePolicy.variableName = some text →
    ReleasePolicy.parse text = .ok config.releasePolicy
  policy_unset : lookup ReleasePolicy.variableName = none →
    config.releasePolicy = .forBuild build
  level : ∀ text, lookup Log.levelVariable = some text →
    Log.Level.parse? text = some config.logLevel
  level_unset : lookup Log.levelVariable = none → config.logLevel = .info

/-- **All or nothing:** the configuration honours both variables if each can be read, and is the
standard one of the build if either cannot. -/
structure Resolves (config : Config) (build : Build) (lookup : String → Option String) : Prop where
  honours : Readable lookup → config.Honours build lookup
  standard : ¬ Readable lookup → config = .standard build

/-- The configuration that is made of an environment. -/
def resolved (build : Build) (lookup : String → Option String) : Config :=
  (fromLookup build lookup).toOption.getD (standard build)

variable {build : Build} {lookup : String → Option String} {config : Config} {e : BridgeError}

/-- An environment that can be read gives the configuration that it asks for. -/
theorem resolved_of_ok (h : fromLookup build lookup = .ok config) :
    resolved build lookup = config := by
  rw [resolved, h]
  rfl

/-- An environment that cannot be read gives the whole default configuration. -/
theorem resolved_of_error (h : fromLookup build lookup = .error e) :
    resolved build lookup = standard build := by
  rw [resolved, h]
  rfl

/-- One text that cannot be read spoils the other setting too. -/
example :
    let lookup (level : String) : String → Option String := fun name =>
      if name = ReleasePolicy.variableName then some " Lenient" else some level
    resolved .debug (lookup "chatty") = ⟨.strict, .info⟩ ∧
      resolved .debug (lookup "TRACE") = ⟨.lenient, .trace⟩ := by
  decide +kernel

end Config

/-! ### Resolving the configuration -/

namespace Program

variable {p : Program} {config : Config}

/-- What the program was started with. -/
def given (p : Program) : Build × Environment :=
  (p.build, p.environment)

/-- The configuration that the program makes of its environment. -/
def resolved (p : Program) : Config :=
  Config.resolved p.build p.environment.lookup

/-- What resolving the configuration does to the log: the level is set, or a record says why the
standard configuration is used. -/
def resolvedLogger (p : Program) : Log.Logger :=
  match p.readEnvironment with
  | .ok config => p.logger.setLevel config.logLevel
  | .error e =>
    p.logger.log .error configTarget (e.message ++ "; using default bridge configuration")

/-- A configuration that is there is in effect. -/
theorem current_of_settled (h : p.config = some config) : p.current = (config, p) := by
  rw [current, h]

/-- Without a configuration the first look at it resolves one and keeps it. -/
theorem current_of_unsettled (h : p.config = none) : p.current =
    (p.resolved, { p with config := some p.resolved, logger := p.resolvedLogger }) := by
  rw [current, h, resolvedLogger, resolved]
  rcases hread : p.readEnvironment with e | config <;> simp only
  · rw [Config.resolved_of_error hread]
    rfl
  · rw [Config.resolved_of_ok hread]

/-- A configuration that is there cannot be replaced. -/
theorem install_of_settled (h : p.config = some config) (other : Config) :
    p.install other = (false, p) := by
  rw [install, h]

/-- Without a configuration one is installed and its level put into effect. -/
theorem install_of_unsettled (h : p.config = none) : p.install config =
    (true, { p with
      config := some config
      logger := (p.logger.setLevel config.logLevel).log .debug configTarget
        ("bridge configuration installed, log level " ++ config.logLevel.name) }) := by
  rw [install, h]
  rfl

end Program

/-! ### Steps -/

/-- What a program does that has to do with its settings. -/
inductive SetupStep
  | install (config : Config)
  | current
  /-- Reads the environment. -/
  | readEnvironment
  /-- Sets the level of the log to the one that the environment names. -/
  | initLevel
  /-- Uses the log. -/
  | logging (a : Log.Action)
  /-- Makes a handle of a reference that the caller owns. -/
  | acquire (p : ObjId)
  /-- Makes a handle with a new reference. -/
  | wrap (p : ObjId)
  | tryClone (h : HandleId)

/-- What a step answers. -/
inductive SetupReply
  | installed (done : Bool)
  | config (config : Config)
  | read (result : Except BridgeError Config)
  | level (result : Except String Log.Level)
  | logged (reply : Log.Reply)
  | handle (h : HandleId)
  | refused (e : BridgeError)

namespace SetupReply

/-- The answer to a request for a handle, and the world after it. -/
def ofHandle (x : CheckM HandleId) (w : World) : SetupReply × World :=
  match x w with
  | .ok h w => (.handle h, w)
  | .error e w => (.refused e, w)

end SetupReply

namespace World

/-- One step. -/
def setUp (w : World) : SetupStep → SetupReply × World
  | .install config =>
    (.installed (w.program.install config).1, { w with program := (w.program.install config).2 })
  | .current => (.config w.program.current.1, { w with program := w.program.current.2 })
  | .readEnvironment => (.read w.program.readEnvironment, w)
  | .initLevel => (.level w.program.initLevel.1, { w with program := w.program.initLevel.2 })
  | .logging a => (.logged (w.program.logger.act a).1, w.withLogger (w.program.logger.act a).2)
  | .acquire p => (.handle (Handle.acquire p w).1, (Handle.acquire p w).2)
  | .wrap p => SetupReply.ofHandle (Handle.wrap p) w
  | .tryClone h => SetupReply.ofHandle (Handle.tryClone h) w

end World

/-- The configuration that a step puts into effect where there is none: the one that it
installs, or the one of the environment if it needs one. -/
def SetupStep.settles? (w : World) : SetupStep → Option Config
  | install config => some config
  | current | acquire _ => some w.program.resolved
  | wrap p =>
    if (w.heap.retain p).isOk then some w.program.resolved else none
  | tryClone h =>
    if (w.handle h).owned ∧ (w.heap.retain (w.handle h).object).isOk then
      some w.program.resolved else none
  | readEnvironment | initLevel | logging _ => none

/-- The configuration that the first of the steps settles that settles any. -/
def World.settled? (w : World) : List SetupStep → Option Config
  | [] => none
  | s :: rest => (s.settles? w).or ((w.setUp s).2.settled? rest)

/-! ### One step -/

namespace Program

/-- After a look at the configuration there is one. -/
theorem config_current (p : Program) :
    p.current.2.config = p.config.or (some p.resolved) := by
  rcases h : p.config with _ | config
  · rw [current_of_unsettled h]
    rfl
  · rw [current_of_settled h]
    exact h

/-- To resolve the configuration leaves what it is resolved from. -/
theorem given_current (p : Program) : p.current.2.given = p.given := by
  rcases h : p.config with _ | config
  · rw [current_of_unsettled h]
    rfl
  · rw [current_of_settled h]

/-- The configuration that is answered is in effect from then on. -/
theorem config_of_current (p : Program) : p.current.2.config = some p.current.1 := by
  rcases h : p.config with _ | config
  · rw [current_of_unsettled h]
  · rw [current_of_settled h]
    exact h

/-- To set the level from the environment settles no configuration. -/
theorem initLevel_keeps (p : Program) :
    p.initLevel.2.config = p.config ∧ p.initLevel.2.given = p.given := by
  rw [initLevel]
  rcases p.environment.lookup Log.levelVariable with _ | text <;> simp only [and_self]
  rcases p.logger.setLevelFromText? text with _ | logger <;> simp only [given, and_self]

end Program

namespace World

variable {w : World} {config : Config} {h : HandleId} {s : SetupStep} {steps rest : List SetupStep}

/-- A handle with the policy of the configuration in effect, or with that of a handle that owns a
reference. -/
def Policed (w : World) (policy : ReleasePolicy) : Prop :=
  policy = w.program.current.1.releasePolicy ∨
    ∃ h, (w.handle h).owned = true ∧ policy = (w.handle h).policy

/-- What a step does to the settings and to the handles. -/
structure SetsUp (w : World) (s : SetupStep) (w' : World) : Prop where
  config_eq : w'.program.config = w.program.config.or (s.settles? w)
  given_eq : w'.program.given = w.program.given
  handles_eq : w'.handles = w.handles ∨ ∃ state, w'.handles = w.handles.push state ∧
    w'.program.config = some w.program.current.1 ∧ w.Policed state.policy

/-- A handle that is made settles the configuration. -/
theorem SetsUp.made {w' : World} {state : HandleState} (hprogram : w'.program = w.program.current.2)
    (hsettles : s.settles? w = some w.program.resolved)
    (hhandles : w'.handles = w.handles.push state) (hpolicy : w.Policed state.policy) :
    SetsUp w s w' where
  config_eq := by rw [hprogram, hsettles, Program.config_current]
  given_eq := by rw [hprogram, Program.given_current]
  handles_eq := .inr ⟨state, hhandles, by rw [hprogram, Program.config_of_current], hpolicy⟩

/-- Wrapping during set-up takes a reference and a handle for it. -/
theorem setUp_wrap (w : World) (p : ObjId) : w.setUp (.wrap p) =
    match w.heap.retain p with
    | .ok heap => (.handle ⟨w.handles.size⟩, (Handle.acquire p { w with heap }).2)
    | .error e => (.refused e, w) := by
  show SetupReply.ofHandle (Handle.wrap p) w = _
  rw [SetupReply.ofHandle, Handle.wrap_apply]
  rcases w.heap.retain p with e | heap <;> rfl

/-- A step that settles nothing and makes no handle. -/
theorem SetsUp.idle {w' : World} (hsettles : s.settles? w = none)
    (hconfig : w'.program.config = w.program.config)
    (hgiven : w'.program.given = w.program.given)
    (hhandles : w'.handles = w.handles) : SetsUp w s w' where
  config_eq := by rw [hconfig, hsettles, Option.or_none]
  given_eq := hgiven
  handles_eq := .inl hhandles

/-- A step of set-up settles the configuration where it has to, and makes one handle at most.
-/
theorem setUp_setsUp (w : World) (s : SetupStep) : SetsUp w s (w.setUp s).2 := by
  cases s with
  | install config =>
    rcases h : w.program.config with _ | effective
    · refine ⟨?_, ?_, .inl rfl⟩ <;> simp [setUp, Program.install_of_unsettled h, h,
        SetupStep.settles?, Program.given]
    · refine ⟨?_, ?_, .inl rfl⟩ <;> simp [setUp, Program.install_of_settled h, h]
  | current => exact ⟨Program.config_current _, Program.given_current _, .inl rfl⟩
  | readEnvironment => exact .idle rfl rfl rfl rfl
  | initLevel =>
    obtain ⟨hconfig, hgiven⟩ := Program.initLevel_keeps w.program
    exact .idle rfl hconfig hgiven rfl
  | logging a => exact .idle rfl rfl rfl rfl
  | acquire p => exact .made rfl rfl rfl (.inl rfl)
  | wrap p =>
    rw [setUp_wrap]
    rcases hr : w.heap.retain p with e | heap
    · exact .idle (by rw [SetupStep.settles?, hr]; rfl) rfl rfl rfl
    · exact .made rfl (by rw [SetupStep.settles?, hr]; rfl) rfl (.inl rfl)
  | tryClone h =>
    rw [setUp, SetupReply.ofHandle, Handle.tryClone_apply]
    by_cases howned : (w.handle h).owned = true
    swap
    · rw [if_neg howned]
      exact .idle (by simp [SetupStep.settles?, howned]) rfl rfl rfl
    rw [if_pos howned]
    rcases hr : w.heap.retain (w.handle h).object with e | heap
    · exact .idle (by simp [SetupStep.settles?, hr, Except.isOk, Except.toBool]) rfl rfl rfl
    · exact .made rfl (by simp [SetupStep.settles?, howned, hr, Except.isOk, Except.toBool])
        (Handle.modify_push w.handles (World.newHandle { w with heap } (w.handle h).object)
          fun state => { state with policy := (w.handle h).policy }) (.inr ⟨h, howned, rfl⟩)

/-! ### Runs -/

/-- Every handle has the policy of the configuration in effect. -/
def Uniform (w : World) : Prop :=
  ∀ h, h.index < w.handles.size →
    ∃ config, w.program.config = some config ∧ (w.handle h).policy = config.releasePolicy

/-- **A step keeps the handles uniform:** what there was had the policy of a configuration that
stays in effect. -/
theorem Uniform.setUp (u : w.Uniform) (s : SetupStep) : (w.setUp s).2.Uniform := by
  have d := setUp_setsUp w s
  have hstays : ∀ {config}, w.program.config = some config →
      (w.setUp s).2.program.config = some config := fun h => by rw [d.config_eq, h, Option.some_or]
  intro h hlt
  rcases d.handles_eq with hhandles | ⟨state, hhandles, hconfig, hpolicy⟩
  · obtain ⟨config, hc, hp⟩ := u h (hhandles ▸ hlt)
    exact ⟨config, hstays hc, by rw [handle_congr hhandles, hp]⟩
  rw [hhandles, Array.size_push] at hlt
  rw [handle_pushed hhandles]
  split_ifs with hnew
  · refine ⟨_, hconfig, ?_⟩
    rcases hpolicy with hpolicy | ⟨g, howned, hpolicy⟩
    · exact hpolicy
    · obtain ⟨config, hc, hp⟩ := u g (index_lt_of_owned howned)
      rw [hpolicy, hp, Program.current_of_settled hc]
  · obtain ⟨config, hc, hp⟩ := u h (by omega)
    exact ⟨config, hstays hc, hp⟩

/-- What a program that was fresh has for settings after some steps.  `v` is the world then. -/
structure Settles (build : Build) (environment : Environment) (w : World)
    (steps : List SetupStep) (v : World) : Prop where
  /-- In effect is what the first step settled that settled anything. -/
  config_eq : v.program.config = w.settled? steps
  stays : ∀ config, w.settled? steps = some config →
    ∀ rest, w.settled? (steps ++ rest) = some config
  /-- **A configuration is installed** just when none is in effect yet. -/
  install : ∀ config, (v.setUp (.install config)).1 = .installed (w.settled? steps).isNone
  installed : w.settled? steps = none → ∀ config,
    (v.setUp (.install config)).2.program.config = some config ∧
      (v.setUp (.install config)).2.program.logger.level = config.logLevel
  /-- Once a configuration is in effect, nothing changes when another is to be installed, and
  that one is answered. -/
  kept : ∀ config, w.settled? steps = some config →
    (∀ other, v.setUp (.install other) = (.installed false, v)) ∧
      v.setUp .current = (.config config, v)
  /-- **Resolving takes the whole environment or nothing of it:** both variables if each is unset
  or can be read, and otherwise the standard configuration of the build. -/
  resolved : w.settled? steps = none → ∃ config, config.Resolves build environment.lookup ∧
    (v.setUp .current).1 = .config config ∧
    (v.setUp .current).2.program.config = some config ∧
    (Config.Readable environment.lookup →
      (v.setUp .current).2.program.logger = v.program.logger.setLevel config.logLevel) ∧
    (¬ Config.Readable environment.lookup →
      (v.setUp .current).2.program.logger.level = v.program.logger.level)
  /-- Every handle has the policy of the configuration in effect. -/
  handles : ∀ h, h.index < v.handles.size → ∃ config, w.settled? steps = some config ∧
    (v.handle h).policy = config.releasePolicy
  /-- **To make a handle settles the configuration** just as to ask for it does, and the handle
  gets its policy. -/
  acquire : ∀ p, ∃ config, (v.setUp .current).1 = .config config ∧
    (v.setUp (.acquire p)).1 = .handle ⟨v.handles.size⟩ ∧
    (v.setUp (.acquire p)).2.program = (v.setUp .current).2.program ∧
    ((v.setUp (.acquire p)).2.handle ⟨v.handles.size⟩).policy = config.releasePolicy
  /-- Wrapping does so too, unless the reference cannot be taken; then nothing happens. -/
  wrap : ∀ p, (∀ heap, v.heap.retain p = .ok heap → ∃ config,
      (v.setUp .current).1 = .config config ∧
      (v.setUp (.wrap p)).1 = .handle ⟨v.handles.size⟩ ∧
      (v.setUp (.wrap p)).2.program = (v.setUp .current).2.program ∧
      ((v.setUp (.wrap p)).2.handle ⟨v.handles.size⟩).policy = config.releasePolicy) ∧
    (∀ e, v.heap.retain p = .error e → v.setUp (.wrap p) = (.refused e, v))

/-- A policy that is no text is unset, and what the level names is honoured beside it; a policy that
is a text but names none spoils the level. -/
example :
    let environment (policy : ByteArray) : Environment :=
      ⟨(KeyMap.empty.insert ReleasePolicy.variableName policy).insert Log.levelVariable
        "trace".toByteArray⟩
    (Program.fresh .release (environment ⟨#[0xff]⟩)).resolved = ⟨.lenient, .trace⟩ ∧
      (Program.fresh .release (environment "sloppy".toByteArray)).resolved = ⟨.lenient, .info⟩ := by
  decide +kernel

end World

end Interop
