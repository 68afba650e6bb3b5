/-
This file reads settings from the environment.  A number that cannot be read is
passed over with a warning, and the default is used in its place.
-/

import HorizonPlanner.Engine
import HorizonPlanner.Value.Conversion

namespace HorizonPlanner

/-! ### Environments -/

/-- The environment variables that are set, with their texts. -/
abbrev Environment := List (String × String)

/-- The text of an environment variable. -/
def Environment.text? (environment : Environment) (name : String) : Option String :=
  environment.lookup name

/-! ### Numbers -/

/-- The kinds of number that a setting can ask for. -/
inductive NumberKind where
  | whole
  | decimal
  deriving DecidableEq, Repr

/-- The name of a kind of number. -/
def NumberKind.name : NumberKind → String
  | whole => "int"
  | decimal => "float"

/-- The number that a text spells. -/
def NumberKind.read? (kind : NumberKind) (text : String) : Option Value :=
  match kind with
  | whole => (Number.readWhole text).toOption.map .integer
  | decimal => (Number.readDecimal text).map .binary

/-- A setting that was passed over. -/
structure SettingWarning where
  name : String
  text : String
  kind : NumberKind
  fallback : Value

/-- The text of a warning. -/
def SettingWarning.message (warning : SettingWarning) : String :=
  s!"Ignoring {warning.name}={Text.quoted warning.text}: not a valid {warning.kind.name}, "
    ++ s!"using {warning.fallback.render}"

/-- The line of a warning in the log. -/
def SettingWarning.record (warning : SettingWarning) : String :=
  "WARNING csp_planner.config: " ++ warning.message

/-- A number from the environment, and the warning if its text was passed over.  A text without
content counts as not set. -/
def readNumber (name : String) (text? : Option String) (kind : NumberKind) (fallback : Value) :
    Value × List SettingWarning :=
  match text? with
  | none => (fallback, [])
  | some text =>
    if Text.isBlankText text then (fallback, [])
    else match kind.read? text with
      | some number => (number, [])
      | none => (fallback, [⟨name, text, kind, fallback⟩])

/-! ### Settings -/

/-- What the environment settles: the engine to use, the bound of problems that state none, the
seconds for each horizon, and the least level of messages. -/
structure Settings where
  engine : String
  bound : Value
  seconds : Value
  logLevel : String

namespace Settings

/-- The environment variables that settle something. -/
def names : List String :=
  ["CSP_PLANNER_SOLVER", "CSP_PLANNER_MAX_STEPS", "CSP_PLANNER_MAXTIME", "LOG_LEVEL"]

/-- The bound of problems that state none. -/
def defaultBound : Value := .integer 10

/-- No limit on the time for a horizon. -/
def defaultSeconds : Value := .binary (Binary64.zero false)

/-- The settings of an environment, and the warnings about it. -/
def read (environment : Environment) : Settings × List SettingWarning :=
  let number (name : String) := readNumber name (environment.text? name)
  let (bound, boundWarnings) := number "CSP_PLANNER_MAX_STEPS" .whole defaultBound
  let (seconds, secondsWarnings) := number "CSP_PLANNER_MAXTIME" .decimal defaultSeconds
  ({ engine := (environment.text? "CSP_PLANNER_SOLVER").getD Engine.defaultName
     bound, seconds
     logLevel := (environment.text? "LOG_LEVEL").getD "WARNING" },
    boundWarnings ++ secondsWarnings)

/-- The engine that the settings choose. -/
def engineChoice (settings : Settings) : EngineChoice :=
  ⟨.text settings.engine, settings.seconds⟩

end Settings

end HorizonPlanner
