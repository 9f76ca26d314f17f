import Clearance.Document.Access
import Clearance.Document.Display
import Clearance.Settings.Dsn
import Clearance.Settings.Whole
import Clearance.Text.UpperCase

/-!
# Settings

The library is configured by five **settings**. A value given directly comes
first, then a variable of the environment, then the default. Variables are matched
without regard to case, and an empty one counts as missing.

All settings are read before any problem is reported. Only when each one is valid
by itself is the database looked at as a whole.
-/

namespace Clearance

/-- The **settings** of the library. -/
structure Settings where
  /-- What the application is called. -/
  appName : String := "Oort Access"
  /-- The level from which events are shown. -/
  loggingLevel : String := "INFO"
  /-- The database. -/
  databaseDsn : String
  /-- Whether statements are shown. -/
  databaseEcho : Bool := false
  /-- The number of levels that a rule may have. -/
  maxRuleDepth : Int := 32
deriving DecidableEq, Repr

namespace Settings

/-! ### Where values come from -/

/-- What the names of variables begin with, in lower case. -/
def variableStart : String := "oort_"

/-- The value of a variable in an environment; of several that differ in case only,
the last one counts. -/
def fromEnvironment? (environment : List (String × String)) (name : String) : Option String :=
  let named := environment.filter fun entry => entry.1.toLower == name && !entry.2.isEmpty
  (named.getLast?).map (·.2)

/-- The value given for a setting, directly or by a variable. -/
def given? (environment : List (String × String)) (direct : Members) (setting : Setting) :
    Option Value :=
  match Members.get? direct setting.name with
  | some value => some value
  | none =>
    (fromEnvironment? environment (variableStart ++ setting.name)).map Value.text

/-! ### Single settings -/

/-- A text. -/
def textValue : Value → Except Problem String
  | .text text => .ok text
  | _ => .error .stringType

/-- A text or nothing. -/
def textOrNothing : Value → Except Problem String
  | .null => .ok ""
  | value => textValue value

/-- The level that a value names: its plain form, trimmed and in upper case. -/
def levelName (value : Value) : String :=
  let word :=
    match value with
    | .null => ""
    | value => value.plain
  let level := Text.upper (String.ofList (Text.trim Text.isBlank word.toList))
  if level.isEmpty then "INFO" else level

/-- The number of levels that a rule may have: from 1 to 256. -/
def ruleDepth (value : Value) : Except Problem Int := do
  let depth ← wholeNumber value
  if depth < 1 then throw .tooSmall
  else if 256 < depth then throw .tooLarge
  else return depth

/-- The database that is used when none is given, in a file below a directory. -/
def defaultDsn (directory : String) : String :=
  "sqlite+aiosqlite:///" ++ directory ++ "/data/db/oort.sqlite"

/-! ### All settings -/

/-- The value of a setting, read if it is given. -/
def readOr {α : Type} (read : Value → Except Problem α) (default : α) (value : Option Value) :
    Except Problem α :=
  match value with
  | some value => read value
  | none => .ok default

/-- The complaint about a setting, if its value is a problem. -/
def complaint? {α : Type} (setting : Setting) (result : Except Problem α) : Option Complaint :=
  match result with
  | .error problem => some ⟨some setting, problem⟩
  | .ok _ => none

/-- The settings with a database that can be named. -/
def completed (directory : String) (settings : Settings) : Except (List Complaint) Settings :=
  let dsn := if settings.databaseDsn.isEmpty then defaultDsn directory else settings.databaseDsn
  match Dsn.read dsn with
  | .ok _ => .ok { settings with databaseDsn := dsn }
  | .error _ => .error [⟨none, .invalid⟩]

/-- The **settings** for an environment and values given directly, or every
complaint about them. -/
def read (directory : String) (environment : List (String × String)) (direct : Members) :
    Except (List Complaint) Settings :=
  let given := given? environment direct
  let appName := readOr textValue "Oort Access" (given .appName)
  let level := readOr (fun value => .ok (levelName value)) "INFO" (given .loggingLevel)
  let dsn := readOr textOrNothing "" (given .databaseDsn)
  let echo := readOr truthValue false (given .databaseEcho)
  let depth := readOr ruleDepth 32 (given .maxRuleDepth)
  match appName, level, dsn, echo, depth with
  | .ok appName, .ok loggingLevel, .ok databaseDsn, .ok databaseEcho, .ok maxRuleDepth =>
    completed directory { appName, loggingLevel, databaseDsn, databaseEcho, maxRuleDepth }
  | _, _, _, _, _ =>
    .error ([complaint? .appName appName, complaint? .loggingLevel level,
      complaint? .databaseDsn dsn, complaint? .databaseEcho echo,
      complaint? .maxRuleDepth depth].filterMap id)

/-- The document of settings. -/
def document (settings : Settings) : Value :=
  .object [(Setting.appName.name, .text settings.appName),
    (Setting.loggingLevel.name, .text settings.loggingLevel),
    (Setting.databaseDsn.name, .text settings.databaseDsn),
    (Setting.databaseEcho.name, .flag settings.databaseEcho),
    (Setting.maxRuleDepth.name, .integer settings.maxRuleDepth)]

end Settings

end Clearance
