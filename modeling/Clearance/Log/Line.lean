import Clearance.Log.Instant

/-!
# Log lines

An event that is noted becomes an **entry**: a list of named attributes, of which
some are standard and the others are the extra fields of the event. An entry is
shown as one line, with its time, its level, its logger, the correlation
identifier of the request, the message, and each extra field as `name=value`.

The correlation identifier is fixed when an entry is first shown: the entry's own
one if it has any, else the one that is bound, else a hyphen. It is stored in the
entry, so the entry is shown alike ever after.
-/

namespace Clearance.Log

/-- The names of the attributes that are no extra fields. -/
def standardAttributes : List String :=
  ["name", "msg", "args", "levelname", "levelno", "pathname", "filename", "module", "exc_info",
    "exc_text", "stack_info", "lineno", "funcName", "created", "msecs", "relativeCreated",
    "thread", "threadName", "processName", "process", "message", "asctime", "correlation_id",
    "taskName", "color_message"]

/-! ### Levels -/

/-- The numbers of the levels that can be chosen by name. -/
def levelNumbers : List (String × Nat) :=
  [("CRITICAL", 50), ("FATAL", 50), ("ERROR", 40), ("WARNING", 30), ("WARN", 30), ("INFO", 20),
    ("DEBUG", 10), ("NOTSET", 0)]

/-- What a level is called: the first of its names, or, for a name, its number. -/
def levelTitle (level : Datum) : Datum :=
  match levelNumbers.find? fun entry => (Datum.integer entry.2).same level with
  | some entry => .text entry.1
  | none =>
    match levelNumbers.find? fun entry => (Datum.text entry.1).same level with
    | some entry => .integer entry.2
    | none => .text ("Level " ++ level.plain)

/-! ### Circumstances -/

/-- The **circumstances** of an event: where in the program it is noted and who runs that. No
line tells them, but an entry has them as standard attributes. What is not known is nothing. -/
structure Circumstances where
  /-- The path of the file. -/
  pathname : Datum := .null
  /-- The name of the file. -/
  filename : Datum := .null
  /-- The name of the file without its ending. -/
  moduleName : Datum := .null
  /-- The number of the line in the file. -/
  lineno : Datum := .null
  /-- The name of the function. -/
  funcName : Datum := .null
  /-- How long the program has been running, in thousandths of a second. -/
  relativeCreated : Datum := .null
  /-- The number of the thread. -/
  thread : Datum := .null
  /-- The name of the thread. -/
  threadName : Datum := .null
  /-- The name of the process. -/
  processName : Datum := .null
  /-- The number of the process. -/
  process : Datum := .null
  /-- The name of the task, in programs that tell their tasks. -/
  taskName : Option Datum := none

namespace Circumstances

variable (circumstances : Circumstances)

/-- The attributes about the file. -/
def place : List (String × Datum) :=
  [("pathname", circumstances.pathname), ("filename", circumstances.filename),
    ("module", circumstances.moduleName)]

/-- The attributes about the place in the file. -/
def spot : List (String × Datum) :=
  [("lineno", circumstances.lineno), ("funcName", circumstances.funcName)]

/-- The attributes about who runs the program. -/
def run : List (String × Datum) :=
  [("relativeCreated", circumstances.relativeCreated), ("thread", circumstances.thread),
    ("threadName", circumstances.threadName), ("processName", circumstances.processName),
    ("process", circumstances.process)] ++
    (circumstances.taskName.map fun task => ("taskName", task)).toList

end Circumstances

/-! ### Entries -/

/-- An **entry**: attributes in the order in which they were first set. -/
structure Entry where
  /-- The attributes. -/
  attributes : List (String × Datum) := []

namespace Entry

/-- Attributes with one set: an attribute that is there keeps its place. -/
def setIn (attributes : List (String × Datum)) (name : String) (datum : Datum) :
    List (String × Datum) :=
  match attributes with
  | [] => [(name, datum)]
  | (key, old) :: rest =>
    if key = name then (key, datum) :: rest else (key, old) :: setIn rest name datum

/-- An entry with an attribute set. -/
def set (entry : Entry) (name : String) (datum : Datum) : Entry :=
  ⟨setIn entry.attributes name datum⟩

/-- An attribute of an entry; one that is not set is nothing. -/
def get (entry : Entry) (name : String) : Datum :=
  (entry.attributes.lookup name).getD .null

/-- The arguments of a message: a single object that is not empty stands for its
members. -/
def argumentsOf (arguments : List Datum) : Datum :=
  match arguments with
  | [.object members] => if members.isEmpty then .tuple [.object members] else .object members
  | arguments => .tuple arguments

/-- A number of seconds, or of thousandths, as a floating-point number. -/
def measured : Datum → Except Template.Error Datum
  | .integer value =>
    match Datum.widenedWhole? value with
    | some datum => .ok datum
    | none => .error .overflow
  | .null | .list _ | .tuple _ | .set _ | .object _ => .error .mismatch
  | datum => .ok datum

/-- A new **entry** with extra attributes. The time is kept in floating-point numbers. -/
def make (logger level message : Datum) (arguments : List Datum) (created thousandths : Datum)
    (circumstances : Circumstances) (extra : List (String × Datum)) :
    Except Template.Error Entry := do
  if !level.isElement then throw .mismatch
  let created ← measured created
  let thousandths ← measured thousandths
  let standard : Entry :=
    ⟨[("name", logger), ("msg", message), ("args", argumentsOf arguments),
      ("levelname", levelTitle level), ("levelno", level)] ++ circumstances.place ++
      [("exc_info", .null), ("exc_text", .null), ("stack_info", .null)] ++ circumstances.spot ++
      [("created", created), ("msecs", thousandths)] ++ circumstances.run⟩
  return extra.foldl (fun entry (name, datum) => entry.set name datum) standard

/-! ### Parts of a line -/

/-- The correlation identifier that an entry is shown with. -/
def correlation (entry : Entry) (bound : Option String) : Datum :=
  let own := entry.get "correlation_id"
  if own.isEmpty then
    match bound with
    | some id => if id.isEmpty then .text "-" else .text id
    | none => .text "-"
  else own

/-- Whether an attribute hides the means by which the message is found. -/
def isMute (entry : Entry) : Bool :=
  (entry.attributes.lookup "getMessage").isSome

/-- The message of an entry. It is a template only if there are arguments. -/
def message (entry : Entry) : Except Template.Error String :=
  let text := (entry.get "msg").plain
  let arguments := entry.get "args"
  if entry.isMute then .error .mismatch
  else if arguments.isEmpty then .ok text
  else Template.render text arguments

/-- The text about a failure that an entry was noted with. Only the absence of one can
be told: its second and third item are nothing. -/
def failureText : Datum → Except Template.Error String
  | .list (_ :: .null :: .null :: _) | .tuple (_ :: .null :: .null :: _) => .ok "NoneType: None"
  | .list (_ :: _ :: _ :: _) | .tuple (_ :: _ :: _ :: _) => .error .noFailure
  | .list _ | .tuple _ => .error .missingItem
  | .text text => .error (if text.length < 3 then .missingItem else .noFailure)
  | .action _ => .error .noFailure
  | .object _ => .error .missingKey
  | _ => .error .mismatch

/-- An entry with the text about its failure, if it has one. A text that is there
already is kept. -/
def withFailureText (entry : Entry) : Except Template.Error Entry :=
  let failure := entry.get "exc_info"
  if failure.isEmpty || !(entry.get "exc_text").isEmpty then .ok entry
  else (failureText failure).map fun text => entry.set "exc_text" (.text text)

/-- A line followed by a further text on a line of its own. -/
def below (line : String) (more : Datum) : Except Template.Error String :=
  if more.isEmpty then .ok line
  else
    match more with
    | .text _ | .action _ =>
      .ok ((if line.endsWith "\n" then line else line ++ "\n") ++ more.simple.plain)
    | _ => .error .mismatch

/-- Whether an attribute is an extra field. -/
def isExtra (name : String) : Bool :=
  !standardAttributes.contains name && name.toList.head? != some '_'

/-- The extra fields of an entry, in order. -/
def extras (entry : Entry) : List (String × Datum) :=
  entry.attributes.filter fun field => isExtra field.1

/-- How an extra field is shown. -/
def fieldText (field : String × Datum) : String :=
  field.1 ++ "=" ++ field.2.shown

/-- A text with blanks behind it to make up five characters. -/
def padded (text : String) : String :=
  text ++ String.ofList (List.replicate (5 - text.length) ' ')

/-- The line without the extra fields. -/
def headline (entry : Entry) (time message : String) : String :=
  time ++ " " ++ padded (entry.get "levelname").plain ++ " " ++ (entry.get "name").plain ++
    " [cid=" ++ (entry.get "correlation_id").plain ++ "] " ++ message

/-- A headline with the texts that follow on lines of their own, and with the extra
fields behind. -/
def fullLine (entry : Entry) (headline : String) : Except Template.Error String := do
  let line ← below headline (entry.get "exc_text")
  let line ← below line (entry.get "stack_info")
  let fields := entry.extras.map fieldText
  return if fields.isEmpty then line else line ++ " " ++ " ".intercalate fields

/-- The line of an entry whose correlation identifier has been fixed, and the entry
with what has been found out on the way. -/
def lineOf (entry : Entry) : Except Template.Error String × Entry :=
  match entry.message with
  | .error error => (.error error, entry)
  | .ok message =>
    let told := entry.set "message" (.text message)
    match timeText (told.get "created") (told.get "msecs") with
    | .error error => (.error error, told)
    | .ok time =>
      let timed := told.set "asctime" (.text time)
      match timed.withFailureText with
      | .error error => (.error error, timed)
      | .ok whole => (whole.fullLine (whole.headline time message), whole)

/-- The **line** of an entry while a correlation identifier is bound, and the entry
as it is afterwards. -/
def format (entry : Entry) (bound : Option String) : Except Template.Error String × Entry :=
  (entry.set "correlation_id" (entry.correlation bound)).lineOf

end Entry

/-! ### Requests -/

/-- A **call** after which another correlation identifier is bound, or none. -/
inductive Call
  /-- An identifier is bound; nothing may be given for it. -/
  | bind (id : Option String)
  /-- Nothing is bound any more. -/
  | clear
deriving DecidableEq, Repr

/-- The identifier that is bound after a call, whichever was bound before. -/
def Call.after (_ : Option String) : Call → Option String
  | bind id => id
  | clear => none

/-! ### Fields of events -/

/-- The fields that come first in an event, in this order. -/
def leadingFields : List String := ["user_id", "action", "subject", "object_id"]

/-- The **fields of an event**: the leading ones first and then the others as given,
each simple, and without those that have no value. -/
def eventFields (fields : List (String × Datum)) : List (String × Datum) :=
  let leading := leadingFields.map fun name => (name, (fields.lookup name).getD .null)
  let others := fields.filter fun field => !leadingFields.contains field.1
  ((leading ++ others).filter fun field => !field.2.isNull).map fun field =>
    (field.1, field.2.simple)

/-! ### Setting up -/

/-- Why a level cannot be chosen. -/
inductive LevelError
  /-- Its name stands for a text that is no level. -/
  | unknown (text : String)
  /-- Its name stands for a table. -/
  | table
deriving DecidableEq, Repr

/-- The words of the failure; there are none about a table. -/
def LevelError.message : LevelError → String
  | unknown text => "Unknown level: " ++ Text.quoted text
  | table => ""

/-- The number of the level with a name; an unknown name stands for the level of
information. Two names are taken for other things. -/
def levelNumber (name : String) : Except LevelError Nat :=
  if name = "BASIC_FORMAT" then .error (.unknown "%(levelname)s:%(name)s:%(message)s")
  else if name = "_STYLES" then .error .table
  else .ok ((levelNumbers.lookup name).getD 20)

/-- The **set-up** of the log: the level from which events are noted, and the
formatters of the handlers, which are installed once. -/
structure Setup where
  /-- The level. -/
  level : Nat
  /-- The names of the formatters. -/
  formatters : List String
deriving DecidableEq, Repr

/-- The set-up with a level that is named by a setting. Handlers that have been
installed are kept. -/
def setUp (current : Option Setup) (level : String) : Except LevelError Setup :=
  (levelNumber level).map fun level =>
    { level, formatters := (current.map Setup.formatters).getD ["ConsoleLogFormatter"] }

end Clearance.Log
