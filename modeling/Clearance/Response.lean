import Clearance.Error
import Clearance.Log.Event
import Clearance.Text.UpperCase

/-!
# Answers to failed requests

A request over the network that fails for one of three reasons is **answered**
with a status and a body. What is not granted and what does not exist is told to
the client; a stored rule that cannot be read is not, and is noted in the log
instead.

A request whose address or method is not taken is refused before anything is done
for it, so nothing can fail. If an address is taken with one slash at its end more, or
without the slashes there, the client is sent to that address. A client that has used a
wrong method is told the right one, in a line that has room only for the first 256
characters; otherwise there is no answer.
-/

namespace Clearance

/-- A **request**: what is done to which address. -/
structure Request where
  /-- What is done. -/
  method : String
  /-- The address. -/
  path : String
deriving DecidableEq, Repr

/-- Why a request is **refused**. -/
inductive Refusal
  /-- Nothing has the address. -/
  | address
  /-- Only the address with other slashes at its end is taken. -/
  | slashes
  /-- The method is none. -/
  | method
deriving DecidableEq, Repr

namespace Request

/-- Whether an address begins with a slash and is one line. A line may be ended. -/
def isAddress (path : List Char) : Bool :=
  path.head? == some '/' && !path.dropLast.contains '\n'

/-- An address with other slashes at its end: without them, or with one if there are
none. -/
def otherSlashes (path : List Char) : List Char :=
  if path.getLast? == some '/' then (path.reverse.dropWhile (· == '/')).reverse
  else path ++ ['/']

/-- The method that is taken instead of the one of a request. -/
def properMethod (request : Request) : String :=
  Text.upper request.method

/-- Why a request is refused, if it is: the address is looked at first. -/
def refusal? (request : Request) : Option Refusal :=
  let path := request.path.toList
  if !isAddress path then
    some (if isAddress (otherSlashes path) then .slashes else .address)
  else if request.properMethod != request.method then some .method
  else none

/-- What stands for a character of an address: tabulators and line breaks are left out,
and characters that would end the address are written by their numbers. -/
def shownChar (c : Char) : List Char :=
  if c = '\t' ∨ c = '\n' ∨ c = '\r' then []
  else if c = '\\' then "%5C".toList
  else if c = '?' then "%3F".toList
  else if c = '#' then "%23".toList
  else [c]

/-- The address of a request as it is shown. -/
def shownPath (request : Request) : String :=
  String.ofList (request.path.toList.flatMap shownChar)

end Request

/-- Why a request fails. -/
inductive RequestFailure
  /-- An action is not granted. -/
  | denied (denial : Denial)
  /-- An object does not exist. -/
  | absent (absence : Absence)
  /-- A stored rule cannot be read, for the reason given and at the place given. -/
  | corrupt (message : String) (place : Option String)

/-- An **answer** to a request. -/
structure Response where
  /-- The status. -/
  status : Nat
  /-- The body, if there is one. -/
  body : Option Value

/-- Whether a text can be sent in a line of its own. -/
def isSendable (text : String) : Bool :=
  text.toList.all (·.toNat < 256)

/-- The **answer** to a refused request, if it can be sent. -/
def Request.refused (request : Request) : Refusal → Option Response
  | .address => some ⟨404, some (.object [("detail", .text "Not Found")])⟩
  | .slashes => some ⟨307, none⟩
  | .method =>
    if isSendable request.properMethod then
      some ⟨405, some (.object [("detail", .text "Method Not Allowed")])⟩
    else none

namespace RequestFailure

/-- What a client is told about a failure. -/
def detail : RequestFailure → Value
  | denied denial =>
    .object [("error", .text "forbidden"), ("action", .text denial.action),
      ("subject", .text denial.subject), ("object_id", .ofText? denial.objectId)]
  | absent absence =>
    .object [("error", .text "not_found"), ("kind", .text absence.kind),
      ("id", .ofText? absence.objectId)]
  | corrupt .. => .text "Access rules could not be evaluated"

/-- The status of the answer to a failure. -/
def status : RequestFailure → Nat
  | denied _ => 403
  | absent _ => 404
  | corrupt .. => 500

/-- The **answer** to a failed request. -/
def response (failure : RequestFailure) : Response where
  status := failure.status
  body := some (.object [("detail", failure.detail)])

/-- The events that a failed request leaves in the log. -/
def journal (request : Request) : RequestFailure → List Log.Event
  | corrupt message place =>
    [{ logger := "oort_access.errors"
       level := .error
       name := "access.rule.compilation_failed"
       extra := Log.present
        [("path", .text request.shownPath), ("method", .text request.method),
          ("rule_path", .ofText? place), ("detail", .text (located message place))] }]
  | denied _ | absent _ => []

/-- The answer to a request that would fail, if one can be sent, and the events that it
leaves in the log. -/
def settle (request : Request) (failure : RequestFailure) : Option Response × List Log.Event :=
  match request.refusal? with
  | some refusal => (request.refused refusal, [])
  | none => (some failure.response, failure.journal request)

/-- The failure that an error is, if it is answered. -/
def ofError? : AccessError → Option RequestFailure
  | .rule error => some (corrupt error.defect.message error.placeText)
  | .denied denial => some (denied denial)
  | .absent absence => some (absent absence)
  | _ => none

end RequestFailure

end Clearance
