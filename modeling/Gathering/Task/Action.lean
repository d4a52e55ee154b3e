import Gathering.Error
import Gathering.Json.Reading
import Gathering.Json.Writing
import Gathering.Text.Blank

/-!
# Actions

What a task does when it is due. An action is written by its name. Four names
are known, in any ASCII case and with blank space around them; any other name is
kept as it is, and a task with such an action is done by doing nothing.
-/

namespace Gathering

/-- **What a task does.** -/
inductive Action where
  /-- Asks participants who have not replied whether they will come. -/
  | confirmation
  /-- Reminds participants who will come. -/
  | reminder
  /-- Asks participants who will come for their location. -/
  | location
  /-- Closes the event. -/
  | closure
  /-- Something that this version does not know, by its name. -/
  | unknown (name : String)
  deriving DecidableEq, Repr

namespace Action

/-- The name of an action. -/
def name : Action → String
  | confirmation => "confirmation"
  | reminder => "reminder"
  | location => "location"
  | closure => "closure"
  | unknown name => name

/-- The action of a name without blank space around it. -/
def ofTrimmed (name : String) : Action :=
  let lower := Text.lowercaseAscii name
  if lower = "confirmation" then confirmation
  else if lower = "reminder" then reminder
  else if lower = "location" then location
  else if lower = "closure" then closure
  else unknown name

/-- **The action that a text names**; a blank text names none. -/
def parse (s : String) : Except Error Action :=
  let name := Text.trim s
  if name.isEmpty then .error (.invalidInput "action is required") else .ok (ofTrimmed name)

/-- The record of an action. -/
def toJson (a : Action) : Json.Value := .text a.name

/-- The action that a record holds. -/
def ofJson? (t : Json.Tree) : Option Action :=
  t.text?.bind fun s => (parse s).toOption

end Action

end Gathering
