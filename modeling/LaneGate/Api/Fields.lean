import LaneGate.Json.Value
import LaneGate.Fault
/-!
# Fields of a request body

A body must be a JSON object; a field is read from its members. A required text
field must be a string; an optional one may be missing but is otherwise a string
(`null` is not missing); an optional list must be an array of strings. Each
refusal is an input fault naming the field.
-/

namespace LaneGate.Api

/-- The members of a body, which must be an object. -/
def objectBody (v : Json) : Except Fault (List (String × Json)) :=
  match v with
  | .obj ms => .ok ms
  | _ => .error (.inputValidation "Request body must be a JSON object." [])

/-- A field's value, if the body has it. -/
def member? (ms : List (String × Json)) (field : String) : Option Json :=
  (ms.find? (·.1 == field)).map (·.2)

/-- The fault of a field that is not a string. -/
def notAString (field : String) : Fault := .inputValidation ("'" ++ field ++ "' must be a string.") []

/-- The fault of a field that is not an array of strings. -/
def notStrings (field : String) : Fault :=
  .inputValidation ("'" ++ field ++ "' must be an array of strings.") []

/-- A required text field. -/
def requireString (ms : List (String × Json)) (field : String) : Except Fault String :=
  match member? ms field with
  | some (.str t) => .ok t.toString
  | _ => .error (notAString field)

/-- An optional text field. -/
def optionalString (ms : List (String × Json)) (field : String) : Except Fault (Option String) :=
  match member? ms field with
  | none => .ok none
  | some (.str t) => .ok (some t.toString)
  | some _ => .error (notAString field)

/-- An optional list of texts. -/
def optionalStrings (ms : List (String × Json)) (field : String) : Except Fault (Option (List String)) :=
  match member? ms field with
  | none => .ok none
  | some (.arr xs) =>
    match xs.mapM Json.str? with
    | some ss => .ok (some ss)
    | none => .error (notStrings field)
  | some _ => .error (notStrings field)

end LaneGate.Api
