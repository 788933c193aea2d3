import PluginAudit.Json.Token

/-!
A JSON text as it is written: numbers by their digits, members in order and with repetitions.
A document is read from tokens by an automaton with a stack. Its value exists if its numbers
fit a double, its strings are whole and it is not nested too deeply.
-/

namespace PluginAudit.Json

inductive Document where
  | null
  | bool (value : Bool)
  | num (value : Numeral)
  | str (text : Option String)
  | arr (items : List Document)
  | obj (members : List (Option String × Document))

/-- An array or object under construction, its finished parts in reverse. -/
inductive Frame where
  | items (done : List Document)
  | member (done : List (Option String × Document)) (key : Option String)

/-- What may come next; the innermost frame is the first. -/
inductive Reading where
  | value (frames : List Frame)
  | firstItem (frames : List Frame)
  | firstKey (frames : List Frame)
  | nextKey (done : List (Option String × Document)) (frames : List Frame)
  | colon (done : List (Option String × Document)) (key : Option String) (frames : List Frame)
  | finished (value : Document) (frames : List Frame)

namespace Reading

def open? (frames : List Frame) : Token → Option Reading
  | .null => some (.finished .null frames)
  | .bool b => some (.finished (.bool b) frames)
  | .num n => some (.finished (.num n) frames)
  | .str s => some (.finished (.str s) frames)
  | .openArray => some (.firstItem frames)
  | .openObject => some (.firstKey frames)
  | _ => none

def step : Reading → Token → Option Reading
  | .value frames, t => open? frames t
  | .firstItem frames, .closeArray => some (.finished (.arr []) frames)
  | .firstItem frames, t => open? (.items [] :: frames) t
  | .firstKey frames, .closeObject => some (.finished (.obj []) frames)
  | .firstKey frames, .str s => some (.colon [] s frames)
  | .nextKey done frames, .str s => some (.colon done s frames)
  | .colon done key frames, .colon => some (.value (.member done key :: frames))
  | .finished v (.items done :: frames), .comma => some (.value (.items (v :: done) :: frames))
  | .finished v (.items done :: frames), .closeArray =>
    some (.finished (.arr (v :: done).reverse) frames)
  | .finished v (.member done key :: frames), .comma => some (.nextKey ((key, v) :: done) frames)
  | .finished v (.member done key :: frames), .closeObject =>
    some (.finished (.obj ((key, v) :: done).reverse) frames)
  | _, _ => none

def run (reading : Reading) : List Token → Option Document
  | [] =>
    match reading with
    | .finished v [] => some v
    | _ => none
  | t :: ts =>
    match reading.step t with
    | none => none
    | some next => next.run ts

end Reading

/-- Reads a text that holds one value and white space around it. -/
def Document.read? (text : List Char) : Option Document :=
  match tokens? text with
  | none => none
  | some ts => (Reading.value []).run ts

/-- The value of the one member named `key`: none if there are several, or if some member's name
is not whole. -/
def soleMember? (key : String) : List (Option String × Document) → Option (Option Document)
  | [] => some none
  | (none, _) :: _ => none
  | (some k, d) :: rest =>
    match soleMember? key rest with
    | none => none
    | some found =>
      if k = key then (if found.isSome then none else some (some d)) else some found

mutual
def Document.value? (room : Nat) : Document → Option Json
  | .null => some .null
  | .bool b => some (.bool b)
  | .num n => n.value?.map .num
  | .str s => s.map .str
  | .arr items => if room ≤ 1 then none else (itemValues? (room - 1) items).map .arr
  | .obj members => if room ≤ 1 then none else (memberValues? (room - 1) members).map object

def itemValues? (room : Nat) : List Document → Option (List Json)
  | [] => some []
  | d :: ds =>
    match Document.value? room d, itemValues? room ds with
    | some v, some vs => some (v :: vs)
    | _, _ => none

def memberValues? (room : Nat) : List (Option String × Document) → Option (List (String × Json))
  | [] => some []
  | (key, d) :: ds =>
    match key, Document.value? room d, memberValues? room ds with
    | some k, some v, some vs => some ((k, v) :: vs)
    | _, _, _ => none
end

/-- The levels of arrays and objects that are too many. -/
def nestingLimit : Nat := 128

def read? (text : String) : Option Json :=
  (Document.read? text.toList).bind (·.value? nestingLimit)

end PluginAudit.Json
