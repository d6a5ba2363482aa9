import StripAutomata.Json.Lexeme

/-!
# Reading JSON

The lexemes of a text are taken from left to right.  Arrays and objects that are still open are
kept as frames, innermost first, each with what is complete of it, the last item first.  A `Spot`
says what has just been read and so what may come next.

`Json.parse?` reads one value and nothing after it.
-/

namespace StripAutomata.Json

/-- An array or an object that is still open. -/
inductive Frame where
  | array (items : List Json)
  | object (members : List (Option String × Json))
  /-- An object that waits for the value of a key. -/
  | member (members : List (Option String × Json)) (key : Option String)

/-- A place between the lexemes of a text. -/
inductive Spot where
  /-- A value must follow. -/
  | value
  /-- An item or the end of an array must follow. -/
  | items
  /-- A key or the end of an object must follow. -/
  | members
  /-- A key must follow. -/
  | key
  /-- A colon must follow. -/
  | colon
  /-- A comma or the end of an array or an object must follow, or the end of the text. -/
  | next (complete : Option Json)

/-- The value that an atom stands for. -/
def ofAtom? (cs : List Char) : Option Json :=
  if cs = ['n', 'u', 'l', 'l'] then some null
  else if cs = ['t', 'r', 'u', 'e'] then some (bool true)
  else if cs = ['f', 'a', 'l', 's', 'e'] then some (bool false)
  else (Lexeme.number? cs).map number

/-- Puts a complete value in its place. -/
def settle (v : Json) : List Frame → Option (Spot × List Frame)
  | [] => some (.next (some v), [])
  | .array items :: frames => some (.next none, .array (v :: items) :: frames)
  | .member members key :: frames => some (.next none, .object ((key, v) :: members) :: frames)
  | .object _ :: _ => none

/-- Begins a value: a lexeme that is a value settles, and a bracket or a brace opens a frame. -/
def begin (lexeme : Lexeme) (frames : List Frame) : Option (Spot × List Frame) :=
  match lexeme with
  | .atom cs => do settle (← ofAtom? cs) frames
  | .string inside => do settle (string (← Lexeme.text? inside)) frames
  | .mark '[' => some (.items, .array [] :: frames)
  | .mark '\x7b' => some (.members, .object [] :: frames)
  | .mark _ => none

/-- Takes a key for the innermost object. -/
def enterKey (lexeme : Lexeme) (frames : List Frame) : Option (Spot × List Frame) :=
  match lexeme, frames with
  | .string inside, .object members :: frames => do
    return (.colon, .member members (← Lexeme.text? inside) :: frames)
  | _, _ => none

/-- Closes the innermost array or object. -/
def close (bracket : Char) (frames : List Frame) : Option (Spot × List Frame) :=
  match frames with
  | .array items :: frames =>
    if bracket = ']' then settle (array items.reverse) frames else none
  | .object members :: frames =>
    if bracket = '\x7d' then settle (object members.reverse) frames else none
  | _ => none

/-- Takes one lexeme. -/
def step (spot : Spot) (frames : List Frame) (lexeme : Lexeme) : Option (Spot × List Frame) :=
  match spot with
  | .value => begin lexeme frames
  | .items =>
    match lexeme with
    | .mark ']' => close ']' frames
    | _ => begin lexeme frames
  | .members =>
    match lexeme with
    | .mark '\x7d' => close '\x7d' frames
    | _ => enterKey lexeme frames
  | .key => enterKey lexeme frames
  | .colon => if lexeme = .mark ':' then some (.value, frames) else none
  | .next _ =>
    match lexeme, frames with
    | .mark ',', .array items :: frames => some (.value, .array items :: frames)
    | .mark ',', .object members :: frames => some (.key, .object members :: frames)
    | .mark c, frames => close c frames
    | _, _ => none

/-- Takes the lexemes of a list; at their end, one value must be complete and nothing open. -/
def resume (spot : Spot) (frames : List Frame) : List Lexeme → Option Json
  | [] =>
    match spot with
    | .next complete => complete
    | _ => none
  | lexeme :: rest => do
    let (spot, frames) ← step spot frames lexeme
    resume spot frames rest

/-- Reads a text as one JSON value. -/
def parse? (text : String) : Option Json := do
  resume .value [] (← Lexeme.scan text.toList)

end StripAutomata.Json
