import StripAutomata.Json.Number

/-!
# JSON values

Values of the data format JSON, as far as their readers tell them apart.

* A number is what `JsonNumber` keeps of it.
* A string is `none` when its escapes do not pair up to characters.  Such a string is well-formed
  as long as nobody needs its text.
* An object keeps its members in order, repeated keys included.
-/

namespace StripAutomata

/-- A JSON value. -/
inductive Json where
  | null
  | bool (b : Bool)
  | number (n : JsonNumber)
  | string (text : Option String)
  | array (items : List Json)
  | object (members : List (Option String × Json))
  deriving Inhabited

namespace Json

/-- The string of a text. -/
def ofString (s : String) : Json := string (some s)

/-- The number of a size, a step or a handle. -/
def ofNat (n : Nat) : Json := number (.integer false n)

/-- The number of an offset. -/
def ofInt (n : Int) : Json := number (.integer (decide (n < 0)) n.natAbs)

/-- The object of members whose keys are texts. -/
def ofMembers (members : List (String × Json)) : Json :=
  object (members.map fun m => (some m.1, m.2))

mutual

/-- How many arrays and objects stand inside one another. -/
def depth : Json → Nat
  | array items => depthItems items + 1
  | object members => depthMembers members + 1
  | _ => 0

/-- The depth of the deepest value of a list. -/
def depthItems : List Json → Nat
  | [] => 0
  | v :: vs => max v.depth (depthItems vs)

/-- The depth of the deepest value of a list of members. -/
def depthMembers : List (Option String × Json) → Nat
  | [] => 0
  | (_, v) :: ms => max v.depth (depthMembers ms)

end

mutual

/-- Whether every string of a value has a text and every number is finite. -/
def isSound : Json → Bool
  | null | bool _ => true
  | number n => n.isFinite
  | string text => text.isSome
  | array items => isSoundItems items
  | object members => isSoundMembers members

/-- Whether every value of a list is sound. -/
def isSoundItems : List Json → Bool
  | [] => true
  | v :: vs => v.isSound && isSoundItems vs

/-- Whether every key and every value of a list of members is sound. -/
def isSoundMembers : List (Option String × Json) → Bool
  | [] => true
  | (key, v) :: ms => key.isSome && v.isSound && isSoundMembers ms

end

end Json
end StripAutomata
