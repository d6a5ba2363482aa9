import StripAutomata.Json.Basic
import StripAutomata.Numeral

/-!
# Reading values out of JSON

Texts, sizes, lists and records are read out of JSON values.  A record is an object with known
keys, or an array with the values of the known keys in their order:

* in an object, members with other keys are passed over, and a known key may come once only;
* in an array, values may be missing at the end, but there are none too many.

What a missing value means is for the reader of the record to say.
-/

namespace StripAutomata.Json

/-- A text. -/
def text? : Json → Option String
  | string text => text
  | _ => none

/-- A number without sign, fraction and exponent, below a bound. -/
def nat? (bound : Nat) : Json → Option Nat
  | number (.integer false n) => if n < bound then some n else none
  | _ => none

/-- A size. -/
def size? : Json → Option Nat := nat? Numeral.sizeBound

/-- A list of what `item?` reads. -/
def list? {α : Type} (item? : Json → Option α) : Json → Option (List α)
  | array items => items.mapM item?
  | _ => none

/-- What `value?` reads, or nothing for `null`. -/
def orNull? {α : Type} (value? : Json → Option α) : Json → Option (Option α)
  | null => some none
  | v => (value? v).map some

/-- The value of a key: none where the key is missing, and no answer where it comes twice. -/
def member? (members : List (Option String × Json)) (key : String) : Option (Option Json) :=
  match members.filter (·.1 == some key) with
  | [] => some none
  | [m] => some (some m.2)
  | _ => none

/-- The values of the keys of a record, in their order. -/
def record? (keys : List String) : Json → Option (List (Option Json))
  | object members =>
    if members.all (·.1.isSome) then keys.mapM (member? members) else none
  | array items =>
    if items.length ≤ keys.length then
      some (items.map some ++ List.replicate (keys.length - items.length) none)
    else none
  | _ => none

/-- The value of a key that may be missing. -/
def orElse? {α : Type} (missing : α) (value? : Json → Option α) : Option Json → Option α
  | none => some missing
  | some v => value? v

end StripAutomata.Json
