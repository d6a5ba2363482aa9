import StripAutomata.Condition.Item
import StripAutomata.Reading

/-!
# Reading conditions

The units of a condition are taken from left to right.  What has been read so far is a `Draft`:
the items of the row that are complete, and the groups and signs that are still open, innermost
first.  Of a row and of an open group the last item comes first.  An opening bracket or a sign
opens a frame.  A complete item settles in the innermost frame: it closes all the signs that wait
for it and then joins the items of a group, or of the row.

The number of open frames is the depth at which the next item stands, and no frame is opened
at the depth `Condition.maxDepth`.  A sign at the end of the text is refused before its depth is
looked at.
-/

namespace StripAutomata.Condition

/-- A group or a sign that is still open.  The last item of a group comes first. -/
inductive Frame where
  | group (bracket : Bracket) (items : List Condition)
  | sign (negative : Bool)

/-- What has been read of a condition: the complete items of the row, the last one first, and the
open frames, innermost first. -/
structure Draft where
  items : List Condition
  frames : List Frame

namespace Draft

/-- The draft before anything is read. -/
def start : Draft := ⟨[], []⟩

/-- The draft with one more open frame. -/
def enter (draft : Draft) (frame : Frame) : Draft := ⟨draft.items, frame :: draft.frames⟩

/-- Puts a complete item in its place: the innermost open group, or the row when there is none,
under the signs that wait for it. -/
def settle (row : List Condition) (c : Condition) : List Frame → Draft
  | [] => ⟨c :: row, []⟩
  | .group bracket items :: frames => ⟨row, .group bracket (c :: items) :: frames⟩
  | .sign negative :: frames => settle row (.signed negative c) frames

end Draft

/-- The fault of a bracket. -/
def bracketFault (bracket : Char) (cause : SyntaxCause) : Fault :=
  ⟨bracket.toString, cause⟩

/-- Reads the units of a condition, going on from a draft. -/
def resume (draft : Draft) : List Token → Reading Fault (List Condition)
  | [] =>
    match draft.frames with
    | [] => .done draft.items.reverse
    | .group bracket _ :: _ => .fail (bracketFault bracket.opening .unclosedGroup)
    | .sign negative :: _ => .fail ⟨if negative then "-" else "+", .signWithoutOperand⟩
  | .opening bracket :: rest =>
    if draft.frames.length < maxDepth then
      resume (draft.enter (.group bracket [])) rest
    else .fail (bracketFault bracket.opening .nestedTooDeeply)
  | .closing bracket :: rest =>
    match draft.frames with
    | .group opened items :: frames =>
      if opened ≠ bracket then .fail (bracketFault bracket.closing .mismatchedClosing)
      else if bracket = .round ∧ items.isEmpty then .fail ⟨"()", .emptyConjunction⟩
      else resume (.settle draft.items (.group bracket items.reverse) frames) rest
    | _ => .fail (bracketFault bracket.closing .unbalancedClosing)
  | .word w :: rest =>
    match sign? w with
    | some negative =>
      if rest.isEmpty then .fail ⟨w, .signWithoutOperand⟩
      else if draft.frames.length < maxDepth then
        resume (draft.enter (.sign negative)) rest
      else .fail ⟨w, .nestedTooDeeply⟩
    | none =>
      match readLiteral w with
      | .error cause => .fail ⟨w, cause⟩
      | .ok (l, negative) => do
        Reading.mention l.signal ()
        resume (.settle draft.items (.literal l negative) draft.frames) rest

/-- Reads the items of a written condition. -/
def read (cs : List Char) : Reading Fault (List Condition) :=
  resume .start (Token.scan cs)

/-- Reads a written condition as the formula that it means. -/
def readFormula (cs : List Char) : Reading Fault (Formula String) := do
  return .all (formulas (← read cs))

end StripAutomata.Condition
