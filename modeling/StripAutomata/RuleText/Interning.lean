import StripAutomata.Lexicon
import StripAutomata.RuleText.Reader

/-!
# Interning rule text

Rule text is read with names.  `Lexicon.take` puts the names that a reading mentions into a
lexicon, in order, and turns what was read over to the handles.  The lexicon takes the names in
even if reading fails, as far as it got.
-/

namespace StripAutomata

/-- Puts the names that a reading mentions into a lexicon, and turns what was read over to their
handles. -/
def Lexicon.take {ε : Type} (lexicon : Lexicon) (r : Reading ε (Listing String)) :
    Lexicon × Except ε (Listing Signal) :=
  let lexicon := lexicon.insertAll r.mentioned
  (lexicon, r.outcome.map (Listing.map lexicon.handle))

/-- Reads rule text into a lexicon. -/
def RuleText.readInto (lexicon : Lexicon) (text : String) :
    Lexicon × Except SyntaxError (Listing Signal) :=
  lexicon.take (RuleText.read text)

end StripAutomata
