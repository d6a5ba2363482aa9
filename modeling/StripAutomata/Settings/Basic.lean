import StripAutomata.Text.Blank

/-!
# Settings of a run

The settings of a run are the number of cells, the number of steps to compute and, if there is
one, the signal that the first cell begins with.  A run needs a cell, and the name of the start
signal must not be blank; of both faults, the missing cell is found first.
-/

namespace StripAutomata

/-- How large a run is and what it begins with. -/
structure Settings where
  cells : Nat
  steps : Nat
  start : Option String
  deriving DecidableEq, Repr

/-- Why settings are refused. -/
inductive SettingsFault where
  | noCells
  | blankStart
  deriving DecidableEq, Repr

namespace SettingsFault

/-- What is wrong with the settings. -/
def detail : SettingsFault → String
  | noCells => "a configuration needs at least one cell"
  | blankStart => "start signal name is empty"

/-- The wording of the refusal. -/
def message (e : SettingsFault) : String := s!"invalid configuration: {e.detail}"

end SettingsFault

namespace Settings

/-- The settings where nothing is said. -/
def default : Settings := ⟨40, 40, some "Init"⟩

/-- A small strip, for quick checks. -/
def fast : Settings := ⟨10, 10, default.start⟩

/-- A wide strip and many steps. -/
def thorough : Settings := ⟨200, 400, default.start⟩

instance : Inhabited Settings := ⟨default⟩

/-- Refuses settings that describe no run. -/
def validate (s : Settings) : Except SettingsFault Unit :=
  if s.cells = 0 then .error .noCells
  else
    match s.start with
    | some name => if name.toList.all Text.isBlank then .error .blankStart else .ok ()
    | none => .ok ()

end Settings
end StripAutomata
