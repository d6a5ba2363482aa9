import StripAutomata.Proofs.Simulation.Naming
import StripAutomata.Proofs.Simulation.RuleOrder

/-!
# Calls on an automaton

An automaton is asked to intern a name, to run with settings, or to simulate from a strip.  All that
such a call leaves behind are names at the end of the lexicon (`Call.exists_leaves?_eq`).  So after
any calls the automaton is the one before with some names interned (`exists_afterAll?_eq`), and its
rules, its reach and the handles of the names that were there are what they were.

A run has three stages that could fail: the settings are looked at, the start signal is put into the
first cell, and the strips are computed.  Only the first one does, and it comes before the lexicon
is touched.  `run?_atomic` says so, and what a run returns; and since the start signal keeps its
handle whatever is called afterwards, the same settings give the same diagram again.
-/

namespace StripAutomata

namespace Lexicon

variable {lexicon : Lexicon} {x : Signal} {name : String}

/-! ## Names of single signals -/

lemma knows_of_name? (h : lexicon.name? x = some name) : lexicon.Knows x :=
  (List.getElem?_eq_some_iff.1 h).1

lemma nameOf_of_name? (h : lexicon.name? x = some name) : lexicon.nameOf x = name := by
  rw [nameOf, h]
  rfl

/-- A lexicon that takes in at most one name has that one name more, unless it has the name. -/
lemma names_insertAll_toList (lexicon : Lexicon) (start : Option String) :
    (lexicon.insertAll start.toList).names =
      lexicon.names ++ start.toList.filter fun name => decide (name ∉ lexicon.names) := by
  rw [names_insertAll]
  cases start with
  | none => rfl
  | some name => by_cases h : name ∈ lexicon.names <;> simp [h, List.eraseDups_cons]

end Lexicon

namespace Settings

/-! ## Settings that describe a run -/

variable {s : Settings}

/-- Whether settings describe no run: there is no cell, or the name of the start signal is blank. -/
def Refused (s : Settings) : Prop :=
  s.cells = 0 ∨ ∃ name, s.start = some name ∧ ∀ c ∈ name.toList, Text.isBlank c = true

/-- Whether there can be room for the strips of a run. -/
def HasRoom (s : Settings) : Prop :=
  Memory.holds s.cells = true ∧ Memory.holds (s.steps + 1) = true

lemma exists_validate_eq_error_iff : (∃ fault, s.validate = .error fault) ↔ s.Refused := by
  obtain ⟨cells, steps, start⟩ := s
  by_cases hcells : cells = 0
  · simp [validate, Refused, hcells]
  · cases start with
    | none => simp [validate, Refused, hcells]
    | some name =>
      rw [validate, if_neg hcells]
      simp only [Refused, hcells, false_or, Option.some.injEq, exists_eq_left', ← List.all_eq_true]
      cases name.toList.all Text.isBlank <;> simp

lemma validate_eq_ok_iff : s.validate = .ok () ↔ ¬ s.Refused := by
  rw [← exists_validate_eq_error_iff]
  rcases s.validate with fault | ⟨⟨⟩⟩ <;> simp

end Settings

namespace Automaton

/-! ## Calls -/

/-- What an automaton can be asked for. -/
inductive Call where
  | intern (name : String)
  | run (s : Settings)
  | simulate (initial : Strip) (steps : Nat)

namespace Call

/-- The automaton that a call leaves, if there is room for the call. -/
def leaves? (a : Automaton) : Call → Option Automaton
  | intern name => some (a.intern name).2
  | run s => (a.run? s).map (·.1)
  | simulate initial steps => (a.simulate? initial steps).map fun _ => a

/-- The diagram that a call returns. -/
def diagram? (a : Automaton) : Call → Option Diagram
  | intern _ => none
  | run s => (a.run? s).bind (·.2.toOption)
  | simulate initial steps => (a.simulate? initial steps).bind (·.toOption)

end Call

/-- The automaton after calls, one after another, if there is room for each of them. -/
def afterAll? (a : Automaton) (calls : List Call) : Option Automaton :=
  calls.foldlM Call.leaves? a

variable {a b c : Automaton} {s : Settings} {d : Diagram} {initial : Strip} {steps : Nat}

/-! ## Computing strips -/

lemma exists_simulate_ok (a : Automaton) (initial : Strip) (steps : Nat) :
    ∃ d, a.simulate initial steps = .ok d := by
  obtain ⟨strips, hstrips⟩ := Simulation.foldlM_total (l := List.range steps)
    (fun time _ strips => Simulation.scanStep_total a initial.size time strips)
    (Simulation.initialStrips initial steps)
  refine ⟨⟨strips⟩, ?_⟩
  rw [simulate, hstrips]
  rfl

lemma hasShape_of_simulate (h : a.simulate initial steps = .ok d) :
    Simulation.HasShape d.strips steps initial.size :=
  (Simulation.hasShape_initialStrips initial steps).foldlM_scanStep (foldlM_of_simulate h)

/-- Names play no part when strips are computed. -/
lemma simulate_internAll (a : Automaton) (names : List String) (initial : Strip) (steps : Nat) :
    (a.internAll names).simulate initial steps = a.simulate initial steps := by
  rw [internAll_eq]
  rfl

/-! ## Runs -/

/-- All that a run can do: its settings are refused and the automaton stays as it is, or there is no
room, or it returns what is computed from the strip that was prepared. -/
lemma run?_cases (a : Automaton) (s : Settings) :
    (s.Refused ∧ ∃ fault, a.run? s = some (a, .error (.settings fault))) ∨
    (¬ s.Refused ∧ ¬ s.HasRoom ∧ a.run? s = none) ∨
    (¬ s.Refused ∧ s.HasRoom ∧ ∃ initial d,
      a.prepare s = (a.internAll s.start.toList, .ok initial) ∧
      a.simulate initial s.steps = .ok d ∧ a.run? s = some (a.internAll s.start.toList, .ok d)) := by
  by_cases hrefused : s.Refused
  · -- The settings are looked at before there has to be room for anything.
    obtain ⟨fault, hfault⟩ := Settings.exists_validate_eq_error_iff.2 hrefused
    refine Or.inl ⟨hrefused, fault, ?_⟩
    rw [run?, run, hfault]
    rfl
  · have hvalid := Settings.validate_eq_ok_iff.2 hrefused
    by_cases hroom : s.HasRoom
    · have hfull : (Memory.holds s.cells && Memory.holds (s.steps + 1)) = true :=
        Bool.and_eq_true_iff.2 hroom
      obtain ⟨initial, hprepare, -⟩ := a.exists_prepare (cells_pos_of_validate hvalid)
      obtain ⟨d, hd⟩ := exists_simulate_ok a initial s.steps
      refine Or.inr (Or.inr ⟨hrefused, hroom, initial, d, hprepare, hd, ?_⟩)
      rw [run?, hfull, Bool.not_true, Bool.and_false, if_neg Bool.false_ne_true,
        run_of_validate hvalid hprepare, simulate_internAll, hd]
      rfl
    · have hfull : (Memory.holds s.cells && Memory.holds (s.steps + 1)) = false := by
        rwa [← Bool.not_eq_true, Bool.and_eq_true]
      refine Or.inr (Or.inl ⟨hrefused, hroom, ?_⟩)
      rw [run?, hvalid, hfull]
      rfl

lemma run?_outcome (a : Automaton) (s : Settings) :
    ((∃ b e, a.run? s = some (b, .error e)) ↔ s.Refused) ∧
    (∀ b e, a.run? s = some (b, .error e) → b = a ∧ ∃ fault, e = .settings fault) ∧
    (a.run? s = none ↔ ¬ s.Refused ∧ ¬ s.HasRoom) ∧
    (¬ s.Refused → s.HasRoom → ∃ b d, a.run? s = some (b, .ok d)) := by
  obtain ⟨hrefused, fault, hrun⟩ | ⟨hvalid, hroom, hrun⟩ | ⟨hvalid, hroom, initial, d, -, -, hrun⟩ :=
    a.run?_cases s
  · simp only [hrun, hrefused]
    simp
  · simp [hrun, hvalid, hroom]
  · simp [hrun, hvalid, hroom]

lemma exists_of_run?_eq_ok (h : a.run? s = some (b, .ok d)) :
    ¬ s.Refused ∧ s.HasRoom ∧ b = a.internAll s.start.toList ∧
      ∃ initial, a.prepare s = (b, .ok initial) ∧ a.simulate initial s.steps = .ok d := by
  obtain ⟨-, fault, hrun⟩ | ⟨-, -, hrun⟩ | ⟨hvalid, hroom, initial, e, hprepare, he, hrun⟩ :=
    a.run?_cases s
  · rw [h] at hrun
    cases hrun
  · rw [h] at hrun
    cases hrun
  · rw [h] at hrun
    cases hrun
    exact ⟨hvalid, hroom, rfl, initial, hprepare, he⟩

/-- A start signal that was interned once keeps its handle, so the same strip is prepared. -/
lemma prepare_internAll (a : Automaton) (s : Settings) (names : List String) :
    ((a.internAll s.start.toList).internAll names).prepare s =
      ((a.internAll s.start.toList).internAll names, (a.prepare s).2) := by
  obtain ⟨cells, steps, start⟩ := s
  cases start with
  | none => rfl
  | some name =>
    have hmem : name ∈ (a.lexicon.insert name).names := Lexicon.mem_names_insert.2 (Or.inr rfl)
    have hhandle : ((a.lexicon.insert name).insertAll names).handle name = a.lexicon.handle name :=
      (Lexicon.handle_insertAll hmem names).trans (a.lexicon.handle_insert_self name)
    -- The lexicon has the name, so nothing changes when it is interned once more.
    have hknown : ((a.lexicon.insert name).insertAll names).insert name =
        (a.lexicon.insert name).insertAll names :=
      Lexicon.insert_of_mem (Lexicon.mem_names_insertAll.2 (Or.inl hmem))
    rw [internAll_eq, internAll_eq]
    show (Automaton.mk (((a.lexicon.insert name).insertAll names).insert name) a.rules,
      ((Strip.empty cells).insert 0
        (((a.lexicon.insert name).insertAll names).handle name)).map (·.2)) = _
    rw [hknown, hhandle]
    rfl

/-! ## What calls leave -/

/-- A call leaves the automaton with some names interned. -/
lemma Call.exists_leaves?_eq {call : Call} (h : call.leaves? a = some b) :
    ∃ names, b = a.internAll names := by
  cases call with
  | intern name =>
    cases h
    exact ⟨[name], rfl⟩
  | run s =>
    obtain ⟨⟨c, outcome⟩, hrun, rfl⟩ := Option.map_eq_some_iff.1 h
    obtain ⟨-, fault, hcase⟩ | ⟨-, -, hcase⟩ | ⟨-, -, initial, d, -, -, hcase⟩ := a.run?_cases s
    · rw [hrun] at hcase
      cases hcase
      exact ⟨[], rfl⟩
    · rw [hrun] at hcase
      cases hcase
    · rw [hrun] at hcase
      cases hcase
      exact ⟨_, rfl⟩
  | simulate initial steps =>
    obtain ⟨-, -, rfl⟩ := Option.map_eq_some_iff.1 h
    exact ⟨[], rfl⟩

lemma exists_afterAll?_eq {calls : List Call} (h : a.afterAll? calls = some b) :
    ∃ names, b = a.internAll names := by
  induction calls generalizing a with
  | nil =>
    cases h
    exact ⟨[], rfl⟩
  | cons call calls ih =>
    rw [afterAll?, List.foldlM_cons] at h
    obtain ⟨c, hcall, hcalls⟩ := Option.bind_eq_some_iff.1 h
    obtain ⟨names, rfl⟩ := Call.exists_leaves?_eq hcall
    obtain ⟨more, rfl⟩ := ih hcalls
    exact ⟨names ++ more, List.foldl_append.symm⟩

/-! ## What a run returns -/

/-- A run that returned a diagram returns it again, whatever was called in between. -/
lemma run?_again (h : a.run? s = some (b, .ok d)) {calls : List Call}
    (hcalls : b.afterAll? calls = some c) : c.run? s = some (c, .ok d) := by
  obtain ⟨hvalid, hroom, rfl, initial, hprepare, hd⟩ := exists_of_run?_eq_ok h
  obtain ⟨names, rfl⟩ := exists_afterAll?_eq hcalls
  -- The first run has interned the start signal, so the second one prepares the same strip.
  have hagain := a.prepare_internAll s names
  rw [hprepare] at hagain
  obtain ⟨hrefused, -⟩ | ⟨-, hnone, -⟩ | ⟨-, -, initial', e, hprepare', he, hrun⟩ :=
    ((a.internAll s.start.toList).internAll names).run?_cases s
  · exact absurd hrefused hvalid
  · exact absurd hroom hnone
  · rw [hagain] at hprepare'
    obtain ⟨hleft, hinitial⟩ := Prod.mk.inj hprepare'
    obtain rfl : initial = initial' := Except.ok.inj hinitial
    rw [simulate_internAll, simulate_internAll, hd] at he
    rw [hrun, ← hleft, ← Except.ok.inj he]

/-- The strip that a run begins with holds the start signal in its first cell and nothing else. -/
lemma mem_initial_iff (h : a.prepare s = (b, .ok initial)) (hcells : 0 < s.cells) (cell : Nat)
    (x : Signal) :
    x ∈ initial.cellOrEmpty cell ↔
      cell = 0 ∧ ∃ name, s.start = some name ∧ b.lexicon.signal? name = some x := by
  obtain ⟨initial', hprepare, -, hheld, hknown⟩ := a.exists_prepare hcells
  rw [h] at hprepare
  cases hprepare
  constructor
  · intro hx
    -- What the strip holds is said by names; a signal that has one is the handle of its name.
    have hx' := hknown cell x hx
    rw [← Lexicon.handle_nameOf hx'] at hx
    obtain ⟨hcell, hstart⟩ := (hheld cell _).1 hx
    exact ⟨hcell, _, hstart, Lexicon.signal?_eq_some_iff.2 (Lexicon.name?_eq_some hx')⟩
  · rintro ⟨hcell, name, hstart, hx⟩
    have hname := Lexicon.signal?_eq_some_iff.1 hx
    rw [← Lexicon.handle_nameOf (Lexicon.knows_of_name? hname), Lexicon.nameOf_of_name? hname]
    exact (hheld cell name).2 ⟨hcell, hstart⟩

/-- **A run fails exactly on settings that are refused, and then changes nothing.**  Otherwise, if
there is room, it returns a diagram of its steps and one more, all of them as wide as it has cells:
what is simulated from the strip that is empty but for the start signal in the first cell.  It
leaves the lexicon with the name of the start signal, and the rules and their reach as they were;
and after any calls, a run with the same settings returns the same diagram, and leaves the automaton
as it is. -/
theorem run?_atomic (a : Automaton) (s : Settings) :
    ((∃ b e, a.run? s = some (b, .error e)) ↔ s.Refused) ∧
    (∀ b e, a.run? s = some (b, .error e) → b = a ∧ ∃ fault, e = .settings fault) ∧
    (a.run? s = none ↔ ¬ s.Refused ∧ ¬ s.HasRoom) ∧
    (¬ s.Refused → s.HasRoom → ∃ b d, a.run? s = some (b, .ok d)) ∧
    ∀ b d, a.run? s = some (b, .ok d) →
      b.lexicon.names =
        a.lexicon.names ++ s.start.toList.filter (fun name => decide (name ∉ a.lexicon.names)) ∧
      b.rules = a.rules ∧ b.reach = a.reach ∧
      d.size = s.steps + 1 ∧ (∀ strip ∈ d.strips, strip.size = s.cells) ∧
      (∃ initial : Strip, initial.size = s.cells ∧
        (∀ cell x, x ∈ initial.cellOrEmpty cell ↔
          cell = 0 ∧ ∃ name, s.start = some name ∧ b.lexicon.signal? name = some x) ∧
        b.simulate? initial s.steps = some (.ok d)) ∧
      ∀ calls c, b.afterAll? calls = some c → c.run? s = some (c, .ok d) := by
  obtain ⟨herror, hkept, hnone, hok⟩ := a.run?_outcome s
  refine ⟨herror, hkept, hnone, hok, fun b d h => ?_⟩
  obtain ⟨hvalid, hroom, rfl, initial, hprepare, hd⟩ := exists_of_run?_eq_ok h
  have hcells := cells_pos_of_validate (Settings.validate_eq_ok_iff.2 hvalid)
  obtain ⟨initial', hprepare', hsize, -⟩ := a.exists_prepare hcells
  obtain rfl : initial = initial' := by
    rw [hprepare] at hprepare'
    exact Except.ok.inj (Prod.mk.inj hprepare').2
  have hshape := hasShape_of_simulate hd
  refine ⟨?_, ?_, ?_, hshape.length, fun strip hstrip => ?_, ⟨initial, hsize,
    mem_initial_iff hprepare hcells, ?_⟩, fun calls c => run?_again h⟩
  · rw [internAll_eq]
    exact Lexicon.names_insertAll_toList a.lexicon s.start
  · rw [internAll_eq]
  · rw [internAll_eq]
    rfl
  · rw [hshape.size_of_mem hstrip, hsize]
  · rw [simulate?, if_pos hroom.2, simulate_internAll, hd]

/-- A run with a start signal that no rule mentions, repeated after other calls, one of which is
refused and one of which interns another start signal. -/
theorem run?_atomic_again :
    let a : Automaton := ⟨.twoNames, [⟨.literal ⟨⟨0⟩, 0, 0⟩, [⟨1, ⟨1⟩, 1⟩]⟩]⟩
    let s : Settings := ⟨3, 2, some "C"⟩
    let calls : List Call := [.run ⟨1, 0, some "D"⟩, .run ⟨0, 7, none⟩, .simulate (.empty 2) 1,
      .intern "E"]
    ¬ s.Refused ∧ s.HasRoom ∧ ∃ b d c, a.run? s = some (b, .ok d) ∧ d.size = 3 ∧
      b.lexicon.names = ["A", "B", "C"] ∧ b.afterAll? calls = some c ∧
      c.lexicon.names = ["A", "B", "C", "D", "E"] ∧ c.run? s = some (c, .ok d) := by
  intro a s calls
  have hvalid : ¬ s.Refused := Settings.validate_eq_ok_iff.1 rfl
  have hroom : s.HasRoom := ⟨rfl, rfl⟩
  obtain ⟨b, d, hrun⟩ := (run?_atomic a s).2.2.2.1 hvalid hroom
  obtain ⟨hnames, hrules, -, hsize, -, -, hagain⟩ := (run?_atomic a s).2.2.2.2 b d hrun
  -- The automaton that the run leaves is known in full, and the calls are computed on it.
  have hb : b = ⟨⟨["A", "B", "C"], by decide⟩, a.rules⟩ := by
    obtain ⟨⟨names, hnodup⟩, rules⟩ := b
    cases hnames
    cases hrules
    rfl
  have hcalls : b.afterAll? calls = some ⟨⟨["A", "B", "C", "D", "E"], by decide⟩, a.rules⟩ := by
    rw [hb]
    rfl
  exact ⟨hvalid, hroom, b, d, _, hrun, hsize, by rw [hb], hcalls, rfl, hagain _ _ hcalls⟩

end Automaton
end StripAutomata
