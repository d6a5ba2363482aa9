import Mathlib.Data.List.Sort
import StripAutomata.Chart.Grid
import StripAutomata.Proofs.Automaton.RoundTrip
import StripAutomata.Proofs.Simulation.Silent

/-!
# Handles do not show

A chart has names in place of handles, and so the numbering of the signals should not show in it.
Here two runs are compared whose rules over names do the same: `Rule.Alike` asks of two rules for
conditions that hold alike and for the same outputs.  The handles of one name are different in the
two runs, and a name may be missing from one of the lexicons; still, at every visit the cells of the
one run hold the handle of a name if those of the other run hold the handle that the name has there
(`Alike.signalsAt_iff`), since the same rules fire (`Alike.fires_iff`), and so the charts are the same
(`Alike.chart_eq`).  Nothing is asked of the reach, because windows cover where the
conditions look (`exists_simulate`).

`shown?_eq_of_alike` puts the run around it: the settings, the start signal, which is interned on
the way, and the rules that place nothing.
-/

namespace StripAutomata

/-! ## Formulas over names -/

lemma Formula.holds_map {σ τ : Type} (f : σ → τ) {present : Int → τ → Prop} (c : Formula σ) :
    (c.map f).Holds present ↔ c.Holds fun offset s => present offset (f s) := by
  induction c with
  | always => rfl
  | literal l => rfl
  | negation c ih => exact not_congr ih
  | conjunction cs ih =>
    rw [map, mapAll_eq_map, Holds, Holds, holdsAll_iff, holdsAll_iff, List.forall_mem_map]
    exact forall₂_congr ih
  | disjunction cs ih =>
    rw [map, mapAll_eq_map, Holds, Holds, holdsSome_iff, holdsSome_iff]
    simp only [List.mem_map, exists_exists_and_eq_and]
    exact exists_congr fun c => and_congr_right (ih c)

/-- A formula over the handles of a lexicon holds if it does over the names. -/
lemma Formula.holds_nameOf {lexicon : Lexicon} {present : Int → Signal → Prop} {c : Formula Signal}
    (h : ∀ l ∈ c.literals, lexicon.Knows l.signal) :
    c.Holds present ↔
      (c.map lexicon.nameOf).Holds fun offset name => present offset (lexicon.handle name) := by
  rw [holds_map]
  refine holds_congr fun l hl => ?_
  rw [Lexicon.handle_nameOf (h l hl)]

/-! ## Names in cells -/

lemma sortNames_eq_of_perm {names others : List String} (h : names.Perm others) :
    sortNames names = sortNames others := by
  have hsorted : ∀ l : List String, (sortNames l).Pairwise (· ≤ ·) :=
    List.pairwise_mergeSort' (· ≤ ·)
  have hperm : (sortNames names).Perm (sortNames others) :=
    (List.mergeSort_perm names _).trans (h.trans (List.mergeSort_perm others _).symm)
  exact hperm.eq_of_pairwise' (hsorted names) (hsorted others)

namespace SignalSet

variable {lexicon other : Lexicon} {set set' : SignalSet}

lemma mem_map_nameOf (h : ∀ s ∈ set, lexicon.Knows s) {name : String} :
    name ∈ set.toList.map lexicon.nameOf ↔ lexicon.handle name ∈ set := by
  constructor
  · intro hname
    obtain ⟨s, hs, rfl⟩ := List.mem_map.1 hname
    rwa [Lexicon.handle_nameOf (h s hs)]
  · intro hs
    exact List.mem_map.2 ⟨_, hs, Lexicon.nameOf_handle (Lexicon.knows_handle.1 (h _ hs))⟩

lemma nodup_map_nameOf (h : ∀ s ∈ set, lexicon.Knows s) :
    (set.toList.map lexicon.nameOf).Nodup := by
  have hnodup : set.toList.Nodup :=
    set.ascending.imp fun hlt => by rintro rfl; exact Signal.lt_irrefl _ hlt
  refine hnodup.map_on fun s hs t ht heq => ?_
  rw [← Lexicon.handle_nameOf (h s hs), heq, Lexicon.handle_nameOf (h t ht)]

/-- Sets have the same names if they have the handles of the same names. -/
lemma names_congr (h : ∀ s ∈ set, lexicon.Knows s) (h' : ∀ s ∈ set', other.Knows s)
    (hsame : ∀ name, lexicon.handle name ∈ set ↔ other.handle name ∈ set') :
    set.names lexicon = set'.names other := by
  refine sortNames_eq_of_perm ?_
  -- No name stands twice, so it is enough that the same names are there.
  refine (List.perm_ext_iff_of_nodup (nodup_map_nameOf h) (nodup_map_nameOf h')).2 fun name => ?_
  rw [mem_map_nameOf h, mem_map_nameOf h', hsame]

end SignalSet

namespace Automaton

/-- Whether all signals of the rules have names. -/
def Resolved (a : Automaton) : Prop := ∀ r ∈ a.rules, ∀ s ∈ r.signals, a.lexicon.Knows s

instance (a : Automaton) : Decidable a.Resolved :=
  inferInstanceAs (Decidable (∀ r ∈ a.rules, ∀ s ∈ r.signals, a.lexicon.Knows s))

lemma Resolved.signal_of_mem_literals {a : Automaton} (h : a.Resolved) {r : Rule Signal}
    (hr : r ∈ a.rules) : ∀ l ∈ r.condition.literals, a.lexicon.Knows l.signal := fun _ hl =>
  h r hr _ (List.mem_append_left _ (List.mem_map_of_mem hl))

lemma Resolved.signal_of_mem_outputs {a : Automaton} (h : a.Resolved) {r : Rule Signal}
    (hr : r ∈ a.rules) : ∀ o ∈ r.outputs, a.lexicon.Knows o.signal := fun _ ho =>
  h r hr _ (List.mem_append_right _ (List.mem_map_of_mem ho))

/-! ## Automata that do the same -/

/-- Whether two automata have the same rules over names, as far as what the rules do. -/
structure Alike (a b : Automaton) : Prop where
  left : a.Resolved
  right : b.Resolved
  rules : List.Forall₂ Rule.Alike a.namedRules b.namedRules

variable {a b : Automaton} {v : Visit} {time cell : Nat} {name : String}

lemma Alike.symm (h : a.Alike b) : b.Alike a :=
  ⟨h.right, h.left, h.rules.flip.imp fun _ _ hrule => hrule.symm⟩

/-- At a visit the one automaton has a rule if the other one does, and the two do the same. -/
lemma Alike.exists_rule (h : a.Alike b) {k : Nat} {r : Rule Signal} (hr : a.rules[k]? = some r) :
    ∃ q, b.rules[k]? = some q ∧ (r.map a.lexicon.nameOf).Alike (q.map b.lexicon.nameOf) := by
  obtain ⟨hlt, rfl⟩ := List.getElem?_eq_some_iff.1 hr
  have hrules := h.rules
  rw [namedRules, namedRules, List.forall₂_map_left_iff, List.forall₂_map_right_iff] at hrules
  have hlt' : k < b.rules.length := hrules.length_eq ▸ hlt
  exact ⟨_, List.getElem?_eq_getElem hlt', hrules.get hlt hlt'⟩

lemma Alike.places (h : a.Alike b) (hplaces : a.Places v time cell (a.lexicon.handle name)) :
    b.Places v time cell (b.lexicon.handle name) := by
  obtain ⟨r, hr, o, ho, htime, hcell, hsignal⟩ := hplaces
  obtain ⟨q, hq, halike⟩ := h.exists_rule hr
  have hmem : o.map a.lexicon.nameOf ∈ q.outputs.map (Output.map b.lexicon.nameOf) := by
    have houtputs : r.outputs.map (Output.map a.lexicon.nameOf) =
        q.outputs.map (Output.map b.lexicon.nameOf) := halike.outputs
    rw [← houtputs]
    exact List.mem_map_of_mem ho
  obtain ⟨o', ho', heq⟩ := List.mem_map.1 hmem
  rw [Output.map, Output.map, Output.mk.injEq] at heq
  obtain ⟨hoffset, hname, hstep⟩ := heq
  have hknown := h.left.signal_of_mem_outputs (List.mem_of_getElem? hr) o ho
  have hknown' := h.right.signal_of_mem_outputs (List.mem_of_getElem? hq) o' ho'
  refine ⟨q, hq, o', ho', by omega, by omega, ?_⟩
  rw [hsignal, Lexicon.knows_handle] at hknown
  rw [← Lexicon.handle_nameOf hknown', hname, hsignal, Lexicon.nameOf_handle hknown]

lemma Alike.places_iff (h : a.Alike b) :
    a.Places v time cell (a.lexicon.handle name) ↔ b.Places v time cell (b.lexicon.handle name) :=
  ⟨h.places, h.symm.places⟩

lemma Alike.canFire (h : a.Alike b) {width : Nat} {p q : Nat → Signal → Prop}
    (hsame : ∀ cell name, p cell (a.lexicon.handle name) ↔ q cell (b.lexicon.handle name))
    (hcan : a.CanFire width p v) : b.CanFire width q v := by
  obtain ⟨r, hr, hholds⟩ := hcan
  obtain ⟨r', hr', halike⟩ := h.exists_rule hr
  refine ⟨r', hr', ?_⟩
  rw [Formula.holds_nameOf (h.left.signal_of_mem_literals (List.mem_of_getElem? hr))] at hholds
  rw [Formula.holds_nameOf (h.right.signal_of_mem_literals (List.mem_of_getElem? hr'))]
  simp only [← hsame]
  exact (halike.condition _).1 hholds

lemma Alike.canFire_iff (h : a.Alike b) {width : Nat} {p q : Nat → Signal → Prop}
    (hsame : ∀ cell name, p cell (a.lexicon.handle name) ↔ q cell (b.lexicon.handle name)) :
    a.CanFire width p v ↔ b.CanFire width q v :=
  ⟨h.canFire hsame, h.symm.canFire fun cell name => (hsame cell name).symm⟩

/-! ## Runs by name -/

/-- Whether two strips hold the same by name. -/
def SameSeeds (a b : Automaton) (left right : Strip) : Prop :=
  left.size = right.size ∧ ∀ cell name,
    a.lexicon.handle name ∈ left.cellOrEmpty cell ↔ b.lexicon.handle name ∈ right.cellOrEmpty cell

variable {left right : Strip}

/-- **The same rules fire**, whatever the handles. -/
theorem Alike.fires_iff (h : a.Alike b) (hseeds : a.SameSeeds b left right) :
    a.Fires left v ↔ b.Fires right v := by
  -- By the time of a visit the cells hold the same by name, since the same rules fired before it.
  induction v using Visit.wellFounded_before.induction with
  | _ v ih =>
    rw [Automaton.fires_iff, Automaton.fires_iff, hseeds.1]
    refine and_congr_right fun _ => h.canFire_iff fun cell name => ?_
    refine or_congr (and_congr_right fun _ => hseeds.2 cell name) (exists_congr fun u => ?_)
    exact and_congr_right fun hbefore => and_congr (ih u hbefore) h.places_iff

/-- What is held by name at the end of two runs is the same. -/
lemma Alike.signalsAt_iff (h : a.Alike b) (hseeds : a.SameSeeds b left right)
    (hroom : Memory.holds left.size = true) {steps : Nat} {d e : Diagram}
    (hd : a.simulate left steps = .ok d) (he : b.simulate right steps = .ok e)
    (htime : time ≤ steps) (hcell : cell < left.size) :
    a.lexicon.handle name ∈ d.signalsAt time cell ↔
      b.lexicon.handle name ∈ e.signalsAt time cell := by
  obtain ⟨d', hd', -, hleft⟩ := exists_simulate a hroom steps
  obtain ⟨e', he', -, hright⟩ := exists_simulate b (hseeds.1 ▸ hroom) steps
  obtain rfl : d' = d := Except.ok.inj (hd'.symm.trans hd)
  obtain rfl : e' = e := Except.ok.inj (he'.symm.trans he)
  rw [hleft time htime cell hcell, hright time htime cell (hseeds.1 ▸ hcell)]
  refine or_congr (and_congr_right fun _ => hseeds.2 cell name) (exists_congr fun v => ?_)
  exact and_congr_right fun _ => and_congr (h.fires_iff hseeds) h.places_iff

/-- Signals that a run places have names, so all that it holds have if those of its initial strip
do. -/
lemma Resolved.knows_of_mem_signalsAt (h : a.Resolved)
    (hseeds : ∀ cell, ∀ s ∈ left.cellOrEmpty cell, a.lexicon.Knows s)
    (hroom : Memory.holds left.size = true) {steps : Nat} {d : Diagram}
    (hd : a.simulate left steps = .ok d) (htime : time ≤ steps) (hcell : cell < left.size) :
    ∀ s ∈ d.signalsAt time cell, a.lexicon.Knows s := by
  obtain ⟨d', hd', -, hcells⟩ := exists_simulate a hroom steps
  obtain rfl : d' = d := Except.ok.inj (hd'.symm.trans hd)
  intro s hs
  rcases (hcells time htime cell hcell s).1 hs with ⟨-, hseed⟩ | ⟨v, -, -, hplaces⟩
  · exact hseeds cell s hseed
  · obtain ⟨r, hr, o, ho, -, -, rfl⟩ := hplaces
    exact h.signal_of_mem_outputs (List.mem_of_getElem? hr) o ho

lemma Alike.chart_eq (h : a.Alike b) (hseeds : a.SameSeeds b left right)
    (hleft : ∀ cell, ∀ s ∈ left.cellOrEmpty cell, a.lexicon.Knows s)
    (hright : ∀ cell, ∀ s ∈ right.cellOrEmpty cell, b.lexicon.Knows s)
    (hroom : Memory.holds left.size = true) (steps : Nat) :
    ∃ d e, a.simulate left steps = .ok d ∧ b.simulate right steps = .ok e ∧
      d.chart a.lexicon = e.chart b.lexicon := by
  have hroom' : Memory.holds right.size = true := hseeds.1 ▸ hroom
  obtain ⟨d, hd, hshape, -⟩ := exists_simulate a hroom steps
  obtain ⟨e, he, hshape', -⟩ := exists_simulate b hroom' steps
  refine ⟨d, e, hd, he, ?_⟩
  rw [Diagram.chart_of_hasShape hshape, Diagram.chart_of_hasShape hshape', ← hseeds.1]
  refine congrArg (Chart.mk left.size) (List.map_congr_left fun time htime => ?_)
  refine List.map_congr_left fun cell hcell => ?_
  rw [List.mem_range] at htime hcell
  have hlast : time ≤ steps := Nat.lt_succ_iff.1 htime
  apply SignalSet.names_congr
  · exact h.left.knows_of_mem_signalsAt hleft hroom hd hlast hcell
  · exact h.right.knows_of_mem_signalsAt hright hroom' he hlast (hseeds.1 ▸ hcell)
  · exact fun name => h.signalsAt_iff hseeds hroom hd he hlast hcell

/-! ## Names that are interned before a run -/

/-- The automaton after names were interned, one after another. -/
def internAll (a : Automaton) (names : List String) : Automaton :=
  names.foldl (fun a name => (a.intern name).2) a

lemma internAll_eq (a : Automaton) (names : List String) :
    a.internAll names = ⟨a.lexicon.insertAll names, a.rules⟩ := by
  induction names generalizing a with
  | nil => rfl
  | cons name names ih => exact ih (a.intern name).2

lemma Resolved.internAll (h : a.Resolved) (names : List String) : (a.internAll names).Resolved := by
  rw [internAll_eq]
  exact fun r hr s hs => (h r hr s hs).insertAll names

lemma Resolved.namedRules_internAll (h : a.Resolved) (names : List String) :
    (a.internAll names).namedRules = a.namedRules := by
  rw [internAll_eq]
  refine List.map_congr_left fun r hr => Rule.map_congr fun s hs => ?_
  exact Lexicon.nameOf_insertAll (h r hr s hs) names

lemma Alike.internAll (h : a.Alike b) (names others : List String) :
    (a.internAll names).Alike (b.internAll others) where
  left := h.left.internAll names
  right := h.right.internAll others
  rules := by
    rw [h.left.namedRules_internAll, h.right.namedRules_internAll]
    exact h.rules

lemma mem_place_zero {cells : Nat} (h : 0 < cells) {s x : Signal} :
    x ∈ ((Strip.empty cells).place 0 s).cellOrEmpty cell ↔ cell = 0 ∧ s = x := by
  by_cases hcell : cell < (Strip.empty cells).size
  · rw [Strip.mem_cellOrEmpty_place hcell, eq_comm (a := 0)]
    exact or_iff_right (Simulation.not_mem_cellOrEmpty_empty cells cell x)
  · refine iff_of_false (fun hx => hcell ?_) fun hx => hcell ?_
    · rw [← Strip.size_place]
      exact Strip.lt_size_of_mem hx
    · rwa [hx.1, Strip.size_empty]

/-- The strip that a run begins with holds the start signal, under the handle that the name has once
it is interned, and nothing else. -/
lemma exists_prepare (a : Automaton) {s : Settings} (hcells : 0 < s.cells) :
    ∃ initial, a.prepare s = (a.internAll s.start.toList, .ok initial) ∧
      initial.size = s.cells ∧
      (∀ cell name, (a.internAll s.start.toList).lexicon.handle name ∈ initial.cellOrEmpty cell ↔
        cell = 0 ∧ s.start = some name) ∧
      ∀ cell, ∀ x ∈ initial.cellOrEmpty cell, (a.internAll s.start.toList).lexicon.Knows x := by
  obtain ⟨cells, steps, start⟩ := s
  rw [internAll_eq]
  cases start with
  | none =>
    refine ⟨.empty cells, rfl, Strip.size_empty cells, fun cell name => ?_, fun cell x hx => ?_⟩
    · simp [Simulation.not_mem_cellOrEmpty_empty]
    · exact absurd hx (Simulation.not_mem_cellOrEmpty_empty cells cell x)
  | some start =>
    -- The start signal is put into the first cell, which there is.
    have hsize : 0 < (Strip.empty cells).size := by rwa [Strip.size_empty]
    have hplaced : (Strip.empty cells).insert 0 (a.lexicon.handle start) =
        .ok (_, (Strip.empty cells).place 0 (a.lexicon.handle start)) := if_pos hsize
    have hmem : start ∈ (a.lexicon.insert start).names := Lexicon.mem_names_insert.2 (Or.inr rfl)
    have hkept := a.lexicon.handle_insert_self start
    refine ⟨(Strip.empty cells).place 0 (a.lexicon.handle start), ?_, by simp,
      fun cell name => ?_, fun cell x hx => ?_⟩
    · show (_, Except.map _ (Strip.insert _ _ (a.lexicon.handle start))) = _
      rw [hplaced]
      rfl
    · rw [mem_place_zero hcells, ← hkept, Option.some.injEq]
      exact and_congr_right fun _ => Lexicon.handle_eq_handle_iff hmem
    · obtain ⟨-, rfl⟩ := (mem_place_zero hcells).1 hx
      rw [← hkept]
      exact Lexicon.knows_handle.2 hmem

/-! ## What a run shows -/

/-- What a run that settings describe shows: the chart of its diagram, with the names of the lexicon
that the run leaves, and the text of the chart if it has one.  There is nothing to show if there is
no room for the diagram. -/
def shown? (a : Automaton) (s : Settings) : Option (Except Failure (Chart × Option String)) :=
  (a.run? s).map fun run => run.2.map fun d =>
    (d.chart run.1.lexicon, (d.chart run.1.lexicon).text?)

lemma run_of_validate {s : Settings} (h : s.validate = .ok ()) {c : Automaton} {initial : Strip}
    (hprepare : a.prepare s = (c, .ok initial)) :
    a.run s = (c, (c.simulate initial s.steps).mapError .window) := by
  rw [run, h, hprepare]

lemma cells_pos_of_validate {s : Settings} (h : s.validate = .ok ()) : 0 < s.cells := by
  refine Nat.pos_of_ne_zero fun hzero => ?_
  rw [Settings.validate, if_pos hzero] at h
  cases h

/-- Where there is room, a run shows the chart of its diagram. -/
lemma shown?_of_simulate {s : Settings} (h : s.validate = .ok ()) {c : Automaton} {initial : Strip}
    (hprepare : a.prepare s = (c, .ok initial)) {d : Diagram}
    (hd : c.simulate initial s.steps = .ok d)
    (hroom : (Memory.holds s.cells && Memory.holds (s.steps + 1)) = true) :
    a.shown? s = some (.ok (d.chart c.lexicon, (d.chart c.lexicon).text?)) := by
  rw [shown?, run?, run_of_validate h hprepare, hd, hroom, Bool.not_true, Bool.and_false]
  rfl

lemma shown?_eq_none {s : Settings} (h : s.validate = .ok ())
    (hroom : (Memory.holds s.cells && Memory.holds (s.steps + 1)) = false) : a.shown? s = none := by
  rw [shown?, run?, h, hroom]
  rfl

lemma acting_internAll (a : Automaton) (names : List String) :
    (a.internAll names).acting = a.acting.internAll names := by
  rw [internAll_eq, internAll_eq]
  rfl

/-- **Only names show.**  Runs of two automata show the same if their rules over names do the same,
rules without outputs left out. -/
theorem shown?_eq_of_alike (h : a.acting.Alike b.acting) (s : Settings) :
    a.shown? s = b.shown? s := by
  rcases hvalid : s.validate with fault | ⟨⟨⟩⟩
  · rw [shown?, shown?, run?, run?, run, run, hvalid]
    rfl
  cases hroom : Memory.holds s.cells && Memory.holds (s.steps + 1) with
  | false => rw [shown?_eq_none hvalid hroom, shown?_eq_none hvalid hroom]
  | true =>
    obtain ⟨left, hleft, hsize, hheld, hknown⟩ := a.exists_prepare (cells_pos_of_validate hvalid)
    obtain ⟨right, hright, hsize', hheld', hknown'⟩ :=
      b.exists_prepare (cells_pos_of_validate hvalid)
    have hnamed := h.internAll s.start.toList s.start.toList
    rw [← acting_internAll, ← acting_internAll] at hnamed
    have hseeds : (a.internAll s.start.toList).acting.SameSeeds
        (b.internAll s.start.toList).acting left right :=
      ⟨hsize.trans hsize'.symm, fun cell name => (hheld cell name).trans (hheld' cell name).symm⟩
    have hroom' : Memory.holds left.size = true := by
      rw [hsize]
      exact (Bool.and_eq_true_iff.1 hroom).1
    obtain ⟨d, e, hd, he, hchart⟩ := hnamed.chart_eq hseeds hknown hknown' hroom' s.steps
    -- Rules without outputs do not show in the diagrams.
    rw [simulate_acting _ hroom'] at hd
    rw [simulate_acting _ (hseeds.1 ▸ hroom')] at he
    have hchart' : d.chart (a.internAll s.start.toList).lexicon =
        e.chart (b.internAll s.start.toList).lexicon := hchart
    rw [shown?_of_simulate hvalid hleft hd hroom, shown?_of_simulate hvalid hright he hroom, hchart']

end Automaton
end StripAutomata
