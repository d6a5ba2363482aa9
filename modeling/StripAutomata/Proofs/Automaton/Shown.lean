import StripAutomata.Proofs.RuleText.Rewriting
import StripAutomata.Proofs.Simulation.Naming

/-!
# What does not show in a run

The handles of the signals do not show in a run, nor do the times that are written beside literals,
since conditions look at a single time step: `runs_show_names_only` compares automata whose rules
are the same over names and without times (`Rule.timeless`).  So it does not matter which names were
interned before, whether before a run or before the rules were read.

Nor does it matter that an automaton was written and read again.  For automata that were read this
is a special case, but rules that were put together by hand may come back as other rules.  Where
they come back at all they do the same, if their conditions are legible and their signals are called
by names; if not, the written form may be read as something else (`exists_render_shows_otherwise`).
-/

namespace StripAutomata

/-! ## Rules without times -/

/-- The literal without its time. -/
def Literal.timeless {σ : Type} (l : Literal σ) : Literal σ := { l with time := 0 }

namespace Formula

variable {σ : Type}

mutual

/-- The formula without the times of its literals. -/
def timeless : Formula σ → Formula σ
  | always => always
  | literal l => literal l.timeless
  | negation c => negation c.timeless
  | conjunction cs => conjunction (timelessAll cs)
  | disjunction cs => disjunction (timelessAll cs)

/-- The formulas of a list without the times of their literals. -/
def timelessAll : List (Formula σ) → List (Formula σ)
  | [] => []
  | c :: cs => c.timeless :: timelessAll cs

end

lemma timelessAll_eq_map (cs : List (Formula σ)) : timelessAll cs = cs.map timeless := by
  induction cs with
  | nil => rfl
  | cons c cs ih => rw [timelessAll, ih, List.map_cons]

/-- The time of a literal has no part in whether a formula holds. -/
lemma holds_timeless {present : Int → σ → Prop} (c : Formula σ) :
    c.timeless.Holds present ↔ c.Holds present := by
  induction c with
  | always => rfl
  | literal l => rfl
  | negation c ih => exact not_congr ih
  | conjunction cs ih =>
    rw [timeless, timelessAll_eq_map, Holds, Holds, holdsAll_iff, holdsAll_iff, List.forall_mem_map]
    exact forall₂_congr ih
  | disjunction cs ih =>
    rw [timeless, timelessAll_eq_map, Holds, Holds, holdsSome_iff, holdsSome_iff]
    simp only [List.mem_map, exists_exists_and_eq_and]
    exact exists_congr fun c => and_congr_right (ih c)

end Formula

/-- The rule without the times of its literals. -/
def Rule.timeless {σ : Type} (r : Rule σ) : Rule σ := { r with condition := r.condition.timeless }

lemma Rule.alike_of_timeless_eq {σ : Type} {r q : Rule σ} (h : r.timeless = q.timeless) :
    r.Alike q := by
  obtain ⟨hcondition, houtputs⟩ := Rule.mk.inj h
  refine ⟨fun present => ?_, houtputs⟩
  rw [← Formula.holds_timeless, hcondition, Formula.holds_timeless]

/-- Lists of rules that are the same without times do the same, rules without outputs left out. -/
lemma forall₂_alike_of_timeless_eq {σ : Type} {rules others : List (Rule σ)}
    (h : rules.map Rule.timeless = others.map Rule.timeless) :
    List.Forall₂ Rule.Alike (rules.filter Rule.acts) (others.filter Rule.acts) := by
  have hsame : List.Forall₂ (· = ·) (rules.map Rule.timeless) (others.map Rule.timeless) := by
    rw [h]
    exact List.forall₂_refl _
  rw [List.forall₂_map_left_iff, List.forall₂_map_right_iff] at hsame
  refine List.rel_filter (fun r q halike => ?_) (hsame.imp fun _ _ => Rule.alike_of_timeless_eq)
  show r.acts = true ↔ q.acts = true
  rw [Rule.acts, Rule.acts, halike.outputs]

namespace Automaton

variable {a b : Automaton}

lemma namedRules_acting (a : Automaton) : a.acting.namedRules = a.namedRules.filter Rule.acts := by
  rw [namedRules, namedRules, List.filter_map]
  refine congrArg _ (List.filter_congr fun r _ => ?_)
  simp [Rule.acts, Rule.map]

/-- Automata show the same if their rules over names do the same, rules without outputs left out. -/
lemma shown?_eq_of_forall₂ (ha : a.Resolved) (hb : b.Resolved)
    (h : List.Forall₂ Rule.Alike (a.namedRules.filter Rule.acts) (b.namedRules.filter Rule.acts))
    (s : Settings) : a.shown? s = b.shown? s := by
  refine shown?_eq_of_alike ⟨fun r hr => ?_, fun r hr => ?_, ?_⟩ s
  · exact ha r (List.mem_filter.1 hr).1
  · exact hb r (List.mem_filter.1 hr).1
  · rwa [namedRules_acting, namedRules_acting]

/-- Rules that are read into a lexicon have names in it, and they are the rules over names of any
other automaton that is read of the text. -/
lemma exists_parse_of_readInto {lexicon after : Lexicon} {text : String} {l : Listing Signal}
    (h : RuleText.readInto lexicon text = (after, .ok l)) :
    Resolved ⟨after, l.rules⟩ ∧
      ∃ b, parse text = .ok b ∧ b.namedRules = namedRules ⟨after, l.rules⟩ := by
  rcases hread : RuleText.read text with ⟨mentioned, error | named⟩
  · rw [RuleText.readInto, hread] at h
    cases h
  · rw [RuleText.readInto, hread] at h
    obtain ⟨hmade, -⟩ := RuleText.madeOf_of_read hread
    -- Every name in a rule was mentioned, and so was interned.
    have hnames : ∀ r ∈ named.rules, r.signals ⊆ (lexicon.insertAll mentioned).names :=
      fun r hr name hname => Lexicon.mem_names_insertAll.2 (Or.inr ((hmade r hr).2 hname))
    obtain ⟨b, hb, hrules, -⟩ := parse_of_read hread fun r hr => (hmade r hr).2
    cases h
    refine ⟨List.forall_mem_map.2 fun r hr => ?_, b, hb, ?_⟩
    · rw [Rule.signals_map]
      exact List.forall_mem_map.2 fun name hname => Lexicon.knows_handle.2 (hnames r hr hname)
    · rw [hrules]
      exact (namedRules_handle hnames).symm

lemma resolved_of_parse {text : String} (h : parse text = .ok a) : a.Resolved := by
  rcases hread : RuleText.readInto ∅ text with ⟨lexicon, error | l⟩
  · rw [parse, hread] at h
    cases h
  · rw [parse, hread] at h
    cases h
    exact (exists_parse_of_readInto hread).1

lemma alike_of_parse_render (h : ∀ r ∈ a.namedRules, r.Legible) (hb : parse a.render = .ok b) :
    List.Forall₂ Rule.Alike (a.namedRules.filter Rule.acts) (b.namedRules.filter Rule.acts) := by
  obtain ⟨mentioned, hread, hmade, -⟩ := read_of_parse hb
  -- What is read always has outputs, so that nothing is left out on that side.
  have hacts : ∀ r ∈ b.namedRules, r.acts = true := by
    intro r hr
    simpa [Rule.acts] using (hmade r hr).1.outputs_ne_nil
  rw [List.filter_eq_self.2 hacts]
  have houtcome : (RuleText.read a.render).outcome = .ok (.ofRules b.namedRules) := by rw [hread]
  exact RuleText.alike_of_read_render h houtcome

/-- **Runs show names only.**  Two automata all of whose signals have names show the same, whatever
the settings, if their rules are the same over names and without times: the runs are refused for
the same reason or have the same chart and text.  It is so

* for an automaton, whatever names are interned before the run;
* for the rules of a text, whatever lexicon they are read into;
* for an automaton whose rules are legible, and what is read of its written form, if that is read;
* for an automaton that was read of a text, and what is read of its written form, if anything is. -/
theorem runs_show_names_only :
    (∀ a b : Automaton, a.Resolved → b.Resolved →
      a.namedRules.map Rule.timeless = b.namedRules.map Rule.timeless →
      ∀ s, a.shown? s = b.shown? s) ∧
    (∀ (a : Automaton) (names : List String), a.Resolved →
      ∀ s, (a.internAll names).shown? s = a.shown? s) ∧
    (∀ (lexicon after : Lexicon) (text : String) (l : Listing Signal),
      RuleText.readInto lexicon text = (after, .ok l) →
      ∃ b, parse text = .ok b ∧ ∀ s, shown? ⟨after, l.rules⟩ s = b.shown? s) ∧
    (∀ a b : Automaton, a.Resolved → (∀ r ∈ a.namedRules, r.Legible) → parse a.render = .ok b →
      ∀ s, a.shown? s = b.shown? s) ∧
    (∀ (text : String) (a b : Automaton), parse text = .ok a → parse a.render = .ok b →
      ∀ s, a.shown? s = b.shown? s) := by
  -- Three of the parts are about automata that are the same over names.
  have hsame : ∀ a b : Automaton, a.Resolved → b.Resolved → a.namedRules = b.namedRules →
      ∀ s, a.shown? s = b.shown? s := fun a b ha hb hrules =>
    shown?_eq_of_forall₂ ha hb (forall₂_alike_of_timeless_eq (congrArg _ hrules))
  refine ⟨fun a b ha hb hrules => ?_, fun a names ha => ?_, fun lexicon after text l hread => ?_,
    fun a b ha hlegible hb => ?_, fun text a b ha hb => ?_⟩
  · exact shown?_eq_of_forall₂ ha hb (forall₂_alike_of_timeless_eq hrules)
  · exact hsame _ _ (ha.internAll names) ha (ha.namedRules_internAll names)
  · obtain ⟨hresolved, b, hb, hrules⟩ := exists_parse_of_readInto hread
    exact ⟨b, hb, hsame _ _ hresolved (resolved_of_parse hb) hrules.symm⟩
  · exact shown?_eq_of_forall₂ ha (resolved_of_parse hb) (alike_of_parse_render hlegible hb)
  · obtain ⟨mentioned, -, hmade, -⟩ := read_of_parse ha
    have hlegible : ∀ r ∈ a.namedRules, r.Legible := fun r hr => (hmade r hr).1.legible
    exact shown?_eq_of_forall₂ (resolved_of_parse ha) (resolved_of_parse hb)
      (alike_of_parse_render hlegible hb)

/-- The automaton of the rule `5/A: 1/1.B`. -/
def timed : Automaton := ⟨.twoNames, [⟨.literal ⟨⟨0⟩, 0, 5⟩, [⟨1, ⟨1⟩, 1⟩]⟩]⟩

/-- The automaton of the rule `A: 1/1.B`, with other handles and a name that no rule has. -/
def renumbered : Automaton :=
  ⟨⟨["C", "B", "A"], by decide⟩, [⟨.literal ⟨⟨2⟩, 0, 0⟩, [⟨1, ⟨1⟩, 1⟩]⟩]⟩

/-- An automaton with a group around one item, and with a rule that places nothing. -/
def loose : Automaton :=
  ⟨.twoNames, [⟨.conjunction [.always, .literal ⟨⟨0⟩, 0, 0⟩], [⟨0, ⟨1⟩, 1⟩]⟩,
    ⟨.literal ⟨⟨1⟩, 0, 0⟩, []⟩]⟩

lemma legible_loose : ∀ r ∈ loose.namedRules, r.Legible := by
  have hname : ∀ name ∈ ["A", "B"], Item.isName name.toList = true := by decide
  have hliteral : ∀ name ∈ ["A", "B"], (Literal.mk name 0 0).Writable := fun name hmem =>
    ⟨by simp [Literal.InRange, Item.IsOffset], hname name hmem⟩
  refine List.forall_mem_cons.2 ⟨?_, List.forall_mem_singleton.2 ?_⟩
  · refine ⟨⟨?_, ?_⟩, Formula.Legible.conjunction ?_⟩
    · exact List.forall_mem_singleton.2 (hliteral "A" (by decide))
    · refine List.forall_mem_singleton.2 ⟨?_, hname "B" (by decide)⟩
      simp [Output.InRange, Output.map, Item.IsOffset, Numeral.stepBound]
    · exact List.forall_mem_cons.2
        ⟨Formula.Legible.always, List.forall_mem_singleton.2 (Formula.Legible.literal _)⟩
  · refine ⟨⟨?_, List.forall_mem_nil _⟩, Formula.Legible.literal _⟩
    exact List.forall_mem_singleton.2 (hliteral "B" (by decide))

/-- What is read of the written form of `loose`, which is `( A): 1/0.B` and `B: `. -/
def tightened : Automaton := ⟨.twoNames, [⟨.literal ⟨⟨0⟩, 0, 0⟩, [⟨0, ⟨1⟩, 1⟩]⟩]⟩

/-- The run that begins with a signal in the first one of three cells. -/
def threeCellRun : Settings := ⟨3, 2, some "A"⟩

/-- Other handles, no times, more names, and the written form: the runs show the same. -/
theorem runs_show_names_only_renumbered :
    (timed.Resolved ∧ renumbered.Resolved ∧
      timed.namedRules.map Rule.timeless = renumbered.namedRules.map Rule.timeless ∧
      timed.shown? threeCellRun = renumbered.shown? threeCellRun) ∧
    (timed.internAll ["C", "D"]).shown? threeCellRun = timed.shown? threeCellRun ∧
    (∃ after, RuleText.readInto renumbered.lexicon "A: 1.B" = (after, .ok ⟨renumbered.rules, 1⟩) ∧
      ∃ b, parse "A: 1.B" = .ok b ∧
        shown? ⟨after, renumbered.rules⟩ threeCellRun = b.shown? threeCellRun) ∧
    ((∀ r ∈ loose.namedRules, r.Legible) ∧ loose.Resolved ∧ parse loose.render = .ok tightened ∧
      loose.shown? threeCellRun = tightened.shown? threeCellRun) ∧
    (parse "5/A: 1.B" = .ok timed ∧ parse timed.render = .ok timed ∧
      timed.shown? threeCellRun = timed.shown? threeCellRun) := by
  have htimed : timed.Resolved := by decide
  have hrenumbered : renumbered.Resolved := by decide
  have hloose : loose.Resolved := by decide
  have hrules : timed.namedRules.map Rule.timeless = renumbered.namedRules.map Rule.timeless := by
    decide
  have hread : RuleText.readInto renumbered.lexicon "A: 1.B" =
      (renumbered.lexicon, .ok ⟨renumbered.rules, 1⟩) := rfl
  have htightened : parse loose.render = .ok tightened := rfl
  have hparse : parse "5/A: 1.B" = .ok timed := rfl
  have hback : parse timed.render = .ok timed := rfl
  obtain ⟨hnames, hinterned, htable, hwritten, hparsed⟩ := runs_show_names_only
  obtain ⟨b, hb, hshown⟩ := htable _ _ _ _ hread
  exact ⟨⟨htimed, hrenumbered, hrules, hnames _ _ htimed hrenumbered hrules threeCellRun⟩,
    hinterned _ _ htimed threeCellRun, ⟨_, hread, b, hb, hshown threeCellRun⟩,
    ⟨legible_loose, hloose, htightened, hwritten _ _ hloose legible_loose htightened threeCellRun⟩,
    hparse, hback, hparsed _ _ _ hparse hback threeCellRun⟩

/-! ## Written forms that say something else -/

/-- How many signals the cells of a diagram hold. -/
def counts (d : Diagram) : List (List Nat) :=
  d.strips.toList.map fun strip => strip.cells.toList.map fun set => set.toList.length

lemma map_length_steps_chart (d : Diagram) (lexicon : Lexicon) :
    (d.chart lexicon).steps.map (·.map List.length) = counts d := by
  simp [Diagram.chart, counts, SignalSet.names, sortNames]

/-- Runs do not show the same if their diagrams do not have as many signals in every cell. -/
lemma shown?_ne_of_run? {a' b' : Automaton} {d e : Diagram} {s : Settings}
    (ha : a.run? s = some (a', .ok d)) (hb : b.run? s = some (b', .ok e))
    (h : counts d ≠ counts e) : a.shown? s ≠ b.shown? s := by
  rw [shown?, shown?, ha, hb]
  intro hsame
  -- Equal charts have as many names in every cell, and so have the diagrams.
  have hchart : d.chart a'.lexicon = e.chart b'.lexicon :=
    (Prod.mk.inj (Except.ok.inj (Option.some.inj hsame))).1
  rw [← map_length_steps_chart d a'.lexicon, hchart, map_length_steps_chart] at h
  exact h rfl

/-- A rule that places a signal everywhere: its condition is a disjunction with `always` in it. -/
def unwritten : Automaton :=
  ⟨(∅ : Lexicon).insert "A", [⟨.disjunction [.always], [⟨0, ⟨0⟩, 0⟩]⟩]⟩

/-- A rule whose condition is a literal under two negations. -/
def signs : Automaton :=
  ⟨.twoNames, [⟨.negation (.negation (.literal ⟨⟨0⟩, 1, 0⟩)), [⟨0, ⟨1⟩, 0⟩]⟩]⟩

/-- A rule about a signal whose name has a blank in it. -/
def blankName : Automaton := ⟨⟨["A B", "C"], by decide⟩, [⟨.literal ⟨⟨0⟩, 0, 0⟩, [⟨0, ⟨1⟩, 0⟩]⟩]⟩

/-- **Some written forms say something else.**  Each of the three automata is read of its written
form as an automaton that shows something else: because of `always` in a disjunction, of a negation
of a negation, and of a signal that is not called by a name. -/
theorem exists_render_shows_otherwise :
    (unwritten.Resolved ∧ ∃ b, parse unwritten.render = .ok b ∧
      unwritten.shown? ⟨1, 1, none⟩ ≠ b.shown? ⟨1, 1, none⟩) ∧
    (signs.Resolved ∧ ∃ b, parse signs.render = .ok b ∧
      signs.shown? ⟨1, 1, none⟩ ≠ b.shown? ⟨1, 1, none⟩) ∧
    (blankName.Resolved ∧ ∃ b, parse blankName.render = .ok b ∧
      blankName.shown? ⟨1, 1, some "A B"⟩ ≠ b.shown? ⟨1, 1, some "A B"⟩) := by
  refine ⟨⟨by decide, ⟨(∅ : Lexicon).insert "A", [⟨.never, [⟨0, ⟨0⟩, 0⟩]⟩]⟩, rfl, ?_⟩,
    ⟨by decide, ⟨.twoNames, [⟨.negation (.literal ⟨⟨0⟩, -1, 0⟩), [⟨0, ⟨1⟩, 0⟩]⟩]⟩, rfl, ?_⟩,
    ⟨by decide, ⟨⟨["A", "B", "C"], by decide⟩,
      [⟨.conjunction [.literal ⟨⟨0⟩, 0, 0⟩, .literal ⟨⟨1⟩, 0, 0⟩], [⟨0, ⟨2⟩, 0⟩]⟩]⟩, rfl, ?_⟩⟩
  · exact shown?_ne_of_run? rfl rfl (by decide)
  · exact shown?_ne_of_run? rfl rfl (by decide)
  · exact shown?_ne_of_run? rfl rfl (by decide)

end Automaton
end StripAutomata
