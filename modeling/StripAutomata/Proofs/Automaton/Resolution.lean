import StripAutomata.Proofs.Automaton.Calls
import StripAutomata.Proofs.Automaton.Shown
import StripAutomata.Proofs.Chart.Names
import StripAutomata.Proofs.Simulation.Horizon
import StripAutomata.Proofs.Simulation.Snapshot

/-!
# Every signal has a name

The question mark of a lexicon stands for a signal without a name.  It is never needed for what an
automaton that was read has to show.  Reading puts no signal into a rule but the handle of a name
that it interned; a lexicon never gives a name away; and a run places the signals of outputs only,
so that a cell holds nothing but what the initial strip held there and what some output places
(`seed_or_output_of_mem_signalsAt`).

`signals_stay_resolved` follows all three over any calls.  That no question mark is shown is said
without looking for one, which may be a name too: rules and diagrams are written in the same way
whatever signals without a name are called.
-/

namespace StripAutomata

/-! ## What cells come to hold -/

namespace Simulation

variable {strips after : Array Strip} {t cell width : Nat} {x : Signal}

/-- Where a signal is placed, a cell comes to hold nothing else. -/
lemma hold_or_eq_of_hold_place {time : Nat} {target : Int} {s : Signal}
    (h : Hold (place strips time target s) t cell x) : Hold strips t cell x ∨ s = x := by
  cases target with
  | negSucc index => exact Or.inl h
  | ofNat index =>
    unfold Hold Simulation.place at *
    rw [Array.getElem?_modify] at h
    by_cases htime : time = t
    · rw [if_pos htime] at h
      -- Only the strip of that time has changed, if there is one.
      rcases hstrip : strips[t]? with _ | strip
      · rw [hstrip] at h
        exact Or.inl h
      · rw [hstrip, Option.map_some, Option.getD_some] at h
        have hlt : cell < strip.size := by
          rw [← strip.size_place index s]
          exact Strip.lt_size_of_mem h
        rcases (Strip.mem_cellOrEmpty_place hlt).1 h with h | ⟨-, h⟩
        · exact Or.inl h
        · exact Or.inr h
    · rw [if_neg htime] at h
      exact Or.inl h

lemma hold_or_output_of_hold_placeAll {time c : Nat} {outputs : List (Output Signal)}
    (h : Hold (placeAll time c strips outputs) t cell x) :
    Hold strips t cell x ∨ ∃ o ∈ outputs, o.signal = x := by
  induction outputs generalizing strips with
  | nil => exact Or.inl h
  | cons o outputs ih =>
    rcases ih h with h | ⟨o', ho', hx⟩
    · rcases hold_or_eq_of_hold_place h with h | hx
      · exact Or.inl h
      · exact Or.inr ⟨o, List.mem_cons_self .., hx⟩
    · exact Or.inr ⟨o', List.mem_cons_of_mem _ ho', hx⟩

/-- Time steps bring nothing into a cell but signals of outputs. -/
lemma hold_or_output_of_hold_foldlM {reach : Reach} {rules : List (Rule Signal)} {times : List Nat}
    (h : times.foldlM (scanStep reach rules width) strips = .ok after) (hx : Hold after t cell x) :
    Hold strips t cell x ∨ ∃ r ∈ rules, ∃ o ∈ r.outputs, o.signal = x := by
  -- The relation is reflexive and transitive, so it is enough that a rule which fires in one cell
  -- respects it.
  refine foldlM_scanStep_rel (R := fun before after => Hold after t cell x →
      Hold before t cell x ∨ ∃ r ∈ rules, ∃ o ∈ r.outputs, o.signal = x)
    (fun _ => Or.inl) (fun hfirst hsecond hx => ?_) (fun _ _ rule hrule _ _ hx => ?_) h hx
  · rcases hsecond hx with hx | houtput
    · exact hfirst hx
    · exact Or.inr houtput
  · rcases hold_or_output_of_hold_placeAll hx with hx | ⟨o, ho, hx⟩
    · exact Or.inl hx
    · exact Or.inr ⟨rule, hrule, o, ho, hx⟩

end Simulation

namespace Automaton

variable {a b c : Automaton} {d : Diagram} {initial : Strip} {steps time cell : Nat} {x : Signal}

/-- What a diagram has in a cell was in the initial strip or is the signal of an output. -/
lemma seed_or_output_of_mem_signalsAt (h : a.simulate initial steps = .ok d)
    (hx : x ∈ d.signalsAt time cell) :
    (time = 0 ∧ x ∈ initial.cellOrEmpty cell) ∨ ∃ r ∈ a.rules, ∃ o ∈ r.outputs, o.signal = x := by
  have hhold := Simulation.hold_or_output_of_hold_foldlM (foldlM_of_simulate h)
    (Simulation.mem_signalsAt_iff_hold.1 hx)
  rwa [Simulation.hold_initialStrips] at hhold

/-! ## Signals that calls bring in -/

namespace Call

/-- Whether a call brings signals with it that the automaton knows. -/
def Admissible (a : Automaton) : Call → Prop
  | simulate initial _ => ∀ cell, ∀ x ∈ initial.cellOrEmpty cell, a.lexicon.Knows x
  | _ => True

/-- Whether a call begins its diagram with a signal in a cell, where the lexicon is the one that the
call leaves. -/
def Seeds (lexicon : Lexicon) : Call → Nat → Signal → Prop
  | intern _, _, _ => False
  | run s, cell, x => cell = 0 ∧ ∃ name, s.start = some name ∧ lexicon.signal? name = some x
  | simulate initial _, cell, x => x ∈ initial.cellOrEmpty cell

/-- The diagram that a call returns is simulated from a strip that the call begins with. -/
lemma exists_simulate_eq {call : Call} (hleaves : call.leaves? a = some b)
    (hdiagram : call.diagram? a = some d) :
    ∃ initial steps, a.simulate initial steps = .ok d ∧
      ∀ cell, ∀ x ∈ initial.cellOrEmpty cell, call.Seeds b.lexicon cell x := by
  cases call with
  | intern name => cases hdiagram
  | run s =>
    obtain ⟨⟨c, outcome⟩, hrun, hreturned⟩ := Option.bind_eq_some_iff.1 hdiagram
    obtain rfl : c = b := by
      rw [leaves?, hrun] at hleaves
      exact Option.some.inj hleaves
    obtain rfl : outcome = .ok d := by
      rcases outcome with e | d'
      · cases hreturned
      · exact congrArg _ (Option.some.inj hreturned)
    -- A run simulates from the strip that it has prepared.
    obtain ⟨hvalid, -, -, initial, hprepare, hd⟩ := exists_of_run?_eq_ok hrun
    have hcells := cells_pos_of_validate (Settings.validate_eq_ok_iff.2 hvalid)
    exact ⟨initial, s.steps, hd, fun cell x hx => (mem_initial_iff hprepare hcells cell x).1 hx⟩
  | simulate initial steps =>
    refine ⟨initial, steps, ?_, fun cell x hx => hx⟩
    rw [diagram?, simulate?] at hdiagram
    split at hdiagram
    · rcases hsimulate : a.simulate initial steps with e | d'
      · rw [hsimulate] at hdiagram
        cases hdiagram
      · rw [hsimulate] at hdiagram
        exact congrArg _ (Option.some.inj hdiagram)
    · cases hdiagram

lemma Seeds.knows {call : Call} (hcall : call.Admissible a) (hleaves : call.leaves? a = some b)
    (hx : call.Seeds b.lexicon cell x) : b.lexicon.Knows x := by
  cases call with
  | intern name => exact hx.elim
  | run s =>
    obtain ⟨-, name, -, hname⟩ := hx
    exact Lexicon.knows_of_name? (Lexicon.signal?_eq_some_iff.1 hname)
  | simulate initial steps =>
    obtain ⟨-, -, rfl⟩ := Option.map_eq_some_iff.1 hleaves
    exact hcall cell x hx

end Call

/-! ## Signals that have names -/

lemma knows_internAll (h : a.lexicon.Knows x) (names : List String) :
    (a.internAll names).lexicon.Knows x := by
  rw [internAll_eq]
  exact h.insertAll names

lemma name?_of_afterAll? {calls : List Call} (h : a.afterAll? calls = some b) {name : String}
    (hname : a.lexicon.name? x = some name) : b.lexicon.name? x = some name := by
  obtain ⟨names, rfl⟩ := exists_afterAll?_eq h
  rw [internAll_eq]
  exact Lexicon.name?_insertAll hname names

lemma Resolved.knows_of_mem_rules_signals (h : a.Resolved) (hx : x ∈ a.signals) :
    a.lexicon.Knows x := by
  obtain ⟨r, hr, hsignal⟩ := List.mem_flatMap.1 (SignalSet.mem_ofList.1 hx)
  exact h r hr x hsignal

/-- What a call returns in its diagram has names after the call. -/
lemma Resolved.knows_of_diagram? (h : a.Resolved) {request : Call} (hrequest : request.Admissible a)
    (hleaves : request.leaves? a = some b) (hdiagram : request.diagram? a = some d)
    (hx : x ∈ d.signalsAt time cell) : b.lexicon.Knows x := by
  obtain ⟨initial, steps, hd, hseeds⟩ := Call.exists_simulate_eq hleaves hdiagram
  rcases seed_or_output_of_mem_signalsAt hd hx with ⟨-, hx⟩ | ⟨r, hr, o, ho, rfl⟩
  · exact (hseeds cell x hx).knows hrequest hleaves
  · obtain ⟨names, rfl⟩ := Call.exists_leaves?_eq hleaves
    exact knows_internAll (h.signal_of_mem_outputs hr o ho) names

end Automaton

/-! ## What is shown of signals that have names -/

/-- Whether a naming calls the signals that have names by their names. -/
def Lexicon.AgreesWith (lexicon : Lexicon) (naming : Signal → String) : Prop :=
  ∀ x name, lexicon.name? x = some name → naming x = name

section Naming

variable {lexicon : Lexicon} {naming : Signal → String}

lemma Lexicon.AgreesWith.nameOf_eq (h : lexicon.AgreesWith naming) {x : Signal}
    (hx : lexicon.Knows x) : lexicon.nameOf x = naming x :=
  (h x _ (Lexicon.name?_eq_some hx)).symm

lemma Automaton.Resolved.render_eq {a : Automaton} (ha : a.Resolved)
    (h : a.lexicon.AgreesWith naming) :
    a.render = "\n".intercalate (a.rules.map fun r => (r.map naming).render) := by
  rw [Automaton.render, Automaton.namedRules, List.map_map]
  refine congrArg _ (List.map_congr_left fun r hr => congrArg Rule.render ?_)
  exact Rule.map_congr fun x hx => h.nameOf_eq (ha r hr x hx)

lemma Diagram.chart_eq_of_knows {d : Diagram}
    (hd : ∀ time cell, ∀ x ∈ d.signalsAt time cell, lexicon.Knows x)
    (h : lexicon.AgreesWith naming) : d.chart lexicon = d.chartBy naming := by
  rw [chart_eq_chartBy]
  exact chartBy_congr fun time cell x hx => h.nameOf_eq (hd time cell x hx)

end Naming

namespace Automaton

/-- **Every signal of an automaton that was read has a name, and keeps it.**  After any calls, the
signals of the rules have names, and the rules are written the same however signals without names
are called.  A name stays with its signal whatever is called later.  In a diagram that a call then
returns, a cell holds what the call began with there and signals of outputs, and nothing else.  So
if the call brings no signals without names with it, all that the diagram holds has names, and
whenever it is shown later, it is shown the same however signals without names are called. -/
theorem signals_stay_resolved {text : String} {a b : Automaton} {calls : List Call}
    (hparse : parse text = .ok a) (hcalls : a.afterAll? calls = some b) :
    (∀ r ∈ b.rules, ∀ x ∈ r.signals, b.lexicon.Knows x) ∧
    (∀ x ∈ b.signals, b.lexicon.Knows x) ∧
    (∀ naming, b.lexicon.AgreesWith naming →
      b.render = "\n".intercalate (b.rules.map fun r => (r.map naming).render)) ∧
    (∀ more c, b.afterAll? more = some c → ∀ x name, b.lexicon.name? x = some name →
      c.lexicon.name? x = some name) ∧
    ∀ (request : Call) c d, request.leaves? b = some c → request.diagram? b = some d →
      (∀ time cell, ∀ x ∈ d.signalsAt time cell,
        (time = 0 ∧ request.Seeds c.lexicon cell x) ∨
          ∃ r ∈ b.rules, ∃ o ∈ r.outputs, o.signal = x) ∧
      (request.Admissible b →
        (∀ time cell, ∀ x ∈ d.signalsAt time cell, c.lexicon.Knows x) ∧
        ∀ more e, c.afterAll? more = some e → ∀ naming, e.lexicon.AgreesWith naming →
          d.chart e.lexicon = d.chartBy naming) := by
  obtain ⟨names, rfl⟩ := exists_afterAll?_eq hcalls
  have hresolved := (resolved_of_parse hparse).internAll names
  refine ⟨hresolved, fun x => hresolved.knows_of_mem_rules_signals,
    fun naming hnaming => hresolved.render_eq hnaming,
    fun more c hmore x name => name?_of_afterAll? hmore,
    fun request c d hleaves hdiagram => ⟨fun time cell x hx => ?_, fun hrequest => ?_⟩⟩
  · obtain ⟨initial, steps, hd, hseeds⟩ := Call.exists_simulate_eq hleaves hdiagram
    exact (seed_or_output_of_mem_signalsAt hd hx).imp_left
      (And.imp_right fun hx => hseeds cell x hx)
  · have hknown : ∀ time cell, ∀ x ∈ d.signalsAt time cell, c.lexicon.Knows x :=
      fun time cell x => hresolved.knows_of_diagram? hrequest hleaves hdiagram
    refine ⟨hknown, fun more e hmore naming hnaming => ?_⟩
    -- The names that have come in meanwhile leave the ones that the diagram needs alone.
    obtain ⟨others, rfl⟩ := exists_afterAll?_eq hmore
    exact Diagram.chart_eq_of_knows (fun time cell x hx => knows_internAll (hknown time cell x hx) _)
      hnaming

/-- Two steps from a strip, asked for after two names came in that no rule mentions. -/
theorem signals_stay_resolved_moving :
    let calls : List Call := [.intern "C", .run ⟨2, 1, some "D"⟩]
    let request : Call := .simulate threeCells 2
    parse "A: 0/0.B 1/1.A" = .ok moving ∧ ∃ b d, moving.afterAll? calls = some b ∧
      b.lexicon.names = ["A", "B", "C", "D"] ∧ request.Admissible b ∧
      request.leaves? b = some b ∧ request.diagram? b = some d ∧
      (∀ time cell, ∀ x ∈ d.signalsAt time cell, b.lexicon.Knows x) ∧
      ∀ naming, b.lexicon.AgreesWith naming → d.chart b.lexicon = d.chartBy naming := by
  intro calls request
  have hparse : parse "A: 0/0.B 1/1.A" = .ok moving := by rfl
  let b : Automaton := ⟨⟨["A", "B", "C", "D"], by decide⟩, moving.rules⟩
  have hcalls : moving.afterAll? calls = some b := by rfl
  have hrequest : request.Admissible b := by
    intro cell x hx
    obtain ⟨-, rfl⟩ := (mem_place_zero (by decide)).1 hx
    exact (by decide : 0 < 4)
  obtain ⟨d, hd⟩ := exists_simulate_ok b threeCells 2
  have hdiagram : request.diagram? b = some d := by
    show ((b.simulate? threeCells 2).bind (·.toOption)) = some d
    rw [simulate?, if_pos (by decide), hd]
    rfl
  have hleaves : request.leaves? b = some b := rfl
  have hreturned := (signals_stay_resolved hparse hcalls).2.2.2.2 request b d hleaves hdiagram
  obtain ⟨hknown, hshown⟩ := hreturned.2 hrequest
  exact ⟨hparse, b, d, hcalls, rfl, hrequest, hleaves, hdiagram, hknown, hshown [] b rfl⟩

end Automaton
end StripAutomata
