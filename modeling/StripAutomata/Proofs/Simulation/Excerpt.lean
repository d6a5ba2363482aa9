import StripAutomata.Proofs.Simulation.Run

/-!
# Excerpts of a run

The strips of some time steps in a row are an excerpt of the strips of a run.  A visit changes an
excerpt as it changes the strips themselves, if time is counted from the first strip of the excerpt
and the strip that the rule looks at is in it (`tryRule_extract`); what lands beside the excerpt is
lost.  So the loop over time steps can be run on an excerpt alone (`foldlM_scanStep_extract`).

What the visits of a run bring about between the strips before and after them, the loop over time
steps brings about as well, if it can be put together from visit to visit (`foldlM_scanStep_rel`).
A strip in which nothing lands stays as it is (`getElem?_foldlM_scanStep`).
-/

namespace StripAutomata.Simulation

variable {strips after : Array Strip} {reach : Reach} {rules : List (Rule Signal)}
  {rule : Rule Signal} {start stop time cell t width steps : Nat} {times : List Nat}

/-! ## Visits and excerpts -/

lemma getElem?_extract (strips : Array Strip) (start stop t : Nat) :
    (strips.extract start stop)[t]? = if start + t < stop then strips[start + t]? else none := by
  rw [Array.getElem?_extract]
  by_cases hstop : start + t < stop
  · -- Behind the last strip there is none in either.
    by_cases hsize : start + t < strips.size
    · rw [if_pos (by omega), if_pos hstop]
    · rw [if_neg (by omega), if_pos hstop, Array.getElem?_eq_none (not_lt.1 hsize)]
  · rw [if_neg (by omega), if_neg hstop]

lemma place_extract (strips : Array Strip) (start stop time : Nat) (cell : Int) (s : Signal) :
    place (strips.extract start stop) time cell s =
      (place strips (start + time) cell s).extract start stop := by
  cases cell with
  | negSucc index => rfl
  | ofNat index =>
    refine Array.ext_getElem? fun t => ?_
    simp only [place, getElem?_extract, Array.getElem?_modify, Nat.add_left_cancel_iff]
    by_cases hstop : start + t < stop
    · simp only [if_pos hstop]
    · simp only [if_neg hstop, Option.map_none, ite_self]

lemma placeAll_extract (strips : Array Strip) (start stop time cell : Nat)
    (outputs : List (Output Signal)) :
    placeAll time cell (strips.extract start stop) outputs =
      (placeAll (start + time) cell strips outputs).extract start stop := by
  induction outputs generalizing strips with
  | nil => rfl
  | cons o outputs ih =>
    have hrest := ih (place strips (start + (time + o.step)) (cell + o.offset) o.signal)
    rw [← place_extract, ← Nat.add_assoc] at hrest
    exact hrest

lemma tryRule_extract (reach : Reach) (htime : start + time < stop) (cell : Nat)
    (strips : Array Strip) (rule : Rule Signal) :
    tryRule reach time cell (strips.extract start stop) rule =
      (tryRule reach (start + time) cell strips rule).map (·.extract start stop) := by
  -- Only the strip of the time step is looked at.
  have hfires : fires reach (strips.extract start stop) time cell rule =
      fires reach strips (start + time) cell rule := by
    rw [fires, fires, getElem?_extract, if_pos htime]
  rw [tryRule_eq, tryRule_eq, hfires]
  rcases fires reach strips (start + time) cell rule with error | b
  · rfl
  · refine congrArg Except.ok ?_
    by_cases hb : b = true
    · simp only [if_pos hb, placeAll_extract]
    · simp only [if_neg hb]

/-- **Other strips do not matter** for what a loop over time steps does to an excerpt that has the
strips of these time steps. -/
theorem foldlM_scanStep_extract (reach : Reach) (rules : List (Rule Signal)) (width : Nat)
    (start stop count : Nat) (hstop : start + count ≤ stop) (strips : Array Strip) :
    (List.range count).foldlM (scanStep reach rules width) (strips.extract start stop) =
      (((List.range count).map (start + ·)).foldlM (scanStep reach rules width) strips).map
        (·.extract start stop) := by
  rw [List.foldlM_map]
  -- The excerpt is a view of the strips in each of the three loops.
  refine foldlM_view (·.extract start stop) (fun time htime strips => ?_) strips
  have hlt : start + time < stop :=
    (Nat.add_lt_add_left (List.mem_range.1 htime) start).trans_le hstop
  refine foldlM_view (·.extract start stop) (fun cell _ strips => ?_) strips
  exact foldlM_view (·.extract start stop)
    (fun rule _ strips => tryRule_extract reach hlt cell strips rule) strips

/-! ## From visits to runs -/

/-- A rule that is tried places all its outputs or none. -/
lemma tryRule_cases (h : tryRule reach time cell strips rule = .ok after) :
    after = placeAll time cell strips rule.outputs ∨ after = strips := by
  rw [tryRule_eq] at h
  rcases hfires : fires reach strips time cell rule with error | b
  · rw [hfires] at h
    exact absurd h (by simp [Except.map])
  · rw [hfires] at h
    cases b with
    | true => exact Or.inl (Except.ok.inj h).symm
    | false => exact Or.inr (Except.ok.inj h).symm

/-- What placing the outputs of a rule brings about, the loop over time steps brings about. -/
theorem foldlM_scanStep_rel {R : Array Strip → Array Strip → Prop}
    (hrefl : ∀ strips, R strips strips)
    (htrans : ∀ {first second third}, R first second → R second third → R first third)
    (hplace : ∀ time ∈ times, ∀ rule ∈ rules, ∀ cell strips,
      R strips (placeAll time cell strips rule.outputs))
    (h : times.foldlM (scanStep reach rules width) strips = .ok after) : R strips after := by
  refine foldlM_rel hrefl htrans (fun time htime before after hstep => ?_) h
  refine foldlM_rel hrefl htrans (fun cell _ before after hcell => ?_) hstep
  refine foldlM_rel hrefl htrans (fun rule hrule before after htry => ?_) hcell
  rcases tryRule_cases htry with rfl | rfl
  · exact hplace time htime rule hrule cell before
  · exact hrefl _

lemma HasShape.foldlM_scanStep (hshape : HasShape strips steps width)
    (h : times.foldlM (scanStep reach rules width) strips = .ok after) :
    HasShape after steps width :=
  foldlM_scanStep_rel (R := fun before after => HasShape before steps width →
      HasShape after steps width) (fun _ => id) (fun hfirst hsecond => hsecond ∘ hfirst)
    (fun _ _ _ _ cell _ hbefore => hbefore.placeAll _ cell _) h hshape

/-! ## Strips in which nothing lands -/

lemma getElem?_place_of_ne (h : time ≠ t) (target : Int) (s : Signal) :
    (place strips time target s)[t]? = strips[t]? := by
  cases target with
  | negSucc index => rfl
  | ofNat index => rw [place, Array.getElem?_modify, if_neg h]

lemma getElem?_placeAll {outputs : List (Output Signal)} (h : ∀ o ∈ outputs, time + o.step ≠ t)
    (cell : Nat) (strips : Array Strip) :
    (placeAll time cell strips outputs)[t]? = strips[t]? := by
  induction outputs generalizing strips with
  | nil => rfl
  | cons o outputs ih =>
    obtain ⟨hfirst, hrest⟩ := List.forall_mem_cons.1 h
    rw [placeAll, List.foldl_cons, ← placeAll, ih hrest, getElem?_place_of_ne hfirst]

/-- A strip in which no output of the time steps lands stays as it is. -/
lemma getElem?_foldlM_scanStep
    (hnone : ∀ time ∈ times, ∀ rule ∈ rules, ∀ o ∈ rule.outputs, time + o.step ≠ t)
    (h : times.foldlM (scanStep reach rules width) strips = .ok after) : after[t]? = strips[t]? :=
  foldlM_scanStep_rel (R := fun before after => after[t]? = before[t]?) (fun _ => rfl)
    (fun hfirst hsecond => hsecond.trans hfirst)
    (fun time htime rule hrule cell strips =>
      getElem?_placeAll (hnone time htime rule hrule) cell strips) h

end StripAutomata.Simulation
