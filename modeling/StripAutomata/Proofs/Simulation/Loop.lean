import Mathlib.Tactic.Common

/-!
# Loops that may fail

The loops of a run are folds whose steps may refuse.  Six things are said here of such folds.

* It does not fail if no step fails (`foldlM_total`), and an invariant that every step takes on
  holds in the end; the invariant may count the steps (`exists_foldlM`, `exists_foldlM_range`).
* If it does not fail, then what every step brings about between the values before and after it, it
  brings about too, as long as this can be put together from step to step (`foldlM_rel`).
* Where a view of the values is enough for the steps, the fold of the views is the view of the fold
  (`foldlM_view`), whether it fails or not.
* Two folds over lists of the same length have the same outcome, if their steps have it as long as
  an invariant holds (`exists_foldlM_same`).
* A fold over some entries of a list, in their order, and one over all of them stay related, if the
  steps that both do keep the relation, and so do those that only the second one does
  (`exists_foldlM_sublist`).
* A fold in which every step is a fold is one fold (`foldlM_flatMap`).
-/

namespace StripAutomata.Simulation

variable {α β ε : Type}

/-- A loop that may fail does not, if every step takes the invariant on; the invariant counts the
steps. -/
lemma exists_foldlM {l : List α} {f : β → α → Except ε β} {inv : Nat → β → Prop}
    (step : ∀ i x, l[i]? = some x → ∀ b, inv i b → ∃ b', f b x = .ok b' ∧ inv (i + 1) b') {b : β}
    (h : inv 0 b) : ∃ b', l.foldlM f b = .ok b' ∧ inv l.length b' := by
  induction l generalizing inv b with
  | nil => exact ⟨b, rfl, h⟩
  | cons x l ih =>
    obtain ⟨b', hb', hinv⟩ := step 0 x rfl b h
    -- The rest of the loop counts on from one.
    have hrest : ∀ i y, l[i]? = some y → ∀ b, inv (i + 1) b →
        ∃ b', f b y = .ok b' ∧ inv (i + 1 + 1) b' := fun i y hy => step (i + 1) y hy
    obtain ⟨last, hlast, hend⟩ := ih hrest hinv
    refine ⟨last, ?_, hend⟩
    rw [List.foldlM_cons, hb']
    exact hlast

lemma exists_foldlM_range {n : Nat} {f : β → Nat → Except ε β}
    {inv : Nat → β → Prop}
    (step : ∀ i < n, ∀ b, inv i b → ∃ b', f b i = .ok b' ∧ inv (i + 1) b') {b : β} (h : inv 0 b) :
    ∃ b', (List.range n).foldlM f b = .ok b' ∧ inv n b' := by
  have hstep : ∀ i x, (List.range n)[i]? = some x → ∀ b, inv i b →
      ∃ b', f b x = .ok b' ∧ inv (i + 1) b' := by
    intro i x hx
    obtain ⟨hlt, rfl⟩ := List.getElem?_eq_some_iff.1 hx
    rw [List.getElem_range]
    exact step i (by simpa using hlt)
  obtain ⟨b', hb', hinv⟩ := exists_foldlM hstep h
  rw [List.length_range] at hinv
  exact ⟨b', hb', hinv⟩

/-- A loop does not fail, if no step of it does. -/
lemma foldlM_total {l : List α} {f : β → α → Except ε β} (step : ∀ x ∈ l, ∀ b, ∃ b', f b x = .ok b')
    (b : β) : ∃ last, l.foldlM f b = .ok last := by
  induction l generalizing b with
  | nil => exact ⟨b, rfl⟩
  | cons x l ih =>
    obtain ⟨b', hb'⟩ := step x (List.mem_cons_self ..) b
    obtain ⟨last, hlast⟩ := ih (fun y hy => step y (List.mem_cons_of_mem x hy)) b'
    refine ⟨last, ?_⟩
    rw [List.foldlM_cons, hb']
    exact hlast

/-- What every step of a loop brings about, the loop brings about. -/
lemma foldlM_rel {l : List α} {f : β → α → Except ε β} {R : β → β → Prop} (hrefl : ∀ b, R b b)
    (htrans : ∀ {b c d}, R b c → R c d → R b d)
    (step : ∀ x ∈ l, ∀ {b b'}, f b x = .ok b' → R b b') {b last : β}
    (h : l.foldlM f b = .ok last) : R b last := by
  induction l generalizing b with
  | nil =>
    have hsame : b = last := Except.ok.inj h
    rw [hsame]
    exact hrefl last
  | cons x l ih =>
    rw [List.foldlM_cons] at h
    rcases hx : f b x with error | b'
    · rw [hx] at h
      exact absurd h (by simp [bind, Except.bind])
    · rw [hx] at h
      have hfirst : R b b' := step x (List.mem_cons_self ..) hx
      have hrest : R b' last := ih (fun y hy => step y (List.mem_cons_of_mem x hy)) h
      exact htrans hfirst hrest

/-- A loop over views is the view of a loop, if this is so of its steps. -/
lemma foldlM_view {γ : Type} {l : List α} {f : β → α → Except ε β} {g : γ → α → Except ε γ}
    (view : β → γ) (step : ∀ x ∈ l, ∀ b, g (view b) x = (f b x).map view) (b : β) :
    l.foldlM g (view b) = (l.foldlM f b).map view := by
  induction l generalizing b with
  | nil => rfl
  | cons x l ih =>
    rw [List.foldlM_cons, List.foldlM_cons, step x (List.mem_cons_self ..)]
    rcases f b x with error | b'
    · rfl
    · exact ih (fun y hy => step y (List.mem_cons_of_mem x hy)) b'

/-- Two loops that do the same step by step, as long as an invariant holds, do the same. -/
lemma exists_foldlM_same {α' : Type} {l : List α} {l' : List α'} {f : β → α → Except ε β}
    {g : β → α' → Except ε β} {related : α → α' → Prop} {inv : β → Prop}
    (hl : List.Forall₂ related l l')
    (step : ∀ x ∈ l, ∀ y ∈ l', related x y → ∀ b, inv b →
      ∃ b', f b x = .ok b' ∧ g b y = .ok b' ∧ inv b') {b : β} (h : inv b) :
    ∃ last, l.foldlM f b = .ok last ∧ l'.foldlM g b = .ok last ∧ inv last := by
  induction hl generalizing b with
  | nil => exact ⟨b, rfl, rfl, h⟩
  | @cons x y l l' hxy _ ih =>
    obtain ⟨b', hf, hg, hinv⟩ := step x (List.mem_cons_self ..) y (List.mem_cons_self ..) hxy b h
    obtain ⟨last, hlast, hlast', hend⟩ := ih (fun x' hx' y' hy' =>
      step x' (List.mem_cons_of_mem x hx') y' (List.mem_cons_of_mem y hy')) hinv
    refine ⟨last, ?_, ?_, hend⟩
    · rw [List.foldlM_cons, hf]
      exact hlast
    · rw [List.foldlM_cons, hg]
      exact hlast'

lemma exists_foldlM_sublist {γ : Type} {l l' : List α} {f : β → α → Except ε β}
    {g : γ → α → Except ε γ} {R : β → γ → Prop} (h : l.Sublist l')
    (both : ∀ x ∈ l, ∀ b c, R b c → ∃ b' c', f b x = .ok b' ∧ g c x = .ok c' ∧ R b' c')
    (skip : ∀ x ∈ l', ∀ b c, R b c → ∃ c', g c x = .ok c' ∧ R b c') {b : β} {c : γ} (hR : R b c) :
    ∃ b' c', l.foldlM f b = .ok b' ∧ l'.foldlM g c = .ok c' ∧ R b' c' := by
  induction h generalizing b c with
  | slnil => exact ⟨b, c, rfl, rfl, hR⟩
  | @cons l l' x _ ih =>
    -- An entry that only the longer list has.
    obtain ⟨between, hx, hbetween⟩ := skip x (List.mem_cons_self ..) b c hR
    obtain ⟨b', c', hf, hg, hend⟩ :=
      ih both (fun y hy => skip y (List.mem_cons_of_mem x hy)) hbetween
    refine ⟨b', c', hf, ?_, hend⟩
    rw [List.foldlM_cons, hx]
    exact hg
  | @cons_cons l l' x _ ih =>
    -- An entry that both have.
    obtain ⟨first, second, hfirst, hsecond, hbetween⟩ := both x (List.mem_cons_self ..) b c hR
    obtain ⟨b', c', hf, hg, hend⟩ := ih (fun y hy => both y (List.mem_cons_of_mem x hy))
      (fun y hy => skip y (List.mem_cons_of_mem x hy)) hbetween
    refine ⟨b', c', ?_, ?_, hend⟩
    · rw [List.foldlM_cons, hfirst]
      exact hf
    · rw [List.foldlM_cons, hsecond]
      exact hg

lemma foldlM_flatMap {γ : Type} {l : List α} {entries : α → List γ} {f : β → γ → Except ε β}
    (b : β) : (l.flatMap entries).foldlM f b = l.foldlM (fun b x => (entries x).foldlM f b) b := by
  induction l generalizing b with
  | nil => rfl
  | cons x l ih =>
    rw [List.flatMap_cons, List.foldlM_append, List.foldlM_cons]
    exact congrArg _ (funext ih)

end StripAutomata.Simulation
