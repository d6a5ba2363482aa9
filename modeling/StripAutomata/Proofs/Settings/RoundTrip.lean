import StripAutomata.Proofs.Json.RoundTrip
import StripAutomata.Settings.Json

/-!
# Stored settings are read again

Settings with sizes of 64 bits are stored as a text that gives the same settings again
(`ofStored?_prettyText`).  No start signal is stored as `null`, which is not taken for a start
signal that is missing, and any name is stored as a text, blank and empty ones included.

Settings that were read have such sizes (`fits_of_ofStored?`).
-/

namespace StripAutomata

namespace JsonNumber

/-- Rounding at most doubles a number, since one unit of the last digit is not more than all. -/
lemma round53_le {n : Nat} (hn : n ≠ 0) : round53 n ≤ 2 * n := by
  have hunit : Nat.pow 2 (Nat.log2 n - 52) ≤ n :=
    Nat.le_trans (Nat.pow_le_pow_right (by decide : 2 > 0) (Nat.sub_le ..)) (Nat.log2_self_le hn)
  have hdigits := Nat.div_mul_le_self n (Nat.pow 2 (Nat.log2 n - 52))
  unfold round53
  simp only
  split
  · rw [Nat.add_mul]
    omega
  · omega

lemma isFinite_of_lt {n : Nat} (h : n < bound) : (integer false n).isFinite = true := by
  by_cases hn : n = 0
  · rw [hn]
    rfl
  · have hone : round53 (Nat.pow 10 0) = 1 := by decide
    have hround := round53_le hn
    have hroom : 2 * bound < overflow := by decide +kernel
    show (if n = 0 then true else if 0 ≤ 308 then
      decide (round53 n * round53 (Nat.pow 10 0) < overflow) else false) = true
    rw [if_neg hn, if_pos (Nat.zero_le _), hone, decide_eq_true_eq]
    omega

end JsonNumber

namespace Settings

/-- Whether both sizes have at most 64 bits. -/
structure Fits (s : Settings) : Prop where
  cells : s.cells < Numeral.sizeBound
  steps : s.steps < Numeral.sizeBound

lemma fits_default : default.Fits := ⟨by decide, by decide⟩

lemma Fits.isKept {s : Settings} (h : s.Fits) : s.toJson.IsKept := by
  refine ⟨h.cells, h.steps, ?_, trivial⟩
  cases s.start <;> trivial

lemma Fits.isSound {s : Settings} (h : s.Fits) : s.toJson.isSound = true := by
  have hcells := JsonNumber.isFinite_of_lt h.cells
  have hsteps := JsonNumber.isFinite_of_lt h.steps
  cases hstart : s.start <;>
    simp [toJson, Json.ofMembers, Json.ofNat, Json.ofString, Json.isSound, Json.isSoundMembers,
      hstart, hcells, hsteps]

lemma depth_toJson (s : Settings) : s.toJson.depth ≤ storedDepth := by
  cases hstart : s.start <;>
    simp [toJson, Json.ofMembers, Json.ofNat, Json.ofString, Json.depth, Json.depthMembers,
      hstart, storedDepth]

/-- The values of the keys stand in the record, none of them twice. -/
lemma record?_toJson (s : Settings) :
    Json.record? keys s.toJson = some [some (.ofNat s.cells), some (.ofNat s.steps),
      some ((s.start.map Json.ofString).getD .null)] := by
  simp [toJson, Json.ofMembers, Json.record?, keys, Json.member?]

lemma ofJson?_toJson {s : Settings} (h : s.Fits) : ofJson? s.toJson = some s := by
  have hsize {n d : Nat} (hn : n < Numeral.sizeBound) :
      Json.orElse? d Json.size? (some (.ofNat n)) = some n := if_pos hn
  have hstart : Json.orElse? default.start (Json.orNull? Json.text?)
      (some ((s.start.map Json.ofString).getD .null)) = some s.start := by
    cases s.start <;> rfl
  simp only [ofJson?, record?_toJson, Option.bind_eq_bind, Option.bind_some, hsize h.cells,
    hsize h.steps, hstart]
  rfl

/-- **Stored settings are read again.** -/
theorem ofStored?_prettyText {s : Settings} (h : s.Fits) :
    ofStored? s.toJson.prettyText = some s := by
  rw [ofStored?, Json.parse?_prettyText h.isKept, Option.bind_eq_bind, Option.bind_some]
  show (if s.toJson.isSound ∧ s.toJson.depth ≤ storedDepth then ofJson? s.toJson else none) = some s
  rw [if_pos ⟨h.isSound, depth_toJson s⟩, ofJson?_toJson h]

/-- A size that is read has 64 bits, and so has the one that stands for a missing one. -/
lemma orElse?_size?_lt {d n : Nat} (hd : d < Numeral.sizeBound) {v : Option Json}
    (h : Json.orElse? d Json.size? v = some n) : n < Numeral.sizeBound := by
  cases v with
  | none =>
    cases h
    exact hd
  | some v =>
    change Json.nat? Numeral.sizeBound v = some n at h
    unfold Json.nat? at h
    split at h
    next m =>
      split at h
      next hm =>
        cases h
        exact hm
      next => cases h
    next => cases h

lemma fits_of_ofJson? {v : Json} {s : Settings} (h : ofJson? v = some s) : s.Fits := by
  unfold ofJson? at h
  simp only [Option.bind_eq_bind, Option.bind_eq_some_iff] at h
  obtain ⟨values, -, hvalues⟩ := h
  split at hvalues
  next cells steps start =>
    simp only [Option.bind_eq_some_iff] at hvalues
    obtain ⟨c, hc, t, ht, i, hi, hs⟩ := hvalues
    cases hs
    exact ⟨orElse?_size?_lt (by decide) hc, orElse?_size?_lt (by decide) ht⟩
  next => cases hvalues

/-- Settings that were read have sizes of 64 bits. -/
lemma fits_of_ofStored? {text : String} {s : Settings} (h : ofStored? text = some s) : s.Fits := by
  unfold ofStored? at h
  simp only [Option.bind_eq_bind, Option.bind_eq_some_iff] at h
  obtain ⟨v, -, hv⟩ := h
  split at hv
  next members =>
    split at hv
    · exact fits_of_ofJson? hv
    · cases hv
  next => cases hv

end Settings
end StripAutomata
