import Mathlib.Data.List.Nodup
import Mathlib.Data.List.TakeWhile
import StripAutomata.Proofs.Command.Arguments

/-!
# What the arguments of a run say

The arguments of a run say some things about it (`RunItem`): where its rules are, how many cells and
steps it has, which start signal, and so on.  Each thing has its own switch, and the rules are an
operand.  Here it is spelled out which arguments say what (`RunLine`), without reading them: before
the name `run` they say at most how loud it is to be, and behind it, things that fit together
(`RunItem.FitTogether`).

The arguments that are read as the request of a run are these, and what is read is what they say
(`Request.read_eq_run_iff`).  The reading goes through a list of all that is given; that this list
is one of things said (`RunItem.exists_map_given_eq`) holds since a run knows no other switches.
-/

namespace StripAutomata.Command

/-- The size that a text is, if it is one. -/
def sizeOf? (text : String) : Option Nat :=
  (Numeral.unsigned Numeral.sizeBound text.toList).toOption

/-! ## Things said -/

/-- What the arguments of a run can say, with the text by which they say it. -/
inductive RunItem where
  | rules (path : String)
  | cells (text : String)
  | steps (text : String)
  | start (name : String)
  | noStart
  | format (name : String)
  | output (path : String)
  | verbose
  | quiet
  deriving DecidableEq, Repr

namespace RunItem

/-- The switch that says something, if it is not said by an operand. -/
def switch? : RunItem → Option Switch
  | rules _ => none
  | cells _ => some ⟨"cells", some 'c', some .size⟩
  | steps _ => some ⟨"steps", some 's', some .size⟩
  | start _ => some ⟨"start", none, some .text⟩
  | noStart => some ⟨"no-start", none, none⟩
  | format _ => some ⟨"format", some 'f', some .text⟩
  | output _ => some ⟨"output", some 'o', some .path⟩
  | verbose => some ⟨"verbose", some 'v', none⟩
  | quiet => some ⟨"quiet", some 'q', none⟩

/-- The text by which something is said. -/
def text? : RunItem → Option String
  | rules text | cells text | steps text | start text | format text | output text => some text
  | noStart | verbose | quiet => none

/-- What is given to say something. -/
def given (i : RunItem) : Given :=
  match i.switch? with
  | some s => .switch s i.text?
  | none => .operand (i.text?.getD "")

/-- The switches about how much is said on the way. -/
def loudness : List Switch := [verbose, quiet].filterMap switch?

/-- The switches of a run. -/
def switches : List Switch :=
  loudness ++ [cells "", steps "", start "", noStart, format "", output ""].filterMap switch?

/-- Whether the text of something said is of the kind that it must be: a size or a path. -/
def IsGood : RunItem → Prop
  | cells text | steps text => ∃ n, sizeOf? text = some n
  | rules path | output path => path ≠ ""
  | _ => True

def rules? : RunItem → Option String
  | rules path => some path
  | _ => none

def cells? : RunItem → Option String
  | cells text => some text
  | _ => none

def steps? : RunItem → Option String
  | steps text => some text
  | _ => none

def start? : RunItem → Option String
  | start name => some name
  | _ => none

def format? : RunItem → Option String
  | format name => some name
  | _ => none

def output? : RunItem → Option String
  | output path => some path
  | _ => none

end RunItem

open RunItem in
/-- Whether things can be said to one run: there is one file of rules, no switch is given twice, and
there are not both a start signal and the wish for none. -/
structure RunItem.FitTogether (items : List RunItem) : Prop where
  rules : ∃ path, items.filterMap rules? = [path]
  once : (items.filterMap switch?).Nodup
  good : ∀ i ∈ items, i.IsGood
  start : ∀ name, .start name ∈ items → .noStart ∉ items

/-- How things that fit together are said to a run by arguments.  The first argument that does not
look like a switch is the name of the command. -/
inductive RunLine : List String → List RunItem → Prop
  | spelled {before rest : List String} {loud items : List RunItem}
    (hbefore : ∀ argument ∈ before, Switch.looksLike argument = true ∧ argument ≠ "--")
    (hspells : Switch.Spells RunItem.loudness .free (loud.map RunItem.given) before)
    (hloud : ∀ i ∈ loud, i = .verbose ∨ i = .quiet) (honce : loud.Nodup)
    (hitems : Switch.Spells RunItem.switches .free (items.map RunItem.given) rest)
    (hfit : RunItem.FitTogether items) : RunLine (before ++ "run" :: rest) items

/-- The request of a run whose arguments say some things. -/
def RunRequest.ofItems (items : List RunItem) : RunRequest where
  rules := (items.findSome? RunItem.rules?).getD ""
  cells := (items.findSome? RunItem.cells?).bind sizeOf?
  steps := (items.findSome? RunItem.steps?).bind sizeOf?
  start := if .noStart ∈ items then some none else (items.findSome? RunItem.start?).map some
  format := (items.findSome? RunItem.format?).getD "text"
  output := items.findSome? RunItem.output?

/-! ## Things said and what is given -/

namespace RunItem

variable {items : List RunItem}

/-- A switch of a run, with a value if it takes one, says something. -/
lemma exists_given_eq {g : Given} (h : Switch.IsAmong switches g) :
    ∃ i : RunItem, i.given = g := by
  cases g with
  | operand text => exact ⟨rules text, rfl⟩
  | switch s value =>
    obtain ⟨hs, hvalue⟩ := h
    obtain ⟨i, hi⟩ : ∃ i : RunItem, i.switch? = some s := by
      obtain ⟨i, -, hi⟩ | ⟨i, -, hi⟩ :=
        (List.mem_append.1 hs).imp List.mem_filterMap.1 List.mem_filterMap.1
      · exact ⟨i, hi⟩
      · exact ⟨i, hi⟩
    -- A value is there exactly where the switch takes one.
    cases i <;> cases hi <;> cases value <;> cases hvalue
    exacts [⟨cells _, rfl⟩, ⟨steps _, rfl⟩, ⟨start _, rfl⟩, ⟨noStart, rfl⟩, ⟨format _, rfl⟩,
      ⟨output _, rfl⟩, ⟨verbose, rfl⟩, ⟨quiet, rfl⟩]

lemma exists_map_given_eq {given : List Given} (h : ∀ g ∈ given, Switch.IsAmong switches g) :
    ∃ items : List RunItem, items.map RunItem.given = given := by
  induction given with
  | nil => exact ⟨[], rfl⟩
  | cons g given ih =>
    obtain ⟨hg, hgiven⟩ := List.forall_mem_cons.1 h
    obtain ⟨i, rfl⟩ := exists_given_eq hg
    obtain ⟨items, rfl⟩ := ih hgiven
    exact ⟨i :: items, rfl⟩

lemma operands_map : Given.operands (items.map given) = items.filterMap rules? := by
  rw [Given.operands, List.filterMap_map]
  congr 1
  funext i
  cases i <;> rfl

lemma value?_map {long : String} {part? : RunItem → Option String}
    (hpart : ∀ i : RunItem, Given.value? [i.given] long = part? i) :
    Given.value? (items.map given) long = items.findSome? part? := by
  rw [Given.value?, List.findSome?_map]
  congr 1
  funext i
  rw [← hpart i, Given.value?, List.findSome?_singleton]
  rfl

lemma has_noStart : Given.has (items.map given) "no-start" = decide (noStart ∈ items) := by
  rw [Given.has, List.any_map, ← List.contains_eq_mem, List.contains_eq_any_beq]
  congr 1
  funext i
  cases i <;> rfl

lemma filterMap_long? :
    (items.map given).filterMap Given.long? = (items.filterMap switch?).map (·.long) := by
  rw [List.filterMap_map, List.map_filterMap]
  congr 1
  funext i
  cases i <;> rfl

lemma mem_switches {i : RunItem} {s : Switch} (h : i.switch? = some s) : s ∈ switches := by
  cases i <;> cases h <;> decide

/-- Switches are given once if their names are. -/
lemma nodup_long_iff :
    ((items.map given).filterMap Given.long?).Nodup ↔ (items.filterMap switch?).Nodup := by
  have hlong : ∀ s ∈ switches, ∀ t ∈ switches, s.long = t.long → s = t := by decide
  rw [filterMap_long?]
  refine ⟨List.Nodup.of_map _, List.Nodup.map_on fun s hs t ht => ?_⟩
  obtain ⟨i, -, hi⟩ := List.mem_filterMap.1 hs
  obtain ⟨j, -, hj⟩ := List.mem_filterMap.1 ht
  exact hlong s (mem_switches hi) t (mem_switches hj)

lemma exists_sizeOf?_iff {text : String} :
    (∃ n, sizeOf? text = some n) ↔ Kind.size.accepts text = true := by
  dsimp only [sizeOf?, Kind.accepts]
  cases Numeral.unsigned Numeral.sizeBound text.toList <;>
    simp [Except.toOption, Except.isOk, Except.toBool]

lemma hasGoodValue_iff (i : RunItem) (h : i.rules? = none) :
    i.given.hasGoodValue = true ↔ i.IsGood := by
  cases i with
  | rules path => cases h
  | cells text => exact exists_sizeOf?_iff.symm
  | steps text => exact exists_sizeOf?_iff.symm
  | output path => exact bne_iff_ne
  | _ => exact ⟨fun _ => trivial, fun _ => rfl⟩

lemma startOf_map : Request.startOf (items.map given) =
    if noStart ∈ items then
      if (items.findSome? start?).isSome then .error .usage else .ok (some none)
    else .ok ((items.findSome? start?).map some) := by
  have hstart : Given.value? (items.map given) "start" = items.findSome? start? :=
    value?_map fun i => by cases i <;> rfl
  rw [Request.startOf, hstart, has_noStart]
  by_cases hnone : noStart ∈ items <;> cases items.findSome? start? <;> simp [hnone]

/-- What a run allows is what is said once and well. -/
lemma allows_iff {path : String} (hrules : items.filterMap rules? = [path]) :
    Request.runSignature.allows (items.map given) = true ↔
      (items.filterMap switch?).Nodup ∧ ∀ i ∈ items, i.IsGood := by
  have hgood : ((items.map given).all (·.hasGoodValue) = true ∧ path ≠ "") ↔
      ∀ i ∈ items, i.IsGood := by
    rw [List.all_map, List.all_eq_true]
    constructor
    · rintro ⟨hvalues, hpath⟩ i hi
      cases hi' : i.rules? with
      | none => exact (hasGoodValue_iff i hi').1 (hvalues i hi)
      | some p =>
        obtain rfl : p = path := by
          have hmem : p ∈ items.filterMap rules? := List.mem_filterMap.2 ⟨i, hi, hi'⟩
          simpa [hrules] using hmem
        cases i <;> cases hi'
        exact hpath
    · intro h
      refine ⟨fun i hi => ?_, ?_⟩
      · cases hi' : i.rules? with
        | none => exact (hasGoodValue_iff i hi').2 (h i hi)
        | some p => cases i <;> cases hi'; rfl
      · obtain ⟨i, hi, hi'⟩ := List.mem_filterMap.1 (hrules ▸ List.mem_singleton_self path)
        cases i <;> cases hi'
        exact h _ hi
  rw [← hgood, ← nodup_long_iff, Signature.allows, operands_map, hrules]
  simp [Request.runSignature, Kind.accepts, and_assoc]

end RunItem

/-! ## Requests -/

namespace Request

open RunItem

lemma read_runSignature_iff {arguments : List String} {given : List Given} :
    runSignature.read arguments = .ok given ↔
      Switch.Spells switches .free given arguments ∧ runSignature.allows given = true := by
  have hclear : Switch.IsClear (Switch.help :: Switch.loudness ++ runSignature.switches) :=
    ⟨by decide, by decide, by decide, by decide, by decide⟩
  have hgivable : Switch.givable (Switch.help :: Switch.loudness ++ runSignature.switches) =
      switches := by decide
  rw [Signature.read_eq_ok_iff hclear, hgivable]

/-- What the arguments of a run are read as, by what they say. -/
lemma readRun_of_read {arguments : List String} {items : List RunItem}
    (h : runSignature.read arguments = .ok (items.map given)) :
    readRun arguments = do
      let rules ← onlyPath (items.map given)
      let start ← startOf (items.map given)
      return .run { RunRequest.ofItems items with rules := rules, start := start } := by
  have hcells : size? (items.map given) "cells" = (items.findSome? cells?).bind sizeOf? :=
    congrArg (·.bind sizeOf?) (value?_map fun i => by cases i <;> rfl)
  have hsteps : size? (items.map given) "steps" = (items.findSome? steps?).bind sizeOf? :=
    congrArg (·.bind sizeOf?) (value?_map fun i => by cases i <;> rfl)
  have hformat : Given.value? (items.map given) "format" = items.findSome? format? :=
    value?_map fun i => by cases i <;> rfl
  have houtput : Given.value? (items.map given) "output" = items.findSome? output? :=
    value?_map fun i => by cases i <;> rfl
  simp only [RunRequest.ofItems, ← hcells, ← hsteps, ← hformat, ← houtput]
  rw [readRun, h]
  rfl

lemma ofItems_with_eq {items : List RunItem} {path : String}
    (hrules : items.filterMap rules? = [path]) {start : Option (Option String)}
    (hstart : start = (RunRequest.ofItems items).start) :
    { RunRequest.ofItems items with rules := path, start := start } =
      RunRequest.ofItems items := by
  have hpath : path = (RunRequest.ofItems items).rules := by
    rw [RunRequest.ofItems, ← List.head?_filterMap, hrules]
    rfl
  rw [hpath, hstart]

lemma exists_items_of_readRun {arguments : List String} {r : RunRequest}
    (h : readRun arguments = .ok (.run r)) :
    ∃ items : List RunItem, Switch.Spells switches .free (items.map given) arguments ∧
      FitTogether items ∧ r = .ofItems items := by
  cases hread : runSignature.read arguments with
  | error refusal =>
    rw [readRun, hread] at h
    cases h
  | ok found =>
    obtain ⟨hspells, hallows⟩ := read_runSignature_iff.1 hread
    obtain ⟨items, rfl⟩ := exists_map_given_eq (hspells.isAmong nofun)
    rw [readRun_of_read hread, onlyPath, operands_map, startOf_map] at h
    split at h
    next path hrules =>
      obtain ⟨honce, hgood⟩ := (allows_iff hrules).1 hallows
      by_cases hnone : noStart ∈ items
      · rw [if_pos hnone] at h
        split_ifs at h with hstart
        · cases h
        · -- No start signal is named besides.
          cases h
          refine ⟨items, hspells, ⟨⟨path, hrules⟩, honce, hgood, fun name hname => ?_⟩,
            ofItems_with_eq hrules (if_pos hnone).symm⟩
          exact absurd (List.findSome?_isSome_iff.2 ⟨_, hname, rfl⟩) hstart
      · rw [if_neg hnone] at h
        cases h
        exact ⟨items, hspells, ⟨⟨path, hrules⟩, honce, hgood, fun _ _ => hnone⟩,
          ofItems_with_eq hrules (if_neg hnone).symm⟩
    next => cases h

lemma readRun_of_spells {arguments : List String} {items : List RunItem}
    (hspells : Switch.Spells switches .free (items.map given) arguments)
    (hfit : FitTogether items) : readRun arguments = .ok (.run (.ofItems items)) := by
  obtain ⟨path, hrules⟩ := hfit.rules
  have hread := read_runSignature_iff.2 ⟨hspells, (allows_iff hrules).2 ⟨hfit.once, hfit.good⟩⟩
  have hstart : startOf (items.map given) = .ok (RunRequest.ofItems items).start := by
    rw [startOf_map, RunRequest.ofItems]
    split_ifs with hnone hstart
    · obtain ⟨i, hi, hname⟩ := List.findSome?_isSome_iff.1 hstart
      cases i <;> cases hname
      exact absurd hnone (hfit.start _ hi)
    · rfl
    · rfl
  rw [readRun_of_read hread, onlyPath, operands_map, hrules, hstart]
  exact congrArg (fun r => Except.ok (Request.run r)) (ofItems_with_eq hrules rfl)

lemma nodup_loud_iff {loud : List RunItem} (h : ∀ i ∈ loud, i = verbose ∨ i = quiet) :
    ((loud.map given).filterMap Given.long?).Nodup ↔ loud.Nodup := by
  have hmap : loud.filterMap switch? = loud.map fun i => i.switch?.getD Switch.help := by
    rw [← List.filterMap_eq_map]
    exact List.filterMap_congr fun i hi => by rcases h i hi with rfl | rfl <;> rfl
  rw [nodup_long_iff, hmap]
  refine ⟨List.Nodup.of_map _, List.Nodup.map_on fun i hi j hj heq => ?_⟩
  rcases h i hi with rfl | rfl <;> rcases h j hj with rfl | rfl
  · rfl
  · exact absurd heq (by decide)
  · exact absurd heq (by decide)
  · rfl

/-- What the program itself takes, before the name of a command. -/
lemma read_root_iff {arguments : List String} {found : List Given} :
    (⟨[], [Switch.version], []⟩ : Signature).read arguments = .ok found ↔
      Switch.Spells loudness .free found arguments ∧
        (⟨[], [Switch.version], []⟩ : Signature).allows found = true := by
  have hclear : Switch.IsClear (Switch.help :: Switch.loudness ++ [Switch.version]) :=
    ⟨by decide, by decide, by decide, by decide, by decide⟩
  have hgivable : Switch.givable (Switch.help :: Switch.loudness ++ [Switch.version]) =
      loudness := by decide
  rw [← hgivable]
  exact Signature.read_eq_ok_iff hclear

lemma exists_loud_of_read {arguments : List String} {found : List Given}
    (h : (⟨[], [Switch.version], []⟩ : Signature).read arguments = .ok found) :
    ∃ loud : List RunItem, Switch.Spells loudness .free (loud.map given) arguments ∧
      (∀ i ∈ loud, i = .verbose ∨ i = .quiet) ∧ loud.Nodup := by
  obtain ⟨hspells, hallows⟩ := read_root_iff.1 h
  have hamong := hspells.isAmong nofun
  obtain ⟨loud, rfl⟩ := exists_map_given_eq fun g hg => by
    have hg := hamong g hg
    cases g with
    | operand text => trivial
    | switch s value => exact ⟨List.mem_append_left _ hg.1, hg.2⟩
  simp only [Signature.allows, operands_map, Bool.and_eq_true, decide_eq_true_eq] at hallows
  obtain ⟨⟨⟨honce, -⟩, hrules⟩, -⟩ := hallows
  have hloud : ∀ i ∈ loud, i = .verbose ∨ i = .quiet := by
    intro i hi
    have hi' := hamong _ (List.mem_map_of_mem hi)
    cases i with
    | verbose => exact .inl rfl
    | quiet => exact .inr rfl
    | rules path =>
      -- The program itself has no use for an operand.
      have hmem : path ∈ loud.filterMap rules? := List.mem_filterMap.2 ⟨_, hi, rfl⟩
      rw [List.eq_nil_of_length_eq_zero (Nat.le_zero.1 hrules)] at hmem
      cases hmem
    | _ => exact absurd hi'.1 (by decide)
  exact ⟨loud, hspells, hloud, (nodup_loud_iff hloud).1 honce⟩

lemma read_of_loud {arguments : List String} {loud : List RunItem}
    (hspells : Switch.Spells loudness .free (loud.map given) arguments)
    (hloud : ∀ i ∈ loud, i = .verbose ∨ i = .quiet) (honce : loud.Nodup) :
    (⟨[], [Switch.version], []⟩ : Signature).read arguments = .ok (loud.map given) := by
  refine read_root_iff.2 ⟨hspells, ?_⟩
  have hrules : loud.filterMap rules? = [] := List.filterMap_eq_nil_iff.2 fun i hi => by
    rcases hloud i hi with rfl | rfl <;> rfl
  have hvalues : (loud.map given).all (·.hasGoodValue) = true := by
    refine List.all_eq_true.2 fun g hg => ?_
    obtain ⟨i, hi, rfl⟩ := List.mem_map.1 hg
    rcases hloud i hi with rfl | rfl <;> rfl
  simp only [Signature.allows, operands_map, hrules, hvalues, (nodup_loud_iff hloud).2 honce]
  rfl

/-- The name of a command is the first argument that does not look like a switch. -/
lemma exists_before_of_splitCommand {arguments rest : List String} {name : String}
    (h : splitCommand [] [Switch.version] arguments = .ok (name, rest)) :
    ∃ before, arguments = before ++ name :: rest ∧
      (∀ argument ∈ before, Switch.looksLike argument = true ∧ argument ≠ "--") ∧
      ∃ found, (⟨[], [Switch.version], []⟩ : Signature).read before = .ok found := by
  unfold splitCommand at h
  dsimp only at h
  cases hread : (⟨[], [Switch.version], []⟩ : Signature).read
      (arguments.takeWhile Switch.looksLike) with
  | error refusal =>
    rw [hread] at h
    cases h
  | ok found =>
    rw [hread] at h
    simp only [bind, Except.bind] at h
    split_ifs at h with hdashes
    split at h
    next => cases h
    next => cases h
    next name' rest' hhelp hdrop =>
      cases h
      refine ⟨arguments.takeWhile Switch.looksLike, ?_, fun argument hargument => ⟨?_, ?_⟩,
        found, hread⟩
      · rw [← hdrop, List.takeWhile_append_dropWhile]
      · exact List.mem_takeWhile_imp hargument
      · rintro rfl
        exact hdashes (List.contains_iff_mem.2 hargument)

lemma splitCommand_append {before rest : List String} {name : String} {found : List Given}
    (hbefore : ∀ argument ∈ before, Switch.looksLike argument = true ∧ argument ≠ "--")
    (hname : Switch.looksLike name = false) (hhelp : name ≠ "help")
    (hread : (⟨[], [Switch.version], []⟩ : Signature).read before = .ok found) :
    splitCommand [] [Switch.version] (before ++ name :: rest) = .ok (name, rest) := by
  have hlooks : ∀ argument ∈ before, Switch.looksLike argument = true :=
    fun argument hargument => (hbefore argument hargument).1
  have htake : (before ++ name :: rest).takeWhile Switch.looksLike = before := by
    rw [List.takeWhile_append_of_pos hlooks, List.takeWhile_cons_of_neg (by simp [hname]),
      List.append_nil]
  have hdrop : (before ++ name :: rest).dropWhile Switch.looksLike = name :: rest := by
    rw [List.dropWhile_append_of_pos hlooks, List.dropWhile_cons_of_neg (by simp [hname])]
  have hdashes : before.contains "--" = false := by
    rw [← Bool.not_eq_true, List.contains_iff_mem]
    exact fun hmem => (hbefore _ hmem).2 rfl
  simp only [splitCommand, htake, hdrop, hread, hdashes]
  rfl

lemma onlyPath_ne_run {found : Except Refusal (List Given)} {make : String → Request}
    {r : RunRequest} (hmake : ∀ path, make path ≠ .run r) :
    (do return make (← onlyPath (← found))) ≠ Except.ok (.run r) := by
  intro h
  cases found with
  | error refusal => cases h
  | ok found =>
    cases hpath : onlyPath found with
    | error refusal => simp [bind, Except.bind, hpath] at h
    | ok path => exact hmake path (by simpa [bind, Except.bind, pure, Except.pure, hpath] using h)

lemma readSettings_ne_run (arguments : List String) (r : RunRequest) :
    readSettings arguments ≠ .ok (.run r) := by
  intro h
  unfold readSettings at h
  cases hcommand : splitCommand ["config"] [] arguments with
  | error refusal =>
    rw [hcommand] at h
    cases h
  | ok command =>
    obtain ⟨name, rest⟩ := command
    rw [hcommand] at h
    simp only [bind, Except.bind] at h
    split at h
    next => split at h <;> cases h
    next =>
      split at h
      next => cases h
      next => split at h <;> cases h
    next => split at h <;> cases h
    next => cases h

/-- Under any other name than `run`, arguments are not read as the request of a run. -/
lemma read_eq_run_iff_of_splitCommand {arguments : List String} {r : RunRequest} :
    read arguments = .ok (.run r) ↔
      ∃ rest, splitCommand [] [Switch.version] arguments = .ok ("run", rest) ∧
        readRun rest = .ok (.run r) := by
  unfold read
  cases hcommand : splitCommand [] [Switch.version] arguments with
  | error refusal => simp [bind, Except.bind]
  | ok command =>
    obtain ⟨name, rest⟩ := command
    simp only [bind, Except.bind]
    split
    next => simp
    next => exact iff_of_false (onlyPath_ne_run nofun) (by simp)
    next => exact iff_of_false (onlyPath_ne_run nofun) (by simp)
    next => simp [readSettings_ne_run]
    next hrun _ _ _ =>
      have hname : name ≠ "run" := hrun
      simp [hname]

/-- **The arguments of a run are read as what they say.** -/
theorem read_eq_run_iff {arguments : List String} {r : RunRequest} :
    read arguments = .ok (.run r) ↔ ∃ items, RunLine arguments items ∧ r = .ofItems items := by
  rw [read_eq_run_iff_of_splitCommand]
  constructor
  · rintro ⟨rest, hcommand, hrun⟩
    obtain ⟨before, harguments, hbefore, found, hroot⟩ := exists_before_of_splitCommand hcommand
    obtain ⟨loud, hspells, hloud, honce⟩ := exists_loud_of_read hroot
    obtain ⟨items, hitems, hfit, hr⟩ := exists_items_of_readRun hrun
    exact ⟨items, harguments ▸ .spelled hbefore hspells hloud honce hitems hfit, hr⟩
  · rintro ⟨items, ⟨hbefore, hspells, hloud, honce, hitems, hfit⟩, rfl⟩
    have hroot := read_of_loud hspells hloud honce
    exact ⟨_, splitCommand_append hbefore (by decide) (by decide) hroot,
      readRun_of_spells hitems hfit⟩

end Request

end StripAutomata.Command
