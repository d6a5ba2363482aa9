import StripAutomata.Proofs.Command.Stored

/-!
# What a use of the command line leaves alone

A request says to which file it may write, if to any (`Request.target?`): a run to the path of its
output, an edit of the settings to the settings file.  Carrying it out writes there at the very end
or not at all (`writesAtEnd_perform`), after everything that can go wrong.  So a use that fails has
changed nothing, whatever it failed in, and one that succeeds differs from doing nothing in one file
(`run_alters_at_most`).

A write is taken to be done as a whole or not at all.  What it does to a directory is said by
`Directory.Wrote`; here it comes down to `Directory.AltersAtMost`, which compares what can be seen
of two directories.
-/

namespace StripAutomata.Command

/-- The path to which a request may write. -/
def Request.target? : Request → Option String
  | .run r => r.output
  | .changeSetting _ _ | .resetSettings => some settingsFile
  | .check _ | .signals _ | .showSettings => none

namespace Directory

/-- Whether a directory differs from another one at most in the file to which a path leads, if there
is a path. -/
structure AltersAtMost (d : Directory) (path : Option String) (d' : Directory) : Prop where
  home : d'.home = d.home
  folder : ∀ place, d'.hasFolder place = d.hasFolder place
  file : ∀ place, path.bind d.place? ≠ some place → d'.file? place = d.file? place
  shown : path.bind d.place? ≠ some watchedFile → d'.shown = d.shown

lemma altersAtMost_self (d : Directory) (path : Option String) : d.AltersAtMost path d :=
  ⟨rfl, fun _ => rfl, fun _ _ => rfl, fun _ => rfl⟩

lemma Wrote.shown_eq {d d' : Directory} {place : Place} {text : String} (h : Wrote d place text d')
    (hplace : place ≠ watchedFile) : d'.shown = d.shown := by
  cases h with
  | forgotten => rfl
  | shown hw => exact absurd hw hplace
  | stored => rfl

lemma altersAtMost_of_write {d d' : Directory} {path text : String}
    (h : d.write path text = .ok d') : d.AltersAtMost (some path) d' := by
  obtain ⟨place, name, hplace, hfolder, -, hwrote⟩ := exists_wrote h
  have hother {q : Place} (hq : (some path).bind d.place? ≠ some q) : q ≠ place ++ [name] := by
    rintro rfl
    exact hq hplace
  exact ⟨hwrote.home_eq, hwrote.hasFolder_eq hfolder, fun q hq => hwrote.file?_of_ne (hother hq),
    fun hq => hwrote.shown_eq (hother hq).symm⟩

end Directory

/-! ## Requests -/

namespace Session

open Directory

/-- An edit ends well with a write to the settings file, or changes nothing. -/
lemma Edited.writesAtEnd {d : Directory} {s : Settings} {r : Result × Directory}
    (h : Edited d s r) : r.2 = d ∨
      r.1.outcome.code = 0 ∧ ∃ p text, some settingsFile = some p ∧ d.write p text = .ok r.2 := by
  cases h with
  | stored printed hvalid hwrite => exact .inr ⟨rfl, settingsFile, _, rfl, hwrite⟩
  | refused hcode => exact .inl rfl

lemma writesAtEnd_changeSetting (key value : String) :
    WritesAtEnd (some settingsFile) (changeSetting access (some settingsFile) key value) := by
  intro d
  have hkeeps := (keeps_loadStored (some settingsFile)).apply_eq d
  cases hstored : (loadStored access (some settingsFile) d).1 with
  | error report =>
    refine .inl ?_
    rw [changeSetting, bind_apply hkeeps, hstored]
    rfl
  | ok s =>
    rw [hstored] at hkeeps
    rcases edited_changeSetting hkeeps key value with ⟨e, -, hedited⟩ | ⟨-, hsame⟩
    · exact hedited.writesAtEnd
    · exact .inl hsame

/-- **A request writes at the end of what it does, and only where it may.** -/
lemma writesAtEnd_perform (s : Settings) (request : Request) :
    WritesAtEnd request.target? (perform access (some settingsFile) s request) := by
  cases request with
  | run r => exact writesAtEnd_runRules s r
  | check rules => exact (keeps_describeRules summary rules).writesAtEnd _
  | signals rules => exact (keeps_describeRules signalLines rules).writesAtEnd _
  | showSettings => exact (keeps_pure _).writesAtEnd _
  | changeSetting key value => exact writesAtEnd_changeSetting key value
  | resetSettings => exact fun d => (edited_resetSettings d).writesAtEnd

end Session

/-! ## Uses -/

namespace Use

open Directory Session

/-- The path to which a use may write. -/
def target? (u : Use) : Option String := (Request.read u.arguments).toOption.bind Request.target?

/-- **A use that fails changes nothing, and one that succeeds only its own file.**  If the variables
name the settings file, then the directory is as it was after a use that does not end with code 0,
and after one that asks for nothing to be written: which is to show or describe something, or to run
rules without an output.  After any other use it differs at most in the file that the use may write
to, which is the output of a run, and the settings file for a change and a reset. -/
theorem run_alters_at_most (u : Use) (d : Directory)
    (hgiven : u.given.get? settingsFileVariable = some settingsFile) :
    ((u.run d).1.code ≠ 0 ∨ u.target? = none → (u.run d).2 = d) ∧
      d.AltersAtMost u.target? (u.run d).2 := by
  have hwrites : (u.run d).2 = d ∨ (u.run d).1.code = 0 ∧
      ∃ p text, u.target? = some p ∧ d.write p text = .ok (u.run d).2 := by
    unfold run target? Session.run
    cases hrequest : Request.read u.arguments with
    | error refusal => exact .inl (by cases refusal <;> rfl)
    | ok request =>
      -- Either the use fails before it is known what to carry out, or it has its variables and
      -- settings and carries the request out.
      dsimp only
      rcases carryOut_cases u.given u.folder? request d with ⟨r, hr, -⟩ | ⟨vars, s, hvars, hcarry⟩
      · rw [bind_apply hr]
        exact .inl rfl
      · rw [settingsPath?_of_get? (get?_of_loadVariables? hvars hgiven)] at hcarry
        rw [bind_apply hcarry]
        exact writesAtEnd_perform s request d
  rcases hwrites with hsame | ⟨hcode, p, text, htarget, hwrite⟩
  · rw [hsame]
    exact ⟨fun _ => rfl, altersAtMost_self d _⟩
  · refine ⟨fun h => ?_, htarget ▸ altersAtMost_of_write hwrite⟩
    rcases h with hfails | hnone
    · exact absurd hcode hfails
    · exact absurd (htarget.symm.trans hnone) (Option.some_ne_none p)

/-- The rules of a directory are run, with an output. -/
def writing : Use :=
  ⟨[(settingsFileVariable, settingsFile)],
    ["run", "rules.sca", "-c", "2", "-s", "1", "-o", "out.txt"], fun _ => none⟩

/-- Two such uses, one after the other: the first one writes its output, and the second one, which
cannot read its settings because they were damaged meanwhile, changes nothing. -/
theorem run_alters_at_most_output :
    ∃ d d', (writing.run d).1.code = 0 ∧ writing.target? = some "out.txt" ∧
      d.AltersAtMost (some "out.txt") (writing.run d).2 ∧
      d'.homeFiles = (writing.run d).2.homeFiles ++ [(settingsFile, "\x7b")] ∧
      (writing.run d').1.code = 1 ∧ (writing.run d').2 = d' := by
  have hgiven : writing.given.get? settingsFileVariable = some settingsFile := by decide
  have htarget : writing.target? = some "out.txt" := by decide +kernel
  let d : Directory := .ofFiles [("rules.sca", "Init: 1.Init\n")]
  -- The settings file is damaged between the two uses.
  let d' : Directory := (access.write settingsFile "\x7b" (writing.run d).2).2
  have hfails : (writing.run d').1.code = 1 := by decide +kernel
  refine ⟨d, d', by decide +kernel, htarget, ?_, by decide +kernel, hfails, ?_⟩
  · exact htarget ▸ (run_alters_at_most writing d hgiven).2
  · exact (run_alters_at_most writing d' hgiven).1 (.inl (hfails ▸ Nat.one_ne_zero))

end Use

end StripAutomata.Command
