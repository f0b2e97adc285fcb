import TypedMarkup.CommandLine.Run
import TypedMarkup.Proofs.Compile.Reordering
import TypedMarkup.Proofs.Compile.Unresolved

/-! # How a run ends

A run that is to compile reads all inputs or fails with a message. What it has read it compiles, and it ends well
if nothing is wrong with the sources; reports and their colours have no part in that.
-/
namespace TypedMarkup.CommandLine
set_option autoImplicit false
open Document

/-! ## Reading -/

section Reading

variable {files : Files} {stdin : Option String}

def Input.IsFile (i : Input) (files : Files) (path : String) : Prop := i.name = path ∧ files path = some i.text

def Input.IsTemplate (i : Input) (files : Files) (stdin : Option String) : Option String → Prop
  | some path => i.IsFile files path
  | none => i.name = "<stdin>" ∧ stdin = some i.text

/-- The settings are those that the file writes, or the standard where no file is named. -/
def SettingsFrom (files : Files) (settings : Settings) : Option String → Prop
  | some path => ∃ text, files path = some text ∧ Settings.parse? text = some settings
  | none => settings = .standard

/-- The settings load and all inputs can be read, and the job is made of them. -/
structure Job.Loads (job : Job) (o : Options) (stdin : Option String) (files : Files) : Prop where
  settings : SettingsFrom files job.settings o.config
  components : List.Forall₂ (fun path i => i.IsFile files path) o.components job.components
  template : job.template.IsTemplate files stdin o.template

theorem readFile_eq_ok_iff {path : String} {i : Input} : readFile files path = .ok i ↔ i.IsFile files path := by
  obtain ⟨name, text⟩ := i
  rw [readFile, Input.IsFile]
  cases files path <;> simp [eq_comm]

theorem readFiles_eq_ok_iff {paths : List String} {inputs : List Input} :
    readFiles files paths = .ok inputs ↔ List.Forall₂ (fun path i => i.IsFile files path) paths inputs := by
  induction paths generalizing inputs with
  | nil => simp [readFiles, eq_comm]
  | cons path rest ih =>
    rw [List.forall₂_cons_left_iff, readFiles]
    simp only [← ih]
    simp only [← readFile_eq_ok_iff]
    cases readFile files path with
    | error e => simp
    | ok i => cases readFiles files rest <;> simp [Except.map, eq_comm]

theorem readTemplate_eq_ok_iff {path : Option String} {i : Input} :
    readTemplate files stdin path = .ok i ↔ i.IsTemplate files stdin path := by
  obtain ⟨name, text⟩ := i
  cases path with
  | some path => exact readFile_eq_ok_iff
  | none => cases stdin <;> simp [readTemplate, readStdin, Input.IsTemplate, eq_comm]

theorem readSettings_eq_ok_iff {path : Option String} {settings : Settings} :
    readSettings files path = .ok settings ↔ SettingsFrom files settings path := by
  cases path with
  | none => simp [readSettings, SettingsFrom, eq_comm]
  | some path =>
    rw [readSettings, SettingsFrom]
    cases hFile : files path with
    | none => simp
    | some text => cases hParse : Settings.parse? text <;> simp [hParse]

theorem Job.read_eq_ok_iff {o : Options} {job : Job} : Job.read o stdin files = .ok job ↔ job.Loads o stdin files := by
  obtain ⟨settings, components, template⟩ := job
  have hLoads : Job.Loads ⟨settings, components, template⟩ o stdin files ↔
      readSettings files o.config = .ok settings ∧ readFiles files o.components = .ok components ∧
        readTemplate files stdin o.template = .ok template := by
    rw [readSettings_eq_ok_iff, readFiles_eq_ok_iff, readTemplate_eq_ok_iff]
    exact ⟨fun h => ⟨h.settings, h.components, h.template⟩, fun ⟨h, h', h''⟩ => ⟨h, h', h''⟩⟩
  rw [hLoads, Job.read]
  cases readSettings files o.config with
  | error e => simp
  | ok settings' =>
    cases readFiles files o.components with
    | error e => simp
    | ok components' => cases readTemplate files stdin o.template <;> simp [Except.map]

end Reading

/-! ## Compiling -/

namespace Job

def compiled (job : Job) : Except CompileError Compilation :=
  compile job.template.text (job.components.map Input.text) job.settings.listing

def input? (job : Job) : Origin → Option Input
  | .template => some job.template
  | .components index => job.components[index]?

/-- All sources are documents, no name is declared twice in them, and no usage site has a diagnostic. -/
inductive Clean (job : Job) : Prop
  | intro {docs : List Document} {d : Document} (hComponents : List.Forall₂ Reads (job.components.map Input.text) docs)
      (hTemplate : Reads job.template.text d) (hCompatible : Compatible (docs ++ [d]))
      (hSites : ∀ r ∈ d.resolutions (Declarations.ofDocuments (docs ++ [d])).registry
        (Declarations.ofDocuments (docs ++ [d])).scope, r.diagnostic? = none)

theorem hasErrors_eq_false_iff {source : String} {d : Document} (h : Reads source d) (ds : Declarations)
    (style : ListingStyle) : (d.compile ds style).hasErrors = false ↔
      ∀ r ∈ d.resolutions ds.registry ds.scope, r.diagnostic? = none := by
  rw [← Bool.not_eq_true, Compilation.hasErrors_iff (compile_diagnostics h ds style)]
  simp only [← Resolution.diagnostic?_isSome, not_exists, not_and, Option.not_isSome_iff_eq_none]
  rfl

theorem clean_iff {job : Job} : job.Clean ↔ ∃ out, job.compiled = .ok out ∧ out.hasErrors = false := by
  constructor
  · rintro ⟨hComponents, hTemplate, hCompatible, hSites⟩
    exact ⟨_, (compile_eq_ok_iff_of_reads hComponents hTemplate).mpr ⟨hCompatible, rfl⟩,
      (hasErrors_eq_false_iff hTemplate _ _).mpr hSites⟩
  · rintro ⟨out, hCompiled, hErrors⟩
    rcases compile_cases job.template.text (job.components.map Input.text) job.settings.listing with
      ⟨docs, d, hComponents, hTemplate, hCompatible, hOut⟩ | ⟨e, source, docs, hError, -⟩
    · cases hCompiled.symm.trans hOut
      exact ⟨hComponents, hTemplate, hCompatible, (hasErrors_eq_false_iff hTemplate _ _).mp hErrors⟩
    · cases hCompiled.symm.trans hError

theorem input?_of_error {job : Job} {e : CompileError} (h : job.compiled = .error e) :
    job.input? e.origin = some (job.input e.origin) := by
  rcases compile_cases job.template.text (job.components.map Input.text) job.settings.listing with
    ⟨docs, d, -, -, -, hOut⟩ | ⟨e', source, docs, hError, hSource, -⟩
  · cases h.symm.trans hOut
  · cases h.symm.trans hError
    cases hOrigin : e.origin with
    | template => rfl
    | components index =>
      rw [hOrigin, Origin.source?, List.getElem?_map] at hSource
      obtain ⟨i, hInput, -⟩ := Option.map_eq_some_iff.mp hSource
      rw [input?, input, List.getD_eq_getElem?_getD, hInput, Option.getD_some]

end Job

/-! ## Reporting -/

/-- The last report written is the first whose label starts behind its end. -/
theorem writeReports_complete_iff {input : Input} {color : Bool} {reports : List Report} :
    (writeReports input color reports).2 = true ↔ ∀ r ∈ reports, r.span.start ≤ r.span.stop := by
  induction reports with
  | nil => simp [writeReports]
  | cons r rest ih =>
    rw [writeReports, Report.render?, List.forall_mem_cons, ← ih]
    by_cases hSpan : r.span.stop < r.span.start
    · simp [hSpan, Nat.not_le.mpr hSpan]
    · simp [hSpan, Nat.not_lt.mp hSpan]

theorem writeReports_complete_eq (input : Input) (color color' : Bool) (reports : List Report) :
    (writeReports input color reports).2 = (writeReports input color' reports).2 := by
  rw [Bool.eq_iff_iff, writeReports_complete_iff, writeReports_complete_iff]

/-- The texts of reports on an input, of all of them or of those before the first that has none. -/
inductive Rendered (input : Input) (color : Bool) (reports : List Report) : String → Bool → Prop
  | all {texts : List String}
      (h : List.Forall₂ (fun r text => r.render? input.name input.text color = some text) reports texts) :
      Rendered input color reports (String.join texts) true
  | upTo {drawn rest : List Report} {r : Report} {texts : List String} (stop : String)
      (hSplit : reports = drawn ++ r :: rest)
      (h : List.Forall₂ (fun r text => r.render? input.name input.text color = some text) drawn texts)
      (hNone : r.render? input.name input.text color = none) :
      Rendered input color reports (String.join texts ++ stop) false

theorem rendered_writeReports (input : Input) (color : Bool) (reports : List Report) :
    Rendered input color reports (writeReports input color reports).1 (writeReports input color reports).2 := by
  induction reports with
  | nil => exact .all .nil
  | cons r rest ih =>
    rw [writeReports]
    cases hText : r.render? input.name input.text color with
    | none =>
      have hStop := Rendered.upTo "Label start is after its end\n" (List.nil_append (r :: rest)).symm .nil hText
      rwa [String.join_nil, String.empty_append] at hStop
    | some text =>
      dsimp only
      generalize (writeReports input color rest).1 = others at ih ⊢
      generalize (writeReports input color rest).2 = complete at ih ⊢
      cases ih with
      | @all texts h =>
        rw [← String.join_cons]
        exact .all (.cons hText h)
      | @upTo drawn rest' r' texts stop hSplit h hNone =>
        rw [← String.append_assoc, ← String.join_cons]
        exact .upTo stop (by rw [hSplit, List.cons_append]) (.cons hText h) hNone

namespace Job

variable {job : Job} {diagnosticsOnly : Bool}

/-- Diagnostics stand on tokens, so that none of their reports stops the program. -/
theorem complete_of_ok {out : Compilation} (h : job.compiled = .ok out) :
    (writeReports job.template job.settings.color (out.diagnostics.map Diagnostic.report)).2 = true := by
  rw [writeReports_complete_iff, List.forall_mem_map]
  intro diagnostic hMem
  exact Nat.le_of_lt (onTokens_of_mem_diagnostics h hMem).start_lt_stop

theorem run_of_ok {out : Compilation} (h : job.compiled = .ok out) : job.run diagnosticsOnly =
    ⟨if out.hasErrors then 1 else 0, if diagnosticsOnly then "" else out.generated,
      (writeReports job.template job.settings.color (out.diagnostics.map Diagnostic.report)).1⟩ := by
  have hComplete := complete_of_ok h
  rw [compiled] at h
  rw [run, h]
  simp only [hComplete, if_true]

theorem run_of_error {e : CompileError} (h : job.compiled = .error e) : job.run diagnosticsOnly =
    ⟨if (writeReports (job.input e.origin) job.settings.color e.reports).2 then 1 else crashed, "",
      (writeReports (job.input e.origin) job.settings.color e.reports).1⟩ := by
  rw [compiled] at h
  rw [run, h]

theorem exit_run_eq_zero_iff : (job.run diagnosticsOnly).exit = 0 ↔ job.Clean := by
  rw [clean_iff]
  cases hCompiled : job.compiled with
  | ok out => simp [run_of_ok hCompiled]
  | error e =>
    rw [run_of_error hCompiled]
    dsimp only
    split <;> simp [crashed]

theorem run_color (job : Job) (diagnosticsOnly color : Bool) :
    (({ job with settings.color := color } : Job).run diagnosticsOnly).exit = (job.run diagnosticsOnly).exit ∧
      (({ job with settings.color := color } : Job).run diagnosticsOnly).stdout = (job.run diagnosticsOnly).stdout := by
  cases hCompiled : job.compiled with
  | ok out =>
    have hOther : ({ job with settings.color := color } : Job).compiled = .ok out := hCompiled
    rw [run_of_ok hCompiled, run_of_ok hOther]
    exact ⟨rfl, rfl⟩
  | error e =>
    have hOther : ({ job with settings.color := color } : Job).compiled = .error e := hCompiled
    rw [run_of_error hCompiled, run_of_error hOther]
    refine ⟨?_, rfl⟩
    dsimp only
    rw [writeReports_complete_eq _ color job.settings.color]
    rfl

end Job

/-! ## Running -/

section Running

variable {args : List String} {o : Options} (h : Options.ofArgs args = .ok o)
include h

theorem run_of_loads {stdin : Option String} {files : Files} {job : Job} (hLoads : job.Loads o stdin files) :
    run args stdin files = job.run o.diagnosticsOnly := by
  simp only [run, h, Job.read_eq_ok_iff.mpr hLoads]

theorem run_of_not_loads {stdin : Option String} {files : Files} (hNone : ¬ ∃ job : Job, job.Loads o stdin files) :
    ∃ message, run args stdin files = failure message := by
  cases hRead : Job.read o stdin files with
  | ok job => exact absurd ⟨job, Job.read_eq_ok_iff.mp hRead⟩ hNone
  | error message => exact ⟨message, by simp only [run, h, hRead]⟩

theorem exit_run_eq_zero_iff {stdin : Option String} {files : Files} :
    (run args stdin files).exit = 0 ↔ ∃ job : Job, job.Loads o stdin files ∧ job.Clean := by
  by_cases hLoads : ∃ job : Job, job.Loads o stdin files
  · obtain ⟨job, hJob⟩ := hLoads
    rw [run_of_loads h hJob, Job.exit_run_eq_zero_iff]
    refine ⟨fun hClean => ⟨job, hJob, hClean⟩, ?_⟩
    rintro ⟨job', hJob', hClean⟩
    cases (Job.read_eq_ok_iff.mpr hJob).symm.trans (Job.read_eq_ok_iff.mpr hJob')
    exact hClean
  · obtain ⟨message, hRun⟩ := run_of_not_loads h hLoads
    rw [hRun]
    refine ⟨nofun, ?_⟩
    rintro ⟨job, hJob, -⟩
    exact absurd ⟨job, hJob⟩ hLoads

end Running

/-- Arguments that ask for no compilation give the same with all inputs. Others give success just if all inputs load
and are clean, and the generated code just if it is asked for and there is any. An error is reported on the input that
it comes from, which there is, and colours change neither the exit status nor the standard output. -/
theorem run_outcome (args : List String) (stdin : Option String) (files : Files) :
    (∀ refusal, Options.ofArgs args = .error refusal →
      ((run args stdin files).exit = 0 ↔ refusal = .help) ∧
      (refusal = .usage → (run args stdin files).stdout = "") ∧
      ∀ stdin' files', run args stdin' files' = run args stdin files) ∧
    ∀ o, Options.ofArgs args = .ok o →
      ((run args stdin files).exit = 0 ↔ ∃ job : Job, job.Loads o stdin files ∧ job.Clean) ∧
      (∀ job : Job, job.Loads o stdin files → ∀ out, job.compiled = .ok out →
        (o.diagnosticsOnly = false → (run args stdin files).stdout = out.generated) ∧
        Rendered job.template job.settings.color (out.diagnostics.map Diagnostic.report)
          (run args stdin files).stderr true) ∧
      ((∀ job : Job, job.Loads o stdin files → ∀ out, job.compiled = .ok out → o.diagnosticsOnly = true) →
        (run args stdin files).stdout = "") ∧
      (∀ job : Job, job.Loads o stdin files → ∀ e, job.compiled = .error e →
        ∃ input complete, job.input? e.origin = some input ∧
          Rendered input job.settings.color e.reports (run args stdin files).stderr complete ∧
          (run args stdin files).exit = if complete then 1 else crashed) ∧
      ∀ (job : Job) (color : Bool) (stdin' : Option String) (files' : Files), job.Loads o stdin files →
        ({ job with settings.color := color } : Job).Loads o stdin' files' →
        (run args stdin' files').exit = (run args stdin files).exit ∧
          (run args stdin' files').stdout = (run args stdin files).stdout := by
  constructor
  · intro refusal h
    cases refusal <;> simp [run, h]
  · intro o h
    refine ⟨exit_run_eq_zero_iff h, ?_, ?_, ?_, ?_⟩
    · intro job hLoads out hOut
      rw [run_of_loads h hLoads, Job.run_of_ok hOut]
      refine ⟨fun hAsked => by simp [hAsked], ?_⟩
      rw [← Job.complete_of_ok hOut]
      exact rendered_writeReports _ _ _
    · intro hNone
      by_cases hLoads : ∃ job : Job, job.Loads o stdin files
      · obtain ⟨job, hJob⟩ := hLoads
        rw [run_of_loads h hJob]
        cases hCompiled : job.compiled with
        | ok out => simp [Job.run_of_ok hCompiled, hNone job hJob out hCompiled]
        | error e => rw [Job.run_of_error hCompiled]
      · obtain ⟨message, hRun⟩ := run_of_not_loads h hLoads
        rw [hRun]
        rfl
    · intro job hLoads e hError
      rw [run_of_loads h hLoads, Job.run_of_error hError]
      exact ⟨_, _, Job.input?_of_error hError, rendered_writeReports _ _ _, rfl⟩
    · intro job color stdin' files' hLoads hLoads'
      rw [run_of_loads h hLoads, run_of_loads h hLoads']
      exact job.run_color o.diagnosticsOnly color

/-- A file and the standard input that declare one name. -/
def clashingOptions : Options := { Options.initial with components := ["a.cmp"] }

def clashingFiles (path : String) : Option String := if path = "a.cmp" then some "let x: int" else none

def clashingJob : Job := ⟨.standard, [⟨"a.cmp", "let x: int"⟩], ⟨"<stdin>", "let x: int"⟩⟩

theorem run_outcome_clash :
    Options.ofArgs ["-c", "a.cmp"] = .ok clashingOptions ∧
    clashingJob.Loads clashingOptions (some "let x: int") clashingFiles ∧ ¬ clashingJob.Clean ∧
    (run ["-c", "a.cmp"] (some "let x: int") clashingFiles).exit ≠ 0 ∧
    ∃ complete, Rendered ⟨"<stdin>", "let x: int"⟩ true [(DeclarationError.binding "x" ⟨4, 5⟩).report]
      (run ["-c", "a.cmp"] (some "let x: int") clashingFiles).stderr complete := by
  have hOptions : Options.ofArgs ["-c", "a.cmp"] = .ok clashingOptions := by decide +kernel
  have hError : clashingJob.compiled = .error (.declaration .template (.binding "x" ⟨4, 5⟩)) := by decide +kernel
  have hLoads : clashingJob.Loads clashingOptions (some "let x: int") clashingFiles :=
    ⟨rfl, .cons ⟨rfl, by decide⟩ .nil, rfl, rfl⟩
  obtain ⟨hExit, -, -, hReported, -⟩ :=
    (run_outcome ["-c", "a.cmp"] (some "let x: int") clashingFiles).2 clashingOptions hOptions
  obtain ⟨input, complete, hInput, hRendered, hStatus⟩ := hReported clashingJob hLoads _ hError
  cases hInput
  have hFails : (run ["-c", "a.cmp"] (some "let x: int") clashingFiles).exit ≠ 0 := by
    rw [hStatus]
    cases complete <;> decide
  exact ⟨hOptions, hLoads, fun hClean => hFails (hExit.mpr ⟨clashingJob, hLoads, hClean⟩), hFails, complete, hRendered⟩

/-- An unknown option is refused, though the standard input is a template with nothing wrong in it. -/
theorem run_refused_clean :
    (run ["-v", "--nonsense"] (some "<a/>") fun _ => none).exit = 2 ∧
    (run ["-v", "--nonsense"] (some "<a/>") fun _ => none).stdout = "" ∧
    (⟨.standard, [], ⟨"<stdin>", "<a/>"⟩⟩ : Job).Loads .initial (some "<a/>") (fun _ => none) ∧
    (⟨.standard, [], ⟨"<stdin>", "<a/>"⟩⟩ : Job).Clean ∧
    (⟨.standard, [], ⟨"<stdin>", "<a/>"⟩⟩ : Job).compiled.toOption.map Compilation.generated =
      some "builder.open_element(0, \"a\");\nbuilder.close_element();\n" := by
  refine ⟨by decide +kernel, by decide +kernel, ⟨rfl, .nil, rfl, rfl⟩, ?_, by decide +kernel⟩
  rw [Job.clean_iff]
  have hErrors : (⟨.standard, [], ⟨"<stdin>", "<a/>"⟩⟩ : Job).compiled.toOption.map Compilation.hasErrors =
      some false := by decide +kernel
  cases h : (⟨.standard, [], ⟨"<stdin>", "<a/>"⟩⟩ : Job).compiled with
  | error e =>
    rw [h] at hErrors
    cases hErrors
  | ok out =>
    rw [h] at hErrors
    exact ⟨out, rfl, Option.some.inj hErrors⟩

end TypedMarkup.CommandLine
