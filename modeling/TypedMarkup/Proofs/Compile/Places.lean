import TypedMarkup.Proofs.Compile.Reports
import TypedMarkup.Proofs.Document.Parsing
import TypedMarkup.Proofs.Document.Parts
import TypedMarkup.Proofs.Report.Places
import TypedMarkup.Proofs.Token.Bounds
import TypedMarkup.Report.OfErrors

/-! # The places that a compilation reports

A diagnostic stands on a tag of the template, and a declaration that repeats a name is reported at the name, in the
source that declares it. The report names the place of the first character there as long as places in bytes and in
characters are the same.
-/
namespace TypedMarkup
set_option autoImplicit false

namespace Span.OnTokens

variable {s : Span} {source : String} (h : s.OnTokens (Token.scan source))
include h

theorem start_lt_stop : s.start < s.stop := (h.bounds (Token.scan_ordered source)).1

/-- A span that starts at a token starts at a character. -/
theorem exists_char :
    ∃ before c after, source.toList = before ++ c :: after ∧ s.start = Lexeme.byteCount before := by
  obtain ⟨-, ⟨first, hFirst, hStart⟩, -⟩ := h.bounds (Token.scan_ordered source)
  obtain ⟨before, c, after, hText, hBytes⟩ := Token.exists_char_of_mem_scan hFirst
  exact ⟨before, c, after, hText, hStart.trans hBytes⟩

end Span.OnTokens

theorem mem_of_firstRepeated? {seen : List String} {names : List Identifier} {i : Identifier}
    (h : firstRepeated? seen names = some i) : i ∈ names := by
  induction names generalizing seen with
  | nil => cases h
  | cons j rest ih =>
    rw [firstRepeated?] at h
    split at h
    · cases h
      exact List.mem_cons_self
    · exact List.mem_cons_of_mem _ (ih h)

theorem Component.exists_declared_of_ofDecl {decl : ComponentDecl} {e : DeclarationError}
    (h : ofDecl decl = .error e) : ∃ i ∈ decl.declared, e.span = i.span := by
  rw [ofDecl] at h
  split at h
  case h_1 i hRepeated =>
    cases h
    exact ⟨i, by simp [ComponentDecl.declared, mem_of_firstRepeated? hRepeated], rfl⟩
  case h_2 =>
    split at h
    case h_1 i hRepeated =>
      cases h
      exact ⟨i, List.mem_cons_of_mem _ (List.mem_append_right _ (mem_of_firstRepeated? hRepeated)), rfl⟩
    case h_2 => cases h

namespace Registry

theorem exists_declared_of_declare {r : Registry} {decl : ComponentDecl} {e : DeclarationError}
    (h : r.declare decl = .error e) : ∃ i ∈ decl.declared, e.span = i.span := by
  rw [declare] at h
  split at h
  case h_1 hOf =>
    cases h
    exact Component.exists_declared_of_ofDecl hOf
  case h_2 =>
    split at h
    · cases h
      exact ⟨decl.name, List.mem_cons_self, rfl⟩
    · cases h

theorem exists_declared_of_collect {decls : List ComponentDecl} {e : DeclarationError} :
    ∀ {r : Registry}, (r.collect decls).2 = some e → ∃ decl ∈ decls, ∃ i ∈ decl.declared, e.span = i.span := by
  induction decls with
  | nil => exact nofun
  | cons decl rest ih =>
    intro r h
    rw [collect] at h
    split at h
    case h_1 =>
      obtain ⟨decl', hDecl', hName⟩ := ih h
      exact ⟨decl', List.mem_cons_of_mem _ hDecl', hName⟩
    case h_2 hDeclare =>
      cases h
      exact ⟨decl, List.mem_cons_self, exists_declared_of_declare hDeclare⟩

end Registry

theorem Scope.exists_binding_of_collect {decls : List BindingDecl} {e : DeclarationError} :
    ∀ {s : Scope}, (s.collect decls).2 = some e → ∃ decl ∈ decls, e.span = decl.name.span := by
  induction decls with
  | nil => exact nofun
  | cons decl rest ih =>
    intro s h
    rw [collect, declare] at h
    split at h
    case h_1 =>
      obtain ⟨decl', hDecl', hName⟩ := ih h
      exact ⟨decl', List.mem_cons_of_mem _ hDecl', hName⟩
    case h_2 hDeclare =>
      split at hDeclare
      · cases hDeclare
        cases h
        exact ⟨decl, List.mem_cons_self, rfl⟩
      · cases hDeclare

namespace Declarations

theorem onTokens_of_add {ds : Declarations} {d : Document} {e : DeclarationError} {ts : List (Located Token)}
    (hPlaced : d.Placed ts) (h : ds.add d = .error e) : e.span.OnTokens ts := by
  rw [add] at h
  split at h
  case h_1 hCollect =>
    cases h
    obtain ⟨decl, hDecl, i, hi, hSpan⟩ := Registry.exists_declared_of_collect (congrArg Prod.snd hCollect)
    rw [hSpan]
    exact Identifier.onTokens (hPlaced.token_mem_component hDecl hi)
  case h_2 =>
    split at h
    case h_1 hCollect =>
      cases h
      obtain ⟨decl, hDecl, hSpan⟩ := Scope.exists_binding_of_collect (congrArg Prod.snd hCollect)
      rw [hSpan]
      exact Identifier.onTokens (hPlaced.token_mem_binding hDecl)
    case h_2 => cases h

theorem onTokens_of_read {ds : Declarations} {origin origin' : Origin} {source : String} {e : DeclarationError}
    (h : ds.read origin source = .error (.declaration origin' e)) :
    origin' = origin ∧ e.span.OnTokens (Token.scan source) := by
  rw [read] at h
  split at h
  case h_1 => cases h
  case h_2 d hParse =>
    split at h
    case h_1 hAdd =>
      cases h
      exact ⟨rfl, onTokens_of_add (Document.parse_eq_ok_iff_placed.mp hParse).1 hAdd⟩
    case h_2 => cases h

theorem onTokens_of_readAll {sources : List String} {origin : Origin} {e : DeclarationError} :
    ∀ {ds : Declarations} {index : Nat}, ds.readAll index sources = .error (.declaration origin e) →
      ∃ i source, origin = .components (index + i) ∧ sources[i]? = some source ∧
        e.span.OnTokens (Token.scan source) := by
  induction sources with
  | nil => exact nofun
  | cons source rest ih =>
    intro ds index h
    rw [readAll] at h
    split at h
    case h_1 hRead =>
      cases h
      obtain ⟨hOrigin, hSpan⟩ := onTokens_of_read hRead
      exact ⟨0, source, hOrigin, rfl, hSpan⟩
    case h_2 =>
      obtain ⟨i, source', hOrigin, hSource, hSpan⟩ := ih h
      exact ⟨i + 1, source', by rw [hOrigin]; congr 1; omega, hSource, hSpan⟩

end Declarations

/-- The source that is meant, if there are so many. -/
def Origin.source? (template : String) (components : List String) : Origin → Option String
  | .template => some template
  | .components index => components[index]?

variable {template : String} {components : List String} {style : ListingStyle}

theorem onTokens_of_compile {origin : Origin} {e : DeclarationError}
    (h : compile template components style = .error (.declaration origin e)) :
    ∃ source, origin.source? template components = some source ∧ e.span.OnTokens (Token.scan source) := by
  rw [compile] at h
  split at h
  case h_1 hAll =>
    cases h
    obtain ⟨i, source, rfl, hSource, hSpan⟩ := Declarations.onTokens_of_readAll hAll
    exact ⟨source, by rw [Nat.zero_add]; exact hSource, hSpan⟩
  case h_2 =>
    split at h
    case h_1 hRead =>
      cases h
      obtain ⟨rfl, hSpan⟩ := Declarations.onTokens_of_read hRead
      exact ⟨template, rfl, hSpan⟩
    case h_2 => cases h

theorem onTokens_of_mem_diagnostics {out : Compilation} (h : compile template components style = .ok out)
    {diagnostic : Diagnostic} (hMem : diagnostic ∈ out.diagnostics) :
    diagnostic.span.OnTokens (Token.scan template) := by
  obtain ⟨before, d, ds, -, hRead, rfl⟩ := compile_eq_ok_iff.mp h
  have hParse := Declarations.parse_of_read hRead
  rw [Document.compile_diagnostics hParse] at hMem
  obtain ⟨r, hr, hDiagnostic⟩ := List.mem_filterMap.mp hMem
  change r ∈ d.resolutions ds.registry ds.scope at hr
  rw [Document.resolutions_eq_filterMap_tags] at hr
  obtain ⟨tag, hTag, hResolution⟩ := List.mem_filterMap.mp hr
  rw [(Resolution.diagnostic?_eq_some_iff.mp hDiagnostic).2.2, Tag.span_of_resolution? hResolution]
  exact (Document.parse_eq_ok_iff_placed.mp hParse).1.onTokens_tag hTag

/-- What a compilation reports of sources that can be read: each diagnostic of the template, or else the
declaration that it ends at. -/
inductive Reports (template : String) (components : List String) (style : ListingStyle) :
    Origin → Report → Prop
  | diagnostic {out : Compilation} {diagnostic : Diagnostic} (h : compile template components style = .ok out)
      (hMem : diagnostic ∈ out.diagnostics) : Reports template components style .template diagnostic.report
  | declaration {origin : Origin} {e : DeclarationError}
      (h : compile template components style = .error (.declaration origin e)) :
      Reports template components style origin e.report

theorem Reports.onTokens {origin : Origin} {r : Report} (h : Reports template components style origin r) :
    ∃ source, origin.source? template components = some source ∧ r.span.OnTokens (Token.scan source) := by
  cases h with
  | diagnostic h hMem => exact ⟨template, rfl, onTokens_of_mem_diagnostics h hMem⟩
  | declaration h => exact onTokens_of_compile h

/-- A report is drawn on the source that it is about, where its label starts at a character. The place named is
that of this character just if every character before it is one byte and the label, its bytes taken for
characters, ends within the source. -/
theorem Reports.names_place {origin : Origin} {r : Report} (h : Reports template components style origin r) :
    ∃ source before c after, origin.source? template components = some source ∧
      source.toList = before ++ c :: after ∧ r.span.start = Lexeme.byteCount before ∧
      (∀ file color, ∃ text,
        r.render? file source color = some text ∧ r.Draws file color (r.place? source) text) ∧
      (r.place? source = some (SourceLine.placeBehind before c) ↔
        (∀ d ∈ before, d.utf8Size = 1) ∧ r.span.stop ≤ source.toList.length + 1) := by
  obtain ⟨source, hSource, hSpan⟩ := h.onTokens
  obtain ⟨before, c, after, hText, hStart⟩ := hSpan.exists_char
  have hOrder := hSpan.start_lt_stop
  exact ⟨source, before, c, after, hSource, hText, hStart,
    fun file color => Report.draws_render? (Nat.le_of_lt hOrder) file source color,
    Report.place?_eq_iff hText hStart hOrder⟩

/-- A component with a type parameter that only a value can tell. -/
def plainBox : String := "component Box<T> \x7b param Value: T \x7d"

/-- The report on a use of it without a value. -/
def plainBoxReport (span : Span) : Report where
  code := some "CMP10001"
  message := "The type of component 'Box' cannot be inferred based on the values provided. " ++
    "Consider specifying the type arguments directly using the following attributes: 'T'."
  span := span
  label := "GenericComponentTypeInferenceUnderspecified"

/-- The reports on the diagnostics of a template. -/
def diagnosticReports (template : String) (components : List String) : List Report :=
  match compile template components .standard with
  | .error _ => []
  | .ok out => out.diagnostics.map Diagnostic.report

theorem reports_of_mem_diagnosticReports {r : Report} (h : r ∈ diagnosticReports template components) :
    Reports template components .standard .template r := by
  rw [diagnosticReports] at h
  split at h
  · cases h
  case h_2 out hCompile =>
    obtain ⟨d, hMem, rfl⟩ := List.mem_map.mp h
    exact .diagnostic hCompile hMem

theorem names_place_second_line : ∃ before c after text,
    Reports "<p/>\n <Box/>" [plainBox] .standard .template (plainBoxReport ⟨6, 12⟩) ∧
    "<p/>\n <Box/>".toList = before ++ c :: after ∧ Lexeme.byteCount before = 6 ∧
    SourceLine.placeBehind before c = (2, 2) ∧
    (plainBoxReport ⟨6, 12⟩).render? "a.cmp" "<p/>\n <Box/>" false = some text ∧
    (plainBoxReport ⟨6, 12⟩).Draws "a.cmp" false (some (2, 2)) text := by
  have hReports := reports_of_mem_diagnosticReports
    (show plainBoxReport ⟨6, 12⟩ ∈ diagnosticReports "<p/>\n <Box/>" [plainBox] by decide +kernel)
  have hPlace : (plainBoxReport ⟨6, 12⟩).place? "<p/>\n <Box/>" = some (2, 2) := by decide +kernel
  obtain ⟨source, before, c, after, hSource, hText, hStart, hDraws, hNames⟩ := hReports.names_place
  cases hSource
  have hAscii := Lexeme.length_eq_byteCount_iff.mp
    (show "<p/>\n <Box/>".toList.length = Lexeme.byteCount "<p/>\n <Box/>".toList by decide)
  have hBefore : ∀ d ∈ before, d.utf8Size = 1 := by
    intro d hd
    apply hAscii
    rw [hText]
    exact List.mem_append_left _ hd
  have hMeant := hNames.mpr ⟨hBefore, by decide⟩
  obtain ⟨text, hRender, hDrawn⟩ := hDraws "a.cmp" false
  rw [hPlace] at hMeant hDrawn
  exact ⟨before, c, after, text, hReports, hText, hStart.symm, (Option.some.inj hMeant).symm, hRender, hDrawn⟩

/-- Two characters of two bytes each are enough for a report that names no place. -/
theorem not_names_place_behind_accents :
    Reports "/*éé*/<Box/>" [plainBox] .standard .template (plainBoxReport ⟨8, 14⟩) ∧
    Lexeme.byteCount "/*éé*/".toList = 8 ∧ SourceLine.placeBehind "/*éé*/".toList '<' = (1, 7) ∧
    (plainBoxReport ⟨8, 14⟩).render? "a.cmp" "/*éé*/<Box/>" false = some
      ("[CMP10001] Error: The type of component 'Box' cannot be inferred based on the values provided. " ++
        "Consider specifying the type arguments directly using the following attributes: 'T'.\n") := by
  refine ⟨reports_of_mem_diagnosticReports ?_, by decide, by decide, by decide +kernel⟩
  decide +kernel

end TypedMarkup
