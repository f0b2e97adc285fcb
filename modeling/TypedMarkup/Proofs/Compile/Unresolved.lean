import Mathlib.Tactic.TFAE
import TypedMarkup.Proofs.Compile.Names

/-! # Unresolved arguments

A site fails, has a diagnostic, has an empty slot and is written with a question mark in its type, all of
these or none.
-/
namespace TypedMarkup
set_option autoImplicit false

theorem Component.isFailure_resolve_iff (c : Component) (attributes : List Attribute) (span : Span) (scope : Scope) :
    (c.resolve attributes span scope).outcome.isFailure = true ↔ none ∈ (c.resolve attributes span scope).args :=
  (c.tells_resolveArgs attributes scope).isFailure_iff (c.length_resolveArgs attributes scope)

section Sites

variable {source : String} {d : Document} {registry : Registry} {scope : Scope} {r : Resolution}

theorem Document.mem_resolutions_iff : r ∈ d.resolutions registry scope ↔
    ∃ tag ∈ d.tags, ∃ c, registry.get? tag.name.value = some c ∧ r = c.resolve tag.attributes tag.span scope := by
  rw [resolutions_eq_filterMap_tags, List.mem_filterMap]
  simp only [Tag.resolution?_eq_some_iff]

theorem Document.eq_of_span_eq (h : parse source = .ok d) (hr : r ∈ d.resolutions registry scope) {r' : Resolution}
    (hr' : r' ∈ d.resolutions registry scope) (hSpan : r'.span = r.span) : r' = r := by
  have hStarts : ((d.resolutions registry scope).map fun r => r.span.start).Nodup :=
    (parse_sites_increasing h).imp Nat.ne_of_lt
  have hStart : r'.span.start = r.span.start := by rw [hSpan]
  exact List.inj_on_of_nodup_map hStarts hr' hr hStart

theorem Document.isFailure_iff_exists_diagnostic (h : parse source = .ok d) (hr : r ∈ d.resolutions registry scope) :
    r.outcome.isFailure = true ↔
      ∃ diagnostic ∈ (d.resolutions registry scope).filterMap Resolution.diagnostic?, diagnostic.span = r.span := by
  rw [← Resolution.diagnostic?_isSome, Option.isSome_iff_exists]
  constructor
  · rintro ⟨diagnostic, hDiagnostic⟩
    have hSpan := (Resolution.diagnostic?_eq_some_iff.mp hDiagnostic).2.2
    exact ⟨diagnostic, List.mem_filterMap.mpr ⟨r, hr, hDiagnostic⟩, hSpan⟩
  · rintro ⟨diagnostic, hMem, hSpan⟩
    -- Some site has this diagnostic, and no other site is at the same place.
    obtain ⟨r', hr', hDiagnostic⟩ := List.mem_filterMap.mp hMem
    have hOwn := (Resolution.diagnostic?_eq_some_iff.mp hDiagnostic).2.2
    obtain rfl := eq_of_span_eq h hr hr' (hOwn.symm.trans hSpan)
    exact ⟨diagnostic, hDiagnostic⟩

theorem Document.resolutions_tell (d : Document) (registry : Registry) (scope : Scope) :
    List.Forall₂
      (fun tag r => ∃ c, registry.get? tag.name.value = some c ∧
        r = c.resolve tag.attributes tag.span scope ∧ r.args.length = c.typeParams.length ∧
        c.Tells r.args r.outcome)
      (d.tags.filter fun tag => registry.contains tag.name.value) (d.resolutions registry scope) := by
  rw [resolutions_eq_filterMap_tags]
  simp only [← @Tag.resolution?_isSome registry scope]
  apply (forall₂_filter_filterMap _ d.tags).imp
  intro tag r hResolution
  obtain ⟨c, hGet, rfl⟩ := Tag.resolution?_eq_some_iff.mp hResolution
  exact ⟨c, hGet, rfl, c.length_resolveArgs _ _, c.tells_resolveArgs _ _⟩

end Sites

theorem Compilation.hasErrors_iff {out : Compilation}
    (h : out.diagnostics = out.resolutions.filterMap Resolution.diagnostic?) :
    out.hasErrors = true ↔ ∃ r ∈ out.resolutions, r.outcome.isFailure = true := by
  rw [hasErrors, h, List.any_eq_true]
  constructor
  · rintro ⟨diagnostic, hMem, -⟩
    obtain ⟨r, hr, hDiagnostic⟩ := List.mem_filterMap.mp hMem
    refine ⟨r, hr, ?_⟩
    rw [← Resolution.diagnostic?_isSome, hDiagnostic]
    rfl
  · rintro ⟨r, hr, hFails⟩
    rw [← Resolution.diagnostic?_isSome, Option.isSome_iff_exists] at hFails
    obtain ⟨diagnostic, hDiagnostic⟩ := hFails
    exact ⟨diagnostic, List.mem_filterMap.mpr ⟨r, hr, hDiagnostic⟩, rfl⟩

section Compiled

variable {source : String} {d : Document} {ds : Declarations} {r : Resolution}

theorem Document.tfae_of_mem_resolutions (h : parse source = .ok d) (hNamed : ds.Named)
    (hr : r ∈ d.resolutions ds.registry ds.scope) : List.TFAE [
      r.outcome.isFailure = true,
      ∃ diagnostic ∈ (d.resolutions ds.registry ds.scope).filterMap Resolution.diagnostic?,
        diagnostic.span = r.span,
      none ∈ r.args,
      '?' ∈ r.type.toList] := by
  have hDiagnostic := isFailure_iff_exists_diagnostic h hr
  obtain ⟨tag, hTag, c, hc, rfl⟩ := mem_resolutions_iff.mp hr
  tfae_have 1 ↔ 2 := hDiagnostic
  tfae_have 1 ↔ 3 := c.isFailure_resolve_iff _ _ _
  tfae_have 4 ↔ 3 := question_mem_type_iff h hNamed hTag hc
  tfae_finish

theorem Document.isFailure_iff_question (h : parse source = .ok d) (hNamed : ds.Named)
    (hr : r ∈ d.resolutions ds.registry ds.scope) : r.outcome.isFailure = true ↔ '?' ∈ r.type.toList :=
  (tfae_of_mem_resolutions h hNamed hr).out 0 3

theorem Document.hasErrors_compile_iff (h : parse source = .ok d) (hNamed : ds.Named) (style : ListingStyle) :
    (d.compile ds style).hasErrors = true ↔
      ∃ type, .openComponent type ∈ d.calls ds.registry (d.resolutions ds.registry ds.scope) ∧
        '?' ∈ type.toList := by
  have hErrors : (d.compile ds style).hasErrors = true ↔
      ∃ r ∈ d.resolutions ds.registry ds.scope, r.outcome.isFailure = true :=
    Compilation.hasErrors_iff (compile_diagnostics h ds style)
  rw [hErrors]
  constructor
  · rintro ⟨r, hr, hFails⟩
    have hQuestion := (isFailure_iff_question h hNamed hr).mp hFails
    exact ⟨r.type, (openComponent_mem_calls_iff h).mpr ⟨r, hr, rfl⟩, hQuestion⟩
  · rintro ⟨type, hCall, hQuestion⟩
    obtain ⟨r, hr, rfl⟩ := (openComponent_mem_calls_iff h).mp hCall
    exact ⟨r, hr, (isFailure_iff_question h hNamed hr).mpr hQuestion⟩

end Compiled

/-- The outcome of each site tells which slots are empty. That a site fails, that it has a diagnostic, that it
has an empty slot and that its line in the listing has a question mark for an argument is all the same. -/
theorem compile_marks_unresolved {template : String} {components : List String} {style : ListingStyle}
    {out : Compilation} (h : compile template components style = .ok out) :
    ∃ (d : Document) (before ds : Declarations) (calls : List Call),
      Declarations.empty.readAll 0 components = .ok before ∧
      before.read .template template = .ok (d, ds) ∧
      out.generated = style.write calls ∧
      List.Forall₂
        (fun tag r => ∃ c, ds.registry.get? tag.name.value = some c ∧
          r = c.resolve tag.attributes tag.span ds.scope ∧ r.args.length = c.typeParams.length ∧
          c.Tells r.args r.outcome)
        (d.tags.filter fun tag => ds.registry.contains tag.name.value) out.resolutions ∧
      List.Forall₂ (fun r line => style.Opens r.type line) out.resolutions
        (ListingStyle.openings calls (style.lines calls)) ∧
      (∀ r ∈ out.resolutions, List.TFAE [
        r.outcome.isFailure = true,
        ∃ diagnostic ∈ out.diagnostics, diagnostic.span = r.span,
        none ∈ r.args,
        '?' ∈ r.type.toList]) ∧
      (out.hasErrors = true ↔ ∃ type, .openComponent type ∈ calls ∧ '?' ∈ type.toList) := by
  obtain ⟨before, d, ds, hAll, hRead, rfl⟩ := compile_eq_ok_iff.mp h
  have hParse := Declarations.parse_of_read hRead
  have hNamed := (Declarations.Named.empty.readAll hAll).read hRead
  have hLines := style.opens_lines (d.calls ds.registry (d.resolutions ds.registry ds.scope))
  rw [Document.openedTypes_calls hParse, List.forall₂_map_left_iff] at hLines
  refine ⟨d, before, ds, d.calls ds.registry (d.resolutions ds.registry ds.scope), hAll, hRead, rfl,
    d.resolutions_tell ds.registry ds.scope, hLines, ?_, Document.hasErrors_compile_iff hParse hNamed style⟩
  intro r hr
  rw [Document.compile_diagnostics hParse ds style]
  exact Document.tfae_of_mem_resolutions hParse hNamed hr

/-- A site that lacks a type around one that lacks nothing. -/
def pairTemplate : String :=
  "component Pair<A, B> \x7b param X: A param Y: B \x7d <Pair X=1><Pair X=1 Y=true/></Pair>"

theorem compile_marks_unresolved_pairs : ∃ out calls, compile pairTemplate [] .standard = .ok out ∧
    out.generated = ListingStyle.standard.write calls ∧
    out.resolutions.map Resolution.type = ["Pair<int, ?>", "Pair<int, bool>"] ∧
    List.Forall₂ (fun r line => ListingStyle.standard.Opens r.type line) out.resolutions
      (ListingStyle.openings calls (ListingStyle.standard.lines calls)) ∧
    out.hasErrors = true ∧ ∃ type, .openComponent type ∈ calls ∧ '?' ∈ type.toList := by
  have hFacts : ((compile pairTemplate [] .standard).toOption.map fun out =>
      (out.resolutions.map Resolution.type, out.hasErrors)) =
      some (["Pair<int, ?>", "Pair<int, bool>"], true) := by decide +kernel
  cases h : compile pairTemplate [] .standard with
  | error e =>
    rw [h] at hFacts
    cases hFacts
  | ok out =>
    rw [h] at hFacts
    obtain ⟨hTypes, hErrors⟩ := Prod.mk.inj (Option.some.inj hFacts)
    obtain ⟨d, before, ds, calls, -, -, hGenerated, -, hLines, -, hMarked⟩ := compile_marks_unresolved h
    exact ⟨out, calls, rfl, hGenerated, hTypes, hLines, hErrors, hMarked.mp hErrors⟩

end TypedMarkup
