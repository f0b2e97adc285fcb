import Mathlib.Data.List.Forall2
import TypedMarkup.Compile
import TypedMarkup.Proofs.Document.Sites

/-! # What a compilation reports

Every usage site of the template has its resolution, and every site that fails its one diagnostic, both
in the order of the source.
-/
namespace TypedMarkup
set_option autoImplicit false

theorem forall₂_filter_filterMap {α β : Type} (f : α → Option β) (as : List α) :
    List.Forall₂ (fun a b => f a = some b) (as.filter fun a => (f a).isSome) (as.filterMap f) := by
  induction as with
  | nil => exact .nil
  | cons a rest ih =>
    cases h : f a with
    | none =>
      rw [List.filter_cons_of_neg (by simp [h]), List.filterMap_cons_none h]
      exact ih
    | some b =>
      rw [List.filter_cons_of_pos (by simp [h]), List.filterMap_cons_some h]
      exact .cons h ih

namespace Problem

/-- The message speaks of the component, in single quotes. -/
def Names (message component : String) : Prop :=
  ∃ before after, message = before ++ "'" ++ component ++ "'" ++ after

theorem names_quoted (before component after : String) :
    Names (before ++ "'" ++ component ++ ("'" ++ after)) component :=
  ⟨before, after, String.append_assoc.symm⟩

theorem Names.append {message component : String} (h : Names message component) (rest : String) :
    Names (message ++ rest) component := by
  obtain ⟨before, after, rfl⟩ := h
  exact ⟨before, after ++ rest, String.append_assoc⟩

theorem message_names (p : Problem) (component : String) : Names (p.message component) component := by
  cases p with
  | missing params =>
    have h := names_quoted "The component " component " is missing required type arguments. "
    exact ((h.append _).append _).append _
  | underspecified params =>
    have h := names_quoted "The type of component " component " cannot be inferred based on the values provided. "
    exact ((h.append _).append _).append _
  | conflict c =>
    have h := names_quoted ("The type argument '" ++ c.param ++ "' of component ") component " was inferred as both '"
    have hHead : "The type argument '" ++ c.param ++ "' of component '" =
        "The type argument '" ++ c.param ++ "' of component " ++ "'" := by
      simp only [String.append_assoc]
      rfl
    rw [← hHead] at h
    exact (((((h.append _).append _).append _).append _).append _).append _

end Problem

namespace Resolution

theorem diagnostic?_isSome (r : Resolution) : r.diagnostic?.isSome = r.outcome.isFailure := by
  rw [diagnostic?]
  cases r.outcome <;> rfl

theorem diagnostic?_eq_some_iff {r : Resolution} {diagnostic : Diagnostic} :
    r.diagnostic? = some diagnostic ↔
      r.outcome = .failed diagnostic.problem ∧ diagnostic.component = r.component ∧ diagnostic.span = r.span := by
  obtain ⟨component, span, args, outcome⟩ := r
  obtain ⟨problem, component', span'⟩ := diagnostic
  cases outcome <;> simp [diagnostic?, eq_comm]

theorem filterMap_diagnostic?_sorted {sites : List Resolution}
    (h : (sites.map fun r => r.span.start).Pairwise (· < ·)) :
    (sites.filterMap diagnostic?).Pairwise fun a b => decide (a.span.start ≤ b.span.start) = true := by
  rw [List.pairwise_map] at h
  rw [List.pairwise_filterMap]
  apply h.imp
  intro r r' hLess a ha b hb
  rw [(diagnostic?_eq_some_iff.mp ha).2.2, (diagnostic?_eq_some_iff.mp hb).2.2]
  exact decide_eq_true (Nat.le_of_lt hLess)

end Resolution

theorem Declarations.read_eq_ok_iff {ds ds' : Declarations} {origin : Origin} {source : String} {d : Document} :
    ds.read origin source = .ok (d, ds') ↔ Document.parse source = .ok d ∧ ds.add d = .ok ds' := by
  rw [read]
  cases Document.parse source with
  | error errors => simp
  | ok d₀ =>
    cases hAdd : ds.add d₀ with
    | error e =>
      simp only [hAdd, reduceCtorEq, Except.ok.injEq, false_iff, not_and]
      rintro rfl
      simp [hAdd]
    | ok ds₀ =>
      simp only [hAdd, Except.ok.injEq, Prod.mk.injEq]
      constructor
      · rintro ⟨rfl, rfl⟩
        exact ⟨rfl, hAdd⟩
      · rintro ⟨rfl, hSame⟩
        exact ⟨rfl, Except.ok.inj (hAdd.symm.trans hSame)⟩

theorem Declarations.parse_of_read {ds ds' : Declarations} {origin : Origin} {source : String} {d : Document}
    (h : ds.read origin source = .ok (d, ds')) : Document.parse source = .ok d := (read_eq_ok_iff.mp h).1

theorem compile_eq_ok_iff {template : String} {components : List String} {style : ListingStyle}
    {out : Compilation} :
    compile template components style = .ok out ↔ ∃ before d ds,
      Declarations.empty.readAll 0 components = .ok before ∧ before.read .template template = .ok (d, ds) ∧
        out = d.compile ds style := by
  rw [compile]
  cases Declarations.empty.readAll 0 components with
  | error e => simp
  | ok before =>
    cases hRead : before.read .template template with
    | error e => simp [hRead]
    | ok read =>
      obtain ⟨d, ds⟩ := read
      constructor
      · intro h
        refine ⟨before, d, ds, rfl, hRead, ?_⟩
        simp only [hRead] at h
        exact (Except.ok.inj h).symm
      · rintro ⟨_, d', ds', ⟨⟩, hRead', rfl⟩
        cases hRead.symm.trans hRead'
        simp only [hRead]

/-- Sorting by position leaves the diagnostics in the order of the sites. -/
theorem Document.compile_diagnostics {source : String} {d : Document} (h : parse source = .ok d)
    (ds : Declarations) (style : ListingStyle) :
    (d.compile ds style).diagnostics = (d.compile ds style).resolutions.filterMap Resolution.diagnostic? :=
  List.mergeSort_of_pairwise (Resolution.filterMap_diagnostic?_sorted (parse_sites_increasing h))

/-- The resolutions of a compilation are those of the registered elements of the template, each once and
one behind another; the diagnostics are those of the sites that fail, each once and in the same order. -/
theorem compile_reports_sites {template : String} {components : List String} {style : ListingStyle}
    {out : Compilation} (h : compile template components style = .ok out) :
    ∃ (d : Document) (before ds : Declarations),
      Declarations.empty.readAll 0 components = .ok before ∧
      before.read .template template = .ok (d, ds) ∧
      Document.parse template = .ok d ∧
      List.Forall₂
        (fun tag r => ∃ c, ds.registry.get? tag.name.value = some c ∧
          r = c.resolve tag.attributes tag.span ds.scope ∧ r.component = tag.name.value ∧ r.span = tag.span)
        (d.tags.filter fun tag => ds.registry.contains tag.name.value) out.resolutions ∧
      (out.resolutions.map fun r => r.span.start).Pairwise (· < ·) ∧
      out.diagnostics = out.resolutions.filterMap Resolution.diagnostic? ∧
      List.Forall₂
        (fun r diagnostic => r.outcome = .failed diagnostic.problem ∧ diagnostic.component = r.component ∧
          diagnostic.span = r.span ∧ Problem.Names diagnostic.message r.component)
        (out.resolutions.filter fun r => r.outcome.isFailure) out.diagnostics := by
  obtain ⟨before, d, ds, hAll, hRead, rfl⟩ := compile_eq_ok_iff.mp h
  have hParse := Declarations.parse_of_read hRead
  have hDiagnostics := Document.compile_diagnostics hParse ds style
  refine ⟨d, before, ds, hAll, hRead, hParse, ?_, Document.parse_sites_increasing hParse, hDiagnostics, ?_⟩
  · change List.Forall₂ _ _ (d.resolutions ds.registry ds.scope)
    rw [Document.resolutions_eq_filterMap_tags]
    simp only [← @Tag.resolution?_isSome ds.registry ds.scope]
    apply (forall₂_filter_filterMap _ d.tags).imp
    intro tag r hResolution
    obtain ⟨c, hGet, rfl⟩ := Tag.resolution?_eq_some_iff.mp hResolution
    exact ⟨c, hGet, rfl, Registry.name_of_get?_eq_some hGet, rfl⟩
  · rw [hDiagnostics]
    simp only [← Resolution.diagnostic?_isSome]
    apply (forall₂_filter_filterMap _ _).imp
    intro r diagnostic hSome
    obtain ⟨hOutcome, hComponent, hSpan⟩ := Resolution.diagnostic?_eq_some_iff.mp hSome
    refine ⟨hOutcome, hComponent, hSpan, ?_⟩
    rw [← hComponent]
    exact diagnostic.problem.message_names diagnostic.component

/-- A site that fails around one that does not. -/
def nestedTemplate : String := "component Box<T> \x7b param Value: T \x7d <p><Box><Box Value=1/></Box></p>"

theorem compile_reports_nested_sites : ∃ out, compile nestedTemplate [] .standard = .ok out ∧
    (out.resolutions.length, out.diagnostics.length) = (2, 1) ∧
    (out.resolutions.map fun r => r.span.start).Pairwise (· < ·) ∧
    out.diagnostics = out.resolutions.filterMap Resolution.diagnostic? := by
  have hLengths : ((compile nestedTemplate [] .standard).toOption.map fun out =>
      (out.resolutions.length, out.diagnostics.length)) = some (2, 1) := by decide +kernel
  cases h : compile nestedTemplate [] .standard with
  | error e =>
    rw [h] at hLengths
    cases hLengths
  | ok out =>
    rw [h] at hLengths
    obtain ⟨d, before, ds, -, -, -, -, hStarts, hDiagnostics, -⟩ := compile_reports_sites h
    exact ⟨out, rfl, Option.some.inj hLengths, hStarts, hDiagnostics⟩

end TypedMarkup
