import Mathlib.Data.List.Flatten
import TypedMarkup.Proofs.Compile.Declared

/-! # When a compilation fails

A compilation fails just if a source is no document or a name is declared twice, whatever is found at usage sites.
It ends at the first source with which this is so, and the error stands there.
-/
namespace TypedMarkup
set_option autoImplicit false
open Document

/-- The documents among sources. -/
def documents (sources : List String) : List Document := sources.filterMap fun source => (parse source).toOption

/-- A source is no document, a component repeats a type parameter or a parameter, or two components or two
bindings anywhere in the sources have one name. -/
inductive Violates (sources : List String) : Prop
  | malformed {source : String} {errors : List SyntaxError} (h : source ∈ sources)
      (hParse : parse source = .error errors)
  | typeParam {decl : ComponentDecl} (h : decl ∈ allComponents (documents sources))
      (hRepeats : ¬ (decl.typeParams.map Located.value).Nodup)
  | param {decl : ComponentDecl} (h : decl ∈ allComponents (documents sources))
      (hRepeats : ¬ (decl.params.map fun p => p.name.value).Nodup)
  | component (h : ¬ ((allComponents (documents sources)).map fun decl => decl.name.value).Nodup)
  | binding (h : ¬ ((allBindings (documents sources)).map fun decl => decl.name.value).Nodup)

theorem documents_eq_of_reads {sources : List String} {docs : List Document} (h : List.Forall₂ Reads sources docs) :
    documents sources = docs := by
  induction h with
  | nil => rfl
  | cons hHead _ ih =>
    rw [documents, List.filterMap_cons_some (by rw [hHead]; rfl)]
    exact congrArg _ ih

theorem exists_reads_of_forall_mem {sources : List String} (h : ∀ source ∈ sources, ∃ d, Reads source d) :
    ∃ docs, List.Forall₂ Reads sources docs := by
  induction sources with
  | nil => exact ⟨[], .nil⟩
  | cons source rest ih =>
    obtain ⟨d, hHead⟩ := h source List.mem_cons_self
    obtain ⟨docs, hRest⟩ := ih fun source' hMem => h source' (List.mem_cons_of_mem _ hMem)
    exact ⟨d :: docs, .cons hHead hRest⟩

theorem exists_of_mem_left {α β : Type} {R : α → β → Prop} {as : List α} {bs : List β} (h : List.Forall₂ R as bs)
    {a : α} (ha : a ∈ as) : ∃ b, R a b := by
  induction h with
  | nil => cases ha
  | cons hHead _ ih =>
    rcases List.mem_cons.mp ha with rfl | ha
    · exact ⟨_, hHead⟩
    · exact ih ha

theorem not_violates_iff {sources : List String} :
    ¬ Violates sources ↔ ∃ docs, List.Forall₂ Reads sources docs ∧ Compatible docs := by
  constructor
  · intro h
    have hParses : ∀ source ∈ sources, ∃ d, Reads source d := by
      intro source hSource
      cases hParse : parse source with
      | ok d => exact ⟨d, hParse⟩
      | error errors => exact absurd (.malformed hSource hParse) h
    obtain ⟨docs, hReads⟩ := exists_reads_of_forall_mem hParses
    -- All sources are documents, so what is asked of the documents among them is asked of these.
    have hDocuments := documents_eq_of_reads hReads
    refine ⟨docs, hReads, ?_⟩
    rw [← hDocuments]
    constructor
    · intro decl hDecl
      constructor <;> by_contra hRepeats
      · exact h (.typeParam hDecl hRepeats)
      · exact h (.param hDecl hRepeats)
    · by_contra hShared
      exact h (.component hShared)
    · by_contra hShared
      exact h (.binding hShared)
  · rintro ⟨docs, hReads, hCompatible⟩ hViolates
    have hDocuments := documents_eq_of_reads hReads
    cases hViolates with
    | malformed hSource hParse =>
      obtain ⟨d, hOk⟩ := exists_of_mem_left hReads hSource
      cases hParse.symm.trans hOk
    | typeParam hDecl hRepeats => exact hRepeats (hCompatible.distinct _ (hDocuments ▸ hDecl)).typeParams
    | param hDecl hRepeats => exact hRepeats (hCompatible.distinct _ (hDocuments ▸ hDecl)).params
    | component hShared => exact hShared (hDocuments ▸ hCompatible.components)
    | binding hShared => exact hShared (hDocuments ▸ hCompatible.bindings)

/-- Further sources mend nothing. -/
theorem Violates.mono {sources sources' : List String} (hSub : sources.Sublist sources') (h : Violates sources) :
    Violates sources' := by
  have hDocuments : (documents sources).Sublist (documents sources') := hSub.filterMap _
  have hComponents : (allComponents (documents sources)).Sublist (allComponents (documents sources')) :=
    hDocuments.flatMap _
  have hBindings : (allBindings (documents sources)).Sublist (allBindings (documents sources')) :=
    hDocuments.flatMap _
  cases h with
  | malformed h hParse => exact .malformed (hSub.subset h) hParse
  | typeParam h hRepeats => exact .typeParam (hComponents.subset h) hRepeats
  | param h hRepeats => exact .param (hComponents.subset h) hRepeats
  | component h => exact .component fun hNodup => h (hNodup.sublist (hComponents.map _))
  | binding h => exact .binding fun hNodup => h (hNodup.sublist (hBindings.map _))

theorem CompileError.EndsAt.violates {sources : List String} {docs : List Document} {origin : Origin}
    {source : String} {e : CompileError} (h : e.EndsAt docs origin source) (hReads : List.Forall₂ Reads sources docs) :
    Violates (sources ++ [source]) := by
  cases h with
  | malformed hParse => exact .malformed (by simp) hParse
  | @declaration d _ hParse hRepeats =>
    by_contra hNot
    obtain ⟨docs', hReads', hCompatible⟩ := not_violates_iff.mp hNot
    have hBoth : List.Forall₂ Reads (sources ++ [source]) (docs ++ [d]) :=
      List.rel_append hReads (.cons hParse .nil)
    rw [← documents_eq_of_reads hReads', documents_eq_of_reads hBoth] at hCompatible
    exact hRepeats.not_compatible hCompatible

/-- Among the sources in the order in which they are read, those up to and including the one meant are first. -/
theorem Origin.earlier_prefix {template source : String} {components : List String} {origin : Origin}
    (h : origin.source? template components = some source) :
    origin.earlier components ++ [source] <+: components ++ [template] := by
  cases origin with
  | template =>
    cases h
    exact List.prefix_rfl
  | components index =>
    obtain ⟨hIndex, rfl⟩ := List.getElem?_eq_some_iff.mp h
    rw [earlier, List.take_append_getElem hIndex]
    exact (List.take_prefix _ _).trans (List.prefix_append _ _)

/-- The first sources that violate the rules are those up to and including the one with which they first do. -/
theorem violates_prefix_iff {earlier first sources : List String} {source : String} (hEarlier : ¬ Violates earlier)
    (hViolates : Violates (earlier ++ [source])) (hOwn : earlier ++ [source] <+: sources) (hFirst : first <+: sources) :
    Violates first ↔ earlier ++ [source] <+: first := by
  constructor
  · intro h
    rcases List.prefix_or_prefix_of_prefix hOwn hFirst with hLess | hLess
    · exact hLess
    · rcases List.prefix_concat_iff.mp hLess with rfl | hLess
      · exact List.prefix_rfl
      · exact absurd (h.mono hLess.sublist) hEarlier
  · intro h
    exact hViolates.mono h.sublist

/-- A compilation fails just if its sources violate the rules. It ends at the first source up to which they do, with
the errors of the source if it is no document, and else at a name in it that is repeated. -/
theorem compile_fails_iff_violates (template : String) (components : List String) (style : ListingStyle) :
    ((∃ e, compile template components style = .error e) ↔ Violates (components ++ [template])) ∧
      ∀ e, compile template components style = .error e →
        ∃ source, e.origin.source? template components = some source ∧
          (∀ first, first <+: components ++ [template] →
            (Violates first ↔ e.origin.earlier components ++ [source] <+: first)) ∧
          (∀ errors, e = .malformed e.origin errors ↔ parse source = .error errors) ∧
          (∀ error, e = .declaration e.origin error →
            error.span.Holds source error.repeated ∧
            ∃ d, parse source = .ok d ∧ error.Repeats (documents (e.origin.earlier components)) d) := by
  rcases compile_cases template components style with
    ⟨docs, d, hDocs, hReads, hCompatible, hCompile⟩ | ⟨e, source, docs, hCompile, hSource, hDocs, hCompatible, hEnds⟩
  · have hAll : List.Forall₂ Reads (components ++ [template]) (docs ++ [d]) :=
      List.rel_append hDocs (.cons hReads .nil)
    have hNot := not_violates_iff.mpr ⟨_, hAll, hCompatible⟩
    rw [hCompile]
    exact ⟨⟨nofun, fun h => absurd h hNot⟩, nofun⟩
  · have hOwn := Origin.earlier_prefix hSource
    have hViolates := hEnds.violates hDocs
    have hEarlier := not_violates_iff.mpr ⟨docs, hDocs, hCompatible⟩
    rw [hCompile]
    refine ⟨⟨fun _ => hViolates.mono hOwn.sublist, fun _ => ⟨e, rfl⟩⟩, ?_⟩
    rintro _ ⟨⟩
    refine ⟨source, hSource, fun first hFirst => violates_prefix_iff hEarlier hViolates hOwn hFirst, ?_, ?_⟩
    · intro errors
      generalize e.origin = origin at hEnds
      cases hEnds with
      | malformed hParse => simp [hParse, eq_comm]
      | declaration hReads _ => simp [show parse source = _ from hReads]
    · intro error hError
      rw [documents_eq_of_reads hDocs]
      generalize e.origin = origin at hEnds hError
      cases hEnds with
      | malformed => cases hError
      | declaration hReads hRepeats =>
        cases hError
        exact ⟨hRepeats.holds hReads, _, hReads, hRepeats⟩

/-- A component that repeats a type parameter, behind a binding that the template repeats. -/
def clashingSources : List String := ["let a: int", "component A<T, T> \x7b \x7d"]

theorem compile_fails_at_second_source :
    compile "let a: string" clashingSources .standard =
        .error (.declaration (.components 1) (.typeParam "A" "T" ⟨15, 16⟩)) ∧
      Span.Holds ⟨15, 16⟩ "component A<T, T> \x7b \x7d" "T" ∧
      ¬ Violates ["let a: int"] ∧ Violates clashingSources := by
  have hCompile : compile "let a: string" clashingSources .standard =
      .error (.declaration (.components 1) (.typeParam "A" "T" ⟨15, 16⟩)) := by
    decide +kernel
  obtain ⟨source, hSource, hFirst, -, hOwn⟩ :=
    (compile_fails_iff_violates "let a: string" clashingSources .standard).2 _ hCompile
  cases hSource
  refine ⟨hCompile, (hOwn _ rfl).1, ?_, ?_⟩
  · rw [hFirst _ ⟨["component A<T, T> \x7b \x7d", "let a: string"], rfl⟩]
    decide
  · rw [hFirst _ ⟨["let a: string"], rfl⟩]
    decide

end TypedMarkup
