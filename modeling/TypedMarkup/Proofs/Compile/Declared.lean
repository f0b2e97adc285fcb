import TypedMarkup.Compile
import TypedMarkup.Proofs.Component.Declaring
import TypedMarkup.Proofs.Compile.Places

/-! # What sources declare together

Documents are compatible if no name is declared twice in them. Sources are read as long as they are compatible
documents, and then all that they declare is known; otherwise a compilation ends at the first that is no document
or repeats a name.
-/
namespace TypedMarkup
set_option autoImplicit false

namespace Document

/-- The source writes the document. -/
def Reads (source : String) (d : Document) : Prop := parse source = .ok d

instance (source : String) (d : Document) : Decidable (Reads source d) :=
  inferInstanceAs (Decidable (parse source = .ok d))

def allComponents (docs : List Document) : List ComponentDecl := docs.flatMap components

def allBindings (docs : List Document) : List BindingDecl := docs.flatMap bindings

theorem allComponents_concat (docs : List Document) (d : Document) :
    allComponents (docs ++ [d]) = allComponents docs ++ d.components := by
  simp [allComponents]

theorem allBindings_concat (docs : List Document) (d : Document) :
    allBindings (docs ++ [d]) = allBindings docs ++ d.bindings := by
  simp [allBindings]

/-- No component repeats a type parameter or a parameter, and no two components and no two bindings in the
documents have one name. -/
structure Compatible (docs : List Document) : Prop where
  distinct : ∀ decl ∈ allComponents docs, decl.Distinct
  components : ((allComponents docs).map fun decl => decl.name.value).Nodup
  bindings : ((allBindings docs).map fun decl => decl.name.value).Nodup

theorem Compatible.nil : Compatible [] := ⟨nofun, List.nodup_nil, List.nodup_nil⟩

end Document

open Document

namespace DeclarationError

def repeated : DeclarationError → String
  | component n _ => n
  | typeParam _ n _ => n
  | param _ n _ => n
  | binding n _ => n

/-- The error is at a declaration of the document that repeats a name behind others, those of earlier documents
and those before it in the document. -/
inductive Repeats (earlier : List Document) (d : Document) (e : DeclarationError) : Prop
  | component {before after : List ComponentDecl} {decl : ComponentDecl}
      (hSplit : d.components = before ++ decl :: after)
      (h : decl.Repeats ((allComponents earlier ++ before).map fun decl => decl.name.value) e)
  | binding {before after : List BindingDecl} {decl : BindingDecl} (hSplit : d.bindings = before ++ decl :: after)
      (h : decl.Repeats ((allBindings earlier ++ before).map fun decl => decl.name.value) e)

end DeclarationError

theorem ComponentDecl.Repeats.exists_declared {names : List String} {decl : ComponentDecl} {e : DeclarationError}
    (h : decl.Repeats names e) : ∃ i ∈ decl.declared, e.span = i.span ∧ e.repeated = i.value := by
  cases h with
  | component => exact ⟨decl.name, List.mem_cons_self, rfl, rfl⟩
  | typeParam hSplit => exact ⟨_, by simp [declared, hSplit], rfl, rfl⟩
  | @param _ _ p hSplit => exact ⟨p.name, by simp [declared, hSplit], rfl, rfl⟩

theorem not_nodup_of_mem_before {α : Type} {before after : List α} {a : α} (h : a ∈ before) :
    ¬ (before ++ a :: after).Nodup := by
  intro hNodup
  exact (List.nodup_append.mp hNodup).2.2 a h a List.mem_cons_self rfl

theorem ComponentDecl.Repeats.not_distinct {names : List String} {decl : ComponentDecl} {e : DeclarationError}
    (h : decl.Repeats names e) (hNew : decl.name.value ∉ names) : ¬ decl.Distinct := by
  intro hDistinct
  cases h with
  | component hName => exact hNew hName
  | typeParam hSplit hMem =>
    have hNodup := hDistinct.typeParams
    rw [hSplit, List.map_append, List.map_cons] at hNodup
    exact not_nodup_of_mem_before hMem hNodup
  | param hSplit hMem =>
    have hNodup := hDistinct.params
    rw [hSplit, List.map_append, List.map_cons] at hNodup
    exact not_nodup_of_mem_before hMem hNodup

theorem DeclarationError.Repeats.not_compatible {earlier : List Document} {d : Document} {e : DeclarationError}
    (h : e.Repeats earlier d) : ¬ Compatible (earlier ++ [d]) := by
  rintro ⟨hDistinct, hComponents, hBindings⟩
  cases h with
  | @component before after decl hSplit h =>
    rw [allComponents_concat, hSplit, ← List.append_assoc] at hDistinct hComponents
    refine h.not_distinct ?_ (hDistinct decl (by simp))
    intro hMem
    rw [List.map_append, List.map_cons] at hComponents
    exact not_nodup_of_mem_before hMem hComponents
  | @binding before after decl hSplit h =>
    rw [allBindings_concat, hSplit, ← List.append_assoc, List.map_append, List.map_cons] at hBindings
    cases h with
    | binding hMem => exact not_nodup_of_mem_before hMem hBindings

/-- In the source of the document the error is at the name that is repeated. -/
theorem DeclarationError.Repeats.holds {earlier : List Document} {source : String} {d : Document}
    {e : DeclarationError} (h : e.Repeats earlier d) (hParse : parse source = .ok d) :
    e.span.Holds source e.repeated := by
  have hPlaced := (parse_eq_ok_iff_placed.mp hParse).1
  cases h with
  | @component before after decl hSplit h =>
    obtain ⟨i, hi, hSpan, hName⟩ := h.exists_declared
    rw [hSpan, hName]
    exact Token.holds_of_mem_scan (hPlaced.token_mem_component (by simp [hSplit]) hi)
  | @binding before after decl hSplit h =>
    cases h with
    | binding => exact Token.holds_of_mem_scan (hPlaced.token_mem_binding (by simp [hSplit]))

/-- A source ends the compilation that has read these documents before. -/
inductive CompileError.EndsAt (earlier : List Document) (origin : Origin) (source : String) : CompileError → Prop
  | malformed {errors : List SyntaxError} (h : parse source = .error errors) :
      EndsAt earlier origin source (.malformed origin errors)
  | declaration {d : Document} {e : DeclarationError} (hReads : Reads source d) (h : e.Repeats earlier d) :
      EndsAt earlier origin source (.declaration origin e)

theorem CompileError.EndsAt.origin_eq {earlier : List Document} {origin : Origin} {source : String} {e : CompileError}
    (h : e.EndsAt earlier origin source) : e.origin = origin := by
  cases h <;> rfl

namespace Declarations

/-- All that documents declare. -/
def ofDocuments (docs : List Document) : Declarations :=
  ⟨Registry.empty.extend (allComponents docs), Scope.empty.extend (allBindings docs)⟩

theorem names_ofDocuments (docs : List Document) :
    (ofDocuments docs).registry.components.map Component.name =
      (allComponents docs).map fun decl => decl.name.value :=
  Registry.map_name_extend .empty (allComponents docs)

theorem boundNames_ofDocuments (docs : List Document) :
    (ofDocuments docs).scope.bindings.map Prod.fst = (allBindings docs).map fun decl => decl.name.value :=
  Scope.map_fst_extend .empty (allBindings docs)

theorem extend_ofDocuments (docs : List Document) (d : Document) :
    ofDocuments (docs ++ [d]) =
      ⟨(ofDocuments docs).registry.extend d.components, (ofDocuments docs).scope.extend d.bindings⟩ := by
  rw [ofDocuments, allComponents_concat, allBindings_concat, ofDocuments, Registry.extend_extend,
    Scope.extend_extend]

section Reading

variable {docs : List Document} (h : Compatible docs)
include h

/-- A document is added whole if it is compatible with those before it, and refused otherwise. -/
theorem add_cases (d : Document) :
    (Compatible (docs ++ [d]) ∧ (ofDocuments docs).add d = .ok (ofDocuments (docs ++ [d]))) ∨
      ∃ e, (ofDocuments docs).add d = .error e ∧ e.Repeats docs d := by
  have hRegistry : (ofDocuments docs).registry.Unique := by
    rw [Registry.Unique, names_ofDocuments]
    exact h.components
  have hScope : (ofDocuments docs).scope.Unique := by
    rw [Scope.Unique, boundNames_ofDocuments]
    exact h.bindings
  rw [add, extend_ofDocuments]
  rcases Registry.collect_cases hRegistry d.components with
    ⟨hDistinct, hUnique, hCollect⟩ | ⟨before, decl, after, e, hSplit, hCollect, hRepeats⟩
  · rw [hCollect]
    dsimp only
    rcases Scope.collect_cases hScope d.bindings with
      ⟨hUnique', hCollect'⟩ | ⟨before, decl, after, e, hSplit, hCollect', hRepeats⟩
    · rw [hCollect']
      rw [Registry.Unique, Registry.map_name_extend, names_ofDocuments] at hUnique
      rw [Scope.Unique, Scope.map_fst_extend, boundNames_ofDocuments] at hUnique'
      refine .inl ⟨⟨?_, ?_, ?_⟩, rfl⟩
      · rw [allComponents_concat]
        exact List.forall_mem_append.mpr ⟨h.distinct, hDistinct⟩
      · rwa [allComponents_concat, List.map_append]
      · rwa [allBindings_concat, List.map_append]
    · rw [hCollect']
      rw [Scope.map_fst_extend, boundNames_ofDocuments, ← List.map_append] at hRepeats
      exact .inr ⟨e, rfl, .binding hSplit hRepeats⟩
  · rw [hCollect]
    rw [Registry.map_name_extend, names_ofDocuments, ← List.map_append] at hRepeats
    exact .inr ⟨e, rfl, .component hSplit hRepeats⟩

theorem read_cases (origin : Origin) (source : String) :
    (∃ d, Reads source d ∧ Compatible (docs ++ [d]) ∧
        (ofDocuments docs).read origin source = .ok (d, ofDocuments (docs ++ [d]))) ∨
      ∃ e, (ofDocuments docs).read origin source = .error e ∧ e.EndsAt docs origin source := by
  rw [read]
  cases hParse : parse source with
  | error errors => exact .inr ⟨_, rfl, .malformed hParse⟩
  | ok d =>
    rcases add_cases h d with ⟨hCompatible, hAdd⟩ | ⟨e, hAdd, hRepeats⟩
    · exact .inl ⟨d, hParse, hCompatible, by simp only [hAdd]⟩
    · exact .inr ⟨.declaration origin e, by simp only [hAdd], .declaration hParse hRepeats⟩

end Reading

/-- Sources are read one behind another up to the first that ends the compilation. -/
theorem readAll_cases {docs : List Document} (h : Compatible docs) (sources : List String) (index : Nat) :
    (∃ own, List.Forall₂ Reads sources own ∧ Compatible (docs ++ own) ∧
        (ofDocuments docs).readAll index sources = .ok (ofDocuments (docs ++ own))) ∨
      ∃ before source after own e, sources = before ++ source :: after ∧ List.Forall₂ Reads before own ∧
        Compatible (docs ++ own) ∧ (ofDocuments docs).readAll index sources = .error e ∧
        e.EndsAt (docs ++ own) (.components (index + before.length)) source := by
  induction sources generalizing docs index with
  | nil => exact .inl ⟨[], .nil, by simpa using h, by simp [readAll]⟩
  | cons source rest ih =>
    rw [readAll]
    rcases read_cases h (.components index) source with ⟨d, hReads, hCompatible, hRead⟩ | ⟨e, hRead, hEnds⟩
    · -- The document goes to those read before, and the sources behind it are counted from the next index.
      rw [hRead]
      dsimp only
      rcases ih hCompatible (index + 1) with
        ⟨own, hOwn, hAll, hRest⟩ | ⟨before, source', after, own, e, rfl, hOwn, hAll, hRest, hEnds⟩
      · rw [List.append_assoc, List.singleton_append] at hAll hRest
        exact .inl ⟨d :: own, .cons hReads hOwn, hAll, hRest⟩
      · rw [List.append_assoc, List.singleton_append] at hAll hEnds
        have hIndex : index + 1 + before.length = index + (source :: before).length := by
          rw [List.length_cons]
          omega
        rw [hIndex] at hEnds
        exact .inr ⟨source :: before, source', after, d :: own, e, rfl, .cons hReads hOwn, hAll, hRest, hEnds⟩
    · rw [hRead]
      exact .inr ⟨[], source, rest, [], e, rfl, .nil, by simpa using h, rfl, by simpa using hEnds⟩

end Declarations

/-- The sources that are read before the one meant. -/
def Origin.earlier (components : List String) : Origin → List String
  | .template => components
  | .components index => components.take index

/-- A compilation of compatible documents succeeds with all that they declare; another one ends at a source
behind compatible documents. -/
theorem compile_cases (template : String) (components : List String) (style : ListingStyle) :
    (∃ docs d, List.Forall₂ Reads components docs ∧ Reads template d ∧ Compatible (docs ++ [d]) ∧
        compile template components style = .ok (d.compile (.ofDocuments (docs ++ [d])) style)) ∨
      ∃ e source docs, compile template components style = .error e ∧
        e.origin.source? template components = some source ∧
        List.Forall₂ Reads (e.origin.earlier components) docs ∧ Compatible docs ∧
        e.EndsAt docs e.origin source := by
  have hEmpty : Declarations.empty = .ofDocuments [] := rfl
  rw [compile, hEmpty]
  rcases Declarations.readAll_cases .nil components 0 with
    ⟨docs, hDocs, hCompatible, hAll⟩ | ⟨before, source, after, docs, e, rfl, hDocs, hCompatible, hAll, hEnds⟩
  · rw [List.nil_append] at hCompatible hAll
    rw [hAll]
    dsimp only
    rcases Declarations.read_cases hCompatible .template template with
      ⟨d, hReads, hCompatible', hRead⟩ | ⟨e, hRead, hEnds⟩
    · rw [hRead]
      exact .inl ⟨docs, d, hDocs, hReads, hCompatible', rfl⟩
    · rw [hRead]
      have hOrigin := hEnds.origin_eq
      refine .inr ⟨e, template, docs, rfl, ?_⟩
      rw [hOrigin]
      exact ⟨rfl, hDocs, hCompatible, hEnds⟩
  · rw [List.nil_append] at hCompatible hEnds
    rw [hAll]
    have hOrigin := hEnds.origin_eq
    rw [Nat.zero_add] at hOrigin hEnds
    refine .inr ⟨e, source, docs, rfl, ?_⟩
    rw [hOrigin]
    have hEarlier : (Origin.components before.length).earlier (before ++ source :: after) = before := by
      simp [Origin.earlier]
    rw [hEarlier]
    exact ⟨by simp [Origin.source?], hDocs, hCompatible, hEnds⟩

end TypedMarkup
