import TypedMarkup.Component.Registry

/-! # Declaring names

A declaration that repeats no name is accepted and adds what it says. Of declarations taken in order all are
added, or those before the first that repeats a name; the error is then at the name repeated.
-/
namespace TypedMarkup
set_option autoImplicit false

theorem exists_of_firstRepeated? {seen : List String} {names : List Identifier} {i : Identifier}
    (h : firstRepeated? seen names = some i) :
    ∃ before after, names = before ++ i :: after ∧ (i.value ∈ seen ∨ i.value ∈ before.map Located.value) := by
  induction names generalizing seen with
  | nil => cases h
  | cons j rest ih =>
    rw [firstRepeated?] at h
    split at h
    case isTrue hSeen =>
      cases h
      exact ⟨[], rest, rfl, .inl hSeen⟩
    case isFalse =>
      obtain ⟨before, after, rfl, hEarlier⟩ := ih h
      refine ⟨j :: before, after, rfl, ?_⟩
      rcases hEarlier with hSeen | hBefore
      · rcases List.mem_cons.mp hSeen with hEq | hSeen
        · exact .inr (by simp [hEq])
        · exact .inl hSeen
      · exact .inr (List.mem_cons_of_mem _ hBefore)

namespace ComponentDecl

/-- No type parameter is repeated, and no parameter. -/
structure Distinct (decl : ComponentDecl) : Prop where
  typeParams : (decl.typeParams.map Located.value).Nodup
  params : (decl.params.map fun p => p.name.value).Nodup

instance (decl : ComponentDecl) : Decidable decl.Distinct :=
  decidable_of_iff ((decl.typeParams.map Located.value).Nodup ∧ (decl.params.map fun p => p.name.value).Nodup)
    ⟨fun h => ⟨h.1, h.2⟩, fun h => ⟨h.typeParams, h.params⟩⟩

/-- The component that the declaration defines if it repeats no name. -/
def defined (decl : ComponentDecl) : Component where
  name := decl.name.value
  typeParams := decl.typeParams.map Located.value
  params := decl.params.map fun p => ⟨p.name.value, p.type.value⟩
  span := decl.span

/-- The error is a repetition in the declaration: of the name of a component declared before, of one of its
own type parameters or of one of its own parameters. -/
inductive Repeats (names : List String) (decl : ComponentDecl) : DeclarationError → Prop
  | component (h : decl.name.value ∈ names) : Repeats names decl (.component decl.name.value decl.name.span)
  | typeParam {before after : List Identifier} {i : Identifier} (hSplit : decl.typeParams = before ++ i :: after)
      (h : i.value ∈ before.map Located.value) : Repeats names decl (.typeParam decl.name.value i.value i.span)
  | param {before after : List ParamDecl} {p : ParamDecl} (hSplit : decl.params = before ++ p :: after)
      (h : p.name.value ∈ before.map fun q => q.name.value) :
      Repeats names decl (.param decl.name.value p.name.value p.name.span)

end ComponentDecl

/-- A declaration defines its component, or repeats a name whatever was declared before. -/
theorem Component.ofDecl_cases (decl : ComponentDecl) :
    (decl.Distinct ∧ ofDecl decl = .ok decl.defined) ∨
      ∃ e, ofDecl decl = .error e ∧ ∀ names, decl.Repeats names e := by
  rw [ofDecl]
  cases hTypeParams : firstRepeated? [] decl.typeParams with
  | some i =>
    obtain ⟨before, after, hSplit, hEarlier⟩ := exists_of_firstRepeated? hTypeParams
    exact .inr ⟨_, rfl, fun names => .typeParam hSplit (hEarlier.resolve_left List.not_mem_nil)⟩
  | none =>
    cases hParams : firstRepeated? [] (decl.params.map ParamDecl.name) with
    | some i =>
      obtain ⟨_, _, hSplit, hEarlier⟩ := exists_of_firstRepeated? hParams
      obtain ⟨before, _, hDecls, rfl, hRest⟩ := List.map_eq_append_iff.mp hSplit
      obtain ⟨p, after, rfl, rfl, -⟩ := List.map_eq_cons_iff.mp hRest
      have hBefore := hEarlier.resolve_left List.not_mem_nil
      rw [List.map_map] at hBefore
      exact .inr ⟨_, rfl, fun names => .param hDecls hBefore⟩
    | none =>
      have hFirst := (firstRepeated?_eq_none_iff.mp hTypeParams).1
      have hSecond := (firstRepeated?_eq_none_iff.mp hParams).1
      rw [List.map_map] at hSecond
      exact .inl ⟨⟨hFirst, hSecond⟩, rfl⟩

namespace Registry

/-- No two components have one name. -/
def Unique (r : Registry) : Prop := (r.components.map Component.name).Nodup

/-- The registry with what declarations define behind what it has. -/
def extend (r : Registry) (decls : List ComponentDecl) : Registry :=
  ⟨r.components ++ decls.map ComponentDecl.defined⟩

theorem extend_extend (r : Registry) (decls decls' : List ComponentDecl) :
    (r.extend decls).extend decls' = r.extend (decls ++ decls') := by
  simp [extend]

theorem map_name_extend (r : Registry) (decls : List ComponentDecl) :
    (r.extend decls).components.map Component.name =
      r.components.map Component.name ++ decls.map fun decl => decl.name.value := by
  rw [extend, List.map_append, List.map_map]
  rfl

theorem declare_cases {r : Registry} (hUnique : r.Unique) (decl : ComponentDecl) :
    (decl.Distinct ∧ (r.extend [decl]).Unique ∧ r.declare decl = .ok (r.extend [decl])) ∨
      ∃ e, r.declare decl = .error e ∧ decl.Repeats (r.components.map Component.name) e := by
  rw [declare]
  rcases Component.ofDecl_cases decl with ⟨hDistinct, hOf⟩ | ⟨e, hOf, hRepeats⟩
  · rw [hOf]
    dsimp only
    split
    case isTrue hContains =>
      exact .inr ⟨_, rfl, .component (contains_eq_true_iff.mp hContains)⟩
    case isFalse hContains =>
      rw [contains_eq_true_iff] at hContains
      refine .inl ⟨hDistinct, ?_, rfl⟩
      rw [Unique, map_name_extend]
      exact (List.perm_append_singleton _ _).nodup_iff.mpr (List.nodup_cons.mpr ⟨hContains, hUnique⟩)
  · rw [hOf]
    exact .inr ⟨e, rfl, hRepeats _⟩

theorem collect_cases {r : Registry} (hUnique : r.Unique) (decls : List ComponentDecl) :
    ((∀ decl ∈ decls, decl.Distinct) ∧ (r.extend decls).Unique ∧ r.collect decls = (r.extend decls, none)) ∨
      ∃ before decl after e, decls = before ++ decl :: after ∧ r.collect decls = (r.extend before, some e) ∧
        decl.Repeats ((r.extend before).components.map Component.name) e := by
  induction decls generalizing r with
  | nil =>
    have hSame : r.extend [] = r := by simp [extend]
    rw [hSame]
    exact .inl ⟨nofun, hUnique, rfl⟩
  | cons decl rest ih =>
    rw [collect]
    rcases declare_cases hUnique decl with ⟨hDistinct, hUnique', hDeclare⟩ | ⟨e, hDeclare, hRepeats⟩
    · -- What this declaration adds stands before what the others add, also if one of them is refused.
      rw [hDeclare]
      rcases ih hUnique' with ⟨hAll, hUnique'', hCollect⟩ | ⟨before, decl', after, e, rfl, hCollect, hRepeats⟩
      · rw [extend_extend] at hUnique'' hCollect
        exact .inl ⟨List.forall_mem_cons.mpr ⟨hDistinct, hAll⟩, hUnique'', hCollect⟩
      · rw [extend_extend] at hCollect hRepeats
        exact .inr ⟨decl :: before, decl', after, e, rfl, hCollect, hRepeats⟩
    · rw [hDeclare]
      refine .inr ⟨[], decl, rest, e, rfl, ?_, ?_⟩
      · simp [extend]
      · simpa [extend] using hRepeats

end Registry

/-- The name with its type. -/
def BindingDecl.entry (decl : BindingDecl) : String × TypeExpr := (decl.name.value, decl.type.value)

/-- The error is the repetition of the name of a binding declared before. -/
inductive BindingDecl.Repeats (names : List String) (decl : BindingDecl) : DeclarationError → Prop
  | binding (h : decl.name.value ∈ names) : Repeats names decl (.binding decl.name.value decl.name.span)

namespace Scope

/-- No two bindings have one name. -/
def Unique (s : Scope) : Prop := (s.bindings.map Prod.fst).Nodup

/-- The scope with further bindings behind those it has. -/
def extend (s : Scope) (decls : List BindingDecl) : Scope := ⟨s.bindings ++ decls.map BindingDecl.entry⟩

theorem extend_extend (s : Scope) (decls decls' : List BindingDecl) :
    (s.extend decls).extend decls' = s.extend (decls ++ decls') := by
  simp [extend]

theorem map_fst_extend (s : Scope) (decls : List BindingDecl) :
    (s.extend decls).bindings.map Prod.fst = s.bindings.map Prod.fst ++ decls.map fun decl => decl.name.value := by
  rw [extend, List.map_append, List.map_map]
  rfl

theorem isSome_get?_iff {s : Scope} {name : String} : (s.get? name).isSome = true ↔ name ∈ s.bindings.map Prod.fst := by
  rw [get?, List.lookup_isSome_iff, List.mem_map]
  constructor
  · rintro ⟨b, hb, hName⟩
    exact ⟨b, hb, (beq_iff_eq.mp hName).symm⟩
  · rintro ⟨b, hb, rfl⟩
    exact ⟨b, hb, beq_self_eq_true _⟩

theorem declare_cases {s : Scope} (hUnique : s.Unique) (decl : BindingDecl) :
    ((s.extend [decl]).Unique ∧ s.declare decl = .ok (s.extend [decl])) ∨
      ∃ e, s.declare decl = .error e ∧ decl.Repeats (s.bindings.map Prod.fst) e := by
  rw [declare]
  split
  case isTrue hKnown => exact .inr ⟨_, rfl, .binding (isSome_get?_iff.mp hKnown)⟩
  case isFalse hKnown =>
    rw [isSome_get?_iff] at hKnown
    refine .inl ⟨?_, rfl⟩
    rw [Unique, map_fst_extend]
    exact (List.perm_append_singleton _ _).nodup_iff.mpr (List.nodup_cons.mpr ⟨hKnown, hUnique⟩)

theorem collect_cases {s : Scope} (hUnique : s.Unique) (decls : List BindingDecl) :
    ((s.extend decls).Unique ∧ s.collect decls = (s.extend decls, none)) ∨
      ∃ before decl after e, decls = before ++ decl :: after ∧ s.collect decls = (s.extend before, some e) ∧
        decl.Repeats ((s.extend before).bindings.map Prod.fst) e := by
  induction decls generalizing s with
  | nil =>
    have hSame : s.extend [] = s := by simp [extend]
    rw [hSame]
    exact .inl ⟨hUnique, rfl⟩
  | cons decl rest ih =>
    rw [collect]
    rcases declare_cases hUnique decl with ⟨hUnique', hDeclare⟩ | ⟨e, hDeclare, hRepeats⟩
    · rw [hDeclare]
      rcases ih hUnique' with ⟨hUnique'', hCollect⟩ | ⟨before, decl', after, e, rfl, hCollect, hRepeats⟩
      · rw [extend_extend] at hUnique'' hCollect
        exact .inl ⟨hUnique'', hCollect⟩
      · rw [extend_extend] at hCollect hRepeats
        exact .inr ⟨decl :: before, decl', after, e, rfl, hCollect, hRepeats⟩
    · rw [hDeclare]
      refine .inr ⟨[], decl, rest, e, rfl, ?_, ?_⟩
      · simp [extend]
      · simpa [extend] using hRepeats

end Scope
end TypedMarkup
