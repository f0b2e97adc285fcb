import TypedMarkup.Proofs.Compile.Failures
import TypedMarkup.Proofs.Compile.Relocation
import TypedMarkup.Proofs.Inference.Order

/-! # Declarations in another order

A compilation depends on what is declared and not on where: in which of the sources a declaration stands, in which
order, and which markup stands around it in component sources, all that makes no difference.
-/
namespace TypedMarkup
set_option autoImplicit false
open Document

namespace ComponentDecl

theorem defined_moved (f : Nat → Nat) (decl : ComponentDecl) : (decl.moved f).defined = decl.defined.moved f := by
  rw [defined, moved, defined, Component.moved, Located.map_value_map_moved, List.map_map]
  rfl

theorem distinct_moved_iff (f : Nat → Nat) (decl : ComponentDecl) : (decl.moved f).Distinct ↔ decl.Distinct := by
  have hParams : ((decl.params.map (ParamDecl.moved f)).map fun p => p.name.value) =
      decl.params.map fun p => p.name.value := by
    rw [List.map_map]
    rfl
  constructor
  · rintro ⟨hTypeParams, hOwn⟩
    rw [moved] at hTypeParams hOwn
    exact ⟨Located.map_value_map_moved f decl.typeParams ▸ hTypeParams, hParams ▸ hOwn⟩
  · rintro ⟨hTypeParams, hOwn⟩
    exact ⟨(Located.map_value_map_moved f decl.typeParams).symm ▸ hTypeParams, hParams.symm ▸ hOwn⟩

end ComponentDecl

/-- The same declarations, each as often, but for their order and their spans. -/
structure SameDeclared (docs docs' : List Document) : Prop where
  components : ((allComponents docs).map (ComponentDecl.moved nowhere)).Perm
    ((allComponents docs').map (ComponentDecl.moved nowhere))
  bindings : ((allBindings docs).map (BindingDecl.moved nowhere)).Perm
    ((allBindings docs').map (BindingDecl.moved nowhere))

namespace SameDeclared

variable {docs docs' : List Document}

theorem symm (h : SameDeclared docs docs') : SameDeclared docs' docs := ⟨h.components.symm, h.bindings.symm⟩

theorem componentNames (h : SameDeclared docs docs') :
    ((allComponents docs).map fun decl => decl.name.value).Perm
      ((allComponents docs').map fun decl => decl.name.value) := by
  have hNames := h.components.map fun decl => decl.name.value
  rwa [List.map_map, List.map_map] at hNames

theorem bindingNames (h : SameDeclared docs docs') :
    ((allBindings docs).map fun decl => decl.name.value).Perm
      ((allBindings docs').map fun decl => decl.name.value) := by
  have hNames := h.bindings.map fun decl => decl.name.value
  rwa [List.map_map, List.map_map] at hNames

theorem compatible (h : SameDeclared docs docs') (hCompatible : Compatible docs) : Compatible docs' where
  distinct decl hDecl := by
    obtain ⟨decl', hDecl', hMoved⟩ := List.mem_map.mp (h.components.symm.subset (List.mem_map_of_mem hDecl))
    rw [← ComponentDecl.distinct_moved_iff nowhere, ← hMoved, ComponentDecl.distinct_moved_iff]
    exact hCompatible.distinct decl' hDecl'
  components := h.componentNames.nodup_iff.mp hCompatible.components
  bindings := h.bindingNames.nodup_iff.mp hCompatible.bindings

end SameDeclared

namespace Declarations

theorem map_moved_get? (docs : List Document) (name : String) :
    ((ofDocuments docs).registry.get? name).map (Component.moved nowhere) =
      (((allComponents docs).map (ComponentDecl.moved nowhere)).map ComponentDecl.defined).find? fun c =>
        c.name = name := by
  have hDefined : ((allComponents docs).map (ComponentDecl.moved nowhere)).map ComponentDecl.defined =
      (ofDocuments docs).registry.components.map (Component.moved nowhere) := by
    change _ = ((allComponents docs).map ComponentDecl.defined).map (Component.moved nowhere)
    rw [List.map_map, List.map_map]
    congr 1
    funext decl
    exact ComponentDecl.defined_moved nowhere decl
  rw [hDefined, List.find?_map]
  rfl

end Declarations

theorem Scope.get?_eq_find? (s : Scope) (name : String) :
    s.get? name = (s.bindings.find? fun b => b.1 = name).map Prod.snd := by
  rw [get?]
  induction s.bindings with
  | nil => rfl
  | cons b rest ih =>
    obtain ⟨key, type⟩ := b
    rw [List.lookup_cons, List.find?_cons, ih, BEq.comm]
    cases h : key == name <;> simp_all

/-- Compatible documents that declare the same mean the same. -/
theorem Declarations.alike_ofDocuments {docs docs' : List Document} (h : SameDeclared docs docs')
    (hCompatible : Compatible docs) : (ofDocuments docs).Alike (ofDocuments docs') where
  component name := by
    rw [map_moved_get?, map_moved_get?]
    apply find?_key_of_perm (h.components.map ComponentDecl.defined)
    have hNames := hCompatible.components
    rw [List.map_map, List.map_map]
    exact hNames
  binding name := by
    have hEntries := h.bindings.map BindingDecl.entry
    rw [List.map_map, List.map_map] at hEntries
    have hNames := hCompatible.bindings
    rw [Scope.get?_eq_find?, Scope.get?_eq_find?]
    congr 1
    apply find?_key_of_perm hEntries
    rw [List.map_map]
    exact hNames

/-- Documents compile just if they are compatible, to what they declare together. -/
theorem compile_eq_ok_iff_of_reads {template : String} {components : List String} {docs : List Document} {d : Document}
    (hDocs : List.Forall₂ Reads components docs) (hReads : Reads template d) {style : ListingStyle}
    {out : Compilation} :
    compile template components style = .ok out ↔
      Compatible (docs ++ [d]) ∧ out = d.compile (.ofDocuments (docs ++ [d])) style := by
  have hAll : List.Forall₂ Reads (components ++ [template]) (docs ++ [d]) := List.rel_append hDocs (.cons hReads .nil)
  rcases compile_cases template components style with
    ⟨docs', d', hDocs', hReads', hCompatible, hCompile⟩ | ⟨e, source, docs', hCompile, hSource, hDocs', -, hEnds⟩
  · have hSame : docs' = docs := (documents_eq_of_reads hDocs').symm.trans (documents_eq_of_reads hDocs)
    obtain rfl : d' = d := Except.ok.inj (hReads'.symm.trans hReads)
    subst hSame
    rw [hCompile]
    exact ⟨fun h => ⟨hCompatible, (Except.ok.inj h).symm⟩, fun h => congrArg Except.ok h.2.symm⟩
  · have hViolates := (hEnds.violates hDocs').mono (Origin.earlier_prefix hSource).sublist
    rw [hCompile]
    refine ⟨nofun, fun h => ?_⟩
    exact absurd hViolates (not_violates_iff.mpr ⟨_, hAll, h.1⟩)

section Anywhere

variable {template template' : String} {components components' : List String} {docs docs' : List Document}
  {d d' : Document}

/-- Two inputs whose templates have the same markup and which declare the same, in whichever sources and in whichever
order, compile both or not, and then to the same but for spans. -/
theorem compile_declared_anywhere (hDocs : List.Forall₂ Reads components docs) (hReads : Reads template d)
    (hDocs' : List.Forall₂ Reads components' docs') (hReads' : Reads template' d')
    (hMarkup : d.markup.map (Node.moved nowhere) = d'.markup.map (Node.moved nowhere))
    (hDeclared : SameDeclared (docs ++ [d]) (docs' ++ [d'])) (style : ListingStyle) :
    ((∃ out, compile template components style = .ok out) ↔
        ∃ out', compile template' components' style = .ok out') ∧
      ∀ out out', compile template components style = .ok out → compile template' components' style = .ok out' →
        out.SameButSpans out' := by
  simp only [compile_eq_ok_iff_of_reads hDocs hReads, compile_eq_ok_iff_of_reads hDocs' hReads']
  constructor
  · constructor
    · rintro ⟨_, hCompatible, -⟩
      exact ⟨_, hDeclared.compatible hCompatible, rfl⟩
    · rintro ⟨_, hCompatible, -⟩
      exact ⟨_, hDeclared.symm.compatible hCompatible, rfl⟩
  · rintro _ _ ⟨hCompatible, rfl⟩ ⟨-, rfl⟩
    exact compile_sameButSpans hReads hReads' hMarkup (Declarations.alike_ofDocuments hDeclared hCompatible) style

end Anywhere

/-- A generic component, a binding and a use of both, each behind so many bytes. -/
def valueBox (n : Nat) : ComponentDecl where
  name := ⟨"Box", ⟨n + 10, n + 13⟩⟩
  typeParams := [⟨"T", ⟨n + 14, n + 15⟩⟩]
  params := [⟨⟨"Value", ⟨n + 25, n + 30⟩⟩, ⟨.named "T", ⟨n + 32, n + 33⟩⟩, ⟨n + 19, n + 33⟩⟩]
  span := ⟨n, n + 35⟩

def boundInt (n : Nat) : BindingDecl := ⟨⟨"n", ⟨n + 4, n + 5⟩⟩, ⟨.named "int", ⟨n + 7, n + 10⟩⟩, ⟨n, n + 10⟩⟩

def boxUse (n : Nat) : Node :=
  .element ⟨n, n + 14⟩ ⟨"Box", ⟨n + 1, n + 4⟩⟩
    [⟨⟨"Value", ⟨n + 5, n + 10⟩⟩, ⟨.type (.named "n"), ⟨n + 11, n + 12⟩⟩, ⟨n + 5, n + 12⟩⟩] [] none

/-- The template may declare all that it uses, behind its use, or nothing. -/
theorem compile_declared_anywhere_box :
    ∃ out out', compile "<Box Value=n/> let n: int component Box<T> \x7b param Value: T \x7d" [] .standard = .ok out ∧
      compile "<Box Value=n/>" ["component Box<T> \x7b param Value: T \x7d", "<p/> let n: int"] .standard = .ok out' ∧
      out.SameButSpans out' := by
  have hWhole : Reads "<Box Value=n/> let n: int component Box<T> \x7b param Value: T \x7d"
      ⟨[.markup (boxUse 0), .binding (boundInt 15), .component (valueBox 26)]⟩ := by
    decide +kernel
  have hTemplate : Reads "<Box Value=n/>" ⟨[.markup (boxUse 0)]⟩ := by
    decide +kernel
  have hComponent : Reads "component Box<T> \x7b param Value: T \x7d" ⟨[.component (valueBox 0)]⟩ := by
    decide +kernel
  have hBinding : Reads "<p/> let n: int"
      ⟨[.markup (.element ⟨0, 4⟩ ⟨"p", ⟨1, 2⟩⟩ [] [] none), .binding (boundInt 5)]⟩ := by
    decide +kernel
  have hBoth := compile_declared_anywhere .nil hWhole (.cons hComponent (.cons hBinding .nil)) hTemplate rfl
    ⟨.refl _, .refl _⟩ .standard
  obtain ⟨out, hOut⟩ : ∃ out, compile "<Box Value=n/> let n: int component Box<T> \x7b param Value: T \x7d" []
      .standard = .ok out := by
    rw [exists_congr fun out => compile_eq_ok_iff_of_reads .nil hWhole]
    exact ⟨_, ⟨by decide, by decide, by decide⟩, rfl⟩
  obtain ⟨out', hOut'⟩ := hBoth.1.mp ⟨out, hOut⟩
  exact ⟨out, out', hOut, hOut', hBoth.2 out out' hOut hOut'⟩

end TypedMarkup
