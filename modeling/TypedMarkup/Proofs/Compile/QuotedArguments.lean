import TypedMarkup.Proofs.Compile.Layout
import TypedMarkup.Proofs.Inference.Growth
import TypedMarkup.Proofs.Listing.TypeParsing

/-! # Type arguments in quotes

A type argument may be written as a type or as a text that is read as the type. The site is resolved in the same way
and written as the same calls, as the attribute is not passed to the component.
-/
namespace TypedMarkup
set_option autoImplicit false

/-- A value that is a type, written as the text of the type. -/
def AttributeValue.quoted : AttributeValue → AttributeValue
  | type t => text t.display
  | v => v

/-- All types among the values have words for names. -/
def AttributeValue.Named (v : AttributeValue) : Prop := ∀ t, v = type t → t.Named

theorem AttributeValue.namedType?_quoted {v : AttributeValue} (h : v.Named) : v.quoted.namedType? = v.namedType? := by
  cases v with
  | type t => exact (h t rfl).parse?_display
  | _ => rfl

def Attribute.quoted (a : Attribute) : Attribute := { a with value := ⟨a.value.value.quoted, a.value.span⟩ }

theorem Attribute.quoted_eq_self {a : Attribute} (h : a.value.value.namedType? = none) : a.quoted = a := by
  obtain ⟨name, ⟨value, valueSpan⟩, span⟩ := a
  cases value with
  | type t => cases h
  | _ => rfl

namespace Component
open Attribute

variable (c : Component) (chosen : Attribute → Bool)

/-- Puts chosen type arguments in quotes, among attributes behind others with these names. A later attribute of the
same name gives no type argument. -/
def quoteArguments : List String → List Attribute → List Attribute
  | _, [] => []
  | seen, a :: rest =>
    (if c.hasTypeParam a.name.value ∧ a.name.value ∉ seen ∧ chosen a then a.quoted else a) ::
      quoteArguments (a.name.value :: seen) rest

variable {c chosen} {attributes : List Attribute} {scope : Scope}

theorem pinned?_quoteArguments (h : ∀ a ∈ attributes, a.value.value.Named) (seen : List String) (param : String) :
    pinned? (c.quoteArguments chosen seen attributes) param = pinned? attributes param := by
  induction attributes generalizing seen with
  | nil => rfl
  | cons a rest ih =>
    obtain ⟨hFirst, hRest⟩ := List.forall_mem_cons.mp h
    rw [quoteArguments, pinned?, pinned?, ih hRest]
    split
    · rw [← AttributeValue.namedType?_quoted hFirst]
      rfl
    · rfl

/-- A quoted attribute would have given a type argument as it was. -/
theorem quoteArguments_eq_self_of_unpinned {seen : List String}
    (h : ∀ p ∈ c.typeParams, p ∉ seen → pinned? attributes p = none) :
    c.quoteArguments chosen seen attributes = attributes := by
  induction attributes generalizing seen with
  | nil => rfl
  | cons a rest ih =>
    have hRest : c.quoteArguments chosen (a.name.value :: seen) rest = rest := by
      apply ih
      intro p hp hSeen
      rw [List.mem_cons, not_or] at hSeen
      have hNone := h p hp hSeen.2
      rwa [pinned?, if_neg (Ne.symm hSeen.1)] at hNone
    rw [quoteArguments, hRest]
    split
    case isFalse => rfl
    case isTrue hGives =>
      have hNone := h a.name.value (List.contains_iff_mem.mp hGives.1) hGives.2.1
      rw [pinned?, if_pos rfl] at hNone
      rw [quoted_eq_self hNone]

theorem resolve_quoteArguments (h : ∀ a ∈ attributes, a.value.value.Named) (span : Span) (scope : Scope) :
    c.resolve (c.quoteArguments chosen [] attributes) span scope = c.resolve attributes span scope := by
  by_cases hPinned : ∃ p ∈ c.typeParams, pinned? attributes p ≠ none
  · rw [resolve, resolve, resolveArgs_congr_of_pinned (fun p _ => pinned?_quoteArguments h [] p) hPinned]
  · have hUnpinned : ∀ p ∈ c.typeParams, p ∉ ([] : List String) → pinned? attributes p = none := by
      intro p hp _
      by_contra hSome
      exact hPinned ⟨p, hp, hSome⟩
    rw [quoteArguments_eq_self_of_unpinned hUnpinned]

theorem isTypeArgument_quoted {a : Attribute} (h : a.value.value.Named) :
    c.isTypeArgument a.quoted = c.isTypeArgument a := by
  have hNamed := AttributeValue.namedType?_quoted h
  rw [isTypeArgument, isTypeArgument]
  exact congrArg (fun t : Option TypeExpr => c.hasTypeParam a.name.value && t.isSome) hNamed

/-- What is put in quotes is not passed to the component. -/
theorem filter_quoteArguments (h : ∀ a ∈ attributes, a.value.value.Named) (seen : List String) :
    ((c.quoteArguments chosen seen attributes).filter fun a => !c.isTypeArgument a) =
      attributes.filter fun a => !c.isTypeArgument a := by
  induction attributes generalizing seen with
  | nil => rfl
  | cons a rest ih =>
    obtain ⟨hFirst, hRest⟩ := List.forall_mem_cons.mp h
    rw [quoteArguments, List.filter_cons, List.filter_cons, ih hRest]
    split
    case isFalse => rfl
    case isTrue hGives =>
      cases hNamed : a.value.value.namedType? with
      | none => rw [quoted_eq_self hNamed]
      | some t =>
        have hArgument : c.isTypeArgument a = true := by rw [isTypeArgument, hGives.1, hNamed]; rfl
        rw [isTypeArgument_quoted hFirst, hArgument]
        rfl

end Component

section Tree

variable (registry : Registry) (chosen : Attribute → Bool)

namespace Node

mutual
def quoteArguments : Node → Node
  | element span name attributes children closing =>
    element span name
      (match registry.get? name.value with
        | some c => c.quoteArguments chosen [] attributes
        | none => attributes)
      (quoteArgumentsIn children) closing
  | text span content => text span content
  | expression span name => expression span name

def quoteArgumentsIn : List Node → List Node
  | [] => []
  | node :: rest => quoteArguments node :: quoteArgumentsIn rest
end

theorem quoteArgumentsIn_eq_map (nodes : List Node) :
    quoteArgumentsIn registry chosen nodes = nodes.map (quoteArguments registry chosen) := by
  induction nodes with
  | nil => rfl
  | cons node rest ih => rw [quoteArgumentsIn, List.map_cons, ih]

/-- All types among the values of the attributes have words for names. -/
def ValuesNamed (tags : List Tag) : Prop := ∀ tag ∈ tags, ∀ a ∈ tag.attributes, a.value.value.Named

variable {scope : Scope} {registry chosen}

mutual
theorem resolutions_quoteArguments : ∀ {node : Node}, ValuesNamed node.tags →
    (node.quoteArguments registry chosen).resolutions registry scope = node.resolutions registry scope
  | .text _ _, _ => rfl
  | .expression _ _, _ => rfl
  | .element span name attributes children closing, h => by
    rw [tags, ValuesNamed, List.forall_mem_cons] at h
    obtain ⟨hOwn, hInner⟩ := h
    rw [quoteArguments, resolutions, resolutions, resolutionsIn_quoteArgumentsIn hInner]
    cases registry.get? name.value with
    | none => rfl
    | some c =>
      dsimp only
      rw [Component.resolve_quoteArguments hOwn]

theorem resolutionsIn_quoteArgumentsIn : ∀ {nodes : List Node}, ValuesNamed (tagsIn nodes) →
    resolutionsIn registry scope (quoteArgumentsIn registry chosen nodes) = resolutionsIn registry scope nodes
  | [], _ => rfl
  | node :: rest, h => by
    rw [tagsIn, ValuesNamed, List.forall_mem_append] at h
    rw [quoteArgumentsIn, resolutionsIn, resolutionsIn, resolutions_quoteArguments h.1,
      resolutionsIn_quoteArgumentsIn h.2]
end

mutual
theorem tags_quoteArguments : ∀ node : Node,
    (node.quoteArguments registry chosen).tags.map Tag.name = node.tags.map Tag.name
  | .text _ _ => rfl
  | .expression _ _ => rfl
  | .element span name attributes children closing => by
    rw [quoteArguments, tags, tags, List.map_cons, List.map_cons, tagsIn_quoteArgumentsIn children]

theorem tagsIn_quoteArgumentsIn :
    ∀ nodes : List Node, (tagsIn (quoteArgumentsIn registry chosen nodes)).map Tag.name = (tagsIn nodes).map Tag.name
  | [] => rfl
  | node :: rest => by
    rw [quoteArgumentsIn, tagsIn, tagsIn, List.map_append, List.map_append, tags_quoteArguments node,
      tagsIn_quoteArgumentsIn rest]
end

theorem siteCount_quoteArguments (node : Node) :
    (node.quoteArguments registry chosen).siteCount registry = node.siteCount registry := by
  have hTags : (node.quoteArguments registry chosen).tags.map Tag.name = node.tags.map Tag.name :=
    tags_quoteArguments node
  have hNames := congrArg (List.countP fun name : Identifier => registry.contains name.value) hTags
  rw [List.countP_map, List.countP_map] at hNames
  rw [siteCount, siteCount, ← List.countP_eq_length_filter, ← List.countP_eq_length_filter]
  exact hNames

mutual
/-- Every site is written as a component, which takes no notice of how its type arguments were written. -/
theorem callsAt_quoteArguments : ∀ {node : Node} (position : Nat), ValuesNamed node.tags →
    (node.quoteArguments registry chosen).callsAt registry scope (fun _ => true) position =
      node.callsAt registry scope (fun _ => true) position
  | .text _ _, _, _ => rfl
  | .expression _ _, _, _ => rfl
  | .element span name attributes children closing, position, h => by
    rw [tags, ValuesNamed, List.forall_mem_cons] at h
    obtain ⟨hOwn, hInner⟩ := h
    rw [quoteArguments, callsAt, callsAt]
    cases registry.get? name.value with
    | none =>
      dsimp only
      rw [callsAtIn_quoteArgumentsIn position hInner]
    | some c =>
      dsimp only
      rw [callsAtIn_quoteArgumentsIn (position + 1) hInner, Component.resolve_quoteArguments hOwn]
      simp only [Tag.componentCalls, Component.filter_quoteArguments hOwn, if_true]

theorem callsAtIn_quoteArgumentsIn : ∀ {nodes : List Node} (position : Nat), ValuesNamed (tagsIn nodes) →
    callsAtIn registry scope (fun _ => true) position (quoteArgumentsIn registry chosen nodes) =
      callsAtIn registry scope (fun _ => true) position nodes
  | [], _, _ => rfl
  | node :: rest, position, h => by
    rw [tagsIn, ValuesNamed, List.forall_mem_append] at h
    rw [quoteArgumentsIn, callsAtIn, callsAtIn, siteCount_quoteArguments, callsAt_quoteArguments position h.1,
      callsAtIn_quoteArgumentsIn _ h.2]
end

end Node

namespace Document

def quoteArguments (d : Document) : Document where
  items := d.items.map fun
    | .markup node => .markup (node.quoteArguments registry chosen)
    | item => item

theorem markup_quoteArguments (d : Document) :
    (d.quoteArguments registry chosen).markup = Node.quoteArgumentsIn registry chosen d.markup := by
  rw [Node.quoteArgumentsIn_eq_map, markup, quoteArguments, markup, List.filterMap_map, List.map_filterMap]
  congr 1
  funext i
  cases i <;> rfl

theorem components_quoteArguments (d : Document) : (d.quoteArguments registry chosen).components = d.components := by
  rw [components, quoteArguments, components, List.filterMap_map]
  congr 1
  funext i
  cases i <;> rfl

theorem bindings_quoteArguments (d : Document) : (d.quoteArguments registry chosen).bindings = d.bindings := by
  rw [bindings, quoteArguments, bindings, List.filterMap_map]
  congr 1
  funext i
  cases i <;> rfl

end Document
end Tree

section Templates

variable {template template' : String} {components : List String} {before ds : Declarations} {d d' : Document}

theorem Document.valuesNamed_of_parse (h : parse template = .ok d) : Node.ValuesNamed d.tags := by
  intro tag hTag a ha t ht
  apply (spelled_of_parse h).named_of_attribute (Token.allNames_scan template) hTag ha
  rw [ht]
  rfl

theorem Declarations.add_quoteArguments (ds : Declarations) (registry : Registry) (chosen : Attribute → Bool)
    (d : Document) : ds.add (d.quoteArguments registry chosen) = ds.add d := by
  rw [add, add, Document.components_quoteArguments, Document.bindings_quoteArguments]

/-- Templates that differ only in type arguments that the second has in quotes, and in layout, compile to the same
but for spans. -/
theorem compile_quoteArguments (hBefore : Declarations.empty.readAll 0 components = .ok before)
    (hParse : Document.parse template = .ok d) (hAdd : before.add d = .ok ds)
    (hParse' : Document.parse template' = .ok d') (chosen : Attribute → Bool)
    (hQuoted : d'.SameButSpans (d.quoteArguments ds.registry chosen)) (style : ListingStyle) :
    ∃ out out', compile template components style = .ok out ∧ compile template' components style = .ok out' ∧
      out'.SameButSpans out := by
  have hAdd' := Declarations.add_alike hQuoted before
  rw [before.add_quoteArguments, hAdd] at hAdd'
  have hNamed := Document.valuesNamed_of_parse hParse
  cases hDeclared : before.add d' with
  | error e =>
    rw [hDeclared] at hAdd'
    cases hAdd'
  | ok ds' =>
    rw [hDeclared] at hAdd'
    cases hAdd' with
    | ok hAlike =>
      refine ⟨d.compile ds style, d'.compile ds' style,
        compile_eq_ok_iff.mpr ⟨before, d, ds, hBefore, Declarations.read_eq_ok_iff.mpr ⟨hParse, hAdd⟩, rfl⟩,
        compile_eq_ok_iff.mpr ⟨before, d', ds', hBefore, Declarations.read_eq_ok_iff.mpr ⟨hParse', hDeclared⟩, rfl⟩, ?_⟩
      apply Document.compile_sameButSpans_of_calls hParse' hParse
      · rw [Document.calls_eq_callsAt hParse', Document.calls_eq_callsAt hParse,
          Node.callsAtIn_of_same_markup hQuoted.markup hAlike, Document.markup_quoteArguments,
          Node.callsAtIn_quoteArgumentsIn 0 hNamed]
      · rw [Document.resolutions_of_same_markup hQuoted.markup hAlike, Document.resolutions,
          Document.markup_quoteArguments, Node.resolutionsIn_quoteArgumentsIn hNamed]
        rfl

end Templates
/-- The text of a type is read as that type, and all types that are read have words for names, so that types that are
read are known from their texts. Hence a type argument in quotes gives the same type as the type itself, and templates
that differ in such quotes compile to the same but for spans. -/
theorem TypeExpr.parse_display :
    (∀ t : TypeExpr, t.Named → parse? t.display = some t) ∧
    (∀ (source : String) (t : TypeExpr), parse? source = some t → t.Named ∧ parse? t.display = some t) ∧
    (∀ (source source' : String) (t t' : TypeExpr), parse? source = some t → parse? source' = some t' →
      t.display = t'.display → t = t') ∧
    (∀ t : TypeExpr, t.Named → (AttributeValue.text t.display).namedType? = (AttributeValue.type t).namedType?) ∧
    ∀ (template template' : String) (components : List String) (before ds : Declarations) (d d' : Document)
      (chosen : Attribute → Bool) (style : ListingStyle), Declarations.empty.readAll 0 components = .ok before →
      Document.parse template = .ok d → before.add d = .ok ds → Document.parse template' = .ok d' →
      d'.SameButSpans (d.quoteArguments ds.registry chosen) →
      ∃ out out', compile template components style = .ok out ∧ compile template' components style = .ok out' ∧
        out'.SameButSpans out := by
  have hRead : ∀ t : TypeExpr, t.Named → parse? t.display = some t := fun _ h => h.parse?_display
  refine ⟨hRead, ?_, ?_, hRead, ?_⟩
  · intro source t hParse
    have hNamed := named_of_parse? hParse
    exact ⟨hNamed, hRead t hNamed⟩
  · intro source source' t t' hParse hParse' hText
    exact display_inj (named_of_parse? hParse) (named_of_parse? hParse') hText
  · intro template template' components before ds d d' chosen style hBefore hParse hAdd hParse' hQuoted
    exact compile_quoteArguments hBefore hParse hAdd hParse' chosen hQuoted style

/-- Arrays of a name with several arguments, and of arrays. -/
def tableType : TypeExpr :=
  .array (.array (.app "Table" [.array (.named "int"), .app TypeExpr.arrayName [.named "a", .named "b"]]))

def boxTemplate (argument : String) : String := "<Box T=" ++ argument ++ " Value=1/>"

def boxSources : List String := ["component Box<T> \x7b param Value: T \x7d"]

def boxDeclared : List Component := [⟨"Box", ["T"], [⟨"Value", .named "T"⟩], ⟨0, 35⟩⟩]

theorem parse_display_table :
    TypeExpr.parse? "Table<int[], Array<a, b>>[][]" = some tableType ∧ tableType.Named ∧
    (∀ t, TypeExpr.parse? "Table < Array<int>, Array<a,b>> [] []" = some t → t.display = tableType.display →
      t = tableType) ∧
    (AttributeValue.text "Table<int[], Array<a, b>>[][]").namedType? = some tableType ∧
    ∃ out out', compile (boxTemplate "A<B[]>") boxSources .standard = .ok out ∧
      compile (boxTemplate "\"A<B[]>\"") boxSources .standard = .ok out' ∧ out'.SameButSpans out := by
  obtain ⟨hRead, hReads, hInj, hArgument, hCompile⟩ := TypeExpr.parse_display
  have hNamed : tableType.Named := by
    change ∀ n ∈ tableType.names, Token.IsName n
    decide
  have hText : tableType.display = "Table<int[], Array<a, b>>[][]" := by decide
  have hTable := hRead tableType hNamed
  have hValue := hArgument tableType hNamed
  rw [hText] at hTable hValue
  refine ⟨hTable, (hReads _ _ hTable).1, fun t hParse => hInj _ _ t tableType hParse hTable, hValue, ?_⟩
  have hDeclares : (match Declarations.empty.readAll 0 boxSources with
    | .ok before => decide (before.registry.components = boxDeclared)
    | .error _ => false) = true := by decide +kernel
  have hDiffer : (match Document.parse (boxTemplate "A<B[]>"), Document.parse (boxTemplate "\"A<B[]>\"") with
    | .ok d, .ok d' => decide (d.components = [] ∧ d.bindings = [] ∧ d'.moved (fun _ => 0) =
        (d.quoteArguments ⟨boxDeclared⟩ fun _ => true).moved fun _ => 0)
    | _, _ => false) = true := by decide +kernel
  generalize hBefore : Declarations.empty.readAll 0 boxSources = declared at hDeclares
  generalize hParse : Document.parse (boxTemplate "A<B[]>") = read at hDiffer
  generalize hParse' : Document.parse (boxTemplate "\"A<B[]>\"") = read' at hDiffer
  match declared, read, read' with
  | .ok ⟨⟨_⟩, scope⟩, .ok d, .ok d' =>
    obtain rfl := of_decide_eq_true hDeclares
    obtain ⟨hComponents, hBindings, hSame⟩ := of_decide_eq_true hDiffer
    have hAdd : Declarations.add ⟨⟨boxDeclared⟩, scope⟩ d = .ok ⟨⟨boxDeclared⟩, scope⟩ := by
      rw [Declarations.add, hComponents, hBindings]
      rfl
    exact hCompile _ _ boxSources _ _ d d' (fun _ => true) .standard hBefore hParse hAdd hParse' hSame

end TypedMarkup
