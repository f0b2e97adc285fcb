import TypedMarkup.Proofs.Compile.Layout
import TypedMarkup.Proofs.Inference.Advice
import TypedMarkup.Proofs.Listing.OneLine

/-! # Pinning what was inferred

A site whose type arguments were inferred can give them by attributes as well, in front of the others. It is then
explicit with the same arguments, and what is generated for the document stays the same.
-/
namespace TypedMarkup
set_option autoImplicit false

/-- Attributes that give to each type parameter the type in its slot, and nothing else. -/
structure Attribute.Pins (given : List Attribute) (c : Component) (args : List (Option TypeExpr)) : Prop where
  type : ∀ a ∈ given, ∃ t, c.argument? args a.name.value = some t ∧ a.value.value = .type t
  each : ∀ p ∈ c.typeParams, ∃ a ∈ given, a.name.value = p

theorem Attribute.pinned?_append_of_types {given : List Attribute} {p : String} {t : TypeExpr}
    (hType : ∀ a ∈ given, a.name.value = p → a.value.value = .type t) (hNamed : ∃ a ∈ given, a.name.value = p)
    (attributes : List Attribute) : pinned? (given ++ attributes) p = some t := by
  induction given with
  | nil => simp at hNamed
  | cons b rest ih =>
    rw [List.cons_append, pinned?]
    by_cases hName : b.name.value = p
    · rw [if_pos hName, hType b List.mem_cons_self hName]
      rfl
    · rw [if_neg hName]
      exact ih (fun a ha => hType a (List.mem_cons_of_mem _ ha)) (by simpa [hName] using hNamed)

namespace Component
open Attribute Constraint

variable {c : Component} {attributes given : List Attribute} {scope : Scope}

theorem mem_of_argument? {args : List (Option TypeExpr)} {p : String} {t : TypeExpr}
    (h : c.argument? args p = some t) : p ∈ c.typeParams := by
  obtain ⟨slot, hLookup, -⟩ := Option.bind_eq_some_iff.mp h
  obtain ⟨before, after, hZip, -⟩ := List.lookup_eq_some_iff.mp hLookup
  have hMem : (p, slot) ∈ c.typeParams.zip args := by simp [hZip]
  exact (List.of_mem_zip hMem).1

theorem isTypeArgument_of_pins {args : List (Option TypeExpr)} (h : Pins given c args) :
    ∀ a ∈ given, c.isTypeArgument a = true := by
  intro a ha
  obtain ⟨t, hSlot, hValue⟩ := h.type a ha
  exact isTypeArgument_eq_true_iff.mpr ⟨mem_of_argument? hSlot, t, by rw [hValue]; rfl⟩

theorem exists_found_of_inferred (h : (c.resolveArgs attributes scope).2 = .inferred) :
    c.isGeneric = true ∧ ∃ found : String → Option TypeExpr,
      (c.resolveArgs attributes scope).1 = c.typeParams.map found ∧ ∀ p ∈ c.typeParams, found p ≠ none := by
  cases hGeneric : c.isGeneric with
  | false =>
    rw [resolveArgs_of_not_generic hGeneric] at h
    cases h
  | true =>
    have hSettles := settles_resolveArgs hGeneric attributes scope
    rw [h] at hSettles
    generalize (c.resolveArgs attributes scope).1 = args at hSettles
    cases hSettles with
    | inferred _ _ hFound => exact ⟨rfl, _, rfl, hFound⟩

theorem exists_pins {span : Span} (hInferred : (c.resolve attributes span scope).outcome = .inferred) :
    ∃ given, Pins given c (c.resolve attributes span scope).args := by
  obtain ⟨-, found, hArgs, hFound⟩ := exists_found_of_inferred hInferred
  change ∃ given, Pins given c (c.resolveArgs attributes scope).1
  rw [hArgs]
  refine ⟨c.typeParams.filterMap fun p => (found p).map fun t => ⟨⟨p, span⟩, ⟨.type t, span⟩, span⟩, ?_, ?_⟩
  · intro a ha
    obtain ⟨p, hp, ha⟩ := List.mem_filterMap.mp ha
    obtain ⟨t, ht, rfl⟩ := Option.map_eq_some_iff.mp ha
    exact ⟨t, (argument?_map found hp).trans ht, rfl⟩
  · intro p hp
    obtain ⟨t, ht⟩ := Option.ne_none_iff_exists'.mp (hFound p hp)
    exact ⟨_, List.mem_filterMap.mpr ⟨p, hp, by rw [ht]; rfl⟩, rfl⟩

/-- Given by attributes in front of the others, inferred arguments are explicit and stay the same. -/
theorem resolve_pins (span : Span) (hInferred : (c.resolve attributes span scope).outcome = .inferred)
    (hPins : Pins given c (c.resolve attributes span scope).args) :
    c.resolve (given ++ attributes) span scope =
      { c.resolve attributes span scope with outcome := .explicit } := by
  obtain ⟨hGeneric, found, hArgs, hFound⟩ := exists_found_of_inferred hInferred
  have hSame : ∀ p ∈ c.typeParams, pinned? (given ++ attributes) p = found p := by
    intro p hp
    obtain ⟨t, ht⟩ := Option.ne_none_iff_exists'.mp (hFound p hp)
    rw [ht]
    refine pinned?_append_of_types ?_ (hPins.each p hp) attributes
    rintro a ha rfl
    obtain ⟨t', hSlot, hValue⟩ := hPins.type a ha
    change c.argument? (c.resolveArgs attributes scope).1 _ = _ at hSlot
    rw [hArgs, argument?_map found hp, ht] at hSlot
    rw [hValue, Option.some.inj hSlot]
  have hExplicit : c.resolveArgs (given ++ attributes) scope = (c.typeParams.map found, .explicit) := by
    rw [resolveArgs_of_all_pinned hGeneric fun p hp => by rw [hSame p hp]; exact hFound p hp,
      List.map_congr_left hSame]
  simp only [resolve, hExplicit, ← hArgs]

end Component

/-! ## Attributes put into a document -/

def Tag.front (given : List Attribute) (tag : Tag) : Tag := { tag with attributes := given ++ tag.attributes }

/-- The second node is the first with these attributes in front of those of one element in it, which has this tag. -/
inductive Node.Fronts (given : List Attribute) (tag : Tag) : Node → Node → Prop
  | here {children : List Node} {closing : Option Identifier} :
      Fronts given tag (.element tag.span tag.name tag.attributes children closing)
        (.element tag.span tag.name (given ++ tag.attributes) children closing)
  | inside {span : Span} {name : Identifier} {attributes : List Attribute} {before after : List Node}
      {node node' : Node} {closing : Option Identifier} (h : Fronts given tag node node') :
      Fronts given tag (.element span name attributes (before ++ node :: after) closing)
        (.element span name attributes (before ++ node' :: after) closing)

inductive Document.Fronts (given : List Attribute) (tag : Tag) : Document → Document → Prop
  | markup {before after : List Item} {node node' : Node} (h : node.Fronts given tag node') :
      Fronts given tag ⟨before ++ .markup node :: after⟩ ⟨before ++ .markup node' :: after⟩

section Fronts

variable {given : List Attribute} {tag : Tag}

mutual
theorem Node.exists_fronts (given : List Attribute) : ∀ node : Node, tag ∈ node.tags →
    ∃ node', node.Fronts given tag node'
  | .text _ _, h => by cases h
  | .expression _ _, h => by cases h
  | .element span name attributes children closing, h => by
    rcases List.mem_cons.mp h with rfl | h
    · exact ⟨_, .here⟩
    · obtain ⟨before, node, after, node', rfl, hFronts⟩ := Node.exists_fronts_in given children h
      exact ⟨_, .inside hFronts⟩

theorem Node.exists_fronts_in (given : List Attribute) : ∀ nodes : List Node, tag ∈ tagsIn nodes →
    ∃ before node after node', nodes = before ++ node :: after ∧ node.Fronts given tag node'
  | [], h => by cases h
  | node :: rest, h => by
    rcases List.mem_append.mp h with h | h
    · obtain ⟨node', hFronts⟩ := Node.exists_fronts given node h
      exact ⟨[], node, rest, node', rfl, hFronts⟩
    · obtain ⟨before, inner, after, node', rfl, hFronts⟩ := Node.exists_fronts_in given rest h
      exact ⟨node :: before, inner, after, node', rfl, hFronts⟩
end

theorem Document.exists_fronts (given : List Attribute) {d : Document} (h : tag ∈ d.tags) :
    ∃ d', d.Fronts given tag d' := by
  obtain ⟨items⟩ := d
  rw [tags, Node.tagsIn_eq_flatMap, List.mem_flatMap] at h
  obtain ⟨node, hNode, hTag⟩ := h
  obtain ⟨item, hItem, hMarkup⟩ := List.mem_filterMap.mp hNode
  obtain ⟨before, after, rfl⟩ := List.append_of_mem hItem
  obtain ⟨node', hFronts⟩ := Node.exists_fronts given node hTag
  cases item with
  | component decl => cases hMarkup
  | binding decl => cases hMarkup
  | markup _ =>
    cases hMarkup
    exact ⟨_, .markup hFronts⟩

theorem Node.Fronts.tags {node node' : Node} (h : node.Fronts given tag node') :
    ∃ before after, node.tags = before ++ tag :: after ∧ node'.tags = before ++ tag.front given :: after := by
  induction h with
  | here => exact ⟨[], _, rfl, rfl⟩
  | @inside span name attributes front back node node' closing _ ih =>
    obtain ⟨before, after, hTags, hTags'⟩ := ih
    refine ⟨⟨span, name, attributes⟩ :: (tagsIn front ++ before), after ++ tagsIn back, ?_, ?_⟩
    · simp [Node.tags, tagsIn_append, tagsIn, hTags]
    · simp [Node.tags, tagsIn_append, tagsIn, hTags']

theorem Document.markup_around (before after : List Item) (node : Node) :
    Document.markup ⟨before ++ .markup node :: after⟩ =
      Document.markup ⟨before⟩ ++ node :: Document.markup ⟨after⟩ := by
  simp [Document.markup]

theorem Document.Fronts.tags {d d' : Document} (h : d.Fronts given tag d') :
    ∃ before after, d.tags = before ++ tag :: after ∧ d'.tags = before ++ tag.front given :: after := by
  obtain @⟨front, back, node, node', hNode⟩ := h
  obtain ⟨before, after, hTags, hTags'⟩ := hNode.tags
  refine ⟨Document.tags ⟨front⟩ ++ before, after ++ Document.tags ⟨back⟩, ?_, ?_⟩
  · simp [Document.tags, Document.markup_around, Node.tagsIn_append, Node.tagsIn, hTags]
  · simp [Document.tags, Document.markup_around, Node.tagsIn_append, Node.tagsIn, hTags']

end Fronts

/-! ## What is written -/

/-- The arguments at a start depend on the starts and the arguments alone. -/
theorem Resolution.map_args_at? {sites sites' : List Resolution}
    (h : sites.map (fun r => (r.span.start, r.args)) = sites'.map fun r => (r.span.start, r.args)) (start : Nat) :
    (at? sites start).map args = (at? sites' start).map args := by
  have hKeys : ∀ all : List Resolution, (at? all start).map args =
      (((all.map fun r => (r.span.start, r.args)).reverse.find? fun key => key.1 = start).map Prod.snd) := by
    intro all
    rw [← List.map_reverse, List.find?_map, Option.map_map]
    rfl
  rw [hKeys, hKeys, h]

section Calls

variable {registry : Registry} {sites sites' : List Resolution}

mutual
theorem Node.calls_congr_args (h : ∀ start, (Resolution.at? sites start).map Resolution.args =
    (Resolution.at? sites' start).map Resolution.args) :
    ∀ node : Node, node.calls registry sites = node.calls registry sites'
  | .text _ _ => rfl
  | .expression _ _ => rfl
  | .element span name attributes children _ => by
    have hOwn := h span.start
    rw [calls, calls, Node.callsIn_congr_args h children]
    cases hSite : Resolution.at? sites span.start with
    | none =>
      rw [hSite] at hOwn
      rw [Option.map_eq_none_iff.mp hOwn.symm]
    | some site =>
      rw [hSite] at hOwn
      obtain ⟨site', hSite', hArgs⟩ := Option.map_eq_some_iff.mp hOwn.symm
      rw [hSite']
      cases registry.get? name.value with
      | none => rfl
      | some c => simp only [hArgs]

theorem Node.callsIn_congr_args (h : ∀ start, (Resolution.at? sites start).map Resolution.args =
    (Resolution.at? sites' start).map Resolution.args) :
    ∀ nodes : List Node, callsIn registry sites nodes = callsIn registry sites' nodes
  | [] => rfl
  | node :: rest => by
    rw [callsIn, callsIn, Node.calls_congr_args h node, Node.callsIn_congr_args h rest]
end

/-- Attributes that give type arguments are not written with a component. -/
theorem Node.Fronts.calls {given : List Attribute} {tag : Tag} {c : Component}
    (hGet : registry.get? tag.name.value = some c) (hGiven : ∀ a ∈ given, c.isTypeArgument a = true) {site : Resolution}
    (hSite : Resolution.at? sites tag.span.start = some site) {node node' : Node} (h : node.Fronts given tag node') :
    node'.calls registry sites = node.calls registry sites := by
  induction h with
  | here =>
    have hNone : (given.filter fun a => !c.isTypeArgument a) = [] := by simpa using hGiven
    simp only [Node.calls, hGet, hSite, List.filter_append, hNone, List.nil_append]
  | @inside span name attributes before after node node' closing _ ih =>
    have hFull : ∀ n : Node, (before ++ n :: after).isEmpty = false := by simp
    simp only [Node.calls, hFull, Node.callsIn_eq_flatMap, List.flatMap_append, List.flatMap_cons, ih]

theorem Document.Fronts.calls {given : List Attribute} {tag : Tag} {c : Component}
    (hGet : registry.get? tag.name.value = some c) (hGiven : ∀ a ∈ given, c.isTypeArgument a = true) {site : Resolution}
    (hSite : Resolution.at? sites tag.span.start = some site) {d d' : Document} (h : d.Fronts given tag d') :
    d'.calls registry sites = d.calls registry sites := by
  obtain ⟨hNode⟩ := h
  simp only [Document.calls, Document.markup_around, Node.callsIn_eq_flatMap, List.flatMap_append, List.flatMap_cons,
    hNode.calls hGet hGiven hSite]

end Calls

section Pinned

variable {d d' : Document} {tag : Tag} {ds : Declarations} {c : Component} {given : List Attribute}

theorem Document.Fronts.components (h : d.Fronts given tag d') : d'.components = d.components := by
  obtain ⟨-⟩ := h
  simp [Document.components]

theorem Document.Fronts.bindings (h : d.Fronts given tag d') : d'.bindings = d.bindings := by
  obtain ⟨-⟩ := h
  simp [Document.bindings]

/-- Of the sites only that of the tag changes, and of this one only the outcome. -/
theorem Document.Fronts.resolutions (h : d.Fronts given tag d') (hGet : ds.registry.get? tag.name.value = some c)
    (hInferred : (c.resolve tag.attributes tag.span ds.scope).outcome = .inferred)
    (hPins : Attribute.Pins given c (c.resolve tag.attributes tag.span ds.scope).args) :
    ∃ before after,
      d.resolutions ds.registry ds.scope = before ++ c.resolve tag.attributes tag.span ds.scope :: after ∧
      d'.resolutions ds.registry ds.scope =
        before ++ { c.resolve tag.attributes tag.span ds.scope with outcome := .explicit } :: after := by
  obtain ⟨before, after, hTags, hTags'⟩ := h.tags
  have hOwn : tag.resolution? ds.registry ds.scope = some (c.resolve tag.attributes tag.span ds.scope) :=
    Tag.resolution?_eq_some_iff.mpr ⟨c, hGet, rfl⟩
  have hOwn' : (tag.front given).resolution? ds.registry ds.scope =
      some { c.resolve tag.attributes tag.span ds.scope with outcome := .explicit } :=
    Tag.resolution?_eq_some_iff.mpr ⟨c, hGet, (Component.resolve_pins tag.span hInferred hPins).symm⟩
  refine ⟨before.filterMap (Tag.resolution? ds.registry ds.scope),
    after.filterMap (Tag.resolution? ds.registry ds.scope), ?_, ?_⟩
  · rw [resolutions_eq_filterMap_tags, hTags, List.filterMap_append, List.filterMap_cons_some hOwn]
  · rw [resolutions_eq_filterMap_tags, hTags', List.filterMap_append, List.filterMap_cons_some hOwn']

theorem Document.Fronts.calls_resolutions (h : d.Fronts given tag d')
    (hGet : ds.registry.get? tag.name.value = some c)
    (hInferred : (c.resolve tag.attributes tag.span ds.scope).outcome = .inferred)
    (hPins : Attribute.Pins given c (c.resolve tag.attributes tag.span ds.scope).args) :
    d'.calls ds.registry (d'.resolutions ds.registry ds.scope) =
      d.calls ds.registry (d.resolutions ds.registry ds.scope) := by
  obtain ⟨before, after, hSites, hSites'⟩ := h.resolutions hGet hInferred hPins
  have hKeys : (d'.resolutions ds.registry ds.scope).map (fun r => (r.span.start, r.args)) =
      (d.resolutions ds.registry ds.scope).map fun r => (r.span.start, r.args) := by
    rw [hSites, hSites']
    simp
  obtain ⟨site, hSite⟩ : ∃ site, Resolution.at? (d.resolutions ds.registry ds.scope) tag.span.start = some site := by
    rw [← Option.isSome_iff_exists, Resolution.at?, List.find?_isSome]
    exact ⟨c.resolve tag.attributes tag.span ds.scope, by simp [hSites], by simp [Component.resolve]⟩
  calc
    _ = d'.calls ds.registry (d.resolutions ds.registry ds.scope) :=
      Node.callsIn_congr_args (Resolution.map_args_at? hKeys) d'.markup
    _ = _ := h.calls hGet (Component.isTypeArgument_of_pins hPins) hSite

/-- The types inferred for a site can be given, and given in front of its attributes they make the site explicit with
the same arguments. The other sites and the generated code stay the same, also for a source that is read as the
document with the types given, wherever that puts the tokens. -/
theorem Document.generate_pinned (hTag : tag ∈ d.tags) (hGet : ds.registry.get? tag.name.value = some c)
    (hInferred : (c.resolve tag.attributes tag.span ds.scope).outcome = .inferred) :
    (∃ given, Attribute.Pins given c (c.resolve tag.attributes tag.span ds.scope).args) ∧
    ∀ given, Attribute.Pins given c (c.resolve tag.attributes tag.span ds.scope).args →
      c.resolve (given ++ tag.attributes) tag.span ds.scope =
        { c.resolve tag.attributes tag.span ds.scope with outcome := .explicit } ∧
      (∃ d', d.Fronts given tag d') ∧
      ∀ d', d.Fronts given tag d' →
        (d'.components = d.components ∧ d'.bindings = d.bindings) ∧
        (∃ before after,
          d.resolutions ds.registry ds.scope = before ++ c.resolve tag.attributes tag.span ds.scope :: after ∧
          d'.resolutions ds.registry ds.scope =
            before ++ { c.resolve tag.attributes tag.span ds.scope with outcome := .explicit } :: after) ∧
        (∀ style, d'.generate ds.registry (d'.resolutions ds.registry ds.scope) style =
          d.generate ds.registry (d.resolutions ds.registry ds.scope) style) ∧
        ∀ (source source' : String) (d'' : Document) (ds' : Declarations), parse source = .ok d →
          parse source' = .ok d'' → d''.SameButSpans d' → ds'.Alike ds →
          ∀ style, d''.generate ds'.registry (d''.resolutions ds'.registry ds'.scope) style =
            d.generate ds.registry (d.resolutions ds.registry ds.scope) style := by
  refine ⟨Component.exists_pins hInferred, ?_⟩
  intro given hPins
  refine ⟨Component.resolve_pins tag.span hInferred hPins, exists_fronts given hTag, ?_⟩
  intro d' hFronts
  have hSites := hFronts.resolutions hGet hInferred hPins
  have hCalls := hFronts.calls_resolutions hGet hInferred hPins
  refine ⟨⟨hFronts.components, hFronts.bindings⟩, hSites, fun style => congrArg style.write hCalls, ?_⟩
  intro source source' d'' ds' h h' hSame hAlike style
  -- The starts of the sites are those of the first document, so that here too each site has its own resolution.
  have hIncreasing : ((d'.resolutions ds.registry ds.scope).map fun r => r.span.start).Pairwise (· < ·) := by
    obtain ⟨before, after, hBefore, hAfter⟩ := hSites
    have hParsed := @parse_sites_increasing ds.registry ds.scope _ _ h
    rw [hBefore] at hParsed
    rw [hAfter]
    simpa using hParsed
  refine congrArg style.write (Eq.trans ?_ hCalls)
  rw [calls_eq_callsAt h', calls_eq_callsAt_of_increasing hIncreasing]
  exact Node.callsAtIn_of_same_markup hSame.markup hAlike _ 0

end Pinned

/-- `<Box Value=1/>`, and with these attributes in front of its own. -/
def boxTag : Tag where
  span := ⟨0, 14⟩
  name := ⟨"Box", ⟨1, 4⟩⟩
  attributes := [⟨⟨"Value", ⟨5, 10⟩⟩, ⟨.integer 1, ⟨11, 12⟩⟩, ⟨5, 12⟩⟩]

def boxDocument (given : List Attribute) : Document :=
  ⟨[.markup (.element boxTag.span boxTag.name (given ++ boxTag.attributes) [] none)]⟩

def boxPins : List Attribute := [⟨⟨"T", ⟨0, 0⟩⟩, ⟨.type (.named "int"), ⟨0, 0⟩⟩, ⟨0, 0⟩⟩]

theorem generate_pinned_box :
    Document.parse "<Box Value=1/>" = .ok (boxDocument []) ∧
    ∃ d, Document.parse "<Box T=int Value=1/>" = .ok d ∧
      ∀ style, d.generate boxRegistry (d.resolutions boxRegistry .empty) style =
        (boxDocument []).generate boxRegistry ((boxDocument []).resolutions boxRegistry .empty) style := by
  have hParse : Document.parse "<Box Value=1/>" = .ok (boxDocument []) := by decide +kernel
  have hSame : (Document.parse "<Box T=int Value=1/>").toOption.map (Document.moved nowhere) =
      some ((boxDocument boxPins).moved nowhere) := by decide +kernel
  have hPins : Attribute.Pins boxPins ⟨"Box", ["T"], [⟨"Value", .named "T"⟩], ⟨0, 0⟩⟩ [some (.named "int")] :=
    ⟨by decide, by decide⟩
  cases h : Document.parse "<Box T=int Value=1/>" with
  | error e =>
    rw [h] at hSame
    cases hSame
  | ok d =>
    rw [h] at hSame
    have hTag : boxTag ∈ (boxDocument []).tags := List.mem_cons_self
    obtain ⟨-, hPinned⟩ := @Document.generate_pinned _ _ ⟨boxRegistry, .empty⟩ _ hTag rfl (by decide +kernel)
    obtain ⟨-, -, hAll⟩ := hPinned boxPins hPins
    have hFronts : (boxDocument []).Fronts boxPins boxTag (boxDocument boxPins) :=
      @Document.Fronts.markup _ _ [] [] _ _ .here
    obtain ⟨-, -, -, hSource⟩ := hAll (boxDocument boxPins) hFronts
    exact ⟨hParse, d, rfl, hSource _ _ d _ hParse h (Option.some.inj hSame) (.refl _)⟩

end TypedMarkup
