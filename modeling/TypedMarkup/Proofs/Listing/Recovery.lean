import TypedMarkup.Proofs.Listing.Shown

/-! # Recovering markup from a listing

The calls of a node end where the node ends, whatever calls follow, and tell the node up to its places, its closing
tag, and the attributes that give type arguments. So generated code loses nothing else of the markup.
-/
namespace TypedMarkup
set_option autoImplicit false

/-! ## From calls to markup -/

namespace Call

/-- The call is the first of a node. -/
def isOpening : Call → Bool
  | openElement _ | openComponent _ | addContent _ => true
  | _ => false

/-- The call can stand behind nodes in a row. -/
def isClosing : Call → Bool
  | closeElement | endContent => true
  | _ => false

theorem isClosing_of_isOpening {c : Call} (h : c.isOpening = true) : c.isClosing = false := by
  cases c <;> first | rfl | cases h

end Call

/-- No call, or one that stands behind nodes in a row. -/
def AtClosing (rest : List Call) : Prop := ∀ c ∈ rest.head?, c.isClosing = true

/-- No call, or the first of a node. -/
def AtOpening (calls : List Call) : Prop := ∀ c ∈ calls.head?, c.isOpening = true

section Recovery

variable {registry : Registry} {scope : Scope}

theorem Tag.isOpening_opening (tag : Tag) : (tag.opening registry scope).isOpening = true := by
  rw [opening]
  split <;> rfl

theorem Node.exists_ownCalls_cons (node : Node) :
    ∃ c rest, (node.ownCalls registry scope).map Call.shown = c :: rest ∧ c.isOpening = true := by
  cases node with
  | element span name attributes children closing =>
    rw [ownCalls, Tag.map_shown_ownCalls]
    exact ⟨_, _, rfl, Tag.isOpening_opening _⟩
  | text _ content => exact ⟨_, _, rfl, rfl⟩
  | expression _ name => exact ⟨_, _, rfl, rfl⟩

theorem Node.atOpening_ownCallsIn (nodes : List Node) :
    AtOpening ((ownCallsIn registry scope nodes).map Call.shown) := by
  cases nodes with
  | nil => simp [ownCallsIn, AtOpening]
  | cons node rest =>
    obtain ⟨c, own, hOwn, hOpening⟩ := @Node.exists_ownCalls_cons registry scope node
    simp [ownCallsIn, AtOpening, hOwn, hOpening]

namespace Tag

variable {tag tag' : Tag}

/-- The names are the same, so that both tags are registered or none is, and one component stands behind both. -/
theorem opening_inj (h : tag.Legible registry scope) (h' : tag'.Legible registry scope)
    (hOpening : tag.opening registry scope = tag'.opening registry scope) :
    tag.name.value = tag'.name.value ∧ (tag.resolution? registry scope).map Resolution.shown =
      (tag'.resolution? registry scope).map Resolution.shown := by
  rw [opening, opening] at hOpening
  cases hOwn : tag.resolution? registry scope with
  | none =>
    cases hOwn' : tag'.resolution? registry scope with
    | none =>
      rw [hOwn, hOwn'] at hOpening
      exact ⟨Call.openElement.inj hOpening, rfl⟩
    | some r' =>
      rw [hOwn, hOwn'] at hOpening
      cases hOpening
  | some r =>
    cases hOwn' : tag'.resolution? registry scope with
    | none =>
      rw [hOwn, hOwn'] at hOpening
      cases hOpening
    | some r' =>
      rw [hOwn, hOwn'] at hOpening
      obtain ⟨c, hGet, hr⟩ := resolution?_eq_some_iff.mp hOwn
      obtain ⟨c', hGet', hr'⟩ := resolution?_eq_some_iff.mp hOwn'
      have hName : r.component = tag.name.value := by rw [hr, ← Registry.name_of_get?_eq_some hGet]; rfl
      have hName' : r'.component = tag'.name.value := by rw [hr', ← Registry.name_of_get?_eq_some hGet']; rfl
      obtain ⟨hSame, hArgs⟩ := componentType_inj (hName ▸ h.name) (hName' ▸ h'.name) (h.args r hOwn) (h'.args r' hOwn')
        (Call.openComponent.inj hOpening)
      refine ⟨by rw [← hName, hSame, hName'], ?_⟩
      rw [Option.map_some, Option.map_some, Resolution.shown, Resolution.shown, hSame, hArgs]

/-- The calls of the children stand in front of a call that closes them. -/
theorem content_inj (hName : tag.name.value = tag'.name.value) {inner inner' rest rest' : List Call}
    (h : tag.content registry inner rest = tag'.content registry inner' rest') :
    ∃ closing : List Call → List Call, (∀ more, AtClosing (closing more)) ∧
      inner ++ closing rest = inner' ++ closing rest' ∧ (closing rest = closing rest' → rest = rest') := by
  rw [content, content, ← hName] at h
  cases hGet : registry.get? tag.name.value with
  | none =>
    rw [hGet] at h
    exact ⟨fun more => .closeElement :: more, by simp [AtClosing, Call.isClosing], h,
      fun hSame => (List.cons.inj hSame).2⟩
  | some c =>
    simp only [hGet] at h
    refine ⟨fun more => .endContent :: .closeComponent :: more, by simp [AtClosing, Call.isClosing], ?_,
      fun hSame => (List.cons.inj (List.cons.inj hSame).2).2⟩
    -- Without children there is no content block, so that both have one or neither.
    cases inner with
    | nil =>
      cases inner' with
      | nil => rw [(List.cons.inj h).2]
      | cons => cases h
    | cons =>
      cases inner' with
      | nil => cases h
      | cons => exact (List.cons.inj h).2

end Tag

/-- No call, or one that does not add an attribute. -/
def PastAttributes (calls : List Call) : Prop := ∀ c ∈ calls.head?, ∀ name value, c ≠ .addAttribute name value

theorem Tag.pastAttributes_content (tag : Tag) {inner : List Call} (h : AtOpening inner) (rest : List Call) :
    PastAttributes (tag.content registry inner rest) := by
  have hOpening : ∀ c : Call, c.isOpening = true → ∀ name value, c ≠ .addAttribute name value := by
    rintro c hc name value rfl
    cases hc
  rw [content]
  split
  · cases inner with
    | nil => simp [PastAttributes]
    | cons c inner => simpa [PastAttributes] using hOpening c (h c rfl)
  · split <;> simp [PastAttributes]

theorem Attribute.shown_eq_iff {a b : Attribute} : a.shown = b.shown ↔ a.call.shown = b.call.shown := by
  simp [shown, Attribute.call, Call.shown, Located.moved, Span.moved]

theorem attributes_append_inj {as bs : List Attribute} {rest rest' : List Call} (hRest : PastAttributes rest)
    (hRest' : PastAttributes rest')
    (h : as.map (fun a => a.call.shown) ++ rest = bs.map (fun a => a.call.shown) ++ rest') :
    as.map Attribute.shown = bs.map Attribute.shown ∧ rest = rest' := by
  induction as generalizing bs with
  | nil =>
    cases bs with
    | nil => exact ⟨rfl, h⟩
    | cons b bs => exact absurd rfl (hRest b.call.shown (by simp [show rest = _ from h]) _ _)
  | cons a as ih =>
    cases bs with
    | nil => exact absurd rfl (hRest' a.call.shown (by simp [show rest' = _ from h.symm]) _ _)
    | cons b bs =>
      obtain ⟨hFirst, hTail⟩ := List.cons.inj h
      obtain ⟨hAttributes, hSame⟩ := ih hTail
      rw [List.map_cons, List.map_cons, Attribute.shown_eq_iff.mpr hFirst, hAttributes]
      exact ⟨rfl, hSame⟩

/-- The calls of a tag, with other calls behind them, tell its name, its attributes and its resolution. -/
theorem Tag.ownCalls_inj {tag tag' : Tag} (h : tag.Legible registry scope) (h' : tag'.Legible registry scope)
    {inner inner' rest rest' : List Call} (hInner : AtOpening (inner.map Call.shown))
    (hInner' : AtOpening (inner'.map Call.shown))
    (hCalls : (tag.ownCalls registry scope inner).map Call.shown ++ rest =
      (tag'.ownCalls registry scope inner').map Call.shown ++ rest') :
    tag.name.value = tag'.name.value ∧
      (tag.passed registry).map Attribute.shown = (tag'.passed registry).map Attribute.shown ∧
      (tag.resolution? registry scope).map Resolution.shown = (tag'.resolution? registry scope).map Resolution.shown ∧
      ∃ closing : List Call → List Call, (∀ more, AtClosing (closing more)) ∧
        inner.map Call.shown ++ closing rest = inner'.map Call.shown ++ closing rest' ∧
        (closing rest = closing rest' → rest = rest') := by
  rw [map_shown_ownCalls_append, map_shown_ownCalls_append] at hCalls
  obtain ⟨hOpening, hBehind⟩ := List.cons.inj hCalls
  obtain ⟨hName, hResolution⟩ := opening_inj h h' hOpening
  obtain ⟨hAttributes, hContent⟩ := attributes_append_inj (tag.pastAttributes_content hInner rest)
    (tag'.pastAttributes_content hInner' rest') hBehind
  exact ⟨hName, hAttributes, hResolution, content_inj hName hContent⟩

theorem Node.resolutions_element (span : Span) (name : Identifier) (attributes : List Attribute) (children : List Node)
    (closing : Option Identifier) : (element span name attributes children closing).resolutions registry scope =
      (Tag.resolution? registry scope ⟨span, name, attributes⟩).toList ++ resolutionsIn registry scope children := by
  rw [resolutions, Tag.resolution?]
  cases registry.get? name.value <;> rfl

theorem quoted_ne_name {content name : String} (hName : Token.IsName name) : Text.quoted content ≠ name := by
  intro hText
  have hText' : (AttributeValue.text content).Legible := trivial
  cases AttributeValue.code_inj hText' (show (AttributeValue.binding name).Legible from hName) hText

theorem Tag.opening_ne_addContent (tag : Tag) (code : String) : tag.opening registry scope ≠ .addContent code := by
  rw [opening]
  split <;> simp

theorem Node.not_atClosing (node : Node) (more : List Node) (rest : List Call) :
    ¬ AtClosing ((ownCallsIn registry scope (node :: more)).map Call.shown ++ rest) := by
  obtain ⟨c, own, hOwn, hOpening⟩ := @Node.exists_ownCalls_cons registry scope node
  intro hClosing
  have hc : c.isClosing = true := hClosing c (by simp [ownCallsIn, hOwn])
  rw [Call.isClosing_of_isOpening hOpening] at hc
  cases hc

theorem Node.ownCalls_element_ne {span : Span} {name : Identifier} {attributes : List Attribute} {children : List Node}
    {closing : Option Identifier} {code : String} {rest rest' : List Call} :
    ((element span name attributes children closing).ownCalls registry scope).map Call.shown ++ rest ≠
      .addContent code :: rest' := by
  intro hCalls
  rw [ownCalls, Tag.map_shown_ownCalls_append] at hCalls
  exact Tag.opening_ne_addContent _ code (List.cons.inj hCalls).1

mutual
theorem Node.shown_of_calls : ∀ {node node' : Node} {rest rest' : List Call}, node.Legible registry scope →
    node'.Legible registry scope →
    (node.ownCalls registry scope).map Call.shown ++ rest = (node'.ownCalls registry scope).map Call.shown ++ rest' →
    node.shown registry = node'.shown registry ∧
      (node.resolutions registry scope).map Resolution.shown = (node'.resolutions registry scope).map Resolution.shown ∧
      rest = rest'
  | .text _ content, node', rest, rest', _, h', hCalls => by
    cases node' with
    | text _ content' =>
      obtain ⟨hCode, hRest⟩ := List.cons.inj (show .addContent (Text.quoted content) :: rest = _ from hCalls)
      rw [shown, shown, Text.quoted_inj (Call.addContent.inj hCode)]
      exact ⟨rfl, rfl, hRest⟩
    | expression _ name' =>
      obtain ⟨hCode, -⟩ := List.cons.inj (show .addContent (Text.quoted content) :: rest = _ from hCalls)
      exact absurd (Call.addContent.inj hCode) (quoted_ne_name h')
    | element => exact absurd hCalls.symm Node.ownCalls_element_ne
  | .expression _ name, node', rest, rest', h, h', hCalls => by
    cases node' with
    | text _ content' =>
      obtain ⟨hCode, -⟩ := List.cons.inj (show .addContent name :: rest = _ from hCalls)
      exact absurd (Call.addContent.inj hCode).symm (quoted_ne_name h)
    | expression _ name' =>
      obtain ⟨hCode, hRest⟩ := List.cons.inj (show .addContent name :: rest = _ from hCalls)
      rw [shown, shown, Call.addContent.inj hCode]
      exact ⟨rfl, rfl, hRest⟩
    | element => exact absurd hCalls.symm Node.ownCalls_element_ne
  | .element span name attributes children closing, node', rest, rest', h, h', hCalls => by
    cases node' with
    | text => exact absurd hCalls Node.ownCalls_element_ne
    | expression => exact absurd hCalls Node.ownCalls_element_ne
    | element span' name' attributes' children' closing' =>
      rw [ownCalls, ownCalls] at hCalls
      obtain ⟨hName, hAttributes, hResolution, closing, hClosing, hInner, hBack⟩ :=
        Tag.ownCalls_inj h.1 h'.1 (Node.atOpening_ownCallsIn children) (Node.atOpening_ownCallsIn children') hCalls
      obtain ⟨hChildren, hSites, hRest⟩ :=
        Node.shownIn_of_calls h.2 h'.2 (hClosing rest) (hClosing rest') hInner
      refine ⟨?_, ?_, hBack hRest⟩
      · rw [shown, shown, hAttributes, hChildren, Located.moved, Located.moved,
          show name.value = name'.value from hName]
        rfl
      · rw [resolutions_element, resolutions_element, List.map_append, List.map_append, hSites, ← Option.toList_map,
          ← Option.toList_map, hResolution]

theorem Node.shownIn_of_calls : ∀ {nodes nodes' : List Node} {rest rest' : List Call}, LegibleIn registry scope nodes →
    LegibleIn registry scope nodes' → AtClosing rest → AtClosing rest' →
    (ownCallsIn registry scope nodes).map Call.shown ++ rest =
      (ownCallsIn registry scope nodes').map Call.shown ++ rest' →
    shownIn registry nodes = shownIn registry nodes' ∧
      (resolutionsIn registry scope nodes).map Resolution.shown =
        (resolutionsIn registry scope nodes').map Resolution.shown ∧
      rest = rest'
  | [], nodes', rest, rest', _, _, hRest, hRest', hCalls => by
    cases nodes' with
    | nil => exact ⟨rfl, rfl, hCalls⟩
    | cons node' more' =>
      have hSame : rest = _ := hCalls
      rw [hSame] at hRest
      exact absurd hRest (Node.not_atClosing node' more' rest')
  | node :: more, nodes', rest, rest', h, h', hRest, hRest', hCalls => by
    cases nodes' with
    | nil =>
      have hSame : rest' = _ := hCalls.symm
      rw [hSame] at hRest'
      exact absurd hRest' (Node.not_atClosing node more rest)
    | cons node' more' =>
      rw [ownCallsIn, ownCallsIn, List.map_append, List.map_append, List.append_assoc, List.append_assoc] at hCalls
      obtain ⟨hNode, hSites, hBehind⟩ := Node.shown_of_calls h.1 h'.1 hCalls
      obtain ⟨hMore, hMoreSites, hSame⟩ := Node.shownIn_of_calls h.2 h'.2 hRest hRest' hBehind
      rw [shownIn, shownIn, resolutionsIn, resolutionsIn, List.map_append, List.map_append, hNode, hSites, hMore,
        hMoreSites]
      exact ⟨rfl, rfl, hSame⟩
end

/-! ## From markup to calls -/

theorem Attribute.call_shown (a : Attribute) : a.shown.call = a.call.shown := rfl

theorem Tag.opening_of_shown {tag tag' : Tag} (hName : tag.name.value = tag'.name.value)
    (hResolution : (tag.resolution? registry scope).map Resolution.shown =
      (tag'.resolution? registry scope).map Resolution.shown) :
    tag.opening registry scope = tag'.opening registry scope := by
  have hOpening : ∀ t : Tag, t.opening registry scope =
      match (t.resolution? registry scope).map Resolution.shown with
      | none => .openElement t.name.value
      | some (component, args) => .openComponent (componentType component args) := by
    intro t
    rw [opening]
    cases t.resolution? registry scope <;> rfl
  rw [hOpening, hOpening, hResolution, hName]

theorem Tag.content_of_name {tag tag' : Tag} (hName : tag.name.value = tag'.name.value) (inner rest : List Call) :
    tag.content registry inner rest = tag'.content registry inner rest := by
  rw [content, content, hName]

/-- Tags of one name are both registered or both not, so that in a row of resolutions both have a place or neither. -/
theorem Tag.resolution?_append_inj {tag tag' : Tag} (hName : tag.name.value = tag'.name.value)
    {rest rest' : List (String × List (Option TypeExpr))}
    (h : ((tag.resolution? registry scope).map Resolution.shown).toList ++ rest =
      ((tag'.resolution? registry scope).map Resolution.shown).toList ++ rest') :
    (tag.resolution? registry scope).map Resolution.shown = (tag'.resolution? registry scope).map Resolution.shown ∧
      rest = rest' := by
  rw [resolution?, resolution?, ← hName] at h ⊢
  cases hGet : registry.get? tag.name.value with
  | none =>
    rw [hGet] at h
    exact ⟨rfl, h⟩
  | some c =>
    rw [hGet] at h
    obtain ⟨hOwn, hRest⟩ := List.cons.inj h
    exact ⟨congrArg some hOwn, hRest⟩

mutual
theorem Node.calls_of_shown : ∀ {node node' : Node} {rest rest' : List (String × List (Option TypeExpr))},
    node.shown registry = node'.shown registry →
    (node.resolutions registry scope).map Resolution.shown ++ rest =
      (node'.resolutions registry scope).map Resolution.shown ++ rest' →
    (node.ownCalls registry scope).map Call.shown = (node'.ownCalls registry scope).map Call.shown ∧ rest = rest'
  | .text _ content, node', _, _, h, hSites => by
    cases node' with
    | text _ content' =>
      rw [shown, shown] at h
      rw [ownCalls, ownCalls, (Node.text.inj h).2]
      exact ⟨rfl, hSites⟩
    | _ => cases h
  | .expression _ name, node', _, _, h, hSites => by
    cases node' with
    | expression _ name' =>
      rw [shown, shown] at h
      rw [ownCalls, ownCalls, (Node.expression.inj h).2]
      exact ⟨rfl, hSites⟩
    | _ => cases h
  | .element span name attributes children closing, node', rest, rest', h, hSites => by
    cases node' with
    | element span' name' attributes' children' closing' =>
      rw [shown, shown] at h
      obtain ⟨-, hMoved, hAttributes, hChildren, -⟩ := Node.element.inj h
      have hName : (Tag.mk span name attributes).name.value = (Tag.mk span' name' attributes').name.value :=
        (Located.mk.inj hMoved).1
      rw [resolutions_element, resolutions_element, List.map_append, List.map_append, ← Option.toList_map,
        ← Option.toList_map, List.append_assoc, List.append_assoc] at hSites
      obtain ⟨hOwn, hInner⟩ := Tag.resolution?_append_inj hName hSites
      obtain ⟨hCalls, hRest⟩ := Node.callsIn_of_shown hChildren hInner
      have hPassed := congrArg (List.map Attribute.call) hAttributes
      simp only [List.map_map, Function.comp_def, Attribute.call_shown] at hPassed
      refine ⟨?_, hRest⟩
      rw [ownCalls, ownCalls, Tag.map_shown_ownCalls, Tag.map_shown_ownCalls, Tag.opening_of_shown hName hOwn, hCalls,
        Tag.content_of_name hName, hPassed]
    | _ => cases h

theorem Node.callsIn_of_shown : ∀ {nodes nodes' : List Node} {rest rest' : List (String × List (Option TypeExpr))},
    shownIn registry nodes = shownIn registry nodes' →
    (resolutionsIn registry scope nodes).map Resolution.shown ++ rest =
      (resolutionsIn registry scope nodes').map Resolution.shown ++ rest' →
    (ownCallsIn registry scope nodes).map Call.shown = (ownCallsIn registry scope nodes').map Call.shown ∧ rest = rest'
  | [], nodes', _, _, h, hSites => by
    cases nodes' with
    | nil => exact ⟨rfl, hSites⟩
    | cons => cases h
  | node :: more, nodes', rest, rest', h, hSites => by
    cases nodes' with
    | nil => cases h
    | cons node' more' =>
      obtain ⟨hNode, hMore⟩ := List.cons.inj h
      rw [resolutionsIn, resolutionsIn, List.map_append, List.map_append, List.append_assoc,
        List.append_assoc] at hSites
      obtain ⟨hCalls, hBehind⟩ := Node.calls_of_shown hNode hSites
      obtain ⟨hMoreCalls, hRest⟩ := Node.callsIn_of_shown hMore hBehind
      rw [ownCallsIn, ownCallsIn, List.map_append, List.map_append, hCalls, hMoreCalls]
      exact ⟨rfl, hRest⟩
end

end Recovery

/-! ## Documents -/

/-- Generated code shows the markup and the type arguments, and just these. Of the markup it does not show where it
stands, whether an element without children closes itself, whether a name is referred to, and which attributes give
type arguments. -/
theorem Document.generate_eq_iff {source source' : String} {d d' : Document} (h : parse source = .ok d)
    (h' : parse source' = .ok d') (hFloat : d.FloatFree) (hFloat' : d'.FloatFree) (registry : Registry) {scope : Scope}
    (hScope : scope.Declared) {style : ListingStyle} (hBuilder : Text.OneLine style.builder) :
    d.generate registry (d.resolutions registry scope) style =
        d'.generate registry (d'.resolutions registry scope) style ↔
      d.markup.map (Node.shown registry) = d'.markup.map (Node.shown registry) ∧
      (d.resolutions registry scope).map Resolution.shown = (d'.resolutions registry scope).map Resolution.shown := by
  have hLegible := @legible_markup registry _ _ _ h hFloat hScope
  have hLegible' := @legible_markup registry _ _ _ h' hFloat' hScope
  have hCalls := calls_eq_ownCalls h registry scope
  have hCalls' := calls_eq_ownCalls h' registry scope
  have hEach : ∀ c ∈ d.calls registry (d.resolutions registry scope), c.OneLine ∧ c.Legible := fun c hc =>
    ⟨oneLine_calls h (fun _ => oneLine_of_mem_resolutions h hScope.oneLine) c hc,
      Node.legible_ownCallsIn hLegible c (hCalls ▸ hc)⟩
  have hEach' : ∀ c ∈ d'.calls registry (d'.resolutions registry scope), c.OneLine ∧ c.Legible := fun c hc =>
    ⟨oneLine_calls h' (fun _ => oneLine_of_mem_resolutions h' hScope.oneLine) c hc,
      Node.legible_ownCallsIn hLegible' c (hCalls' ▸ hc)⟩
  rw [generate, generate, ListingStyle.write_eq_iff hBuilder hEach hEach', hCalls, hCalls', ← Node.shownIn_eq_map,
    ← Node.shownIn_eq_map]
  constructor
  · intro hShown
    have hClosing : AtClosing [] := by
      intro c hc
      cases hc
    obtain ⟨hMarkup, hSites, -⟩ :=
      Node.shownIn_of_calls hLegible hLegible' hClosing hClosing (congrArg (· ++ []) hShown)
    exact ⟨hMarkup, hSites⟩
  · rintro ⟨hMarkup, hSites⟩
    exact (Node.callsIn_of_shown hMarkup (congrArg (· ++ []) hSites)).1

/-- A type argument may be inferred or given, a name referred to or stand alone, and an element close itself or not. -/
theorem generate_eq_iff_box : ∃ d d', Document.parse "let n: int <Box Value=@n/>" = .ok d ∧
    Document.parse "<Box T=int Value=n></Box>" = .ok d' ∧ d.markup ≠ d'.markup ∧
    d.markup.map (Node.shown boxRegistry) = d'.markup.map (Node.shown boxRegistry) := by
  have hBoth : ((Document.parse "let n: int <Box Value=@n/>").toOption.bind fun d =>
      (Document.parse "<Box T=int Value=n></Box>").toOption.map fun d' =>
        decide (d.FloatFree ∧ d'.FloatFree ∧ d.markup ≠ d'.markup ∧
          d.generate boxRegistry (d.resolutions boxRegistry (Scope.empty.collect d.bindings).1) .standard =
            d'.generate boxRegistry (d'.resolutions boxRegistry (Scope.empty.collect d.bindings).1) .standard)) =
      some true := by decide +kernel
  cases h : Document.parse "let n: int <Box Value=@n/>" with
  | error e =>
    rw [h] at hBoth
    cases hBoth
  | ok d =>
    cases h' : Document.parse "<Box T=int Value=n></Box>" with
    | error e =>
      rw [h, h'] at hBoth
      cases hBoth
    | ok d' =>
      rw [h, h'] at hBoth
      obtain ⟨hFloat, hFloat', hDiffer, hText⟩ := of_decide_eq_true (Option.some.inj hBoth)
      have hScope : (Scope.empty.collect d.bindings).1.Declared := Scope.Declared.empty.collect h
      have hShown := (Document.generate_eq_iff h h' hFloat hFloat' boxRegistry hScope (by decide)).mp hText
      exact ⟨d, d', rfl, rfl, hDiffer, hShown.1⟩

end TypedMarkup
