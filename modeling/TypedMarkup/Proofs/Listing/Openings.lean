import TypedMarkup.Proofs.Document.Spelling
import TypedMarkup.Proofs.Listing.Positions

/-! # Components in a listing

A listing opens a component for each of the resolved sites, in the order of the sites, and writes the type
arguments that are not known as question marks.
-/
namespace TypedMarkup
set_option autoImplicit false

def Call.openedType? : Call → Option String
  | openComponent type => some type
  | _ => none

/-- The component of the site with its type arguments. -/
def Resolution.type (r : Resolution) : String := componentType r.component r.args

namespace ListingStyle

/-- The line opens a component of the type. -/
def Opens (style : ListingStyle) (type line : String) : Prop :=
  ∃ indent sequence : Nat, line = Text.spaces indent ++
    (style.builder ++ ".open_component::<" ++ type ++ ">(" ++ toString sequence ++ ");")

/-- The lines of the calls that open components, among lines that go with calls. -/
def openings (calls : List Call) (lines : List String) : List String :=
  ((calls.zip lines).filter fun p => p.1.openedType?.isSome).map Prod.snd

theorem opens_linesFrom (style : ListingStyle) (calls : List Call) (depth sequence : Nat) :
    List.Forall₂ style.Opens (calls.filterMap Call.openedType?)
      (openings calls (style.linesFrom depth sequence calls)) := by
  induction calls generalizing depth sequence with
  | nil => exact .nil
  | cons call rest ih =>
    have hRest := ih (call.depthAfter depth) (call.sequenceAfter sequence)
    cases call with
    | openComponent type => exact .cons ⟨_, _, rfl⟩ hRest
    | openElement => exact hRest
    | closeElement => exact hRest
    | closeComponent => exact hRest
    | addAttribute => exact hRest
    | addContent => exact hRest
    | beginContent => exact hRest
    | endContent => exact hRest

theorem opens_lines (style : ListingStyle) (calls : List Call) :
    List.Forall₂ style.Opens (calls.filterMap Call.openedType?) (openings calls (style.lines calls)) :=
  style.opens_linesFrom calls 0 0

end ListingStyle

theorem Call.openedType?_eq_some_iff {call : Call} {type : String} :
    call.openedType? = some type ↔ call = .openComponent type := by
  cases call <;> simp [openedType?]

theorem openedTypes_attributes (attributes : List Attribute) :
    (attributes.map Attribute.call).filterMap Call.openedType? = [] := by
  rw [List.filterMap_eq_nil_iff]
  intro call hCall
  obtain ⟨a, -, rfl⟩ := List.mem_map.mp hCall
  rfl

theorem Tag.openedTypes_plainCalls (tag : Tag) (inner : List Call) :
    (tag.plainCalls inner).filterMap Call.openedType? = inner.filterMap Call.openedType? := by
  simp only [plainCalls, List.filterMap_cons, List.filterMap_append, openedTypes_attributes, Call.openedType?,
    List.filterMap_nil, List.nil_append, List.append_nil]

theorem Tag.openedTypes_componentCalls (tag : Tag) (c : Component) (args : List (Option TypeExpr))
    (inner : List Call) : (tag.componentCalls c args inner).filterMap Call.openedType? =
      componentType c.name args :: inner.filterMap Call.openedType? := by
  have hContent : (if inner.isEmpty then [] else .beginContent :: inner ++ [.endContent]).filterMap
      Call.openedType? = inner.filterMap Call.openedType? := by
    cases inner with
    | nil => rfl
    | cons call rest =>
      rw [if_neg (by simp), List.cons_append, List.filterMap_cons_none rfl, List.filterMap_append]
      exact List.append_nil _
  simp only [componentCalls, List.filterMap_cons, List.filterMap_append, openedTypes_attributes, hContent,
    Call.openedType?, List.filterMap_nil, List.nil_append, List.append_nil]

section Openings

variable {registry : Registry} {scope : Scope}

mutual
theorem Node.openedTypes_callsAt : ∀ (node : Node) (position : Nat),
    (node.callsAt registry scope (fun _ => true) position).filterMap Call.openedType? =
      (node.resolutions registry scope).map Resolution.type
  | .text _ _, _ => rfl
  | .expression _ _, _ => rfl
  | .element span name attributes children closing, position => by
    rw [callsAt, resolutions, List.map_append]
    cases registry.get? name.value with
    | none =>
      rw [Tag.openedTypes_plainCalls, Node.openedTypes_callsAtIn children position, List.map_nil, List.nil_append]
    | some c =>
      simp only [if_true]
      rw [Tag.openedTypes_componentCalls, Node.openedTypes_callsAtIn children (position + 1)]
      rfl

theorem Node.openedTypes_callsAtIn : ∀ (nodes : List Node) (position : Nat),
    (callsAtIn registry scope (fun _ => true) position nodes).filterMap Call.openedType? =
      (resolutionsIn registry scope nodes).map Resolution.type
  | [], _ => rfl
  | node :: rest, position => by
    rw [callsAtIn, resolutionsIn, List.filterMap_append, List.map_append, Node.openedTypes_callsAt node position,
      Node.openedTypes_callsAtIn rest _]
end

mutual
theorem Node.openComponent_mem_calls {sites : List Resolution} {r : Resolution}
    (hSite : Resolution.at? sites r.span.start = some r) :
    ∀ node : Node, r ∈ node.resolutions registry scope → .openComponent r.type ∈ node.calls registry sites
  | .text _ _, h => by cases h
  | .expression _ _, h => by cases h
  | .element span name attributes children closing, h => by
    rw [resolutions] at h
    rw [calls]
    rcases List.mem_append.mp h with hOwn | hInner
    · cases hGet : registry.get? name.value with
      | none =>
        rw [hGet] at hOwn
        cases hOwn
      | some c =>
        rw [hGet] at hOwn
        obtain rfl := List.mem_singleton.mp hOwn
        change Resolution.at? sites span.start = _ at hSite
        simp only [hSite]
        exact List.mem_cons_self
    · have hMem := Node.openComponent_mem_callsIn hSite children hInner
      split
      case h_1 =>
        have hSome : children.isEmpty = false := by
          cases children with
          | nil => cases hInner
          | cons _ _ => rfl
        simp [hSome, hMem]
      case h_2 => simp [hMem]

theorem Node.openComponent_mem_callsIn {sites : List Resolution} {r : Resolution}
    (hSite : Resolution.at? sites r.span.start = some r) :
    ∀ nodes : List Node, r ∈ resolutionsIn registry scope nodes → .openComponent r.type ∈ callsIn registry sites nodes
  | [], h => by cases h
  | node :: rest, h => by
    rw [callsIn, List.mem_append]
    rcases List.mem_append.mp h with hFirst | hRest
    · exact .inl (Node.openComponent_mem_calls hSite node hFirst)
    · exact .inr (Node.openComponent_mem_callsIn hSite rest hRest)
end

end Openings

/-- Whichever of its resolutions a document is generated with, it opens the components of their sites. -/
theorem Document.openComponent_mem_calls {source : String} {d : Document} (h : parse source = .ok d)
    {registry : Registry} {scope : Scope} {sites : List Resolution} (hSites : sites ⊆ d.resolutions registry scope)
    {r : Resolution} (hr : r ∈ sites) : .openComponent r.type ∈ d.calls registry sites := by
  apply Node.openComponent_mem_callsIn _ d.markup (hSites hr)
  rw [Resolution.at?_of_increasing (parse_sites_increasing h) hSites (hSites hr), if_pos hr]

/-- Generated with all of its resolutions, a document opens just the components of its sites. -/
theorem Document.openedTypes_calls {source : String} {d : Document} (h : parse source = .ok d)
    (registry : Registry) (scope : Scope) :
    (d.calls registry (d.resolutions registry scope)).filterMap Call.openedType? =
      (d.resolutions registry scope).map Resolution.type := by
  rw [calls_eq_callsAt h]
  exact Node.openedTypes_callsAtIn d.markup 0

theorem Document.openComponent_mem_calls_iff {source : String} {d : Document} (h : parse source = .ok d)
    {registry : Registry} {scope : Scope} {type : String} :
    .openComponent type ∈ d.calls registry (d.resolutions registry scope) ↔
      ∃ r ∈ d.resolutions registry scope, r.type = type := by
  have hMem : .openComponent type ∈ d.calls registry (d.resolutions registry scope) ↔
      type ∈ (d.calls registry (d.resolutions registry scope)).filterMap Call.openedType? := by
    simp [List.mem_filterMap, Call.openedType?_eq_some_iff]
  rw [hMem, openedTypes_calls h, List.mem_map]

/-! ## Question marks -/

theorem mem_intercalate_iff {α : Type} {separator : List α} {x : α} (hSeparator : x ∉ separator) :
    ∀ rows : List (List α), x ∈ separator.intercalate rows ↔ ∃ row ∈ rows, x ∈ row
  | [] => by simp
  | [row] => by simp
  | row :: next :: rest => by
    rw [List.intercalate_cons_cons, List.mem_append, List.mem_append,
      mem_intercalate_iff hSeparator (next :: rest)]
    simp [hSeparator]

namespace TypeExpr

theorem not_mem_displayRest {x : Char} (hSigns : x ∉ "<>[], ".toList) {ts : List TypeExpr}
    (h : ∀ t ∈ ts, x ∉ t.display.toList) : x ∉ (displayRest ts).toList := by
  induction ts with
  | nil => simp [displayRest]
  | cons t rest ih =>
    have hRest := ih fun t' ht' => h t' (List.mem_cons_of_mem _ ht')
    have hFirst := h t List.mem_cons_self
    simp_all [displayRest]

theorem not_mem_display {x : Char} (hSigns : x ∉ "<>[], ".toList) {t : TypeExpr} :
    (∀ n ∈ t.names, x ∉ n.toList) → x ∉ t.display.toList := by
  induction t using ind with
  | h n args ih =>
    intro hNames
    rw [names_app] at hNames
    have hHead : x ∉ n.toList := hNames n List.mem_cons_self
    have hArgs : ∀ a ∈ args, x ∉ a.display.toList := by
      intro a ha
      apply ih a ha
      intro m hm
      exact hNames m (List.mem_cons_of_mem _ (List.mem_flatMap.mpr ⟨a, ha, hm⟩))
    cases args with
    | nil =>
      rw [display]
      exact hHead
    | cons a rest =>
      have hFirst := hArgs a List.mem_cons_self
      have hRest := not_mem_displayRest hSigns fun t ht => hArgs t (List.mem_cons_of_mem _ ht)
      rw [display]
      split <;> simp_all

end TypeExpr

/-- The text of a type argument, known or not. -/
def argText : Option TypeExpr → String
  | some t => t.display
  | none => "?"

theorem mem_componentType_iff {x : Char} (hSigns : x ∉ "<>, ".toList) {name : String}
    {args : List (Option TypeExpr)} : x ∈ (componentType name args).toList ↔
      x ∈ name.toList ∨ ∃ arg ∈ args, x ∈ (argText arg).toList := by
  have hApart : x ∉ "<".toList ∧ x ∉ ">".toList ∧ x ∉ ", ".toList := by simp_all
  rw [componentType]
  split
  case isTrue hEmpty => simp [List.isEmpty_iff.mp hEmpty]
  case isFalse =>
    change x ∈ (name ++ "<" ++ ", ".intercalate (args.map argText) ++ ">").toList ↔ _
    rw [String.toList_append, String.toList_append, String.toList_append, String.toList_intercalate, List.mem_append,
      List.mem_append, List.mem_append, mem_intercalate_iff hApart.2.2]
    simp only [hApart, or_false, List.map_map, List.mem_map, Function.comp_apply, exists_exists_and_eq_and]

/-- The type of a component has a question mark where an argument is not known. -/
theorem question_mem_componentType_iff {name : String} {args : List (Option TypeExpr)} (hName : '?' ∉ name.toList)
    (hArgs : ∀ t, some t ∈ args → '?' ∉ t.display.toList) :
    '?' ∈ (componentType name args).toList ↔ none ∈ args := by
  rw [mem_componentType_iff (by decide)]
  constructor
  · rintro (h | ⟨arg, hArg, h⟩)
    · exact absurd h hName
    · cases arg with
      | none => exact hArg
      | some t => exact absurd h (hArgs t hArg)
  · intro hNone
    exact .inr ⟨none, hNone, by decide⟩

end TypedMarkup
