import TypedMarkup.Document.Basic
import TypedMarkup.Proofs.Token.Spelling

/-! # Spellings of documents

Which rows of tokens write a document. There is a choice in three places only: a comma may stand behind the
last type parameter, the value of an attribute may be left out if it is true, and an array may be written
by its name or as a suffix. Spans are no part of what is written.
-/
namespace TypedMarkup
set_option autoImplicit false
open Spelling

namespace TypeExpr

inductive Spelled : TypeExpr → List Token → Prop
  | named (name : String) : Spelled (named name) [.identifier name]
  | applied {name : String} {args : List TypeExpr} {ts : List Token} (h : Separated .comma Spelled args ts) :
      Spelled (app name args) (.identifier name :: .mark .less :: (ts ++ [.mark .greater]))
  | array {element : TypeExpr} {ts : List Token} (h : Spelled element ts) :
      Spelled element.array (ts ++ [.mark .bracketOpen, .mark .bracketClose])

mutual
/-- The names that occur in a type, from left to right. -/
def names : TypeExpr → List String
  | app name args => name :: namesOfArgs args

def namesOfArgs : List TypeExpr → List String
  | [] => []
  | a :: rest => names a ++ namesOfArgs rest
end

theorem namesOfArgs_eq_flatMap (ts : List TypeExpr) : namesOfArgs ts = ts.flatMap names := by
  induction ts with
  | nil => rfl
  | cons t rest ih => rw [namesOfArgs, List.flatMap_cons, ih]

theorem names_app (name : String) (args : List TypeExpr) :
    (app name args).names = name :: args.flatMap names := by
  rw [names, namesOfArgs_eq_flatMap]

/-- A name is written where it occurs, but for that of an array with a suffix. -/
theorem Spelled.mem_of_mem_names {t : TypeExpr} {name : String} (hName : name ∈ t.names) :
    ∀ {ts : List Token}, t.Spelled ts → name = arrayName ∨ .identifier name ∈ ts := by
  induction t using ind with
  | h head args ih =>
    intro ts h
    rw [names_app, List.mem_cons, List.mem_flatMap] at hName
    cases h with
    | named =>
      rcases hName with rfl | ⟨_, ha, -⟩
      · exact .inr List.mem_cons_self
      · cases ha
    | applied hArgs =>
      rcases hName with rfl | ⟨a, ha, hInner⟩
      · exact .inr List.mem_cons_self
      · obtain ⟨own, hOwn, hSub⟩ := hArgs.exists_of_mem ha
        rcases ih a ha hInner hOwn with hArray | hMem
        · exact .inl hArray
        · right
          simp [hSub hMem]
    | array hElement =>
      rcases hName with rfl | ⟨a, ha, hInner⟩
      · exact .inl rfl
      · obtain rfl := List.mem_singleton.mp ha
        rcases ih _ ha hInner hElement with hArray | hMem
        · exact .inl hArray
        · exact .inr (List.mem_append_left _ hMem)

end TypeExpr

inductive AttributeValue.Spelled : AttributeValue → List Token → Prop
  | text (content : String) : Spelled (.text content) [.text content]
  | integer (n : Int64) : Spelled (.integer n) [.integer n]
  | float (x : Binary64) : Spelled (.float x) [.float x]
  | yes : Spelled (.truth true) [.keyword .yes]
  | no : Spelled (.truth false) [.keyword .no]
  | binding (name : String) : Spelled (.binding name) [.mark .atSign, .identifier name]
  | type {t : TypeExpr} {ts : List Token} (h : t.Spelled ts) : Spelled (.type t) ts

inductive Attribute.Spelled : Attribute → List Token → Prop
  | bare {a : Attribute} (h : a.value.value = .truth true) : Spelled a [.identifier a.name.value]
  | valued {a : Attribute} {ts : List Token} (h : a.value.value.Spelled ts) :
      Spelled a (.identifier a.name.value :: .mark .equals :: ts)

inductive Node.Spelled : Node → List Token → Prop
  | text (span : Span) (content : String) : Spelled (.text span content) [.text content]
  | expression (span : Span) (name : String) :
      Spelled (.expression span name) [.mark .atSign, .identifier name]
  | selfClosing {span : Span} {name : Identifier} {attributes : List Attribute} {ts : List Token}
      (h : Row Attribute.Spelled attributes ts) :
      Spelled (.element span name attributes [] none)
        (.mark .less :: .identifier name.value :: (ts ++ [.mark .slashGreater]))
  | closed {span : Span} {name close : Identifier} {attributes : List Attribute} {children : List Node}
      {ts inner : List Token} (h : Row Attribute.Spelled attributes ts) (hInner : Row Spelled children inner) :
      Spelled (.element span name attributes children (some close))
        (.mark .less :: .identifier name.value :: (ts ++ .mark .greater :: (inner ++
          [.mark .lessSlash, .identifier close.value, .mark .greater])))

def ParamDecl.Spelled (p : ParamDecl) (ts : List Token) : Prop :=
  ∃ type, p.type.value.Spelled type ∧
    ts = .keyword .param :: .identifier p.name.value :: .mark .colon :: type

def BindingDecl.Spelled (b : BindingDecl) (ts : List Token) : Prop :=
  ∃ type, b.type.value.Spelled type ∧
    ts = .keyword .binding :: .identifier b.name.value :: .mark .colon :: type

def Identifier.Spelled (i : Identifier) (ts : List Token) : Prop := ts = [.identifier i.value]

/-- The type parameters of a component, which has no brackets if it has none. -/
inductive ComponentDecl.TypeParamsSpelled : List Identifier → List Token → Prop
  | none : TypeParamsSpelled [] []
  | some {params : List Identifier} {ts : List Token} (h : Separated .comma Identifier.Spelled params ts) :
      TypeParamsSpelled params (.mark .less :: (ts ++ [.mark .greater]))
  | trailing {params : List Identifier} {ts : List Token} (h : Separated .comma Identifier.Spelled params ts) :
      TypeParamsSpelled params (.mark .less :: (ts ++ [.mark .comma, .mark .greater]))

def ComponentDecl.Spelled (decl : ComponentDecl) (ts : List Token) : Prop :=
  ∃ typeParams params, TypeParamsSpelled decl.typeParams typeParams ∧ Row ParamDecl.Spelled decl.params params ∧
    ts = .keyword .component :: .identifier decl.name.value ::
      (typeParams ++ .mark .braceOpen :: (params ++ [.mark .braceClose]))

inductive Item.Spelled : Item → List Token → Prop
  | component {decl : ComponentDecl} {ts : List Token} (h : decl.Spelled ts) : Spelled (.component decl) ts
  | binding {decl : BindingDecl} {ts : List Token} (h : decl.Spelled ts) : Spelled (.binding decl) ts
  | markup {node : Node} {ts : List Token} (h : node.Spelled ts) : Spelled (.markup node) ts

def Document.Spelled (d : Document) (ts : List Token) : Prop := Row Item.Spelled d.items ts

namespace Document.Spelled

variable {d : Document} {ts : List Token}

theorem exists_of_mem_components (h : d.Spelled ts) {decl : ComponentDecl} (hDecl : decl ∈ d.components) :
    ∃ own, decl.Spelled own ∧ own ⊆ ts := by
  obtain ⟨item, hItem, hComponent⟩ := List.mem_filterMap.mp hDecl
  obtain ⟨own, hOwn, hSub⟩ := h.exists_of_mem hItem
  cases hOwn with
  | component hSpelled =>
    cases hComponent
    exact ⟨own, hSpelled, hSub⟩
  | binding => cases hComponent
  | markup => cases hComponent

theorem exists_of_mem_bindings (h : d.Spelled ts) {decl : BindingDecl} (hDecl : decl ∈ d.bindings) :
    ∃ own, decl.Spelled own ∧ own ⊆ ts := by
  obtain ⟨item, hItem, hBinding⟩ := List.mem_filterMap.mp hDecl
  obtain ⟨own, hOwn, hSub⟩ := h.exists_of_mem hItem
  cases hOwn with
  | component => cases hBinding
  | binding hSpelled =>
    cases hBinding
    exact ⟨own, hSpelled, hSub⟩
  | markup => cases hBinding

theorem exists_of_mem_markup (h : d.Spelled ts) {node : Node} (hNode : node ∈ d.markup) :
    ∃ own, node.Spelled own ∧ own ⊆ ts := by
  obtain ⟨item, hItem, hMarkup⟩ := List.mem_filterMap.mp hNode
  obtain ⟨own, hOwn, hSub⟩ := h.exists_of_mem hItem
  cases hOwn with
  | component => cases hMarkup
  | binding => cases hMarkup
  | markup hSpelled =>
    cases hMarkup
    exact ⟨own, hSpelled, hSub⟩

end Document.Spelled

namespace Node

mutual
/-- Every element in the node closes itself and has no children, or is closed by its own name. -/
def WellClosed : Node → Prop
  | element _ name _ children closing =>
    (match closing with
      | some close => close.value = name.value
      | none => children = []) ∧ WellClosedIn children
  | text _ _ => True
  | expression _ _ => True

def WellClosedIn : List Node → Prop
  | [] => True
  | node :: rest => WellClosed node ∧ WellClosedIn rest
end

mutual
theorem Spelled.wellClosed : ∀ {node : Node} {ts : List Token}, node.Spelled ts → node.mismatches = [] →
    node.WellClosed
  | .text _ _, _, _, _ => trivial
  | .expression _ _, _, _, _ => trivial
  | .element _ name _ children closing, _, h, hNone => by
    cases h with
    | selfClosing _ => exact ⟨rfl, trivial⟩
    | @closed _ _ close _ _ _ _ _ hChildren =>
      rw [mismatches] at hNone
      obtain ⟨hOwn, hInner⟩ := List.append_eq_nil_iff.mp hNone
      refine ⟨?_, Spelled.wellClosedIn hChildren hInner⟩
      by_cases hName : close.value = name.value
      · exact hName
      · rw [if_neg hName] at hOwn
        cases hOwn

theorem Spelled.wellClosedIn : ∀ {nodes : List Node} {ts : List Token}, Row Node.Spelled nodes ts →
    mismatchesIn nodes = [] → WellClosedIn nodes
  | [], _, _, _ => trivial
  | node :: rest, _, h, hNone => by
    rw [mismatchesIn] at hNone
    obtain ⟨hHead, hRest⟩ := List.append_eq_nil_iff.mp hNone
    cases h with
    | cons head tail => exact ⟨Spelled.wellClosed head hHead, Spelled.wellClosedIn tail hRest⟩
end

end Node

def Document.WellClosed (d : Document) : Prop := ∀ node ∈ d.markup, node.WellClosed

end TypedMarkup
