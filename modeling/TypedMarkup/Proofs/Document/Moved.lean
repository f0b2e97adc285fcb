import TypedMarkup.Document.Parse
import TypedMarkup.Proofs.Token.Placement

/-! # Documents moved to other places

The offsets in a document, each replaced by another. Two documents are alike but for their spans if they
are the same once all offsets are taken to zero.
-/
namespace TypedMarkup
set_option autoImplicit false

variable (f : Nat → Nat)

def Attribute.moved (a : Attribute) : Attribute := ⟨a.name.moved f, a.value.moved f, a.span.moved f⟩

namespace Node

mutual
def moved : Node → Node
  | element span name attributes children closing =>
    element (span.moved f) (name.moved f) (attributes.map (Attribute.moved f)) (movedIn children)
      (closing.map (Located.moved f))
  | text span content => text (span.moved f) content
  | expression span name => expression (span.moved f) name

def movedIn : List Node → List Node
  | [] => []
  | node :: rest => moved node :: movedIn rest
end

theorem movedIn_eq_map (nodes : List Node) : movedIn f nodes = nodes.map (moved f) := by
  induction nodes with
  | nil => rfl
  | cons node rest ih => rw [movedIn, List.map_cons, ih]

/-- Of an opening and a closing name. -/
def movedNames (names : Identifier × Identifier) : Identifier × Identifier :=
  (names.1.moved f, names.2.moved f)

mutual
theorem mismatches_moved : ∀ node : Node, (node.moved f).mismatches = node.mismatches.map (movedNames f)
  | element _ name _ children none => by
    rw [mismatches, List.map_append, ← mismatchesIn_movedIn children]
    rfl
  | element _ name _ children (some close) => by
    rw [mismatches, List.map_append, ← mismatchesIn_movedIn children]
    change (if close.value = name.value then [] else _) ++ _ = _
    congr 1
    split <;> rfl
  | text _ _ => rfl
  | expression _ _ => rfl

theorem mismatchesIn_movedIn :
    ∀ nodes : List Node, mismatchesIn (movedIn f nodes) = (mismatchesIn nodes).map (movedNames f)
  | [] => rfl
  | node :: rest => by
    rw [movedIn, mismatchesIn, mismatchesIn, List.map_append, mismatches_moved node, mismatchesIn_movedIn rest]
end

end Node

def ParamDecl.moved (p : ParamDecl) : ParamDecl := ⟨p.name.moved f, p.type.moved f, p.span.moved f⟩

def ComponentDecl.moved (decl : ComponentDecl) : ComponentDecl where
  name := decl.name.moved f
  typeParams := decl.typeParams.map (Located.moved f)
  params := decl.params.map (ParamDecl.moved f)
  span := decl.span.moved f

def BindingDecl.moved (decl : BindingDecl) : BindingDecl :=
  ⟨decl.name.moved f, decl.type.moved f, decl.span.moved f⟩

def Item.moved : Item → Item
  | component decl => component (decl.moved f)
  | binding decl => binding (decl.moved f)
  | markup node => markup (node.moved f)

namespace Document

def moved (d : Document) : Document := ⟨d.items.map (Item.moved f)⟩

theorem markup_moved (d : Document) : (d.moved f).markup = d.markup.map (Node.moved f) := by
  rw [markup, moved, markup, List.filterMap_map, List.map_filterMap]
  congr 1
  funext i
  cases i <;> rfl

theorem mismatches_moved (d : Document) : (d.moved f).mismatches = d.mismatches.map (Node.movedNames f) := by
  rw [mismatches, mismatches, markup_moved, List.flatMap_map, List.map_flatMap]
  simp only [Node.mismatches_moved]

/-- The same document but for the spans in it. -/
def SameButSpans (d d' : Document) : Prop := d.moved (fun _ => 0) = d'.moved fun _ => 0

theorem SameButSpans.mismatches_eq_nil_iff {d d' : Document} (h : d.SameButSpans d') :
    d.mismatches = [] ↔ d'.mismatches = [] := by
  have hMoved := congrArg mismatches h
  rw [mismatches_moved, mismatches_moved] at hMoved
  rw [← List.map_eq_nil_iff (f := Node.movedNames fun _ => 0), hMoved, List.map_eq_nil_iff]

end Document
end TypedMarkup
