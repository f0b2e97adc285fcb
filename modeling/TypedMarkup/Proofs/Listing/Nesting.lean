import TypedMarkup.Listing.Generate

/-! # Nesting

The lines of a document nest. An element, a component and a block of child content are each closed by an end of their
own, behind all that was opened in them. A line is indented once for each block around it, and the numbers on the lines
follow one another whatever is open.
-/
namespace TypedMarkup
set_option autoImplicit false

/-- A line of a listing: the call on it, the blocks of child content around it, and the numbered calls before it. -/
structure Line where
  call : Call
  blocks : Nat
  number : Nat
deriving DecidableEq

namespace Line

def text (style : ListingStyle) (l : Line) : String :=
  Text.spaces (l.blocks * style.indent) ++ l.call.code style.builder l.number

/-- The lines of calls behind so many open blocks and so many numbered calls. -/
def ofCalls : Nat → Nat → List Call → List Line
  | _, _, [] => []
  | blocks, number, c :: rest =>
    ⟨c, c.depth blocks, number⟩ :: ofCalls (c.depthAfter blocks) (c.sequenceAfter number) rest

theorem map_call_ofCalls (calls : List Call) (blocks number : Nat) :
    (ofCalls blocks number calls).map call = calls := by
  induction calls generalizing blocks number with
  | nil => rfl
  | cons c rest ih => rw [ofCalls, List.map_cons, ih]

theorem linesFrom_eq_map_text (style : ListingStyle) (calls : List Call) (blocks number : Nat) :
    style.linesFrom blocks number calls = (ofCalls blocks number calls).map (text style) := by
  induction calls generalizing blocks number with
  | nil => rfl
  | cons c rest ih =>
    rw [ofCalls, List.map_cons, ListingStyle.linesFrom, ih]
    rfl

end Line

namespace ListingStyle

/-- A text on a line inside so many blocks. -/
def indented (style : ListingStyle) (blocks : Nat) (text : String) : String :=
  Text.spaces (blocks * style.indent) ++ text

/-- Lines inside so many blocks, with the numbers from the first on and below the second on them, in their order. All
that is opened is closed by an end of its own. -/
inductive Nested (style : ListingStyle) : Nat → Nat → Nat → List String → Prop
  | nil {blocks number : Nat} : Nested style blocks number number []
  | addAttribute {blocks number next : Nat} {name value : String} {rest : List String}
      (hRest : Nested style blocks (number + 1) next rest) :
      Nested style blocks number next
        (style.indented blocks (style.builder ++ ".add_attribute(" ++ toString number ++ ", " ++ Text.quoted name ++
          ", " ++ value ++ ");") :: rest)
  | addContent {blocks number next : Nat} {code : String} {rest : List String}
      (hRest : Nested style blocks (number + 1) next rest) :
      Nested style blocks number next
        (style.indented blocks (style.builder ++ ".add_content(" ++ toString number ++ ", " ++ code ++ ");") :: rest)
  | element {blocks number middle next : Nat} {name : String} {inner rest : List String}
      (hInner : Nested style blocks (number + 1) middle inner) (hRest : Nested style blocks middle next rest) :
      Nested style blocks number next
        (style.indented blocks (style.builder ++ ".open_element(" ++ toString number ++ ", " ++ Text.quoted name ++
          ");") :: (inner ++ style.indented blocks (style.builder ++ ".close_element();") :: rest))
  | component {blocks number middle next : Nat} {type : String} {inner rest : List String}
      (hInner : Nested style blocks (number + 1) middle inner) (hRest : Nested style blocks middle next rest) :
      Nested style blocks number next
        (style.indented blocks (style.builder ++ ".open_component::<" ++ type ++ ">(" ++ toString number ++ ");") ::
          (inner ++ style.indented blocks (style.builder ++ ".close_component();") :: rest))
  | block {blocks number middle next : Nat} {inner rest : List String}
      (hInner : Nested style (blocks + 1) (number + 1) middle inner) (hRest : Nested style blocks middle next rest) :
      Nested style blocks number next
        (style.indented blocks (style.builder ++ ".add_child_content(" ++ toString number ++ ", |" ++ style.builder ++
          "| \x7b") :: (inner ++ style.indented blocks "\x7d);" :: rest))

variable {style : ListingStyle}

theorem Nested.append {blocks number middle next : Nat} {lines more : List String}
    (h : style.Nested blocks number middle lines) (hMore : style.Nested blocks middle next more) :
    style.Nested blocks number next (lines ++ more) := by
  induction h with
  | nil => exact hMore
  | addAttribute _ ih => exact .addAttribute (ih hMore)
  | addContent _ ih => exact .addContent (ih hMore)
  | element hInner _ _ ih => simpa using Nested.element hInner (ih hMore)
  | component hInner _ _ ih => simpa using Nested.component hInner (ih hMore)
  | block hInner _ _ ih => simpa using Nested.block hInner (ih hMore)

end ListingStyle

/-- Wherever the calls are written their lines nest, and the blocks around them are the same behind them. -/
structure Call.Balanced (calls : List Call) : Prop where
  blocks_eq (blocks : Nat) : calls.foldl depthAfter blocks = blocks
  nested (style : ListingStyle) (blocks number : Nat) :
    style.Nested blocks number (number + calls.countP isNumbered) (style.linesFrom blocks number calls)

namespace Call.Balanced

variable {calls calls' : List Call}

theorem nil : Balanced [] := ⟨fun _ => rfl, fun _ _ _ => .nil⟩

theorem append (h : Balanced calls) (h' : Balanced calls') : Balanced (calls ++ calls') where
  blocks_eq blocks := by rw [List.foldl_append, h.blocks_eq, h'.blocks_eq]
  nested style blocks number := by
    rw [style.linesFrom_append, h.blocks_eq, List.countP_append, ← Nat.add_assoc]
    exact (h.nested style blocks number).append (h'.nested style blocks _)

theorem attributes (own : List Attribute) : Balanced (own.map Attribute.call) := by
  induction own with
  | nil => exact nil
  | cons a rest ih =>
    refine ⟨ih.blocks_eq, ?_⟩
    intro style blocks number
    rw [List.map_cons, ← sequenceAfter_add_countP]
    exact .addAttribute (ih.nested style blocks (number + 1))

theorem text (code : String) : Balanced [.addContent code] := ⟨fun _ => rfl, fun _ _ _ => .addContent .nil⟩

/-- An end that leads back to the blocks around its beginning closes what is balanced. -/
theorem bracket {opening closing : Call} (h : Balanced calls) (hOpening : opening.isNumbered = true)
    (hClosing : closing.isNumbered = false)
    (hBack : ∀ blocks, closing.depthAfter (opening.depthAfter blocks) = blocks)
    (hNested : ∀ (style : ListingStyle) (blocks number next : Nat) (inner : List String),
      style.Nested (opening.depthAfter blocks) (number + 1) next inner →
        style.Nested blocks number next (style.indented (opening.depth blocks) (opening.code style.builder number) ::
          (inner ++ [style.indented (closing.depth (opening.depthAfter blocks)) (closing.code style.builder next)]))) :
    Balanced (opening :: (calls ++ [closing])) where
  blocks_eq blocks := by
    rw [List.foldl_cons, List.foldl_append, h.blocks_eq]
    exact hBack blocks
  nested style blocks number := by
    have hNumber : opening.sequenceAfter number = number + 1 := if_pos hOpening
    have hEnd : [closing].countP isNumbered = 0 := by rw [List.countP_singleton, hClosing]; rfl
    rw [← sequenceAfter_add_countP, ListingStyle.linesFrom, style.linesFrom_append, h.blocks_eq, List.countP_append,
      hEnd, hNumber]
    exact hNested style blocks number _ _ (h.nested style _ _)

theorem element (h : Balanced calls) (name : String) : Balanced (.openElement name :: (calls ++ [.closeElement])) :=
  h.bracket rfl rfl (fun _ => rfl) fun _ _ _ _ _ hInner => .element hInner .nil

theorem component (h : Balanced calls) (type : String) :
    Balanced (.openComponent type :: (calls ++ [.closeComponent])) :=
  h.bracket rfl rfl (fun _ => rfl) fun _ _ _ _ _ hInner => .component hInner .nil

theorem block (h : Balanced calls) : Balanced (.beginContent :: (calls ++ [.endContent])) :=
  h.bracket rfl rfl (fun _ => rfl) fun _ _ _ _ _ hInner => .block hInner .nil

end Call.Balanced

section Nodes

variable {registry : Registry} {sites : List Resolution}

mutual
theorem Node.balanced_calls : ∀ node : Node, Call.Balanced (node.calls registry sites)
  | .text _ content => .text (Text.quoted content)
  | .expression _ name => .text name
  | .element span name attributes children _ => by
    have hChildren := Node.balanced_callsIn children
    rw [Node.calls]
    split
    case h_1 c site _ _ =>
      refine .component (.append (.attributes _) ?_) _
      split
      · exact .nil
      · exact .block hChildren
    case h_2 => exact .element (.append (.attributes _) hChildren) _

theorem Node.balanced_callsIn : ∀ nodes : List Node, Call.Balanced (Node.callsIn registry sites nodes)
  | [] => .nil
  | node :: rest => by
    rw [Node.callsIn]
    exact .append (Node.balanced_calls node) (Node.balanced_callsIn rest)
end

end Nodes

/-- The lines of a document nest, whatever it is generated with. -/
theorem Document.nested_lines (d : Document) (registry : Registry) (sites : List Resolution) (style : ListingStyle) :
    style.Nested 0 0 ((d.calls registry sites).countP Call.isNumbered) (style.lines (d.calls registry sites)) := by
  have hBalanced : Call.Balanced (d.calls registry sites) := Node.balanced_callsIn d.markup
  have hNested := hBalanced.nested style 0 0
  rw [Nat.zero_add] at hNested
  exact hNested

end TypedMarkup
