import TypedMarkup.Proofs.Document.Completeness
import TypedMarkup.Proofs.Token.Written

/-! # Sources that are documents

A source is read as the document that stands on its tokens, if no binding in it runs into the item behind it
and its closing tags match. So a written document is read back, and documents are read one behind another, but
for this one neighbourhood.
-/
namespace TypedMarkup
set_option autoImplicit false
open Spelling Placement

/-- A text is read as the type that its tokens spell. -/
theorem TypeExpr.parse?_eq_some_iff {source : String} {t : TypeExpr} :
    parse? source = some t ↔ t.Spelled ((Token.scan source).map Located.value) := by
  constructor
  · exact spelled_of_parse?
  · intro h
    obtain ⟨c, hPasses, hRest⟩ := Cursor.exists_passes (Token.scan source) []
    rw [List.append_nil] at hPasses
    have hNext : c.next? = none := by
      rw [Cursor.next?, hRest]
      rfl
    have hType : Grammar.typeExpr.Gives t (.ofTokens (Token.scan source)) c := by
      apply Grammar.gives_typeExpr h hPasses
      apply Grammar.TypeEnds.of_next? <;> simp [hNext]
    have hEnd : Reader.endOfSource.Gives () c c := Reader.endOfSource_eq_some_iff.mpr ⟨hRest, rfl⟩
    have hWhole : (do let t ← Grammar.typeExpr; Reader.endOfSource; return t : Reader TypeExpr).Gives t
        (.ofTokens (Token.scan source)) c := hType.bind (hEnd.bind (Reader.Gives.pure t c))
    exact Option.map_eq_some_iff.mpr ⟨(t, c), hWhole, rfl⟩

namespace Node

mutual
theorem WellClosed.mismatches_eq_nil : ∀ {node : Node}, node.WellClosed → node.mismatches = []
  | .text _ _, _ => rfl
  | .expression _ _, _ => rfl
  | .element _ name _ children none, h => by
    obtain ⟨rfl, -⟩ := h
    rfl
  | .element _ name _ children (some close), h => by
    obtain ⟨hName, hChildren⟩ := h
    rw [mismatches, WellClosedIn.mismatchesIn_eq_nil hChildren, List.append_nil]
    exact if_pos hName

theorem WellClosedIn.mismatchesIn_eq_nil : ∀ {nodes : List Node}, WellClosedIn nodes → mismatchesIn nodes = []
  | [], _ => rfl
  | _ :: _, h => by
    rw [mismatchesIn, WellClosed.mismatches_eq_nil h.1, WellClosedIn.mismatchesIn_eq_nil h.2, List.append_nil]
end

end Node

namespace Document

variable {d : Document} {source : String}

theorem WellClosed.mismatches_eq_nil (h : d.WellClosed) : d.mismatches = [] := by
  rw [mismatches, List.flatMap_eq_nil_iff]
  intro node hNode
  exact (h node hNode).mismatches_eq_nil

theorem parse_eq_ok_iff_placed :
    parse source = .ok d ↔ d.Placed (Token.scan source) ∧ d.Apart ∧ d.mismatches = [] := by
  rw [parse_eq_ok_iff]
  constructor
  · rintro ⟨⟨c, hRead⟩, hNone⟩
    obtain ⟨hPlaced, hApart⟩ := Grammar.placed_of_gives_document hRead
    exact ⟨hPlaced, hApart, hNone⟩
  · rintro ⟨hPlaced, hApart, hNone⟩
    exact ⟨Grammar.gives_document hPlaced hApart, hNone⟩

theorem exists_parse_error (h : d.Placed (Token.scan source)) (hClash : ¬ d.Apart) :
    ∃ errors, parse source = .error errors := by
  have hRefuses : (Grammar.document (.ofTokens (Token.scan source))).result = none :=
    Grammar.refuses_document h hClash
  rw [parse, ofTokens, hRefuses]
  exact ⟨_, rfl⟩

/-- A document in which every element closes itself and has no children, or is closed by its own name, is read
back from all its spellings just if no binding to a name alone stands in front of an opening tag without
attributes. If one does, nothing is read. -/
theorem parse_written {ts : List Token} (hSpelled : d.Spelled ts) (hClosed : d.WellClosed)
    (hWritten : Token.WrittenApart ts source) :
    ((∃ d', parse source = .ok d' ∧ d'.SameButSpans d) ↔ d.Apart) ∧
      (¬ d.Apart → ∃ errors, parse source = .error errors) := by
  rw [← hWritten.scan_values] at hSpelled
  obtain ⟨d₀, hPlaced, hSame⟩ := hSpelled.exists_placed
  have hError : ¬ d.Apart → ∃ errors, parse source = .error errors := by
    intro hClash
    apply exists_parse_error hPlaced
    rwa [hSame.apart_iff]
  refine ⟨⟨?_, ?_⟩, hError⟩
  · rintro ⟨d', hParse, -⟩
    by_contra hClash
    obtain ⟨errors, hErrors⟩ := hError hClash
    rw [hParse] at hErrors
    cases hErrors
  · intro hApart
    have hNone : d₀.mismatches = [] := hSame.mismatches_eq_nil_iff.mpr hClosed.mismatches_eq_nil
    exact ⟨d₀, parse_eq_ok_iff_placed.mpr ⟨hPlaced, hSame.apart_iff.mpr hApart, hNone⟩, hSame⟩

end Document

/-- A binding to a name alone and an element behind it. -/
def boundElement (attributes : List Attribute) : Document where
  items := [
    .binding ⟨⟨"x", ⟨0, 0⟩⟩, ⟨.named "A", ⟨0, 0⟩⟩, ⟨0, 0⟩⟩,
    .markup (.element ⟨0, 0⟩ ⟨"b", ⟨0, 0⟩⟩ attributes [] (some ⟨"b", ⟨0, 0⟩⟩))]

def boundElementTokens (attributes : List Token) : List Token :=
  [.keyword .binding, .identifier "x", .mark .colon, .identifier "A", .mark .less, .identifier "b"] ++ attributes ++
    [.mark .greater, .mark .lessSlash, .identifier "b", .mark .greater]

theorem boundElement_spelled {attributes : List Attribute} {ts : List Token}
    (h : Row Attribute.Spelled attributes ts) :
    (boundElement attributes).Spelled (boundElementTokens ts) := by
  have hElement : Item.Spelled (.markup (.element ⟨0, 0⟩ ⟨"b", ⟨0, 0⟩⟩ attributes [] (some ⟨"b", ⟨0, 0⟩⟩)))
      (.mark .less :: .identifier "b" ::
        (ts ++ [.mark .greater, .mark .lessSlash, .identifier "b", .mark .greater])) :=
    .markup (.closed h .nil)
  have hBinding : Item.Spelled (.binding ⟨⟨"x", ⟨0, 0⟩⟩, ⟨.named "A", ⟨0, 0⟩⟩, ⟨0, 0⟩⟩)
      [.keyword .binding, .identifier "x", .mark .colon, .identifier "A"] := .binding ⟨_, .named "A", rfl⟩
  have hRow := Row.cons hBinding (Row.cons hElement .nil)
  rwa [List.append_nil] at hRow

theorem boundElement_wellClosed (attributes : List Attribute) : (boundElement attributes).WellClosed := by
  intro node hNode
  obtain rfl := List.mem_singleton.mp hNode
  exact ⟨rfl, trivial⟩

def labelAttribute : Attribute := ⟨⟨"label", ⟨0, 0⟩⟩, ⟨.text "a\"b", ⟨0, 0⟩⟩, ⟨0, 0⟩⟩

def labelTokens : List Token := [.identifier "label", .mark .equals, .text "a\"b"]

theorem label_spelled : Row Attribute.Spelled [labelAttribute] labelTokens := by
  have hLabel : labelAttribute.Spelled labelTokens := .valued (.text _)
  exact .cons hLabel .nil

theorem label_written : Token.Written (.text "a\"b") ['"', 'a', '\\', '"', 'b', '"'] := by
  have hQuote : Token.Escapes [Lexeme.unescapeChar '"', 'b'] ['\\', '"', 'b'] :=
    .escaped (by decide) (.plain (by decide) (by decide) .nil)
  have hBody : Token.Escapes ['a', '"', 'b'] ['a', '\\', '"', 'b'] := .plain (by decide) (by decide) hQuote
  have hText : "a\"b".toList = ['a', '"', 'b'] := by decide
  rw [← hText] at hBody
  exact .text hBody

theorem parse_written_boundElement :
    (∃ d', Document.parse "let x : A < b label = \"a\\\"b\" > </ b >" = .ok d' ∧
        d'.SameButSpans (boundElement [labelAttribute])) ∧
      ∃ errors, Document.parse "let x : A < b > </ b >" = .error errors := by
  have hLabel : Token.WrittenApart (boundElementTokens labelTokens)
      "let x : A < b label = \"a\\\"b\" > </ b >" := by
    refine ⟨_, .cons (.keyword _) <| .cons (.identifier (by decide)) <| .cons (.mark _) <|
      .cons (.identifier (by decide)) <| .cons (.mark _) <| .cons (.identifier (by decide)) <|
      .cons (.identifier (by decide)) <| .cons (.mark _) <|
      .cons label_written <|
      .cons (.mark _) <| .cons (.mark _) <| .cons (.identifier (by decide)) <| .cons (.mark _) .nil, ?_⟩
    decide +kernel
  have hBare : Token.WrittenApart (boundElementTokens []) "let x : A < b > </ b >" := by
    refine ⟨_, .cons (.keyword _) <| .cons (.identifier (by decide)) <| .cons (.mark _) <|
      .cons (.identifier (by decide)) <| .cons (.mark _) <| .cons (.identifier (by decide)) <|
      .cons (.mark _) <| .cons (.mark _) <| .cons (.identifier (by decide)) <| .cons (.mark _) .nil, ?_⟩
    decide +kernel
  have hApart : (boundElement [labelAttribute]).Apart := by decide
  have hClash : ¬ (boundElement []).Apart := by decide
  exact ⟨(Document.parse_written (boundElement_spelled label_spelled) (boundElement_wellClosed _) hLabel).1.mpr hApart,
    (Document.parse_written (boundElement_spelled .nil) (boundElement_wellClosed _) hBare).2 hClash⟩

namespace Document

theorem mismatches_append (items items' : List Item) :
    mismatches ⟨items ++ items'⟩ = mismatches ⟨items⟩ ++ mismatches ⟨items'⟩ := by
  rw [mismatches, markup, List.filterMap_append, List.flatMap_append]
  rfl

/-- The last item of the first document runs into the first item of the second. -/
def RunsInto (d d' : Document) : Prop := ∃ i ∈ d.items.getLast?, ∃ j ∈ d'.items.head?, i.RunsInto j

instance : DecidableRel RunsInto := fun d d' =>
  match hLast : d.items.getLast?, hHead : d'.items.head? with
  | some i, some j => decidable_of_iff (i.RunsInto j) (by simp [RunsInto, hLast, hHead])
  | none, _ => isFalse (by simp [RunsInto, hLast])
  | some _, none => isFalse (by simp [RunsInto, hHead])

/-- The items of the first document, then those of the second as they stand in a source behind so many bytes. -/
def join (d : Document) (bytes : Nat) (d' : Document) : Document := ⟨d.items ++ (d'.moved (· + bytes)).items⟩

theorem apart_join_iff {d d' : Document} (h : d.Apart) (h' : d'.Apart) (bytes : Nat) :
    (d.join bytes d').Apart ↔ ¬ d.RunsInto d' := by
  have hMoved : Item.AllApart (d'.moved (· + bytes)).items := (apart_moved _ d').mpr h'
  have hSeam : (∀ i ∈ d.items.getLast?, ∀ j ∈ (d'.moved (· + bytes)).items.head?, ¬ i.RunsInto j) ↔
      ¬ d.RunsInto d' := by
    rw [moved, List.head?_map]
    simp only [Option.mem_def, Option.map_eq_some_iff, forall_exists_index, and_imp, forall_apply_eq_imp_iff₂,
      Item.RunsInto, Item.opensBare_moved, RunsInto, not_exists, not_and]
  rw [Apart, Item.AllApart, join, List.isChain_append, hSeam]
  exact ⟨fun hAll => hAll.2.2, fun hApart => ⟨h, hMoved, hApart⟩⟩

/-- If nothing of the first source is dropped, two documents with a line break between are read as one, unless
the first runs into the second; then nothing is read. -/
theorem parse_join {first second : String} {d d' : Document} (hFirst : parse first = .ok d)
    (hSecond : parse second = .ok d') (hKeeps : Token.KeepsAll first) :
    (¬ d.RunsInto d' → parse (first ++ "\n" ++ second) = .ok (d.join (first.utf8ByteSize + 1) d')) ∧
      (d.RunsInto d' → ∃ errors, parse (first ++ "\n" ++ second) = .error errors) := by
  obtain ⟨hPlaced, hApart, hNone⟩ := parse_eq_ok_iff_placed.mp hFirst
  obtain ⟨hPlaced', hApart', hNone'⟩ := parse_eq_ok_iff_placed.mp hSecond
  have hJoined : (d.join (first.utf8ByteSize + 1) d').Placed (Token.scan (first ++ "\n" ++ second)) := by
    rw [Token.scan_join hKeeps]
    exact hPlaced.append (hPlaced'.moved _)
  have hMatch : (d.join (first.utf8ByteSize + 1) d').mismatches = [] := by
    have hMoved : (d'.moved (· + (first.utf8ByteSize + 1))).mismatches = [] := by
      rw [mismatches_moved, hNone', List.map_nil]
    rw [join, mismatches_append, hNone]
    exact hMoved
  have hSeam := apart_join_iff hApart hApart' (first.utf8ByteSize + 1)
  constructor
  · intro hSeparate
    exact parse_eq_ok_iff_placed.mpr ⟨hJoined, hSeam.mpr hSeparate, hMatch⟩
  · intro hRuns
    exact exists_parse_error hJoined fun hAll => hSeam.mp hAll hRuns

theorem exists_parse_ok {source : String} (h : (parse source).isOk = true) : ∃ d, parse source = .ok d := by
  cases hParse : parse source with
  | ok d => exact ⟨d, rfl⟩
  | error errors =>
    rw [hParse] at h
    cases h

end Document

/-- The binding is read as before in front of a tag with an attribute. -/
theorem parse_join_attributes : ∃ d d', Document.parse "let x: A" = .ok d ∧
    Document.parse "<b label=\"a\"></b>" = .ok d' ∧
    Document.parse ("let x: A" ++ "\n" ++ "<b label=\"a\"></b>") = .ok (d.join 9 d') := by
  obtain ⟨d, hFirst⟩ := Document.exists_parse_ok (show (Document.parse "let x: A").isOk = true by decide +kernel)
  obtain ⟨d', hSecond⟩ :=
    Document.exists_parse_ok (show (Document.parse "<b label=\"a\"></b>").isOk = true by decide +kernel)
  have hSeparate : (match Document.parse "let x: A", Document.parse "<b label=\"a\"></b>" with
      | .ok d, .ok d' => decide (¬ d.RunsInto d')
      | _, _ => false) = true := by decide +kernel
  rw [hFirst, hSecond] at hSeparate
  exact ⟨d, d', hFirst, hSecond,
    (Document.parse_join hFirst hSecond (by decide +kernel)).1 (of_decide_eq_true hSeparate)⟩

/-- Without the attribute the tag is read as type arguments, though each part is a document of its own and nothing
of either is dropped. -/
theorem not_parse_join_bare : ∃ d d', Document.parse "let x: A" = .ok d ∧ Document.parse "<b></b>" = .ok d' ∧
    Token.KeepsAll "let x: A" ∧ Token.KeepsAll "<b></b>" ∧
    ∃ errors, Document.parse ("let x: A" ++ "\n" ++ "<b></b>") = .error errors := by
  obtain ⟨d, hFirst⟩ := Document.exists_parse_ok (show (Document.parse "let x: A").isOk = true by decide +kernel)
  obtain ⟨d', hSecond⟩ := Document.exists_parse_ok (show (Document.parse "<b></b>").isOk = true by decide +kernel)
  have hNone : (Document.parse ("let x: A" ++ "\n" ++ "<b></b>")).isOk = false := by decide +kernel
  refine ⟨d, d', hFirst, hSecond, by decide +kernel, by decide +kernel, ?_⟩
  cases hParse : Document.parse ("let x: A" ++ "\n" ++ "<b></b>") with
  | ok _ =>
    rw [hParse] at hNone
    cases hNone
  | error errors => exact ⟨errors, rfl⟩

end TypedMarkup
