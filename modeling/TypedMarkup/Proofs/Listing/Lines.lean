import Mathlib.Tactic.TFAE
import TypedMarkup.Proofs.Listing.Nesting
import TypedMarkup.Proofs.Listing.OneLine

/-! # The lines of generated code

Generated code is a line for each call and nothing else. It can be read back at its line breaks just where no type
argument has a break of its own.
-/
namespace TypedMarkup
set_option autoImplicit false

namespace Text

/-- The parts of a text between its line breaks. -/
def split (text : String) : List String := (text.toList.splitOn '\n').map String.ofList

/-- A text without the spaces in front of it. -/
def dedent (text : String) : String := String.ofList (text.toList.dropWhile (· = ' '))

theorem split_of_oneLine {line : String} (h : OneLine line) : split line = [line] := by
  rw [split, List.splitOn_eq_singleton h, List.map_singleton, String.ofList_toList]

/-- Lines written with an end to each come apart into the parts of every line. -/
theorem split_join (lines : List String) :
    split (String.join (lines.map fun line => line ++ "\n")) = lines.flatMap split ++ [""] := by
  rw [split, String.toList_join, List.flatMap_map]
  induction lines with
  | nil => rfl
  | cons line rest ih =>
    have hEnd : (line ++ "\n").toList = line.toList ++ ['\n'] := String.toList_append
    rw [List.flatMap_cons, hEnd, List.append_assoc, List.singleton_append, List.splitOn_append_cons_self,
      List.map_append, ih, List.flatMap_cons, List.append_assoc]
    rfl

theorem flatMap_split {lines : List String} (h : ∀ line ∈ lines, OneLine line) : lines.flatMap split = lines := by
  induction lines with
  | nil => rfl
  | cons line rest ih =>
    obtain ⟨hLine, hRest⟩ := List.forall_mem_cons.mp h
    rw [List.flatMap_cons, split_of_oneLine hLine, ih hRest, List.singleton_append]

theorem length_split (text : String) : (split text).length = text.toList.count '\n' + 1 := by
  rw [split, List.length_map]
  induction text.toList with
  | nil => rfl
  | cons c rest ih =>
    rw [List.splitOn_cons_eq_if_modifyHead, List.count_cons]
    split <;> simp [ih]

theorem length_le_length_flatMap_split (lines : List String) : lines.length ≤ (lines.flatMap split).length := by
  induction lines with
  | nil => exact Nat.le_refl _
  | cons line rest ih =>
    rw [List.flatMap_cons, List.length_append, length_split, List.length_cons]
    omega

/-- With as many parts as lines no line has a break. -/
theorem oneLine_of_length_le {lines : List String} (h : (lines.flatMap split).length ≤ lines.length) :
    ∀ line ∈ lines, OneLine line := by
  induction lines with
  | nil => exact nofun
  | cons line rest ih =>
    have hRest := length_le_length_flatMap_split rest
    rw [List.flatMap_cons, List.length_append, length_split, List.length_cons] at h
    have hCount : line.toList.count '\n' = 0 := by omega
    exact List.forall_mem_cons.mpr ⟨List.count_eq_zero.mp hCount, ih (by omega)⟩

theorem dedent_spaces (n : Nat) (text : String) : dedent (spaces n ++ text) = dedent text := by
  rw [dedent, dedent, String.toList_append, spaces, String.toList_ofList, List.dropWhile_append_of_pos]
  simp

theorem splitOn_append {text : List Char} (h : '\n' ∉ text) (more : List Char) :
    (text ++ more).splitOn '\n' = (more.splitOn '\n').modifyHead (text ++ ·) := by
  induction text with
  | nil =>
    rw [List.nil_append]
    cases more.splitOn '\n' <;> rfl
  | cons c rest ih =>
    rw [List.mem_cons, not_or] at h
    obtain ⟨hFirst, hRest⟩ := h
    rw [List.cons_append, List.splitOn_cons_eq_if_modifyHead, if_neg (by simpa using Ne.symm hFirst), ih hRest,
      List.modifyHead_modifyHead]
    rfl

/-- Of the parts of a line only the first is indented with it. -/
theorem map_dedent_split_spaces (n : Nat) (text : String) :
    (split (spaces n ++ text)).map dedent = (split text).map dedent := by
  rw [split, split, String.toList_append, splitOn_append (oneLine_spaces n)]
  cases text.toList.splitOn '\n' with
  | nil => rfl
  | cons first rest =>
    have hFirst : dedent (String.ofList ((spaces n).toList ++ first)) = dedent (String.ofList first) := by
      rw [String.ofList_append, String.ofList_toList, dedent_spaces]
    rw [List.modifyHead_cons, List.map_cons, List.map_cons, List.map_cons, List.map_cons, hFirst]

end Text

namespace Line

theorem write_eq_join (style : ListingStyle) (calls : List Call) :
    style.write calls = String.join (((ofCalls 0 0 calls).map (text style)).map fun line => line ++ "\n") := by
  rw [ListingStyle.write, ListingStyle.lines, linesFrom_eq_map_text]

theorem oneLine_text_iff {style : ListingStyle} (hBuilder : Text.OneLine style.builder) {l : Line} :
    Text.OneLine (l.text style) ↔ l.call.OneLine := by
  rw [text, Text.oneLine_append, Call.oneLine_code_iff hBuilder, and_iff_right (Text.oneLine_spaces _)]

theorem forall_oneLine_text_iff {style : ListingStyle} (hBuilder : Text.OneLine style.builder) {calls : List Call} :
    (∀ line ∈ (ofCalls 0 0 calls).map (text style), Text.OneLine line) ↔ ∀ c ∈ calls, c.OneLine := by
  rw [← map_call_ofCalls calls 0 0, List.forall_mem_map, List.forall_mem_map, map_call_ofCalls]
  simp only [oneLine_text_iff hBuilder]

theorem split_write (style : ListingStyle) (hBuilder : Text.OneLine style.builder) {calls : List Call}
    (h : ∀ c ∈ calls, c.OneLine) :
    Text.split (style.write calls) = (ofCalls 0 0 calls).map (text style) ++ [""] := by
  rw [write_eq_join, Text.split_join, Text.flatMap_split ((forall_oneLine_text_iff hBuilder).mpr h)]

/-- As many parts as there are calls, and what is behind the last end, leave no call a break of its own. -/
theorem oneLine_of_length_split {style : ListingStyle} (hBuilder : Text.OneLine style.builder) {calls : List Call}
    (h : (Text.split (style.write calls)).length = calls.length + 1) : ∀ c ∈ calls, c.OneLine := by
  have hLength : ((ofCalls 0 0 calls).map (text style)).length = calls.length := by
    rw [List.length_map, ← List.length_map call, map_call_ofCalls]
  rw [write_eq_join, Text.split_join, List.length_append, List.length_singleton, ← hLength] at h
  exact (forall_oneLine_text_iff hBuilder).mp (Text.oneLine_of_length_le (Nat.le_of_eq (Nat.succ.inj h)))

theorem map_dedent_split_write (style : ListingStyle) (indent : Nat) (calls : List Call) :
    (Text.split ({ style with indent }.write calls)).map Text.dedent =
      (Text.split (style.write calls)).map Text.dedent := by
  have hLine (l : Line) : (Text.split (l.text { style with indent })).map Text.dedent =
      (Text.split (l.text style)).map Text.dedent := by
    rw [text, text, Text.map_dedent_split_spaces, Text.map_dedent_split_spaces]
  rw [write_eq_join, write_eq_join, Text.split_join, Text.split_join, List.map_append, List.map_append,
    List.map_flatMap, List.map_flatMap, List.flatMap_map, List.flatMap_map]
  simp only [hLine]

end Line

/-- The text of a document is a line for each call. The lines nest and carry the numbers in order, each is written
behind the indent of the blocks around it, and the spaces in front are all that another indent changes. At its breaks
the text comes apart into just these lines if no name in a type argument has a break, and otherwise into more; so it
always does where no binding of the scope has such a type. -/
theorem Document.generate_nested_lines {source : String} {d : Document} (h : parse source = .ok d)
    (registry : Registry) (scope : Scope) {sites : List Resolution} (hSites : sites ⊆ d.resolutions registry scope) :
    ((∀ b ∈ scope.bindings, b.2.OneLine) → ∀ r ∈ sites, r.OneLine) ∧
    ∃ lines : List Line,
      lines.map Line.call = d.calls registry sites ∧
      ∀ style : ListingStyle,
        d.generate registry sites style = String.join ((lines.map (Line.text style)).map fun line => line ++ "\n") ∧
        style.Nested 0 0 ((d.calls registry sites).countP Call.isNumbered) (lines.map (Line.text style)) ∧
        (∀ indent, (Text.split (d.generate registry sites { style with indent })).map Text.dedent =
          (Text.split (d.generate registry sites style)).map Text.dedent) ∧
        (Text.OneLine style.builder → List.TFAE [
          ∀ r ∈ sites, r.OneLine,
          Text.split (d.generate registry sites style) = lines.map (Line.text style) ++ [""],
          (Text.split (d.generate registry sites style)).length = (d.calls registry sites).length + 1]) := by
  refine ⟨fun hScope r hr => oneLine_of_mem_resolutions h hScope (hSites hr), ?_⟩
  -- The lines are known from the calls alone, before a style is chosen.
  refine ⟨Line.ofCalls 0 0 (d.calls registry sites), Line.map_call_ofCalls _ 0 0, ?_⟩
  intro style
  refine ⟨Line.write_eq_join style _, ?_, fun indent => Line.map_dedent_split_write style indent _, ?_⟩
  · rw [← Line.linesFrom_eq_map_text]
    exact d.nested_lines registry sites style
  · intro hBuilder
    tfae_have 1 → 2 := fun hOneLine => Line.split_write style hBuilder (oneLine_calls h hOneLine)
    tfae_have 2 → 3 := by
      intro hSplit
      rw [hSplit, List.length_append, List.length_map, ← List.length_map Line.call, Line.map_call_ofCalls]
      rfl
    tfae_have 3 → 1 := by
      intro hLength r hr
      have hOpens := openComponent_mem_calls h hSites hr
      have hType : Text.OneLine r.type := Line.oneLine_of_length_split hBuilder hLength _ hOpens
      exact (oneLine_componentType_iff.mp hType).2
    tfae_finish

/-- A line break in a text breaks no line: the box, its attribute and content, the text, the paragraph, and three ends
are the eight lines, with five numbers. -/
theorem generate_nested_lines_box : ∃ d, Document.parse "let n: int <Box Value=n>\"a\\nb\"<p/></Box>" = .ok d ∧
    ∃ lines : List Line, lines.length = 8 ∧
      ListingStyle.standard.Nested 0 0 5 (lines.map (Line.text .standard)) ∧
      Text.split (d.generate boxRegistry (d.resolutions boxRegistry (Scope.empty.collect d.bindings).1) .standard) =
        lines.map (Line.text .standard) ++ [""] := by
  have hCounts : ((Document.parse "let n: int <Box Value=n>\"a\\nb\"<p/></Box>").toOption.map fun d =>
      let calls := d.calls boxRegistry (d.resolutions boxRegistry (Scope.empty.collect d.bindings).1)
      (calls.length, calls.countP Call.isNumbered)) = some (8, 5) := by decide +kernel
  cases h : Document.parse "let n: int <Box Value=n>\"a\\nb\"<p/></Box>" with
  | error e =>
    rw [h] at hCounts
    cases hCounts
  | ok d =>
    rw [h] at hCounts
    obtain ⟨hLength, hNumbers⟩ := Prod.mk.inj (Option.some.inj hCounts)
    obtain ⟨hScope, lines, hCalls, hStyle⟩ :=
      Document.generate_nested_lines h boxRegistry (Scope.empty.collect d.bindings).1 (List.Subset.refl _)
    obtain ⟨-, hNested, -, hSplit⟩ := hStyle .standard
    have hOneLine := hScope (Scope.Declared.empty.collect h).oneLine
    rw [hNumbers] at hNested
    refine ⟨d, rfl, lines, ?_, hNested, ((hSplit (by decide)).out 0 1).mp hOneLine⟩
    rw [← List.length_map Line.call, hCalls, hLength]

/-- A scope with a type that no source can write. -/
def brokenScope : Scope := ⟨[("n", .named "a\nb")]⟩

/-- A line break in the name of a type breaks the line on which the type is written: the three calls of a box are
read back as four lines. -/
theorem split_generate_broken_name : ∃ d, Document.parse "<Box Value=n/>" = .ok d ∧
    (d.calls boxRegistry (d.resolutions boxRegistry brokenScope)).length = 3 ∧
    Text.split (d.generate boxRegistry (d.resolutions boxRegistry brokenScope) .standard) =
      ["builder.open_component::<Box<a", "b>>(0);", "builder.add_attribute(1, \"Value\", n);",
        "builder.close_component();", ""] := by
  have hBoth : ((Document.parse "<Box Value=n/>").toOption.map fun d =>
      ((d.calls boxRegistry (d.resolutions boxRegistry brokenScope)).length,
        Text.split (d.generate boxRegistry (d.resolutions boxRegistry brokenScope) .standard))) =
      some (3, ["builder.open_component::<Box<a", "b>>(0);", "builder.add_attribute(1, \"Value\", n);",
        "builder.close_component();", ""]) := by decide +kernel
  cases h : Document.parse "<Box Value=n/>" with
  | error e =>
    rw [h] at hBoth
    cases hBoth
  | ok d =>
    rw [h] at hBoth
    obtain ⟨hLength, hSplit⟩ := Prod.mk.inj (Option.some.inj hBoth)
    exact ⟨d, rfl, hLength, hSplit⟩

end TypedMarkup
