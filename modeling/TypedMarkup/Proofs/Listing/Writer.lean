import Mathlib.Data.List.Induction
import Mathlib.Order.Bounds.Basic
import TypedMarkup.Listing.Basic

/-! # Listings call by call

A listing can be written one call at a time, with the blocks that are open and the next number as all that is kept
besides the lines. Each call adds its line behind the text so far, whether the calls before it nest or not. The blocks
that are open are the most by which beginnings outnumber ends among the last calls, so that an end without a beginning
does not count.
-/
namespace TypedMarkup
set_option autoImplicit false

namespace Call

/-- The blocks of child content that are open behind calls. -/
def openBlocks (calls : List Call) : Nat := calls.foldl depthAfter 0

theorem openBlocks_concat (calls : List Call) (c : Call) :
    openBlocks (calls ++ [c]) = c.depthAfter (openBlocks calls) := by
  rw [openBlocks, List.foldl_append]
  rfl

/-- The numbers by which beginnings outnumber ends among the last calls, from any one on. -/
def Excess (calls : List Call) (n : Nat) : Prop :=
  ∃ last, last <:+ calls ∧ last.count .beginContent = n + last.count .endContent

theorem excess_concat_iff {calls : List Call} {c : Call} {n : Nat} :
    Excess (calls ++ [c]) n ↔ n = 0 ∨ ∃ last, last <:+ calls ∧
      last.count .beginContent + [c].count .beginContent = n + (last.count .endContent + [c].count .endContent) := by
  constructor
  · rintro ⟨last, hLast, hCount⟩
    rcases List.suffix_concat_iff.mp hLast with rfl | ⟨own, rfl, hOwn⟩
    · exact .inl (by simpa using hCount.symm)
    · rw [List.count_append, List.count_append] at hCount
      exact .inr ⟨own, hOwn, hCount⟩
  · rintro (rfl | ⟨own, hOwn, hCount⟩)
    · exact ⟨[], List.nil_suffix, rfl⟩
    · refine ⟨own ++ [c], List.suffix_concat_iff.mpr (.inr ⟨own, rfl, hOwn⟩), ?_⟩
      rw [List.count_append, List.count_append, hCount]

theorem count_le_of_isGreatest {calls last : List Call} {blocks : Nat} (h : IsGreatest {n | Excess calls n} blocks)
    (hLast : last <:+ calls) : last.count .beginContent ≤ blocks + last.count .endContent := by
  rcases Nat.le_total (last.count .beginContent) (last.count .endContent) with hFew | hMany
  · exact Nat.le_add_left_of_le hFew
  · exact Nat.sub_le_iff_le_add.mp (h.2 ⟨last, hLast, (Nat.sub_add_cancel hMany).symm⟩)

theorem isGreatest_depthAfter {calls : List Call} {blocks : Nat} (h : IsGreatest {n | Excess calls n} blocks)
    (c : Call) : IsGreatest {n | Excess (calls ++ [c]) n} (c.depthAfter blocks) := by
  obtain ⟨last, hLast, hCount⟩ := h.1
  -- What the call itself adds to both counts decides, whatever the calls before it are.
  have hStep : ∀ own : List Call, own <:+ calls → own.count .beginContent + [c].count .beginContent ≤
      c.depthAfter blocks + (own.count .endContent + [c].count .endContent) := by
    intro own hOwn
    have hBound := count_le_of_isGreatest h hOwn
    cases c <;> simp [depthAfter] <;> omega
  constructor
  · rw [Set.mem_ofPred_eq, excess_concat_iff]
    by_cases hZero : c.depthAfter blocks = 0
    · exact .inl hZero
    · refine .inr ⟨last, hLast, ?_⟩
      cases c <;> simp [depthAfter] at hZero ⊢ <;> omega
  · intro n hn
    rcases excess_concat_iff.mp hn with rfl | ⟨own, hOwn, hOwnCount⟩
    · exact Nat.zero_le _
    · have hBound := hStep own hOwn
      omega

theorem isGreatest_openBlocks (calls : List Call) : IsGreatest {n | Excess calls n} (openBlocks calls) := by
  induction calls using List.reverseRecOn with
  | nil =>
    refine ⟨⟨[], List.nil_suffix, rfl⟩, ?_⟩
    rintro n ⟨last, hLast, hCount⟩
    obtain rfl := List.suffix_nil.mp hLast
    exact (Nat.eq_zero_of_add_eq_zero_right hCount.symm).le
  | append_singleton calls c ih =>
    rw [openBlocks_concat]
    exact isGreatest_depthAfter ih c

/-- An end without a beginning leaves no trace. -/
theorem openBlocks_append_end {calls : List Call} (h : openBlocks calls = 0) (more : List Call) :
    openBlocks (calls ++ .endContent :: more) = openBlocks more := by
  rw [openBlocks, List.foldl_append, List.foldl_cons]
  change more.foldl depthAfter (openBlocks calls - 1) = _
  rw [h]
  rfl

theorem code_ne_empty (c : Call) (builder : String) (number : Nat) : c.code builder number ≠ "" := by
  cases c <;> simp [code]

/-- The calls that end something are written without a number, all others with theirs. -/
theorem code_number (c : Call) (builder : String) :
    if c.isNumbered then ∃ before behind, ∀ number, c.code builder number = before ++ toString number ++ behind
    else ∃ text, ∀ number, c.code builder number = text := by
  cases c with
  | openElement name =>
    exact ⟨builder ++ ".open_element(", ", " ++ Text.quoted name ++ ");", fun _ => by simp [code, String.append_assoc]⟩
  | closeElement => exact ⟨_, fun _ => rfl⟩
  | openComponent type => exact ⟨builder ++ ".open_component::<" ++ type ++ ">(", ");", fun _ => rfl⟩
  | closeComponent => exact ⟨_, fun _ => rfl⟩
  | addAttribute name value =>
    exact ⟨builder ++ ".add_attribute(", ", " ++ Text.quoted name ++ ", " ++ value.code ++ ");",
      fun _ => by simp [code, String.append_assoc]⟩
  | addContent content =>
    exact ⟨builder ++ ".add_content(", ", " ++ content ++ ");", fun _ => by simp [code, String.append_assoc]⟩
  | beginContent =>
    exact ⟨builder ++ ".add_child_content(", ", |" ++ builder ++ "| \x7b",
      fun _ => by simp [code, String.append_assoc]⟩
  | endContent => exact ⟨_, fun _ => rfl⟩

end Call

/-- A listing that is being written. -/
structure Writer where
  style : ListingStyle
  lines : List String
  blocks : Nat
  number : Nat

namespace Writer

def empty (style : ListingStyle) : Writer := ⟨style, [], 0, 0⟩

def line (w : Writer) (c : Call) : String :=
  Text.spaces (c.depth w.blocks * w.style.indent) ++ c.code w.style.builder w.number

def add (w : Writer) (c : Call) : Writer where
  style := w.style
  lines := w.lines ++ [w.line c]
  blocks := c.depthAfter w.blocks
  number := c.sequenceAfter w.number

/-- The lines with a break between two of them, and one at the end unless nothing was written. -/
def finish (w : Writer) : String :=
  let text := "\n".intercalate w.lines
  if text = "" then text else text ++ "\n"

def run (style : ListingStyle) (calls : List Call) : Writer := calls.foldl add (empty style)

theorem run_concat (style : ListingStyle) (calls : List Call) (c : Call) :
    run style (calls ++ [c]) = (run style calls).add c := by
  rw [run, List.foldl_append]
  rfl

theorem line_ne_empty (w : Writer) (c : Call) : w.line c ≠ "" := by
  rw [line, Ne, String.append_eq_empty_iff, not_and]
  exact fun _ => c.code_ne_empty _ _

theorem intercalate_ne_empty {line : String} (h : line ≠ "") (rest : List String) :
    "\n".intercalate (line :: rest) ≠ "" := by
  cases rest with
  | nil => rwa [String.intercalate_singleton]
  | cons next rest => simp [String.intercalate_cons_cons, h]

theorem intercalate_append_break (line : String) (rest : List String) :
    "\n".intercalate (line :: rest) ++ "\n" = String.join ((line :: rest).map fun line => line ++ "\n") := by
  induction rest generalizing line with
  | nil => rw [String.intercalate_singleton, List.map_singleton, String.join_cons, String.join_nil, String.append_empty]
  | cons next rest ih =>
    rw [String.intercalate_cons_cons, String.append_assoc, ih]
    exact String.join_cons.symm

/-- As no line is empty, each stands in front of a break of its own. -/
theorem finish_eq_join {w : Writer} (h : ∀ line ∈ w.lines, line ≠ "") :
    w.finish = String.join (w.lines.map fun line => line ++ "\n") := by
  obtain ⟨style, lines, blocks, number⟩ := w
  cases lines with
  | nil => rfl
  | cons line rest =>
    rw [finish]
    dsimp only
    rw [if_neg (intercalate_ne_empty (h line List.mem_cons_self) rest), intercalate_append_break]

theorem foldl_add (calls : List Call) (w : Writer) :
    calls.foldl add w = ⟨w.style, w.lines ++ w.style.linesFrom w.blocks w.number calls,
      calls.foldl Call.depthAfter w.blocks, w.number + calls.countP Call.isNumbered⟩ := by
  induction calls generalizing w with
  | nil => rw [List.foldl_nil, ListingStyle.linesFrom, List.append_nil, List.foldl_nil, List.countP_nil, Nat.add_zero]
  | cons c rest ih =>
    rw [List.foldl_cons, ih, ListingStyle.linesFrom, List.foldl_cons, List.append_cons,
      ← Call.sequenceAfter_add_countP]
    rfl

/-- What is kept besides the lines, and the lines, are known from the calls so far. -/
theorem run_eq (style : ListingStyle) (calls : List Call) :
    run style calls = ⟨style, style.lines calls, Call.openBlocks calls, calls.countP Call.isNumbered⟩ := by
  rw [run, foldl_add, empty, List.nil_append, Nat.zero_add]
  rfl

theorem run_lines_ne_empty (style : ListingStyle) (calls : List Call) :
    ∀ line ∈ (run style calls).lines, line ≠ "" := by
  induction calls using List.reverseRecOn with
  | nil => exact nofun
  | append_singleton calls c ih =>
    rw [run_concat, add, List.forall_mem_append, List.forall_mem_singleton]
    exact ⟨ih, line_ne_empty _ c⟩

theorem finish_run (style : ListingStyle) (calls : List Call) : (run style calls).finish = style.write calls := by
  rw [finish_eq_join (run_lines_ne_empty style calls), run_eq]
  rfl

theorem finish_run_concat (style : ListingStyle) (calls : List Call) (c : Call) :
    (run style (calls ++ [c])).finish = (run style calls).finish ++ (run style calls).line c ++ "\n" := by
  rw [finish_eq_join (run_lines_ne_empty style _), finish_eq_join (run_lines_ne_empty style _), run_concat, add,
    List.map_append, String.join_append, List.map_singleton, String.join_cons, String.join_nil, String.append_empty,
    String.append_assoc]

/-- An end stands at the depth behind it, every other call at the depth in front of it. -/
theorem depth_eq (calls : List Call) (c : Call) :
    c.depth (Call.openBlocks calls) = Call.openBlocks (if c = .endContent then calls ++ [c] else calls) := by
  cases c <;> simp [Call.depth, Call.openBlocks_concat, Call.depthAfter]

/-- A call behind any others adds a line of its own to the listing, and what was written before stays as it is. The
line is indented once for each block that is open, where an end without a beginning is as if nothing stood before it.
The calls that do not end anything carry the numbers from zero on, in their order. -/
theorem run_concat_adds (style : ListingStyle) (calls : List Call) (c : Call) :
    ∃ blocks line,
      IsGreatest {n | Call.Excess (if c = .endContent then calls ++ [c] else calls) n} blocks ∧
      line = Text.spaces (blocks * style.indent) ++ c.code style.builder (calls.countP Call.isNumbered) ∧
      style.lines (calls ++ [c]) = style.lines calls ++ [line] ∧
      (run style (calls ++ [c])).finish = (run style calls).finish ++ line ++ "\n" ∧
      (run style calls).finish = style.write calls ∧
      (if c.isNumbered then
        ∃ before behind, ∀ number, c.code style.builder number = before ++ toString number ++ behind
      else ∃ text, ∀ number, c.code style.builder number = text) ∧
      (Call.openBlocks calls = 0 →
        ∀ more, Call.openBlocks (calls ++ .endContent :: more) = Call.openBlocks more) := by
  have hLine : (run style calls).line c = Text.spaces (c.depth (Call.openBlocks calls) * style.indent) ++
      c.code style.builder (calls.countP Call.isNumbered) := by
    rw [run_eq]
    rfl
  have hLines : style.lines (calls ++ [c]) = style.lines calls ++ [(run style calls).line c] := by
    have hAdd := congrArg Writer.lines (run_concat style calls c)
    rw [run_eq, add, run_eq] at hAdd
    rw [run_eq]
    exact hAdd
  exact ⟨_, _, Call.isGreatest_openBlocks _, by rw [hLine, depth_eq], hLines, finish_run_concat style calls c,
    finish_run style calls, c.code_number _, Call.openBlocks_append_end⟩

/-- An end without a beginning, and then a beginning. -/
theorem run_concat_adds_unmatched : ∃ line,
    (run .standard [.endContent, .beginContent]).finish = (run .standard [.endContent]).finish ++ line ++ "\n" ∧
      ∀ more, Call.openBlocks (.endContent :: .endContent :: more) = Call.openBlocks more := by
  obtain ⟨_, line, -, -, -, hFinish, -, -, hEnd⟩ := run_concat_adds .standard [.endContent] .beginContent
  exact ⟨line, hFinish, hEnd (by decide)⟩

end Writer
end TypedMarkup
