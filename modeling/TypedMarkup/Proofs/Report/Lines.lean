import TypedMarkup.Report.SourceLine

/-! # Lines and places

The lines of a longer text are those of a text that it begins with, the last of which may go on. So the line that a
character stands on, and its place on that line, are known from the text up to it.
-/
namespace TypedMarkup
set_option autoImplicit false

namespace SourceLine

theorem pieces_eq_nil_iff {text : List Char} : pieces text = [] ↔ text = [] := by
  constructor
  · intro h
    rw [← flatten_pieces text, h]
    rfl
  · rintro rfl
    rfl

theorem ne_nil_of_mem_pieces {text line : List Char} (h : line ∈ pieces text) : line ≠ [] := by
  fun_induction pieces text <;> grind

/-- Where a line is not broken behind a character, the text behind it tells how the line goes on. -/
theorem pieces_cons_of_not_isTerminator {c : Char} {text : List Char} (h : ¬ isTerminator c = true) :
    pieces (c :: text) = (c :: (pieces text).headD []) :: (pieces text).tail := by
  rw [pieces.eq_3 _ _ (fun rest hc _ => h (by rw [hc]; decide)), if_neg h]
  cases pieces text <;> rfl

/-- Behind a terminator there is a new line, but a line feed belongs to the carriage return before it. -/
theorem exists_pieces_cons_of_isTerminator {c : Char} (h : isTerminator c = true) (text : List Char) :
    ∃ more rest, pieces (c :: text) = (c :: more) :: rest := by
  by_cases hBreak : ∃ rest, c = '\r' ∧ text = '\n' :: rest
  · obtain ⟨rest, rfl, rfl⟩ := hBreak
    exact ⟨['\n'], pieces rest, rfl⟩
  · rw [pieces.eq_3 _ _ (fun rest hc hText => hBreak ⟨rest, hc, hText⟩), if_pos h]
    exact ⟨[], pieces text, rfl⟩

/-- The lines of a text and of a longer one: only the last may go on, and others may follow. -/
def Continues (lines longer : List (List Char)) : Prop :=
  ∃ before line more rest, lines = before ++ [line] ∧ longer = before ++ (line ++ more) :: rest

namespace Continues

theorem singleton (line more : List Char) (rest : List (List Char)) : Continues [line] ((line ++ more) :: rest) :=
  ⟨[], line, more, rest, rfl, rfl⟩

variable {lines longer : List (List Char)} (h : Continues lines longer)
include h

theorem cons (first : List Char) : Continues (first :: lines) (first :: longer) := by
  obtain ⟨before, line, more, rest, rfl, rfl⟩ := h
  exact ⟨first :: before, line, more, rest, rfl, rfl⟩

theorem cons_head (c : Char) :
    Continues ((c :: lines.headD []) :: lines.tail) ((c :: longer.headD []) :: longer.tail) := by
  obtain ⟨before, line, more, rest, rfl, rfl⟩ := h
  cases before with
  | nil => exact singleton (c :: line) more rest
  | cons first before => exact ⟨(c :: first) :: before, line, more, rest, rfl, rfl⟩

end Continues

theorem pieces_append_continues (after : List Char) {text : List Char} (hText : text ≠ []) :
    Continues (pieces text) (pieces (text ++ after)) := by
  fun_induction pieces text with
  | case1 => exact absurd rfl hText
  | case2 tail ih =>
    by_cases hTail : tail = []
    · subst hTail
      exact .singleton ['\r', '\n'] [] (pieces after)
    · exact (ih hTail).cons _
  | case3 c tail hBreak hTerminator ih =>
    by_cases hTail : tail = []
    · subst hTail
      -- A line feed behind the text may still belong to this line.
      obtain ⟨more, rest, hLonger⟩ := exists_pieces_cons_of_isTerminator hTerminator after
      exact hLonger ▸ .singleton [c] more rest
    · obtain ⟨d, tail', rfl⟩ := List.exists_cons_of_ne_nil hTail
      rw [List.cons_append, List.cons_append, pieces.eq_3 c (d :: (tail' ++ after)) ?_, if_pos hTerminator]
      · exact (ih hTail).cons _
      · intro rest hc hFeed
        exact hBreak tail' hc (by rw [(List.cons.inj hFeed).1])
  | case4 c tail hBreak hTerminator hNone ih =>
    obtain rfl := pieces_eq_nil_iff.mp hNone
    rw [List.cons_append, pieces_cons_of_not_isTerminator hTerminator]
    exact .singleton [c] _ _
  | case5 c tail hBreak hTerminator first others hPieces ih =>
    have hTail : tail ≠ [] := by
      rintro rfl
      cases hPieces
    have hLonger := (ih hTail).cons_head c
    rwa [hPieces, ← pieces_cons_of_not_isTerminator hTerminator] at hLonger

theorem locate_append (offset : Nat) (lines rest : List (List Char)) :
    locate offset (lines ++ rest) = locate offset lines ++ locate (offset + lines.flatten.length) rest := by
  induction lines generalizing offset with
  | nil => rfl
  | cons line lines ih =>
    rw [List.cons_append, locate, locate, ih, List.flatten_cons, List.length_append, Nat.add_assoc]
    rfl

theorem length_locate (offset : Nat) (lines : List (List Char)) : (locate offset lines).length = lines.length := by
  induction lines generalizing offset with
  | nil => rfl
  | cons line lines ih => rw [locate, List.length_cons, List.length_cons, ih]

theorem le_offset_of_mem_locate {offset : Nat} {lines : List (List Char)} {l : SourceLine}
    (h : l ∈ locate offset lines) : offset ≤ l.offset := by
  induction lines generalizing offset with
  | nil => cases h
  | cons line lines ih =>
    rcases List.mem_cons.mp h with rfl | h
    · exact Nat.le_refl _
    · exact Nat.le_trans (Nat.le_add_right _ _) (ih h)

theorem stop_getLast?_locate (offset : Nat) {lines : List (List Char)} (h : lines ≠ []) :
    (locate offset lines).getLast?.map stop = some (offset + lines.flatten.length) := by
  obtain ⟨before, line, rfl⟩ := List.eq_nil_or_concat lines |>.resolve_left h
  rw [List.concat_eq_append, locate_append]
  simp [locate, stop, Nat.add_assoc]

/-- The lines of a text that is not empty end where the text ends. -/
theorem stop_getLast?_ofText {text : List Char} (h : text ≠ []) :
    (ofText text).getLast?.map stop = some text.length := by
  have hPieces := stop_getLast?_locate 0 (mt pieces_eq_nil_iff.mp h)
  rwa [flatten_pieces, Nat.zero_add] at hPieces

section At

variable {lines : List SourceLine} {place index : Nat} {l : SourceLine}

theorem at?_eq_some (h : at? lines place = some (index, l)) : lines[index]? = some l ∧ l.offset ≤ place := by
  rw [at?] at h
  split at h
  · cases h
  · split at h
    · obtain ⟨⟨l', index'⟩, hLast, hEq⟩ := Option.map_eq_some_iff.mp h
      cases hEq
      have hMem := List.mem_filter.mp (List.mem_of_getLast? hLast)
      exact ⟨List.mk_mem_zipIdx_iff_getElem?.mp hMem.1, of_decide_eq_true hMem.2⟩
    · cases h

/-- The line at a place is the last one that starts no later. -/
theorem at?_of_split {before after : List SourceLine} (hLine : l.offset ≤ place)
    (hAfter : ∀ l' ∈ after, place < l'.offset) {stop' : Nat}
    (hStop : (before ++ l :: after).getLast?.map stop = some stop') (hPlace : place ≤ stop') :
    at? (before ++ l :: after) place = some (before.length, l) := by
  obtain ⟨last, hLast, rfl⟩ := Option.map_eq_some_iff.mp hStop
  rw [at?, hLast]
  dsimp only
  rw [if_pos hPlace, List.zipIdx_append, List.zipIdx_cons, List.filter_append,
    List.filter_cons_of_pos (by simpa using hLine), Nat.zero_add,
    (List.filter_eq_nil_iff (l := after.zipIdx (before.length + 1))).mpr ?late]
  case late =>
    rintro ⟨l', index'⟩ hMem
    simpa using hAfter l' (List.fst_mem_of_mem_zipIdx hMem)
  simp

theorem isSome_at?_iff {text : List Char} (h : text ≠ []) :
    (at? (ofText text) place).isSome = true ↔ place ≤ text.length := by
  obtain ⟨last, hLast, hStop⟩ := Option.map_eq_some_iff.mp (stop_getLast?_ofText h)
  obtain ⟨first, others, hPieces⟩ := List.exists_cons_of_ne_nil (mt pieces_eq_nil_iff.mp h)
  rw [at?, hLast, ofText, hPieces, locate]
  -- The first line starts at the first character, so that some line does.
  by_cases hPlace : place ≤ text.length <;> simp [hStop, hPlace]

end At

/-- The line of a character behind a text and its place on the line, both counted from one. -/
def placeBehind (before : List Char) (c : Char) : Nat × Nat :=
  let lines := pieces (before ++ [c])
  (lines.length, (lines.getLast?.map List.length).getD 0)

/-- A character is found on its line. -/
theorem at?_ofText (before : List Char) (c : Char) (after : List Char) :
    ∃ index l, at? (ofText (before ++ c :: after)) before.length = some (index, l) ∧
      placeBehind before c = (index + 1, before.length - l.offset + 1) := by
  have hNonempty : before ++ [c] ≠ [] := by simp
  obtain ⟨lines, line, more, rest, hOwn, hLonger⟩ := pieces_append_continues after hNonempty
  have hText : before ++ [c] ++ after = before ++ c :: after := by simp
  rw [hText] at hLonger
  have hLength := congrArg List.length (flatten_pieces (before ++ [c]))
  rw [hOwn] at hLength
  simp only [List.flatten_append, List.flatten_singleton, List.length_append, List.length_singleton] at hLength
  have hLine : line ∈ pieces (before ++ [c]) := by simp [hOwn]
  have hPos := List.length_pos_iff.mpr (ne_nil_of_mem_pieces hLine)
  have hStop := stop_getLast?_ofText (hText ▸ List.append_ne_nil_of_left_ne_nil hNonempty after)
  have hLines : ofText (before ++ c :: after) = locate 0 lines ++ ⟨lines.flatten.length, line ++ more⟩ ::
      locate (lines.flatten.length + (line ++ more).length) rest := by
    rw [ofText, hLonger, locate_append, Nat.zero_add]
    rfl
  rw [hLines] at hStop ⊢
  refine ⟨_, _, at?_of_split (by dsimp only; omega) ?_ hStop (by simp), ?_⟩
  · intro l' hl'
    have hOffset := le_offset_of_mem_locate hl'
    rw [List.length_append] at hOffset
    omega
  · rw [placeBehind, hOwn, length_locate]
    simp only [List.length_append, List.length_singleton, List.getLast?_append, List.getLast?_singleton]
    refine Prod.ext rfl ?_
    change line.length = _
    dsimp only
    omega

/-- At different places are different lines or different places of a line. -/
theorem place_eq_of_at? {lines : List SourceLine} {place place' index : Nat} {l l' : SourceLine}
    (h : at? lines place = some (index, l)) (h' : at? lines place' = some (index, l'))
    (hColumn : place - l.offset = place' - l'.offset) : place = place' := by
  obtain ⟨hLine, hOffset⟩ := at?_eq_some h
  obtain ⟨hLine', hOffset'⟩ := at?_eq_some h'
  cases hLine.symm.trans hLine'
  omega

end SourceLine
end TypedMarkup
