import TypedMarkup.Proofs.Report.Lines
import TypedMarkup.Proofs.Token.Joining
import TypedMarkup.Report.Basic

/-! # The place that a report names

A report names the line and the column of its label. The label is given in bytes and taken in characters: the place
meant is named just if every character before it is one byte, and no more than a header is drawn if the label, so
taken, ends behind the source.
-/
namespace TypedMarkup
set_option autoImplicit false

namespace Lexeme

theorem length_le_byteCount (text : List Char) : text.length ≤ byteCount text := by
  induction text with
  | nil => exact Nat.le_refl _
  | cons c rest ih =>
    have hChar := c.utf8Size_pos
    rw [byteCount, List.length_cons]
    omega

theorem length_eq_byteCount_iff {text : List Char} : text.length = byteCount text ↔ ∀ c ∈ text, c.utf8Size = 1 := by
  induction text with
  | nil => exact ⟨nofun, fun _ => rfl⟩
  | cons c rest ih =>
    have hChar := c.utf8Size_pos
    have hRest := length_le_byteCount rest
    rw [byteCount, List.length_cons, List.forall_mem_cons, ← ih]
    omega

end Lexeme

namespace Report

variable {r : Report} {source : String}

/-- The line and the column that a report names. It names none if its label is not within the source. -/
def place? (r : Report) (source : String) : Option (Nat × Nat) :=
  (r.lines? (SourceLine.ofText source.toList)).map fun lines => r.location lines.1

/-- A place of a file in words. -/
def placeText (file : String) (place : Nat × Nat) : String :=
  file ++ ":" ++ toString place.1 ++ ":" ++ toString place.2

/-- The text is that of the report with this place named in it, or the header alone for no place. -/
inductive Draws (r : Report) (file : String) (color : Bool) : Option (Nat × Nat) → String → Prop
  | header : Draws r file color none (r.header color ++ "\n")
  | framed {place : Nat × Nat} (front back : String) :
    Draws r file color (some place) (r.header color ++ "\n" ++ front ++ placeText file place ++ back)

/-- The place stands in the first row of the frame, right under the header. -/
theorem exists_framed (head : String) (v : Canvas) (file : String) (place : Nat × Nat) (body : List String) :
    ∃ front back, String.join ((head :: v.frame file place body).map fun row => row ++ "\n") =
      head ++ "\n" ++ front ++ placeText file place ++ back := by
  refine ⟨Text.spaces (v.width + 2) ++ v.paint .margin "╭" ++ v.paint .margin "─" ++ v.paint .margin "[",
    v.paint .margin "]" ++ "\n" ++ String.join ((v.frame file place body).tail.map fun row => row ++ "\n"), ?_⟩
  simp only [Canvas.frame, placeText, List.map_cons, List.cons_append, List.tail_cons, String.join_cons,
    String.append_assoc]

/-- A report whose label does not end before it starts is drawn with the place that it names. -/
theorem draws_render? (h : r.span.start ≤ r.span.stop) (file source : String) (color : Bool) :
    ∃ text, r.render? file source color = some text ∧ r.Draws file color (r.place? source) text := by
  rw [render?, if_neg (Nat.not_lt.mpr h), rows, place?]
  cases r.lines? (SourceLine.ofText source.toList) with
  | none => exact ⟨_, rfl, .header⟩
  | some lines =>
    obtain ⟨front, back, hText⟩ := exists_framed (r.header color) ⟨color, (toString (lines.2.1 + 1)).length⟩ file
      (r.location lines.1) _
    exact ⟨_, rfl, hText ▸ .framed front back⟩

theorem isSome_lines?_iff {lines : List SourceLine} (h : r.span.start < r.span.stop) :
    (r.lines? lines).isSome = true ↔
      (SourceLine.at? lines r.span.start).isSome = true ∧
        (SourceLine.at? lines (r.span.stop - 1)).isSome = true := by
  rw [lines?]
  cases SourceLine.at? lines r.span.start with
  | none => simp
  | some first => simp [Nat.not_le.mpr h]

theorem at?_of_lines? {lines : List SourceLine} {first last : Nat × SourceLine}
    (h : r.lines? lines = some (first, last)) :
    SourceLine.at? lines r.span.start = some first := by
  rw [lines?] at h
  split at h
  · cases h
  case h_2 hFirst =>
    split at h
    · cases h
      exact hFirst
    · obtain ⟨_, -, hEq⟩ := Option.map_eq_some_iff.mp h
      cases hEq
      exact hFirst

/-- A report names the place of the character that its label starts at if each character before it is one byte and
the label, taken in characters, is within the source; else it names another place or none. -/
theorem place?_eq_iff {before after : List Char} {c : Char} (hText : source.toList = before ++ c :: after)
    (hStart : r.span.start = Lexeme.byteCount before) (hOrder : r.span.start < r.span.stop) :
    r.place? source = some (SourceLine.placeBehind before c) ↔
      (∀ d ∈ before, d.utf8Size = 1) ∧ r.span.stop ≤ source.toList.length + 1 := by
  have hNonempty : source.toList ≠ [] := by simp [hText]
  obtain ⟨index, l, hAt, hPlace⟩ := SourceLine.at?_ofText before c after
  rw [← hText] at hAt
  rw [← Lexeme.length_eq_byteCount_iff, place?, hPlace]
  constructor
  · intro h
    obtain ⟨⟨⟨index', l'⟩, last⟩, hLines, hLocation⟩ := Option.map_eq_some_iff.mp h
    obtain ⟨hIndex, hColumn⟩ := Prod.mk.inj hLocation
    obtain rfl := Nat.succ.inj hIndex
    -- There are at least as many bytes before the character as characters, and the same place only for as many.
    have hSame := SourceLine.place_eq_of_at? (at?_of_lines? hLines) hAt (Nat.succ.inj hColumn)
    have hSome := ((isSome_lines?_iff hOrder).mp (Option.isSome_of_eq_some hLines)).2
    rw [SourceLine.isSome_at?_iff hNonempty] at hSome
    exact ⟨by omega, by omega⟩
  · rintro ⟨hAscii, hStop⟩
    have hSame : r.span.start = before.length := by omega
    have hSome : (r.lines? (SourceLine.ofText source.toList)).isSome = true := by
      rw [isSome_lines?_iff hOrder, hSame, hAt, SourceLine.isSome_at?_iff hNonempty]
      exact ⟨rfl, by omega⟩
    obtain ⟨⟨first, last⟩, hLines⟩ := Option.isSome_iff_exists.mp hSome
    have hFirst := at?_of_lines? hLines
    rw [hSame, hAt] at hFirst
    cases hFirst
    rw [hLines, Option.map_some, location, hSame]

end Report
end TypedMarkup
