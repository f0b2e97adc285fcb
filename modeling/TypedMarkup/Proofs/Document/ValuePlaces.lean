import Mathlib.Data.List.Nodup
import TypedMarkup.Compile
import TypedMarkup.Proofs.Document.Nesting
import TypedMarkup.Proofs.Document.Parsing
import TypedMarkup.Proofs.Token.Skipped

/-! # Where values begin

The value of an attribute is written by the tokens that come right behind its mark. Between the mark and the value
there is no token, so that the text there is blank or dropped.
-/
namespace TypedMarkup
set_option autoImplicit false
open Spelling Placement

namespace Token

variable {source : String}

/-- In front of tokens that stand behind another there are lexemes that are no tokens. -/
theorem exists_gap {t : Located Token} {own : List (Located Token)} (h : t :: own <:+: scan source) (hOwn : own ≠ []) :
    ∃ before gap behind more, Lexeme.split source.toList = before ++ (gap ++ behind) ∧
      t.span.stop = Lexeme.byteCount (before.flatMap Lexeme.text) ∧
      (Span.ofTokens own).start = t.span.stop + Lexeme.byteCount (gap.flatMap Lexeme.text) ∧
      (∀ l ∈ gap, l.token? = none) ∧ Lexeme.tokensFrom (Span.ofTokens own).start behind = own ++ more := by
  obtain ⟨tsBefore, tsBehind, hScan⟩ := h
  obtain ⟨first, rest, rfl⟩ := List.exists_cons_of_ne_nil hOwn
  have hTokens : Lexeme.tokensFrom 0 (Lexeme.split source.toList) = tsBefore ++ t :: (first :: rest ++ tsBehind) := by
    rw [← scan, ← hScan, List.append_assoc, List.cons_append]
  obtain ⟨before, ls, hSplit, -, hStop, hBehind⟩ := Lexeme.exists_cut_behind hTokens
  rw [← List.nil_append (first :: rest), List.append_assoc] at hBehind
  obtain ⟨gap, behind, rfl, hGap, hStart, hValue⟩ := Lexeme.exists_cut_before hBehind
  rw [Nat.zero_add] at hStop
  refine ⟨before, gap, behind, tsBehind, hSplit, hStop, hStart, ?_, hValue⟩
  have hNone := congrArg (List.map Located.value) hGap
  rw [Lexeme.map_value_tokensFrom, List.map_nil, List.filterMap_eq_nil_iff] at hNone
  exact hNone

theorem scan_nodup (source : String) : (scan source).Nodup :=
  List.Nodup.of_map _ ((scan_starts_increasing source).imp Nat.ne_of_lt)

/-- The token behind another is known from it. -/
theorem next_unique {t u u' : Located Token} (h : [t, u] <:+: scan source) (h' : [t, u'] <:+: scan source) :
    u = u' := by
  obtain ⟨before, after, hScan⟩ := h
  obtain ⟨before', after', hScan'⟩ := h'
  have hNodup := scan_nodup source
  rw [← hScan, List.append_assoc, List.cons_append] at hNodup
  have hBoth : before ++ t :: ([u] ++ after) = before' ++ t :: ([u'] ++ after') := by
    simpa using hScan.trans hScan'.symm
  obtain ⟨hNot, -⟩ := List.nodup_cons.mp (List.nodup_middle.mp hNodup)
  rw [List.mem_append, not_or] at hNot
  obtain ⟨-, -, hNext⟩ := (List.append_cons_inj_of_notMem hNot.1 hNot.2).mp hBoth
  exact (List.cons.inj hNext).1

end Token

section Rows

variable {ts : List (Located Token)}

theorem Attribute.Placed.exists_name {a : Attribute} (h : a.Placed ts) :
    ∃ rest, ts = Identifier.token a.name :: rest := by
  cases h <;> exact ⟨_, rfl⟩

/-- Behind the name of the attribute stands another token, and if that is the mark then the value comes behind it. -/
def Attribute.GoesOn (a : Attribute) (ts : List (Located Token)) : Prop :=
  ∃ u, [Identifier.token a.name, u] <:+: ts ∧ (u.value = .mark .equals →
    ∃ own, a.value.Placed AttributeValue.Spelled own ∧ Identifier.token a.name :: u :: own <:+: ts)

theorem Attribute.GoesOn.mono {a : Attribute} {own : List (Located Token)} (h : a.GoesOn own) (hOwn : own <:+: ts) :
    a.GoesOn ts := by
  obtain ⟨u, hNext, hValue⟩ := h
  refine ⟨u, hNext.trans hOwn, ?_⟩
  intro hMark
  obtain ⟨value, hPlaced, hTokens⟩ := hValue hMark
  exact ⟨value, hPlaced, hTokens.trans hOwn⟩

/-- An attribute in a row goes on with its mark, with the name of the next one, or with what stands behind the row. -/
theorem Attribute.goesOn_of_inRow {attributes : List Attribute} {own : List (Located Token)}
    (h : InRow Attribute.Placed attributes own) {a : Attribute} (ha : a ∈ attributes) {t : Located Token}
    (ht : t.value ≠ .mark .equals) : a.GoesOn (own ++ [t]) := by
  induction attributes generalizing own with
  | nil => cases ha
  | cons b rest ih =>
    obtain ⟨own, after, hHead, hRest, rfl⟩ := h
    rcases List.mem_cons.mp ha with rfl | ha
    · cases hHead with
      | bare name =>
        cases rest with
        | nil =>
          obtain rfl : after = [] := hRest
          exact ⟨t, List.infix_rfl, fun hMark => absurd hMark ht⟩
        | cons b rest =>
          obtain ⟨own, after, hNext, -, rfl⟩ := hRest
          obtain ⟨more, rfl⟩ := hNext.exists_name
          refine ⟨Identifier.token b.name, ⟨[], more ++ after ++ [t], by simp⟩, ?_⟩
          rintro ⟨⟩
      | @valued name value s ts hValue =>
        refine ⟨⟨.mark .equals, s⟩, ⟨[], ts ++ after ++ [t], by simp⟩, ?_⟩
        intro _
        exact ⟨ts, hValue, [], after ++ [t], by simp⟩
    · apply (ih hRest ha).mono
      exact ⟨own, [], by simp⟩

end Rows

namespace Node

mutual
theorem exists_mem_nodes_of_tag {tag : Tag} : ∀ {n : Node}, tag ∈ n.tags →
    ∃ children closing, element tag.span tag.name tag.attributes children closing ∈ n.nodes
  | .text _ _, h => by cases h
  | .expression _ _, h => by cases h
  | .element span name attributes children closing, h => by
    rcases List.mem_cons.mp h with rfl | h
    · exact ⟨children, closing, List.mem_cons_self⟩
    · obtain ⟨children', closing', hMem⟩ := exists_mem_nodesIn_of_tag h
      exact ⟨children', closing', List.mem_cons_of_mem _ hMem⟩

theorem exists_mem_nodesIn_of_tag {tag : Tag} : ∀ {nodes : List Node}, tag ∈ tagsIn nodes →
    ∃ children closing, element tag.span tag.name tag.attributes children closing ∈ nodesIn nodes
  | [], h => by cases h
  | n :: rest, h => by
    rcases List.mem_append.mp h with h | h
    · obtain ⟨children, closing, hMem⟩ := exists_mem_nodes_of_tag h
      exact ⟨children, closing, List.mem_append_left _ hMem⟩
    · obtain ⟨children, closing, hMem⟩ := exists_mem_nodesIn_of_tag h
      exact ⟨children, closing, List.mem_append_right _ hMem⟩
end

theorem Placed.goesOn {span : Span} {name : Identifier} {attributes : List Attribute} {children : List Node}
    {closing : Option Identifier} {ts : List (Located Token)}
    (h : (element span name attributes children closing).Placed ts) {a : Attribute} (ha : a ∈ attributes) :
    a.GoesOn ts := by
  cases closing with
  | none =>
    obtain ⟨s, s', own, hRow, -, rfl, -⟩ := h
    apply (Attribute.goesOn_of_inRow hRow ha (t := ⟨.mark .slashGreater, s'⟩) nofun).mono
    exact ⟨[⟨.mark .less, s⟩, Identifier.token name], [], by simp⟩
  | some close =>
    obtain ⟨s₁, s₂, s₃, s₄, own, inner, hRow, -, rfl, -⟩ := h
    apply (Attribute.goesOn_of_inRow hRow ha (t := ⟨.mark .greater, s₂⟩) nofun).mono
    exact ⟨[⟨.mark .less, s₁⟩, Identifier.token name],
      inner ++ [⟨.mark .lessSlash, s₃⟩, Identifier.token close, ⟨.mark .greater, s₄⟩], by simp⟩

end Node

namespace Document

variable {source : String} {d : Document} {tag : Tag} {a : Attribute}

theorem Placed.goesOn {ts : List (Located Token)} (h : d.Placed ts) (hTag : tag ∈ d.tags) (ha : a ∈ tag.attributes) :
    a.GoesOn ts := by
  rw [Document.tags, Node.tagsIn_eq_flatMap] at hTag
  obtain ⟨n, hn, hTag⟩ := List.mem_flatMap.mp hTag
  obtain ⟨own, hOwn, hInfix⟩ := h.exists_of_mem_markup hn
  obtain ⟨children, closing, hElement⟩ := Node.exists_mem_nodes_of_tag hTag
  obtain ⟨inner, hInner, hTrans⟩ := hOwn.exists_of_mem_nodes hElement
  exact (hInner.goesOn ha).mono (hTrans.trans hInfix)

/-- Between the mark of an attribute and its value the source has no token, so that the text there is blank or
dropped, and the value is written by the tokens that come next. -/
theorem value_behind_mark (hParse : parse source = .ok d) (hTag : tag ∈ d.tags) (ha : a ∈ tag.attributes) {s : Span}
    (hMark : [Identifier.token a.name, ⟨.mark .equals, s⟩] <:+: Token.scan source) :
    ∃ before gap behind own more, Lexeme.split source.toList = before ++ (gap ++ behind) ∧
      s.stop = Lexeme.byteCount (before.flatMap Lexeme.text) ∧
      a.value.span.start = s.stop + Lexeme.byteCount (gap.flatMap Lexeme.text) ∧
      (∀ l ∈ gap, l.token? = none ∧ (Lexeme.Blank l.text ∨ Lexeme.Dropped l.text)) ∧
      a.value.Placed AttributeValue.Spelled own ∧
      Lexeme.tokensFrom a.value.span.start behind = own ++ more := by
  obtain ⟨u, hNext, hValue⟩ := (parse_eq_ok_iff_placed.mp hParse).1.goesOn hTag ha
  obtain rfl := Token.next_unique hNext hMark
  obtain ⟨own, hPlaced, hTokens⟩ := hValue rfl
  have hOwn : own ≠ [] := by
    rintro rfl
    exact hPlaced.1.ne_nil rfl
  obtain ⟨before, gap, behind, more, hSplit, hStop, hStart, hGap, hBehind⟩ :=
    Token.exists_gap ((List.suffix_cons _ _).isInfix.trans hTokens) hOwn
  rw [← hPlaced.2] at hStart hBehind
  refine ⟨before, gap, behind, own, more, hSplit, hStop, hStart, ?_, hPlaced, hBehind⟩
  intro l hl
  have hMem : l ∈ Lexeme.split source.toList := by simp [hSplit, hl]
  exact ⟨hGap l hl, Lexeme.blank_or_dropped hMem (hGap l hl)⟩

end Document

/-- A document of one element with one attribute. -/
def lineDocument (value : Located AttributeValue) (stop : Nat) : Document :=
  ⟨[.markup (.element ⟨0, stop⟩ ⟨"a", ⟨1, 2⟩⟩ [⟨⟨"b", ⟨3, 4⟩⟩, value, ⟨3, value.span.stop⟩⟩] [] none)]⟩

theorem value_behind_mark_comment :
    ∃ before gap behind own more, Lexeme.split "<a b= /* no */ ? value/>".toList = before ++ (gap ++ behind) ∧
      5 = Lexeme.byteCount (before.flatMap Lexeme.text) ∧ 17 = 5 + Lexeme.byteCount (gap.flatMap Lexeme.text) ∧
      (∀ l ∈ gap, l.token? = none ∧ (Lexeme.Blank l.text ∨ Lexeme.Dropped l.text)) ∧
      Located.Placed AttributeValue.Spelled ⟨.type (.named "value"), ⟨17, 22⟩⟩ own ∧
      Lexeme.tokensFrom 17 behind = own ++ more := by
  have hParse : Document.parse "<a b= /* no */ ? value/>" =
      .ok (lineDocument ⟨.type (.named "value"), ⟨17, 22⟩⟩ 24) := by decide +kernel
  have hMark : [Identifier.token ⟨"b", ⟨3, 4⟩⟩, ⟨.mark .equals, ⟨4, 5⟩⟩] <:+:
      Token.scan "<a b= /* no */ ? value/>" := by decide +kernel
  exact Document.value_behind_mark hParse List.mem_cons_self List.mem_cons_self hMark

def largeInteger : String := "99999999999999999999"

def largeSource : String := "<a b=" ++ largeInteger ++ " c/>"

/-- Of an integer beyond 64 bits no token is made, so that the value is what was to be the name of the next
attribute. -/
theorem value_behind_large_integer :
    Document.parse largeSource = .ok (lineDocument ⟨.type (.named "c"), ⟨26, 27⟩⟩ 29) ∧
    [Identifier.token ⟨"b", ⟨3, 4⟩⟩, ⟨.mark .equals, ⟨4, 5⟩⟩] <:+: Token.scan largeSource ∧
    (∃ before behind, Lexeme.split largeSource.toList = before ++ ⟨largeInteger.toList, .stray⟩ :: behind ∧
      Lexeme.byteCount (before.flatMap Lexeme.text) = 5) ∧
    ¬ Lexeme.Blank largeInteger.toList ∧ ∃ out, compile largeSource [] .standard = .ok out := by
  refine ⟨by decide +kernel, by decide +kernel, ?_, ?_, ?_⟩
  · refine ⟨(Lexeme.split largeSource.toList).take 5, (Lexeme.split largeSource.toList).drop 6, ?_, ?_⟩
    · decide +kernel
    · decide +kernel
  · intro hBlank
    cases hBlank with
    | space hSpace => cases hSpace '9' (by decide)
  · have hCompiles : (compile largeSource [] .standard).toOption.isSome = true := by decide +kernel
    obtain ⟨out, hOut⟩ := Option.isSome_iff_exists.mp hCompiles
    cases hResult : compile largeSource [] .standard with
    | ok out => exact ⟨out, rfl⟩
    | error e =>
      rw [hResult] at hOut
      cases hOut

end TypedMarkup
