import Mathlib.Algebra.Group.Nat.Even
import Mathlib.Data.List.DropRight
import TypedMarkup.Proofs.Token.Cutting

/-! # Block comments

In the body of a block comment a star takes the next character with it. So of the stars in front of a closing mark
an odd one out takes the star of the mark, and the comment goes on behind it.
-/
namespace TypedMarkup
set_option autoImplicit false

namespace Lexeme

/-- The number of stars that a text ends with. -/
def starsBehind (text : List Char) : Nat := (text.rtakeWhile (· = '*')).length

theorem starsBehind_append_cons {c : Char} (hc : c ≠ '*') (text more : List Char) :
    starsBehind (text ++ c :: more) = starsBehind more := by
  have hReverse : (text ++ c :: more).reverse = more.reverse ++ c :: text.reverse := by simp
  rw [starsBehind, List.rtakeWhile, hReverse, takeWhile_append_of_neg (by simpa using hc)]
  rfl

theorem starsBehind_concat (text : List Char) : starsBehind (text ++ ['*']) = starsBehind text + 1 := by
  rw [starsBehind, List.rtakeWhile_concat_pos _ _ _ (by decide), List.length_append]
  rfl

/-- A star and the character behind it leave the number of stars at the end even or odd. -/
theorem even_starsBehind_pair (c : Char) (text : List Char) :
    Even (starsBehind ('*' :: c :: text)) ↔ Even (starsBehind text) := by
  by_cases hc : c = '*'
  · have hReverse : ('*' :: c :: text).reverse = text.reverse ++ ['*', '*'] := by simp [hc]
    simp only [starsBehind, List.rtakeWhile, List.length_reverse, hReverse, List.takeWhile_append]
    split
    case isTrue hAll =>
      have hTwo : (['*', '*'].takeWhile (· = '*')).length = 2 := rfl
      have hEven : Even 2 := by decide
      rw [List.length_append, hAll, hTwo, Nat.even_add, iff_true_right hEven,
        List.length_reverse]
    case isFalse => rfl
  · rw [← List.singleton_append, starsBehind_append_cons hc]

/-- Text without a closing mark is read to its end, if the stars there are taken in pairs. -/
theorem commentBody?_append_of_even {body : List Char} (h : ¬ ['*', '/'] <:+: body) (hEven : Even (starsBehind body))
    (more : List Char) : commentBody? (body ++ more) = (commentBody? more).map (body ++ ·) := by
  -- A body is taken apart as it is read: a star with the character behind it, else one character.
  fun_induction commentBody? body with
  | case1 => simp
  | case2 => exact absurd hEven (by decide)
  | case3 rest => exact absurd ⟨[], rest, rfl⟩ h
  | case4 c rest hSlash ih =>
    have hInner := ih (fun hMark => h (hMark.trans ⟨['*', c], [], by simp⟩)) ((even_starsBehind_pair c rest).mp hEven)
    rw [List.cons_append, List.cons_append, commentBody?, if_neg hSlash, hInner, Option.map_map]
    rfl
  | case5 c rest hEnd hBehind ih =>
    have hc : c ≠ '*' := ne_of_unpaired hEnd hBehind
    have hStars := starsBehind_append_cons hc [] rest
    rw [List.nil_append] at hStars
    have hInner := ih (fun hMark => h (hMark.trans (List.suffix_cons c rest).isInfix)) (by rwa [← hStars])
    rw [List.cons_append, commentBody?_cons hc, hInner, Option.map_map]
    rfl

/-- The star of a closing mark that an odd star takes with it does not close the comment. -/
theorem commentBody?_append_of_odd {body : List Char} (h : ¬ ['*', '/'] <:+: body) (hOdd : ¬ Even (starsBehind body))
    (rest : List Char) :
    commentBody? (body ++ '*' :: '/' :: rest) = (commentBody? rest).map (body ++ '*' :: '/' :: ·) := by
  rcases List.eq_nil_or_concat body with rfl | ⟨inner, c, rfl⟩
  · exact absurd (by decide) hOdd
  rw [List.concat_eq_append] at h hOdd ⊢
  obtain rfl : c = '*' := by
    by_contra hc
    rw [starsBehind_append_cons hc] at hOdd
    exact hOdd (by decide)
  rw [starsBehind_concat, Nat.even_add_one, not_not] at hOdd
  rw [List.append_assoc, List.singleton_append,
    commentBody?_append_of_even (fun hMark => h (hMark.trans (List.prefix_append _ _).isInfix)) hOdd, commentBody?,
    if_neg (by decide), commentBody?_cons (by decide), Option.map_map, Option.map_map]
  simp [Function.comp_def]

theorem closingMark_isSuffix {text body : List Char} (h : commentBody? text = some body) : ['*', '/'] <:+ body := by
  fun_induction commentBody? text generalizing body with
  | case1 => cases h
  | case2 => cases h
  | case3 rest =>
    cases h
    exact List.suffix_rfl
  | case4 c rest _ ih =>
    obtain ⟨inner, hInner, rfl⟩ := Option.map_eq_some_iff.mp h
    exact (ih hInner).trans ⟨['*', c], rfl⟩
  | case5 c rest _ _ ih =>
    obtain ⟨inner, hInner, rfl⟩ := Option.map_eq_some_iff.mp h
    exact (ih hInner).trans (List.suffix_cons c inner)

theorem commentBody?_eq_none {text : List Char} (h : ¬ ['*', '/'] <:+: text) : commentBody? text = none := by
  rw [Option.eq_none_iff_forall_ne_some]
  intro body hBody
  exact h ((closingMark_isSuffix hBody).isInfix.trans (commentBody?_isPrefix hBody).isInfix)

section Comment

variable {text body more : List Char}

theorem split_comment (h : commentBody? (body ++ more) = some body) :
    split ('/' :: '*' :: (body ++ more)) = ⟨'/' :: '*' :: body, .blank⟩ :: split more := by
  have hNext : next '/' ('*' :: (body ++ more)) = slash ('*' :: (body ++ more)) := rfl
  have hText : '/' :: '*' :: (body ++ more) = '/' :: '*' :: body ++ more := rfl
  rw [split_eq_cons_iff (l := ⟨'/' :: '*' :: body, .blank⟩) hText, hNext]
  simp only [slash, h, and_self]

theorem split_openComment (h : commentBody? text = none) :
    split ('/' :: '*' :: text) = [⟨'/' :: '*' :: text, .stray⟩] := by
  have hNext : next '/' ('*' :: text) = slash ('*' :: text) := rfl
  have hText : '/' :: '*' :: text = '/' :: '*' :: text ++ [] := (List.append_nil _).symm
  rw [split_eq_cons_iff (l := ⟨'/' :: '*' :: text, .stray⟩) hText, hNext, split]
  simp only [slash, h, and_self]

/-- A closing mark that does not close a comment is skipped with what stands between the marks. -/
theorem tokensFrom_split_comment_append (offset : Nat)
    (h : commentBody? (body ++ more) = (commentBody? more).map (body ++ ·)) :
    tokensFrom offset (split ('/' :: '*' :: (body ++ more))) =
      tokensFrom (offset + byteCount body) (split ('/' :: '*' :: more)) := by
  cases hMore : commentBody? more with
  | none =>
    rw [hMore] at h
    rw [split_openComment hMore, split_openComment h]
    rfl
  | some inner =>
    rw [hMore, Option.map_some] at h
    obtain ⟨behind, rfl⟩ := commentBody?_isPrefix hMore
    rw [split_comment hMore, ← List.append_assoc, split_comment (by rwa [List.append_assoc])]
    simp only [tokensFrom, byteCount, byteCount_append]
    congr 1
    omega

end Comment

end Lexeme

namespace Token

/-- The tokens behind a block comment are those of what stands there, moved, if the stars in front of its closing mark
are even in number. With an odd number of them the comment goes on as if it began behind the mark, and without another
mark takes all the rest with it. -/
theorem scan_blockComment {body : String} (h : ¬ "*/".toList <:+: body.toList) (rest : String) :
    (Even (Lexeme.starsBehind body.toList) →
      scan ("/*" ++ body ++ "*/" ++ rest) =
        (scan rest).map (Located.moved (· + ("/*" ++ body ++ "*/").utf8ByteSize))) ∧
    (¬ Even (Lexeme.starsBehind body.toList) →
      scan ("/*" ++ body ++ "*/" ++ rest) =
        (scan ("/*" ++ rest)).map (Located.moved (· + (body ++ "*/").utf8ByteSize)) ∧
      (¬ "*/".toList <:+: rest.toList → scan ("/*" ++ body ++ "*/" ++ rest) = [])) := by
  have hText : ("/*" ++ body ++ "*/" ++ rest).toList = '/' :: '*' :: (body.toList ++ ['*', '/'] ++ rest.toList) := by
    simp
  have hOpening : ("/*" ++ rest).toList = '/' :: '*' :: rest.toList := by simp
  have hBytes : (body ++ "*/").utf8ByteSize = Lexeme.byteCount (body.toList ++ ['*', '/']) := by
    rw [← Lexeme.byteCount_toList, String.toList_append]
    rfl
  have hWhole : ("/*" ++ body ++ "*/").utf8ByteSize = Lexeme.byteCount ('/' :: '*' :: (body.toList ++ ['*', '/'])) := by
    rw [← Lexeme.byteCount_toList, String.toList_append, String.toList_append, List.append_assoc]
    rfl
  constructor
  · intro hEven
    have hBody : Lexeme.commentBody? (body.toList ++ ['*', '/'] ++ rest.toList) = some (body.toList ++ ['*', '/']) := by
      rw [List.append_assoc]
      exact Lexeme.commentBody?_append_of_even h hEven ('*' :: '/' :: rest.toList)
    rw [scan, hText, Lexeme.split_comment hBody, hWhole, scan, ← Lexeme.tokensFrom_add]
    rfl
  · intro hOdd
    have hBody : Lexeme.commentBody? (body.toList ++ ['*', '/'] ++ rest.toList) =
        (Lexeme.commentBody? rest.toList).map (body.toList ++ ['*', '/'] ++ ·) := by
      simpa using Lexeme.commentBody?_append_of_odd h hOdd rest.toList
    have hScan : scan ("/*" ++ body ++ "*/" ++ rest) =
        (scan ("/*" ++ rest)).map (Located.moved (· + (body ++ "*/").utf8ByteSize)) := by
      rw [scan, hText, Lexeme.tokensFrom_split_comment_append 0 hBody, hBytes, scan, hOpening, ← Lexeme.tokensFrom_add]
    refine ⟨hScan, ?_⟩
    intro hNone
    rw [hScan, scan, hOpening, Lexeme.split_openComment (Lexeme.commentBody?_eq_none hNone)]
    rfl

/-- Two stars in the body are a pair, and a single one takes the star of the mark with it. -/
theorem scan_blockComment_stars :
    scan "/****/ let" = (scan " let").map (Located.moved (· + 6)) ∧ scan "/***/ let" = [] :=
  ⟨(@scan_blockComment "**" (by decide) " let").1 (by decide),
    ((@scan_blockComment "*" (by decide) " let").2 (by decide)).2 (by decide)⟩

theorem not_scan_blockComment_star : ¬ "*/".toList <:+: "*".toList ∧
    scan ("/*" ++ "*" ++ "*/" ++ " let") ≠
      (scan " let").map (Located.moved (· + ("/*" ++ "*" ++ "*/").utf8ByteSize)) := by
  decide +kernel

end Token
end TypedMarkup
