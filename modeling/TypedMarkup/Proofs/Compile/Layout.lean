import TypedMarkup.Proofs.Compile.Relocation
import TypedMarkup.Proofs.Component.Relocation
import TypedMarkup.Proofs.Document.Alike

/-! # Layout

A compilation depends on the tokens of the template and not on its layout: white space, comments and dropped text
move what is reported and nothing else.
-/
namespace TypedMarkup
set_option autoImplicit false

def CompileError.moved (f : Nat → Nat) : CompileError → CompileError
  | malformed origin errors => malformed origin (errors.map (SyntaxError.moved f))
  | declaration origin e => declaration origin (e.moved f)

namespace Declarations

theorem add_alike {d d' : Document} (h : d.SameButSpans d') (ds : Declarations) :
    SameResult (SameUnder (DeclarationError.moved nowhere)) Alike (ds.add d) (ds.add d') := by
  have hMoved : movedResult nowhere (moved nowhere) (ds.add d) = movedResult nowhere (moved nowhere) (ds.add d') := by
    rw [← add_moved, ← add_moved]
    exact congrArg (ds.moved nowhere).add h
  cases hAdd : ds.add d <;> cases hAdd' : ds.add d' <;> rw [hAdd, hAdd'] at hMoved
  case ok.ok => exact .ok (alike_of_moved_eq (Except.ok.inj hMoved))
  case error.error => exact .error (Except.error.inj hMoved)
  case ok.error => cases hMoved
  case error.ok => cases hMoved

variable {source source' : String}

/-- What is read of a source among declarations depends on its tokens alone, but for spans. -/
theorem read_alike (h : (Token.scan source).map Located.value = (Token.scan source').map Located.value)
    (ds : Declarations) (origin : Origin) :
    SameResult (SameUnder (CompileError.moved nowhere)) (fun x y => x.1.SameButSpans y.1 ∧ x.2.Alike y.2)
      (ds.read origin source) (ds.read origin source') := by
  have hParse := Document.parse_alike h
  rw [read, read]
  generalize Document.parse source = parsed at hParse ⊢
  generalize Document.parse source' = parsed' at hParse ⊢
  cases hParse with
  | error hErrors => exact .error (congrArg (CompileError.malformed origin) hErrors)
  | @ok d d' hSame =>
    have hAdd := add_alike hSame ds
    dsimp only
    generalize ds.add d = added at hAdd ⊢
    generalize ds.add d' = added' at hAdd ⊢
    cases hAdd with
    | error hError => exact .error (congrArg (CompileError.declaration origin) hError)
    | ok hAlike => exact .ok ⟨hSame, hAlike⟩

end Declarations

theorem Document.SameButSpans.markup {d d' : Document} (h : d.SameButSpans d') :
    d.markup.map (Node.moved nowhere) = d'.markup.map (Node.moved nowhere) := by
  rw [← markup_moved, ← markup_moved]
  exact congrArg Document.markup h

/-- Templates with the same tokens compile to the same but for spans, or fail with the same error but for spans. -/
theorem compile_of_same_tokens {template template' : String}
    (h : (Token.scan template).map Located.value = (Token.scan template').map Located.value)
    (components : List String) (style : ListingStyle) :
    SameResult (SameUnder (CompileError.moved nowhere)) Compilation.SameButSpans
      (compile template components style) (compile template' components style) := by
  rw [compile, compile]
  cases Declarations.empty.readAll 0 components with
  | error e => exact .error rfl
  | ok before =>
    -- Up to the template both compilations are the same.
    have hRead := Declarations.read_alike h before .template
    dsimp only
    cases hOwn : before.read .template template <;> cases hOther : before.read .template template' <;>
      rw [hOwn, hOther] at hRead <;> cases hRead
    case ok.ok.ok read read' hBoth =>
      obtain ⟨d, ds⟩ := read
      obtain ⟨d', ds'⟩ := read'
      obtain ⟨hSame, hAlike⟩ := hBoth
      exact .ok (Document.compile_sameButSpans (Declarations.parse_of_read hOwn) (Declarations.parse_of_read hOther)
        hSame.markup hAlike style)
    case error.error.error hError => exact .error hError

/-- The second template spreads the first over two lines, behind a comment and before text that is dropped. -/
theorem compile_of_same_tokens_box :
    ∃ out out', compile "<Box Value=1/>" ["component Box<T> \x7b param Value: T \x7d"] .standard = .ok out ∧
      compile "/* é */ <Box\n  Value=1 /> ¤" ["component Box<T> \x7b param Value: T \x7d"] .standard = .ok out' ∧
      out.resolutions ≠ out'.resolutions ∧ out.SameButSpans out' := by
  have hTokens : (Token.scan "<Box Value=1/>").map Located.value =
      (Token.scan "/* é */ <Box\n  Value=1 /> ¤").map Located.value := by
    decide +kernel
  have hSame := compile_of_same_tokens hTokens ["component Box<T> \x7b param Value: T \x7d"] .standard
  have hSpans : (match compile "<Box Value=1/>" ["component Box<T> \x7b param Value: T \x7d"] .standard,
      compile "/* é */ <Box\n  Value=1 /> ¤" ["component Box<T> \x7b param Value: T \x7d"] .standard with
    | .ok out, .ok out' => decide (out.resolutions ≠ out'.resolutions)
    | _, _ => false) = true := by
    decide +kernel
  generalize compile "<Box Value=1/>" _ _ = result at hSame hSpans ⊢
  generalize compile "/* é */ <Box\n  Value=1 /> ¤" _ _ = result' at hSame hSpans ⊢
  cases hSame with
  | ok hSameButSpans => exact ⟨_, _, rfl, rfl, of_decide_eq_true hSpans, hSameButSpans⟩
  | error => cases hSpans

end TypedMarkup
