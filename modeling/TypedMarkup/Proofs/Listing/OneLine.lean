import TypedMarkup.Proofs.Compile.Names
import TypedMarkup.Proofs.Text.Quoting

/-! # Calls on one line

What a call of a document writes besides the builder has no line break: text is quoted, numbers are written
with digits and a few signs, and everything else is made of names.
-/
namespace TypedMarkup
set_option autoImplicit false

def Text.OneLine (text : String) : Prop := '\n' ∉ text.toList

namespace Text

instance (text : String) : Decidable (OneLine text) := inferInstanceAs (Decidable (_ ∉ _))

@[simp] theorem oneLine_append {a b : String} : OneLine (a ++ b) ↔ OneLine a ∧ OneLine b := by
  simp [OneLine]

theorem oneLine_spaces (n : Nat) : OneLine (spaces n) := by
  simp [OneLine, spaces]

theorem break_not_mem_toDigits {base : Nat} (hBase : 1 < base) (n : Nat) : '\n' ∉ Nat.toDigits base n :=
  not_mem_toDigits (fun _ => Nat.digitChar_ne '\n' rfl) hBase n

theorem oneLine_toString_nat (n : Nat) : OneLine (toString n) := by
  rw [OneLine, Nat.toString_eq_ofList_toDigits, String.toList_ofList]
  exact break_not_mem_toDigits (by decide) n

theorem oneLine_toString_int (n : Int) : OneLine (toString n) := by
  cases n with
  | ofNat m => exact oneLine_toString_nat m
  | negSucc m => exact oneLine_append.mpr ⟨by decide, oneLine_toString_nat (m + 1)⟩

/-- A line break has a letter that stands for it, and no other character is written with one. -/
theorem break_not_mem_escapeChar (c : Char) : '\n' ∉ escapeChar c := by
  rw [escapeChar]
  split
  case h_1 l hLetter =>
    have hBreak : l ≠ '\n' := by
      rintro rfl
      unfold escapeLetter? at hLetter
      split at hLetter <;> cases hLetter
    simpa using hBreak.symm
  case h_2 hNone =>
    split
    · have hBreak : c ≠ '\n' := by
        rintro rfl
        cases hNone
      simpa using hBreak.symm
    · simp [codePoint, break_not_mem_toDigits]

theorem oneLine_quoted (text : String) : OneLine (quoted text) := by
  simp [OneLine, quoted, escape, break_not_mem_escapeChar]

end Text

namespace NumberLayout

variable (layout : NumberLayout) {digits : List Char}

theorem break_not_mem_zeros (n : Nat) : '\n' ∉ zeros n := by
  simp [zeros]

theorem break_not_mem_fixed (hDigits : '\n' ∉ digits) (point : Int) : '\n' ∉ layout.fixed digits point := by
  have hTake (n : Nat) : '\n' ∉ digits.take n := fun h => hDigits (List.mem_of_mem_take h)
  have hDrop (n : Nat) : '\n' ∉ digits.drop n := fun h => hDigits (List.mem_of_mem_drop h)
  rw [fixed]
  split
  · simp [break_not_mem_zeros, hDigits]
  split
  · simp [hTake, hDrop]
  · split <;> simp [break_not_mem_zeros, hDigits]

theorem break_not_mem_scientific (hDigits : '\n' ∉ digits) (exponent : Int) : '\n' ∉ scientific digits exponent := by
  have hTake : '\n' ∉ digits.take 1 := fun h => hDigits (List.mem_of_mem_take h)
  have hDrop : '\n' ∉ digits.drop 1 := fun h => hDigits (List.mem_of_mem_drop h)
  have hExponent : '\n' ∉ (toString exponent).toList := Text.oneLine_toString_int exponent
  rw [scientific]
  split <;> simp_all

theorem break_not_mem_magnitude (mantissa scale : Nat) : '\n' ∉ layout.magnitude mantissa scale := by
  rw [magnitude]
  split
  · split <;> decide
  · rw [decimal]
    have hDigits := Text.oneLine_toString_nat (Binary64.shortest mantissa scale).digits
    split
    · exact break_not_mem_fixed layout hDigits _
    · exact break_not_mem_scientific hDigits _

theorem break_not_mem_signed {text : List Char} (h : '\n' ∉ text) (negative : Bool) :
    '\n' ∉ signed negative text := by
  rw [signed]
  split
  · simpa using h
  · exact h

theorem oneLine_write (x : Binary64) : Text.OneLine (layout.write x) := by
  rw [Text.OneLine, write.eq_def, String.toList_ofList]
  cases x with
  | nan => simp
  | infinite negative => exact break_not_mem_signed (by decide) negative
  | finite negative mantissa scale =>
    exact break_not_mem_signed (layout.break_not_mem_magnitude mantissa scale) negative

end NumberLayout

theorem Token.IsName.oneLine {name : String} (h : IsName name) : Text.OneLine name := h.not_mem (by decide)

/-! ## Types -/

namespace TypeExpr

/-- No name in the type has a line break. -/
def OneLine (t : TypeExpr) : Prop := ∀ n ∈ t.names, Text.OneLine n

theorem Named.oneLine {t : TypeExpr} (h : t.Named) : t.OneLine := fun n hn => (h n hn).oneLine

theorem mem_displayRest {x : Char} {ts : List TypeExpr} {t : TypeExpr} (ht : t ∈ ts) (hx : x ∈ t.display.toList) :
    x ∈ (displayRest ts).toList := by
  induction ts with
  | nil => cases ht
  | cons first rest ih =>
    rcases List.mem_cons.mp ht with rfl | ht
    · simp [displayRest, hx]
    · simp [displayRest, ih ht]

/-- Of the names in a type only that of arrays is not written as it is. -/
theorem mem_display {x : Char} (hArray : x ∉ arrayName.toList) {t : TypeExpr} {n : String} (hn : n ∈ t.names)
    (hx : x ∈ n.toList) : x ∈ t.display.toList := by
  induction t using ind with
  | h name args ih =>
    rw [names_app] at hn
    rcases List.mem_cons.mp hn with rfl | hn
    · cases args with
      | nil => rwa [display]
      | cons a rest =>
        rw [display]
        split
        case isTrue hSuffix => exact absurd (hSuffix.1 ▸ hx) hArray
        case isFalse => simp [hx]
    · obtain ⟨a, ha, hOwn⟩ := List.mem_flatMap.mp hn
      have hText := ih a ha hOwn
      cases args with
      | nil => cases ha
      | cons first rest =>
        rw [display]
        rcases List.mem_cons.mp ha with rfl | hRest
        · split <;> simp [hText]
        · split
          case isTrue hSuffix => simp [List.isEmpty_iff.mp hSuffix.2] at hRest
          case isFalse => simp [mem_displayRest hRest hText]

theorem oneLine_display_iff {t : TypeExpr} : Text.OneLine t.display ↔ t.OneLine :=
  ⟨fun h n hn hBreak => h (mem_display (by decide) hn hBreak), not_mem_display (by decide)⟩

end TypeExpr

/-- No name in a type argument has a line break. -/
def Resolution.OneLine (r : Resolution) : Prop := ∀ t, some t ∈ r.args → t.OneLine

theorem oneLine_componentType_iff {name : String} {args : List (Option TypeExpr)} :
    Text.OneLine (componentType name args) ↔ Text.OneLine name ∧ ∀ t, some t ∈ args → t.OneLine := by
  rw [Text.OneLine, mem_componentType_iff (by decide), not_or]
  apply and_congr_right'
  constructor
  · intro h t ht
    exact TypeExpr.oneLine_display_iff.mp fun hBreak => h ⟨some t, ht, hBreak⟩
  · rintro h ⟨arg, hArg, hBreak⟩
    cases arg with
    | none => exact absurd hBreak (by decide)
    | some t => exact TypeExpr.oneLine_display_iff.mpr (h t hArg) hBreak

/-! ## Values -/

theorem AttributeValue.Spelled.oneLine_code {v : AttributeValue} {ts : List Token} (h : v.Spelled ts)
    (hNames : Token.AllNames ts) : Text.OneLine v.code := by
  cases h with
  | text content => exact Text.oneLine_quoted content
  | integer n => exact Text.oneLine_toString_int n.toInt
  | float x => exact NumberLayout.code.oneLine_write x
  | yes => decide
  | no => decide
  | binding name => exact (hNames name (by simp)).oneLine
  | type hType => exact TypeExpr.oneLine_display_iff.mpr (hType.named_of_allNames hNames).oneLine

theorem Attribute.Spelled.oneLine_code {a : Attribute} {ts : List Token} (h : a.Spelled ts)
    (hNames : Token.AllNames ts) : Text.OneLine a.value.value.code := by
  cases h with
  | bare hTrue =>
    rw [hTrue]
    decide
  | valued hValue => exact hValue.oneLine_code (hNames.mono (by simp))

/-! ## Calls -/

namespace Call

/-- What the call writes without quoting it has no line break. -/
def OneLine : Call → Prop
  | openComponent type => Text.OneLine type
  | addAttribute _ value => Text.OneLine value.code
  | addContent code => Text.OneLine code
  | _ => True

theorem oneLine_code_iff {c : Call} {builder : String} (hBuilder : Text.OneLine builder) (number : Nat) :
    Text.OneLine (c.code builder number) ↔ c.OneLine := by
  have hNumber := Text.oneLine_toString_nat number
  cases c <;> simp +decide only [Call.code, OneLine, Text.oneLine_append, hBuilder, hNumber, Text.oneLine_quoted,
    true_and, and_true]

end Call

section Nodes

variable {registry : Registry} {sites : List Resolution}

theorem Resolution.mem_of_at? {start : Nat} {r : Resolution} (h : Resolution.at? sites start = some r) : r ∈ sites :=
  List.mem_reverse.mp (List.mem_of_find?_eq_some h)

theorem Spelling.Row.oneLine_call {attributes : List Attribute} {ts : List Token}
    (h : Row Attribute.Spelled attributes ts) (hNames : Token.AllNames ts) :
    ∀ a ∈ attributes, a.call.OneLine := by
  intro a ha
  obtain ⟨own, hOwn, hSub⟩ := h.exists_of_mem ha
  exact hOwn.oneLine_code (hNames.mono hSub)

mutual
theorem Node.Spelled.oneLine_calls (hSites : ∀ r ∈ sites, r.OneLine) :
    ∀ {node : Node} {ts : List Token}, node.Spelled ts → Token.AllNames ts →
      ∀ c ∈ node.calls registry sites, c.OneLine
  | .text _ content, _, _, _ => by
    rw [Node.calls, List.forall_mem_singleton]
    exact Text.oneLine_quoted content
  | .expression _ name, _, h, hNames => by
    cases h
    rw [Node.calls, List.forall_mem_singleton]
    exact (hNames name (by simp)).oneLine
  | .element span name attributes children _, _, h, hNames => by
    -- Of the tokens only the name, the attributes and the children are written.
    have hParts : Token.IsName name.value ∧ (∀ a ∈ attributes, a.call.OneLine) ∧
        ∀ c ∈ Node.callsIn registry sites children, c.OneLine := by
      cases h with
      | @selfClosing _ _ _ ts hRow =>
        exact ⟨hNames _ (by simp), hRow.oneLine_call (hNames.mono fun t ht => by simp [ht]), nofun⟩
      | @closed _ _ _ _ _ ts inner hRow hChildren =>
        exact ⟨hNames _ (by simp), hRow.oneLine_call (hNames.mono fun t ht => by simp [ht]),
          Node.Spelled.oneLine_callsIn hSites hChildren (hNames.mono fun t ht => by simp [ht])⟩
    obtain ⟨hName, hAttributes, hChildren⟩ := hParts
    rw [Node.calls]
    split
    case h_1 c site hGet hSite =>
      have hType : Text.OneLine (componentType c.name site.args) := by
        rw [Registry.name_of_get?_eq_some hGet]
        exact oneLine_componentType_iff.mpr ⟨hName.oneLine, hSites site (Resolution.mem_of_at? hSite)⟩
      have hWritten : ∀ call ∈ (attributes.filter fun a => !c.isTypeArgument a).map Attribute.call, call.OneLine := by
        rw [List.forall_mem_map]
        intro a ha
        exact hAttributes a (List.mem_of_mem_filter ha)
      have hContent : ∀ call ∈ (if children.isEmpty then []
          else .beginContent :: Node.callsIn registry sites children ++ [.endContent]), call.OneLine := by
        split
        · exact nofun
        · simp only [List.cons_append, List.forall_mem_cons, List.forall_mem_append]
          exact ⟨trivial, hChildren, trivial, nofun⟩
      simp only [List.forall_mem_cons, List.forall_mem_append]
      exact ⟨hType, ⟨hWritten, hContent⟩, trivial, nofun⟩
    case h_2 =>
      simp only [List.forall_mem_cons, List.forall_mem_append, List.forall_mem_map]
      exact ⟨trivial, ⟨hAttributes, hChildren⟩, trivial, nofun⟩

theorem Node.Spelled.oneLine_callsIn (hSites : ∀ r ∈ sites, r.OneLine) :
    ∀ {nodes : List Node} {ts : List Token}, Spelling.Row Node.Spelled nodes ts → Token.AllNames ts →
      ∀ c ∈ Node.callsIn registry sites nodes, c.OneLine
  | [], _, _, _ => nofun
  | node :: rest, _, h, hNames => by
    cases h with
    | cons head tail =>
      rw [Node.callsIn, List.forall_mem_append]
      exact ⟨Node.Spelled.oneLine_calls hSites head (hNames.mono (List.subset_append_left _ _)),
        Node.Spelled.oneLine_callsIn hSites tail (hNames.mono (List.subset_append_right _ _))⟩
end

theorem Node.callsIn_eq_flatMap (nodes : List Node) :
    callsIn registry sites nodes = nodes.flatMap (calls registry sites) := by
  induction nodes with
  | nil => rfl
  | cons node rest ih => rw [callsIn, List.flatMap_cons, ih]

end Nodes

/-- Every binding of the scope has the type of one in a document read from a source, whichever it is. -/
def Scope.Declared (s : Scope) : Prop :=
  ∀ b ∈ s.bindings, ∃ source d, Document.parse source = .ok d ∧ ∃ decl ∈ d.bindings, decl.type.value = b.2

namespace Scope.Declared

theorem empty : Declared .empty := nofun

theorem collect {s : Scope} {source : String} {d : Document} (h : s.Declared)
    (hParse : Document.parse source = .ok d) : (s.collect d.bindings).1.Declared :=
  forall_of_collect (fun decl hDecl => ⟨source, d, hParse, decl, hDecl, rfl⟩) h

theorem named {s : Scope} (h : s.Declared) : ∀ b ∈ s.bindings, b.2.Named := by
  intro b hb
  obtain ⟨source, d, hParse, decl, hDecl, hType⟩ := h b hb
  rw [← hType]
  exact (Document.spelled_of_parse hParse).named_of_binding (Token.allNames_scan source) hDecl

theorem oneLine {s : Scope} (h : s.Declared) : ∀ b ∈ s.bindings, b.2.OneLine := fun b hb => (h.named b hb).oneLine

end Scope.Declared

namespace Document

variable {source : String} {d : Document} {registry : Registry} {scope : Scope} {sites : List Resolution}

/-- A name in a type argument is written in the source, or stands in the type of a binding. -/
theorem oneLine_of_mem_resolutions (h : parse source = .ok d) (hScope : ∀ b ∈ scope.bindings, b.2.OneLine)
    {r : Resolution} (hr : r ∈ d.resolutions registry scope) : r.OneLine := by
  intro t ht
  rw [resolutions_eq_filterMap_tags, List.mem_filterMap] at hr
  obtain ⟨tag, hTag, hOwn⟩ := hr
  obtain ⟨c, -, rfl⟩ := Tag.resolution?_eq_some_iff.mp hOwn
  rcases named_or_bound_of_mem_args h hTag ht with hNamed | ⟨b, hb, hPart⟩
  · exact hNamed.oneLine
  · exact fun n hn => hScope b hb n (hPart hn)

/-- Where no type argument has a line break, no call of a document read from a source has one. -/
theorem oneLine_calls (h : parse source = .ok d) (hSites : ∀ r ∈ sites, r.OneLine) :
    ∀ c ∈ d.calls registry sites, c.OneLine := by
  intro c hc
  rw [calls, Node.callsIn_eq_flatMap, List.mem_flatMap] at hc
  obtain ⟨node, hNode, hc⟩ := hc
  obtain ⟨own, hOwn, hSub⟩ := (spelled_of_parse h).exists_of_mem_markup hNode
  exact hOwn.oneLine_calls hSites ((Token.allNames_scan source).mono hSub) c hc

end Document
end TypedMarkup
