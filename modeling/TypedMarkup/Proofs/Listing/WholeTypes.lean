import TypedMarkup.Proofs.Inference.TypeArguments
import TypedMarkup.Proofs.Listing.TypeParsing
import TypedMarkup.Proofs.Token.Skipped

/-! # Texts that are one whole type

A text is read as a type only if all its tokens together write the type. What is left of it then is blank or dropped.
An attribute whose value is no such text and no type gives no type argument, and is passed to the component.
-/
namespace TypedMarkup
set_option autoImplicit false

namespace Lexeme

/-- The lexemes of a text in front of the one that holds a character of it, this one, and those behind it. -/
structure CutAround (before : List Char) (c : Char) (after : List Char) (ls : List Lexeme) (l : Lexeme)
    (ls' : List Lexeme) : Prop where
  split : split (before ++ c :: after) = ls ++ l :: ls'
  holds : ∃ own own', l.text = own ++ c :: own' ∧ before = ls.flatMap text ++ own ∧ after = own' ++ ls'.flatMap text

theorem exists_of_flatMap_text {lexemes : List Lexeme} {before after : List Char} {c : Char}
    (h : lexemes.flatMap text = before ++ c :: after) :
    ∃ ls l ls' own own', lexemes = ls ++ l :: ls' ∧ l.text = own ++ c :: own' ∧
      before = ls.flatMap text ++ own ∧ after = own' ++ ls'.flatMap text := by
  induction lexemes generalizing before with
  | nil => simp at h
  | cons l rest ih =>
    rw [List.flatMap_cons] at h
    have hText : l.text <+: before ++ c :: after := ⟨_, h⟩
    rcases Nat.lt_or_ge before.length l.text.length with hLength | hLength
    · obtain ⟨own, hOwn⟩ := List.prefix_of_prefix_length_le (List.prefix_append before _) hText hLength.le
      rw [← hOwn, List.append_assoc] at h
      have hBehind := List.append_cancel_left h
      cases own with
      | nil => simp [← hOwn] at hLength
      | cons d own =>
        obtain ⟨rfl, rfl⟩ := List.cons.inj hBehind
        exact ⟨[], l, rest, before, own, rfl, hOwn.symm, rfl, rfl⟩
    · obtain ⟨own, rfl⟩ := List.prefix_of_prefix_length_le hText (List.prefix_append before _) hLength
      rw [List.append_assoc] at h
      obtain ⟨ls, l', ls', own', own'', rfl, hHolds, rfl, rfl⟩ := ih (List.append_cancel_left h)
      exact ⟨l :: ls, l', ls', own', own'', rfl, hHolds, (List.append_assoc _ _ _).symm, rfl⟩

theorem exists_cutAround (before : List Char) (c : Char) (after : List Char) :
    ∃ ls l ls', CutAround before c after ls l ls' := by
  obtain ⟨ls, l, ls', own, own', hSplit, hHolds, hBefore, hAfter⟩ :=
    exists_of_flatMap_text (flatMap_text_split (before ++ c :: after))
  exact ⟨ls, l, ls', hSplit, own, own', hHolds, hBefore, hAfter⟩

end Lexeme

/-- The value is the type, or a text whose tokens in a row write the type. -/
inductive AttributeValue.IsType : AttributeValue → TypeExpr → Prop
  | type (t : TypeExpr) : IsType (type t) t
  | text {content : String} {t : TypeExpr} (h : t.Spelled (Lexeme.tokens content.toList)) : IsType (text content) t

theorem AttributeValue.namedType?_eq_some_iff {v : AttributeValue} {t : TypeExpr} :
    v.namedType? = some t ↔ v.IsType t := by
  constructor
  · intro h
    cases v with
    | type t' =>
      cases h
      exact .type t
    | text content =>
      have hSpelled := TypeExpr.parse?_eq_some_iff.mp h
      rw [Token.map_value_scan] at hSpelled
      exact .text hSpelled
    | _ => cases h
  · rintro (_ | hSpelled)
    · rfl
    · rw [← Token.map_value_scan] at hSpelled
      exact TypeExpr.parse?_eq_some_iff.mpr hSpelled

namespace Attribute

/-- The first attribute of the name has the type for its value. -/
def FirstGives (attributes : List Attribute) (param : String) (t : TypeExpr) : Prop :=
  ∃ before a after, attributes = before ++ a :: after ∧ (∀ b ∈ before, b.name.value ≠ param) ∧ a.name.value = param ∧
    a.value.value.IsType t

theorem pinned?_eq_some_iff {attributes : List Attribute} {param : String} {t : TypeExpr} :
    pinned? attributes param = some t ↔ FirstGives attributes param t := by
  constructor
  · intro h
    induction attributes with
    | nil => cases h
    | cons a rest ih =>
      rw [pinned?] at h
      split at h
      case isTrue hName => exact ⟨[], a, rest, rfl, by simp, hName, AttributeValue.namedType?_eq_some_iff.mp h⟩
      case isFalse hName =>
        obtain ⟨before, b, after, rfl, hBefore, hFirst⟩ := ih h
        exact ⟨a :: before, b, after, rfl, List.forall_mem_cons.mpr ⟨hName, hBefore⟩, hFirst⟩
  · rintro ⟨before, a, after, rfl, hBefore, rfl, hType⟩
    rw [pinned?_of_first hBefore]
    exact AttributeValue.namedType?_eq_some_iff.mpr hType

end Attribute

/-- Type arguments were taken from attributes, be it all of them or too few. -/
def Outcome.IsExplicit (o : Outcome) : Prop := o = explicit ∨ ∃ params, o = failed (.missing params)

namespace Component
open Attribute

variable (c : Component) (attributes : List Attribute) (scope : Scope)

theorem resolveArgs_isExplicit_iff :
    (c.resolveArgs attributes scope).2.IsExplicit ↔ ∃ p ∈ c.typeParams, pinned? attributes p ≠ none := by
  cases hGeneric : c.isGeneric with
  | false =>
    have hNone : c.typeParams = [] := by simpa [isGeneric] using hGeneric
    simp [resolveArgs_of_not_generic hGeneric, hNone, Outcome.IsExplicit]
  | true =>
    have hNonempty : c.typeParams ≠ [] := by simpa [isGeneric] using hGeneric
    obtain ⟨p, hp⟩ := List.exists_mem_of_ne_nil _ hNonempty
    have hSettles := settles_resolveArgs hGeneric attributes scope
    generalize (c.resolveArgs attributes scope).1 = args, (c.resolveArgs attributes scope).2 = outcome at hSettles ⊢
    cases hSettles with
    | explicit hPinned => exact iff_of_true (.inl rfl) ⟨p, hp, hPinned p hp⟩
    | missing hPinned _ => exact iff_of_true (.inr ⟨_, rfl⟩) hPinned
    | conflict hUnpinned | inferred hUnpinned | underspecified hUnpinned =>
      exact iff_of_false (by simp [Outcome.IsExplicit]) (by simpa using hUnpinned)

/-- Type arguments are taken from attributes if there are some that pin a type parameter, and they are the types
that these pin. -/
theorem resolve_isExplicit (span : Span) :
    ((c.resolve attributes span scope).outcome.IsExplicit ↔ ∃ p ∈ c.typeParams, ∃ t, FirstGives attributes p t) ∧
    ((c.resolve attributes span scope).outcome.IsExplicit → ∀ p ∈ c.typeParams, ∀ t,
      c.argument? (c.resolve attributes span scope).args p = some t ↔ FirstGives attributes p t) := by
  have hExplicit := c.resolveArgs_isExplicit_iff attributes scope
  constructor
  · refine hExplicit.trans ?_
    simp only [Option.ne_none_iff_exists', pinned?_eq_some_iff]
  · intro hTaken p hp t
    change c.argument? (c.resolveArgs attributes scope).1 p = some t ↔ _
    rw [args_of_some_pinned (hExplicit.mp hTaken), argument?_map _ hp, pinned?_eq_some_iff]

end Component

section Calls

variable (registry : Registry) (sites : List Resolution)

/-- The calls for those of the attributes that name no type. -/
def Attribute.untypedCalls (attributes : List Attribute) : List Call :=
  (attributes.filter fun a => a.value.value.namedType?.isNone).map Attribute.call

theorem Attribute.untypedCalls_sublist (c : Component) (attributes : List Attribute) :
    (untypedCalls attributes).Sublist ((attributes.filter fun a => !c.isTypeArgument a).map call) := by
  apply List.Sublist.map
  apply List.monotone_filter_right
  intro a hNone
  simp [Component.isTypeArgument, Option.isNone_iff_eq_none.mp hNone]

mutual
theorem Node.untypedCalls_sublist : ∀ node : Node,
    (Attribute.untypedCalls (node.tags.flatMap Tag.attributes)).Sublist (node.calls registry sites)
  | .text _ _ => List.nil_sublist _
  | .expression _ _ => List.nil_sublist _
  | .element span name attributes children closing => by
    have hInner := Node.untypedCalls_sublistIn children
    rw [Node.tags, Node.calls, List.flatMap_cons, Attribute.untypedCalls, List.filter_append, List.map_append]
    split
    case h_1 c site hComponent hSite =>
      have hOwn := Attribute.untypedCalls_sublist c attributes
      apply List.Sublist.cons
      rw [List.append_assoc]
      apply hOwn.append
      apply List.Sublist.trans _ (List.sublist_append_left _ _)
      split
      case isTrue hEmpty =>
        obtain rfl := List.isEmpty_iff.mp hEmpty
        exact List.nil_sublist _
      case isFalse =>
        apply List.Sublist.cons
        exact hInner.trans (List.sublist_append_left _ _)
    case h_2 =>
      apply List.Sublist.cons
      have hOwn := (List.filter_sublist (l := attributes) (p := fun a => a.value.value.namedType?.isNone)).map
        Attribute.call
      exact (hOwn.append hInner).trans (List.sublist_append_left _ _)

theorem Node.untypedCalls_sublistIn : ∀ nodes : List Node,
    (Attribute.untypedCalls ((Node.tagsIn nodes).flatMap Tag.attributes)).Sublist (Node.callsIn registry sites nodes)
  | [] => List.nil_sublist _
  | node :: rest => by
    rw [Node.tagsIn, Node.callsIn, List.flatMap_append, Attribute.untypedCalls, List.filter_append, List.map_append]
    exact (Node.untypedCalls_sublist node).append (Node.untypedCalls_sublistIn rest)
end

/-- Attributes without a type for their value are all written, in their order. -/
theorem Document.kept_sublist_calls (d : Document) {kept : List Attribute}
    (hKept : kept.Sublist (d.tags.flatMap Tag.attributes)) (hUntyped : ∀ a ∈ kept, ∀ t, ¬ a.value.value.IsType t) :
    (kept.map Attribute.call).Sublist (d.calls registry sites) := by
  have hNone : ∀ a ∈ kept, a.value.value.namedType?.isNone = true := by
    intro a ha
    rw [Option.isNone_iff_eq_none, Option.eq_none_iff_forall_ne_some]
    intro t hType
    exact hUntyped a ha t (AttributeValue.namedType?_eq_some_iff.mp hType)
  have hFilter := hKept.filter fun a => a.value.value.namedType?.isNone
  rw [List.filter_eq_self.mpr hNone] at hFilter
  exact (hFilter.map Attribute.call).trans (Node.untypedCalls_sublistIn registry sites d.markup)

end Calls

theorem TypeExpr.exists_cutAround_of_parse? {source : String} {t : TypeExpr} {before after : List Char} {c : Char}
    (h : parse? source = some t) (hSource : source.toList = before ++ c :: after) :
    ∃ ls l ls', Lexeme.CutAround before c after ls l ls' ∧
      (Lexeme.Blank l.text ∨ Lexeme.Dropped l.text ∨ ∃ token, l.token? = some token ∧
        t.Spelled (ls.filterMap Lexeme.token? ++ token :: ls'.filterMap Lexeme.token?)) := by
  obtain ⟨ls, l, ls', hCut⟩ := Lexeme.exists_cutAround before c after
  refine ⟨ls, l, ls', hCut, ?_⟩
  cases hToken : l.token? with
  | none =>
    have hMem : l ∈ Lexeme.split (before ++ c :: after) := by simp [hCut.split]
    exact (Lexeme.blank_or_dropped hMem hToken).imp_right .inl
  | some token =>
    have hSpelled := parse?_eq_some_iff.mp h
    rw [Token.map_value_scan, Lexeme.tokens, hSource, hCut.split, List.filterMap_append,
      List.filterMap_cons_some hToken] at hSpelled
    exact .inr (.inr ⟨token, rfl, hSpelled⟩)

/-- A character of a text that is read as a type is blank, or dropped, or stands in a token of a spelling of the type.
Type arguments are taken from attributes whose values are types or such texts and from no others, and all others are
written for the component. -/
theorem TypeExpr.parse_reads_all :
    (∀ (source : String) (t : TypeExpr) (before after : List Char) (c : Char), parse? source = some t →
      source.toList = before ++ c :: after → ∃ ls l ls', Lexeme.CutAround before c after ls l ls' ∧
        (Lexeme.Blank l.text ∨ Lexeme.Dropped l.text ∨ ∃ token, l.token? = some token ∧
          t.Spelled (ls.filterMap Lexeme.token? ++ token :: ls'.filterMap Lexeme.token?))) ∧
    (∀ (c : Component) (attributes : List Attribute) (span : Span) (scope : Scope),
      ((c.resolve attributes span scope).outcome.IsExplicit ↔
        ∃ p ∈ c.typeParams, ∃ t, Attribute.FirstGives attributes p t) ∧
      ((c.resolve attributes span scope).outcome.IsExplicit → ∀ p ∈ c.typeParams, ∀ t,
        c.argument? (c.resolve attributes span scope).args p = some t ↔ Attribute.FirstGives attributes p t)) ∧
    ∀ (registry : Registry) (sites : List Resolution) (d : Document) (kept : List Attribute),
      kept.Sublist (d.tags.flatMap Tag.attributes) → (∀ a ∈ kept, ∀ t, ¬ a.value.value.IsType t) →
      (kept.map Attribute.call).Sublist (d.calls registry sites) :=
  ⟨fun _ _ _ _ _ hParse hSource => exists_cutAround_of_parse? hParse hSource,
    fun c attributes span scope => c.resolve_isExplicit attributes scope span,
    fun registry sites d _ hKept hUntyped => d.kept_sublist_calls registry sites hKept hUntyped⟩

def markedKey : Attribute := keyAttribute (.text "A <?int>")

/-- Two words are no type. -/
def doubledKey : Attribute := keyAttribute (.text "A int")

def lookupDocument : Document := ⟨[.markup (.element ⟨0, 40⟩ ⟨"Lookup", ⟨1, 7⟩⟩ [markedKey, doubledKey] [] none)]⟩

theorem parse_reads_all_key :
    (∃ ls l ls', Lexeme.CutAround "A <".toList '?' "int>".toList ls l ls' ∧
      (Lexeme.Blank l.text ∨ Lexeme.Dropped l.text ∨ ∃ token, l.token? = some token ∧
        (TypeExpr.app "A" [.named "int"]).Spelled
          (ls.filterMap Lexeme.token? ++ token :: ls'.filterMap Lexeme.token?))) ∧
    (lookupComponent.argument? (lookupComponent.resolve [markedKey] ⟨0, 40⟩ lookupScope).args "TKey" =
      some (.app "A" [.named "int"]) ↔ Attribute.FirstGives [markedKey] "TKey" (.app "A" [.named "int"])) ∧
    ([doubledKey].map Attribute.call).Sublist (lookupDocument.calls ⟨[lookupComponent]⟩
      (lookupDocument.resolutions ⟨[lookupComponent]⟩ lookupScope)) := by
  obtain ⟨hWhole, hResolve, hCalls⟩ := TypeExpr.parse_reads_all
  refine ⟨hWhole "A <?int>" _ _ _ _ (by decide +kernel) (by decide), ?_, ?_⟩
  · exact (hResolve lookupComponent [markedKey] ⟨0, 40⟩ lookupScope).2 (.inr ⟨["TValue"], by decide +kernel⟩) _
      (by decide) _
  · apply hCalls
    · decide
    · intro a ha t hType
      obtain rfl := List.mem_singleton.mp ha
      have hNone : doubledKey.value.value.namedType? = none := by decide +kernel
      rw [AttributeValue.namedType?_eq_some_iff.mpr hType] at hNone
      cases hNone

/-- A question mark behind a type is neither blank nor in a token, and still the text is a type argument. -/
theorem type_argument_with_question_mark :
    TypeExpr.parse? "int?" = some (.named "int") ∧
    Lexeme.CutAround "int".toList '?' [] [⟨"int".toList, .token (.identifier "int")⟩] ⟨['?'], .stray⟩ [] ∧
    ¬ Lexeme.Blank ['?'] ∧
    lookupComponent.argument? (lookupComponent.resolve [keyAttribute (.text "int?")] ⟨0, 40⟩ lookupScope).args "TKey" =
      some (.named "int") ∧
    lookupComponent.isTypeArgument (keyAttribute (.text "int?")) = true := by
  refine ⟨by decide +kernel, ⟨by decide +kernel, [], [], rfl, by decide, rfl⟩, ?_, by decide +kernel, by decide +kernel⟩
  rintro (⟨hBlank⟩ | _ | _)
  cases hBlank '?' List.mem_cons_self

end TypedMarkup
