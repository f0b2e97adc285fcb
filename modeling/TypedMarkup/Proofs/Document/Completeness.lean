import Mathlib.Data.List.Chain
import TypedMarkup.Proofs.Document.MarkupReading
import TypedMarkup.Proofs.Document.Soundness

/-! # Documents are read from their tokens

A document placed on tokens is read from them if no binding runs into the item behind it: a type that is a
name alone takes an opening tag without attributes for its type arguments. Where a binding does, what is left
of the element cannot be read, and nothing is.
-/
namespace TypedMarkup
set_option autoImplicit false
open Reader Placement

namespace Item

/-- A binding whose type is a name alone. -/
def EndsInName : Item → Prop
  | binding decl => decl.type.value.isSimple = true
  | _ => False

/-- An element whose opening tag has no attributes. One that closes itself has no opening tag. -/
def OpensBare : Item → Prop
  | markup (.element _ _ [] _ (some _)) => True
  | _ => False

/-- The opening tag of the second item is taken for the type arguments of the first. -/
def RunsInto (i j : Item) : Prop := i.EndsInName ∧ j.OpensBare

instance : DecidablePred EndsInName := fun i => by
  unfold EndsInName
  split <;> infer_instance

instance : DecidablePred OpensBare := fun i => by
  unfold OpensBare
  split <;> infer_instance

instance : DecidableRel RunsInto := fun _ _ => instDecidableAnd

theorem EndsInName.exists_eq {i : Item} (h : i.EndsInName) :
    ∃ decl, i = .binding decl ∧ decl.type.value.isSimple = true := by
  cases i with
  | binding decl => exact ⟨decl, rfl, h⟩
  | component => cases h
  | markup => cases h

theorem OpensBare.exists_eq {i : Item} (h : i.OpensBare) :
    ∃ span name children close, i = .markup (.element span name [] children (some close)) := by
  unfold OpensBare at h
  split at h
  case h_1 span name children close => exact ⟨span, name, children, close, rfl⟩
  case h_2 => cases h

theorem endsInName_moved (f : Nat → Nat) (i : Item) : (i.moved f).EndsInName ↔ i.EndsInName := by
  cases i <;> exact Iff.rfl

theorem opensBare_moved (f : Nat → Nat) (i : Item) : (i.moved f).OpensBare ↔ i.OpensBare := by
  cases i with
  | component => exact Iff.rfl
  | binding => exact Iff.rfl
  | markup node =>
    cases node with
    | text => exact Iff.rfl
    | expression => exact Iff.rfl
    | element span name attributes children closing => cases attributes <;> cases closing <;> exact Iff.rfl

end Item

/-- No binding in a row of items runs into the item behind it. -/
def Item.AllApart (items : List Item) : Prop := items.IsChain fun i j => ¬ i.RunsInto j

instance : DecidablePred Item.AllApart := fun items => inferInstanceAs (Decidable (items.IsChain _))

def Document.Apart (d : Document) : Prop := Item.AllApart d.items

instance : DecidablePred Document.Apart := fun d => inferInstanceAs (Decidable (Item.AllApart d.items))

theorem Document.apart_moved (f : Nat → Nat) (d : Document) : (d.moved f).Apart ↔ d.Apart := by
  rw [Apart, moved, Item.AllApart, List.isChain_map]
  simp only [Item.RunsInto, Item.endsInName_moved, Item.opensBare_moved]
  rfl

theorem Document.SameButSpans.apart_iff {d d' : Document} (h : d.SameButSpans d') : d.Apart ↔ d'.Apart := by
  rw [← apart_moved nowhere d, show d.moved nowhere = d'.moved nowhere from h, apart_moved]

theorem Item.allApart_markup {i : Item} (hi : ¬ i.EndsInName) (nodes : List Node) :
    AllApart (i :: nodes.map markup) := by
  induction nodes generalizing i with
  | nil => exact .singleton i
  | cons n rest ih => exact .cons_cons (fun h => hi h.1) (ih id)

/-- A list that is no chain is one up to the first step that breaks it. -/
theorem exists_first_of_not_isChain {α : Type} {R : α → α → Prop} {l : List α} (h : ¬ l.IsChain R) :
    ∃ before a b after, l = before ++ a :: b :: after ∧ (before ++ [a]).IsChain R ∧ ¬ R a b := by
  induction l with
  | nil => exact absurd .nil h
  | cons a rest ih =>
    cases rest with
    | nil => exact absurd (.singleton a) h
    | cons b rest =>
      by_cases hStep : R a b
      · obtain ⟨before, a', b', after, hList, hChain, hBreak⟩ := ih fun hRest => h (.cons_cons hStep hRest)
        refine ⟨a :: before, a', b', after, by rw [hList]; rfl, ?_, hBreak⟩
        cases before with
        | nil =>
          cases hList
          exact .cons_cons hStep hChain
        | cons b'' before =>
          cases hList
          exact .cons_cons hStep hChain
      · exact ⟨[], a, b, rest, rfl, .singleton a, hStep⟩

namespace Grammar

variable {c c' : Cursor} {ts : List (Located Token)}

/-- Type parameters without their brackets. -/
def paramList : Reader (List Identifier) := do
  let params ← separated .comma identifier
  let _ ← maybe (mark .comma)
  return params

theorem gives_typeParams {params : List Identifier} (h : ComponentDecl.TypeParamsPlaced params ts)
    (hPasses : c.Passes ts c') (hNext : c'.next? = some (.mark .braceOpen)) : typeParams.Gives params c c' := by
  have hList : ∀ {own c₁ c₂}, InSeries .comma Identifier.Placed params own → c₁.Passes own c₂ →
      (do mark .comma; identifier : Reader Identifier).Refuses c₂ →
      (separated .comma identifier).Gives params c₁ c₂ := by
    intro own c₁ c₂ hSeries hOwn hEnd
    apply Gives.separated takes_identifier hSeries hOwn hEnd
    rintro i - _ c₃ c₄ rfl hToken -
    exact gives_identifier hToken
  cases h with
  | none =>
    obtain rfl := hPasses.eq_of_nil
    have hLess : (mark .less).Refuses c' := Refuses.mark (by simp [hNext])
    exact (Gives.maybe_of_refuses (hLess.bind _)).map _
  | some s s' hParams =>
    obtain ⟨c₁, hLess, hPasses₁⟩ := hPasses.exists_cons
    obtain ⟨c₂, hOwn, hGreater⟩ := hPasses₁.exists_append
    have hComma : (mark .comma).Refuses c₂ := Refuses.mark (by simp [hGreater.next?_eq])
    have hInner : paramList.Gives params c₁ c₂ := by
      apply (hList hParams hOwn (hComma.bind _)).bind
      exact (Gives.maybe_of_refuses hComma).bind (Gives.pure params c₂)
    exact (Gives.between hLess hInner hGreater).maybe.map _
  | trailing s s' s'' hParams =>
    obtain ⟨c₁, hLess, hPasses₁⟩ := hPasses.exists_cons
    obtain ⟨c₂, hOwn, hPasses₂⟩ := hPasses₁.exists_append
    obtain ⟨c₃, hComma, hGreater⟩ := hPasses₂.exists_cons
    -- The comma begins no other parameter, as no name follows it.
    have hNone : identifier.Refuses c₃ := Refuses.located (Refuses.name (by simp [hGreater.next?_eq]))
    have hInner : paramList.Gives params c₁ c₃ := by
      apply (hList hParams hOwn ((Gives.mark hComma).bind_refuses hNone)).bind
      exact (Gives.mark hComma).maybe.bind (Gives.pure params c₃)
    exact (Gives.between hLess hInner hGreater).maybe.map _

theorem gives_paramDecls {params : List ParamDecl} (h : InRow ParamDecl.Placed params ts) (hPasses : c.Passes ts c')
    (hNext : c'.next? = some (.mark .braceClose)) : (many paramDecl).Gives params c c' := by
  apply Gives.many takes_paramDecl h hPasses
  · have hKeyword : (keyword .param).Refuses c' := Refuses.keyword (by simp [hNext])
    exact (hKeyword.bind _).spanning
  · intro p ps own after c₁ c₂ _ hOwn hAfter hPasses₁ hPasses₂
    have hBehind : c₂.next? = some (.mark .braceClose) ∨ c₂.next? = some (.keyword .param) := by
      cases ps with
      | nil =>
        obtain rfl : after = [] := hAfter
        obtain rfl := hPasses₂.eq_of_nil
        exact .inl hNext
      | cons q ps =>
        obtain ⟨_, _, ⟨_, _, _, -, rfl, -⟩, -, rfl⟩ := hAfter
        exact .inr hPasses₂.next?_eq
    apply gives_typedDecl hOwn hPasses₁
    apply TypeEnds.of_next? <;> rcases hBehind with h | h <;> simp [h]

theorem gives_componentDecl {decl : ComponentDecl} (h : decl.Placed ts) (hPasses : c.Passes ts c') :
    componentDecl.Gives decl c c' := by
  obtain ⟨name, typeParams, params, span⟩ := decl
  obtain ⟨s, s', s'', ownTypeParams, ownParams, hTypeParams, hParams, rfl, hSpan⟩ := h
  dsimp only at hTypeParams hParams hPasses hSpan
  subst hSpan
  obtain ⟨c₁, hKeyword, hPasses₁⟩ := hPasses.exists_cons
  obtain ⟨c₂, hName, hPasses₂⟩ := hPasses₁.exists_cons
  obtain ⟨c₃, hOwnTypeParams, hPasses₃⟩ := hPasses₂.exists_append
  obtain ⟨c₄, hOpen, hPasses₄⟩ := hPasses₃.exists_cons
  obtain ⟨c₅, hOwnParams, hClose⟩ := hPasses₄.exists_append
  refine Gives.spanning (g := fun span => ComponentDecl.mk name typeParams params span) ?_ hPasses
    (List.cons_ne_nil _ _)
  apply (Gives.keyword hKeyword).bind
  apply (gives_identifier hName).bind
  apply (gives_typeParams hTypeParams hOwnTypeParams hOpen.next?_eq).bind
  exact (Gives.between hOpen (gives_paramDecls hParams hOwnParams hClose.next?_eq) hClose).map _

theorem refuses_componentDecl (h : c.next? ≠ some (.keyword .component)) : componentDecl.Refuses c :=
  ((Refuses.keyword h).bind _).spanning

theorem refuses_bindingDecl (h : c.next? ≠ some (.keyword .binding)) : bindingDecl.Refuses c :=
  ((Refuses.keyword h).bind _).spanning

theorem takes_item : Takes item := by
  apply Ensures.orElse
  · exact takes_componentDecl.bind fun decl => Ensures.pure trivial
  · apply Ensures.orElse
    · exact takes_bindingDecl.bind fun decl => Ensures.pure trivial
    · exact takes_node.bind fun n => Ensures.pure trivial

/-- What an item begins with. -/
inductive ItemStart : Token → Prop
  | component : ItemStart (.keyword .component)
  | binding : ItemStart (.keyword .binding)
  | less : ItemStart (.mark .less)
  | atSign : ItemStart (.mark .atSign)
  | text (content : String) : ItemStart (.text content)

theorem refuses_item (h : ∀ t, c.next? = some t → ¬ ItemStart t) : item.Refuses c := by
  have hNode : node.Refuses c :=
    refuses_node (fun hNext => h _ hNext .less) (fun content hNext => h _ hNext (.text content))
    fun hNext => h _ hNext .atSign
  have hBinding : bindingDecl.Refuses c := refuses_bindingDecl fun hNext => h _ hNext .binding
  have hComponent : componentDecl.Refuses c := refuses_componentDecl fun hNext => h _ hNext .component
  exact (hComponent.bind _).orElse ((hBinding.bind _).orElse (hNode.bind _))

end Grammar

theorem Node.Placed.exists_start {n : Node} {ts : List (Located Token)} (h : n.Placed ts) :
    ∃ t rest, ts = t :: rest ∧ Grammar.ItemStart t.value ∧ ∀ k, t.value ≠ .keyword k := by
  cases n with
  | text span content =>
    obtain rfl := h
    exact ⟨_, [], rfl, .text content, nofun⟩
  | expression span name =>
    obtain ⟨s, s', rfl, -⟩ := h
    exact ⟨_, _, rfl, .atSign, nofun⟩
  | element span name attributes children closing =>
    cases closing with
    | none =>
      obtain ⟨s, s', own, -, -, rfl, -⟩ := h
      exact ⟨_, _, rfl, .less, nofun⟩
    | some close =>
      obtain ⟨s₁, s₂, s₃, s₄, own, inner, -, -, rfl, -⟩ := h
      exact ⟨_, _, rfl, .less, nofun⟩

theorem Item.Placed.exists_start {i : Item} {ts : List (Located Token)} (h : i.Placed ts) :
    ∃ t rest, ts = t :: rest ∧ Grammar.ItemStart t.value := by
  cases i with
  | component decl =>
    obtain ⟨s, s', s'', typeParams, params, -, -, rfl, -⟩ := h
    exact ⟨_, _, rfl, .component⟩
  | binding decl =>
    obtain ⟨s, s', own, -, rfl, -⟩ := h
    exact ⟨_, _, rfl, .binding⟩
  | markup n =>
    obtain ⟨t, rest, hTokens, hStart, -⟩ := Node.Placed.exists_start h
    exact ⟨t, rest, hTokens, hStart⟩

/-- A tag that does not open with its name alone is not read as type arguments. -/
theorem Grammar.refuses_typeArgs_of_tag {c c' : Cursor} {s s' : Span} {name : Identifier}
    {attributes : List Attribute} {m : Mark} {own rest : List (Located Token)}
    (hPasses : c.Passes (⟨.mark .less, s⟩ :: Identifier.token name :: (own ++ ⟨.mark m, s'⟩ :: rest)) c')
    (hAttributes : InRow Attribute.Placed attributes own) (hOpen : attributes = [] → m = .slashGreater) :
    typeArgs.Refuses c := by
  obtain ⟨c₁, hLess, hPasses₁⟩ := hPasses.exists_cons
  obtain ⟨c₂, hName, hPasses₂⟩ := hPasses₁.exists_cons
  -- Behind the name there is no closing bracket, but the arguments would have to end there.
  have hNext : ∃ t, c₂.next? = some t ∧ InTag t ∧ t ≠ .mark .greater := by
    cases attributes with
    | nil =>
      obtain rfl : own = [] := hAttributes
      obtain rfl := hOpen rfl
      exact ⟨_, hPasses₂.next?_eq, .slashGreater, nofun⟩
    | cons a as =>
      obtain ⟨own', after, hOwn', -, rfl⟩ := hAttributes
      obtain ⟨rest', rfl⟩ := hOwn'.exists_identifier
      exact ⟨_, hPasses₂.next?_eq, .name a.name.value, nofun⟩
  obtain ⟨t, hNext, hTag, hGreater⟩ := hNext
  have hComma : (mark .comma).Refuses c₂ := by
    apply Refuses.mark
    rw [hNext]
    cases hTag <;> simp
  have hHead : typeExpr.Gives (.named name.value) c₁ c₂ := by
    apply gives_typeExpr (.named name.value) hName
    apply TypeEnds.of_next? <;> rw [hNext] <;> cases hTag <;> simp
  have hList : (separated .comma typeExpr).Gives [.named name.value] c₁ c₂ :=
    Gives.separated_one takes_typeExpr hHead (hComma.bind _)
  apply (Gives.mark hLess).bind_refuses
  apply hList.bind_refuses
  apply (Refuses.mark _).bind
  rw [hNext]
  simpa using hGreater

section Items

variable {c c' : Cursor} {ts : List (Located Token)}

theorem Grammar.refuses_typeArgs_of_node {n : Node} (h : n.Placed ts) (hPasses : c.Passes ts c')
    (hOpen : ∀ span name children close, n ≠ .element span name [] children (some close)) : typeArgs.Refuses c := by
  cases n with
  | text span content =>
    obtain rfl := h
    exact refuses_typeArgs (by simp [hPasses.next?_eq])
  | expression span name =>
    obtain ⟨s, s', rfl, -⟩ := h
    exact refuses_typeArgs (by simp [hPasses.next?_eq])
  | element span name attributes children closing =>
    cases closing with
    | none =>
      obtain ⟨s, s', own, hAttributes, -, rfl, -⟩ := h
      exact refuses_typeArgs_of_tag hPasses hAttributes fun _ => rfl
    | some close =>
      obtain ⟨s₁, s₂, s₃, s₄, own, inner, hAttributes, -, rfl, -⟩ := h
      apply refuses_typeArgs_of_tag hPasses hAttributes
      rintro rfl
      exact absurd rfl (hOpen span name children close)

theorem Grammar.typeEnds_of_item {i j : Item} {decl : BindingDecl} (hBinding : i = .binding decl)
    (hApart : ¬ i.RunsInto j) (h : j.Placed ts) (hPasses : c.Passes ts c') : TypeEnds decl.type.value c where
  suffix := by
    obtain ⟨t, rest, rfl, hStart⟩ := h.exists_start
    rw [hPasses.next?_eq]
    intro hBracket
    rw [Option.some.inj hBracket] at hStart
    cases hStart
  args := by
    intro hSimple
    subst hBinding
    cases j with
    | component other =>
      obtain ⟨s, s', s'', typeParams, params, -, -, rfl, -⟩ := h
      exact refuses_typeArgs (by simp [hPasses.next?_eq])
    | binding other =>
      obtain ⟨s, s', own, -, rfl, -⟩ := h
      exact refuses_typeArgs (by simp [hPasses.next?_eq])
    | markup n =>
      apply refuses_typeArgs_of_node h hPasses
      rintro span name children close rfl
      exact hApart ⟨hSimple, trivial⟩

theorem Grammar.gives_item {i : Item} (h : i.Placed ts) (hPasses : c.Passes ts c')
    (hEnds : ∀ decl, i = .binding decl → TypeEnds decl.type.value c') : item.Gives i c c' := by
  cases i with
  | component decl => exact ((gives_componentDecl h hPasses).map _).orElse _
  | binding decl =>
    have hRead : bindingDecl.Gives decl c c' := gives_typedDecl h hPasses (hEnds decl rfl) BindingDecl.mk
    obtain ⟨s, s', own, -, rfl, -⟩ := h
    have hComponent : componentDecl.Refuses c := refuses_componentDecl (by simp [hPasses.next?_eq])
    exact Gives.orElse_of_refuses (hComponent.bind _) ((hRead.map _).orElse _)
  | markup n =>
    have hRead := gives_node h hPasses
    obtain ⟨t, rest, rfl, -, hKeyword⟩ := Node.Placed.exists_start h
    have hNone : ∀ k, c.next? ≠ some (.keyword k) := by
      intro k
      rw [hPasses.next?_eq]
      simpa using hKeyword k
    have hComponent : componentDecl.Refuses c := refuses_componentDecl (hNone _)
    have hBinding : bindingDecl.Refuses c := refuses_bindingDecl (hNone _)
    exact Gives.orElse_of_refuses (hComponent.bind _) (Gives.orElse_of_refuses (hBinding.bind _) (hRead.map _))

theorem Grammar.gives_items {items : List Item} (h : InRow Item.Placed items ts)
    (hApart : Item.AllApart items) (hPasses : c.Passes ts c')
    (hEnd : ∀ t, c'.next? = some t → ¬ ItemStart t) (hSuffix : c'.next? ≠ some (.mark .bracketOpen)) :
    (many item).Gives items c c' := by
  apply Gives.many takes_item h hPasses (refuses_item hEnd)
  intro i items' own after c₁ c₂ hItems hOwn hAfter hPasses₁ hPasses₂
  apply gives_item hOwn hPasses₁
  intro decl hBinding
  -- Where a binding ends is told by the item behind it.
  cases items' with
  | nil =>
    obtain rfl : after = [] := hAfter
    obtain rfl := hPasses₂.eq_of_nil
    exact TypeEnds.of_next? hSuffix fun hLess => hEnd _ hLess .less
  | cons j items'' =>
    obtain ⟨ownNext, afterNext, hNext, -, rfl⟩ := hAfter
    obtain ⟨c₃, hPassesNext, -⟩ := hPasses₂.exists_append
    have hChain : Item.AllApart (i :: j :: items'') := List.IsChain.suffix hApart hItems
    exact typeEnds_of_item hBinding (List.isChain_cons_cons.mp hChain).1 hNext hPassesNext

/-- At the end of the tokens, or of those before some others. -/
theorem Cursor.exists_passes (taken rest : List (Located Token)) :
    ∃ c', (Cursor.ofTokens (taken ++ rest)).Passes taken c' ∧ c'.rest = rest := exists_passes_of_rest rfl

theorem TypeExpr.Spelled.of_isSimple {t : TypeExpr} {ts : List Token} (h : t.Spelled ts)
    (hSimple : t.isSimple = true) :
    t = .named t.name ∧ ts = [.identifier t.name] := by
  cases h with
  | named => exact ⟨rfl, rfl⟩
  | @applied name args _ hArgs =>
    cases hArgs <;> cases hSimple
  | array => cases hSimple

/-- A name alone takes the opening tag behind it for its type arguments. -/
theorem BindingDecl.Placed.exists_applied {decl : BindingDecl} (h : decl.Placed ts)
    (hSimple : decl.type.value.isSimple = true) (name : Identifier) (s s' : Span) :
    ∃ decl' : BindingDecl, decl'.Placed (ts ++ [⟨.mark .less, s⟩, Identifier.token name, ⟨.mark .greater, s'⟩]) ∧
      decl'.type.value.isSimple = false := by
  obtain ⟨sKeyword, sColon, own, ⟨hSpelled, -⟩, rfl, -⟩ := h
  obtain ⟨-, hOwn⟩ := hSpelled.of_isSimple hSimple
  obtain ⟨sName, rfl⟩ := map_value_eq_singleton_iff.mp hOwn
  have hApplied : (TypeExpr.app decl.type.value.name [.named name.value]).Spelled
      [.identifier decl.type.value.name, .mark .less, .identifier name.value, .mark .greater] :=
    .applied (.last (.named name.value))
  exact ⟨⟨decl.name, ⟨_, _⟩, _⟩, ⟨sKeyword, sColon, _, ⟨hApplied, rfl⟩, rfl, rfl⟩, rfl⟩

namespace Grammar

theorem gives_document {d : Document} (h : d.Placed ts) (hApart : d.Apart) :
    ∃ c, document.Gives d (.ofTokens ts) c := by
  obtain ⟨c', hPasses, hRest⟩ := Cursor.exists_passes ts []
  rw [List.append_nil] at hPasses
  have hNext : c'.next? = none := by rw [Cursor.next?, hRest]; rfl
  have hItems : (many item).Gives d.items (.ofTokens ts) c' := by
    apply gives_items h hApart hPasses <;> simp [hNext]
  have hEnd : endOfSource.Gives () c' c' := endOfSource_eq_some_iff.mpr ⟨hRest, rfl⟩
  exact ⟨c', hItems.bind (hEnd.bind (Gives.pure d c'))⟩

theorem refuses_document_of_items {items : List Item} {own : List (Located Token)}
    (h : InRow Item.Placed items own) (hApart : Item.AllApart items) (s : Span) (rest : List (Located Token)) :
    document.Refuses (.ofTokens (own ++ ⟨.mark .lessSlash, s⟩ :: rest)) := by
  obtain ⟨c', hPasses, hRest⟩ := Cursor.exists_passes own (⟨.mark .lessSlash, s⟩ :: rest)
  have hNext : c'.next? = some (.mark .lessSlash) := by rw [Cursor.next?, hRest]; rfl
  have hItems : (many item).Gives items (.ofTokens (own ++ ⟨.mark .lessSlash, s⟩ :: rest)) c' := by
    apply gives_items h hApart hPasses
    · rw [hNext]
      rintro _ ⟨⟩ ⟨⟩
    · simp [hNext]
  have hEnd : endOfSource.Refuses c' := by rw [Refuses, endOfSource, hRest]
  exact hItems.bind_refuses (hEnd.bind _)

/-- The first binding that runs into an element takes its opening tag. The children are then read as items, up
to a closing tag that nothing opens. -/
theorem refuses_document {d : Document} (h : d.Placed ts) (hClash : ¬ d.Apart) :
    document.Refuses (.ofTokens ts) := by
  obtain ⟨before, i, j, after, hItems, hChain, hRuns⟩ := exists_first_of_not_isChain hClash
  rw [Document.Placed, hItems] at h
  obtain ⟨hName, hBare⟩ := Decidable.not_not.mp hRuns
  obtain ⟨decl, rfl, hSimple⟩ := hName.exists_eq
  obtain ⟨span, name, children, close, rfl⟩ := hBare.exists_eq
  obtain ⟨ownBefore, _, hBefore, hBehind, rfl⟩ := h.exists_append
  obtain ⟨ownDecl, _, hDecl, ⟨_, ownAfter, hElement, -, rfl⟩, rfl⟩ := hBehind
  obtain ⟨s₁, s₂, s₃, s₄, _, inner, hNone, hInner, rfl, -⟩ := hElement
  obtain rfl := hNone
  rw [Node.placedIn_eq_inRow] at hInner
  obtain ⟨decl', hDecl', hSimple'⟩ := BindingDecl.Placed.exists_applied hDecl hSimple name s₁ s₂
  have hChildren : InRow Item.Placed (children.map .markup) inner := by
    have hRow := hInner.map (g := Item.markup) (k := id) (R := Item.Placed) fun n _ own hOwn => by
      rw [List.map_id]
      exact hOwn
    rwa [List.map_id] at hRow
  have hRow : InRow Item.Placed (before ++ .binding decl' :: children.map .markup)
      (ownBefore ++ ((ownDecl ++ [⟨.mark .less, s₁⟩, Identifier.token name, ⟨.mark .greater, s₂⟩]) ++ inner)) :=
    hBefore.append ⟨_, inner, hDecl', hChildren, rfl⟩
  -- With the tag for type arguments the binding does not run into the children, and no markup runs into any.
  have hApart : Item.AllApart (before ++ .binding decl' :: children.map .markup) := by
    rw [Item.AllApart, List.isChain_append]
    have hName' : ¬ (Item.binding decl').EndsInName := ne_true_of_eq_false hSimple'
    refine ⟨(List.isChain_append.mp hChain).1, Item.allApart_markup hName' children, ?_⟩
    rintro i - _ ⟨⟩ ⟨-, ⟨⟩⟩
  have hRefuses := refuses_document_of_items hRow hApart s₃
    (Identifier.token close :: ⟨.mark .greater, s₄⟩ :: ownAfter)
  simpa using hRefuses

theorem placed_of_gives_document {d : Document} {c : Cursor} (h : document.Gives d (.ofTokens ts) c) :
    d.Placed ts ∧ d.Apart := by
  obtain ⟨items, rfl, hSpelled⟩ := reads_item.many.whole h
  -- The tokens spell the document, so that one is placed on them; and what is placed there is what is read.
  obtain ⟨d', hPlaced, -⟩ := Document.Spelled.exists_placed hSpelled
  by_cases hApart : d'.Apart
  · obtain ⟨c', hRead⟩ := gives_document hPlaced hApart
    cases hRead.symm.trans h
    exact ⟨hPlaced, hApart⟩
  · cases (refuses_document hPlaced hApart).symm.trans h

end Grammar

end Items
end TypedMarkup
