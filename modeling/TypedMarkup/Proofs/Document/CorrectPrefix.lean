import TypedMarkup.Proofs.Document.Lookahead
import TypedMarkup.Proofs.Document.SyntaxErrors
import TypedMarkup.Proofs.Reader.Runs

/-! # What stands in front of a syntax error

A syntax error is at the first token behind which no document can go on. The tokens in front of it begin a document,
and so they do with each token that is expected in its place.

A binding may have been read to its end in front of an element that it would run into if the element were whole.
What is there of its tag then begins type arguments as well.
-/
namespace TypedMarkup
set_option autoImplicit false
open Reader Spelling Placement

namespace Miss

variable {misses : List Miss}

theorem furthest_spec (misses : List Miss) :
    furthest misses ∈ 0 :: misses.map index ∧ ∀ i ∈ 0 :: misses.map index, i ≤ furthest misses :=
  List.max?_eq_some_iff.mp List.max?_cons'

theorem index_le_furthest {m : Miss} (h : m ∈ misses) : m.index ≤ furthest misses :=
  (furthest_spec misses).2 _ (List.mem_cons_of_mem _ (List.mem_map_of_mem h))

theorem exists_index_eq_furthest {m : Miss} (h : m ∈ misses) : ∃ m' ∈ misses, m'.index = furthest misses := by
  rcases List.mem_cons.mp (furthest_spec misses).1 with hZero | hMem
  · have hLe := index_le_furthest h
    exact ⟨m, h, by omega⟩
  · exact List.mem_map.mp hMem

theorem exists_of_mem_expected {x : Expectation} (h : x ∈ expected misses) :
    ∃ m ∈ misses, m.index = furthest misses ∧ m.wanted = some x := by
  obtain ⟨m, hm, hWanted⟩ := List.mem_filterMap.mp (List.mem_eraseDups.mp h)
  obtain ⟨hMem, hIndex⟩ := List.mem_filter.mp hm
  exact ⟨m, hMem, of_decide_eq_true hIndex, hWanted⟩

end Miss

namespace Grammar

/-- The tokens are read to their end as a document. -/
def Accepts (ts : List Token) : Prop := (document (.ofTokens (ts.map fun t => ⟨t, ⟨0, 0⟩⟩))).result.isSome = true

instance : DecidablePred Accepts := fun _ => inferInstanceAs (Decidable (_ = true))

/-- With further tokens behind them they are accepted. -/
def Viable (ts : List Token) : Prop := ∃ more, Accepts (ts ++ more)

/-- Which tokens are read as a document does not depend on where they stand. -/
theorem exists_gives_document_iff {ts : List (Located Token)} :
    (∃ d c, document.Gives d (.ofTokens ts) c) ↔ ∃ d : Document, d.Spelled (ts.map Located.value) ∧ d.Apart := by
  constructor
  · rintro ⟨d, c, hRead⟩
    obtain ⟨items, rfl, hSpelled⟩ := reads_item.many.whole hRead
    exact ⟨⟨items⟩, hSpelled, (placed_of_gives_document hRead).2⟩
  · rintro ⟨d, hSpelled, hApart⟩
    obtain ⟨d', hPlaced, hSame⟩ := hSpelled.exists_placed
    obtain ⟨c, hRead⟩ := gives_document hPlaced (hSame.apart_iff.mpr hApart)
    exact ⟨d', c, hRead⟩

theorem accepts_iff {ts : List Token} : Accepts ts ↔ ∃ d : Document, d.Spelled ts ∧ d.Apart := by
  have hValues : (ts.map fun t => (⟨t, ⟨0, 0⟩⟩ : Located Token)).map Located.value = ts := by
    rw [List.map_map]
    exact List.map_id ts
  rw [Accepts, Option.isSome_iff_exists, Prod.exists]
  conv_rhs => rw [← hValues]
  exact exists_gives_document_iff

theorem accepts_map_value_iff {ts : List (Located Token)} :
    Accepts (ts.map Located.value) ↔ ∃ d c, document.Gives d (.ofTokens ts) c := by
  rw [accepts_iff, exists_gives_document_iff]

theorem Viable.of_append {ts ts' : List Token} (h : Viable (ts ++ ts')) : Viable ts := by
  obtain ⟨more, hAccepts⟩ := h
  rw [List.append_assoc] at hAccepts
  exact ⟨ts' ++ more, hAccepts⟩

section Apart

variable {c c' : Cursor}

theorem gives_typeArgs_of_prefix {name : String}
    (h : [.mark .less, .identifier name, .mark .greater] <+: c.rest.map Located.value) :
    ∃ c', typeArgs.Gives [.named name] c c' := by
  obtain ⟨behind, hRest⟩ := h
  obtain ⟨s, _, hRest₁, h₁⟩ := map_value_eq_cons_iff.mp hRest.symm
  obtain ⟨s', _, rfl, h₂⟩ := map_value_eq_cons_iff.mp h₁
  obtain ⟨s'', rest, rfl, -⟩ := map_value_eq_cons_iff.mp h₂
  have hTaken : c.rest = [⟨.mark .less, s⟩, ⟨.identifier name, s'⟩, ⟨.mark .greater, s''⟩] ++ rest := hRest₁
  obtain ⟨c', hPasses, -⟩ := Cursor.exists_passes_of_rest hTaken
  obtain ⟨c₁, hLess, hPasses₁⟩ := hPasses.exists_cons
  obtain ⟨c₂, hName, hGreater⟩ := hPasses₁.exists_cons
  have hHead : typeExpr.Gives (.named name) c₁ c₂ := by
    apply gives_typeExpr (.named name) hName
    apply TypeEnds.of_next? <;> simp [hGreater.next?_eq]
  have hComma : (mark .comma).Refuses c₂ := Refuses.mark (by simp [hGreater.next?_eq])
  exact ⟨c', Gives.between hLess (Gives.separated_one takes_typeExpr hHead (hComma.bind _)) hGreater⟩

/-- If type arguments could be read behind a name alone, they would have been read with it. -/
theorem refuses_typeArgs_of_isSimple {t : TypeExpr} (h : typeExpr.Gives t c c') (hSimple : t.isSimple = true) :
    typeArgs.Refuses c' := by
  cases hArgs : (typeArgs c').result with
  | none => exact hArgs
  | some read =>
    obtain ⟨args, c₁⟩ := read
    obtain ⟨taken, hPasses, hSpelled⟩ := reads_typeExpr c t c' h
    obtain ⟨s, rfl⟩ := map_value_eq_singleton_iff.mp (hSpelled.of_isSimple hSimple).2
    obtain ⟨suffixes, c₂, -, -, hSuffixes, -⟩ := many_runs takes_suffix c₁
    have hApplied : typeExpr.Gives (suffixes.foldl (fun t _ => t.array) (.app t.name args)) c c₂ := by
      rw [typeExpr_eq]
      exact (Gives.name hPasses).bind ((Gives.maybe hArgs).bind (hSuffixes.map _))
    obtain ⟨-, rfl⟩ := Prod.mk.inj (Option.some.inj (h.symm.trans hApplied))
    have hLess := takes_typeArgs.length_lt hArgs
    have hLess' := takes_suffix.advances.many.length_le hSuffixes
    omega

theorem exists_gives_typeExpr_of_binding {decl : BindingDecl} (h : item.Gives (.binding decl) c c') :
    ∃ c₁, typeExpr.Gives decl.type.value c₁ c' := by
  have hDecl : bindingDecl.Gives decl c c' := by
    rw [Gives, item, orElse_result, Option.or_eq_some_iff] at h
    rcases h with hComponent | ⟨-, hOther⟩
    · obtain ⟨_, _, -, ⟨⟩⟩ := bind_eq_some_iff.mp hComponent
    · rw [orElse_result, Option.or_eq_some_iff] at hOther
      rcases hOther with hBinding | ⟨-, hNode⟩
      · obtain ⟨decl', _, hDecl, ⟨⟩⟩ := bind_eq_some_iff.mp hBinding
        exact hDecl
      · obtain ⟨_, _, -, ⟨⟩⟩ := bind_eq_some_iff.mp hNode
  obtain ⟨f, hInner, rfl⟩ := spanning_eq_some_iff.mp hDecl
  obtain ⟨_, _, -, hAfterKeyword⟩ := bind_eq_some_iff.mp hInner
  obtain ⟨name, _, -, hAfterName⟩ := bind_eq_some_iff.mp hAfterKeyword
  obtain ⟨_, _, -, hAfterColon⟩ := bind_eq_some_iff.mp hAfterName
  obtain ⟨type, c₁, hType, ⟨⟩⟩ := bind_eq_some_iff.mp hAfterColon
  obtain ⟨g, hLocated, rfl⟩ := spanning_eq_some_iff.mp hType
  obtain ⟨t, _, hTypeExpr, ⟨⟩⟩ := bind_eq_some_iff.mp hLocated
  exact ⟨_, hTypeExpr⟩

theorem exists_prefix_of_opensBare {i : Item} {ts : List Token} (h : i.Spelled ts) (hBare : i.OpensBare) :
    ∃ name, [.mark .less, .identifier name, .mark .greater] <+: ts := by
  obtain ⟨span, name, children, close, rfl⟩ := hBare.exists_eq
  cases h with
  | markup hNode =>
    cases hNode with
    | closed hNone hInner =>
      cases hNone
      exact ⟨name.value, _, rfl⟩

/-- Items that were read one behind another are apart, and the last of them runs into nothing. -/
theorem apart_of_runs {items : List Item} (h : Runs item items c c') :
    Item.AllApart items ∧ ∀ i ∈ items.getLast?, i.EndsInName → typeArgs.Refuses c' := by
  induction h with
  | nil c => exact ⟨.nil, nofun⟩
  | @cons i rest c c₁ c' hHead hRest ih =>
    obtain ⟨hApart, hLast⟩ := ih
    have hEnd : i.EndsInName → typeArgs.Refuses c₁ := by
      intro hName
      obtain ⟨decl, rfl, hSimple⟩ := hName.exists_eq
      obtain ⟨c₀, hType⟩ := exists_gives_typeExpr_of_binding hHead
      exact refuses_typeArgs_of_isSimple hType hSimple
    cases hRest with
    | nil =>
      refine ⟨.singleton i, ?_⟩
      rintro _ ⟨⟩
      exact hEnd
    | @cons j rest' _ c₂ _ hNext hRest' =>
      refine ⟨.cons_cons ?_ hApart, hLast⟩
      rintro ⟨hName, hBare⟩
      obtain ⟨taken, hPasses, hSpelled⟩ := reads_item _ j c₂ hNext
      obtain ⟨name, hPrefix⟩ := exists_prefix_of_opensBare hSpelled hBare
      have hAhead : [.mark .less, .identifier name, .mark .greater] <+: c₁.rest.map Located.value := by
        rw [hPasses.rest, List.map_append]
        exact hPrefix.trans (List.prefix_append _ _)
      obtain ⟨c₃, hArgs⟩ := gives_typeArgs_of_prefix hAhead
      cases (hEnd hName).symm.trans hArgs

/-- A binding to a name alone takes one more name for its type argument. -/
theorem accepts_applied {items : List Item} {decl : BindingDecl} {ts : List Token}
    (h : Row Item.Spelled (items ++ [.binding decl]) ts) (hApart : Item.AllApart (items ++ [.binding decl]))
    (hSimple : decl.type.value.isSimple = true) (name : String) :
    Accepts (ts ++ [.mark .less, .identifier name, .mark .greater]) := by
  obtain ⟨own, _, hItems, hDecl, rfl⟩ := h.exists_append
  cases hDecl.of_singleton with
  | binding hSpelled =>
    obtain ⟨_, hType, rfl⟩ := hSpelled
    obtain ⟨-, rfl⟩ := hType.of_isSimple hSimple
    let decl' : BindingDecl := ⟨decl.name, ⟨.app decl.type.value.name [.named name], decl.type.span⟩, decl.span⟩
    have hDecl' : decl'.Spelled [.keyword .binding, .identifier decl.name.value, .mark .colon,
        .identifier decl.type.value.name, .mark .less, .identifier name, .mark .greater] :=
      ⟨_, .applied (.last (.named name)), rfl⟩
    refine accepts_iff.mpr ⟨⟨items ++ [.binding decl']⟩, ?_, ?_⟩
    · rw [List.append_assoc]
      exact hItems.append (Row.singleton (.binding hDecl'))
    · obtain ⟨hChain, -, -⟩ := List.isChain_append.mp hApart
      refine List.isChain_append.mpr ⟨hChain, .singleton _, ?_⟩
      rintro i - _ ⟨⟩ ⟨-, ⟨⟩⟩

/-- Behind items that were read, the beginning of a further item begins a document. If that item would be run into
when it is whole, the last binding takes what there is of it for a type argument. -/
theorem viable_of_begun {items : List Item} (hRuns : Runs item items c c') {own : List Token}
    (hItems : Row Item.Spelled items own) {before : List Token} (hBefore : before <+: c'.rest.map Located.value)
    {i : Item} {t : Token} {more : List Token} (hSpelled : i.Spelled (before ++ t :: more)) :
    Viable (own ++ before ++ [t]) := by
  obtain ⟨hApart, hLast⟩ := apart_of_runs hRuns
  by_cases hRunsInto : ∃ j ∈ items.getLast?, j.RunsInto i
  · obtain ⟨j, hj, hName, hBare⟩ := hRunsInto
    obtain ⟨init, rfl⟩ := List.getLast?_eq_some_iff.mp hj
    obtain ⟨decl, rfl, hSimple⟩ := hName.exists_eq
    obtain ⟨name, hTag⟩ := exists_prefix_of_opensBare hSpelled hBare
    have hBegun : before ++ [t] <+: before ++ t :: more := ⟨more, by simp⟩
    -- Had the whole opening tag been there, it would have been read as type arguments.
    have hPart : before ++ [t] <+: [.mark .less, .identifier name, .mark .greater] := by
      rcases List.prefix_or_prefix_of_prefix hBegun hTag with hPart | hWhole
      · exact hPart
      · rcases List.prefix_concat_iff.mp hWhole with hSame | hPrefix
        · exact ⟨[], by rw [List.append_nil, hSame]⟩
        · obtain ⟨c'', hArgs⟩ := gives_typeArgs_of_prefix (hPrefix.trans hBefore)
          cases (hLast _ hj hName).symm.trans hArgs
    obtain ⟨behind, hBehind⟩ := hPart
    refine ⟨behind, ?_⟩
    rw [List.append_assoc own, List.append_assoc own, hBehind]
    exact accepts_applied hItems hApart hSimple name
  · have hRow : Document.Spelled ⟨items ++ [i]⟩ (own ++ (before ++ t :: more)) := hItems.append (Row.singleton hSpelled)
    have hApart' : Document.Apart ⟨items ++ [i]⟩ := by
      refine List.isChain_append.mpr ⟨hApart, .singleton i, ?_⟩
      rintro j hj _ ⟨⟩ hBoth
      exact hRunsInto ⟨j, hj, hBoth⟩
    refine ⟨more, accepts_iff.mpr ⟨_, ?_, hApart'⟩⟩
    simpa using hRow

end Apart

section Stop

variable {ts : List (Located Token)}

/-- Documents are refused where no further item can be read, in front of some token. -/
theorem exists_stop (h : document.Refuses (.ofTokens ts)) :
    ∃ items c, Runs item items (.ofTokens ts) c ∧ (many item).Gives items (.ofTokens ts) c ∧ c.rest ≠ [] ∧
      (document (.ofTokens ts)).misses =
        (many item (.ofTokens ts)).misses ++ [⟨c.index, some .endOfSource⟩] := by
  obtain ⟨items, c, hRuns, -, hItems, -⟩ := many_runs takes_item (.ofTokens ts)
  have hRest : c.rest ≠ [] := by
    intro hRest
    have hEnd : endOfSource.Gives () c c := endOfSource_eq_some_iff.mpr ⟨hRest, rfl⟩
    cases h.symm.trans (hItems.bind (hEnd.bind (Gives.pure (⟨items⟩ : Document) c)))
  refine ⟨items, c, hRuns, hItems, hRest, ?_⟩
  obtain ⟨t, rest, hCons⟩ := List.exists_cons_of_ne_nil hRest
  have hEnd : endOfSource c = ⟨none, [⟨c.index, some .endOfSource⟩]⟩ := by rw [endOfSource, hCons]
  have hRefuses : endOfSource.Refuses c := by rw [Refuses, hEnd]
  rw [document, hItems.misses_bind, hRefuses.misses_bind, hEnd]

/-- Where a token is refused, a document could have gone on with one that was wanted, or it could have ended. -/
theorem viable_of_miss {m : Miss} (h : document.Refuses (.ofTokens ts))
    (hm : m ∈ (document (.ofTokens ts)).misses) :
    m.index ≤ ts.length ∧ ((m.wanted = some .endOfSource ∧ Accepts ((ts.take m.index).map Located.value)) ∨
      ∃ t, m.Wants t ∧ Viable ((ts.take m.index).map Located.value ++ [t])) := by
  obtain ⟨items, c, hRuns, -, -, hAll⟩ := exists_stop h
  rw [hAll] at hm
  rcases List.mem_append.mp hm with hItem | hEnd
  · obtain ⟨_, _, -, -, -, hMisses⟩ := many_runs takes_item (.ofTokens ts)
    obtain ⟨items₁, c₁, hRuns₁, hMiss⟩ := hMisses m hItem
    obtain ⟨taken, hPasses, hRow⟩ := hRuns₁.reads reads_item
    obtain ⟨before, t, more, i, hBefore, hIndex, hWants, hSpelled⟩ := completes_item.misses c₁ m hMiss
    obtain ⟨behind, hBehind⟩ := hBefore
    have hPrefix : taken ++ before <+: ts := by
      refine ⟨behind, ?_⟩
      rw [List.append_assoc, hBehind]
      exact hPasses.rest.symm
    have hLength : m.index = (taken ++ before).length := by
      rw [hIndex, hPasses.index, List.length_append]
      exact congrArg (· + before.length) (Nat.zero_add _)
    have hAhead : before.map Located.value <+: c₁.rest.map Located.value := by
      rw [← hBehind, List.map_append]
      exact List.prefix_append _ _
    rw [hLength, ← List.prefix_iff_eq_take.mp hPrefix, List.map_append]
    exact ⟨hPrefix.length_le, .inr ⟨t, hWants, viable_of_begun hRuns₁ hRow hAhead hSpelled⟩⟩
  · obtain rfl := List.mem_singleton.mp hEnd
    obtain ⟨taken, hPasses, hRow⟩ := hRuns.reads reads_item
    have hPrefix : taken <+: ts := ⟨c.rest, hPasses.rest.symm⟩
    have hLength : c.index = taken.length := hPasses.index.trans (Nat.zero_add _)
    rw [hLength, ← List.prefix_iff_eq_take.mp hPrefix]
    exact ⟨hPrefix.length_le, .inl ⟨rfl, accepts_iff.mpr ⟨⟨items⟩, hRow, (apart_of_runs hRuns).1⟩⟩⟩

/-- Behind all the tokens that were come to, it does not matter what stands. -/
theorem not_viable_of_refuses (h : document.Refuses (.ofTokens ts)) {n : Nat} (hn : n < ts.length)
    (hLast : ∀ m ∈ (document (.ofTokens ts)).misses, m.index ≤ n) :
    ¬ Viable ((ts.take (n + 1)).map Located.value) := by
  rintro ⟨more, hAccepts⟩
  obtain ⟨items, c, -, hItems, hRest, hAll⟩ := exists_stop h
  rw [hAll] at hLast
  have hIndex : c.index ≤ n := hLast ⟨c.index, some .endOfSource⟩ (by simp)
  let ts' : List (Located Token) := ts.take (n + 1) ++ more.map fun t => ⟨t, ⟨0, 0⟩⟩
  have hSame : (Cursor.ofTokens ts).SameUpTo (n + 1) (.ofTokens ts') := by
    refine ⟨rfl, rfl, ?_⟩
    have hLength : (ts.take (n + 1)).length = n + 1 := by
      rw [List.length_take]
      omega
    exact (List.take_left' hLength).symm
  have hWithin : (many item (.ofTokens ts)).Within (n + 1) := by
    refine ⟨fun m hm => Nat.lt_succ_of_le (hLast m (List.mem_append_left _ hm)), ?_⟩
    rw [hItems]
    rintro _ _ ⟨⟩
    omega
  have hValues : ts'.map Located.value = (ts.take (n + 1)).map Located.value ++ more := by
    rw [List.map_append, List.map_map]
    exact congrArg _ (List.map_id more)
  rw [← hValues, accepts_map_value_iff] at hAccepts
  obtain ⟨d, c'', hRead⟩ := hAccepts
  obtain ⟨c', hItems', hBehind⟩ := (local_items.reply hSame hWithin).exists_result hItems
  -- The token in front of which no further item was read is there as well.
  obtain ⟨t, rest, hCons⟩ := List.exists_cons_of_ne_nil hRest
  obtain ⟨rest', hCons', -⟩ := hBehind.exists_cons (Nat.lt_succ_of_le hIndex) hCons
  have hEnd : endOfSource.Refuses c' := by rw [Refuses, endOfSource, hCons']
  cases (Gives.bind_refuses hItems' (hEnd.bind _)).symm.trans hRead

/-- So many tokens begin a document, and they do with each that is expected behind them, but not with the one that
stands there. If none stands there, the tokens are no document. -/
structure StopsAt (ts : List Token) (n : Nat) (expected : List Expectation) : Prop where
  index : n ≤ ts.length
  begun : Viable (ts.take n)
  token : ∀ x ∈ expected, ∀ t, x.token? = some t → Viable (ts.take n ++ [t])
  whole : .endOfSource ∈ expected → Accepts (ts.take n)
  found : n < ts.length → ¬ Viable (ts.take (n + 1))
  ended : n = ts.length → ¬ Accepts ts

theorem stopsAt_furthest (h : document.Refuses (.ofTokens ts)) :
    StopsAt (ts.map Located.value) (Miss.furthest (document (.ofTokens ts)).misses)
      (Miss.expected (document (.ofTokens ts)).misses) := by
  have hEach := fun m => viable_of_miss (m := m) h
  have hNot := @not_viable_of_refuses ts h
  have hAccepts : ¬ Accepts (ts.map Located.value) := by
    rw [accepts_map_value_iff]
    rintro ⟨d, c, hRead⟩
    cases h.symm.trans hRead
  obtain ⟨items, c, -, -, -, hAll⟩ := exists_stop h
  have hEnd : ⟨c.index, some .endOfSource⟩ ∈ (document (.ofTokens ts)).misses := by simp [hAll]
  generalize (document (.ofTokens ts)).misses = misses at hEach hNot hEnd ⊢
  simp only [List.map_take] at hEach hNot
  obtain ⟨m, hm, hFurthest⟩ := Miss.exists_index_eq_furthest hEnd
  exact {
    index := by
      rw [List.length_map, ← hFurthest]
      exact (hEach m hm).1
    begun := by
      rw [← hFurthest]
      rcases (hEach m hm).2 with ⟨-, hWhole⟩ | ⟨t, -, hViable⟩
      · exact ⟨[], by rwa [List.append_nil]⟩
      · exact hViable.of_append
    token := by
      intro x hx t ht
      obtain ⟨m', hm', hIndex, hWanted⟩ := Miss.exists_of_mem_expected hx
      rw [← hIndex]
      rcases (hEach m' hm').2 with ⟨hLast, -⟩ | ⟨t', hWants, hViable⟩
      · cases hWanted.symm.trans hLast
        cases ht
      · obtain rfl := Option.some.inj ((hWants x hWanted).symm.trans ht)
        exact hViable
    whole := by
      intro hx
      obtain ⟨m', hm', hIndex, hWanted⟩ := Miss.exists_of_mem_expected hx
      rw [← hIndex]
      rcases (hEach m' hm').2 with ⟨-, hWhole⟩ | ⟨t', hWants, -⟩
      · exact hWhole
      · cases hWants _ hWanted
    found := by
      rw [List.length_map]
      intro hLess
      exact hNot hLess fun m' hm' => Miss.index_le_furthest hm'
    ended := fun _ => hAccepts }

end Stop

end Grammar

theorem SyntaxError.ofMisses_eq (source : String) (misses : List Miss) :
    ofMisses (Token.scan source) source.utf8ByteSize misses =
      unexpected ((Token.scan source)[Miss.furthest misses]?.map Located.value) (Miss.expected misses)
        (((Token.scan source)[Miss.furthest misses]?.map Located.span).getD (endSpan source)) := by
  rw [ofMisses, ← List.head?_drop]
  cases (Token.scan source).drop (Miss.furthest misses) <;> rfl

/-- If the tokens of a source are not those of a document, there is one error, and it is at the first token behind
which no document can go on, or at the end of the source if the tokens begin a document, but are none. -/
theorem Document.parse_error_stopsAt {source : String}
    (h : ¬ Grammar.Accepts ((Token.scan source).map Located.value)) :
    ∃ n expected, parse source = .error [.unexpected ((Token.scan source)[n]?.map Located.value) expected
        (((Token.scan source)[n]?.map Located.span).getD (SyntaxError.endSpan source))] ∧
      Grammar.StopsAt ((Token.scan source).map Located.value) n expected := by
  have hRefuses : Grammar.document.Refuses (.ofTokens (Token.scan source)) := by
    rw [Grammar.accepts_map_value_iff] at h
    cases hRead : (Grammar.document (.ofTokens (Token.scan source))).result with
    | none => exact hRead
    | some read => exact absurd ⟨read.1, read.2, hRead⟩ h
  refine ⟨_, _, ?_, Grammar.stopsAt_furthest hRefuses⟩
  rw [parse, ofTokens, hRefuses, ← SyntaxError.ofMisses_eq]

/-- The name behind the angle bracket can still become a type argument, or the name of an element. -/
theorem parse_error_stopsAt_open : ∃ n expected,
    Document.parse "let x: A<b" = .error [.unexpected none expected ⟨10, 10⟩] ∧
      .mark .comma ∈ expected ∧ .mark .slashGreater ∈ expected ∧
      Grammar.StopsAt [.keyword .binding, .identifier "x", .mark .colon, .identifier "A", .mark .less, .identifier "b"]
        n expected := by
  have hTokens : (Token.scan "let x: A<b").map Located.value =
      [.keyword .binding, .identifier "x", .mark .colon, .identifier "A", .mark .less, .identifier "b"] := by
    decide +kernel
  have hRejected : ¬ Grammar.Accepts ((Token.scan "let x: A<b").map Located.value) := by decide +kernel
  obtain ⟨n, expected, hParse, hStops⟩ := Document.parse_error_stopsAt hRejected
  have hError : Document.parse "let x: A<b" = .error [.unexpected none
      [.mark .less, .mark .bracketOpen, .mark .comma, .mark .greater, .mark .slashGreater] ⟨10, 10⟩] := by
    decide +kernel
  have hFields := hParse.symm.trans hError
  rw [Except.error.injEq, List.cons.injEq, SyntaxError.unexpected.injEq] at hFields
  obtain ⟨⟨-, rfl, -⟩, -⟩ := hFields
  rw [hTokens] at hStops
  exact ⟨n, _, hError, by decide, by decide, hStops⟩

end TypedMarkup
