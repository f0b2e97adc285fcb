import TypedMarkup.Proofs.Compile.Reordering

/-! # Collecting declarations

Components and bindings are collected from documents in any order, and a collection that fails does not end the
run. A name keeps the meaning that the first accepted declaration gives it; a collection that fails leaves what those
of its declarations give that stand before the one refused.
-/
namespace TypedMarkup
set_option autoImplicit false

section Declaring

variable {σ δ ε : Type}

/-- Declares in order up to the first declaration that is refused. -/
def collectWith (declare : σ → δ → Except ε σ) : σ → List δ → σ × Option ε
  | s, [] => (s, none)
  | s, decl :: rest =>
    match declare s decl with
    | .ok s' => collectWith declare s' rest
    | .error e => (s, some e)

/-- As much of what comes behind earlier declarations as can be made together with them, from the front on. -/
structure AcceptedFrom (Together : List δ → Prop) (earlier decls own : List δ) : Prop where
  together : Together (earlier ++ own)
  maximal : decls = own ∨ ∃ next rest, decls = own ++ next :: rest ∧ ¬ Together (earlier ++ (own ++ [next]))

/-- What declarations made together lead to; one more is accepted just if it can be made with them too. -/
structure DeclaresTogether (declare : σ → δ → Except ε σ) (made : List δ → σ) (Together : List δ → Prop) : Prop where
  accepts {earlier : List δ} {decl : δ} {s : σ} (h : Together earlier) (hOk : declare (made earlier) decl = .ok s) :
    s = made (earlier ++ [decl]) ∧ Together (earlier ++ [decl])
  refuses {earlier : List δ} {decl : δ} {e : ε} (h : Together earlier)
    (hError : declare (made earlier) decl = .error e) : ¬ Together (earlier ++ [decl])

variable {declare : σ → δ → Except ε σ} {made : List δ → σ} {Together : List δ → Prop}

/-- What a collection adds, whether it fails or not, is what the accepted declarations lead to. -/
theorem exists_accepted (hDeclares : DeclaresTogether declare made Together) {earlier : List δ}
    (h : Together earlier) (decls : List δ) :
    ∃ own, (collectWith declare (made earlier) decls).1 = made (earlier ++ own) ∧
      AcceptedFrom Together earlier decls own := by
  induction decls generalizing earlier with
  | nil => exact ⟨[], by simp [collectWith], by simpa using h, .inl rfl⟩
  | cons decl rest ih =>
    rw [collectWith]
    cases hDeclare : declare (made earlier) decl with
    | error e =>
      refine ⟨[], by simp, by simpa using h, .inr ⟨decl, rest, rfl, ?_⟩⟩
      simpa using hDeclares.refuses h hDeclare
    | ok s =>
      -- What is accepted of the rest comes behind this declaration.
      obtain ⟨rfl, hTogether⟩ := hDeclares.accepts h hDeclare
      obtain ⟨own, hState, hOwn, hMaximal⟩ := ih hTogether
      refine ⟨decl :: own, by simpa using hState, by simpa using hOwn, ?_⟩
      rcases hMaximal with rfl | ⟨next, after, rfl, hNot⟩
      · exact .inl rfl
      · exact .inr ⟨next, after, rfl, by simpa using hNot⟩

/-- A collection that fails is decided by its first declarations: those before the one refused, and this one. -/
theorem exists_take_of_refused {s : σ} {e : ε} {decls : List δ} (h : (collectWith declare s decls).2 = some e) :
    ∃ n < decls.length, collectWith declare s (decls.take n) = ((collectWith declare s decls).1, none) ∧
      collectWith declare s (decls.take (n + 1)) = ((collectWith declare s decls).1, some e) := by
  induction decls generalizing s with
  | nil => cases h
  | cons decl rest ih =>
    rw [collectWith] at h ⊢
    cases hDeclare : declare s decl with
    | error _ =>
      rw [hDeclare] at h
      cases h
      exact ⟨0, by simp, rfl, by simp [collectWith, hDeclare]⟩
    | ok s' =>
      rw [hDeclare] at h
      obtain ⟨n, hn, hBefore, hRefused⟩ := ih h
      exact ⟨n + 1, by simpa using hn, by simpa [collectWith, hDeclare] using hBefore,
        by simpa [collectWith, hDeclare] using hRefused⟩

theorem collectWith_keeps {P : σ → Prop} (hStep : ∀ s decl s', declare s decl = .ok s' → P s → P s') {s : σ} (h : P s)
    (decls : List δ) : P (collectWith declare s decls).1 := by
  induction decls generalizing s with
  | nil => exact h
  | cons decl rest ih =>
    rw [collectWith]
    cases hDeclare : declare s decl with
    | error e => exact h
    | ok s' => exact ih (hStep s decl s' hDeclare h)

end Declaring

/-! ## Components and bindings -/

/-- No declaration repeats a name in itself, and no two have one name. -/
structure ComponentDecl.Together (decls : List ComponentDecl) : Prop where
  distinct : ∀ decl ∈ decls, decl.Distinct
  names : (decls.map fun decl => decl.name.value).Nodup

def BindingDecl.Together (decls : List BindingDecl) : Prop := (decls.map fun decl => decl.name.value).Nodup

namespace Registry

theorem collect_eq_collectWith (r : Registry) (decls : List ComponentDecl) :
    r.collect decls = collectWith declare r decls := by
  induction decls generalizing r with
  | nil => rfl
  | cons decl rest ih =>
    rw [collect, collectWith]
    cases r.declare decl <;> simp [ih]

theorem get?_of_declare {r r' : Registry} {decl : ComponentDecl} (h : r.declare decl = .ok r') {name : String}
    {c : Component} (hGet : r.get? name = some c) : r'.get? name = some c := by
  rw [declare] at h
  split at h
  · cases h
  · split at h
    · cases h
    · cases h
      rw [get?] at hGet
      rw [get?, List.find?_append, hGet, Option.some_or]

theorem unique_extend_empty_iff {decls : List ComponentDecl} :
    (empty.extend decls).Unique ↔ (decls.map fun decl => decl.name.value).Nodup := by
  rw [Unique, map_name_extend, empty, List.map_nil, List.nil_append]

theorem declaresTogether : DeclaresTogether declare empty.extend ComponentDecl.Together where
  accepts {earlier decl r} h hOk := by
    rcases declare_cases (unique_extend_empty_iff.mpr h.names) decl with
      ⟨hDistinct, hUnique, hDeclare⟩ | ⟨_, hDeclare, _⟩
    · rw [hOk] at hDeclare
      rw [extend_extend] at hUnique hDeclare
      have hAll : ∀ decl' ∈ earlier ++ [decl], decl'.Distinct := by
        simpa [or_imp, forall_and] using ⟨h.distinct, hDistinct⟩
      exact ⟨Except.ok.inj hDeclare, hAll, unique_extend_empty_iff.mp hUnique⟩
    · simp [hOk] at hDeclare
  refuses {earlier decl e} h hError hTogether := by
    rcases declare_cases (unique_extend_empty_iff.mpr h.names) decl with ⟨_, _, hDeclare⟩ | ⟨_, _, hRepeats⟩
    · simp [hError] at hDeclare
    · have hNames := hTogether.names
      rw [List.map_append, List.map_singleton] at hNames
      have hNew : decl.name.value ∉ (empty.extend earlier).components.map Component.name := by
        rw [map_name_extend]
        intro hMem
        exact (List.nodup_append.mp hNames).2.2 _ hMem _ (List.mem_singleton_self _) rfl
      exact hRepeats.not_distinct hNew (hTogether.distinct decl (by simp))

end Registry

namespace Scope

theorem collect_eq_collectWith (s : Scope) (decls : List BindingDecl) :
    s.collect decls = collectWith declare s decls := by
  induction decls generalizing s with
  | nil => rfl
  | cons decl rest ih =>
    rw [collect, collectWith]
    cases s.declare decl <;> simp [ih]

theorem get?_of_declare {s s' : Scope} {decl : BindingDecl} (h : s.declare decl = .ok s') {name : String}
    {t : TypeExpr} (hGet : s.get? name = some t) : s'.get? name = some t := by
  rw [declare] at h
  split at h
  · cases h
  · cases h
    rw [get?] at hGet
    rw [get?, List.lookup_append, hGet, Option.some_or]

theorem unique_extend_empty_iff {decls : List BindingDecl} :
    (empty.extend decls).Unique ↔ BindingDecl.Together decls := by
  rw [Unique, map_fst_extend, empty, List.map_nil, List.nil_append, BindingDecl.Together]

theorem declaresTogether : DeclaresTogether declare empty.extend BindingDecl.Together where
  accepts {earlier decl s} h hOk := by
    rcases declare_cases (unique_extend_empty_iff.mpr h) decl with ⟨hUnique, hDeclare⟩ | ⟨_, hDeclare, _⟩
    · rw [hOk] at hDeclare
      rw [extend_extend] at hUnique hDeclare
      exact ⟨Except.ok.inj hDeclare, unique_extend_empty_iff.mp hUnique⟩
    · simp [hOk] at hDeclare
  refuses {earlier decl e} h hError hTogether := by
    rcases declare_cases (unique_extend_empty_iff.mpr h) decl with ⟨_, hDeclare⟩ | ⟨_, _, hRepeats⟩
    · simp [hError] at hDeclare
    · cases hRepeats with
      | binding hMem =>
        rw [map_fst_extend] at hMem
        rw [BindingDecl.Together, List.map_append, List.map_singleton] at hTogether
        exact (List.nodup_append.mp hTogether).2.2 _ hMem _ (List.mem_singleton_self _) rfl

end Scope

/-! ## Runs -/

/-- One collection: of the components or of the bindings that a document declares. -/
inductive Collection where
  | components (d : Document)
  | bindings (d : Document)

namespace Collection

def size : Collection → Nat
  | components d => d.components.length
  | bindings d => d.bindings.length

theorem components_map_component (decls : List ComponentDecl) :
    Document.components ⟨decls.map .component⟩ = decls := by
  simp [Document.components, List.filterMap_map]

theorem bindings_map_binding (decls : List BindingDecl) : Document.bindings ⟨decls.map .binding⟩ = decls := by
  simp [Document.bindings, List.filterMap_map]

def first (n : Nat) : Collection → Collection
  | components d => components ⟨(d.components.take n).map .component⟩
  | bindings d => bindings ⟨(d.bindings.take n).map .binding⟩

end Collection

namespace Declarations

/-- What is declared after a collection, with the error that ends one that fails. -/
def collect (ds : Declarations) : Collection → Declarations × Option DeclarationError
  | .components d => (⟨(ds.registry.collect d.components).1, ds.scope⟩, (ds.registry.collect d.components).2)
  | .bindings d => (⟨ds.registry, (ds.scope.collect d.bindings).1⟩, (ds.scope.collect d.bindings).2)

theorem collect_components (ds : Declarations) (d : Document) :
    ds.collect (.components d) = (⟨(collectWith Registry.declare ds.registry d.components).1, ds.scope⟩,
      (collectWith Registry.declare ds.registry d.components).2) := by
  rw [collect, Registry.collect_eq_collectWith]

theorem collect_bindings (ds : Declarations) (d : Document) :
    ds.collect (.bindings d) = (⟨ds.registry, (collectWith Scope.declare ds.scope d.bindings).1⟩,
      (collectWith Scope.declare ds.scope d.bindings).2) := by
  rw [collect, Scope.collect_eq_collectWith]

def collectAll (ds : Declarations) (run : List Collection) : Declarations :=
  run.foldl (fun ds next => (ds.collect next).1) ds

theorem collectAll_concat (ds : Declarations) (run : List Collection) (next : Collection) :
    ds.collectAll (run ++ [next]) = ((ds.collectAll run).collect next).1 := by
  rw [collectAll, List.foldl_append]
  rfl

/-- In a run these components and these bindings are accepted, each in this order. -/
inductive Accepts : List Collection → List ComponentDecl → List BindingDecl → Prop
  | nil : Accepts [] [] []
  | components {run : List Collection} {cs own : List ComponentDecl} {bs : List BindingDecl} {d : Document}
      (h : Accepts run cs bs) (hOwn : AcceptedFrom ComponentDecl.Together cs d.components own) :
      Accepts (run ++ [.components d]) (cs ++ own) bs
  | bindings {run : List Collection} {cs : List ComponentDecl} {bs own : List BindingDecl} {d : Document}
      (h : Accepts run cs bs) (hOwn : AcceptedFrom BindingDecl.Together bs d.bindings own) :
      Accepts (run ++ [.bindings d]) cs (bs ++ own)

/-- Each name means what the first of these declarations of the name says, and nothing else is stored. -/
structure Records (ds : Declarations) (cs : List ComponentDecl) (bs : List BindingDecl) : Prop where
  filed : ∀ c ∈ ds.registry.components, ds.registry.get? c.name = some c
  distinct : ∀ c ∈ ds.registry.components, c.typeParams.Nodup ∧ (c.params.map Parameter.name).Nodup
  component (name : String) : ds.registry.get? name =
    (cs.find? fun decl => decl.name.value = name).map ComponentDecl.defined
  binding (name : String) : ds.scope.get? name =
    (bs.find? fun decl => decl.name.value = name).map fun decl => decl.type.value

theorem records_extend {cs : List ComponentDecl} (hComponents : ComponentDecl.Together cs) (bs : List BindingDecl) :
    Records ⟨Registry.empty.extend cs, Scope.empty.extend bs⟩ cs bs where
  filed c hc := (find?_key_eq_some_iff (Registry.unique_extend_empty_iff.mpr hComponents.names)).mpr ⟨hc, rfl⟩
  distinct c hc := by
    obtain ⟨decl, hDecl, rfl⟩ := List.mem_map.mp hc
    obtain ⟨hTypeParams, hParams⟩ := hComponents.distinct decl hDecl
    refine ⟨hTypeParams, ?_⟩
    rw [ComponentDecl.defined, List.map_map]
    exact hParams
  component name := List.find?_map
  binding name := by
    rw [Scope.get?_eq_find?, Scope.extend, Scope.empty, List.nil_append, List.find?_map, Option.map_map]
    rfl

theorem exists_accepts (run : List Collection) : ∃ cs bs, Accepts run cs bs ∧
    ComponentDecl.Together cs ∧ BindingDecl.Together bs ∧
    Declarations.empty.collectAll run = ⟨Registry.empty.extend cs, Scope.empty.extend bs⟩ := by
  induction run using List.reverseRecOn with
  | nil => exact ⟨[], [], .nil, ⟨nofun, List.nodup_nil⟩, List.nodup_nil, rfl⟩
  | append_singleton run next ih =>
    obtain ⟨cs, bs, hAccepts, hComponents, hBindings, hState⟩ := ih
    rw [collectAll_concat, hState]
    cases next with
    | components d =>
      obtain ⟨own, hOwn, hAccepted⟩ := exists_accepted Registry.declaresTogether hComponents d.components
      refine ⟨cs ++ own, bs, .components hAccepts hAccepted, hAccepted.together, hBindings, ?_⟩
      rw [collect_components, hOwn]
    | bindings d =>
      obtain ⟨own, hOwn, hAccepted⟩ := exists_accepted Scope.declaresTogether hBindings d.bindings
      refine ⟨cs, bs ++ own, .bindings hAccepts hAccepted, hComponents, hAccepted.together, ?_⟩
      rw [collect_bindings, hOwn]

structure KeptIn (ds ds' : Declarations) : Prop where
  component {name : String} {c : Component} (h : ds.registry.get? name = some c) : ds'.registry.get? name = some c
  binding {name : String} {t : TypeExpr} (h : ds.scope.get? name = some t) : ds'.scope.get? name = some t

theorem keptIn_collect (ds : Declarations) (next : Collection) : ds.KeptIn (ds.collect next).1 := by
  cases next with
  | components d =>
    refine ⟨fun {name c} h => ?_, id⟩
    rw [collect_components]
    exact collectWith_keeps (fun _ _ _ hOk hGet => Registry.get?_of_declare hOk hGet) h d.components
  | bindings d =>
    refine ⟨id, fun {name t} h => ?_⟩
    rw [collect_bindings]
    exact collectWith_keeps (fun _ _ _ hOk hGet => Scope.get?_of_declare hOk hGet) h d.bindings

theorem keptIn_collectAll (ds : Declarations) (run : List Collection) : ds.KeptIn (ds.collectAll run) := by
  induction run using List.reverseRecOn with
  | nil => exact ⟨id, id⟩
  | append_singleton run next ih =>
    rw [collectAll_concat]
    have hStep := (ds.collectAll run).keptIn_collect next
    exact ⟨hStep.component ∘ ih.component, hStep.binding ∘ ih.binding⟩

/-- A collection that fails leaves what its first declarations give, all of which are accepted; the one behind them
is refused. -/
theorem exists_first_of_refused {ds : Declarations} {next : Collection} {e : DeclarationError}
    (h : (ds.collect next).2 = some e) :
    ∃ n < next.size, ds.collect (next.first n) = ((ds.collect next).1, none) ∧
      ds.collect (next.first (n + 1)) = ((ds.collect next).1, some e) := by
  cases next with
  | components d =>
    rw [collect_components] at h ⊢
    obtain ⟨n, hn, hBefore, hRefused⟩ := exists_take_of_refused h
    refine ⟨n, hn, ?_, ?_⟩ <;> rw [Collection.first, collect_components, Collection.components_map_component]
    · rw [hBefore]
    · rw [hRefused]
  | bindings d =>
    rw [collect_bindings] at h ⊢
    obtain ⟨n, hn, hBefore, hRefused⟩ := exists_take_of_refused h
    refine ⟨n, hn, ?_, ?_⟩ <;> rw [Collection.first, collect_bindings, Collection.bindings_map_binding]
    · rw [hBefore]
    · rw [hRefused]

/-- After any run of collections, failing ones among them, a name means what the first accepted declaration of it
says and goes on meaning that; a collection that fails now leaves what its declarations before the one refused give. -/
theorem collectAll_records (run : List Collection) :
    (∃ cs bs, Accepts run cs bs ∧ (Declarations.empty.collectAll run).Records cs bs) ∧
    (∀ more, (Declarations.empty.collectAll run).KeptIn (Declarations.empty.collectAll (run ++ more))) ∧
    ∀ next e, ((Declarations.empty.collectAll run).collect next).2 = some e →
      ∃ n < next.size,
        (Declarations.empty.collectAll run).collect (next.first n) =
          (Declarations.empty.collectAll (run ++ [next]), none) ∧
        ((Declarations.empty.collectAll run).collect (next.first (n + 1))).2 = some e := by
  refine ⟨?_, ?_, ?_⟩
  · obtain ⟨cs, bs, hAccepts, hComponents, -, hState⟩ := exists_accepts run
    rw [hState]
    exact ⟨cs, bs, hAccepts, records_extend hComponents bs⟩
  · intro more
    rw [collectAll, collectAll, List.foldl_append]
    exact keptIn_collectAll _ more
  · intro next e hFails
    obtain ⟨n, hn, hBefore, hRefused⟩ := exists_first_of_refused hFails
    rw [collectAll_concat]
    exact ⟨n, hn, hBefore, by rw [hRefused]⟩

end Declarations

def bareComponent (name : String) : Item := .component ⟨⟨name, ⟨0, 0⟩⟩, [], [], ⟨0, 0⟩⟩

def bareComponents (names : List String) : Collection := .components ⟨names.map bareComponent⟩

/-- The second document repeats a name of the first between two new names, and the third has the last of them. -/
theorem collectAll_records_clash :
    (Declarations.empty.collectAll [bareComponents ["A", "B"], bareComponents ["C", "A", "D"],
      bareComponents ["D"]]).registry.components.map Component.name = ["A", "B", "C", "D"] ∧
    ∃ n < 3, (Declarations.empty.collectAll [bareComponents ["A", "B"]]).collect
        ((bareComponents ["C", "A", "D"]).first n) =
      (Declarations.empty.collectAll [bareComponents ["A", "B"], bareComponents ["C", "A", "D"]], none) := by
  obtain ⟨n, hn, hBefore, -⟩ := (Declarations.collectAll_records [bareComponents ["A", "B"]]).2.2
    (bareComponents ["C", "A", "D"]) (.component "A" ⟨0, 0⟩) (by decide)
  exact ⟨by decide, n, hn, hBefore⟩

end TypedMarkup
