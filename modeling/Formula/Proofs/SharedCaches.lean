import Formula.Proofs.CachedExpressions

/-!
# The shared caches of a process

The shared cache of a type is created by its first use or by an initialisation,
whichever comes first.  From then on its configuration stays, and whatever is
asked of it is answered as if there were no cache.  An initialisation creates
each of the two that is missing; it is all or nothing only as long as no use has
created one of them alone.
-/

namespace Formula

/-- A faithful cache is one with its own configuration. -/
theorem ExpressionCache.IsFaithful.config_eq {type : ValueType}
    {config : CacheConfig} {cache : ExpressionCache type}
    (faithful : IsFaithful config cache) : cache.config = config := by
  obtain ⟨ledger, keeps, -⟩ := faithful
  exact keeps.configured

namespace SharedCaches

/-- What a process does with its shared caches. -/
inductive Use where
  | initialise (config : CacheConfig)
  /-- A call on the cache of a type, which the first call creates. -/
  | call (type : ValueType) (call : ExpressionCache.Call)
  /-- A written expression of a type is read. -/
  | read (type : ValueType) (text : String)

def after (caches : SharedCaches) : Use → SharedCaches
  | .initialise config => (caches.initialise config).2
  | .call type call =>
    caches.set type (some (ExpressionCache.call (caches.cache type) call).2)
  | .read type text => (Expression.ofText caches type text).2

def afterAll (caches : SharedCaches) (uses : List Use) : SharedCaches :=
  uses.foldl after caches

/-- Every cache that exists holds what its keys compile to. -/
def Faithful (caches : SharedCaches) : Prop :=
  ∀ type cache, caches.get type = some cache →
    ExpressionCache.IsFaithful cache.config cache

/-- Every entry of a cache is the expression that its key compiles to, whatever
the caches are otherwise. -/
def Honest (caches : SharedCaches) : Prop :=
  ∀ type key, ∀ expression ∈ (caches.cache type).get? key,
    Expression.ofSource type key = .ok expression

/-- Every cache that existed still does, with the same configuration. -/
def KeptBy (caches later : SharedCaches) : Prop :=
  ∀ type cache, caches.get type = some cache →
    ∃ kept, later.get type = some kept ∧ kept.config = cache.config

variable {caches : SharedCaches}

theorem KeptBy.refl (caches : SharedCaches) : KeptBy caches caches :=
  fun _ cache present => ⟨cache, present, rfl⟩

theorem KeptBy.trans {later last : SharedCaches} (first : KeptBy caches later)
    (second : KeptBy later last) : KeptBy caches last := by
  intro type cache present
  obtain ⟨kept, keptPresent, same⟩ := first type cache present
  obtain ⟨keptLonger, longerPresent, sameLonger⟩ := second type kept keptPresent
  exact ⟨keptLonger, longerPresent, sameLonger.trans same⟩

theorem get_initialise (caches : SharedCaches) (config : CacheConfig)
    (type : ValueType) :
    (caches.initialise config).2.get type =
      (caches.get type).or (some (Cache.empty config)) := by
  cases type <;> rfl

/-- Honest caches are not seen. -/
theorem Honest.answer (honest : caches.Honest) (type : ValueType)
    (source : String) :
    (caches.getOrCompile type source).1 = Expression.ofSource type source := by
  rcases ExpressionCache.answer_getOrCompile_cases (caches.cache type)
    source with
    ⟨expression, found, answered⟩ | compiled
  · exact answered.trans (honest type source expression found).symm
  · exact compiled

namespace Faithful

theorem fresh : Faithful fresh := by
  intro type cache present
  cases type <;> cases present

theorem cache (faithful : caches.Faithful) (type : ValueType) :
    ExpressionCache.IsFaithful (caches.cache type).config
      (caches.cache type) := by
  rw [SharedCaches.cache]
  cases present : caches.get type with
  | none => exact .empty type {}
  | some cache => exact faithful type cache present

/-- What one call does to the cache in use. -/
theorem set (faithful : caches.Faithful) (type : ValueType)
    {updated : ExpressionCache type}
    (stays : ExpressionCache.IsFaithful (caches.cache type).config updated) :
    Faithful (caches.set type (some updated)) ∧
      KeptBy caches (caches.set type (some updated)) := by
  have configured := stays.config_eq
  refine ⟨?_, ?_⟩
  · intro other cache present
    by_cases same : other = type
    · subst same
      rw [PerType.get_set_self] at present
      obtain rfl := Option.some.inj present
      rwa [configured]
    · rw [PerType.get_set_of_ne _ _ same] at present
      exact faithful other cache present
  · intro other cache present
    by_cases same : other = type
    · subst same
      refine ⟨updated, PerType.get_set_self _ _ _, ?_⟩
      rw [configured, SharedCaches.cache, present, Option.getD_some]
    · rw [PerType.get_set_of_ne _ _ same]
      exact ⟨cache, present, rfl⟩

theorem initialise (faithful : caches.Faithful) (config : CacheConfig) :
    (caches.initialise config).2.Faithful ∧
      KeptBy caches (caches.initialise config).2 := by
  refine ⟨?_, ?_⟩
  · intro type cache present
    rw [get_initialise] at present
    cases before : caches.get type with
    | none =>
        rw [before, Option.none_or] at present
        obtain rfl := Option.some.inj present
        exact .empty type config
    | some other =>
        rw [before, Option.some_or] at present
        obtain rfl := Option.some.inj present
        exact faithful type other before
  · intro type cache present
    rw [get_initialise, present]
    exact ⟨cache, rfl, rfl⟩

theorem getOrCompile (faithful : caches.Faithful) (type : ValueType)
    (source : String) :
    (caches.getOrCompile type source).2.1.Faithful ∧
      KeptBy caches (caches.getOrCompile type source).2.1 :=
  faithful.set type ((faithful.cache type).getOrCompile source)

theorem honest (faithful : caches.Faithful) : caches.Honest :=
  fun type => (faithful.cache type).get?

theorem read (faithful : caches.Faithful) (type : ValueType) (text : String) :
    (Expression.ofText caches type text).2.Faithful ∧
      KeptBy caches (Expression.ofText caches type text).2 := by
  cases leading : Json.leadingString? text with
  | none =>
      simp only [Expression.ofText, leading]
      exact ⟨faithful, .refl caches⟩
  | some found =>
      obtain ⟨source, rest⟩ := found
      have compiled := faithful.getOrCompile type source
      simp only [Expression.ofText, leading]
      generalize caches.getOrCompile type source = outcome at compiled ⊢
      obtain ⟨result, after, events⟩ := outcome
      cases result <;> exact compiled

theorem after (faithful : caches.Faithful) (use : Use) :
    (caches.after use).Faithful ∧ KeptBy caches (caches.after use) := by
  cases use with
  | initialise config => exact faithful.initialise config
  | call type call =>
    exact faithful.set type ((faithful.cache type).call call).2
  | read type text => exact faithful.read type text

theorem afterAll (faithful : caches.Faithful) (uses : List Use) :
    (caches.afterAll uses).Faithful ∧ KeptBy caches (caches.afterAll uses) := by
  induction uses generalizing caches with
  | nil => exact ⟨faithful, .refl caches⟩
  | cons use uses induction =>
      obtain ⟨afterFaithful, kept⟩ := faithful.after use
      obtain ⟨lastFaithful, keptLonger⟩ := induction afterFaithful
      exact ⟨lastFaithful, kept.trans keptLonger⟩

end Faithful

/-! ## Which caches exist -/

/-- The use creates the cache of a type unless it exists. -/
def Use.Creates (type : ValueType) : Use → Prop
  | .initialise _ => True
  | .call other _ => other = type
  | .read other text => other = type ∧ (Json.leadingString? text).isSome = true

theorem isSome_set (caches : SharedCaches) (type other : ValueType)
    (updated : ExpressionCache type) :
    (PerType.get (caches.set type (some updated)) other).isSome = true ↔
      (caches.get other).isSome = true ∨ type = other := by
  by_cases same : other = type
  · subst same
    simp [PerType.get_set_self]
  · simp [PerType.get_set_of_ne _ _ same, Ne.symm same]

theorem isSome_ofText (caches : SharedCaches) (type other : ValueType)
    (text : String) :
    ((Expression.ofText caches type text).2.get other).isSome = true ↔
      (caches.get other).isSome = true ∨
        type = other ∧ (Json.leadingString? text).isSome = true := by
  cases leading : Json.leadingString? text with
  | none => simp [Expression.ofText, leading]
  | some found =>
      obtain ⟨source, rest⟩ := found
      have created := isSome_set caches type other
        ((caches.cache type).getOrCompile source).cache
      simp only [Expression.ofText, leading, getOrCompile, Option.isSome_some,
        and_true]
      cases ((caches.cache type).getOrCompile source).answer <;> exact created

theorem isSome_after (caches : SharedCaches) (use : Use) (type : ValueType) :
    ((caches.after use).get type).isSome = true ↔
      (caches.get type).isSome = true ∨ use.Creates type := by
  cases use with
  | initialise config =>
      rw [after, get_initialise]
      cases caches.get type <;> simp [Use.Creates]
  | call other call => exact isSome_set caches other type _
  | read other text => exact isSome_ofText caches other type text

theorem isSome_afterAll (caches : SharedCaches) (uses : List Use)
    (type : ValueType) :
    ((caches.afterAll uses).get type).isSome = true ↔
      (caches.get type).isSome = true ∨ ∃ use ∈ uses, use.Creates type := by
  induction uses generalizing caches with
  | nil => simp [afterAll]
  | cons use uses induction =>
      have rest := induction (caches.after use)
      rw [isSome_after] at rest
      simpa [afterAll, or_assoc] using rest

theorem isSome_afterAll_fresh (uses : List Use) (type : ValueType) :
    ((fresh.afterAll uses).get type).isSome = true ↔
      ∃ use ∈ uses, use.Creates type := by
  have created := isSome_afterAll fresh uses type
  cases type <;> simpa [fresh, PerType.get] using created

/-! ## Initialising -/

/-- Initialising finds no cache and leaves two empty ones with the given
configuration, or it says that it has done nothing and changes nothing. -/
structure AllOrNothing (caches : SharedCaches) (config : CacheConfig) :
    Prop where
  done : (caches.initialise config).1 = true →
    caches = fresh ∧
      (caches.initialise config).2 =
        ⟨some (Cache.empty config), some (Cache.empty config)⟩
  refused : (caches.initialise config).1 = false →
    (caches.initialise config).2 = caches

theorem allOrNothing_iff (caches : SharedCaches) (config : CacheConfig) :
    AllOrNothing caches config ↔
      (caches.integer.isSome = true ↔ caches.boolean.isSome = true) := by
  obtain ⟨integer, boolean⟩ := caches
  cases integer with
  | none =>
      cases boolean with
      | none =>
          refine ⟨fun _ => Iff.rfl, fun _ => ⟨fun _ => ⟨rfl, rfl⟩, ?_⟩⟩
          intro refused
          cases refused
      | some cache =>
          -- the integer cache is created although the answer is no
          refine ⟨fun whole => ?_, fun paired => ?_⟩
          · cases whole.refused rfl
          · cases paired.mpr rfl
  | some cache =>
      cases boolean with
      | none =>
          refine ⟨fun whole => ?_, fun paired => ?_⟩
          · cases whole.refused rfl
          · cases paired.mp rfl
      | some other =>
          refine ⟨fun _ => Iff.rfl, fun _ => ⟨?_, fun _ => rfl⟩⟩
          intro done
          cases done

/-- Initialising after some uses is all or nothing exactly if the uses have
created both caches or none.  In any case, from then on every cache that exists
keeps its configuration. -/
theorem initialise_allOrNothing_iff (uses : List Use) (config : CacheConfig) :
    (AllOrNothing (fresh.afterAll uses) config ↔
      ((∃ use ∈ uses, use.Creates .integer) ↔
        ∃ use ∈ uses, use.Creates .boolean)) ∧
    ∀ later, KeptBy (fresh.afterAll uses)
      ((fresh.afterAll uses).afterAll later) := by
  have faithful := (Faithful.fresh.afterAll uses).1
  refine ⟨?_, fun later => (faithful.afterAll later).2⟩
  rw [allOrNothing_iff, ← isSome_afterAll_fresh, ← isSome_afterAll_fresh]
  rfl

/-- After the boolean cache has been used, initialising says that it has done
nothing, and yet it creates the integer cache. -/
theorem initialise_after_boolean_use :
    (fresh.afterAll [.call .boolean (.compile "true")]).integer = none ∧
    ((fresh.afterAll [.call .boolean (.compile "true")]).initialise
      { enabled := true, maxEntries := 2 }).1 = false ∧
    ((fresh.afterAll [.call .boolean (.compile "true")]).initialise
      { enabled := true, maxEntries := 2 }).2.integer =
        some (Cache.empty { enabled := true, maxEntries := 2 }) ∧
    ¬ ∀ uses config, AllOrNothing (fresh.afterAll uses) config := by
  refine ⟨rfl, rfl, rfl, ?_⟩
  intro always
  have whole := always [.call .boolean (.compile "true")]
    { enabled := true, maxEntries := 2 }
  cases whole.refused rfl

end SharedCaches

end Formula
