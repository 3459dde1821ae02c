import Formula.Proofs.Insertion
import Formula.Proofs.Passages

/-!
# Values that a cache holds

A value that a cache holds under a key is the first one that came in for it, and
stays until it is taken out.  So a call may find its key when its computation is
done, although it did not when it began; it then returns what is there.
`Settles` says for every such call what it returns and leaves behind.
-/

namespace Formula

/-- On the way the entry of a key is removed, cleared, or evicted for the value
of a computation that ends. -/
def Passage.Releases {V E : Type} (passage : Passage V E) (key : String) :
    Prop :=
  passage.action = some (.remove key) ∨ passage.action = some .clear ∨
    ∃ other value events, passage.action = some (.finish other (.ok value)) ∧
      Cache.Inserts passage.before other value passage.after events ∧
      .cacheEviction key ∈ events

namespace Cache

variable {V E : Type} {config : CacheConfig} {start cache : Cache V}
  {ledger : Ledger V} {key : String} {value : V}

/-- What a call comes to whose computation, if there is one, takes the nested
steps and then ends as given. -/
structure Settles (cache : Cache V) (key : String)
    (nested : List (CacheStep V E)) (ending : Except E V) : Prop where
  /-- What is returned is what the cache then holds. -/
  holds : ∀ value answers,
    (cache.run (.compute key nested ending)).answer =
        .computed (.ok value) answers →
      (cache.run (.compute key nested ending)).cache.get? key = some value
  /-- A value that the cache holds is found, which is counted and nothing
  else. -/
  hit : ∀ held, cache.get? key = some held →
    (cache.run (.compute key nested ending)).answer =
        .computed (.ok held) none ∧
      (cache.run (.compute key nested ending)).cache = cache.countHit ∧
      (cache.run (.compute key nested ending)).events = [.cacheHit key]
  /-- A computed value that comes too late is dropped, and nothing changes. -/
  late : ∀ value held, cache.get? key = none → ending = .ok value →
    (cache.countMiss.runAll nested).cache.get? key = some held →
      (cache.run (.compute key nested ending)).answer =
          .computed (.ok held) (some (cache.countMiss.runAll nested).answer) ∧
        (cache.run (.compute key nested ending)).cache =
          (cache.countMiss.runAll nested).cache
  /-- Any other one comes in, and at most the oldest entry goes out for it. -/
  inserts : ∀ value, cache.get? key = none → ending = .ok value →
    (cache.countMiss.runAll nested).cache.get? key = none →
      (cache.run (.compute key nested ending)).answer =
          .computed (.ok value) (some (cache.countMiss.runAll nested).answer) ∧
        ∃ events,
          (cache.run (.compute key nested ending)).events =
              .cacheMiss key :: (cache.countMiss.runAll nested).events ++
                events ∧
            Inserts (cache.countMiss.runAll nested).cache key value
              (cache.run (.compute key nested ending)).cache events
  /-- An error leaves the cache as the computation has left it. -/
  fails : ∀ error, cache.get? key = none → ending = .error error →
    (cache.run (.compute key nested ending)).answer =
        .computed (.error error) (some (cache.countMiss.runAll nested).answer) ∧
      (cache.run (.compute key nested ending)).cache =
        (cache.countMiss.runAll nested).cache

/-- From any point of a run to any later one a value stays where it is, unless
it is taken out in between. -/
def Stays (start : Cache V) (steps : List (CacheStep V E)) : Prop :=
  ∀ (earlier later : Nat) (before after : Cache V) (key : String) (value : V),
    earlier ≤ later →
    (machine.trail start steps)[earlier]? = some before →
    (machine.trail start steps)[later]? = some after →
    before.get? key = some value →
      after.get? key = some value ∨
        ∃ place passage, earlier ≤ place ∧ place < later ∧
          (start.passagesAll steps)[place]? = some passage ∧
            passage.Releases key

theorem Keeps.get?_keep (keeps : Keeps config cache ledger) (key : String)
    (value : V) :
    (cache.keep key value).cache.get? key =
      some (cache.keep key value).answer := by
  cases found : cache.get? key with
  | some held => rw [keep_present found, found]
  | none =>
      rw [keep_absent found]
      exact (keeps.inserts found value).get?_key

theorem Keeps.settles (keeps : Keeps config cache ledger)
    (enabled : config.enabled = true) (key : String)
    (nested : List (CacheStep V E)) (ending : Except E V) :
    Settles cache key nested ending := by
  have during := keeps.countMiss.runAll nested
  rw [← keeps.configured] at enabled
  constructor
  · intro value answers returned
    cases found : cache.get? key with
    | some held =>
        rw [run_compute_found enabled found] at returned ⊢
        cases returned
        exact found
    | none =>
        cases ending with
        | error error =>
            rw [run_compute_failed enabled found] at returned
            cases returned
        | ok computed =>
            rw [run_compute_completed enabled found] at returned ⊢
            cases returned
            exact during.get?_keep key computed
  · intro held found
    rw [run_compute_found enabled found]
    exact ⟨rfl, rfl, rfl⟩
  · rintro value held absent rfl present
    rw [run_compute_completed enabled absent, keep_present present]
    exact ⟨rfl, rfl⟩
  · rintro value absent rfl stillAbsent
    rw [run_compute_completed enabled absent, keep_absent stillAbsent]
    exact ⟨rfl, _, rfl, during.inserts stillAbsent value⟩
  · rintro error absent rfl
    rw [run_compute_failed enabled absent]
    exact ⟨rfl, rfl⟩

theorem get?_remove_of_ne {other : String} (different : other ≠ key) :
    (cache.remove other).2.get? key = cache.get? key := by
  unfold remove
  split
  · rfl
  · simp [get?, Std.TreeMap.getElem?_erase, different]

theorem Keeps.get?_act (keeps : Keeps config cache ledger)
    (held : cache.get? key = some value) (action : CacheAction V E) :
    (cache.act action).1.get? key = some value ∨
      Passage.Releases ⟨cache, some action, (cache.act action).1⟩ key := by
  cases action with
  | seek other =>
      rw [Cache.act]
      split <;> exact .inl held
  | finish other ending =>
      cases ending with
      | error error => exact .inl held
      | ok computed =>
          rw [Cache.act]
          split
          · cases found : cache.get? other with
            | some present =>
                rw [keep_present found]
                exact .inl held
            | none =>
                have inserts := keeps.inserts found computed
                have different : key ≠ other := by
                  rintro rfl
                  cases held.symm.trans found
                rw [keep_absent found]
                by_cases evicted :
                    .cacheEviction key ∈ (cache.add other computed).2
                · exact .inr (.inr (.inr ⟨_, _, _, rfl, inserts, evicted⟩))
                · left
                  rw [inserts.get?_other different evicted]
                  exact held
          · exact .inl held
  | remove other =>
      by_cases same : other = key
      · subst same
        exact .inr (.inl rfl)
      · left
        rw [Cache.act, get?_remove_of_ne same]
        exact held
  | clear => exact .inr (.inr (.inl rfl))
  | resetStats => exact .inl held

theorem Keeps.get?_passage {passage : Passage V E}
    (keeps : Keeps config passage.before ledger) (acts : passage.Acts)
    (held : passage.before.get? key = some value) :
    passage.after.get? key = some value ∨ passage.Releases key := by
  obtain ⟨before, action, after⟩ := passage
  cases action with
  | none =>
      obtain rfl : after = before := acts
      exact .inl held
  | some action =>
      obtain rfl : after = (before.act action).1 := acts
      exact keeps.get?_act held action

theorem Keeps.stays (keeps : Keeps config start ledger)
    (steps : List (CacheStep V E)) : Stays start steps := by
  intro earlier later before after key value order first last held
  obtain ⟨distance, rfl⟩ := Nat.exists_eq_add_of_le order
  induction distance generalizing after with
  | zero =>
      cases first.symm.trans last
      exact .inl held
  | succ distance induction =>
      obtain ⟨passage, found, between, rfl⟩ := exists_passage_before last
      rcases induction _ (Nat.le_add_right _ _) between with
        stays | ⟨place, other, behind, inFront, otherFound, released⟩
      · obtain ⟨_, kept⟩ := keeps.of_mem_trail (List.mem_of_getElem? between)
        have acts :=
          acts_passagesAll start steps passage (List.mem_of_getElem? found)
        rcases kept.get?_passage acts stays with same | releases
        · exact .inl same
        · exact .inr ⟨earlier + distance, passage, Nat.le_add_right _ _,
            Nat.lt_succ_self _, found, releases⟩
      · exact .inr ⟨place, other, behind, Nat.lt_succ_of_lt inFront, otherFound,
          released⟩

/-- Wherever in a run a call begins, it returns what the cache then holds; a hit
changes nothing but its counter, and a value that another one has come before is
dropped.  And from any point of the run to any later one a value stays, unless
it has been removed, cleared or evicted in between. -/
theorem first_value_stays (config : CacheConfig)
    (enabled : config.enabled = true) (steps : List (CacheStep V E)) :
    (∀ cache ∈ machine.trail (Cache.empty config : Cache V) steps,
      ∀ (key : String) (nested : List (CacheStep V E)) (ending : Except E V),
        Settles cache key nested ending) ∧
    Leads (Cache.empty config : Cache V) steps ∧
    Stays (Cache.empty config : Cache V) steps := by
  have start : Keeps config (Cache.empty config : Cache V) [] := .empty config
  refine ⟨?_, leads_passagesAll _ steps, start.stays steps⟩
  intro cache member key nested ending
  obtain ⟨ledger, keeps⟩ := start.of_mem_trail member
  exact keeps.settles enabled key nested ending

/-- The computation for `a` calls for `a` itself.  The value of that call comes
first and stays when the computation ends with another one. -/
theorem first_value_stays_nested :
    let steps : List (CacheStep Nat Empty) :=
      [.compute "a" [.compute "a" [] (.ok 1)] (.ok 2)]
    let points := machine.trail (Cache.empty {} : Cache Nat) steps
    ((Cache.empty {} : Cache Nat).run
        (.compute "a" [.compute "a" [] (.ok 1)] (.ok 2) :
          CacheStep Nat Empty)).answer =
      .computed (.ok 1) (some [.computed (.ok 1) (some [])]) ∧
    ∃ before after, points[3]? = some before ∧ before.get? "a" = some 1 ∧
      points[4]? = some after ∧ after.get? "a" = some 1 := by
  intro steps points
  obtain ⟨settles, leads, stays⟩ := first_value_stays {} rfl steps
  have start :
      (Cache.empty {} : Cache Nat) ∈ machine.trail (Cache.empty {}) steps := by
    rw [← leads.targets]
    exact List.mem_cons_self
  have outer := (settles _ start "a" [.compute "a" [] (.ok 1)] (.ok 2)).late 2 1
    rfl rfl (by decide +kernel)
  have held : (points[3]?.bind fun cache => cache.get? "a") = some 1 := by
    decide +kernel
  have reached : points[4]?.isSome = true := by decide +kernel
  obtain ⟨before, third, held⟩ := Option.bind_eq_some_iff.mp held
  obtain ⟨after, fourth⟩ := Option.isSome_iff_exists.mp reached
  refine ⟨outer.1, before, after, third, held, fourth, ?_⟩
  rcases stays 3 4 before after "a" 1 (by decide) third fourth held with
    same | ⟨place, passage, behind, inFront, found, released⟩
  · exact same
  · obtain rfl : place = 3 := by omega
    have passes : ((Cache.empty {} : Cache Nat).passagesAll steps)[3]?.map
        (fun passage => (passage.action, passage.before.get? "a")) =
          some (some (.finish "a" (.ok 2)), some 1) := by
      decide +kernel
    rw [found] at passes
    obtain ⟨action, present⟩ := Prod.mk.inj (Option.some.inj passes)
    rcases released with removed | cleared | ⟨_, _, _, ended, inserts, -⟩
    · cases action.symm.trans removed
    · cases action.symm.trans cleared
    · cases action.symm.trans ended
      cases present.symm.trans inserts.absent

end Cache

end Formula
