import Formula.Proofs.Insertion
import Formula.Proofs.Passages

/-!
# The accounts of a cache

Each call is a hit or a miss, and each miss has its computation run to an end.
What a computation brings in is in the cache as long as nothing takes it out, so
that the counters can be set off against the entries.  The balance is drawn up
for a single moment and added up over the moments of a run.
-/

namespace Formula

@[simp] def Event.isEviction : Event → Bool
  | .cacheEviction _ => true
  | _ => false

/-- A call as its answer tells of it. -/
structure CacheCall (V E : Type) where
  result : Except E V
  /-- Whether its computation has run. -/
  ran : Bool

def CacheCall.failed {V E : Type} (call : CacheCall V E) : Bool :=
  !call.result.isOk

namespace CacheAnswer

variable {V E : Type}

mutual

/-- The calls that an answer tells of, nested ones included. -/
def calls : CacheAnswer V E → List (CacheCall V E)
  | .computed result none => [⟨result, false⟩]
  | .computed result (some answers) => ⟨result, true⟩ :: callsAll answers
  | _ => []

def callsAll : List (CacheAnswer V E) → List (CacheCall V E)
  | [] => []
  | answer :: rest => calls answer ++ callsAll rest

end

end CacheAnswer

namespace Moment

variable {V E : Type}

@[simp] def found : Moment V E → Nat
  | ⟨cache, .seek key⟩ => (cache.finds key).toNat
  | _ => 0

@[simp] def missed : Moment V E → Nat
  | ⟨cache, .seek key⟩ => (!cache.finds key).toNat
  | _ => 0

@[simp] def finished : Moment V E → Nat
  | ⟨_, .finish _ _⟩ => 1
  | _ => 0

@[simp] def failed : Moment V E → Nat
  | ⟨_, .finish _ ending⟩ => (!ending.isOk).toNat
  | _ => 0

/-- A value is computed, but its key has got an entry in the meantime. -/
@[simp] def late : Moment V E → Nat
  | ⟨cache, .finish key (.ok _)⟩ => (cache.contains key).toNat
  | _ => 0

def evicted (moment : Moment V E) : Nat :=
  moment.events.countP Event.isEviction

@[simp] def removed : Moment V E → Nat
  | ⟨cache, .remove key⟩ => (cache.contains key).toNat
  | _ => 0

/-- The number of entries that clearing drops. -/
@[simp] def dropped : Moment V E → Nat
  | ⟨cache, .clear⟩ => cache.size
  | _ => 0

/-- What is counted at some moments together. -/
def total (count : Moment V E → Nat) : List (Moment V E) → Nat
  | [] => 0
  | moment :: rest => count moment + total count rest

variable {count : Moment V E → Nat}

@[simp] theorem total_nil : total count [] = 0 :=
  rfl

@[simp] theorem total_cons (moment : Moment V E) (rest : List (Moment V E)) :
    total count (moment :: rest) = count moment + total count rest :=
  rfl

@[simp] theorem total_append (front back : List (Moment V E)) :
    total count (front ++ back) = total count front + total count back := by
  induction front with
  | nil => simp
  | cons moment front induction =>
      rw [List.cons_append, total_cons, total_cons, induction, Nat.add_assoc]

end Moment

namespace Cache

variable {V E : Type} {config : CacheConfig} {cache before after : Cache V}
  {ledger : Ledger V} {key : String} {value : V} {events : List Event}

/-! ### Calls and moments -/

/-- Calls and moments count the same things. -/
structure Tally (moments : List (Moment V E)) (calls : List (CacheCall V E)) :
    Prop where
  found : Moment.total Moment.found moments = calls.countP fun call => !call.ran
  missed : Moment.total Moment.missed moments = calls.countP CacheCall.ran
  finished : Moment.total Moment.finished moments = calls.countP CacheCall.ran
  failed : Moment.total Moment.failed moments = calls.countP CacheCall.failed

theorem Tally.nil : Tally ([] : List (Moment V E)) [] := by
  constructor <;> rfl

theorem Tally.append {front back : List (Moment V E)}
    {calls others : List (CacheCall V E)} (first : Tally front calls)
    (second : Tally back others) : Tally (front ++ back) (calls ++ others) := by
  constructor
  · rw [Moment.total_append, List.countP_append, first.found, second.found]
  · rw [Moment.total_append, List.countP_append, first.missed, second.missed]
  · rw [Moment.total_append, List.countP_append, first.finished,
      second.finished]
  · rw [Moment.total_append, List.countP_append, first.failed, second.failed]

theorem Tally.hit (found : cache.finds key = true) (value : V) :
    Tally [(⟨cache, .seek key⟩ : Moment V E)] [⟨.ok value, false⟩] := by
  constructor
  · simp [found]
  · simp [found]
  · rfl
  · rfl

theorem Tally.miss {middle : List (Moment V E)} {calls : List (CacheCall V E)}
    {result ending : Except E V} (during : Tally middle calls)
    (missing : cache.finds key = false) (same : result.isOk = ending.isOk)
    (later : Cache V) :
    Tally (⟨cache, .seek key⟩ :: (middle ++ [⟨later, .finish key ending⟩]))
      (⟨result, true⟩ :: calls) := by
  constructor
  · simp [missing, during.found]
  · simp [missing, during.missed, Nat.add_comm]
  · simp [during.finished]
  · rw [Moment.total_cons, Moment.total_append, during.failed, List.countP_cons]
    simp only [Moment.failed, CacheCall.failed, same, Moment.total_cons,
      Moment.total_nil, Nat.zero_add, Nat.add_zero]
    cases ending.isOk <;> rfl

theorem answer_of_missing (missing : cache.finds key = false)
    (nested : List (CacheStep V E)) (ending : Except E V) :
    ∃ result, result.isOk = ending.isOk ∧
      (cache.run (.compute key nested ending)).answer =
        .computed result (some (cache.countMiss.runAll nested).answer) := by
  cases enabled : cache.config.enabled with
  | false =>
      rw [run_compute_disabled enabled]
      exact ⟨ending, rfl, rfl⟩
  | true =>
      have absent := get?_eq_none_of_missing enabled missing
      cases ending with
      | error error =>
          rw [run_compute_failed enabled absent]
          exact ⟨.error error, rfl, rfl⟩
      | ok value =>
          rw [run_compute_completed enabled absent]
          refine ⟨_, ?_, rfl⟩
          rfl

mutual

theorem tally_run (cache : Cache V) (step : CacheStep V E) :
    Tally (cache.moments (cache.actions step))
      (cache.run step).answer.calls := by
  cases step with
  | compute key nested ending =>
      cases found : cache.finds key with
      | true =>
          obtain ⟨enabled, value, held⟩ := finds_eq_true_iff.mp found
          rw [run_compute_found enabled held, actions, if_pos found]
          exact .hit found value
      | false =>
          have during := tally_runAll cache.countMiss nested
          obtain ⟨result, same, answer⟩ := answer_of_missing found nested ending
          rw [answer, actions_compute found, moments, act_seek_missing found,
            moments_append]
          exact during.miss found same _
  | _ => constructor <;> rfl

/-- The answers of a run tell of the calls that its moments make up. -/
theorem tally_runAll (cache : Cache V) (steps : List (CacheStep V E)) :
    Tally (cache.history steps)
      (CacheAnswer.callsAll (cache.runAll steps).answer) := by
  cases steps with
  | nil => exact .nil
  | cons step rest =>
      have first := tally_run cache step
      have others := tally_runAll (cache.run step).cache rest
      rw [history, actionsAll, moments_append,
        ← (Performs.run cache step).leads]
      exact first.append others

end

/-! ### Counters and entries -/

/-- From one cache to another some moments have passed, which account for the
growth of the counters and for the entries. -/
structure Accounted (config : CacheConfig) (before after : Cache V)
    (moments : List (Moment V E)) : Prop where
  hits : after.hits = before.hits + .ofNat (Moment.total Moment.found moments)
  misses :
    after.misses = before.misses + .ofNat (Moment.total Moment.missed moments)
  evictions :
    after.evictions =
      before.evictions + .ofNat (Moment.total Moment.evicted moments)
  /-- What a computation brings in stays or goes out in one of three ways. -/
  entries : config.enabled = true →
    before.size + Moment.total Moment.finished moments =
      after.size + Moment.total Moment.evicted moments +
        Moment.total Moment.removed moments +
        Moment.total Moment.dropped moments +
        Moment.total Moment.failed moments + Moment.total Moment.late moments

namespace Accounted

theorem refl (cache : Cache V) :
    Accounted config cache cache ([] : List (Moment V E)) := by
  constructor <;> simp

theorem trans {middle : Cache V} {front back : List (Moment V E)}
    (first : Accounted config before middle front)
    (second : Accounted config middle after back) :
    Accounted config before after (front ++ back) := by
  constructor
  · rw [second.hits, first.hits, Moment.total_append, UInt64.ofNat_add,
      UInt64.add_assoc]
  · rw [second.misses, first.misses, Moment.total_append, UInt64.ofNat_add,
      UInt64.add_assoc]
  · rw [second.evictions, first.evictions, Moment.total_append,
      UInt64.ofNat_add, UInt64.add_assoc]
  · intro enabled
    have earlier := first.entries enabled
    have later := second.entries enabled
    simp only [Moment.total_append]
    omega

/-- A computation that ends without bringing anything in has failed or is
late. -/
theorem of_unchanged {ending : Except E V}
    (unchanged : cache.act (.finish key ending) = (cache, []))
    (refused : config.enabled = true →
      Moment.failed ⟨cache, .finish key ending⟩ +
        Moment.late ⟨cache, .finish key ending⟩ = 1) :
    Accounted config cache (cache.act (.finish key ending)).1
      [⟨cache, .finish key ending⟩] := by
  rw [unchanged]
  constructor
  · simp
  · simp
  · simp [Moment.evicted, Moment.events, unchanged]
  · intro enabled
    have one := refused enabled
    simp only [Moment.total_cons, Moment.total_nil, Moment.evicted,
      Moment.events, unchanged, List.countP_nil, Moment.finished,
      Moment.removed, Moment.dropped]
    omega

end Accounted

namespace Lists

theorem length_order (lists : cache.Lists ledger) :
    cache.order.length = cache.size := by
  rw [lists.order, Ledger.keys, List.length_map]
  exact lists.size.symm

theorem size_remove (lists : cache.Lists ledger) (key : String) :
    cache.size = (cache.remove key).2.size + (cache.contains key).toNat := by
  have before : cache.size = ledger.length := lists.size
  have after : (cache.remove key).2.size = (ledger.remove key).length :=
    (lists.remove key).size
  rw [before, after, contains, lists.contains_eq]
  by_cases present : key ∈ ledger.keys
  · have some := List.length_pos_of_mem present
    rw [Ledger.keys, List.length_map] at some
    rw [Ledger.length_remove lists.distinct present, decide_eq_true present]
    exact (Nat.sub_add_cancel some).symm
  · rw [Ledger.remove_of_notMem present, decide_eq_false present]
    rfl

end Lists

theorem counters_remove (cache : Cache V) (key : String) :
    (cache.remove key).2.hits = cache.hits ∧
      (cache.remove key).2.misses = cache.misses ∧
      (cache.remove key).2.evictions = cache.evictions := by
  unfold remove
  split <;> exact ⟨rfl, rfl, rfl⟩

namespace Inserts

theorem counters (inserts : Inserts cache key value after events) :
    after.hits = cache.hits ∧ after.misses = cache.misses ∧
      after.evictions =
        cache.evictions + .ofNat (events.countP Event.isEviction) := by
  cases inserts <;> simp [extended]

theorem evictions_of_room (inserts : Inserts cache key value after events)
    (lists : cache.Lists ledger)
    (room : cache.config.maxEntries = 0 ∨
      cache.size < cache.config.maxEntries) :
    after.evictions = cache.evictions := by
  cases inserts with
  | added => rfl
  | displaced _ full waiting =>
      have some := lists.length_order
      rw [waiting, List.length_cons] at some
      omega

theorem length_order (inserts : Inserts cache key value after events) :
    cache.order.length + 1 =
      after.order.length + events.countP Event.isEviction := by
  cases inserts with
  | added => simp [extended]
  | displaced _ _ waiting => simp [waiting]

end Inserts

namespace Keeps

/-- The value comes in, and each entry that goes out for it is reported. -/
theorem accounted_add (keeps : Keeps config cache ledger)
    (enabled : config.enabled = true) (absent : cache.get? key = none)
    (value : V) :
    Accounted config cache (cache.add key value).1
      [(⟨cache, .finish key (.ok value)⟩ : Moment V E)] := by
  have acts : cache.act (.finish key (.ok value) : CacheAction V E) =
      cache.add key value := by
    simp [Cache.act, keep_absent absent, keeps.configured, enabled]
  have inserts := keeps.inserts absent value
  obtain ⟨later, acted⟩ := keeps.act (.finish key (.ok value) : CacheAction V E)
  rw [acts] at acted
  obtain ⟨hits, misses, evictions⟩ := inserts.counters
  have sizes := inserts.length_order
  rw [keeps.lists.length_order, acted.lists.length_order] at sizes
  constructor
  · simpa using hits
  · simpa using misses
  · simpa [Moment.evicted, Moment.events, acts] using evictions
  · simpa [Moment.evicted, Moment.events, acts, contains_eq_isSome, absent,
      Except.isOk, Except.toBool] using fun _ => sizes

theorem accounted_finish (keeps : Keeps config cache ledger) (key : String)
    (ending : Except E V) :
    Accounted config cache (cache.act (.finish key ending)).1
      [⟨cache, .finish key ending⟩] := by
  cases ending with
  | error error =>
      apply Accounted.of_unchanged rfl
      intro _
      simp [Except.isOk, Except.toBool]
  | ok value =>
      cases enabled : config.enabled with
      | false =>
          apply Accounted.of_unchanged
          · simp [Cache.act, keeps.configured, enabled]
          · intro isEnabled
            cases enabled.symm.trans isEnabled
      | true =>
          cases found : cache.get? key with
          | some held =>
              apply Accounted.of_unchanged
              · simp [Cache.act, keep_present found, keeps.configured, enabled]
              · intro _
                simp [contains_eq_isSome, found, Except.isOk, Except.toBool]
          | none =>
              have accounted := keeps.accounted_add (E := E) enabled found value
              simpa [Cache.act, keep_absent found, keeps.configured, enabled]
                using accounted

/-- Every action but resetting the counters is accounted for. -/
theorem accounted_act (keeps : Keeps config cache ledger)
    (action : CacheAction V E) (counts : action ≠ .resetStats) :
    Accounted config cache (cache.act action).1 [⟨cache, action⟩] := by
  cases action with
  | seek key =>
      cases found : cache.finds key with
      | true =>
          constructor <;>
            simp [Cache.act, found, Cache.countHit, size, Moment.evicted,
              Moment.events]
      | false =>
          have silent :
              Moment.evicted (⟨cache, .seek key⟩ : Moment V E) = 0 := by
            simp [Moment.evicted, Moment.events, Cache.act, found]
          constructor <;> simp [Cache.act, found, Cache.countMiss, size, silent]
  | finish key ending => exact keeps.accounted_finish key ending
  | remove key =>
      obtain ⟨hits, misses, evictions⟩ := counters_remove cache key
      have sizes := keeps.lists.size_remove key
      constructor <;>
        simp [Cache.act, Moment.evicted, Moment.events, hits, misses, evictions,
          ← sizes]
  | clear =>
      constructor <;>
        simp [Cache.act, Cache.clear, size, Moment.evicted, Moment.events]
  | resetStats => exact absurd rfl counts

theorem accounted_perform (keeps : Keeps config cache ledger)
    (actions : List (CacheAction V E)) (counts : .resetStats ∉ actions) :
    Accounted config cache (cache.perform actions) (cache.moments actions) := by
  induction actions generalizing cache ledger with
  | nil => exact .refl cache
  | cons action actions induction =>
      rw [List.mem_cons, not_or] at counts
      obtain ⟨middle, acted⟩ := keeps.act action
      have first := keeps.accounted_act action (Ne.symm counts.1)
      exact first.trans (induction acted counts.2)

end Keeps

/-! ### Caches that are not enabled -/

/-- Nothing has ever been found, kept or dropped. -/
structure Idle (cache : Cache V) : Prop where
  hits : cache.hits = 0
  evictions : cache.evictions = 0
  size : cache.size = 0

namespace Keeps

theorem size_of_disabled (keeps : Keeps config cache ledger)
    (disabled : config.enabled = false) : cache.size = 0 := by
  rw [size, keeps.lists.size, keeps.disabled disabled]
  rfl

theorem idle_act (keeps : Keeps config cache ledger)
    (disabled : config.enabled = false) (idle : Idle cache)
    (action : CacheAction V E) : Idle (cache.act action).1 := by
  obtain ⟨hits, evictions, -⟩ := idle
  obtain ⟨later, acted⟩ := keeps.act action
  have size := acted.size_of_disabled disabled
  have isDisabled : cache.config.enabled = false := keeps.configured ▸ disabled
  cases action with
  | seek key =>
      have missing := finds_eq_false_of_disabled isDisabled key
      rw [act_seek_missing missing] at size ⊢
      exact ⟨hits, evictions, size⟩
  | finish key ending =>
      have unchanged : (cache.act (.finish key ending)).1 = cache := by
        cases ending <;> simp [Cache.act, isDisabled]
      rw [unchanged] at size ⊢
      exact ⟨hits, evictions, size⟩
  | remove key =>
      obtain ⟨sameHits, -, sameEvictions⟩ := counters_remove cache key
      exact ⟨sameHits.trans hits, sameEvictions.trans evictions, size⟩
  | clear => exact ⟨hits, evictions, size⟩
  | resetStats => exact ⟨rfl, rfl, size⟩

theorem idle_perform (keeps : Keeps config cache ledger)
    (disabled : config.enabled = false) (idle : Idle cache)
    (actions : List (CacheAction V E)) : Idle (cache.perform actions) := by
  induction actions generalizing cache ledger with
  | nil => exact idle
  | cons action actions induction =>
      obtain ⟨later, acted⟩ := keeps.act action
      exact induction acted (keeps.idle_act disabled idle action)

theorem idle_of_mem_trail {start : Cache V} {steps : List (CacheStep V E)}
    (keeps : Keeps config start ledger) (disabled : config.enabled = false)
    (idle : Idle start) (member : cache ∈ machine.trail start steps) :
    Idle cache := by
  obtain ⟨front, -, rfl⟩ := mem_trail_iff_reaches.mp member
  exact keeps.idle_perform disabled idle front

end Keeps

/-! ### The balance of a run -/

/-- The calls of a run, nested ones included. -/
def calls (start : Cache V) (steps : List (CacheStep V E)) :
    List (CacheCall V E) :=
  CacheAnswer.callsAll (start.runAll steps).answer

/-- The books of a cache after a run from a new one.  A computation that fails
is not late, whether or not its key has got an entry. -/
structure Balanced (start : Cache V) (steps : List (CacheStep V E)) : Prop where
  calls :
    (start.runAll steps).cache.hits.toNat +
        (start.runAll steps).cache.misses.toNat =
      (start.calls steps).length
  computations :
    (start.runAll steps).cache.misses.toNat =
      (start.calls steps).countP CacheCall.ran
  entries : start.config.enabled = true →
    (start.runAll steps).cache.misses.toNat =
      (start.calls steps).countP CacheCall.failed +
        Moment.total Moment.late (start.history steps) +
        ((start.runAll steps).cache.size +
          (start.runAll steps).cache.evictions.toNat +
          Moment.total Moment.removed (start.history steps) +
          Moment.total Moment.dropped (start.history steps))

/-- A counter shows what it has counted as long as that fits. -/
theorem toNat_of_counted {counter : UInt64} {count : Nat}
    (counted : counter = 0 + .ofNat count) (fits : count < UInt64.size) :
    counter.toNat = count := by
  rw [counted, UInt64.zero_add]
  exact UInt64.toNat_ofNat_of_lt fits

theorem length_calls (calls : List (CacheCall V E)) :
    calls.length =
      calls.countP (fun call => !call.ran) + calls.countP CacheCall.ran := by
  rw [Nat.add_comm, List.length_eq_countP_add_countP CacheCall.ran]
  simp

theorem Accounted.balanced {steps : List (CacheStep V E)}
    (accounted : Accounted config (Cache.empty config)
      ((Cache.empty config : Cache V).runAll steps).cache
      ((Cache.empty config).history steps))
    (hits : ((Cache.empty config : Cache V).calls steps).countP
      (fun call => !call.ran) < UInt64.size)
    (misses :
      ((Cache.empty config : Cache V).calls steps).countP CacheCall.ran <
        UInt64.size) :
    Balanced (Cache.empty config) steps := by
  obtain ⟨found, missed, finished, failed⟩ :=
    tally_runAll (Cache.empty config : Cache V) steps
  rw [← calls] at found missed finished failed
  rw [← found] at hits
  have countedHits := toNat_of_counted accounted.hits hits
  have countedMisses := toNat_of_counted accounted.misses (missed ▸ misses)
  rw [found] at countedHits
  rw [missed] at countedMisses
  constructor
  · rw [countedHits, countedMisses, ← length_calls]
  · exact countedMisses
  · intro enabled
    have entries := accounted.entries enabled
    have new : (Cache.empty config : Cache V).size = 0 := rfl
    rw [new, finished, failed] at entries
    -- each eviction makes room for the value of some computation
    have few :
        Moment.total Moment.evicted ((Cache.empty config).history steps) <
        UInt64.size := by
      omega
    rw [countedMisses, toNat_of_counted accounted.evictions few]
    omega

/-- In a run from a new cache each call is counted once, each miss has its
computation run, and each value that a computation brings in is in the cache or
has been evicted, removed or cleared; the moments that are counted for that are
those of the passages from one point of the run to the next.  At all points of
it a cache that is not enabled has found nothing, holds nothing and has dropped
nothing.  Resetting the counters leaves the entries as they are. -/
theorem accounts_balance (config : CacheConfig) (steps : List (CacheStep V E)) :
    (.resetStats ∉ (Cache.empty config : Cache V).actionsAll steps →
      ((Cache.empty config : Cache V).calls steps).countP
          (fun call => !call.ran) < UInt64.size →
      ((Cache.empty config : Cache V).calls steps).countP CacheCall.ran <
          UInt64.size →
      Balanced (Cache.empty config : Cache V) steps) ∧
    (Leads (Cache.empty config : Cache V) steps ∧
      ((Cache.empty config : Cache V).passagesAll steps).filterMap
          Passage.moment? =
        (Cache.empty config).history steps) ∧
    (config.enabled = false →
      (∀ cache ∈ machine.trail (Cache.empty config : Cache V) steps,
        Idle cache) ∧
      Idle ((Cache.empty config : Cache V).runAll steps).cache) ∧
    ∀ cache : Cache V,
      ∀ after, (cache.run (.resetStats : CacheStep V E)).cache = after →
        after.hits = 0 ∧ after.misses = 0 ∧ after.evictions = 0 ∧
          after.keys = cache.keys ∧ ∀ key, after.get? key = cache.get? key := by
  have start : Keeps config (Cache.empty config : Cache V) [] := .empty config
  have leads := leads_passagesAll (Cache.empty config : Cache V) steps
  refine ⟨?_, ⟨leads, moments_passagesAll _ steps⟩, ?_, ?_⟩
  · intro counts hits misses
    have accounted := start.accounted_perform _ counts
    rw [← (Performs.runAll _ steps).leads] at accounted
    exact accounted.balanced hits misses
  · intro disabled
    have idle : ∀ cache ∈ machine.trail (Cache.empty config : Cache V) steps,
        Idle cache :=
      fun _ => start.idle_of_mem_trail disabled ⟨rfl, rfl, rfl⟩
    refine ⟨idle, idle _ ?_⟩
    rw [← leads.sources]
    exact List.mem_append_right _ (List.mem_singleton.mpr rfl)
  · rintro cache after rfl
    exact ⟨rfl, rfl, rfl, rfl, fun _ => rfl⟩

/-- The first computation for `a` is late, as it has called for `a` itself.
Then `b` drives out `a`, is found, is removed, and `c` fails. -/
theorem accounts_balance_nested :
    Balanced (Cache.empty { maxEntries := 1 } : Cache Nat)
      ([.compute "a" [.compute "a" [] (.ok 1)] (.ok 2), .compute "b" [] (.ok 3),
        .compute "b" [] (.ok 4), .remove "b", .compute "c" [] (.error "none")] :
        List (CacheStep Nat String)) := by
  apply (accounts_balance { maxEntries := 1 } _).1
  · decide +kernel
  · decide +kernel
  · decide +kernel

end Cache

end Formula
