import Formula.Proofs.Ledger

/-!
# What an insertion does to a cache

A cache never holds more entries than its limit allows, so that one that comes
in drives out at most one other.  `Inserts` spells out both cases, from which
everything else about insertions is read off.
-/

namespace Formula.Cache

variable {V : Type} {config : CacheConfig} {cache after : Cache V}
  {ledger : Ledger V} {key other : String} {value : V} {events : List Event}

/-- The cache when an entry has come in and none has gone out. -/
def extended (cache : Cache V) (key : String) (value : V) : Cache V :=
  { cache with
    entries := cache.entries.insert key value
    order := cache.order ++ [key] }

/-- The entry comes in behind all others.  If the cache is full, the oldest
entry goes out, which is reported and counted. -/
inductive Inserts (cache : Cache V) (key : String) (value : V) :
    Cache V → List Event → Prop where
  | added :
      cache.get? key = none →
      (0 < cache.config.maxEntries → cache.size < cache.config.maxEntries) →
      Inserts cache key value (cache.extended key value) []
  | displaced {oldest : String} {order : List String} :
      cache.get? key = none → cache.size = cache.config.maxEntries →
      cache.order = oldest :: order → oldest ≠ key →
      Inserts cache key value
        { cache with
          entries := (cache.entries.insert key value).erase oldest
          order := order ++ [key]
          evictions := cache.evictions + 1 }
        [.cacheEviction oldest]

theorem trim_of_le {limit : Nat} (fits : cache.size ≤ limit) :
    cache.trim limit = (cache, []) := by
  rw [size] at fits
  rw [trim, if_pos fits]

/-- The loop takes the oldest entry out if that is enough. -/
theorem trim_of_lt {limit : Nat} {oldest : String} {order : List String}
    (tooMany : limit < cache.size) (waiting : cache.order = oldest :: order)
    (enough : (cache.entries.erase oldest).size ≤ limit) :
    cache.trim limit =
      ({ cache with
          entries := cache.entries.erase oldest
          order
          evictions := cache.evictions + 1 },
        [.cacheEviction oldest]) := by
  rw [size] at tooMany
  rw [trim, if_neg (Nat.not_le_of_lt tooMany)]
  split
  · rename_i empty
    cases waiting.symm.trans empty
  · rename_i first rest waitingAlso
    cases waiting.symm.trans waitingAlso
    simp only
    rw [trim_of_le enough]

theorem add_eq (cache : Cache V) (key : String) (value : V) :
    cache.add key value =
      if 0 < cache.config.maxEntries then
        (cache.extended key value).trim cache.config.maxEntries
      else (cache.extended key value, []) := by
  unfold Cache.add
  simp only [CacheConfig.isBounded, decide_eq_true_eq]
  rfl

theorem size_extended (lists : cache.Lists ledger) (absent : key ∉ ledger.keys)
    (value : V) : (cache.extended key value).size = cache.size + 1 := by
  rw [size, extended, Std.TreeMap.size_insert, lists.contains_eq,
    if_neg (by simpa using absent)]
  rfl

theorem Keeps.inserts (keeps : Keeps config cache ledger)
    (absent : cache.get? key = none) (value : V) :
    Inserts cache key value (cache.add key value).1
      (cache.add key value).2 := by
  obtain rfl := keeps.configured
  have notListed : key ∉ ledger.keys := by
    apply Ledger.lookup_eq_none_iff.mp
    rw [← keeps.lists.entry]
    exact absent
  have longer := size_extended keeps.lists notListed value
  rw [add_eq]
  split_ifs with limited
  · have length : cache.size = ledger.length := keeps.lists.size
    have fits := keeps.bounded limited
    rw [← length] at fits
    rcases Nat.lt_or_eq_of_le fits with room | full
    · rw [trim_of_le (by omega)]
      exact .added absent fun _ => room
    · have listed := keeps.lists.order
      cases ledger with
      | nil =>
          rw [List.length_nil] at length
          omega
      | cons pair rest =>
          rw [Ledger.keys_cons] at listed notListed
          have different : pair.1 ≠ key := by
            rintro rfl
            exact notListed List.mem_cons_self
          have present :
              (cache.entries.insert key value).contains pair.1 = true := by
            rw [Std.TreeMap.contains_insert, keeps.lists.contains_eq]
            simp [Ledger.keys_cons]
          have enough :
              ((cache.extended key value).entries.erase pair.1).size ≤
                cache.config.maxEntries := by
            rw [size] at longer
            rw [Std.TreeMap.size_erase, extended, if_pos present]
            rw [extended] at longer
            omega
          have waiting : (cache.extended key value).order =
              pair.1 :: (Ledger.keys rest ++ [key]) := by
            rw [extended, listed]
            rfl
          rw [trim_of_lt (by omega) waiting enough]
          exact .displaced absent full listed different
  · exact .added absent fun bounded => absurd bounded limited

namespace Inserts

theorem absent (inserts : Inserts cache key value after events) :
    cache.get? key = none := by
  cases inserts <;> assumption

theorem get?_key (inserts : Inserts cache key value after events) :
    after.get? key = some value := by
  cases inserts with
  | added => simp [get?, extended]
  | displaced _ _ _ different =>
      simp [get?, different]

/-- Whatever does not go out stays as it was. -/
theorem get?_other (inserts : Inserts cache key value after events)
    (different : other ≠ key) (stays : .cacheEviction other ∉ events) :
    after.get? other = cache.get? other := by
  cases inserts with
  | added =>
    simp [get?, extended, Std.TreeMap.getElem?_insert, Ne.symm different]
  | displaced =>
      have notOldest := Ne.symm (by simpa using stays)
      simp [get?, Std.TreeMap.getElem?_erase, Std.TreeMap.getElem?_insert,
        Ne.symm different, notOldest]

end Inserts

end Formula.Cache
