import Formula.Cache.Basic
import Mathlib.Data.List.Nodup

/-!
# A cache as a list of pairs

`Ledger` is what a cache is to its users: the pairs of its keys and values in
the order in which they came.  `Cache.Lists` says that the map and the order of
a cache hold such a list together, and each operation on a cache is shown to do
what its counterpart does to the list.
-/

namespace Formula

/-- Keys with their values, the oldest pair first. -/
abbrev Ledger (V : Type) := List (String × V)

namespace Ledger

variable {V : Type}

def keys (ledger : Ledger V) : List String := ledger.map Prod.fst

def remove (ledger : Ledger V) (key : String) : Ledger V :=
  ledger.filter fun pair => pair.1 != key

/-- The pair goes to the end, and the first one is dropped if the list becomes
longer than a limit allows. -/
def insert (config : CacheConfig) (ledger : Ledger V) (key : String)
    (value : V) : Ledger V :=
  let longer := ledger ++ [(key, value)]
  if 0 < config.maxEntries ∧ config.maxEntries < longer.length then longer.tail
  else longer

/-- Whether a call for a key finds its value. -/
def finds (config : CacheConfig) (ledger : Ledger V) (key : String) : Bool :=
  config.enabled && decide (key ∈ ledger.keys)

/-- The list after a computation for a key, which may have got a pair while the
value was computed. -/
def completed {E : Type} (config : CacheConfig) (ledger : Ledger V)
    (key : String) : Except E V → Ledger V
  | .error _ => ledger
  | .ok value =>
    if config.enabled = true ∧ key ∉ ledger.keys then
      ledger.insert config key value
    else ledger

variable {ledger : Ledger V} {key : String} {value : V}

theorem completed_eq_self {E : Type} {config : CacheConfig}
    (refused : config.enabled = false ∨ key ∈ ledger.keys)
    (ending : Except E V) :
    ledger.completed config key ending = ledger := by
  cases ending with
  | error error => rfl
  | ok value =>
      apply if_neg
      rintro ⟨enabled, absent⟩
      rcases refused with disabled | present
      · cases disabled.symm.trans enabled
      · exact absent present

theorem completed_ok {E : Type} {config : CacheConfig}
    (enabled : config.enabled = true) (absent : key ∉ ledger.keys) (value : V) :
    ledger.completed config key (.ok value : Except E V) =
      ledger.insert config key value :=
  if_pos ⟨enabled, absent⟩

theorem length_insert_le {config : CacheConfig}
    (limited : 0 < config.maxEntries)
    (fits : ledger.length ≤ config.maxEntries) :
    (ledger.insert config key value).length ≤ config.maxEntries := by
  simp only [insert]
  split_ifs with tooLong
  · simpa using fits
  · simp only [limited, true_and, Nat.not_lt] at tooLong
    exact tooLong

/-- Nothing is dropped while there is room. -/
theorem insert_of_room {config : CacheConfig}
    (room : config.maxEntries = 0 ∨ ledger.length < config.maxEntries) :
    ledger.insert config key value = ledger ++ [(key, value)] := by
  apply if_neg
  rintro ⟨limited, tooLong⟩
  rw [List.length_append, List.length_singleton] at tooLong
  omega

theorem keys_cons (pair : String × V) (ledger : Ledger V) :
    Ledger.keys (pair :: ledger) = pair.1 :: ledger.keys :=
  rfl

theorem lookup_cons (pair : String × V) (ledger : Ledger V) (key : String) :
    List.lookup key (pair :: ledger) =
      if pair.1 = key then some pair.2 else ledger.lookup key := by
  by_cases same : pair.1 = key
  · subst same
    rw [if_pos rfl, List.lookup_cons, beq_self_eq_true]
  · have different : (key == pair.1) = false :=
      beq_eq_false_iff_ne.mpr (Ne.symm same)
    rw [if_neg same, List.lookup_cons, different]

theorem lookup_eq_none_iff : ledger.lookup key = none ↔ key ∉ ledger.keys := by
  induction ledger with
  | nil => simp [keys]
  | cons pair ledger induction =>
      rw [lookup_cons, keys_cons, List.mem_cons, not_or, ← induction]
      by_cases same : pair.1 = key
      · simp [same]
      · simp [same, Ne.symm same]

theorem mem_keys_of_lookup (found : ledger.lookup key = some value) :
    key ∈ ledger.keys := by
  by_contra absent
  cases found.symm.trans (lookup_eq_none_iff.mpr absent)

theorem lookup_remove (ledger : Ledger V) (key other : String) :
    (ledger.remove key).lookup other =
      if key = other then none else ledger.lookup other := by
  induction ledger with
  | nil => simp [remove]
  | cons pair ledger induction =>
      rw [remove] at induction ⊢
      by_cases dropped : pair.1 = key
      · rw [List.filter_cons_of_neg (by simp [dropped]), induction, lookup_cons,
          dropped]
        by_cases same : key = other <;> simp [same]
      · rw [List.filter_cons_of_pos (by simp [dropped]), lookup_cons,
          lookup_cons, induction]
        by_cases same : key = other
        · simp [← same, dropped]
        · simp [same]

theorem keys_remove (ledger : Ledger V) (key : String) :
    (ledger.remove key).keys = ledger.keys.filter (· != key) := by
  rw [keys, keys, remove, List.filter_map]
  rfl

theorem remove_of_notMem (absent : key ∉ ledger.keys) :
    ledger.remove key = ledger := by
  apply List.filter_eq_self.mpr
  intro pair member
  rw [bne_iff_ne]
  rintro rfl
  exact absent (List.mem_map_of_mem member)

/-- Removing the key of the first pair leaves the other pairs. -/
theorem remove_cons (distinct : Ledger.keys ((key, value) :: ledger) |>.Nodup) :
    remove ((key, value) :: ledger) key = ledger := by
  have absent : key ∉ ledger.keys := (List.nodup_cons.mp distinct).1
  rw [remove, List.filter_cons_of_neg (by simp)]
  exact remove_of_notMem absent

theorem length_remove (distinct : ledger.keys.Nodup)
    (present : key ∈ ledger.keys) :
    (ledger.remove key).length = ledger.length - 1 := by
  have erased : ledger.keys.filter (· != key) = ledger.keys.erase key :=
    (distinct.erase_eq_filter key).symm
  have lengths := congrArg List.length erased
  rw [← keys_remove, List.length_erase_of_mem present] at lengths
  simpa [keys] using lengths

end Ledger

namespace Cache

variable {V : Type} {cache : Cache V} {ledger : Ledger V} {key : String}
  {value : V}

/-- Whether a call for a key finds its value. -/
def finds (cache : Cache V) (key : String) : Bool :=
  cache.config.enabled && cache.contains key

/-- The map and the order of the cache hold the pairs of the list. -/
structure Lists (cache : Cache V) (ledger : Ledger V) : Prop where
  order : cache.order = ledger.keys
  entry : ∀ key, cache.entries[key]? = ledger.lookup key
  size : cache.entries.size = ledger.length
  distinct : ledger.keys.Nodup

namespace Lists

theorem nil (entries : cache.entries = {}) (order : cache.order = []) :
    cache.Lists [] where
  order := order
  entry := by
    intro key
    rw [entries]
    exact Std.TreeMap.getElem?_emptyc
  size := by
    rw [entries]
    rfl
  distinct := List.nodup_nil

/-- The counters have no part in what a cache holds. -/
theorem of_same {other : Cache V} (lists : cache.Lists ledger)
    (entries : other.entries = cache.entries)
    (order : other.order = cache.order) : other.Lists ledger where
  order := order.trans lists.order
  entry := by
    rw [entries]
    exact lists.entry
  size := by
    rw [entries]
    exact lists.size
  distinct := lists.distinct

theorem contains_eq (lists : cache.Lists ledger) (key : String) :
    cache.entries.contains key = decide (key ∈ ledger.keys) := by
  rw [Std.TreeMap.contains_eq_isSome_getElem?, lists.entry]
  cases found : ledger.lookup key with
  | none => simpa using Ledger.lookup_eq_none_iff.mp found
  | some value => simpa using Ledger.mem_keys_of_lookup found

theorem erase (lists : cache.Lists ledger) (present : key ∈ ledger.keys)
    {other : Cache V} (entries : other.entries = cache.entries.erase key)
    (order : other.order = cache.order.filter (· != key)) :
    other.Lists (ledger.remove key) where
  order := by
    rw [order, lists.order, Ledger.keys_remove]
  entry := by
    intro wanted
    rw [entries, Std.TreeMap.getElem?_erase, lists.entry, Ledger.lookup_remove]
    simp
  size := by
    rw [entries, Std.TreeMap.size_erase, lists.contains_eq, lists.size,
      Ledger.length_remove lists.distinct present]
    simp [present]
  distinct := by
    rw [Ledger.keys_remove]
    exact lists.distinct.filter _

theorem insert (lists : cache.Lists ledger) (absent : key ∉ ledger.keys)
    {other : Cache V} (entries : other.entries = cache.entries.insert key value)
    (order : other.order = cache.order ++ [key]) :
    other.Lists (ledger ++ [(key, value)]) where
  order := by
    rw [order, lists.order, Ledger.keys, Ledger.keys, List.map_append]
    rfl
  entry := by
    intro wanted
    rw [entries, Std.TreeMap.getElem?_insert, lists.entry, List.lookup_append,
      Ledger.lookup_cons]
    by_cases same : key = wanted
    · rw [← same, Ledger.lookup_eq_none_iff.mpr absent]
      simp
    · simp [same]
  size := by
    rw [entries, Std.TreeMap.size_insert, lists.contains_eq, lists.size]
    simp [absent]
  distinct := by
    rw [Ledger.keys, List.map_append]
    apply lists.distinct.append (List.nodup_singleton key)
    simpa using absent

theorem remove (lists : cache.Lists ledger) (key : String) :
    (cache.remove key).2.Lists (ledger.remove key) := by
  have entry := lists.entry key
  unfold Cache.remove
  cases found : cache.entries[key]? with
  | none =>
      rw [found] at entry
      rw [Ledger.remove_of_notMem (Ledger.lookup_eq_none_iff.mp entry.symm)]
      exact lists
  | some value =>
      rw [found] at entry
      exact lists.erase (Ledger.mem_keys_of_lookup entry.symm) rfl rfl

/-- The loop drops as many of the oldest pairs as are too many. -/
theorem trim (limit : Nat) (lists : cache.Lists ledger) :
    (cache.trim limit).1.Lists (ledger.drop (ledger.length - limit)) := by
  induction ledger generalizing cache with
  | nil =>
      have fits : cache.entries.size ≤ limit := by
        rw [lists.size]
        exact Nat.zero_le limit
      rw [Cache.trim, if_pos fits, List.drop_nil]
      exact lists
  | cons pair ledger induction =>
      rw [Cache.trim]
      by_cases fits : cache.entries.size ≤ limit
      · rw [if_pos fits]
        rw [lists.size] at fits
        rw [Nat.sub_eq_zero_of_le fits]
        exact lists
      · rw [if_neg fits]
        rw [lists.size, List.length_cons] at fits
        split
        · rename_i atEnd
          cases atEnd.symm.trans lists.order
        · rename_i oldest order atNext
          obtain ⟨rfl, rfl⟩ :=
            List.cons.inj (atNext.symm.trans lists.order)
          -- one pair is dropped here, and the rest has one less too many
          have later : limit ≤ ledger.length := by omega
          rw [List.length_cons, Nat.sub_add_comm later, List.drop_succ_cons]
          have others :
              Ledger.keys ledger = cache.order.filter (· != pair.1) := by
            rw [lists.order, ← Ledger.keys_remove,
              Ledger.remove_cons lists.distinct]
          have present : pair.1 ∈ Ledger.keys (pair :: ledger) :=
            List.mem_cons_self
          have popped : Cache.Lists
              { cache with
                entries := cache.entries.erase pair.1
                order := Ledger.keys ledger
                evictions := cache.evictions + 1 }
              (Ledger.remove (pair :: ledger) pair.1) :=
            lists.erase present rfl others
          rw [Ledger.remove_cons lists.distinct] at popped
          exact induction popped

/-- Adding a pair drops at most one, since there was no pair too many. -/
theorem add (lists : cache.Lists ledger) (absent : key ∉ ledger.keys)
    (value : V) (bounded : 0 < cache.config.maxEntries →
      ledger.length ≤ cache.config.maxEntries) :
    (cache.add key value).1.Lists (ledger.insert cache.config key value) := by
  have longer : Cache.Lists
      { cache with
        entries := cache.entries.insert key value
        order := cache.order ++ [key] }
      (ledger ++ [(key, value)]) :=
    lists.insert absent rfl rfl
  unfold Cache.add Ledger.insert
  simp only [CacheConfig.isBounded, decide_eq_true_eq]
  by_cases limited : 0 < cache.config.maxEntries
  · have fits := bounded limited
    have trimmed := longer.trim cache.config.maxEntries
    rw [if_pos limited]
    by_cases tooLong :
        cache.config.maxEntries < (ledger ++ [(key, value)]).length
    · have one :
          (ledger ++ [(key, value)]).length - cache.config.maxEntries = 1 := by
        rw [List.length_append, List.length_singleton] at tooLong ⊢
        omega
      rw [one, List.drop_one] at trimmed
      rw [if_pos ⟨limited, tooLong⟩]
      exact trimmed
    · rw [Nat.sub_eq_zero_of_le (Nat.le_of_not_lt tooLong)] at trimmed
      rw [if_neg (fun both => tooLong both.2)]
      exact trimmed
  · rw [if_neg limited, if_neg (fun both => limited both.1)]
    exact longer

end Lists

@[simp] theorem config_trim (limit : Nat) (cache : Cache V) :
    (cache.trim limit).1.config = cache.config := by
  fun_induction Cache.trim limit cache with
  | case1 => rfl
  | case2 => rfl
  | case3 cache _ oldest order _ after events trimmed induction =>
      rw [trimmed] at induction
      exact induction

@[simp] theorem config_add (cache : Cache V) (key : String) (value : V) :
    (cache.add key value).1.config = cache.config := by
  unfold Cache.add
  split
  · exact config_trim _ _
  · rfl

/-- A cache with a configuration holds the pairs of a list, which respects the
configuration. -/
structure Keeps (config : CacheConfig) (cache : Cache V) (ledger : Ledger V) :
    Prop where
  lists : cache.Lists ledger
  configured : cache.config = config
  bounded : 0 < config.maxEntries → ledger.length ≤ config.maxEntries
  disabled : config.enabled = false → ledger = []

namespace Keeps

variable {config : CacheConfig}

theorem empty (config : CacheConfig) :
    Keeps config (Cache.empty config : Cache V) [] where
  lists := .nil rfl rfl
  configured := rfl
  bounded := fun _ => Nat.zero_le _
  disabled := fun _ => rfl

theorem of_same {other : Cache V} (keeps : Keeps config cache ledger)
    (sameConfig : other.config = cache.config)
    (entries : other.entries = cache.entries)
    (order : other.order = cache.order) : Keeps config other ledger where
  lists := keeps.lists.of_same entries order
  configured := sameConfig.trans keeps.configured
  bounded := keeps.bounded
  disabled := keeps.disabled

theorem countHit (keeps : Keeps config cache ledger) :
    Keeps config cache.countHit ledger :=
  keeps.of_same rfl rfl rfl

theorem countMiss (keeps : Keeps config cache ledger) :
    Keeps config cache.countMiss ledger :=
  keeps.of_same rfl rfl rfl

theorem clear (keeps : Keeps config cache ledger) :
    Keeps config cache.clear [] where
  lists := .nil rfl rfl
  configured := keeps.configured
  bounded := fun _ => Nat.zero_le _
  disabled := fun _ => rfl

theorem remove (keeps : Keeps config cache ledger) (key : String) :
    Keeps config (cache.remove key).2 (ledger.remove key) where
  lists := keeps.lists.remove key
  configured := by
    rw [← keeps.configured, Cache.remove]
    split <;> rfl
  bounded := by
    intro limited
    exact Nat.le_trans (List.length_filter_le _ _) (keeps.bounded limited)
  disabled := by
    intro disabled
    rw [keeps.disabled disabled]
    rfl

theorem add (keeps : Keeps config cache ledger)
    (enabled : config.enabled = true) (absent : key ∉ ledger.keys) (value : V) :
    Keeps config (cache.add key value).1 (ledger.insert config key value) where
  lists := by
    obtain rfl := keeps.configured
    exact keeps.lists.add absent value keeps.bounded
  configured := by
    rw [config_add, keeps.configured]
  bounded := by
    intro limited
    exact Ledger.length_insert_le limited (keeps.bounded limited)
  disabled := by
    intro disabled
    cases disabled.symm.trans enabled

theorem finds_eq (keeps : Keeps config cache ledger) (key : String) :
    cache.finds key = ledger.finds config key := by
  rw [Cache.finds, Ledger.finds, Cache.contains, keeps.lists.contains_eq,
    keeps.configured]

theorem keep (keeps : Keeps config cache ledger)
    (enabled : config.enabled = true) {E : Type} (key : String) (value : V) :
    Keeps config (cache.keep key value).cache
      (ledger.completed config key (.ok value : Except E V)) := by
  have entry := keeps.lists.entry key
  unfold Cache.keep
  cases found : cache.entries[key]? with
  | some present =>
      rw [found] at entry
      have member := Ledger.mem_keys_of_lookup entry.symm
      rw [Ledger.completed_eq_self (.inr member)]
      exact keeps
  | none =>
      rw [found] at entry
      have absent := Ledger.lookup_eq_none_iff.mp entry.symm
      rw [Ledger.completed_ok enabled absent]
      exact keeps.add enabled absent value

/-- A call whose key is found changes nothing.  Any other call computes, and
what the computation did to the cache stays. -/
theorem getOrCompute {E R : Type}
    {compute : Cache V → Outcome V (Except E V × R)}
    {during : Ledger V} (keeps : Keeps config cache ledger) (key : String)
    (computed : Keeps config (compute cache.countMiss).cache during) :
    Keeps config (cache.getOrCompute key compute).cache
      (if ledger.finds config key then ledger
        else during.completed config key
          (compute cache.countMiss).answer.1) := by
  rw [← keeps.finds_eq, Cache.finds, Cache.contains,
    Std.TreeMap.contains_eq_isSome_getElem?, keeps.configured]
  unfold Cache.getOrCompute
  rw [keeps.configured]
  cases enabled : config.enabled with
  | false =>
      rw [Ledger.completed_eq_self (.inl enabled)]
      exact computed
  | true =>
      cases found : cache.entries[key]? with
      | some present => exact keeps.countHit
      | none =>
          generalize compute cache.countMiss = outcome at computed ⊢
          obtain ⟨⟨ending, record⟩, after, events⟩ := outcome
          cases ending with
          | error error => exact computed
          | ok value => exact computed.keep (E := E) enabled key value

end Keeps

end Cache

end Formula
