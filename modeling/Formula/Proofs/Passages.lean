import Formula.Proofs.CacheHistory

/-!
# From one point of a run to the next

Between two neighbouring points of a run at most one thing happens to the cache.
A passage names it, and has the caches of both points as the run has them.  What
actions do to caches is so carried over to the points of a run.
-/

namespace Formula

/-- The way from a point of a run to the next one. -/
structure Passage (V E : Type) where
  before : Cache V
  /-- What happens to the cache, if anything does. -/
  action : Option (CacheAction V E)
  after : Cache V

/-- What happens first in a step. -/
def CacheStep.action? {V E : Type} : CacheStep V E → Option (CacheAction V E)
  | .compute key _ _ => some (.seek key)
  | .remove key => some (.remove key)
  | .clear => some .clear
  | .resetStats => some .resetStats
  | .get _ | .contains _ | .isEmpty | .config | .describe => none

namespace Passage

variable {V E : Type}

/-- The moment at which something happens on the way. -/
def moment? (passage : Passage V E) : Option (Moment V E) :=
  passage.action.map fun action => ⟨passage.before, action⟩

/-- The cache has changed as the action says. -/
def Acts (passage : Passage V E) : Prop :=
  passage.after =
    passage.action.elim passage.before fun action =>
      (passage.before.act action).1

end Passage

namespace Cache

variable {V E : Type} {config : CacheConfig} {start cache : Cache V}
  {ledger : Ledger V} {steps : List (CacheStep V E)}

mutual

/-- The passages through a step.  If a computation runs they lead into it,
through its own steps, and out of it; otherwise there is one passage only. -/
def passages (cache : Cache V) : CacheStep V E → List (Passage V E)
  | .compute key nested ending =>
    let after := (cache.run (.compute key nested ending)).cache
    if cache.finds key then [⟨cache, some (.seek key), after⟩]
    else
      ⟨cache, some (.seek key), cache.countMiss⟩ ::
        (passagesAll cache.countMiss nested ++
          [⟨(cache.countMiss.runAll nested).cache, some (.finish key ending),
            after⟩])
  | step => [⟨cache, step.action?, (cache.run step).cache⟩]

def passagesAll (cache : Cache V) : List (CacheStep V E) → List (Passage V E)
  | [] => []
  | step :: rest =>
    passages cache step ++ passagesAll (cache.run step).cache rest

end

/-- The passages of a run lead from each of its points to the next one, and end
where the run does. -/
structure Leads (start : Cache V) (steps : List (CacheStep V E)) : Prop where
  sources :
    (start.passagesAll steps).map Passage.before ++
        [(start.runAll steps).cache] =
      machine.trail start steps
  targets :
    start :: (start.passagesAll steps).map Passage.after =
      machine.trail start steps

theorem passages_compute {key : String} {nested : List (CacheStep V E)}
    {ending : Except E V} (missing : cache.finds key = false) :
    cache.passages (.compute key nested ending) =
      ⟨cache, some (.seek key), cache.countMiss⟩ ::
        (cache.countMiss.passagesAll nested ++
          [⟨(cache.countMiss.runAll nested).cache, some (.finish key ending),
            (cache.run (.compute key nested ending)).cache⟩]) := by
  rw [passages, missing]
  rfl

theorem inside_compute {key : String} {nested : List (CacheStep V E)}
    {ending : Except E V} (missing : cache.finds key = false) :
    machine.inside cache (.compute key nested ending) =
      machine.trail cache.countMiss nested := by
  simp [CacheMachine.inside, machine, missing]

mutual

theorem leads_passages (cache : Cache V) (step : CacheStep V E) :
    (cache.passages step).map Passage.before =
        cache :: machine.inside cache step ∧
      (cache.passages step).map Passage.after =
        machine.inside cache step ++ [(cache.run step).cache] := by
  cases step with
  | compute key nested ending =>
      cases found : cache.finds key with
      | true => simp [passages, CacheMachine.inside, machine, found]
      | false =>
          obtain ⟨sources, targets⟩ := leads_passagesAll cache.countMiss nested
          rw [passages_compute found, inside_compute found]
          constructor
          · rw [← sources]
            simp
          · rw [← targets]
            simp
  | _ => exact ⟨rfl, rfl⟩

theorem leads_passagesAll (cache : Cache V) (steps : List (CacheStep V E)) :
    Leads cache steps := by
  cases steps with
  | nil => exact ⟨rfl, rfl⟩
  | cons step rest =>
      obtain ⟨firstSources, firstTargets⟩ := leads_passages cache step
      obtain ⟨sources, targets⟩ := leads_passagesAll (cache.run step).cache rest
      have after : machine.after cache step = (cache.run step).cache := rfl
      constructor
      · rw [passagesAll, List.map_append, firstSources,
          CacheMachine.trail, after, ← sources]
        simp [runAll]
      · rw [passagesAll, List.map_append, firstTargets,
          CacheMachine.trail, after, ← targets]
        simp

end

theorem acts_finish {key : String} {nested : List (CacheStep V E)}
    {ending : Except E V} (missing : cache.finds key = false) :
    (cache.run (.compute key nested ending)).cache =
      ((cache.countMiss.runAll nested).cache.act (.finish key ending)).1 := by
  have during := (Performs.runAll cache.countMiss nested).leads
  rw [(Performs.run cache _).leads, actions_compute missing, perform_cons,
    act_seek_missing missing, perform_append, ← during]
  rfl

mutual

theorem acts_passages (cache : Cache V) (step : CacheStep V E) :
    ∀ passage ∈ cache.passages step, passage.Acts := by
  cases step with
  | compute key nested ending =>
      cases found : cache.finds key with
      | true =>
          obtain ⟨enabled, value, held⟩ := finds_eq_true_iff.mp found
          rw [passages, if_pos found, List.forall_mem_singleton,
            run_compute_found enabled held]
          simp [Passage.Acts, act, found]
      | false =>
          have during := acts_passagesAll cache.countMiss nested
          rw [passages_compute found, List.forall_mem_cons,
            List.forall_mem_append, List.forall_mem_singleton]
          exact ⟨(act_seek_missing found).symm, during, acts_finish found⟩
  | _ => exact List.forall_mem_singleton.mpr rfl

/-- On each passage the cache changes as the action says. -/
theorem acts_passagesAll (cache : Cache V) (steps : List (CacheStep V E)) :
    ∀ passage ∈ cache.passagesAll steps, passage.Acts := by
  cases steps with
  | nil => exact List.forall_mem_nil _
  | cons step rest =>
      rw [passagesAll, List.forall_mem_append]
      exact ⟨acts_passages cache step, acts_passagesAll _ rest⟩

end

mutual

theorem moments_passages (cache : Cache V) (step : CacheStep V E) :
    (cache.passages step).filterMap Passage.moment? =
      cache.moments (cache.actions step) := by
  cases step with
  | compute key nested ending =>
      cases found : cache.finds key with
      | true =>
          rw [passages, if_pos found, actions, if_pos found]
          rfl
      | false =>
          have during := moments_passagesAll cache.countMiss nested
          have led := (Performs.runAll cache.countMiss nested).leads
          rw [passages_compute found, actions_compute found, moments,
            act_seek_missing found, moments_append, ← led, ← history, ← during]
          simp [Passage.moment?, moments]
  | _ => rfl

theorem moments_passagesAll (cache : Cache V) (steps : List (CacheStep V E)) :
    (cache.passagesAll steps).filterMap Passage.moment? =
      cache.history steps := by
  cases steps with
  | nil => rfl
  | cons step rest =>
      rw [passagesAll, List.filterMap_append, moments_passages cache step,
        moments_passagesAll _ rest, history, history, actionsAll,
        moments_append, ← (Performs.run cache step).leads]

end

theorem filterMap_action_passagesAll (cache : Cache V)
    (steps : List (CacheStep V E)) :
    (cache.passagesAll steps).filterMap Passage.action =
      cache.actionsAll steps := by
  have actions :=
    congrArg (List.map Moment.action) (moments_passagesAll cache steps)
  rw [history, map_action_moments, List.map_filterMap] at actions
  simpa [Passage.moment?, Function.comp_def] using actions

/-! ### Points of a run -/

/-- A passage of a run leads from the point at its place to the next one. -/
theorem exists_passage_before {place : Nat} {after : Cache V}
    (point : (machine.trail start steps)[place + 1]? = some after) :
    ∃ passage, (start.passagesAll steps)[place]? = some passage ∧
      (machine.trail start steps)[place]? = some passage.before ∧
      passage.after = after := by
  obtain ⟨sources, targets⟩ := leads_passagesAll start steps
  rw [← targets, List.getElem?_cons_succ, List.getElem?_map,
    Option.map_eq_some_iff] at point
  obtain ⟨passage, found, rfl⟩ := point
  refine ⟨passage, found, ?_, rfl⟩
  obtain ⟨inside, -⟩ := List.getElem?_eq_some_iff.mp found
  rw [← sources, List.getElem?_append_left (by simpa using inside),
    List.getElem?_map, found]
  rfl

theorem perform_take_passages {place : Nat}
    (point : (machine.trail start steps)[place]? = some cache) :
    start.perform
        (((start.passagesAll steps).take place).filterMap Passage.action) =
      cache := by
  induction place generalizing cache with
  | zero =>
      rw [← (leads_passagesAll start steps).targets] at point
      exact Option.some.inj point
  | succ place induction =>
      obtain ⟨passage, found, before, rfl⟩ := exists_passage_before point
      have acts :=
        acts_passagesAll start steps passage (List.mem_of_getElem? found)
      rw [List.take_add_one, found, List.filterMap_append, perform_append,
        induction before, acts]
      cases happens : passage.action <;> simp [happens]

/-- The actions of a run lead through exactly the points of its trail. -/
theorem mem_trail_iff_reaches :
    cache ∈ machine.trail start steps ↔ start.Reaches steps cache := by
  rw [Reaches, ← filterMap_action_passagesAll]
  constructor
  · intro member
    obtain ⟨place, point⟩ := List.mem_iff_getElem?.mp member
    exact ⟨_, (List.take_prefix place _).filterMap _,
      perform_take_passages point⟩
  · rintro ⟨front, isFront, rfl⟩
    obtain ⟨led, isPrefix, rfl⟩ := List.prefix_filterMap_iff.mp isFront
    have inside : led.length < (machine.trail start steps).length := by
      rw [← (leads_passagesAll start steps).targets]
      simpa using Nat.lt_succ_of_le isPrefix.length_le
    have reached := perform_take_passages (List.getElem?_eq_getElem inside)
    rw [← List.prefix_iff_eq_take.mp isPrefix] at reached
    rw [reached]
    exact List.getElem_mem inside

theorem Keeps.of_mem_trail (keeps : Keeps config start ledger)
    (member : cache ∈ machine.trail start steps) :
    ∃ later, Keeps config cache later :=
  keeps.reaches (mem_trail_iff_reaches.mp member)

end Cache

end Formula
