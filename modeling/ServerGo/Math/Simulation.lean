/-
# One machine seen through another

A step machine refines another when each of its steps can be matched by some
steps of the other, possibly by none, so that the two stay related. A run of the
first is then a run of the second, over the trace that the matching spells out.
When the two take the same events and neither can take one that the other cannot,
they run together step by step.
-/

import ServerGo.Math.History
import ServerGo.Math.Steps

namespace ServerGo.Math

universe u v w x

variable {S : Type u} {E : Type v} {A : Type w} {F : Type x}

/-- A simulation of a machine by an abstract one. `matching` says what a step is
taken for. -/
structure Simulation (step : S → E → Option S) (abstractStep : A → F → Option A) where
  Rel : S → A → Prop
  matching : S → E → List F
  rel_step : ∀ {state after : S} {abstract : A} {event : E}, Rel state abstract →
    step state event = some after →
      ∃ abstractAfter,
        runSteps abstractStep abstract (matching state event) = some abstractAfter ∧
          Rel after abstractAfter

namespace Simulation

variable {step : S → E → Option S} {abstractStep : A → F → Option A}
  (simulation : Simulation step abstractStep)

/-- What a trace is taken for, step by step. -/
def trace (start : S) : List E → List F
  | [] => []
  | event :: later =>
      simulation.matching start event ++
        match step start event with
        | some next => trace next later
        | none => []

@[simp]
theorem trace_nil (start : S) : simulation.trace start [] = [] := rfl

theorem trace_cons {start next : S} {event : E} (hstep : step start event = some next)
    (later : List E) :
    simulation.trace start (event :: later) =
      simulation.matching start event ++ simulation.trace next later := by
  rw [trace, hstep]

/-- A run after a run is taken for what both are. -/
theorem trace_append {start before : S} {events : List E}
    (hrun : runSteps step start events = some before) (later : List E) :
    simulation.trace start (events ++ later) =
      simulation.trace start events ++ simulation.trace before later := by
  induction events generalizing start with
  | nil =>
      cases hrun
      rfl
  | cons first events ih =>
      obtain ⟨next, hstep, hrest⟩ := Option.bind_eq_some_iff.mp (runSteps_cons first ▸ hrun)
      rw [List.cons_append, simulation.trace_cons hstep, simulation.trace_cons hstep, ih hrest,
        List.append_assoc]

/-- The last step of a run adds what it is taken for. -/
theorem trace_concat {start before : S} {events : List E}
    (hrun : runSteps step start events = some before) (event : E) :
    simulation.trace start (events ++ [event]) =
      simulation.trace start events ++ simulation.matching before event := by
  rw [simulation.trace_append hrun, trace]
  cases step before event <;> simp

/-- Where the matching does not look at the state, a trace is read event by event. -/
theorem trace_eq_filterMap {read : E → Option F}
    (hmatching : ∀ state event, simulation.matching state event = (read event).toList)
    {start state : S} {events : List E} (hrun : runSteps step start events = some state) :
    simulation.trace start events = events.filterMap read := by
  refine runSteps_induction (motive := fun events _ =>
    simulation.trace start events = events.filterMap read) rfl ?_ hrun
  intro events before event after hbefore ih _
  rw [simulation.trace_concat hbefore, ih, hmatching, filterMap_concat_eq_append]

/-- Whatever is in a trace, some step of the run was taken for. -/
theorem exists_step_of_mem_trace {start state : S} {events : List E}
    (hrun : runSteps step start events = some state) {abstractEvent : F}
    (hmem : abstractEvent ∈ simulation.trace start events) :
    ∃ earlier event before, earlier ++ [event] <+: events ∧
      runSteps step start earlier = some before ∧
        abstractEvent ∈ simulation.matching before event := by
  revert hmem
  refine runSteps_induction (motive := fun events _ =>
    abstractEvent ∈ simulation.trace start events → ∃ earlier event before,
      earlier ++ [event] <+: events ∧ runSteps step start earlier = some before ∧
        abstractEvent ∈ simulation.matching before event) ?_ ?_ hrun
  · intro hmem
    cases hmem
  intro events before event after hbefore ih _ hmem
  rw [simulation.trace_concat hbefore] at hmem
  rcases List.mem_append.mp hmem with hearlier | hnow
  · obtain ⟨earlier, other, middle, hbegins, hmiddle, hmatched⟩ := ih hearlier
    exact ⟨earlier, other, middle, hbegins.trans (List.prefix_append ..), hmiddle, hmatched⟩
  · exact ⟨events, event, before, List.prefix_rfl, hbefore, hnow⟩

/-- **A run is a run of the abstract machine**, over what its steps are taken for.
-/
theorem rel_run {start state : S} {abstract : A} {events : List E}
    (hrel : simulation.Rel start abstract) (hrun : runSteps step start events = some state) :
    ∃ abstractState,
      runSteps abstractStep abstract (simulation.trace start events) = some abstractState ∧
        simulation.Rel state abstractState := by
  refine runSteps_induction (motive := fun events state => runSteps step start events = some state →
    ∃ abstractState,
      runSteps abstractStep abstract (simulation.trace start events) = some abstractState ∧
        simulation.Rel state abstractState) ?_ ?_ hrun hrun
  · exact fun _ => ⟨abstract, rfl, hrel⟩
  intro events before event after hbefore ih hstep _
  obtain ⟨middle, hmiddle, hrelated⟩ := ih hbefore
  obtain ⟨last, hlast, hrel⟩ := simulation.rel_step hrelated hstep
  refine ⟨last, ?_, hrel⟩
  rw [simulation.trace_concat hbefore, runSteps_append, hmiddle]
  exact hlast

end Simulation

/-- Two machines that take the same events, and between which none makes a
difference. -/
structure Bisimulation (step : S → E → Option S) (otherStep : A → E → Option A) where
  Rel : S → A → Prop
  rel_step : ∀ {state : S} {other : A}, Rel state other →
    ∀ event, Option.Rel Rel (step state event) (otherStep other event)

namespace Bisimulation

variable {step : S → E → Option S} {otherStep : A → E → Option A}
  (bisimulation : Bisimulation step otherStep)

/-- **They run together**: on any trace both fail, or both succeed and end in
related states. -/
theorem rel_run {start : S} {other : A} (hrel : bisimulation.Rel start other) (events : List E) :
    Option.Rel bisimulation.Rel (runSteps step start events)
      (runSteps otherStep other events) := by
  induction events generalizing start other with
  | nil => exact .some hrel
  | cons event later ih =>
      have hstep := bisimulation.rel_step hrel event
      rw [runSteps_cons, runSteps_cons]
      generalize step start event = next at hstep ⊢
      generalize otherStep other event = otherNext at hstep ⊢
      cases hstep with
      | none => exact .none
      | some hnext => exact ih hnext

end Bisimulation

end ServerGo.Math
