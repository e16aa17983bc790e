/-
# Runs of a partial step function

A concurrent machine is a step function on its whole state that is undefined on
events the state does not allow. A trace is a list of events, and running it
succeeds when every event was possible in its turn. What a step preserves holds
after every run that succeeds, and may speak of the trace that led there.
-/

import Mathlib.Data.List.Induction

namespace ServerGo.Math

universe u v

variable {S : Type u} {E : Type v}

/-- Take the events of a trace in order; `none` when one of them is impossible.
-/
def runSteps (step : S → E → Option S) (start : S) (events : List E) : Option S :=
  events.foldlM step start

variable {step : S → E → Option S} {start state : S} {events : List E}

@[simp]
theorem runSteps_nil : runSteps step start [] = some start := rfl

@[simp]
theorem runSteps_cons (event : E) :
    runSteps step start (event :: events) =
      (step start event).bind fun next => runSteps step next events := rfl

@[simp]
theorem runSteps_append (later : List E) :
    runSteps step start (events ++ later) =
      (runSteps step start events).bind fun next => runSteps step next later := by
  simp [runSteps]

/-- One run after another is a run. -/
theorem runSteps_trans {between : S} {later : List E}
    (hrun : runSteps step start events = some between)
    (hlater : runSteps step between later = some state) :
    runSteps step start (events ++ later) = some state := by
  rw [runSteps_append, hrun]
  exact hlater

/-- The last event of a run was taken in the state that the others led to. -/
theorem runSteps_concat_eq_some {event : E} :
    runSteps step start (events ++ [event]) = some state ↔
      ∃ before, runSteps step start events = some before ∧ step before event = some state := by
  simp [Option.bind_eq_some_iff]

/-- A run passes through a state after any of its first events. -/
theorem exists_runSteps_take (hrun : runSteps step start events = some state) (count : Nat) :
    ∃ between, runSteps step start (events.take count) = some between ∧
      runSteps step between (events.drop count) = some state := by
  rw [← List.take_append_drop count events, runSteps_append] at hrun
  exact Option.bind_eq_some_iff.mp hrun

/-- **Invariants of runs.** What holds of the start with no event taken, and is
kept by every step that a run can take, holds after every run. -/
theorem runSteps_induction {motive : List E → S → Prop} (nil : motive [] start)
    (concat : ∀ events before event after, runSteps step start events = some before →
      motive events before → step before event = some after → motive (events ++ [event]) after)
    (hrun : runSteps step start events = some state) : motive events state := by
  induction events using List.reverseRecOn generalizing state with
  | nil =>
      cases hrun
      exact nil
  | append_singleton events event ih =>
      obtain ⟨before, hbefore, hstep⟩ := runSteps_concat_eq_some.mp hrun
      exact concat events before event state hbefore (ih hbefore) hstep

/-- **Steps that use something up.** Where every step, from states that satisfy an
invariant, leaves less of something, a run has no more steps than there was of it. -/
theorem length_add_le_of_lt (measure : S → Nat) {motive : S → Prop}
    (hless : ∀ before event after, motive before → step before event = some after →
      motive after ∧ measure after < measure before)
    (hstart : motive start) (hrun : runSteps step start events = some state) :
    events.length + measure state ≤ measure start := by
  have hboth : motive state ∧ events.length + measure state ≤ measure start :=
    runSteps_induction (motive := fun events state =>
      motive state ∧ events.length + measure state ≤ measure start)
      ⟨hstart, Nat.le_of_eq (Nat.zero_add _)⟩
      (fun events before event after _ ih hstep => by
        obtain ⟨hafter, hmeasure⟩ := hless before event after ih.1 hstep
        rw [List.length_append, List.length_singleton]
        exact ⟨hafter, by omega⟩) hrun
  exact hboth.2

/-- A run goes on from the state that any of its first events led to. -/
theorem exists_later_of_prefix {earlier : List E} {before : S}
    (hrun : runSteps step start events = some state) (hbegins : earlier <+: events)
    (hbefore : runSteps step start earlier = some before) :
    ∃ later, runSteps step before later = some state := by
  obtain ⟨later, rfl⟩ := hbegins
  rw [runSteps_append, hbefore] at hrun
  exact ⟨later, hrun⟩

/-- What does not hold of the start but does in the end was brought about by some
step. -/
theorem exists_step_of_not {motive : S → Prop} (hstart : ¬motive start)
    (hrun : runSteps step start events = some state) (hstate : motive state) :
    ∃ earlier event before after, earlier ++ [event] <+: events ∧
      runSteps step start earlier = some before ∧ step before event = some after ∧
        ¬motive before ∧ motive after := by
  revert hstate
  refine runSteps_induction (motive := fun events state => motive state →
    ∃ earlier event before after, earlier ++ [event] <+: events ∧
      runSteps step start earlier = some before ∧ step before event = some after ∧
        ¬motive before ∧ motive after) (fun hnil => absurd hnil hstart) ?_ hrun
  intro events before event after hbefore ih hstep hafter
  by_cases hearlier : motive before
  · obtain ⟨earlier, other, first, second, hbegins, hfound⟩ := ih hearlier
    exact ⟨earlier, other, first, second, hbegins.trans (List.prefix_append ..), hfound⟩
  · exact ⟨events, event, before, after, List.prefix_rfl, hbefore, hstep, hearlier, hafter⟩

end ServerGo.Math
