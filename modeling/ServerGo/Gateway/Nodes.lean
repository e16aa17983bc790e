/-
# A server whose calls are one step, next to another

A server is compared with another task by task: a task stands at the same place in
both, or the second is ahead of the first by one action. When a task gets an answer,
what the others do does not depend on it, so the answer might have been given earlier
than it was.
-/

import ServerGo.Gateway.TaskSteps

namespace ServerGo.Gateway

open ServerGo.Math ServerGo.Storage

/-- What can happen to a server whose node applies records from the network. -/
inductive NodeEvent (n : Nat)
  | serve (event : ServerEvent n)
  | receive (record : SignedRecord)

namespace Server

variable {S : Type} [StateStore S] {n : Nat}

/-- One event, each call of the store in one step. -/
def stepNode (hashes : Hashes) (settings : SecuritySettings) (state : Server S n) :
    NodeEvent n → Option (Server S n)
  | .serve event => step hashes settings state event
  | .receive record => some (state.receive hashes record)

/-- The server after a list of events, when each was possible in its turn. -/
abbrev runNode (hashes : Hashes) (settings : SecuritySettings) (start : Server S n)
    (events : List (NodeEvent n)) : Option (Server S n) :=
  runSteps (stepNode hashes settings) start events

end Server

/-! ## Tasks compared -/

variable {S T : Type} {n : Nat}

/-- A task stands at the same place in both, and has had the same effects. -/
def SameTask (state : Server S n) (other : Server T n) (id : Nat) : Prop :=
  other.task id = state.task id ∧ effectsOf id other.log = effectsOf id state.log

/-- The second has taken the action that the task of the first is about to take, with
this effect, and nothing else. -/
def IsAhead (state : Server S n) (other : Server T n) (id : Nat) (action : Action n)
    (effect : Effect n) : Prop :=
  ∃ workerId request rest, state.task id = some ⟨workerId, request, action :: rest⟩ ∧
    other.task id = some ⟨workerId, request, rest⟩ ∧
    effectsOf id other.log = effectsOf id state.log ++ [effect]

theorem SameTask.refl (state : Server S n) (id : Nat) : SameTask state state id := ⟨rfl, rfl⟩

theorem SameTask.symm {state : Server S n} {other : Server T n} {id : Nat}
    (hsame : SameTask state other id) : SameTask other state id := ⟨hsame.1.symm, hsame.2.symm⟩

theorem SameTask.trans {U : Type} {state : Server S n} {other : Server T n} {third : Server U n}
    {id : Nat} (hsame : SameTask state other id) (hthird : SameTask other third id) :
    SameTask state third id := ⟨hthird.1.trans hsame.1, hthird.2.trans hsame.2⟩

theorem IsAhead.trans_sameTask {state : Server S n} {server ahead : Server T n} {id : Nat}
    {action : Action n} {effect : Effect n} (hahead : IsAhead state server id action effect)
    (hsame : SameTask server ahead id) : IsAhead state ahead id action effect := by
  obtain ⟨workerId, request, rest, htask, hdone, heffects⟩ := hahead
  exact ⟨workerId, request, rest, htask, hsame.1.trans hdone, hsame.2.trans heffects⟩

variable {hashes : Hashes} {settings : SecuritySettings}

theorem sameTask_advance [StateStore S] (server : Server S n) {id other : Nat} (hother : other ≠ id)
    (left : Task n) (effect : Effect n) :
    SameTask server (server.advance hashes id left effect) other :=
  ⟨Function.update_of_ne hother .., Server.effectsOf_advance_of_ne server hother left effect⟩

/-- Tasks that stand alike and get the same effect stand alike. -/
theorem SameTask.advance [StateStore S] [StateStore T] {state : Server S n} {other : Server T n}
    {id : Nat} (hsame : SameTask state other id) (left : Task n) (effect : Effect n) :
    SameTask (state.advance hashes id left effect) (other.advance hashes id left effect) id := by
  refine ⟨?_, ?_⟩
  · rw [Server.advance_task, Server.advance_task, Function.update_self, Function.update_self]
  · rw [Server.effectsOf_advance_self, Server.effectsOf_advance_self, hsame.2]

theorem runNode_serve [StateStore S] {server next : Server S n} {inner : ServerEvent n}
    (hstep : Server.step hashes settings server inner = some next) :
    Server.runNode hashes settings server [.serve inner] = some next := by
  rw [Server.runNode, runSteps_cons, Server.stepNode, hstep]
  rfl

/-- A server that is asked for a key gives the answer there is. -/
theorem step_get [StateStore S] {server : Server S n} {id workerId : Nat}
    {request : GatewayRequest} {key : Bytes} {rest : List (Action n)}
    (htask : server.task id = some ⟨workerId, request, .get key :: rest⟩) :
    Server.step hashes settings server (.act id) =
      some (server.advance hashes id ⟨workerId, request, rest⟩
        (.replied (.bulkString (L2Executor.get hashes server.world.storage key)))) := by
  rw [Server.step, htask]
  rfl

/-! ## An answer given earlier -/

/-- The second is the first in which one task has got this answer in addition. -/
structure AnsweredAhead (id : Nat) (left : Task n) (effect : Effect n) (server ahead : Server S n) :
    Prop where
  started : server.task id ≠ none
  world : ahead.world = server.world
  task : ahead.task = Function.update server.task id (some left)
  others : ∀ other ≠ id, effectsOf other ahead.log = effectsOf other server.log
  own : effectsOf id ahead.log = effectsOf id server.log ++ [effect]

section

variable [StateStore S] {id : Nat} {left : Task n} {effect : Effect n}
  {server ahead after : Server S n}

/-- A record that all tasks get to see can be made in both. -/
theorem AnsweredAhead.record (hanswered : AnsweredAhead id left effect server ahead)
    {entry : Entry n} (hentry : ∀ id, entry.effectOf id = none) :
    AnsweredAhead id left effect (server.record hashes entry) (ahead.record hashes entry) where
  started := hanswered.started
  world := by rw [Server.record_world, Server.record_world, hanswered.world]
  task := hanswered.task
  others other hother := by
    rw [Server.effectsOf_record _ hentry, Server.effectsOf_record _ hentry,
      hanswered.others other hother]
  own := by rw [Server.effectsOf_record _ hentry, Server.effectsOf_record _ hentry, hanswered.own]

/-- **An answer may come earlier.** What others do after an answer they do as well
before it. -/
theorem AnsweredAhead.step (hanswered : AnsweredAhead id left effect server ahead)
    {event : NodeEvent n} (hother : event ≠ .serve (.act id))
    (hstep : Server.stepNode hashes settings server event = some after) :
    ∃ next, Server.stepNode hashes settings ahead event = some next ∧
      AnsweredAhead id left effect after next := by
  -- a task other than the one that got its answer is the same in both
  have htask : ∀ other ≠ id, ahead.task other = server.task other := by
    intro other hne
    rw [hanswered.task, Function.update_of_ne hne]
  cases event with
  | receive record =>
      cases hstep
      refine ⟨_, rfl, hanswered.started, ?_, hanswered.task, hanswered.others, hanswered.own⟩
      rw [Server.receive, Server.receive, hanswered.world]
  | serve inner =>
      cases inner with
      | arrive other workerId request =>
          rw [Server.stepNode, Server.step] at hstep
          split at hstep
          next hnone =>
              cases hstep
              have hne : other ≠ id := by
                rintro rfl
                exact hanswered.started hnone
              refine ⟨{ ahead with
                task := Function.update ahead.task other
                  (some ⟨workerId, request, handler workerId settings request⟩) }, ?_, ?_,
                hanswered.world, ?_, hanswered.others, hanswered.own⟩
              · rw [Server.stepNode, Server.step, htask other hne, hnone]
              · dsimp only
                rw [Function.update_of_ne (Ne.symm hne)]
                exact hanswered.started
              · dsimp only
                rw [hanswered.task, Function.update_comm hne]
          next => cases hstep
      | act other =>
          have hne : other ≠ id := by
            rintro rfl
            exact hother rfl
          rw [Server.stepNode] at hstep
          obtain ⟨workerId, request, action, rest, happened, hat, houtcome, rfl⟩ :=
            Server.act_cases hstep
          refine ⟨ahead.advance hashes other ⟨workerId, request, rest⟩ happened, ?_, ?_, ?_, ?_, ?_,
            ?_⟩
          · rw [Server.stepNode, Server.step, htask other hne, hat]
            dsimp only
            rw [hanswered.world, houtcome, Option.map_some]
          · rw [Server.advance_task, Function.update_of_ne (Ne.symm hne)]
            exact hanswered.started
          · rw [Server.advance_world, Server.advance_world, hanswered.world]
          · rw [Server.advance_task, Server.advance_task, hanswered.task, Function.update_comm hne]
          · intro third hthird
            by_cases hsame : third = other
            · subst hsame
              rw [Server.effectsOf_advance_self, Server.effectsOf_advance_self,
                hanswered.others third hthird]
            · rw [Server.effectsOf_advance_of_ne _ hsame, Server.effectsOf_advance_of_ne _ hsame,
                hanswered.others third hthird]
          · rw [Server.effectsOf_advance_of_ne _ (Ne.symm hne),
              Server.effectsOf_advance_of_ne _ (Ne.symm hne), hanswered.own]
      | writerTurn =>
          cases hstep
          exact ⟨_, rfl, hanswered.record fun _ => rfl⟩
      | driverTurn channel =>
          cases hstep
          exact ⟨_, rfl, hanswered.record fun _ => rfl⟩
      | close channel =>
          cases hstep
          exact ⟨_, rfl, hanswered.record fun _ => rfl⟩

/-- The effects of a task only grow. -/
theorem effectsOf_prefix_step {event : NodeEvent n}
    (hstep : Server.stepNode hashes settings server event = some after) (id : Nat) :
    effectsOf id server.log <+: effectsOf id after.log := by
  cases event with
  | receive record =>
      cases hstep
      exact List.prefix_rfl
  | serve inner => exact (Server.log_prefix hstep).filterMap _

theorem effectsOf_prefix_run {events : List (NodeEvent n)}
    (hrun : Server.runNode hashes settings server events = some after) (id : Nat) :
    effectsOf id server.log <+: effectsOf id after.log :=
  runSteps_induction (motive := fun _ (state : Server S n) =>
    effectsOf id server.log <+: effectsOf id state.log) List.prefix_rfl
    (fun _ _ _ _ _ ih hstep => ih.trans (effectsOf_prefix_step hstep id)) hrun

/-- A task that has had no effect meanwhile might as well have got an answer before. -/
theorem AnsweredAhead.run (hanswered : AnsweredAhead id left effect server ahead)
    {events : List (NodeEvent n)}
    (hrun : Server.runNode hashes settings server events = some after)
    (hquiet : effectsOf id after.log = effectsOf id server.log) :
    ∃ next, Server.runNode hashes settings ahead events = some next ∧
      AnsweredAhead id left effect after next := by
  induction events generalizing server ahead with
  | nil =>
      cases hrun
      exact ⟨ahead, rfl, hanswered⟩
  | cons event later ih =>
      rw [Server.runNode, runSteps_cons] at hrun
      obtain ⟨middle, hstep, hlater⟩ := Option.bind_eq_some_iff.mp hrun
      have hsame : effectsOf id middle.log = effectsOf id server.log := by
        have hfirst := effectsOf_prefix_step hstep id
        have hsecond := effectsOf_prefix_run hlater id
        rw [hquiet] at hsecond
        exact hsecond.eq_of_length (le_antisymm hsecond.length_le hfirst.length_le)
      have hother : event ≠ .serve (.act id) := by
        rintro rfl
        rw [Server.stepNode] at hstep
        obtain ⟨workerId, request, action, rest, happened, -, -, rfl⟩ := Server.act_cases hstep
        rw [Server.effectsOf_advance_self] at hsame
        simp at hsame
      obtain ⟨nextMiddle, hnext, hboth⟩ := hanswered.step hother hstep
      obtain ⟨next, hrest, hlast⟩ := ih hboth hlater (hquiet.trans hsame.symm)
      refine ⟨next, ?_, hlast⟩
      rw [Server.runNode, runSteps_cons, hnext]
      exact hrest

omit [StateStore S] in
/-- To the other tasks it is all the same. -/
theorem AnsweredAhead.sameTask (hanswered : AnsweredAhead id left effect server ahead)
    {other : Nat} (hother : other ≠ id) : SameTask server ahead other :=
  ⟨by rw [hanswered.task, Function.update_of_ne hother], hanswered.others other hother⟩

omit [StateStore S] in
/-- While the task waits, the answer is ahead of it. -/
theorem AnsweredAhead.isAhead (hanswered : AnsweredAhead id left effect server ahead)
    {now : Server T n} (hsame : SameTask now server id) {action : Action n}
    (htask : now.task id = some { left with rest := action :: left.rest }) :
    IsAhead now ahead id action effect := by
  refine ⟨left.workerId, left.request, left.rest, htask, ?_, ?_⟩
  · rw [hanswered.task, Function.update_self]
  · rw [hanswered.own, hsame.2]

/-- Such is an answer given now. -/
theorem answeredAhead_advance {task : Task n} {frame : Frame} (htask : server.task id = some task) :
    AnsweredAhead id left (.replied frame) server
      (server.advance hashes id left (.replied frame)) where
  started := by rw [htask]; simp
  world := rfl
  task := rfl
  others other hother := Server.effectsOf_advance_of_ne server hother left _
  own := Server.effectsOf_advance_self server id left _

end

end ServerGo.Gateway
