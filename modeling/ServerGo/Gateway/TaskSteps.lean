/-
# One task among the others

A step of the server adds at most one entry to the log, and the world takes that
entry up. To a single task a step is one of three things: nothing, its spawning,
or one action taken, with its effect. What is to be shown of every task in every
run is shown of these three.
-/

import ServerGo.Gateway.Server

namespace ServerGo.Gateway

open ServerGo.Math ServerGo.Storage

namespace Server

variable {S : Type} [StateStore S] {n : Nat} {hashes : Hashes} {settings : SecuritySettings}
  {state after : Server S n} {event : ServerEvent n}

/-- A step leaves the world and the log alone, or plays one entry on both. -/
theorem step_entry (hstep : step hashes settings state event = some after) :
    (after.world = state.world ∧ after.log = state.log) ∨
      ∃ entry, after.world = state.world.replay hashes entry ∧
        after.log = state.log ++ [entry] := by
  cases event with
  | arrive id workerId request =>
      rw [step] at hstep
      split at hstep
      · cases hstep
        exact Or.inl ⟨rfl, rfl⟩
      · cases hstep
  | act id =>
      obtain ⟨workerId, request, action, rest, effect, -, -, rfl⟩ := act_cases hstep
      exact Or.inr ⟨.task id effect, rfl, rfl⟩
  | writerTurn =>
      cases hstep
      exact Or.inr ⟨.writerTurn, rfl, rfl⟩
  | driverTurn channel =>
      cases hstep
      exact Or.inr ⟨.driverTurn channel, rfl, rfl⟩
  | close channel =>
      cases hstep
      exact Or.inr ⟨.closed channel, rfl, rfl⟩

/-- The log only grows. -/
theorem log_prefix (hstep : step hashes settings state event = some after) :
    state.log <+: after.log := by
  rcases step_entry hstep with ⟨-, hlog⟩ | ⟨entry, -, hlog⟩
  · exact hlog ▸ List.prefix_rfl
  · rw [hlog]
    exact List.prefix_append ..

/-- An action is an effect of the task that takes it, -/
theorem effectsOf_advance_self (server : Server S n) (id : Nat) (left : Task n)
    (effect : Effect n) :
    effectsOf id (server.advance hashes id left effect).log =
      effectsOf id server.log ++ [effect] := by
  rw [advance_log, effectsOf_concat, Entry.effectOf, if_pos rfl, Option.toList_some]

/-- and of no other. -/
theorem effectsOf_advance_of_ne (server : Server S n) {id other : Nat} (hother : other ≠ id)
    (left : Task n) (effect : Effect n) :
    effectsOf other (server.advance hashes id left effect).log = effectsOf other server.log := by
  rw [advance_log, effectsOf_concat, Entry.effectOf, if_neg (Ne.symm hother),
    Option.toList_none, List.append_nil]

/-- An entry that is no task's leaves the effects of all. -/
theorem effectsOf_record (server : Server S n) {entry : Entry n}
    (hentry : ∀ id, entry.effectOf id = none) (id : Nat) :
    effectsOf id (server.record hashes entry).log = effectsOf id server.log := by
  rw [record_log, effectsOf_concat, hentry, Option.toList_none, List.append_nil]

/-- What a step is to one task. -/
inductive TaskStep (hashes : Hashes) (settings : SecuritySettings) (state after : Server S n)
    (event : ServerEvent n) (id : Nat) : Prop
  /-- It concerns another task, or none. -/
  | idle (htask : after.task id = state.task id)
      (heffects : effectsOf id after.log = effectsOf id state.log)
  | spawned (workerId : Nat) (request : GatewayRequest)
      (hevent : event = .arrive id workerId request) (hbefore : state.task id = none)
      (htask : after.task id = some ⟨workerId, request, handler workerId settings request⟩)
      (heffects : effectsOf id after.log = effectsOf id state.log)
  | acted (workerId : Nat) (request : GatewayRequest) (action : Action n) (rest : List (Action n))
      (effect : Effect n) (hevent : event = .act id)
      (hbefore : state.task id = some ⟨workerId, request, action :: rest⟩)
      (houtcome : state.world.outcome hashes action = some effect)
      (htask : after.task id = some ⟨workerId, request, rest⟩)
      (heffects : effectsOf id after.log = effectsOf id state.log ++ [effect])

/-- **A step, to any task.** -/
theorem taskStep_of_step (hstep : step hashes settings state event = some after) (id : Nat) :
    TaskStep hashes settings state after event id := by
  cases event with
  | arrive other workerId request =>
      rw [step] at hstep
      split at hstep
      next hnone =>
          cases hstep
          by_cases hid : id = other
          · subst hid
            exact .spawned workerId request rfl hnone (Function.update_self ..) rfl
          · exact .idle (Function.update_of_ne hid ..) rfl
      next => cases hstep
  | act other =>
      obtain ⟨workerId, request, action, rest, effect, hbefore, houtcome, rfl⟩ := act_cases hstep
      by_cases hid : id = other
      · subst hid
        exact .acted workerId request action rest effect rfl hbefore houtcome
          (Function.update_self ..) (effectsOf_advance_self ..)
      · exact .idle (Function.update_of_ne hid ..) (effectsOf_advance_of_ne _ hid ..)
  | writerTurn =>
      cases hstep
      exact .idle rfl (effectsOf_record _ (fun _ => rfl) id)
  | driverTurn channel =>
      cases hstep
      exact .idle rfl (effectsOf_record _ (fun _ => rfl) id)
  | close channel =>
      cases hstep
      exact .idle rfl (effectsOf_record _ (fun _ => rfl) id)

/-- How a task gets from one state to another, wherever the answers come from. -/
inductive Moved (settings : SecuritySettings) (before after : Server S n) (id : Nat) : Prop
  | idle (htask : after.task id = before.task id)
      (heffects : effectsOf id after.log = effectsOf id before.log)
  | spawned (workerId : Nat) (request : GatewayRequest) (hbefore : before.task id = none)
      (htask : after.task id = some ⟨workerId, request, handler workerId settings request⟩)
      (heffects : effectsOf id after.log = effectsOf id before.log)
  | acted (workerId : Nat) (request : GatewayRequest) (action : Action n) (rest : List (Action n))
      (effect : Effect n) (hbefore : before.task id = some ⟨workerId, request, action :: rest⟩)
      (hcause : action.Causes effect) (htask : after.task id = some ⟨workerId, request, rest⟩)
      (heffects : effectsOf id after.log = effectsOf id before.log ++ [effect])

theorem TaskStep.moved {id : Nat} (htaskStep : TaskStep hashes settings state after event id) :
    Moved settings state after id := by
  cases htaskStep with
  | idle htask heffects => exact .idle htask heffects
  | spawned workerId request _ hbefore htask heffects =>
      exact .spawned workerId request hbefore htask heffects
  | acted workerId request action rest effect _ hbefore houtcome htask heffects =>
      exact .acted workerId request action rest effect hbefore (World.causes_of_outcome houtcome)
        htask heffects

omit [StateStore S] in
/-- A move keeps the progress of the task. -/
theorem Moved.progress {id : Nat} (hmoved : Moved settings state after id)
    (hprogress : Progress settings (state.task id) (effectsOf id state.log)) :
    Progress settings (after.task id) (effectsOf id after.log) := by
  cases hmoved with
  | idle htask heffects => rwa [htask, heffects]
  | spawned workerId request hbefore htask heffects =>
      rw [hbefore] at hprogress
      rw [htask, heffects, show effectsOf id state.log = [] from hprogress]
      exact ⟨[], rfl, .nil⟩
  | acted workerId request action rest effect hbefore hcause htask heffects =>
      rw [hbefore] at hprogress
      obtain ⟨taken, htaken, hcauses⟩ := hprogress
      rw [htask, heffects]
      refine ⟨taken ++ [action], ?_, ?_⟩
      · rw [List.append_assoc, List.singleton_append]
        exact htaken
      · exact List.rel_append hcauses (.cons hcause .nil)

omit [StateStore S] in
/-- A task stays that of its request. -/
theorem Moved.request {id : Nat} (hmoved : Moved settings state after id) {task : Task n}
    (htask : state.task id = some task) :
    ∃ rest, after.task id = some { task with rest := rest } := by
  cases hmoved with
  | idle hsame _ => exact ⟨task.rest, hsame.trans htask⟩
  | spawned _ _ hnone _ _ => exact absurd (htask.symm.trans hnone) (by simp)
  | acted workerId request action rest _ hbefore _ hacted _ =>
      cases htask.symm.trans hbefore
      exact ⟨rest, hacted⟩

/-- After a step a task is that of the request it was of before, or of one that has
just arrived. -/
theorem TaskStep.arrived {id : Nat} (htaskStep : TaskStep hashes settings state after event id)
    {task : Task n} (htask : after.task id = some task) :
    (∃ rest, state.task id = some { task with rest := rest }) ∨
      event = .arrive id task.workerId task.request := by
  cases htaskStep with
  | idle hsame _ => exact Or.inl ⟨task.rest, hsame ▸ htask⟩
  | spawned workerId request hevent _ hspawned _ =>
      cases hspawned.symm.trans htask
      exact Or.inr hevent
  | acted workerId request action rest effect _ hbefore _ hacted _ =>
      cases hacted.symm.trans htask
      exact Or.inl ⟨action :: rest, hbefore⟩

variable {world : World S n} {events : List (ServerEvent n)}

/-- A task is that of a request that has arrived. -/
theorem arrive_mem_of_task (hrun : run hashes settings (start world) events = some state) {id : Nat}
    {task : Task n} (htask : state.task id = some task) :
    .arrive id task.workerId task.request ∈ events := by
  refine runSteps_induction (motive := fun events (state : Server S n) =>
    ∀ task, state.task id = some task → .arrive id task.workerId task.request ∈ events)
    ?_ ?_ hrun task htask
  · intro task htask
    cases htask
  intro events before event after _ ih hstep task htask
  rcases (taskStep_of_step hstep id).arrived htask with ⟨rest, hbefore⟩ | rfl
  · exact List.mem_append_left _ (ih { task with rest := rest } hbefore)
  · exact List.mem_append_right _ (List.mem_singleton_self _)

/-- Every task has had the effects of the actions it has taken, and of no others. -/
theorem progress_run (hrun : run hashes settings (start world) events = some state) (id : Nat) :
    Progress settings (state.task id) (effectsOf id state.log) := by
  refine runSteps_induction (motive := fun _ (state : Server S n) =>
    Progress settings (state.task id) (effectsOf id state.log)) ?_ ?_ hrun
  · show effectsOf id [] = []
    rfl
  · exact fun _ _ _ _ _ ih hstep => (taskStep_of_step hstep id).moved.progress ih

omit [StateStore S] in
theorem exists_causes_of_mem {actions : List (Action n)} {effects : List (Effect n)}
    (hcauses : List.Forall₂ Action.Causes actions effects) {effect : Effect n}
    (hmem : effect ∈ effects) : ∃ action ∈ actions, action.Causes effect := by
  induction hcauses with
  | nil => cases hmem
  | @cons action happened actions effects hcause _ ih =>
      rcases List.mem_cons.mp hmem with rfl | hlater
      · exact ⟨action, List.mem_cons_self .., hcause⟩
      · obtain ⟨other, hother, hcause⟩ := ih hlater
        exact ⟨other, List.mem_cons_of_mem _ hother, hcause⟩

/-- Each effect of a task was caused by an action its request calls for. -/
theorem Progress.exists_action {task : Option (Task n)} {effects : List (Effect n)}
    (hprogress : Progress settings task effects) {effect : Effect n} (hmem : effect ∈ effects) :
    ∃ found action, task = some found ∧
      action ∈ handler found.workerId settings found.request ∧ action.Causes effect := by
  cases task with
  | none =>
      rw [show effects = [] from hprogress] at hmem
      cases hmem
  | some found =>
      obtain ⟨taken, htaken, hcauses⟩ := hprogress
      obtain ⟨action, haction, hcause⟩ := exists_causes_of_mem hcauses hmem
      exact ⟨found, action, rfl, htaken ▸ List.mem_append_left _ haction, hcause⟩

omit [StateStore S] in
/-- The action that a task is about to take is one its request calls for. -/
theorem Progress.mem_handler {workerId : Nat} {request : GatewayRequest} {action : Action n}
    {rest : List (Action n)} {effects : List (Effect n)}
    (hprogress : Progress settings (some ⟨workerId, request, action :: rest⟩) effects) :
    action ∈ handler workerId settings request := by
  obtain ⟨taken, htaken, -⟩ := hprogress
  exact htaken ▸ List.mem_append_right _ List.mem_cons_self

end Server

/-! ## What a task has done -/

/-- What an effect has stored. -/
def Effect.stored? {n : Nat} : Effect n → Option (Bytes × Bytes)
  | .applied key val => some (key, val)
  | _ => none

/-- What a request would have stored. -/
def GatewayRequest.stored? (request : GatewayRequest) : Option (Bytes × Bytes) :=
  match request.cmd with
  | .put key val => some (utf8 key.toList, val)
  | _ => none

end ServerGo.Gateway
