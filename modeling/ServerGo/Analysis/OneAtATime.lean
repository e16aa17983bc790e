/-
# A worker against one request at a time

A worker answers as if it handled its requests one at a time except where a task
that waits for a serial channel is overtaken: a request on the slot of a key that
the task has yet to put is then handled before it. As long as none is started,
every reply, and what the store holds in the end, are those of handling the
requests one at a time in the order received.
-/

import ServerGo.Analysis.VmGate
import ServerGo.Gateway.LocalSet
import ServerGo.Gateway.Sequential
import ServerGo.Storage.TieredRun

namespace ServerGo.Analysis

open ServerGo.Gateway ServerGo.Math ServerGo.Storage

/-! ## The records of a slot -/

/-- The records some calls apply in a slot, in order. -/
def recordsIn (hashes : Hashes) (slot : Nat) (calls : List Call) : List SignedRecord :=
  (calls.filterMap (Call.record? hashes)).filter fun record =>
    hotSlot (hashes.entityId record) == slot

variable {hashes : Hashes} {slot : Nat}

@[simp]
theorem recordsIn_nil : recordsIn hashes slot [] = [] := rfl

@[simp]
theorem recordsIn_append (calls later : List Call) :
    recordsIn hashes slot (calls ++ later) =
      recordsIn hashes slot calls ++ recordsIn hashes slot later := by
  simp [recordsIn]

theorem recordsIn_put (key val : Bytes) :
    recordsIn hashes slot [.put key val] =
      if keySlot hashes key = slot then [kvRecord hashes key val] else [] := by
  by_cases hslot : keySlot hashes key = slot <;> simp [recordsIn, Call.record?, hslot]

/-- The store reads the last record of a slot. -/
theorem lastInSlot_eq_getLast? (calls : List Call) :
    lastInSlot hashes slot calls = (recordsIn hashes slot calls).getLast? := by
  rw [lastInSlot_eq_latest, recordsIn, ← List.filterMap_eq_filter, List.getLast?_filterMap, latest,
    List.findSomeRev?_eq_findSome?_reverse]
  congr 1
  funext record
  by_cases hslot : hotSlot (hashes.entityId record) = slot <;> simp [hslot, Option.guard]

/-- The last record of an entity is found among those of its slot. -/
theorem lastOfEntity_recordsIn (entityId : EntityId) (calls : List Call) :
    TieredStore.lastOfEntity hashes entityId (recordsIn hashes (hotSlot entityId) calls) =
      TieredStore.lastOfEntity hashes entityId (calls.filterMap (Call.record? hashes)) := by
  rw [TieredStore.lastOfEntity, TieredStore.lastOfEntity, recordsIn]
  refine latest_filter fun record hlast => ?_
  obtain ⟨found, -, hfound⟩ := exists_mem_of_latest hlast
  obtain ⟨happlied, hread, rfl⟩ := Option.map_eq_some_iff.mp hfound
  obtain ⟨hentity, -⟩ := Option.ite_none_right_eq_some.mp hread
  rw [hentity, beq_self_eq_true]

/-! ## What is still to be put -/

variable {n : Nat}

/-- The puts a task has yet to make. -/
def remainingCalls (task : Option (Task n)) : List Call :=
  match task with
  | some task => task.rest.filterMap Action.call?
  | none => []

/-- The puts that the first tasks have yet to make. -/
def pendingCalls (task : Nat → Option (Task n)) (started : Nat) : List Call :=
  (List.range started).flatMap fun id => remainingCalls (task id)

variable {task : Nat → Option (Task n)} {started : Nat}

theorem pendingCalls_succ (task : Nat → Option (Task n)) (started : Nat) :
    pendingCalls task (started + 1) =
      pendingCalls task started ++ remainingCalls (task started) := by
  rw [pendingCalls, List.range_succ, List.flatMap_append, List.flatMap_singleton, ← pendingCalls]

theorem pendingCalls_update_of_le {id : Nat} (hid : started ≤ id) (changed : Option (Task n)) :
    pendingCalls (Function.update task id changed) started = pendingCalls task started := by
  refine List.flatMap_congr fun other hother => ?_
  rw [List.mem_range] at hother
  rw [Function.update_of_ne (by omega)]

/-- A task has its place among those that have been started. -/
theorem exists_pendingCalls_update (task : Nat → Option (Task n)) {id : Nat} (hid : id < started) :
    ∃ before after, ∀ changed, pendingCalls (Function.update task id changed) started =
      before ++ remainingCalls changed ++ after := by
  induction started with
  | zero => exact absurd hid (Nat.not_lt_zero id)
  | succ started ih =>
      rcases Nat.lt_succ_iff_lt_or_eq.mp hid with hlt | rfl
      · obtain ⟨before, after, hupdate⟩ := ih hlt
        refine ⟨before, after ++ remainingCalls (task started), fun changed => ?_⟩
        rw [pendingCalls_succ, hupdate, Function.update_of_ne (by omega), List.append_assoc]
      · refine ⟨pendingCalls task id, [], fun changed => ?_⟩
        rw [pendingCalls_succ, pendingCalls_update_of_le le_rfl, Function.update_self,
          List.append_nil]

/-- The put of an action, if it makes one, leaves its place among those to come. -/
theorem exists_pendingCalls_act {id ownId : Nat} {request : GatewayRequest} {action : Action n}
    {rest : List (Action n)} (hid : id < started)
    (htask : task id = some ⟨ownId, request, action :: rest⟩) :
    ∃ earlier later, pendingCalls task started = earlier ++ (action.call?.toList ++ later) ∧
      pendingCalls (Function.update task id (some ⟨ownId, request, rest⟩)) started =
        earlier ++ later := by
  obtain ⟨earlier, later, hplace⟩ := exists_pendingCalls_update task hid
  refine ⟨earlier, rest.filterMap Action.call? ++ later, ?_, ?_⟩
  · have hsame := hplace (task id)
    rw [Function.update_eq_self, htask] at hsame
    rw [hsame, remainingCalls, filterMap_cons_eq_append, List.append_assoc, List.append_assoc]
  · rw [hplace, remainingCalls, List.append_assoc]

/-- The calls a task makes are puts. -/
theorem put_of_mem_calls {actions : List (Action n)} {call : Call}
    (hmem : call ∈ actions.filterMap Action.call?) :
    ∃ key val, call = .put key val ∧ .put key val ∈ actions := by
  obtain ⟨action, haction, hcall⟩ := List.mem_filterMap.mp hmem
  cases action with
  | put key val =>
      cases hcall
      exact ⟨key, val, rfl, haction⟩
  | _ => cases hcall

theorem put_of_mem_pendingCalls {call : Call} (hmem : call ∈ pendingCalls task started) :
    ∃ key val, call = .put key val := by
  obtain ⟨id, -, hcall⟩ := List.mem_flatMap.mp hmem
  cases htask : task id with
  | none =>
      rw [htask] at hcall
      cases hcall
  | some own =>
      rw [htask] at hcall
      obtain ⟨key, val, hput, -⟩ := put_of_mem_calls hcall
      exact ⟨key, val, hput⟩

/-- Puts on keys of other slots leave a slot alone. -/
theorem recordsIn_eq_nil {calls : List Call}
    (hputs : ∀ call ∈ calls, ∃ key val, call = .put key val ∧ keySlot hashes key ≠ slot) :
    recordsIn hashes slot calls = [] := by
  induction calls with
  | nil => rfl
  | cons call later ih =>
      obtain ⟨key, val, rfl, hslot⟩ := hputs call List.mem_cons_self
      rw [← List.singleton_append, recordsIn_append, recordsIn_put, if_neg hslot,
        ih fun other hmem => hputs other (List.mem_cons_of_mem _ hmem), List.append_nil]

/-- What is put in a slot is put on one of its keys. -/
theorem exists_put_of_recordsIn_ne_nil {actions : List (Action n)}
    (hsome : recordsIn hashes slot (actions.filterMap Action.call?) ≠ []) :
    ∃ key val, .put key val ∈ actions ∧ keySlot hashes key = slot := by
  by_contra! hother
  refine hsome (recordsIn_eq_nil fun call hmem => ?_)
  obtain ⟨key, val, rfl, hput⟩ := put_of_mem_calls hmem
  exact ⟨key, val, rfl, hother key val hput⟩

theorem length_recordsIn_le (calls : List Call) :
    (recordsIn hashes slot calls).length ≤ calls.length :=
  (List.length_filter_le _ _).trans (List.length_filterMap_le _ _)

/-- Where at most one record is pending in a slot it may as well be applied now.
-/
theorem append_comm_of_length_le_one {α : Type*} {before now after : List α}
    (hone : (before ++ (now ++ after)).length ≤ 1) :
    now ++ (before ++ after) = before ++ (now ++ after) := by
  cases now with
  | nil => rfl
  | cons record later =>
      simp only [List.length_append, List.length_cons] at hone
      obtain rfl : before = [] := List.eq_nil_of_length_eq_zero (by omega)
      rfl

/-! ## The order of a worker -/

section

variable {S : Type} [StateStore S] (hashes : Hashes) (settings : SecuritySettings)
  (workerId : Nat)

/-- No task that has been started has yet to put in a slot that the next one reads
or writes. -/
def MayStart (state : LocalSet S n) : Prop :=
  ∀ request, state.received[state.started]? = some request →
    ∀ action ∈ (handler workerId settings request : List (Action n)),
      ∀ key val, .put key val ∈ pendingCalls state.server.task state.started →
        action.slot? hashes ≠ some (keySlot hashes key)

/-- Along a run from `world`, every task is started when it may be. -/
def StartsInOrder (world : World S n) (events : List (LocalEvent n)) : Prop :=
  ∀ earlier before, earlier ++ [.start] <+: events →
    LocalSet.run hashes settings workerId (LocalSet.start world) earlier = some before →
      MayStart hashes settings workerId before

/-- The tasks of a worker, in order: those of the requests it has received, of which
the first have been started; what they have put and have yet to put is, slot by
slot, what their requests put, with at most one put to come in each slot; and one
that has yet to read is the one that runs, with no put to come in its slot. -/
structure InOrder (state : LocalSet S n) : Prop where
  started_le : state.started ≤ state.received.length
  running_lt : ∀ id, state.running = some id → id < state.started
  task : ∀ id, (state.server.task id).map (fun task => (task.workerId, task.request)) =
    state.received[id]?.map fun request => (workerId, request)
  unstarted : ∀ id task, state.started ≤ id → state.server.task id = some task →
    task.rest = handler task.workerId settings task.request
  slots : ∀ slot, recordsIn hashes slot (state.server.log.filterMap Entry.call?) ++
    recordsIn hashes slot (pendingCalls state.server.task state.started) =
      recordsIn hashes slot
        ((state.received.take state.started).flatMap (requestCalls settings workerId n))
  single : ∀ slot,
    (recordsIn hashes slot (pendingCalls state.server.task state.started)).length ≤ 1
  reading : ∀ id < state.started, ∀ task, state.server.task id = some task →
    ∀ key, .get key ∈ task.rest →
      state.running = some id ∧ state.started = id + 1 ∧
        recordsIn hashes (keySlot hashes key)
          (pendingCalls state.server.task state.started) = []

end

section

variable {S : Type} {settings : SecuritySettings} {workerId : Nat} {before after : LocalSet S n}

theorem inOrder_start (world : World S n) :
    InOrder hashes settings workerId (LocalSet.start world) where
  started_le := Nat.zero_le _
  running_lt _ hrunning := nomatch hrunning
  task _ := rfl
  unstarted _ _ _ htask := nomatch htask
  slots _ := rfl
  single _ := Nat.zero_le 1
  reading _ hid := absurd hid (Nat.not_lt_zero _)

/-- While no task runs, none that has been started has yet to read. -/
theorem InOrder.no_reading (hinOrder : InOrder hashes settings workerId before)
    (hidle : before.running = none) {id : Nat} (hid : id < before.started) {task : Task n}
    (htask : before.server.task id = some task) (key : Bytes) : .get key ∉ task.rest := by
  intro hmem
  obtain ⟨hrunning, -⟩ := hinOrder.reading id hid task htask key hmem
  exact nomatch hidle.symm.trans hrunning

/-- The task that is started next has done nothing. -/
theorem InOrder.next_task (hinOrder : InOrder hashes settings workerId before)
    {request : GatewayRequest} (hrequest : before.received[before.started]? = some request) :
    before.server.task before.started =
      some ⟨workerId, request, handler workerId settings request⟩ := by
  have hspawned := hinOrder.task before.started
  rw [hrequest, Option.map_some, Option.map_eq_some_iff] at hspawned
  obtain ⟨⟨ownId, own, rest⟩, htask, hown⟩ := hspawned
  cases hown
  rw [htask, show rest = _ from hinOrder.unstarted _ _ le_rfl htask]

variable [StateStore S]

theorem InOrder.receive {request : GatewayRequest}
    (hinOrder : InOrder hashes settings workerId before)
    (hstep : LocalSet.step hashes settings workerId before (.receive request) = some after) :
    InOrder hashes settings workerId after := by
  obtain ⟨hidle, -, rfl⟩ := LocalSet.step_cases hstep
  have hpending : pendingCalls (Function.update before.server.task before.received.length
      (some ⟨workerId, request, handler workerId settings request⟩)) before.started =
        pendingCalls before.server.task before.started :=
    pendingCalls_update_of_le hinOrder.started_le _
  constructor
  · simpa using Nat.le_succ_of_le hinOrder.started_le
  · exact hinOrder.running_lt
  · intro id
    by_cases hid : id = before.received.length
    · subst hid
      simp
    · have hreceived : (before.received ++ [request])[id]? = before.received[id]? := by
        rcases Nat.lt_or_gt_of_ne hid with hlt | hgt
        · exact List.getElem?_append_left hlt
        · rw [List.getElem?_eq_none (by simp; omega), List.getElem?_eq_none (by omega)]
      simpa only [Function.update_of_ne hid, hreceived] using hinOrder.task id
  · intro id task hid htask
    by_cases hnew : id = before.received.length
    · subst hnew
      simp only [Function.update_self] at htask
      cases htask
      rfl
    · simp only [Function.update_of_ne hnew] at htask
      exact hinOrder.unstarted id task hid htask
  · intro slot
    simpa only [hpending, List.take_append_of_le_length hinOrder.started_le] using
      hinOrder.slots slot
  · intro slot
    simpa only [hpending] using hinOrder.single slot
  · intro id hid task htask key hmem
    have hold : id ≠ before.received.length := Nat.ne_of_lt (lt_of_lt_of_le hid hinOrder.started_le)
    simp only [Function.update_of_ne hold] at htask
    exact absurd hmem (hinOrder.no_reading hidle hid htask key)

theorem InOrder.start (hinOrder : InOrder hashes settings workerId before)
    (hmay : MayStart hashes settings workerId before)
    (hstep : LocalSet.step hashes settings workerId before .start = some after) :
    InOrder hashes settings workerId after := by
  obtain ⟨⟨hidle, hwaiting⟩, rfl⟩ := LocalSet.step_cases hstep
  obtain ⟨request, hrequest⟩ : ∃ request, before.received[before.started]? = some request :=
    ⟨_, List.getElem?_eq_getElem hwaiting⟩
  have htask := hinOrder.next_task hrequest
  have hpending : pendingCalls before.server.task (before.started + 1) =
      pendingCalls before.server.task before.started ++
        requestCalls settings workerId n request := by
    rw [pendingCalls_succ, htask]
    rfl
  -- what the new task touches no other has yet to put
  have hfree : ∀ action ∈ (handler workerId settings request : List (Action n)), ∀ slot,
      action.slot? hashes = some slot →
        recordsIn hashes slot (pendingCalls before.server.task before.started) = [] := by
    intro action haction slot hslot
    refine recordsIn_eq_nil fun call hmem => ?_
    obtain ⟨key, val, rfl⟩ := put_of_mem_pendingCalls hmem
    refine ⟨key, val, rfl, fun hsame => ?_⟩
    exact hmay request hrequest action haction key val hmem (hsame ▸ hslot)
  constructor
  · exact hwaiting
  · rintro id hrunning
    cases hrunning
    exact Nat.lt_succ_self _
  · exact hinOrder.task
  · intro id task hid hother
    exact hinOrder.unstarted id task (Nat.le_of_succ_le hid) hother
  · intro slot
    have htaken : before.received.take (before.started + 1) =
        before.received.take before.started ++ [request] := by
      rw [List.take_add_one, hrequest, Option.toList_some]
    rw [htaken, hpending, List.flatMap_append, List.flatMap_singleton, recordsIn_append,
      recordsIn_append, ← List.append_assoc, hinOrder.slots]
  · intro slot
    rw [hpending, recordsIn_append, List.length_append]
    by_cases hnone : recordsIn hashes slot (requestCalls settings workerId n request) = []
    · rw [hnone]
      exact hinOrder.single slot
    · obtain ⟨key, val, hput, hslot⟩ := exists_put_of_recordsIn_ne_nil hnone
      rw [hfree _ hput slot (congrArg some hslot), List.length_nil, Nat.zero_add]
      exact (length_recordsIn_le _).trans (length_requestCalls_le settings workerId n request)
  · intro id hid other hother key hmem
    rcases Nat.lt_succ_iff_lt_or_eq.mp hid with hlt | rfl
    · exact absurd hmem (hinOrder.no_reading hidle hlt hother key)
    · cases htask.symm.trans hother
      refine ⟨rfl, rfl, ?_⟩
      have hnothing : requestCalls settings workerId n request = [] := by
        rw [requestCalls, handler_eq_of_get_mem hmem]
        rfl
      rw [hpending, hnothing, List.append_nil]
      exact hfree _ hmem _ rfl

theorem InOrder.resume {id : Nat} (hinOrder : InOrder hashes settings workerId before)
    (hstep : LocalSet.step hashes settings workerId before (.resume id) = some after) :
    InOrder hashes settings workerId after := by
  obtain ⟨⟨hidle, hid⟩, rfl⟩ := LocalSet.step_cases hstep
  exact { hinOrder with
    running_lt := by
      intro other hrunning
      cases hrunning
      exact hid
    reading := fun other hother task htask key hmem =>
      absurd hmem (hinOrder.no_reading hidle hother htask key) }

/-- A task that has yet to read has done nothing, and has nothing else to do. -/
theorem rest_of_get_mem {own : Task n} {effects : List (Effect n)} {key : Bytes}
    (hprogress : Server.Progress settings (some own) effects) (hmem : .get key ∈ own.rest) :
    own.rest = [.get key] ∧ effects = [] ∧
      (handler own.workerId settings own.request : List (Action n)) = [.get key] := by
  obtain ⟨taken, htaken, hcauses⟩ := hprogress
  have hhandler := handler_eq_of_get_mem (htaken ▸ List.mem_append_right taken hmem)
  rw [hhandler] at htaken
  have hnone : taken = [] := by
    have hlength := congrArg List.length htaken
    have hrest := List.length_pos_of_mem hmem
    rw [List.length_append, List.length_singleton] at hlength
    exact List.eq_nil_of_length_eq_zero (by omega)
  subst hnone
  exact ⟨htaken, List.forall₂_nil_left_iff.mp hcauses, hhandler⟩

theorem InOrder.yield (hinOrder : InOrder hashes settings workerId before)
    (hprogress : ∀ id,
      Server.Progress settings (before.server.task id) (effectsOf id before.server.log))
    (hstep : LocalSet.step hashes settings workerId before .yield = some after) :
    InOrder hashes settings workerId after := by
  obtain ⟨id, hrunning, hstuck, rfl⟩ := LocalSet.step_cases hstep
  refine { hinOrder with
    running_lt := fun _ hnone => nomatch hnone
    reading := fun other hother task htask key hmem => ?_ }
  -- a task that has yet to read never waits
  obtain ⟨hown, -⟩ := hinOrder.reading other hother task htask key hmem
  cases hrunning.symm.trans hown
  have hrest := (rest_of_get_mem (htask ▸ hprogress id) hmem).1
  obtain ⟨ownId, request, rest⟩ := task
  obtain rfl : rest = [.get key] := hrest
  rw [Server.step, htask] at hstuck
  cases hstuck

/-- What drivers and the writer do is none of the tasks' business. -/
theorem InOrder.record (hinOrder : InOrder hashes settings workerId before) {entry : Entry n}
    (hentry : ∀ slot, recordsIn hashes slot entry.call?.toList = []) :
    InOrder hashes settings workerId
      { before with server := before.server.record hashes entry } := by
  refine { hinOrder with slots := fun slot => ?_ }
  rw [Server.record_log, filterMap_concat_eq_append, recordsIn_append, hentry, List.append_nil]
  exact hinOrder.slots slot

/-- An effect is to the store what the action that caused it is. -/
theorem call?_of_causes {action : Action n} {effect : Effect n} (hcause : action.Causes effect)
    (id : Nat) : (Entry.task id effect).call? = action.call? := by
  cases hcause <;> rfl

theorem InOrder.act (hinOrder : InOrder hashes settings workerId before)
    (hstep : LocalSet.step hashes settings workerId before .act = some after) :
    InOrder hashes settings workerId after := by
  obtain ⟨id, ownId, request, action, rest, effect, hrunning, htask, houtcome, rfl⟩ :=
    LocalSet.step_cases hstep
  have hid := hinOrder.running_lt id hrunning
  have hlog : (before.server.log ++ [Entry.task id effect]).filterMap Entry.call? =
      before.server.log.filterMap Entry.call? ++ action.call?.toList := by
    rw [filterMap_concat_eq_append, call?_of_causes (World.causes_of_outcome houtcome)]
  obtain ⟨earlier, later, hbefore, hafter⟩ := exists_pendingCalls_act hid htask
  have hsingle : ∀ slot, (recordsIn hashes slot earlier ++
      (recordsIn hashes slot action.call?.toList ++ recordsIn hashes slot later)).length ≤ 1 := by
    intro slot
    have hone := hinOrder.single slot
    rwa [hbefore, recordsIn_append, recordsIn_append] at hone
  constructor
  · exact hinOrder.started_le
  · exact hinOrder.running_lt
  · intro other
    rw [Server.advance_task]
    by_cases hother : other = id
    · subst hother
      have hsame := hinOrder.task other
      rw [htask] at hsame
      rwa [Function.update_self]
    · rw [Function.update_of_ne hother]
      exact hinOrder.task other
  · intro other task hother hnew
    rw [Server.advance_task, Function.update_of_ne (Nat.ne_of_gt (lt_of_lt_of_le hid hother))]
      at hnew
    exact hinOrder.unstarted other task hother hnew
  · intro slot
    have hmoved := append_comm_of_length_le_one (hsingle slot)
    rw [← hinOrder.slots slot, Server.advance_log, Server.advance_task, hlog, hafter, hbefore,
      recordsIn_append, recordsIn_append earlier, recordsIn_append earlier,
      recordsIn_append action.call?.toList, List.append_assoc, hmoved]
  · intro slot
    have hone := hsingle slot
    rw [Server.advance_task, hafter, recordsIn_append]
    simp only [List.length_append] at hone ⊢
    omega
  · intro other hother task hnew key hmem
    rw [Server.advance_task] at hnew ⊢
    have hread : ∃ task, before.server.task other = some task ∧ .get key ∈ task.rest := by
      by_cases hsame : other = id
      · subst hsame
        rw [Function.update_self] at hnew
        cases hnew
        exact ⟨_, htask, List.mem_cons_of_mem _ hmem⟩
      · rw [Function.update_of_ne hsame] at hnew
        exact ⟨task, hnew, hmem⟩
    obtain ⟨task, hold, hmem⟩ := hread
    obtain ⟨hown, hlast, hnone⟩ := hinOrder.reading other hother task hold key hmem
    refine ⟨hown, hlast, ?_⟩
    rw [hbefore, recordsIn_append, recordsIn_append] at hnone
    rw [hafter, recordsIn_append]
    simp only [List.append_eq_nil_iff] at hnone ⊢
    exact ⟨hnone.1, hnone.2.2⟩

theorem StartsInOrder.of_concat {world : World S n} {events : List (LocalEvent n)}
    {event : LocalEvent n}
    (hstarts : StartsInOrder hashes settings workerId world (events ++ [event])) :
    StartsInOrder hashes settings workerId world events :=
  fun earlier before hbefore => hstarts earlier before (hbefore.trans (List.prefix_append _ _))

/-- **A worker keeps its order** as long as every task is started when it may be. -/
theorem inOrder_run {world : World S n} {events : List (LocalEvent n)} {state : LocalSet S n}
    (hrun : LocalSet.run hashes settings workerId (LocalSet.start world) events = some state)
    (hstarts : StartsInOrder hashes settings workerId world events) :
    InOrder hashes settings workerId state := by
  revert hstarts
  refine runSteps_induction (motive := fun events state =>
    StartsInOrder hashes settings workerId world events →
      InOrder hashes settings workerId state) (fun _ => inOrder_start world) ?_ hrun
  intro events before event after hbefore ih hstep hstarts
  have hinOrder := ih hstarts.of_concat
  have hcases := LocalSet.step_cases hstep
  cases event with
  | receive request => exact hinOrder.receive hstep
  | start => exact hinOrder.start (hstarts events before List.prefix_rfl hbefore) hstep
  | resume id => exact hinOrder.resume hstep
  | act => exact hinOrder.act hstep
  | yield =>
      obtain ⟨serverEvents, hserver⟩ := LocalSet.exists_server_run hbefore
      exact hinOrder.yield (Server.progress_run hserver) hstep
  | writerTurn =>
      cases hcases
      exact hinOrder.record fun _ => rfl
  | driverTurn channel =>
      cases hcases
      exact hinOrder.record fun _ => rfl
  | close channel =>
      cases hcases
      exact hinOrder.record fun _ => rfl

end

/-! ## Replies -/

section

variable {DB : Type} [CdDB DB] [LawfulCdDB DB] {db : DB} {settings : SecuritySettings}
  {workerId : Nat} {world : World (TieredStore DB) n} {events : List (LocalEvent n)}
  {state before after : LocalSet (TieredStore DB) n}

/-- Stores that have seen the same records in a slot answer for it alike. -/
theorem getRecord_eq_of_recordsIn (hidle : CdDB.IsIdle db) {calls others : List Call}
    {hash : Hash32} (hsame : recordsIn hashes (hotSlot (hashes.ahash hash)) calls =
      recordsIn hashes (hotSlot (hashes.ahash hash)) others) :
    StateStore.getRecord hashes (Call.run hashes (TieredStore.new db) calls) hash =
      StateStore.getRecord hashes (Call.run hashes (TieredStore.new db) others) hash := by
  have hrun : ∀ calls, StateStore.getRecord hashes (Call.run hashes (TieredStore.new db) calls)
      hash = _ := fun calls => TieredStore.getRecord_run hidle calls hash
  rw [hrun, hrun, lastInSlot_eq_getLast?, lastInSlot_eq_getLast?, hsame]

/-- The tasks that read have replied as one request at a time would. -/
def Answered (hashes : Hashes) (settings : SecuritySettings) (workerId : Nat) (db : DB)
    (state : LocalSet (TieredStore DB) n) : Prop :=
  ∀ id request, state.received[id]? = some request →
    state.server.task id = some ⟨workerId, request, []⟩ →
      ∀ key, (.get key : Action n) ∈ handler workerId settings request →
        repliesOf id state.server.log =
          replyTo hashes settings workerId n (TieredStore.new db) (state.received.take id) request

omit [LawfulCdDB DB] in
theorem Answered.receive {request : GatewayRequest}
    (hanswered : Answered hashes settings workerId db before)
    (hstep : LocalSet.step hashes settings workerId before (.receive request) = some after) :
    Answered hashes settings workerId db after := by
  obtain ⟨-, -, rfl⟩ := LocalSet.step_cases hstep
  intro id other hother hended key hread
  dsimp only at hother hended ⊢
  by_cases hid : id = before.received.length
  · subst hid
    rw [Function.update_self, Option.some.injEq, Task.mk.injEq] at hended
    exact absurd hended.2.2 handler_ne_nil
  · rw [Function.update_of_ne hid] at hended
    have hlength := (List.getElem?_eq_some_iff.mp hother).1
    rw [List.length_append, List.length_singleton] at hlength
    have hlt : id < before.received.length := by omega
    rw [List.getElem?_append_left hlt] at hother
    rw [List.take_append_of_le_length hlt.le]
    exact hanswered id other hother hended key hread

omit [LawfulCdDB DB] in
/-- What drivers and the writer do is no reply. -/
theorem Answered.record (hanswered : Answered hashes settings workerId db before) {entry : Entry n}
    (hentry : ∀ id, entry.effectOf id = none) :
    Answered hashes settings workerId db
      { before with server := before.server.record hashes entry } := by
  intro id request hrequest hended key hread
  rw [repliesOf, Server.record_log, Server.effectsOf_concat, hentry, Option.toList_none,
    List.append_nil]
  exact hanswered id request hrequest hended key hread

/-- The store answers a task that reads as it would one request at a time. -/
theorem get_eq_of_reading {serverEvents : List (ServerEvent n)} {id : Nat} {own : Task n}
    {key : Bytes} (hstart : world.storage = TieredStore.new db) (hidle : CdDB.IsIdle db)
    (hserver : Server.run hashes settings (Server.start world) serverEvents = some before.server)
    (hinOrder : InOrder hashes settings workerId before) (hid : id < before.started)
    (htask : before.server.task id = some own) (hmem : .get key ∈ own.rest)
    (hcalls : (before.received[id]?.toList).flatMap (requestCalls settings workerId n) = []) :
    L2Executor.get hashes before.server.world.storage key =
      L2Executor.get hashes (handleAll hashes settings workerId n (TieredStore.new db)
        (before.received.take id)) key := by
  obtain ⟨-, hlast, hpending⟩ := hinOrder.reading id hid own htask key hmem
  have hslots := hinOrder.slots (keySlot hashes key)
  rw [hpending, List.append_nil, hlast, List.take_add_one, List.flatMap_append, hcalls,
    List.append_nil] at hslots
  rw [Server.world_run hserver, World.storage_replayAll, hstart, handleAll_eq_run,
    L2Executor.get_eq_map, L2Executor.get_eq_map, getRecord_eq_of_recordsIn hidle hslots]

/-- The read of a task that runs is that of one request at a time. -/
theorem Answered.act (hstart : world.storage = TieredStore.new db) (hidle : CdDB.IsIdle db)
    (hrun : LocalSet.run hashes settings workerId (LocalSet.start world) events = some before)
    (hinOrder : InOrder hashes settings workerId before)
    (hanswered : Answered hashes settings workerId db before)
    (hstep : LocalSet.step hashes settings workerId before .act = some after) :
    Answered hashes settings workerId db after := by
  obtain ⟨id, ownId, own, action, rest, effect, hrunning, htask, houtcome, rfl⟩ :=
    LocalSet.step_cases hstep
  intro other request hrequest hended key hread
  simp only [Server.advance_task] at hended
  rw [repliesOf, Server.advance_log, Server.effectsOf_concat]
  by_cases hother : other = id
  · subst hother
    rw [Function.update_self] at hended
    cases hended
    obtain ⟨serverEvents, hserver⟩ := LocalSet.exists_server_run hrun
    have hprogress := Server.progress_run hserver other
    rw [htask] at hprogress
    have hmem : (.get key : Action n) ∈ [action] := by
      obtain ⟨taken, htaken, -⟩ := hprogress
      rw [handler_eq_of_get_mem hread] at htaken
      have hsame := congrArg List.getLast? htaken
      rw [List.getLast?_concat] at hsame
      cases hsame
      exact List.mem_singleton_self _
    cases List.mem_singleton.mp hmem
    obtain ⟨-, hnothing, hhandler⟩ := rest_of_get_mem hprogress hmem
    have hcalls : (before.received[other]?.toList).flatMap
        (requestCalls settings workerId n) = [] := by
      rw [hrequest, Option.toList_some, List.flatMap_singleton, requestCalls, hhandler]
      rfl
    have hget := get_eq_of_reading hstart hidle hserver hinOrder
      (hinOrder.running_lt other hrunning) htask hmem hcalls
    cases houtcome
    rw [hnothing, hget, replyTo, hhandler]
    simp [Entry.effectOf, Effect.reply?, Action.performAll, Action.perform]
  · rw [Function.update_of_ne hother] at hended
    rw [Entry.effectOf, if_neg (Ne.symm hother), Option.toList_none, List.append_nil]
    exact hanswered other request hrequest hended key hread

/-- **Every read is answered as one request at a time would** as long as every task
is started when it may be. -/
theorem answered_run (hstart : world.storage = TieredStore.new db) (hidle : CdDB.IsIdle db)
    (hrun : LocalSet.run hashes settings workerId (LocalSet.start world) events = some state)
    (hstarts : StartsInOrder hashes settings workerId world events) :
    Answered hashes settings workerId db state := by
  revert hstarts
  refine runSteps_induction (motive := fun events state =>
    StartsInOrder hashes settings workerId world events →
      Answered hashes settings workerId db state) ?_ ?_ hrun
  · intro _ id request hrequest
    simp [LocalSet.start] at hrequest
  intro events before event after hbefore ih hstep hstarts
  have hanswered := ih hstarts.of_concat
  have hinOrder := inOrder_run hbefore hstarts.of_concat
  have hcases := LocalSet.step_cases hstep
  cases event with
  | receive request => exact hanswered.receive hstep
  | start =>
      obtain ⟨-, rfl⟩ := hcases
      exact hanswered
  | resume id =>
      obtain ⟨-, rfl⟩ := hcases
      exact hanswered
  | act => exact hanswered.act hstart hidle hbefore hinOrder hstep
  | yield =>
      obtain ⟨id, -, -, rfl⟩ := hcases
      exact hanswered
  | writerTurn =>
      cases hcases
      exact hanswered.record fun _ => rfl
  | driverTurn channel =>
      cases hcases
      exact hanswered.record fun _ => rfl
  | close channel =>
      cases hcases
      exact hanswered.record fun _ => rfl

end

/-! ## The worker and one request at a time -/

/-- Without reads, the replies of a task are those its actions make. -/
theorem replies_of_causes {actions : List (Action n)} {effects : List (Effect n)}
    (hcauses : List.Forall₂ Action.Causes actions effects)
    (hnoGet : ∀ key, .get key ∉ actions) :
    effects.filterMap Effect.reply? = actions.filterMap Action.reply? := by
  induction hcauses with
  | nil => rfl
  | cons hcause _ ih =>
      have hrest := ih fun key hmem => hnoGet key (List.mem_cons_of_mem _ hmem)
      cases hcause with
      | answered key payload => exact absurd List.mem_cons_self (hnoGet key)
      | enqueued channel frame => exact hrest
      | refused channel frame => exact hrest
      | applied key val => exact hrest
      | replied frame => exact congrArg (frame :: ·) hrest

/-- Once all tasks have ended, what was put in a slot is what the requests put there,
in their order. -/
theorem recordsIn_of_ended {S : Type} {settings : SecuritySettings} {workerId : Nat}
    {state : LocalSet S n} (hinOrder : InOrder hashes settings workerId state)
    (hended : ∀ id task, state.server.task id = some task → task.rest = []) (slot : Nat) :
    recordsIn hashes slot (state.server.log.filterMap Entry.call?) =
      recordsIn hashes slot (state.received.flatMap (requestCalls settings workerId n)) := by
  have hnone : pendingCalls state.server.task state.started = [] := by
    refine List.flatMap_eq_nil_iff.mpr fun id _ => ?_
    cases htask : state.server.task id with
    | none => rfl
    | some task => rw [remainingCalls, hended id task htask, List.filterMap_nil]
  have hall : state.received.take state.started = state.received := by
    refine List.take_of_length_le (Nat.le_of_not_lt fun hwaiting => ?_)
    have hspawned := hinOrder.task state.started
    rw [List.getElem?_eq_getElem hwaiting, Option.map_some, Option.map_eq_some_iff] at hspawned
    obtain ⟨task, htask, -⟩ := hspawned
    have hrest := hinOrder.unstarted _ task le_rfl htask
    exact handler_ne_nil (hrest.symm.trans (hended _ task htask))
  have hslots := hinOrder.slots slot
  rwa [hnone, recordsIn_nil, List.append_nil, hall] at hslots

/-- All commands of a run find room in the queue. -/
def AcceptsAll {DB : Type} [CdDB DB] (hashes : Hashes) (start : TieredStore DB)
    (calls : List Call) : Prop :=
  TieredStore.accepted hashes start calls = calls.filterMap (Call.record? hashes)

section

variable {DB : Type} [CdDB DB] [LawfulCdDB DB] {db : DB} {settings : SecuritySettings}
  {workerId : Nat} {world : World (TieredStore DB) n} {events : List (LocalEvent n)}
  {state : LocalSet (TieredStore DB) n}

/-- **When a worker answers as if it handled one request at a time.** Whatever
requests it receives, with any number of channels of any capacity and any schedule
of drivers and the writer: as long as no task is started on a slot in which another,
still waiting, has yet to put, each request gets the replies it gets when requests
are handled one at a time in the order received; and when all have been handled the
store answers every query as it does then, and, if no command was refused, settles
on the same rows. -/
theorem worker_eq_oneAtATime (hstart : world.storage = TieredStore.new db)
    (hidle : CdDB.IsIdle db)
    (hrun : LocalSet.run hashes settings workerId (LocalSet.start world) events = some state)
    (hstarts : StartsInOrder hashes settings workerId world events) :
    (∀ id request, state.received[id]? = some request →
      state.server.task id = some ⟨workerId, request, []⟩ →
        repliesOf id state.server.log =
          replyTo hashes settings workerId n (TieredStore.new db) (state.received.take id)
            request) ∧
    ((∀ id task, state.server.task id = some task → task.rest = []) →
      (∀ hash, StateStore.getRecord hashes state.server.world.storage hash =
        StateStore.getRecord hashes
          (handleAll hashes settings workerId n (TieredStore.new db) state.received) hash) ∧
      (AcceptsAll hashes (TieredStore.new db) (state.server.log.filterMap Entry.call?) →
        AcceptsAll hashes (TieredStore.new db)
          (state.received.flatMap (requestCalls settings workerId n)) →
        state.server.world.storage.settledRows =
          (handleAll hashes settings workerId n (TieredStore.new db)
            state.received).settledRows)) := by
  obtain ⟨serverEvents, hserver⟩ := LocalSet.exists_server_run hrun
  have hinOrder := inOrder_run hrun hstarts
  have hstorage : state.server.world.storage =
      Call.run hashes (TieredStore.new db) (state.server.log.filterMap Entry.call?) := by
    rw [Server.world_run hserver, World.storage_replayAll, hstart]
  refine ⟨fun id request hrequest hended => ?_, fun hended => ⟨fun hash => ?_, ?_⟩⟩
  · by_cases hread : ∃ key, (.get key : Action n) ∈ handler workerId settings request
    · obtain ⟨key, hmem⟩ := hread
      exact answered_run hstart hidle hrun hstarts id request hrequest hended key hmem
    · have hnoGet : ∀ key, (.get key : Action n) ∉ handler workerId settings request :=
        fun key hmem => hread ⟨key, hmem⟩
      have hprogress := Server.progress_run hserver id
      rw [hended] at hprogress
      obtain ⟨taken, htaken, hcauses⟩ := hprogress
      rw [List.append_nil] at htaken
      subst htaken
      rw [repliesOf, replies_of_causes hcauses hnoGet, replyTo, Action.performAll_replies hnoGet]
  · rw [hstorage, handleAll_eq_run]
    exact getRecord_eq_of_recordsIn hidle (recordsIn_of_ended hinOrder hended _)
  · intro haccepted hreference
    funext entityId
    rw [hstorage, handleAll_eq_run, TieredStore.settledRows_run, TieredStore.settledRows_run,
      haccepted, hreference, ← lastOfEntity_recordsIn, ← lastOfEntity_recordsIn,
      recordsIn_of_ended hinOrder hended]

end

/-- One channel with room for one frame, before an empty store. -/
def narrowChannel : World (TieredStore (ReferenceDB 8)) 1 where
  storage := TieredStore.new ReferenceDB.empty
  broadcasts := []
  serial _ := ⟨1, true, []⟩

/-- A get of the key the scripts are put on. -/
def getScript : GatewayRequest := ⟨.get "vm:all", none⟩

/-- A script, and a get behind it. -/
def scriptThenGet : List (LocalEvent 1) :=
  [.receive (localPut "vm:all" [1]), .receive getScript,
    .start, .act, .act, .act, .yield, .start, .act, .yield]

/-- Two scripts, and a get behind them that is started while the second waits. -/
def overtakingGet : List (LocalEvent 1) :=
  [.receive (localPut "vm:all" [1]), .receive (localPut "vm:all" [2]), .receive getScript,
    .start, .act, .act, .act, .yield, .start, .yield, .start, .act, .yield,
    .driverTurn 0, .resume 1, .act, .act, .act, .yield]

theorem startsInOrder_scriptThenGet :
    StartsInOrder sampleHashes ⟨true⟩ 0 narrowChannel scriptThenGet := by
  intro earlier before hprefix hrun request _ action _ key val hput
  obtain ⟨position, hposition, rfl, hevent⟩ := exists_take_of_prefix_concat hprefix
  have hpending : (LocalSet.run sampleHashes ⟨true⟩ 0 (LocalSet.start narrowChannel)
      (scriptThenGet.take position)).map (fun state =>
        pendingCalls state.server.task state.started) = some [] := by
    have hstarts : ∀ position < scriptThenGet.length,
        scriptThenGet[position]? = some .start → position = 2 ∨ position = 7 := by decide
    rcases hstarts position hposition hevent with rfl | rfl <;> rfl
  rw [hrun, Option.map_some, Option.some.injEq] at hpending
  rw [hpending] at hput
  cases hput

theorem worker_eq_oneAtATime_scriptThenGet :
    ∃ state, LocalSet.run sampleHashes ⟨true⟩ 0 (LocalSet.start narrowChannel) scriptThenGet =
        some state ∧
      repliesOf 1 state.server.log =
        replyTo sampleHashes ⟨true⟩ 0 1 (TieredStore.new (ReferenceDB.empty : ReferenceDB 8))
          (state.received.take 1) getScript := by
  obtain ⟨state, hrun, hreceived, hended⟩ : ∃ state,
      LocalSet.run sampleHashes ⟨true⟩ 0 (LocalSet.start narrowChannel) scriptThenGet =
        some state ∧
      state.received[1]? = some getScript ∧ state.server.task 1 = some ⟨0, getScript, []⟩ :=
    ⟨_, rfl, rfl, rfl⟩
  have hidle : CdDB.IsIdle (ReferenceDB.empty : ReferenceDB 8) := rfl
  exact ⟨state, hrun, (worker_eq_oneAtATime rfl hidle hrun startsInOrder_scriptThenGet).1 1
    getScript hreceived hended⟩

/-- The get is answered with the first script, where one request at a time would
answer with the second. -/
theorem overtakingGet_replies :
    ∃ state, LocalSet.run sampleHashes ⟨true⟩ 0 (LocalSet.start narrowChannel) overtakingGet =
        some state ∧
      state.received =
        [localPut "vm:all" [1], localPut "vm:all" [2], getScript] ∧
      repliesOf 2 state.server.log = [.bulkString (some [1])] ∧
      replyTo sampleHashes ⟨true⟩ 0 1 (TieredStore.new (ReferenceDB.empty : ReferenceDB 8))
        (state.received.take 2) getScript = [.bulkString (some [2])] := by
  obtain ⟨state, hrun, hreceived, hreplies⟩ : ∃ state,
      LocalSet.run sampleHashes ⟨true⟩ 0 (LocalSet.start narrowChannel) overtakingGet =
        some state ∧
      state.received =
        [localPut "vm:all" [1], localPut "vm:all" [2], getScript] ∧
      repliesOf 2 state.server.log = [.bulkString (L2Executor.get sampleHashes
        (Call.run sampleHashes (TieredStore.new (ReferenceDB.empty : ReferenceDB 8))
          ([] ++ [.put (utf8 "vm:all".toList) [1]])) (utf8 "vm:all".toList))] :=
    ⟨_, rfl, rfl, rfl⟩
  refine ⟨state, hrun, hreceived, ?_, ?_⟩
  · rw [hreplies, TieredStore.get_run_concat_put]
  · have hcalls : (state.received.take 2).flatMap (requestCalls ⟨true⟩ 0 1) =
        [.put (utf8 "vm:all".toList) [1]] ++ [.put (utf8 "vm:all".toList) [2]] := by
      rw [hreceived]
      rfl
    rw [replyTo, handleAll_eq_run, hcalls]
    show [Frame.bulkString (L2Executor.get sampleHashes _ (utf8 "vm:all".toList))] = _
    rw [TieredStore.get_run_concat_put]

end ServerGo.Analysis
