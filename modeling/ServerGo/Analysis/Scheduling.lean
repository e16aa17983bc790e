/-
# No worker is ever stuck

Tasks of several workers wait for room in the same bounded channels, and each worker
runs one task at a time. Still, whatever the workers and the drivers choose to do,
as long as they only do what furthers something they come to an end, and they end
with every request answered. The work that is left is bounded by what has been
received.
-/

import ServerGo.Analysis.Completion
import ServerGo.Gateway.Cores
import ServerGo.Math.Census

namespace ServerGo.Analysis

open ServerGo.Gateway ServerGo.Math ServerGo.Storage

variable {S : Type} [StateStore S] {n cores : Nat} {hashes : Hashes} {settings : SecuritySettings}
  {world : World S n} {events : List (CoreEvent n cores)} {state after : Process S n cores}

/-! ## Every task has its worker -/

/-- The requests received are those that have tasks, each on one of the workers. -/
structure Assigned (state : Process S n cores) : Prop where
  task_isSome : ∀ id, (state.server.task id).isSome ↔ id < state.received
  exists_core : ∀ id, id < state.received → ∃ i, id ∈ (state.core i).tasks
  total_tasks : total (fun core => core.tasks.length) state.core = state.received

section

omit [StateStore S]

/-- A worker that keeps its tasks leaves every task where it is. -/
theorem exists_core_setCore {i : Fin cores} {core : Core} {id : Nat}
    (htasks : (state.core i).tasks ⊆ core.tasks) (hmem : ∃ j, id ∈ (state.core j).tasks) :
    ∃ j, id ∈ ((state.setCore i core).core j).tasks := by
  obtain ⟨j, hmem⟩ := hmem
  refine ⟨j, ?_⟩
  rw [Process.setCore_core]
  by_cases hj : j = i
  · subst hj
    rw [Function.update_self]
    exact htasks hmem
  · rw [Function.update_of_ne hj]
    exact hmem

/-- A worker that has the tasks it had changes nothing. -/
theorem Assigned.setCore (hassigned : Assigned state) {i : Fin cores} {core : Core}
    (htasks : core.tasks = (state.core i).tasks) : Assigned (state.setCore i core) where
  task_isSome := hassigned.task_isSome
  exists_core id hid :=
    exists_core_setCore (htasks ▸ List.Subset.refl _) (hassigned.exists_core id hid)
  total_tasks := by
    have htotal := total_update (fun core : Core => core.tasks.length) state.core i core
    rw [htasks, hassigned.total_tasks] at htotal
    exact Nat.add_right_cancel htotal

/-- Nor does a server with the same tasks. -/
theorem Assigned.serve (hassigned : Assigned state) {server : Server S n}
    (hsome : ∀ id, (server.task id).isSome = (state.server.task id).isSome) :
    Assigned { state with server := server } where
  task_isSome id := by
    rw [← hassigned.task_isSome id, hsome id]
  exists_core := hassigned.exists_core
  total_tasks := hassigned.total_tasks

/-- A worker that receives a request gets its task. -/
theorem Assigned.receive (hassigned : Assigned state) {i : Fin cores} {server : Server S n}
    {task : Task n}
    (htask : server.task = Function.update state.server.task state.received (some task)) :
    Assigned { state.setCore i { state.core i with
        tasks := (state.core i).tasks ++ [state.received] } with
      server := server
      received := state.received + 1 } where
  task_isSome id := by
    rw [htask, Function.update_apply, Nat.lt_succ_iff_lt_or_eq, ← hassigned.task_isSome id]
    split
    next hid => simp [hid]
    next hid => simp [hid]
  exists_core id hid := by
    rcases Nat.lt_succ_iff_lt_or_eq.mp hid with hless | rfl
    · exact exists_core_setCore (List.subset_append_left ..) (hassigned.exists_core id hless)
    · refine ⟨i, ?_⟩
      rw [Process.setCore_core, Function.update_self]
      exact List.mem_append_right _ List.mem_cons_self
  total_tasks := by
    have htotal := total_update (fun core : Core => core.tasks.length) state.core i
      { state.core i with tasks := (state.core i).tasks ++ [state.received] }
    rw [hassigned.total_tasks, List.length_append, List.length_singleton] at htotal
    have hlonger : total (fun core : Core => core.tasks.length) (Function.update state.core i
        { state.core i with tasks := (state.core i).tasks ++ [state.received] }) =
          state.received + 1 := by omega
    exact hlonger

end

/-- A task that acts remains one. -/
theorem isSome_of_act {server next : Server S n} {id : Nat}
    (hstep : Server.step hashes settings server (.act id) = some next) (other : Nat) :
    (next.task other).isSome = (server.task other).isSome := by
  obtain ⟨workerId, request, action, rest, effect, htask, -, rfl⟩ := Server.act_cases hstep
  rw [Server.advance_task, Function.update_apply]
  split
  next hother => rw [hother, htask]; rfl
  next => rfl

theorem Assigned.step (hassigned : Assigned state) {event : CoreEvent n cores}
    (hstep : Process.step hashes settings state event = some after) : Assigned after := by
  have hcases := Process.step_cases hstep
  cases event with
  | receive i request =>
      obtain ⟨server, -, hserver, rfl⟩ := hcases
      rw [Server.step] at hserver
      split at hserver
      next hfresh =>
        cases hserver
        exact hassigned.receive rfl
      next => cases hserver
  | start i =>
      obtain ⟨id, -, -, rfl⟩ := hcases
      exact hassigned.setCore rfl
  | resume i id =>
      obtain ⟨-, rfl⟩ := hcases
      exact hassigned.setCore rfl
  | act i =>
      obtain ⟨id, server, -, hserver, rfl⟩ := hcases
      exact hassigned.serve (isSome_of_act hserver)
  | yield i =>
      obtain ⟨id, -, -, rfl⟩ := hcases
      exact hassigned.setCore rfl
  | writerTurn =>
      cases hcases
      exact hassigned.serve fun _ => rfl
  | driverTurn channel =>
      cases hcases
      exact hassigned.serve fun _ => rfl
  | close channel =>
      cases hcases
      exact hassigned.serve fun _ => rfl

theorem assigned_run
    (hrun : Process.run hashes settings (Process.start world) events = some state) :
    Assigned state :=
  runSteps_induction (motive := fun _ (state : Process S n cores) => Assigned state)
    ⟨fun id => by simp [Process.start, Server.start], fun id hid => absurd hid (Nat.not_lt_zero id),
      by simp [Process.start, total]⟩
    (fun _ _ _ _ _ ih hstep => ih.step hstep) hrun

/-- What the workers share is a server that has run. -/
theorem exists_server_run
    (hrun : Process.run hashes settings (Process.start world) events = some state) :
    ∃ serverEvents,
      Server.run hashes settings (Server.start world) serverEvents = some state.server := by
  obtain ⟨server, hserver, rfl⟩ := (Process.simulation hashes settings).rel_run rfl hrun
  exact ⟨_, hserver⟩

/-! ## Work -/

/-- A task can act. -/
def canAct (hashes : Hashes) (settings : SecuritySettings) (server : Server S n) (id : Nat) :
    Bool :=
  (Server.step hashes settings server (.act id)).isSome

/-- What furthers something: a task is started, acts or gives way, one that waited is
woken because its send can go through, or a driver takes a frame. -/
def isUseful (hashes : Hashes) (settings : SecuritySettings) (state : Process S n cores) :
    CoreEvent n cores → Bool
  | .start _ => true
  | .resume _ id => canAct hashes settings state.server id
  | .act _ => true
  | .yield _ => true
  | .driverTurn channel => !(state.server.world.serial channel).queue.isEmpty
  | .receive _ _ => false
  | .writerTurn => false
  | .close _ => false

/-- The process when it only does what furthers something. -/
def work (hashes : Hashes) (settings : SecuritySettings) (state : Process S n cores)
    (event : CoreEvent n cores) : Option (Process S n cores) :=
  if isUseful hashes settings state event then Process.step hashes settings state event else none

theorem work_cases {event : CoreEvent n cores}
    (hwork : work hashes settings state event = some after) :
    isUseful hashes settings state event = true ∧
      Process.step hashes settings state event = some after :=
  Option.ite_none_right_eq_some.mp hwork

theorem run_of_work {later : List (CoreEvent n cores)}
    (hlater : runSteps (work hashes settings) state later = some after) :
    Process.run hashes settings state later = some after :=
  runSteps_induction (motive := fun later (after : Process S n cores) =>
    Process.run hashes settings state later = some after) rfl
    (fun _ before _ _ _ ih hstep => runSteps_concat_eq_some.mpr ⟨before, ih, (work_cases hstep).2⟩)
    hlater

/-! ## How much there is to do -/

/-- What a task has yet to do. -/
def restLength (task : Option (Task n)) : Nat := task.elim 0 fun task => task.rest.length

/-- A worker is at rest, at work, or with a task that must give way. -/
def holding (hashes : Hashes) (settings : SecuritySettings) (server : Server S n) (core : Core) :
    Nat :=
  match core.running with
  | none => 1
  | some id => if canAct hashes settings server id then 0 else 2

/-- What is left to do, an action weighing more than all that it may undo. -/
def workLeft (hashes : Hashes) (settings : SecuritySettings) (state : Process S n cores) : Nat :=
  (2 * cores + 2) * ∑ id ∈ Finset.range state.received, restLength (state.server.task id) +
    2 * total (fun core => core.tasks.length - core.started) state.core +
    total (holding hashes settings state.server) state.core +
    total (fun channel => channel.queue.length) state.server.world.serial

variable (hashes settings) in
theorem holding_le (server : Server S n) (core : Core) :
    holding hashes settings server core ≤ 2 := by
  rw [holding]
  split
  · exact Nat.le_succ 1
  · split
    · exact Nat.zero_le 2
    · exact Nat.le_refl 2

theorem canAct_iff {server : Server S n} {id : Nat} :
    canAct hashes settings server id = true ↔
      ∃ workerId request action rest, server.task id = some ⟨workerId, request, action :: rest⟩ ∧
        (server.world.outcome hashes action).isSome := by
  rw [canAct, Option.isSome_iff_exists]
  constructor
  · rintro ⟨next, hstep⟩
    obtain ⟨workerId, request, action, rest, effect, htask, houtcome, -⟩ := Server.act_cases hstep
    exact ⟨workerId, request, action, rest, htask, by rw [houtcome]; rfl⟩
  · rintro ⟨workerId, request, action, rest, htask, houtcome⟩
    obtain ⟨effect, heffect⟩ := Option.isSome_iff_exists.mp houtcome
    refine ⟨server.advance hashes id ⟨workerId, request, rest⟩ effect, ?_⟩
    simp only [Server.step, htask, heffect, Option.map_some]

/-- A driver that takes a frame keeps no task from acting. -/
theorem canAct_of_driverTurn {server : Server S n} {id : Nat} (channel : Fin n)
    (hcan : canAct hashes settings server id = true) :
    canAct hashes settings (server.record hashes (.driverTurn channel)) id = true := by
  obtain ⟨workerId, request, action, rest, htask, houtcome⟩ := canAct_iff.mp hcan
  refine canAct_iff.mpr ⟨workerId, request, action, rest, htask, ?_⟩
  cases action with
  | sendSerial other frame =>
      rw [Server.record_world, World.replay]
      by_cases hother : other = channel
      · subst hother
        rw [World.outcome] at houtcome ⊢
        simp only [Function.update_self, List.length_tail]
        split at houtcome
        next hopen =>
            rw [if_pos hopen]
            split at houtcome
            next hless => rw [if_pos (by omega)]; rfl
            next => cases houtcome
        next hclosed => rw [if_neg hclosed]; rfl
      · rw [World.outcome] at houtcome ⊢
        simp only [Function.update_of_ne hother]
        exact houtcome
  | get key => rfl
  | put key val => rfl
  | reply frame => rfl

theorem holding_driverTurn_le (server : Server S n) (channel : Fin n) (core : Core) :
    holding hashes settings (server.record hashes (.driverTurn channel)) core ≤
      holding hashes settings server core := by
  rw [holding, holding]
  split
  next => exact Nat.le_refl 1
  next id _ =>
      by_cases hcan : canAct hashes settings server id = true
      · rw [if_pos (canAct_of_driverTurn channel hcan)]
        exact Nat.zero_le _
      · rw [if_neg hcan]
        split
        · exact Nat.zero_le 2
        · exact Nat.le_refl 2

/-- An action that is taken is one less to take. -/
theorem sum_restLength_act_lt {server next : Server S n} {id received : Nat}
    (hstep : Server.step hashes settings server (.act id) = some next) (hid : id < received) :
    ∑ other ∈ Finset.range received, restLength (next.task other) <
      ∑ other ∈ Finset.range received, restLength (server.task other) := by
  obtain ⟨workerId, request, action, rest, effect, htask, -, rfl⟩ := Server.act_cases hstep
  refine Finset.sum_lt_sum (fun other _ => ?_) ⟨id, Finset.mem_range.mpr hid, ?_⟩
  · rw [Server.advance_task, Function.update_apply]
    split
    next hother =>
        rw [hother, htask]
        exact Nat.le_succ _
    next => exact Nat.le_refl _
  · rw [Server.advance_task, Function.update_self, htask]
    exact Nat.lt_succ_self _

/-- No action lengthens the queues by more than a frame. -/
theorem total_queue_act_le {server next : Server S n} {id : Nat}
    (hstep : Server.step hashes settings server (.act id) = some next) :
    total (fun channel => channel.queue.length) next.world.serial ≤
      total (fun channel => channel.queue.length) server.world.serial + 1 := by
  obtain ⟨workerId, request, action, rest, effect, -, -, rfl⟩ := Server.act_cases hstep
  rw [Server.advance_world]
  cases effect with
  | enqueued channel frame =>
      have htotal := total_update (fun channel : SerialChannel => channel.queue.length)
        server.world.serial channel ⟨(server.world.serial channel).capacity,
          (server.world.serial channel).isOpen, (server.world.serial channel).queue ++ [frame]⟩
      rw [List.length_append, List.length_singleton] at htotal
      dsimp only [World.after]
      omega
  | refused channel frame => exact Nat.le_succ _
  | applied key val => exact Nat.le_succ _
  | replied frame => exact Nat.le_succ _

/-- A worker for which less is left to do. -/
theorem workLeft_setCore_lt {i : Fin cores} {core : Core}
    (hless : 2 * (core.tasks.length - core.started) +
        holding hashes settings state.server core <
      2 * ((state.core i).tasks.length - (state.core i).started) +
        holding hashes settings state.server (state.core i)) :
    workLeft hashes settings (state.setCore i core) < workLeft hashes settings state := by
  have hwaiting := total_update (fun core : Core => core.tasks.length - core.started) state.core i
    core
  have hholding := total_update (holding hashes settings state.server) state.core i core
  rw [workLeft, workLeft, Process.setCore_server, Process.setCore_received, Process.setCore_core]
  omega

/-- **What furthers something leaves less to do.** -/
theorem workLeft_work_lt (hassigned : Assigned state) {event : CoreEvent n cores}
    (hwork : work hashes settings state event = some after) :
    workLeft hashes settings after < workLeft hashes settings state := by
  obtain ⟨huseful, hstep⟩ := work_cases hwork
  have hcases := Process.step_cases hstep
  cases event with
  | receive i request => cases huseful
  | start i =>
      obtain ⟨id, hidle, holdest, rfl⟩ := hcases
      have hstarted := (List.getElem?_eq_some_iff.mp holdest).1
      have hrest : holding hashes settings state.server (state.core i) = 1 := by
        rw [holding, hidle]
      have hheld := holding_le hashes settings state.server
        ⟨(state.core i).tasks, (state.core i).started + 1, some id⟩
      exact workLeft_setCore_lt (by rw [hrest]; dsimp only; omega)
  | resume i id =>
      obtain ⟨⟨hidle, -⟩, rfl⟩ := hcases
      have hrest : holding hashes settings state.server (state.core i) = 1 := by
        rw [holding, hidle]
      have hheld : holding hashes settings state.server
          { state.core i with running := some id } = 0 := if_pos huseful
      exact workLeft_setCore_lt (by rw [hrest, hheld]; exact Nat.lt_succ_self _)
  | act i =>
      obtain ⟨id, server, hrunning, hserver, rfl⟩ := hcases
      obtain ⟨_, _, _, _, _, htask, -, -⟩ := Server.act_cases hserver
      have hid : id < state.received := (hassigned.task_isSome id).mp (by rw [htask]; rfl)
      -- whatever the action does to the workers and the channels, it is one less to take
      have hrest := Nat.mul_le_mul_left (2 * cores + 2)
        (Nat.succ_le_of_lt (sum_restLength_act_lt hserver hid))
      have hheld := total_le (holding_le hashes settings server) state.core
      have hqueue := total_queue_act_le hserver
      rw [Nat.mul_succ] at hrest
      rw [Fintype.card_fin] at hheld
      dsimp only [workLeft]
      omega
  | yield i =>
      obtain ⟨id, hrunning, hstuck, rfl⟩ := hcases
      have hheld : holding hashes settings state.server (state.core i) = 2 := by
        rw [holding, hrunning]
        exact if_neg (by rw [canAct, hstuck]; exact Bool.false_ne_true)
      have hrest : holding hashes settings state.server
          { state.core i with running := none } = 1 := rfl
      exact workLeft_setCore_lt (by rw [hrest, hheld]; exact Nat.lt_succ_self _)
  | writerTurn => cases huseful
  | driverTurn channel =>
      cases hcases
      have hqueue := total_update (fun channel : SerialChannel => channel.queue.length)
        state.server.world.serial channel ⟨(state.server.world.serial channel).capacity,
          (state.server.world.serial channel).isOpen,
          (state.server.world.serial channel).queue.tail⟩
      have hlength : 0 < (state.server.world.serial channel).queue.length := by
        rw [List.length_pos_iff]
        simpa [isUseful] using huseful
      have hheld : total (holding hashes settings
          (state.server.record hashes (.driverTurn channel))) state.core ≤
            total (holding hashes settings state.server) state.core :=
        Finset.sum_le_sum fun i _ => holding_driverTurn_le state.server channel (state.core i)
      rw [List.length_tail] at hqueue
      dsimp only [workLeft, Server.record_world, Server.record_task, World.replay]
      omega
  | close channel => cases huseful

/-- There is never more to do than what has been received comes to, and the queues. -/
theorem workLeft_le {capacity : Fin n → Nat} (hbounded : ChannelsBounded capacity world)
    (hrun : Process.run hashes settings (Process.start world) events = some state) :
    workLeft hashes settings state ≤
      ((2 * cores + 2) * (n + 2) + 2) * state.received + 2 * cores + ∑ i, capacity i := by
  have hassigned := assigned_run hrun
  obtain ⟨serverEvents, hserver⟩ := exists_server_run hrun
  have hrest : ∑ id ∈ Finset.range state.received, restLength (state.server.task id) ≤
      (n + 2) * state.received := by
    calc
      _ ≤ ∑ _id ∈ Finset.range state.received, (n + 2) := by
        refine Finset.sum_le_sum fun id _ => ?_
        cases htask : state.server.task id with
        | none => exact Nat.zero_le _
        | some task =>
            exact (Nat.le_add_left _ _).trans (length_effectsOf_add_rest_le hserver htask)
      _ = (n + 2) * state.received := by
        rw [Finset.sum_const_nat fun _ _ => rfl, Finset.card_range, Nat.mul_comm]
  have hwaiting : total (fun core => core.tasks.length - core.started) state.core ≤
      state.received := by
    rw [← hassigned.total_tasks]
    exact Finset.sum_le_sum fun i _ => Nat.sub_le _ _
  have hheld := total_le (holding_le hashes settings state.server) state.core
  have hqueue : total (fun channel => channel.queue.length) state.server.world.serial ≤
      ∑ i, capacity i := by
    have hstart : ChannelsBounded capacity (Server.start world : Server S n).world := hbounded
    exact Finset.sum_le_sum fun i _ => (hstart.run hserver i).2
  have hmul := Nat.mul_le_mul_left (2 * cores + 2) hrest
  rw [Fintype.card_fin] at hheld
  rw [← Nat.mul_assoc] at hmul
  rw [workLeft, Nat.add_mul _ 2 state.received]
  omega

/-! ## The end of it -/

/-- An action that waits is a send to a channel that is full. -/
theorem exists_full_of_waits {world : World S n} {action : Action n}
    (hwaits : ¬(world.outcome hashes action).isSome) :
    ∃ channel, (world.serial channel).capacity ≤ (world.serial channel).queue.length := by
  cases action with
  | sendSerial channel frame =>
      refine ⟨channel, Nat.le_of_not_lt fun hless => hwaits ?_⟩
      rw [World.outcome, if_pos hless]
      split
      · rfl
      · rfl
  | get key => exact absurd rfl hwaits
  | put key val => exact absurd rfl hwaits
  | reply frame => exact absurd rfl hwaits

/-- Where nothing is left that furthers anything, all is done. -/
theorem rest_eq_nil_of_no_work {capacity : Fin n → Nat}
    (hcapacity : ∀ channel, 0 < capacity channel)
    (hbounded : ChannelsBounded capacity state.server.world) (hassigned : Assigned state)
    (hdone : ∀ event, work hashes settings state event = none) {id : Nat} {task : Task n}
    (htask : state.server.task id = some task) : task.rest = [] := by
  obtain ⟨i, hmem⟩ := hassigned.exists_core id ((hassigned.task_isSome id).mp (by rw [htask]; rfl))
  have hnoStep : ∀ event, isUseful hashes settings state event = true →
      Process.step hashes settings state event = none := by
    intro event huseful
    have hwork := hdone event
    rwa [work, if_pos huseful] at hwork
  cases hrunning : (state.core i).running with
  | some other =>
      -- it can act, or else it can give way
      have hact := hnoStep (.act i) rfl
      have hyield := hnoStep (.yield i) rfl
      rw [Process.step, hrunning, Option.bind_some, Process.serve, Option.map_eq_none_iff] at hact
      rw [Process.step, hrunning, Option.bind_some, hact] at hyield
      cases hyield
  | none =>
      have hstarted : (state.core i).tasks.length ≤ (state.core i).started := by
        have hstart := hnoStep (.start i) rfl
        rwa [Process.step, if_pos hrunning, Option.map_eq_none_iff, List.getElem?_eq_none_iff]
          at hstart
      have hcannot : canAct hashes settings state.server id = false := by
        by_contra hcan
        have hresume := hnoStep (.resume i id) (Bool.of_not_eq_false hcan)
        rw [Process.step, if_pos ⟨hrunning, (List.take_of_length_le hstarted).symm ▸ hmem⟩]
          at hresume
        cases hresume
      obtain ⟨workerId, request, rest⟩ := task
      cases rest with
      | nil => rfl
      | cons action rest =>
          -- it waits for a channel that is full, whose driver can then take a frame
          have hwaits : ¬(state.server.world.outcome hashes action).isSome := fun hsome =>
            Bool.eq_false_iff.mp hcannot (canAct_iff.mpr ⟨_, _, _, _, htask, hsome⟩)
          obtain ⟨channel, hfull⟩ := exists_full_of_waits hwaits
          have hturn := hnoStep (.driverTurn channel) (by
            have hroom := hcapacity channel
            rw [(hbounded channel).1] at hfull
            have hqueue : (state.server.world.serial channel).queue ≠ [] :=
              List.ne_nil_of_length_pos (hroom.trans_le hfull)
            simpa [isUseful] using hqueue)
          cases hturn

/-- **No worker is ever stuck.** In any state a process can reach, whatever its workers
and the drivers then do, if only what furthers something, they come to an end after
so many steps at most; and where they end, every request that has been received is
answered. -/
theorem schedules_end_answered {capacity : Fin n → Nat}
    (hcapacity : ∀ channel, 0 < capacity channel)
    (hbounded : ChannelsBounded capacity world)
    (hrun : Process.run hashes settings (Process.start world) events = some state)
    {later : List (CoreEvent n cores)}
    (hlater : runSteps (work hashes settings) state later = some after) :
    later.length ≤
        ((2 * cores + 2) * (n + 2) + 2) * state.received + 2 * cores + ∑ i, capacity i ∧
      ((∀ event, work hashes settings after event = none) →
        ∀ id, id < after.received → ∃ task, after.server.task id = some task ∧
          IsAnswered task.request (effectsOf id after.server.log)) := by
  have hwhole : Process.run hashes settings (Process.start world) (events ++ later) = some after :=
    runSteps_trans hrun (run_of_work hlater)
  constructor
  · have hlength := length_add_le_of_lt (workLeft hashes settings)
      (fun before event next hassigned hwork =>
        ⟨hassigned.step (work_cases hwork).2, workLeft_work_lt hassigned hwork⟩)
      (assigned_run hrun) hlater
    exact (Nat.le_of_add_right_le hlength).trans (workLeft_le hbounded hrun)
  · intro hdone id hid
    have hassigned := assigned_run hwhole
    obtain ⟨serverEvents, hserver⟩ := exists_server_run hwhole
    have hstart : ChannelsBounded capacity (Server.start world : Server S n).world := hbounded
    obtain ⟨task, htask⟩ := Option.isSome_iff_exists.mp ((hassigned.task_isSome id).mpr hid)
    have hrest := rest_eq_nil_of_no_work hcapacity (hstart.run hserver) hassigned hdone htask
    exact ⟨task, htask, isAnswered_of_done hserver htask hrest⟩

def firstCore : Fin 2 := ⟨0, Nat.two_pos⟩

def secondCore : Fin 2 := ⟨1, Nat.one_lt_two⟩

/-- Two workers with a script each, and one channel with room for one of them. -/
def scriptOnEach : List (CoreEvent 1 2) :=
  [.receive firstCore (localPut "vm:all" [1]), .receive secondCore (localPut "vm:all" [2]),
    .start firstCore, .start secondCore, .act firstCore, .yield secondCore]

/-- The second waits until the driver has taken the frame of the first. -/
def bothThrough : List (CoreEvent 1 2) :=
  [.act firstCore, .act firstCore, .yield firstCore, .driverTurn (Fin.last 0),
    .resume secondCore 1, .act secondCore, .act secondCore, .act secondCore, .yield secondCore,
    .driverTurn (Fin.last 0)]

theorem schedules_end_answered_scriptOnEach :
    ∃ state after, Process.run sampleHashes ⟨true⟩ (Process.start narrowChannel) scriptOnEach =
        some state ∧
      runSteps (work sampleHashes ⟨true⟩) state bothThrough = some after ∧
      ∃ task, after.server.task 1 = some task ∧
        IsAnswered task.request (effectsOf 1 after.server.log) := by
  obtain ⟨state, hrun, after, hlater, hreceived, hdone⟩ : ∃ state,
      Process.run sampleHashes ⟨true⟩ (Process.start narrowChannel) scriptOnEach = some state ∧
      ∃ after, runSteps (work sampleHashes ⟨true⟩) state bothThrough = some after ∧
        1 < after.received ∧ ∀ event, work sampleHashes ⟨true⟩ after event = none := by
    refine ⟨_, rfl, _, rfl, by decide, fun event => ?_⟩
    cases event with
    | receive i request => rfl
    | start i =>
        revert i
        exact Fin.forall_fin_two.mpr ⟨rfl, rfl⟩
    | resume i id =>
        rcases id with _ | _ | id
        · rfl
        · rfl
        · rfl
    | act i =>
        revert i
        exact Fin.forall_fin_two.mpr ⟨rfl, rfl⟩
    | yield i =>
        revert i
        exact Fin.forall_fin_two.mpr ⟨rfl, rfl⟩
    | writerTurn => rfl
    | driverTurn channel =>
        revert channel
        exact Fin.forall_fin_one.mpr rfl
    | close channel => rfl
  have hbounded : ChannelsBounded (fun _ => 1) narrowChannel := fun _ => ⟨rfl, Nat.zero_le _⟩
  exact ⟨state, after, hrun, hlater,
    (schedules_end_answered (fun _ => Nat.one_pos) hbounded hrun hlater).2 hdone 1 hreceived⟩

end ServerGo.Analysis
