/-
# Nothing gets stuck

A task that sends to a full channel waits for its driver. As long as drivers take
frames off, every request that has arrived can still be answered, from whatever
state the server has got into, and no queue ever holds more than its channel has
room for.
-/

import Mathlib.Algebra.Order.BigOperators.Group.Finset
import Mathlib.Algebra.BigOperators.Group.Finset.Basic
import ServerGo.Analysis.OneAtATime
import ServerGo.Analysis.Replies

namespace ServerGo.Analysis

open ServerGo.Gateway ServerGo.Math ServerGo.Storage

variable {S : Type} [StateStore S] {n : Nat} {hashes : Hashes} {settings : SecuritySettings}
  {world : World S n} {events : List (ServerEvent n)} {state after : Server S n}

/-! ## Channels -/

/-- No channel holds more than it has room for, and each has room for something. -/
def ChannelsBounded (capacity : Fin n → Nat) (world : World S n) : Prop :=
  ∀ channel, (world.serial channel).capacity = capacity channel ∧
    (world.serial channel).queue.length ≤ capacity channel

/-- What happens to a channel leaves its capacity, and lengthens its queue only by a
frame there was room for. -/
theorem ChannelsBounded.step {capacity : Fin n → Nat}
    (hbounded : ChannelsBounded capacity state.world) {event : ServerEvent n}
    (hstep : Server.step hashes settings state event = some after) :
    ChannelsBounded capacity after.world := by
  have hupdate : ∀ (other : Fin n) (changed : SerialChannel),
      changed.capacity = capacity other → changed.queue.length ≤ capacity other →
        ∀ channel,
          (Function.update state.world.serial other changed channel).capacity = capacity channel ∧
          (Function.update state.world.serial other changed channel).queue.length ≤
            capacity channel := by
    intro other changed hcapacity hlength channel
    by_cases hchannel : channel = other
    · subst hchannel
      rw [Function.update_self]
      exact ⟨hcapacity, hlength⟩
    · rw [Function.update_of_ne hchannel]
      exact hbounded channel
  cases event with
  | arrive id workerId request =>
      rw [Server.step] at hstep
      split at hstep
      · cases hstep
        exact hbounded
      · cases hstep
  | act id =>
      obtain ⟨workerId, request, action, rest, effect, -, houtcome, rfl⟩ :=
        Server.act_cases hstep
      cases action with
      | sendSerial channel frame =>
          rw [World.outcome] at houtcome
          split at houtcome
          · obtain ⟨hroom, heffect⟩ := Option.ite_none_right_eq_some.mp houtcome
            cases heffect
            refine hupdate channel _ (hbounded channel).1 ?_
            rw [(hbounded channel).1] at hroom
            rw [List.length_append, List.length_singleton]
            exact hroom
          · cases houtcome
            exact hbounded
      | get key =>
          cases houtcome
          exact hbounded
      | put key val =>
          cases houtcome
          exact hbounded
      | reply frame =>
          cases houtcome
          exact hbounded
  | writerTurn =>
      cases hstep
      exact hbounded
  | driverTurn channel =>
      cases hstep
      refine hupdate channel _ (hbounded channel).1 ?_
      rw [List.length_tail]
      exact (Nat.sub_le _ _).trans (hbounded channel).2
  | close channel =>
      cases hstep
      exact hupdate channel _ (hbounded channel).1 (hbounded channel).2

theorem ChannelsBounded.run {capacity : Fin n → Nat}
    (hbounded : ChannelsBounded capacity state.world)
    (hrun : Server.run hashes settings state events = some after) :
    ChannelsBounded capacity after.world :=
  runSteps_induction (motive := fun _ (after : Server S n) =>
    ChannelsBounded capacity after.world) hbounded
    (fun _ _ _ _ _ ih hstep => ih.step hstep) hrun

/-! ## One task to its end -/

/-- An event that only lets a task act or a driver take a frame. -/
def IsWork (event : ServerEvent n) : Prop :=
  (∃ id, event = .act id) ∨ ∃ channel, event = .driverTurn channel

/-- Some work, of at most so many events, leads from one state to another. -/
def WorksTo (hashes : Hashes) (settings : SecuritySettings) (steps : Nat)
    (state after : Server S n) : Prop :=
  ∃ later, Server.run hashes settings state later = some after ∧ later.length ≤ steps ∧
    ∀ event ∈ later, IsWork event

theorem WorksTo.trans {middle : Server S n} {first second : Nat}
    (hfirst : WorksTo hashes settings first state middle)
    (hsecond : WorksTo hashes settings second middle after) :
    WorksTo hashes settings (first + second) state after := by
  obtain ⟨earlier, hearlier, hearlierLength, hearlierWork⟩ := hfirst
  obtain ⟨later, hlater, hlaterLength, hlaterWork⟩ := hsecond
  refine ⟨earlier ++ later, ?_, ?_, ?_⟩
  · exact runSteps_trans hearlier hlater
  · rw [List.length_append]
    exact Nat.add_le_add hearlierLength hlaterLength
  · intro event hmem
    exact (List.mem_append.mp hmem).elim (hearlierWork event) (hlaterWork event)

theorem WorksTo.mono {few many : Nat} (hworks : WorksTo hashes settings few state after)
    (hle : few ≤ many) : WorksTo hashes settings many state after := by
  obtain ⟨later, hlater, hlength, hwork⟩ := hworks
  exact ⟨later, hlater, hlength.trans hle, hwork⟩

theorem WorksTo.single {event : ServerEvent n} (hwork : IsWork event)
    (hstep : Server.step hashes settings state event = some after) :
    WorksTo hashes settings 1 state after := by
  refine ⟨[event], ?_, le_rfl, fun other hmem => List.mem_singleton.mp hmem ▸ hwork⟩
  rw [Server.run, runSteps_cons, hstep]
  rfl

variable {capacity : Fin n → Nat}

theorem ChannelsBounded.works {steps : Nat} (hbounded : ChannelsBounded capacity state.world)
    (hworks : WorksTo hashes settings steps state after) :
    ChannelsBounded capacity after.world := by
  obtain ⟨later, hlater, -, -⟩ := hworks
  exact hbounded.run hlater

variable (hashes settings) in
/-- An action can be taken at once, or after its channel's driver has taken a frame.
-/
theorem exists_worksTo_action (hcapacity : ∀ channel, 0 < capacity channel)
    (hbounded : ChannelsBounded capacity state.world) {id workerId : Nat}
    {request : GatewayRequest} {action : Action n} {rest : List (Action n)}
    (htask : state.task id = some ⟨workerId, request, action :: rest⟩) :
    ∃ after, WorksTo hashes settings 2 state after ∧
      after.task = Function.update state.task id (some ⟨workerId, request, rest⟩) := by
  have hact : ∀ before : Server S n, before.task = state.task →
      ∀ effect, before.world.outcome hashes action = some effect →
        Server.step hashes settings before (.act id) =
          some (before.advance hashes id ⟨workerId, request, rest⟩ effect) := by
    intro before hsame effect houtcome
    rw [Server.step, hsame, htask]
    simp only [houtcome, Option.map_some]
  by_cases houtcome : ∃ effect, state.world.outcome hashes action = some effect
  · obtain ⟨effect, houtcome⟩ := houtcome
    exact ⟨_, (WorksTo.single (Or.inl ⟨id, rfl⟩) (hact state rfl effect houtcome)).mono (by omega),
      rfl⟩
  · -- the action is a send to a channel that is open and full
    cases action with
    | sendSerial channel frame =>
        let drained := state.record hashes (.driverTurn channel)
        have hdrained : Server.step hashes settings state (.driverTurn channel) = some drained :=
          rfl
        have hroom : drained.world.outcome hashes (.sendSerial channel frame) =
            some (.enqueued channel frame) := by
          have hopen : (state.world.serial channel).isOpen = true := by
            by_contra hclosed
            exact houtcome ⟨_, if_neg hclosed⟩
          have hserial : drained.world.serial channel =
              { state.world.serial channel with
                queue := (state.world.serial channel).queue.tail } := Function.update_self ..
          obtain ⟨hsame, hlength⟩ := hbounded channel
          have hless : (state.world.serial channel).queue.tail.length <
              (state.world.serial channel).capacity := by
            have hpos := hcapacity channel
            rw [List.length_tail]
            omega
          rw [World.outcome, hserial]
          dsimp only
          rw [if_pos hopen, if_pos hless]
        exact ⟨_, (WorksTo.single (Or.inr ⟨channel, rfl⟩) hdrained).trans
          (WorksTo.single (Or.inl ⟨id, rfl⟩) (hact drained rfl _ hroom)), rfl⟩
    | get key => exact absurd ⟨_, rfl⟩ houtcome
    | put key val => exact absurd ⟨_, rfl⟩ houtcome
    | reply frame => exact absurd ⟨_, rfl⟩ houtcome

variable (hashes settings) in
/-- So a task can be brought to its end, whatever the others wait for. -/
theorem exists_worksTo_task (hcapacity : ∀ channel, 0 < capacity channel)
    (hbounded : ChannelsBounded capacity state.world) {id workerId : Nat}
    {request : GatewayRequest} {rest : List (Action n)}
    (htask : state.task id = some ⟨workerId, request, rest⟩) :
    ∃ after, WorksTo hashes settings (2 * rest.length) state after ∧
      after.task = Function.update state.task id (some ⟨workerId, request, []⟩) := by
  induction rest generalizing state with
  | nil => exact ⟨state, ⟨[], rfl, by simp, by simp⟩, by rw [← htask, Function.update_eq_self]⟩
  | cons action rest ih =>
      obtain ⟨middle, hfirst, hmiddle⟩ :=
        exists_worksTo_action hashes settings hcapacity hbounded htask
      obtain ⟨after, hrest, hafter⟩ := ih (hbounded.works hfirst)
        (by rw [hmiddle, Function.update_self])
      refine ⟨after, (hfirst.trans hrest).mono ?_, ?_⟩
      · rw [List.length_cons]
        omega
      · rw [hafter, hmiddle, Function.update_idem]

variable (hashes settings) in
/-- And so can any number of tasks, one after the other. -/
theorem exists_worksTo_tasks (hcapacity : ∀ channel, 0 < capacity channel)
    (hbounded : ChannelsBounded capacity state.world) {most : Nat}
    (hmost : ∀ id task, state.task id = some task → task.rest.length ≤ most) (ids : List Nat) :
    ∃ after, WorksTo hashes settings (2 * most * ids.length) state after ∧
      ∀ id, after.task id = (state.task id).map fun task =>
        if id ∈ ids then { task with rest := [] } else task := by
  induction ids generalizing state with
  | nil => exact ⟨state, ⟨[], rfl, by simp, by simp⟩, fun id => by simp⟩
  | cons first ids ih =>
      cases htask : state.task first with
      | none =>
          obtain ⟨after, hworks, hafter⟩ := ih hbounded hmost
          refine ⟨after, hworks.mono (by rw [List.length_cons]; gcongr; omega), fun id => ?_⟩
          rw [hafter]
          by_cases hid : id = first
          · rw [hid, htask]
            rfl
          · simp [hid]
      | some task =>
          obtain ⟨workerId, request, rest⟩ := task
          obtain ⟨middle, hfirst, hmiddle⟩ := exists_worksTo_task hashes settings hcapacity
            hbounded htask
          have hrest : rest.length ≤ most := hmost first _ htask
          obtain ⟨after, hworks, hafter⟩ := ih (hbounded.works hfirst) (by
            intro id task hid
            rw [hmiddle, Function.update_apply] at hid
            split at hid
            · cases hid
              exact Nat.zero_le _
            · exact hmost id task hid)
          refine ⟨after, (hfirst.trans hworks).mono ?_, fun id => ?_⟩
          · rw [List.length_cons, Nat.mul_succ, Nat.add_comm]
            gcongr
          · rw [hafter, hmiddle, Function.update_apply]
            by_cases hid : id = first
            · subst hid
              simp [htask]
            · simp [hid]

/-! ## Requests -/

/-- The task an event spawns. -/
def arrival? : ServerEvent n → Option Nat
  | .arrive id _ _ => some id
  | _ => none

/-- The tasks spawned in a run. -/
def arrivals (events : List (ServerEvent n)) : List Nat := events.filterMap arrival?

theorem mem_arrivals (hrun : Server.run hashes settings (Server.start world) events = some state)
    {id : Nat} {task : Task n} (htask : state.task id = some task) : id ∈ arrivals events :=
  List.mem_filterMap.mpr ⟨_, Server.arrive_mem_of_task hrun htask, rfl⟩

/-- A request takes a send for each channel, a put and a reply at most. -/
theorem length_handler_le (workerId : Nat) (settings : SecuritySettings)
    (request : GatewayRequest) :
    (handler workerId settings request : List (Action n)).length ≤ n + 2 := by
  rw [handler]
  cases request.cmd with
  | put key val =>
      dsimp only [handlePut]
      split
      · cases vmRejection settings request.peerAddr val with
        | some text => simp
        | none =>
            cases macAddr key with
            | some mac => simp [storeAndConfirm]
            | none => simp
      · simp [storeAndConfirm]
  | _ => simp

/-- What a task has done and what it has yet to do is no more than that. -/
theorem length_effectsOf_add_rest_le
    (hrun : Server.run hashes settings (Server.start world) events = some state) {id : Nat}
    {task : Task n} (htask : state.task id = some task) :
    (effectsOf id state.log).length + task.rest.length ≤ n + 2 := by
  have hprogress := Server.progress_run hrun id
  rw [htask] at hprogress
  obtain ⟨taken, htaken, hcauses⟩ := hprogress
  rw [← hcauses.length_eq, ← List.length_append, htaken]
  exact length_handler_le _ _ _

/-- **Every request can still be answered.** In every state a run can reach, no queue
is over its capacity; and if every channel has room for a frame, acts of the tasks
and turns of the drivers, at most so many for each request, lead to a state where
every request that has arrived is answered. -/
theorem requests_answerable (hcapacity : ∀ channel, 0 < capacity channel)
    (hbounded : ChannelsBounded capacity world)
    (hrun : Server.run hashes settings (Server.start world) events = some state) :
    ChannelsBounded capacity state.world ∧
      ∃ after, WorksTo hashes settings (2 * (n + 2) * (arrivals events).length) state after ∧
        ∀ id task, state.task id = some task →
          IsAnswered task.request (effectsOf id after.log) := by
  have hstart : ChannelsBounded capacity (Server.start world : Server S n).world := hbounded
  have hstate : ChannelsBounded capacity state.world := hstart.run hrun
  obtain ⟨after, hworks, hafter⟩ := exists_worksTo_tasks hashes settings hcapacity hstate
    (fun id task htask => (Nat.le_add_left _ _).trans (length_effectsOf_add_rest_le hrun htask))
    (arrivals events)
  refine ⟨hstate, after, hworks, fun id task htask => ?_⟩
  obtain ⟨later, hlater, -, -⟩ := hworks
  have hwhole : Server.run hashes settings (Server.start world) (events ++ later) = some after :=
    runSteps_trans hrun hlater
  have hdone := hafter id
  rw [htask, Option.map_some, if_pos (mem_arrivals hrun htask)] at hdone
  have hanswered := isAnswered_of_done hwhole hdone rfl
  exact hanswered

/-- The second of two scripts waits for a channel that the first has filled. -/
def scriptWaits : List (ServerEvent 1) :=
  [.arrive 0 0 (localPut "vm:all" [1]), .act 0, .arrive 1 0 (localPut "vm:all" [2])]

theorem requests_answerable_scriptWaits :
    ∃ state, Server.run sampleHashes ⟨true⟩ (Server.start narrowChannel) scriptWaits =
        some state ∧
      Server.step sampleHashes ⟨true⟩ state (.act 1) = none ∧
      ∃ after, WorksTo sampleHashes ⟨true⟩ 12 state after ∧
        IsAnswered (localPut "vm:all" [2]) (effectsOf 1 after.log) := by
  obtain ⟨state, hrun, hwaits, task, htask, hrequest⟩ : ∃ state,
      Server.run sampleHashes ⟨true⟩ (Server.start narrowChannel) scriptWaits = some state ∧
      Server.step sampleHashes ⟨true⟩ state (.act 1) = none ∧
      ∃ task, state.task 1 = some task ∧ task.request = localPut "vm:all" [2] :=
    ⟨_, rfl, rfl, _, rfl, rfl⟩
  have hbounded : ChannelsBounded (fun _ => 1) narrowChannel := fun _ => ⟨rfl, Nat.zero_le _⟩
  obtain ⟨-, after, hworks, hanswered⟩ :=
    requests_answerable (fun _ => Nat.one_pos) hbounded hrun
  exact ⟨state, hrun, hwaits, after, hworks, hrequest ▸ hanswered 1 task htask⟩

end ServerGo.Analysis
