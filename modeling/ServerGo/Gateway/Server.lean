/-
# The server as its requests run through it

Requests arrive at any time and their tasks take their actions one by one, in
any interleaving, while the drivers of the serial channels and the writer of the
store do their work behind them. A send waits while its channel is open and
full. The log lists everything that has touched the world since the start.

A call of the store is one step here. In `Threads` it is as many as in the source,
with anything between them, and to the clients that makes no difference.
-/

import Mathlib.Data.List.Forall2
import ServerGo.Gateway.Handler
import ServerGo.Math.Steps

namespace ServerGo.Gateway

open ServerGo.Math ServerGo.Storage

/-- A serial channel: a bounded queue towards a driver, which may have gone. -/
structure SerialChannel where
  capacity : Nat
  isOpen : Bool
  queue : List GatewayFrame

/-- All that tasks share: the store, the records handed to the network, and the
serial channels. -/
structure World (S : Type) (n : Nat) where
  storage : S
  broadcasts : List SignedRecord
  serial : Fin n → SerialChannel

/-- What became of an action. -/
inductive Effect (n : Nat)
  | enqueued (channel : Fin n) (frame : GatewayFrame)
  /-- The channel was closed; the error is printed and dropped. -/
  | refused (channel : Fin n) (frame : GatewayFrame)
  | applied (key val : Bytes)
  | replied (frame : Frame)
  deriving DecidableEq

/-- The reply that confirms a put. -/
def confirmation {n : Nat} : Effect n := .replied (.simpleString "OK")

/-- The effects an action can have. -/
inductive Action.Causes {n : Nat} : Action n → Effect n → Prop
  | enqueued (channel : Fin n) (frame : GatewayFrame) :
      Causes (.sendSerial channel frame) (.enqueued channel frame)
  | refused (channel : Fin n) (frame : GatewayFrame) :
      Causes (.sendSerial channel frame) (.refused channel frame)
  | answered (key : Bytes) (payload : Option Bytes) :
      Causes (.get key) (.replied (.bulkString payload))
  | applied (key val : Bytes) : Causes (.put key val) (.applied key val)
  | replied (frame : Frame) : Causes (.reply frame) (.replied frame)

/-- An entry of the log. -/
inductive Entry (n : Nat)
  | task (id : Nat) (effect : Effect n)
  | writerTurn
  | driverTurn (channel : Fin n)
  | closed (channel : Fin n)
  deriving DecidableEq

namespace World

variable {S : Type} [StateStore S] {n : Nat} (hashes : Hashes)

/-- What an action does in this world; `none` is a send that waits for room. -/
def outcome (world : World S n) : Action n → Option (Effect n)
  | .sendSerial channel frame =>
      if (world.serial channel).isOpen then
        if (world.serial channel).queue.length < (world.serial channel).capacity then
          some (.enqueued channel frame)
        else none
      else some (.refused channel frame)
  | .get key => some (.replied (.bulkString (L2Executor.get hashes world.storage key)))
  | .put key val => some (.applied key val)
  | .reply frame => some (.replied frame)

/-- The world after an effect. -/
def after (world : World S n) : Effect n → World S n
  | .enqueued channel frame =>
      { world with
        serial := Function.update world.serial channel
          { world.serial channel with queue := (world.serial channel).queue ++ [frame] } }
  | .refused _ _ => world
  | .applied key val =>
      let (storage, broadcast) := L2Executor.put hashes world.storage key val
      { world with storage := storage, broadcasts := world.broadcasts ++ broadcast.toList }
  | .replied _ => world

/-- The world after an entry of the log. -/
def replay (world : World S n) : Entry n → World S n
  | .task _ effect => world.after hashes effect
  | .writerTurn => { world with storage := StateStore.backgroundWrite world.storage }
  | .driverTurn channel =>
      { world with
        serial := Function.update world.serial channel
          { world.serial channel with queue := (world.serial channel).queue.tail } }
  | .closed channel =>
      { world with
        serial := Function.update world.serial channel
          { world.serial channel with isOpen := false } }

end World

/-- The task of a request: the worker and the request it is for, and the actions
it has yet to take. -/
structure Task (n : Nat) where
  workerId : Nat
  request : GatewayRequest
  rest : List (Action n)

/-- The world, the tasks by number, and the log. -/
structure Server (S : Type) (n : Nat) where
  world : World S n
  task : Nat → Option (Task n)
  log : List (Entry n)

/-- What can happen next. -/
inductive ServerEvent (n : Nat)
  /-- A worker receives a request and spawns its task. -/
  | arrive (id workerId : Nat) (request : GatewayRequest)
  /-- A task takes its next action. -/
  | act (id : Nat)
  | writerTurn
  /-- The driver of a channel takes a frame off its queue. -/
  | driverTurn (channel : Fin n)
  /-- The driver of a channel ends. -/
  | close (channel : Fin n)

namespace Server

variable {S : Type} {n : Nat}

/-- No request has arrived yet. -/
def start (world : World S n) : Server S n := ⟨world, fun _ => none, []⟩

variable [StateStore S] (hashes : Hashes) (settings : SecuritySettings)

/-- Add an entry to the log, and let it act on the world. -/
def record (state : Server S n) (entry : Entry n) : Server S n :=
  { state with world := state.world.replay hashes entry, log := state.log ++ [entry] }

/-- A task has taken an action, with this effect and what is left of the task. -/
def advance (state : Server S n) (id : Nat) (left : Task n) (effect : Effect n) : Server S n :=
  { state with task := Function.update state.task id (some left) }.record hashes (.task id effect)

/-- One event, when it is possible. -/
def step (state : Server S n) : ServerEvent n → Option (Server S n)
  | .arrive id workerId request =>
      match state.task id with
      | none =>
          some { state with
            task := Function.update state.task id
              (some ⟨workerId, request, handler workerId settings request⟩) }
      | some _ => none
  | .act id =>
      match state.task id with
      | some ⟨workerId, request, action :: rest⟩ =>
          (state.world.outcome hashes action).map
            (state.advance hashes id ⟨workerId, request, rest⟩)
      | _ => none
  | .writerTurn => some (state.record hashes .writerTurn)
  | .driverTurn channel => some (state.record hashes (.driverTurn channel))
  | .close channel => some (state.record hashes (.closed channel))

/-- The server after a list of events, when each was possible in its turn. -/
abbrev run (start : Server S n) (events : List (ServerEvent n)) : Option (Server S n) :=
  runSteps (step hashes settings) start events

/-- A record that comes from the network is applied, behind the back of the tasks.
-/
def receive (state : Server S n) (record : SignedRecord) : Server S n :=
  { state with
    world := { state.world with
      storage := StateStore.applySignedRecord hashes state.world.storage record } }

end Server

/-! ## Reading the log -/

/-- The effect an entry has of one task. -/
def Entry.effectOf {n : Nat} (id : Nat) : Entry n → Option (Effect n)
  | .task other effect => if other = id then some effect else none
  | _ => none

/-- The effects of one task, in order. -/
def effectsOf {n : Nat} (id : Nat) (log : List (Entry n)) : List (Effect n) :=
  log.filterMap (Entry.effectOf id)

/-- What an entry is to the store. -/
def Entry.call? {n : Nat} : Entry n → Option Call
  | .task _ (.applied key val) => some (.put key val)
  | .writerTurn => some .writerTurn
  | _ => none

/-- The world after all entries of a log. -/
def World.replayAll {S : Type} [StateStore S] {n : Nat} (hashes : Hashes) (world : World S n)
    (log : List (Entry n)) : World S n :=
  log.foldl (World.replay hashes) world

namespace World

variable {S : Type} [StateStore S] {n : Nat} {hashes : Hashes} {world : World S n}

@[simp]
theorem replayAll_concat (log : List (Entry n)) (entry : Entry n) :
    world.replayAll hashes (log ++ [entry]) = (world.replayAll hashes log).replay hashes entry := by
  simp [replayAll]

/-- An entry is a call of the store or leaves it alone. -/
theorem storage_replay (entry : Entry n) :
    (world.replay hashes entry).storage =
      match entry.call? with
      | some call => call.perform hashes world.storage
      | none => world.storage := by
  rcases entry with ⟨id, effect⟩ | _ | channel | channel
  · cases effect <;> rfl
  · rfl
  · rfl
  · rfl

/-- The store has seen the puts and the turns of its writer. -/
theorem storage_replayAll (log : List (Entry n)) :
    (world.replayAll hashes log).storage =
      Call.run hashes world.storage (log.filterMap Entry.call?) := by
  induction log using List.reverseRecOn with
  | nil => rfl
  | append_singleton log entry ih =>
      rw [replayAll_concat, storage_replay, ih, filterMap_concat_eq_append]
      cases hcall : entry.call? <;> simp

/-- What happens to the channels is nothing that the store has a say in. -/
theorem serial_replay_congr {T : Type} [StateStore T] {other : World T n}
    (hserial : world.serial = other.serial) (entry : Entry n) :
    (world.replay hashes entry).serial = (other.replay hashes entry).serial := by
  rcases entry with ⟨id, effect⟩ | _ | channel | channel
  · cases effect with
    | enqueued channel frame =>
        dsimp only [replay, after]
        rw [hserial]
    | _ => exact hserial
  · exact hserial
  · dsimp only [replay]
    rw [hserial]
  · dsimp only [replay]
    rw [hserial]

/-- An entry opens no channel, and closes the one it names. -/
theorem isOpen_replay (entry : Entry n) (channel : Fin n) :
    ((world.replay hashes entry).serial channel).isOpen = true ↔
      (world.serial channel).isOpen = true ∧ entry ≠ .closed channel := by
  have hupdate : ∀ (other : Fin n) (queue : List GatewayFrame),
      (Function.update world.serial other { world.serial other with queue := queue }
        channel).isOpen = (world.serial channel).isOpen := by
    intro other queue
    by_cases hother : channel = other
    · subst hother
      rw [Function.update_self]
    · rw [Function.update_of_ne hother]
  rcases entry with ⟨id, effect⟩ | _ | other | other
  · cases effect with
    | enqueued other frame => simp [replay, after, hupdate]
    | _ => simp [replay, after]
  · simp [replay]
  · simp [replay, hupdate]
  · by_cases hother : channel = other
    · subst hother
      simp [replay]
    · simp [replay, Function.update_of_ne hother, Ne.symm hother]

/-- A channel is open as long as it was so at the start and has not been closed.
-/
theorem isOpen_replayAll (log : List (Entry n)) (channel : Fin n) :
    ((world.replayAll hashes log).serial channel).isOpen = true ↔
      (world.serial channel).isOpen = true ∧ .closed channel ∉ log := by
  induction log using List.reverseRecOn with
  | nil => simp [replayAll]
  | append_singleton log entry ih =>
      rw [replayAll_concat, isOpen_replay, ih, List.mem_append, List.mem_singleton, not_or, ne_comm,
        and_assoc]

/-- Every frame in a queue was there from the start or has been enqueued since. -/
theorem mem_queue_replayAll (log : List (Entry n)) {channel : Fin n} {frame : GatewayFrame}
    (hmem : frame ∈ ((world.replayAll hashes log).serial channel).queue) :
    frame ∈ (world.serial channel).queue ∨ ∃ id, .task id (.enqueued channel frame) ∈ log := by
  induction log using List.reverseRecOn with
  | nil => exact Or.inl hmem
  | append_singleton log entry ih =>
      have hold : frame ∈ ((world.replayAll hashes log).serial channel).queue →
          frame ∈ (world.serial channel).queue ∨
            ∃ id, .task id (.enqueued channel frame) ∈ log ++ [entry] := fun hearlier =>
        (ih hearlier).imp_right fun ⟨id, hlogged⟩ => ⟨id, List.mem_append_left _ hlogged⟩
      rw [replayAll_concat] at hmem
      rcases entry with ⟨id, effect⟩ | _ | other | other
      · cases effect with
        | enqueued other sent =>
            simp only [replay, after, Function.update_apply] at hmem
            split at hmem
            next hsame =>
                subst hsame
                rcases List.mem_append.mp hmem with hearlier | hnew
                · exact hold hearlier
                · cases List.mem_singleton.mp hnew
                  exact Or.inr ⟨id, by simp⟩
            next => exact hold hmem
        | _ => exact hold hmem
      · exact hold hmem
      · simp only [replay, Function.update_apply] at hmem
        split at hmem
        next hsame => exact hold (hsame ▸ List.mem_of_mem_tail hmem)
        next => exact hold hmem
      · simp only [replay, Function.update_apply] at hmem
        split at hmem
        next hsame => exact hold (hsame ▸ hmem)
        next => exact hold hmem

/-- What an action does is something it can cause. -/
theorem causes_of_outcome {action : Action n} {effect : Effect n}
    (houtcome : world.outcome hashes action = some effect) : action.Causes effect := by
  cases action with
  | sendSerial channel frame =>
      rw [outcome] at houtcome
      split at houtcome
      · split at houtcome
        · cases houtcome
          exact .enqueued channel frame
        · cases houtcome
      · cases houtcome
        exact .refused channel frame
  | get key =>
      cases houtcome
      exact .answered key _
  | put key val =>
      cases houtcome
      exact .applied key val
  | reply frame =>
      cases houtcome
      exact .replied frame

end World

namespace Server

variable {S : Type} [StateStore S] {n : Nat} {hashes : Hashes} {settings : SecuritySettings}
  {world : World S n} {events : List (ServerEvent n)} {state : Server S n}

@[simp]
theorem record_log (state : Server S n) (entry : Entry n) :
    (state.record hashes entry).log = state.log ++ [entry] := rfl

@[simp]
theorem record_world (state : Server S n) (entry : Entry n) :
    (state.record hashes entry).world = state.world.replay hashes entry := rfl

@[simp]
theorem record_task (state : Server S n) (entry : Entry n) :
    (state.record hashes entry).task = state.task := rfl

@[simp]
theorem advance_log (state : Server S n) (id : Nat) (left : Task n) (effect : Effect n) :
    (state.advance hashes id left effect).log = state.log ++ [.task id effect] := rfl

@[simp]
theorem advance_world (state : Server S n) (id : Nat) (left : Task n) (effect : Effect n) :
    (state.advance hashes id left effect).world = state.world.after hashes effect := rfl

@[simp]
theorem advance_task (state : Server S n) (id : Nat) (left : Task n) (effect : Effect n) :
    (state.advance hashes id left effect).task = Function.update state.task id (some left) := rfl

/-- What a task does when it acts. -/
theorem act_cases {after : Server S n} {id : Nat}
    (hstep : step hashes settings state (.act id) = some after) :
    ∃ workerId request action rest effect,
      state.task id = some ⟨workerId, request, action :: rest⟩ ∧
      state.world.outcome hashes action = some effect ∧
      after = state.advance hashes id ⟨workerId, request, rest⟩ effect := by
  rw [step] at hstep
  split at hstep
  next workerId request action rest htask =>
      obtain ⟨effect, houtcome, hafter⟩ := Option.map_eq_some_iff.mp hstep
      exact ⟨workerId, request, action, rest, effect, htask, houtcome, hafter.symm⟩
  next => cases hstep

/-- The world is the log played on the first one. -/
theorem world_run (hrun : run hashes settings (start world) events = some state) :
    state.world = world.replayAll hashes state.log := by
  refine runSteps_induction (motive := fun _ (state : Server S n) =>
    state.world = world.replayAll hashes state.log) rfl ?_ hrun
  intro events before event after _ ih hstep
  cases event with
  | arrive id workerId request =>
      rw [step] at hstep
      split at hstep
      · cases hstep
        exact ih
      · cases hstep
  | act id =>
      obtain ⟨workerId, request, action, rest, effect, -, -, rfl⟩ := act_cases hstep
      rw [advance_world, advance_log, World.replayAll_concat, ← ih]
      rfl
  | writerTurn =>
      cases hstep
      rw [record_world, record_log, World.replayAll_concat, ih]
  | driverTurn channel =>
      cases hstep
      rw [record_world, record_log, World.replayAll_concat, ih]
  | close channel =>
      cases hstep
      rw [record_world, record_log, World.replayAll_concat, ih]

/-- Every effect in the log is what some action did to the world as it was then.
-/
theorem outcome_of_logged (hrun : run hashes settings (start world) events = some state)
    {earlier : List (Entry n)} {id : Nat} {effect : Effect n}
    (hbefore : earlier ++ [.task id effect] <+: state.log) :
    ∃ action, (world.replayAll hashes earlier).outcome hashes action = some effect := by
  revert hbefore
  refine runSteps_induction (motive := fun _ (state : Server S n) =>
    earlier ++ [.task id effect] <+: state.log →
      ∃ action, (world.replayAll hashes earlier).outcome hashes action = some effect) ?_ ?_ hrun
  · intro hbefore
    simp [start] at hbefore
  intro events before event after hrun ih hstep hbefore
  have hother : ∀ entry, (∀ id effect, entry ≠ .task id effect) →
      earlier ++ [.task id effect] <+: before.log ++ [entry] →
        ∃ action, (world.replayAll hashes earlier).outcome hashes action = some effect := by
    intro entry hentry hlonger
    rcases List.prefix_concat_iff.mp hlonger with hsame | hshorter
    · exact absurd (List.append_inj_right' hsame rfl) (by simp [Ne.symm (hentry id effect)])
    · exact ih hshorter
  cases event with
  | arrive other workerId request =>
      rw [step] at hstep
      split at hstep
      · cases hstep
        exact ih hbefore
      · cases hstep
  | act other =>
      obtain ⟨workerId, request, action, rest, happened, -, houtcome, rfl⟩ := act_cases hstep
      rcases List.prefix_concat_iff.mp hbefore with hsame | hshorter
      · obtain ⟨rfl, hentry⟩ := List.append_inj' hsame rfl
        cases hentry
        exact ⟨action, world_run hrun ▸ houtcome⟩
      · exact ih hshorter
  | writerTurn =>
      cases hstep
      exact hother _ (by simp) hbefore
  | driverTurn channel =>
      cases hstep
      exact hother _ (by simp) hbefore
  | close channel =>
      cases hstep
      exact hother _ (by simp) hbefore

/-! ## The progress of a task -/

/-- Where a task stands: it has taken some of the actions its request calls for,
with these effects, and has the rest before it; a task that has not been spawned
has had no effect. -/
def Progress (settings : SecuritySettings) (task : Option (Task n)) (effects : List (Effect n)) :
    Prop :=
  match task with
  | some task => ∃ taken, taken ++ task.rest = handler task.workerId settings task.request ∧
      List.Forall₂ Action.Causes taken effects
  | none => effects = []

theorem effectsOf_concat (id : Nat) (log : List (Entry n)) (entry : Entry n) :
    effectsOf id (log ++ [entry]) = effectsOf id log ++ (entry.effectOf id).toList := by
  cases heffect : entry.effectOf id <;> simp [effectsOf, heffect]

/-! ## A task by itself -/

/-- A send to the channel would not wait. -/
def HasRoom (state : Server S n) (channel : Fin n) : Prop :=
  (state.world.serial channel).isOpen = true →
    (state.world.serial channel).queue.length < (state.world.serial channel).capacity

/-- An action for whose channel there is room can be taken, and takes room from
no other channel. -/
theorem exists_step_act {id workerId : Nat} {request : GatewayRequest} {action : Action n}
    {rest : List (Action n)} (htask : state.task id = some ⟨workerId, request, action :: rest⟩)
    (hroom : ∀ channel, action.channel? = some channel → state.HasRoom channel) :
    ∃ after, step hashes settings state (.act id) = some after ∧
      after.task id = some ⟨workerId, request, rest⟩ ∧
      ∀ other, action.channel? ≠ some other → state.HasRoom other → after.HasRoom other := by
  have houtcome : ∃ effect, state.world.outcome hashes action = some effect ∧
      ∀ other, action.channel? ≠ some other →
        (state.world.after hashes effect).serial other = state.world.serial other := by
    cases action with
    | sendSerial channel frame =>
        by_cases hopen : (state.world.serial channel).isOpen = true
        · refine ⟨.enqueued channel frame, ?_, fun other hother => ?_⟩
          · rw [World.outcome, if_pos hopen, if_pos (hroom channel rfl hopen)]
          · have hne : other ≠ channel := fun hsame => hother (congrArg some hsame.symm)
            exact Function.update_of_ne hne ..
        · refine ⟨.refused channel frame, ?_, fun _ _ => rfl⟩
          rw [World.outcome, if_neg hopen]
    | get key => exact ⟨_, rfl, fun _ _ => rfl⟩
    | put key val => exact ⟨_, rfl, fun _ _ => rfl⟩
    | reply frame => exact ⟨_, rfl, fun _ _ => rfl⟩
  obtain ⟨effect, hsome, hothers⟩ := houtcome
  refine ⟨state.advance hashes id ⟨workerId, request, rest⟩ effect, ?_, Function.update_self ..,
    fun other hother hroom => ?_⟩
  · rw [step, htask]
    simp only [hsome, Option.map_some]
  · rw [HasRoom, advance_world, hothers other hother]
    exact hroom

/-- With room on the channels it has yet to send to, a task can run to its end.
-/
theorem exists_run_act {id workerId : Nat} {request : GatewayRequest} {rest : List (Action n)}
    (htask : state.task id = some ⟨workerId, request, rest⟩)
    (hnodup : (rest.filterMap Action.channel?).Nodup)
    (hroom : ∀ channel ∈ rest.filterMap Action.channel?, state.HasRoom channel) :
    ∃ after, run hashes settings state (List.replicate rest.length (.act id)) = some after ∧
      after.task id = some ⟨workerId, request, []⟩ := by
  induction rest generalizing state with
  | nil => exact ⟨state, rfl, htask⟩
  | cons action rest ih =>
      have hhead : ∀ channel, action.channel? = some channel → state.HasRoom channel := by
        intro channel hchannel
        exact hroom channel (List.mem_filterMap.mpr ⟨action, by simp, hchannel⟩)
      obtain ⟨next, hstep, htask, hkept⟩ := exists_step_act htask hhead
      have hrest : (rest.filterMap Action.channel?).Nodup ∧
          ∀ channel ∈ rest.filterMap Action.channel?,
            action.channel? ≠ some channel ∧ state.HasRoom channel := by
        cases hchannel : action.channel? with
        | none =>
            rw [List.filterMap_cons_none hchannel] at hnodup hroom
            exact ⟨hnodup, fun channel hmem => ⟨by simp, hroom channel hmem⟩⟩
        | some first =>
            rw [List.filterMap_cons_some hchannel] at hnodup hroom
            obtain ⟨hfirst, hothers⟩ := List.nodup_cons.mp hnodup
            refine ⟨hothers, fun channel hmem => ⟨?_, hroom channel (List.mem_cons_of_mem _ hmem)⟩⟩
            rintro hsame
            cases hsame
            exact hfirst hmem
      obtain ⟨after, hrun, hdone⟩ := ih htask hrest.1 fun channel hmem =>
        hkept channel (hrest.2 channel hmem).1 (hrest.2 channel hmem).2
      refine ⟨after, ?_, hdone⟩
      rw [List.length_cons, List.replicate_succ, run, runSteps_cons, hstep]
      exact hrun

end Server

end ServerGo.Gateway
