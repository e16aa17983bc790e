/-
# Calls of the store that are not one step

The tasks of different workers, and the threads of the node that apply what comes
from the network, call one store with no lock around it. A put stores its slot and
then sends its command; a get loads its slot and, if that is empty, reads the
columns; and anything may happen between the two steps of either. A task goes on
when its call has returned.

Tasks of one worker cannot interrupt each other within a call, so not all that
`Threads` can do arises. What holds of all it can do holds of what arises.
-/

import ServerGo.Gateway.Builds
import ServerGo.Gateway.TaskSteps
import ServerGo.Storage.Workers

namespace ServerGo.Gateway

open ServerGo.Math ServerGo.Storage

/-- Who calls the store. -/
inductive Caller
  /-- The task of a request. -/
  | task (id : Nat)
  /-- A thread that applies records from the network. -/
  | network (thread : Nat)
  deriving DecidableEq

/-- The gateway and the store beside it. The gateway runs on a store that keeps
nothing: whatever a task calls the store for, `workers` does. -/
structure Threads (DB : Type) (n : Nat) where
  gateway : Server MockStore n
  workers : Workers Caller DB

/-- What can happen next. -/
inductive ThreadsEvent (n : Nat)
  /-- An event of the server; a task that calls the store takes one step of its call. -/
  | serve (event : ServerEvent n)
  /-- A record from the network is stored in its slot, -/
  | storeHot (thread : Nat) (record : SignedRecord)
  /-- and its command is sent. -/
  | sendInsert (thread : Nat) (record : SignedRecord)

namespace Threads

variable {DB : Type} {n : Nat}

/-- No request has arrived yet, at a store just opened. -/
def start (db : DB) (serial : Fin n → SerialChannel) : Threads DB n where
  gateway := Server.start ⟨⟨⟩, [], serial⟩
  workers := Workers.start db

/-- Where a task is in its call. -/
def phase (state : Threads DB n) (id : Nat) : Phase := state.workers.phase (.task id)

/-- The next step of a put. -/
def putStep (hashes : Hashes) (id : Nat) (key val : Bytes) : Phase → WorkerEvent Caller
  | .applying record => .sendInsert (.task id) record
  | _ => .storeHot (.task id) (kvRecord hashes key val)

/-- The next step of a get. -/
def getStep (id : Nat) (key : Bytes) : Phase → WorkerEvent Caller
  | .reading asked _ => .readColumns (.task id) asked
  | _ => .loadHot (.task id) key

/-- What the answer just given is to the task that asked. -/
def lastReply (workers : Workers Caller DB) : Effect n :=
  .replied (.bulkString (workers.answers.getLast?.bind Answer.value))

variable [CdDB DB] (hashes : Hashes) (settings : SecuritySettings)

/-- A task takes a step of its call, and goes on if the call has returned. -/
def call (state : Threads DB n) (id : Nat) (left : Task n) (event : WorkerEvent Caller)
    (effect : Workers Caller DB → Effect n) : Option (Threads DB n) :=
  (Workers.step hashes state.workers event).map fun workers =>
    { gateway :=
        if workers.phase (.task id) = .idle then
          state.gateway.advance hashes id left (effect workers)
        else state.gateway
      workers := workers }

/-- One event, when it is possible. -/
def step (state : Threads DB n) : ThreadsEvent n → Option (Threads DB n)
  | .serve (.act id) =>
      match state.gateway.task id with
      | some ⟨workerId, request, .put key val :: rest⟩ =>
          state.call hashes id ⟨workerId, request, rest⟩
            (putStep hashes id key val (state.phase id)) fun _ => .applied key val
      | some ⟨workerId, request, .get key :: rest⟩ =>
          state.call hashes id ⟨workerId, request, rest⟩ (getStep id key (state.phase id)) lastReply
      | _ =>
          (Server.step hashes settings state.gateway (.act id)).map
            fun gateway => { state with gateway := gateway }
  | .serve .writerTurn =>
      (Workers.step hashes state.workers .writerTurn).map fun workers =>
        { gateway := state.gateway.record hashes .writerTurn, workers := workers }
  | .serve event =>
      (Server.step hashes settings state.gateway event).map
        fun gateway => { state with gateway := gateway }
  | .storeHot thread record =>
      (Workers.step hashes state.workers (.storeHot (.network thread) record)).map
        fun workers => { state with workers := workers }
  | .sendInsert thread record =>
      (Workers.step hashes state.workers (.sendInsert (.network thread) record)).map
        fun workers => { state with workers := workers }

/-- The state after a list of events, when each was possible in its turn. -/
abbrev run (start : Threads DB n) (events : List (ThreadsEvent n)) : Option (Threads DB n) :=
  runSteps (step hashes settings) start events

/-- The step of the store that an event is. -/
def workerEvent? (state : Threads DB n) : ThreadsEvent n → Option (WorkerEvent Caller)
  | .serve (.act id) =>
      match state.gateway.task id with
      | some ⟨_, _, .put key val :: _⟩ => some (putStep hashes id key val (state.phase id))
      | some ⟨_, _, .get key :: _⟩ => some (getStep id key (state.phase id))
      | _ => none
  | .serve .writerTurn => some .writerTurn
  | .serve _ => none
  | .storeHot thread record => some (.storeHot (.network thread) record)
  | .sendInsert thread record => some (.sendInsert (.network thread) record)

end Threads

/-- An event of the server that does not touch the store, when the tasks are these. -/
def ServerEvent.IsApart {n : Nat} (task : Nat → Option (Task n)) : ServerEvent n → Prop
  | .act id => ∀ found action rest, task id = some found → found.rest = action :: rest →
      (∀ key, action ≠ .get key) ∧ ∀ key val, action ≠ .put key val
  | .writerTurn => False
  | _ => True

namespace Threads

variable {DB : Type} {n : Nat} [CdDB DB]

/-- What an event is to the gateway and the store. -/
inductive ThreadStep (hashes : Hashes) (settings : SecuritySettings) (state after : Threads DB n)
    (event : ThreadsEvent n) : Prop
  /-- It does not touch the store. -/
  | apart (inner : ServerEvent n) (hevent : event = .serve inner)
      (happart : inner.IsApart state.gateway.task)
      (hgateway : Server.step hashes settings state.gateway inner = some after.gateway)
      (hworkers : after.workers = state.workers)
  /-- A put stores its slot. -/
  | stored (id workerId : Nat) (request : GatewayRequest) (key val : Bytes) (rest : List (Action n))
      (hevent : event = .serve (.act id))
      (htask : state.gateway.task id = some ⟨workerId, request, .put key val :: rest⟩)
      (hphase : state.phase id = .idle)
      (hstep : Workers.step hashes state.workers
        (.storeHot (.task id) (kvRecord hashes key val)) = some after.workers)
      (hafter : after.phase id = .applying (kvRecord hashes key val))
      (hgateway : after.gateway = state.gateway)
  /-- A put sends its command, and returns. -/
  | sent (id workerId : Nat) (request : GatewayRequest) (key val : Bytes) (rest : List (Action n))
      (record : SignedRecord) (hevent : event = .serve (.act id))
      (htask : state.gateway.task id = some ⟨workerId, request, .put key val :: rest⟩)
      (hphase : state.phase id = .applying record)
      (hstep : Workers.step hashes state.workers (.sendInsert (.task id) record) =
        some after.workers)
      (hafter : after.phase id = .idle)
      (hgateway : after.gateway =
        state.gateway.advance hashes id ⟨workerId, request, rest⟩ (.applied key val))
  /-- A get finds a record in its slot, and returns. -/
  | found (id workerId : Nat) (request : GatewayRequest) (key : Bytes) (rest : List (Action n))
      (record : SignedRecord) (hevent : event = .serve (.act id))
      (htask : state.gateway.task id = some ⟨workerId, request, .get key :: rest⟩)
      (hphase : state.phase id = .idle)
      (hload : state.workers.store.loadHot hashes (hashes.sha256 key) = some record)
      (hstep : Workers.step hashes state.workers (.loadHot (.task id) key) = some after.workers)
      (hafter : after.phase id = .idle)
      (hgateway : after.gateway = state.gateway.advance hashes id ⟨workerId, request, rest⟩
        (.replied (.bulkString (some record.value))))
  /-- A get finds its slot empty. -/
  | missed (id workerId : Nat) (request : GatewayRequest) (key : Bytes) (rest : List (Action n))
      (hevent : event = .serve (.act id))
      (htask : state.gateway.task id = some ⟨workerId, request, .get key :: rest⟩)
      (hphase : state.phase id = .idle)
      (hload : state.workers.store.loadHot hashes (hashes.sha256 key) = none)
      (hstep : Workers.step hashes state.workers (.loadHot (.task id) key) = some after.workers)
      (hafter : after.phase id = .reading key state.workers.clock)
      (hgateway : after.gateway = state.gateway)
  /-- It reads the columns, and returns. -/
  | read (id workerId : Nat) (request : GatewayRequest) (key : Bytes) (rest : List (Action n))
      (asked : Bytes) (started : Nat) (hevent : event = .serve (.act id))
      (htask : state.gateway.task id = some ⟨workerId, request, .get key :: rest⟩)
      (hphase : state.phase id = .reading asked started)
      (hstep : Workers.step hashes state.workers (.readColumns (.task id) asked) =
        some after.workers)
      (hafter : after.phase id = .idle)
      (hgateway : after.gateway = state.gateway.advance hashes id ⟨workerId, request, rest⟩
        (.replied (.bulkString ((state.workers.store.readColumns hashes
          (hashes.sha256 asked)).map SignedRecord.value))))
  /-- The writer takes a turn. -/
  | written (hevent : event = .serve .writerTurn)
      (hstep : Workers.step hashes state.workers .writerTurn = some after.workers)
      (hgateway : after.gateway = state.gateway.record hashes .writerTurn)
  /-- A record from the network is stored in its slot. -/
  | receivedHot (thread : Nat) (record : SignedRecord) (hevent : event = .storeHot thread record)
      (hstep : Workers.step hashes state.workers (.storeHot (.network thread) record) =
        some after.workers)
      (hgateway : after.gateway = state.gateway)
  /-- Its command is sent. -/
  | receivedSent (thread : Nat) (record : SignedRecord)
      (hevent : event = .sendInsert thread record)
      (hstep : Workers.step hashes state.workers (.sendInsert (.network thread) record) =
        some after.workers)
      (hgateway : after.gateway = state.gateway)

variable {hashes : Hashes} {settings : SecuritySettings} {state after : Threads DB n}
  {event : ThreadsEvent n}

/-- A step of a put: it is at its beginning, or sends its command. -/
theorem threadStep_of_put {id workerId : Nat} {request : GatewayRequest} {key val : Bytes}
    {rest : List (Action n)}
    (htask : state.gateway.task id = some ⟨workerId, request, .put key val :: rest⟩)
    (hcall : state.call hashes id ⟨workerId, request, rest⟩
      (putStep hashes id key val (state.phase id)) (fun _ => .applied key val) = some after) :
    ThreadStep hashes settings state after (.serve (.act id)) := by
  obtain ⟨workers, hstep, rfl⟩ := Option.map_eq_some_iff.mp hcall
  cases hphase : state.phase id with
  | applying record =>
      simp only [hphase, putStep] at hstep
      obtain ⟨-, rfl⟩ := Workers.step_cases hstep
      exact .sent id workerId request key val rest record rfl htask hphase hstep
        (Function.update_self ..) (if_pos (Function.update_self ..))
  | _ =>
      simp only [hphase, putStep] at hstep
      obtain ⟨hidle, rfl⟩ := Workers.step_cases hstep
      exact .stored id workerId request key val rest rfl htask hidle hstep
        (Function.update_self ..) (if_neg (by simp))

/-- A step of a get: it is at its beginning, and finds its slot full or empty, or it
reads the columns. -/
theorem threadStep_of_get {id workerId : Nat} {request : GatewayRequest} {key : Bytes}
    {rest : List (Action n)}
    (htask : state.gateway.task id = some ⟨workerId, request, .get key :: rest⟩)
    (hcall : state.call hashes id ⟨workerId, request, rest⟩ (getStep id key (state.phase id))
      lastReply = some after) :
    ThreadStep hashes settings state after (.serve (.act id)) := by
  obtain ⟨workers, hstep, rfl⟩ := Option.map_eq_some_iff.mp hcall
  cases hphase : state.phase id with
  | reading asked started =>
      simp only [hphase, getStep] at hstep
      obtain ⟨_, -, rfl⟩ := Workers.step_cases hstep
      exact .read id workerId request key rest asked started rfl htask hphase hstep
        (Function.update_self ..) (by simp [lastReply])
  | _ =>
      simp only [hphase, getStep] at hstep
      obtain ⟨hidle, ⟨record, hload, rfl⟩ | ⟨hload, rfl⟩⟩ := Workers.step_cases hstep
      · exact .found id workerId request key rest record rfl htask hidle hload hstep hidle
          (by simp [lastReply, hidle])
      · exact .missed id workerId request key rest rfl htask hidle hload hstep
          (Function.update_self ..) (if_neg (by simp))

/-- **What a step can do.** -/
theorem threadStep_of_step (hstep : step hashes settings state event = some after) :
    ThreadStep hashes settings state after event := by
  have hapart : ∀ inner : ServerEvent n, inner.IsApart state.gateway.task →
      (Server.step hashes settings state.gateway inner).map
        (fun gateway => { state with gateway := gateway }) = some after →
      ThreadStep hashes settings state after (.serve inner) := by
    intro inner hinner hmap
    obtain ⟨gateway, hgateway, rfl⟩ := Option.map_eq_some_iff.mp hmap
    exact .apart inner rfl hinner hgateway rfl
  cases event with
  | serve inner =>
      cases inner with
      | act id =>
          rw [step] at hstep
          split at hstep
          next workerId request key val rest htask => exact threadStep_of_put htask hstep
          next workerId request key rest htask => exact threadStep_of_get htask hstep
          next hput hget =>
              refine hapart _ (fun found action rest htask hrest => ⟨?_, ?_⟩) hstep
              · rintro key rfl
                obtain ⟨workerId, request, _⟩ := found
                cases hrest
                exact hget _ _ _ _ htask
              · rintro key val rfl
                obtain ⟨workerId, request, _⟩ := found
                cases hrest
                exact hput _ _ _ _ _ htask
      | writerTurn =>
          rw [step] at hstep
          obtain ⟨workers, hworkers, rfl⟩ := Option.map_eq_some_iff.mp hstep
          exact .written rfl hworkers rfl
      | arrive id workerId request => exact hapart _ trivial hstep
      | driverTurn channel => exact hapart _ trivial hstep
      | close channel => exact hapart _ trivial hstep
  | storeHot thread record =>
      obtain ⟨workers, hworkers, rfl⟩ := Option.map_eq_some_iff.mp hstep
      exact .receivedHot thread record rfl hworkers rfl
  | sendInsert thread record =>
      obtain ⟨workers, hworkers, rfl⟩ := Option.map_eq_some_iff.mp hstep
      exact .receivedSent thread record rfl hworkers rfl

/-! ## The tasks -/

/-- To a task a step of a call is one that it takes when the call returns. -/
theorem moved_advance {gateway : Server MockStore n} {id workerId : Nat} {request : GatewayRequest}
    {action : Action n} {rest : List (Action n)} {effect : Effect n}
    (htask : gateway.task id = some ⟨workerId, request, action :: rest⟩)
    (hcause : action.Causes effect) (other : Nat) :
    Server.Moved settings gateway (gateway.advance hashes id ⟨workerId, request, rest⟩ effect)
      other := by
  by_cases hother : other = id
  · subst hother
    exact .acted workerId request action rest effect htask hcause (Function.update_self ..)
      (Server.effectsOf_advance_self ..)
  · exact .idle (Function.update_of_ne hother ..) (Server.effectsOf_advance_of_ne _ hother ..)

/-- A step moves every task as a step of the server does, but for the answers. -/
theorem ThreadStep.moved (hthread : ThreadStep hashes settings state after event) (id : Nat) :
    Server.Moved settings state.gateway after.gateway id := by
  cases hthread with
  | apart inner _ _ hgateway _ => exact (Server.taskStep_of_step hgateway id).moved
  | stored _ _ _ _ _ _ _ _ _ _ _ hgateway => exact hgateway ▸ .idle rfl rfl
  | sent other workerId request key val rest record _ htask _ _ _ hgateway =>
      exact hgateway ▸ moved_advance htask (.applied key val) id
  | found other workerId request key rest record _ htask _ _ _ _ hgateway =>
      exact hgateway ▸ moved_advance htask (.answered key _) id
  | missed _ _ _ _ _ _ _ _ _ _ _ hgateway => exact hgateway ▸ .idle rfl rfl
  | read other workerId request key rest asked started _ htask _ _ _ hgateway =>
      exact hgateway ▸ moved_advance htask (.answered key _) id
  | written _ _ hgateway =>
      exact hgateway ▸ .idle rfl (Server.effectsOf_record _ (fun _ => rfl) id)
  | receivedHot _ _ _ _ hgateway => exact hgateway ▸ .idle rfl rfl
  | receivedSent _ _ _ _ hgateway => exact hgateway ▸ .idle rfl rfl

variable {db : DB} {serial : Fin n → SerialChannel} {events : List (ThreadsEvent n)}

/-- Every task has had the effects of the actions it has taken, and of no others. -/
theorem progress_run (hrun : run hashes settings (start db serial) events = some state) (id : Nat) :
    Server.Progress settings (state.gateway.task id) (effectsOf id state.gateway.log) := by
  refine runSteps_induction (motive := fun _ (state : Threads DB n) =>
    Server.Progress settings (state.gateway.task id) (effectsOf id state.gateway.log)) ?_ ?_ hrun
  · show effectsOf id [] = []
    rfl
  · exact fun _ _ _ _ _ ih hstep => ((threadStep_of_step hstep).moved id).progress ih

/-- A task stays that of its request. -/
theorem request_run {before : Threads DB n} (hrun : run hashes settings before events = some state)
    {id : Nat} {task : Task n} (htask : before.gateway.task id = some task) :
    ∃ rest, state.gateway.task id = some { task with rest := rest } := by
  refine runSteps_induction (motive := fun _ (state : Threads DB n) =>
    ∃ rest, state.gateway.task id = some { task with rest := rest }) ⟨_, htask⟩ ?_ hrun
  rintro events middle event after _ ⟨left, hleft⟩ hstep
  obtain ⟨rest, hrest⟩ := ((threadStep_of_step hstep).moved id).request hleft
  exact ⟨rest, hrest⟩

theorem exists_task_of_advance {gateway : Server MockStore n} {id workerId : Nat}
    {request : GatewayRequest} {action : Action n} {rest : List (Action n)} {effect : Effect n}
    (hat : gateway.task id = some ⟨workerId, request, action :: rest⟩) {other : Nat} {task : Task n}
    (htask : (gateway.advance hashes id ⟨workerId, request, rest⟩ effect).task other = some task) :
    ∃ left, gateway.task other = some { task with rest := left } := by
  by_cases hother : other = id
  · subst hother
    rw [Server.advance_task, Function.update_self, Option.some.injEq] at htask
    exact ⟨action :: rest, htask ▸ hat⟩
  · rw [Server.advance_task, Function.update_of_ne hother] at htask
    exact ⟨task.rest, htask⟩

/-- After a step a task is that of the request it was of before, or of one that has just
arrived. -/
theorem ThreadStep.arrived (hthread : ThreadStep hashes settings state after event) {id : Nat}
    {task : Task n} (htask : after.gateway.task id = some task) :
    (∃ rest, state.gateway.task id = some { task with rest := rest }) ∨
      event = .serve (.arrive id task.workerId task.request) := by
  have hsame : after.gateway = state.gateway →
      ∃ rest, state.gateway.task id = some { task with rest := rest } := fun hgateway =>
    ⟨task.rest, hgateway ▸ htask⟩
  cases hthread with
  | apart inner hevent _ hgateway _ =>
      rcases (Server.taskStep_of_step hgateway id).arrived htask with hold | hinner
      · exact Or.inl hold
      · exact Or.inr (by rw [hevent, hinner])
  | stored _ _ _ _ _ _ _ _ _ _ _ hgateway => exact Or.inl (hsame hgateway)
  | sent _ _ _ _ _ _ _ _ hat _ _ _ hgateway =>
      exact Or.inl (exists_task_of_advance hat (hgateway ▸ htask))
  | found _ _ _ _ _ _ _ hat _ _ _ _ hgateway =>
      exact Or.inl (exists_task_of_advance hat (hgateway ▸ htask))
  | missed _ _ _ _ _ _ _ _ _ _ _ hgateway => exact Or.inl (hsame hgateway)
  | read _ _ _ _ _ _ _ _ hat _ _ _ hgateway =>
      exact Or.inl (exists_task_of_advance hat (hgateway ▸ htask))
  | written _ _ hgateway =>
      exact Or.inl ⟨task.rest, (congrArg (Server.task · id) hgateway).symm.trans htask⟩
  | receivedHot _ _ _ _ hgateway => exact Or.inl (hsame hgateway)
  | receivedSent _ _ _ _ hgateway => exact Or.inl (hsame hgateway)

/-- A task is that of a request that has arrived. -/
theorem arrive_mem_of_task
    (hrun : run hashes settings (start db serial) events = some state) {id : Nat} {task : Task n}
    (htask : state.gateway.task id = some task) :
    .serve (.arrive id task.workerId task.request) ∈ events := by
  refine runSteps_induction (motive := fun events (state : Threads DB n) =>
    ∀ task, state.gateway.task id = some task →
      .serve (.arrive id task.workerId task.request) ∈ events) ?_ ?_ hrun task htask
  · intro task htask
    cases htask
  intro events before event after _ ih hstep task htask
  rcases (threadStep_of_step hstep).arrived htask with ⟨rest, hbefore⟩ | rfl
  · exact List.mem_append_left _ (ih { task with rest := rest } hbefore)
  · exact List.mem_append_right _ (List.mem_singleton_self _)

/-! ## Where a task is in its call -/

/-- A task that has stored a slot is at the put of that record, and one that has found a
slot empty at the get of that key. -/
structure InCall (hashes : Hashes) (state : Threads DB n) (id : Nat) : Prop where
  applying : ∀ record, state.phase id = .applying record → ∃ workerId request key val rest,
    state.gateway.task id = some ⟨workerId, request, .put key val :: rest⟩ ∧
      record = kvRecord hashes key val
  reading : ∀ key started, state.phase id = .reading key started → ∃ workerId request rest,
    state.gateway.task id = some ⟨workerId, request, .get key :: rest⟩

omit [CdDB DB] in
theorem inCall_of_idle {id : Nat} (hphase : state.phase id = .idle) : InCall hashes state id where
  applying record happlying := by simp [hphase] at happlying
  reading key started hreading := by simp [hphase] at hreading

omit [CdDB DB] in
theorem InCall.congr {id : Nat} (hcall : InCall hashes state id)
    (hphase : after.phase id = state.phase id)
    (htask : after.gateway.task id = state.gateway.task id) : InCall hashes after id where
  applying := by
    rw [hphase, htask]
    exact hcall.applying
  reading := by
    rw [hphase, htask]
    exact hcall.reading

omit [CdDB DB] in
/-- A task whose next action is no call of the store is in none. -/
theorem InCall.idle_of_isApart {id : Nat} (hcall : InCall hashes state id)
    (happart : (ServerEvent.act id).IsApart state.gateway.task) : state.phase id = .idle := by
  cases hphase : state.phase id with
  | idle => rfl
  | applying record =>
      obtain ⟨workerId, request, key, val, rest, htask, -⟩ := hcall.applying record hphase
      exact absurd rfl ((happart _ _ rest htask rfl).2 key val)
  | reading key started =>
      obtain ⟨workerId, request, rest, htask⟩ := hcall.reading key started hphase
      exact absurd rfl ((happart _ _ rest htask rfl).1 key)

/-- A step of one caller leaves the tasks of others where they are in their calls. -/
theorem phase_eq_of_ne {inner : WorkerEvent Caller}
    (hstep : Workers.step hashes state.workers inner = some after.workers) {id : Nat}
    (hother : inner.worker? ≠ some (.task id)) : after.phase id = state.phase id :=
  Workers.phase_step_of_ne hstep hother

theorem phase_eq_of_task_ne {inner : WorkerEvent Caller} {id : Nat}
    (hstep : Workers.step hashes state.workers inner = some after.workers)
    (hworker : inner.worker? = some (.task id)) {other : Nat} (hother : other ≠ id) :
    after.phase other = state.phase other := by
  refine phase_eq_of_ne hstep ?_
  rw [hworker]
  exact fun hsame => hother (Caller.task.inj (Option.some.inj hsame)).symm

/-- Where a step of the store has led its task. -/
theorem inCall_of_worker_step {inner : WorkerEvent Caller} {id : Nat}
    (hcalls : ∀ other, InCall hashes state other)
    (hstep : Workers.step hashes state.workers inner = some after.workers)
    (hworker : inner.worker? = some (.task id))
    (htasks : ∀ other ≠ id, after.gateway.task other = state.gateway.task other)
    (hown : InCall hashes after id) (other : Nat) : InCall hashes after other := by
  by_cases hother : other = id
  · exact hother ▸ hown
  · exact (hcalls other).congr (phase_eq_of_task_ne hstep hworker hother) (htasks other hother)

theorem ThreadStep.inCall (hthread : ThreadStep hashes settings state after event)
    (hcalls : ∀ id, InCall hashes state id) (id : Nat) : InCall hashes after id := by
  cases hthread with
  | apart inner _ happart hgateway hworkers =>
      have hphase : after.phase id = state.phase id := by
        rw [phase, hworkers]
        rfl
      cases Server.taskStep_of_step hgateway id with
      | idle htask _ => exact (hcalls id).congr hphase htask
      | spawned workerId request _ hbefore _ _ =>
          refine inCall_of_idle (hphase.trans ((hcalls id).idle_of_isApart ?_))
          exact fun found action rest hfound => by simp [hbefore] at hfound
      | acted workerId request action rest effect hevent _ _ _ _ =>
          subst hevent
          exact inCall_of_idle (hphase.trans ((hcalls id).idle_of_isApart happart))
  | stored other workerId request key val rest _ htask _ hstep hafter hgateway =>
      refine inCall_of_worker_step hcalls hstep rfl (fun _ _ => by rw [hgateway]) ⟨?_, ?_⟩ id
      · intro record happlying
        cases hafter.symm.trans happlying
        exact ⟨workerId, request, key, val, rest, hgateway ▸ htask, rfl⟩
      · intro asked started hreading
        cases hafter.symm.trans hreading
  | sent other workerId request key val rest record _ htask _ hstep hafter hgateway =>
      exact inCall_of_worker_step hcalls hstep rfl
        (fun _ hne => hgateway ▸ Function.update_of_ne hne ..) (inCall_of_idle hafter) id
  | found other workerId request key rest record _ htask _ _ hstep hafter hgateway =>
      exact inCall_of_worker_step hcalls hstep rfl
        (fun _ hne => hgateway ▸ Function.update_of_ne hne ..) (inCall_of_idle hafter) id
  | missed other workerId request key rest _ htask _ _ hstep hafter hgateway =>
      refine inCall_of_worker_step hcalls hstep rfl (fun _ _ => by rw [hgateway]) ⟨?_, ?_⟩ id
      · intro record happlying
        cases hafter.symm.trans happlying
      · intro asked started hreading
        cases hafter.symm.trans hreading
        exact ⟨workerId, request, rest, hgateway ▸ htask⟩
  | read other workerId request key rest asked started _ htask _ hstep hafter hgateway =>
      exact inCall_of_worker_step hcalls hstep rfl
        (fun _ hne => hgateway ▸ Function.update_of_ne hne ..) (inCall_of_idle hafter) id
  | written _ hstep hgateway =>
      exact (hcalls id).congr (phase_eq_of_ne hstep (by simp [WorkerEvent.worker?]))
        (by rw [hgateway, Server.record_task])
  | receivedHot thread record _ hstep hgateway =>
      exact (hcalls id).congr (phase_eq_of_ne hstep (by simp [WorkerEvent.worker?]))
        (by rw [hgateway])
  | receivedSent thread record _ hstep hgateway =>
      exact (hcalls id).congr (phase_eq_of_ne hstep (by simp [WorkerEvent.worker?]))
        (by rw [hgateway])

theorem inCall_run (hrun : run hashes settings (start db serial) events = some state) (id : Nat) :
    InCall hashes state id :=
  runSteps_induction (motive := fun _ (state : Threads DB n) => ∀ id, InCall hashes state id)
    (fun _ => inCall_of_idle rfl)
    (fun _ _ _ _ _ ih hstep => (threadStep_of_step hstep).inCall ih) hrun id

/-! ## The store -/

omit [CdDB DB] in
theorem workerEvent?_eq_none {inner : ServerEvent n} (happart : inner.IsApart state.gateway.task) :
    workerEvent? hashes state (.serve inner) = none := by
  cases inner with
  | act id =>
      rw [workerEvent?]
      split
      next key val rest htask => exact absurd rfl ((happart _ _ _ htask rfl).2 key val)
      next key rest htask => exact absurd rfl ((happart _ _ _ htask rfl).1 key)
      next => rfl
  | writerTurn => exact happart.elim
  | _ => rfl

omit [CdDB DB] in
theorem workerEvent?_put {id workerId : Nat} {request : GatewayRequest} {key val : Bytes}
    {rest : List (Action n)}
    (htask : state.gateway.task id = some ⟨workerId, request, .put key val :: rest⟩) :
    workerEvent? hashes state (.serve (.act id)) =
      some (putStep hashes id key val (state.phase id)) := by
  rw [workerEvent?, htask]

omit [CdDB DB] in
theorem workerEvent?_get {id workerId : Nat} {request : GatewayRequest} {key : Bytes}
    {rest : List (Action n)}
    (htask : state.gateway.task id = some ⟨workerId, request, .get key :: rest⟩) :
    workerEvent? hashes state (.serve (.act id)) = some (getStep id key (state.phase id)) := by
  rw [workerEvent?, htask]

omit [CdDB DB] in
/-- A record is stored in its slot by a thread of the network, or by a task that puts it. -/
theorem storeHot_cases {caller : Caller} {record : SignedRecord}
    (hevent : workerEvent? hashes state event = some (.storeHot caller record)) :
    (∃ thread, event = .storeHot thread record) ∨ ∃ id workerId request key val rest,
      state.gateway.task id = some ⟨workerId, request, .put key val :: rest⟩ ∧
        record = kvRecord hashes key val := by
  cases event with
  | serve inner =>
      cases inner with
      | act id =>
          rw [workerEvent?] at hevent
          split at hevent
          next workerId request key val rest htask =>
              refine Or.inr ⟨id, workerId, request, key, val, rest, htask, ?_⟩
              cases hphase : state.phase id with
              | applying other => simp [hphase, putStep] at hevent
              | _ =>
                  simp only [hphase, putStep, Option.some.injEq, WorkerEvent.storeHot.injEq]
                    at hevent
                  exact hevent.2.symm
          next key _ _ => cases hphase : state.phase id <;> simp [hphase, getStep] at hevent
          next => cases hevent
      | _ => cases hevent
  | storeHot thread other =>
      cases hevent
      exact Or.inl ⟨thread, rfl⟩
  | sendInsert thread other => cases hevent

/-- To the store an event is nothing, or a step of a worker. -/
theorem workers_cases (hstep : step hashes settings state event = some after) :
    (workerEvent? hashes state event = none ∧ after.workers = state.workers) ∨
      ∃ inner, workerEvent? hashes state event = some inner ∧
        Workers.step hashes state.workers inner = some after.workers := by
  cases threadStep_of_step hstep with
  | apart inner hevent happart _ hworkers =>
      exact Or.inl ⟨hevent ▸ workerEvent?_eq_none happart, hworkers⟩
  | stored id workerId request key val rest hevent htask hphase hworkers _ _ =>
      exact Or.inr ⟨_, by rw [hevent, workerEvent?_put htask, hphase, putStep]; simp, hworkers⟩
  | sent id workerId request key val rest record hevent htask hphase hworkers _ _ =>
      exact Or.inr ⟨_, by rw [hevent, workerEvent?_put htask, hphase, putStep], hworkers⟩
  | found id workerId request key rest record hevent htask hphase _ hworkers _ _ =>
      exact Or.inr ⟨_, by rw [hevent, workerEvent?_get htask, hphase, getStep]; simp, hworkers⟩
  | missed id workerId request key rest hevent htask hphase _ hworkers _ _ =>
      exact Or.inr ⟨_, by rw [hevent, workerEvent?_get htask, hphase, getStep]; simp, hworkers⟩
  | read id workerId request key rest asked started hevent htask hphase hworkers _ _ =>
      exact Or.inr ⟨_, by rw [hevent, workerEvent?_get htask, hphase, getStep], hworkers⟩
  | written hevent hworkers _ => exact Or.inr ⟨_, by rw [hevent, workerEvent?], hworkers⟩
  | receivedHot _ _ hevent hworkers _ => exact Or.inr ⟨_, by rw [hevent, workerEvent?], hworkers⟩
  | receivedSent _ _ hevent hworkers _ => exact Or.inr ⟨_, by rw [hevent, workerEvent?], hworkers⟩

/-- **The store sees workers that share it.** -/
def toWorkers (hashes : Hashes) (settings : SecuritySettings) :
    Simulation (S := Threads DB n) (A := Workers Caller DB) (step hashes settings)
      (Workers.step hashes) where
  Rel state workers := state.workers = workers
  matching state event := (workerEvent? hashes state event).toList
  rel_step := by
    rintro state after _ event rfl hstep
    refine ⟨after.workers, ?_, rfl⟩
    rcases workers_cases hstep with ⟨hnone, hsame⟩ | ⟨inner, hinner, hworkers⟩
    · rw [hnone, hsame]
      rfl
    · rw [hinner, Option.toList_some, runSteps_cons, hworkers]
      rfl

/-- The steps of the store in a run. -/
abbrev workersTrace (hashes : Hashes) (settings : SecuritySettings) (db : DB)
    (serial : Fin n → SerialChannel) (events : List (ThreadsEvent n)) : List (WorkerEvent Caller) :=
  (toWorkers hashes settings).trace (start db serial) events

theorem workersTrace_concat
    (hrun : run hashes settings (start db serial) events = some state) (event : ThreadsEvent n) :
    workersTrace hashes settings db serial (events ++ [event]) =
      workersTrace hashes settings db serial events ++ (workerEvent? hashes state event).toList :=
  Simulation.trace_concat _ hrun event

theorem workers_run (hrun : run hashes settings (start db serial) events = some state) :
    Workers.run hashes (Workers.start db) (workersTrace hashes settings db serial events) =
      some state.workers := by
  obtain ⟨_, hworkers, rfl⟩ := (toWorkers hashes settings).rel_run
    (show (start db serial : Threads DB n).workers = Workers.start db from rfl) hrun
  exact hworkers

/-- The clock of the store does not go back. -/
theorem clock_le_run {before : Threads DB n}
    (hrun : run hashes settings before events = some state) :
    before.workers.clock ≤ state.workers.clock := by
  refine runSteps_induction (motive := fun _ (state : Threads DB n) =>
    before.workers.clock ≤ state.workers.clock) le_rfl ?_ hrun
  intro events middle event after _ ih hstep
  rcases workers_cases hstep with ⟨-, hsame⟩ | ⟨inner, -, hworkers⟩
  · exact hsame ▸ ih
  · rw [Workers.clock_step hworkers]
    omega

/-- Whatever the store has gone through, the run was at some moment just through it. -/
theorem exists_moment (hrun : run hashes settings (start db serial) events = some state)
    {count : Nat} (hcount : count ≤ state.workers.clock) :
    ∃ sofar between, sofar <+: events ∧ run hashes settings (start db serial) sofar = some between ∧
      between.workers.clock = count ∧
      workersTrace hashes settings db serial sofar =
        (workersTrace hashes settings db serial events).take count := by
  revert hcount
  refine runSteps_induction (motive := fun events (state : Threads DB n) =>
    count ≤ state.workers.clock →
    ∃ sofar between, sofar <+: events ∧ run hashes settings (start db serial) sofar = some between ∧
      between.workers.clock = count ∧
      workersTrace hashes settings db serial sofar =
        (workersTrace hashes settings db serial events).take count) ?_ ?_ hrun
  · intro hcount
    obtain rfl : count = 0 := Nat.le_zero.mp hcount
    exact ⟨[], _, List.prefix_rfl, rfl, rfl, rfl⟩
  intro events before event after hbefore ih hstep hcount
  have hafter : run hashes settings (start db serial) (events ++ [event]) = some after :=
    runSteps_concat_eq_some.mpr ⟨before, hbefore, hstep⟩
  have hlength := Workers.clock_run (workers_run hbefore)
  have hlonger := Workers.clock_run (workers_run hafter)
  have htrace := workersTrace_concat hbefore event
  by_cases hearlier : count ≤ before.workers.clock
  · obtain ⟨sofar, between, hsofar, hbetween, hclock, htaken⟩ := ih hearlier
    refine ⟨sofar, between, hsofar.trans (List.prefix_append ..), hbetween, hclock, ?_⟩
    rw [htrace, List.take_append_of_le_length (by omega), htaken]
  · -- the step of the store is the one just taken
    have hone : (workerEvent? hashes before event).toList.length ≤ 1 := by
      cases workerEvent? hashes before event <;> simp
    rw [htrace, List.length_append] at hlonger
    refine ⟨events ++ [event], after, List.prefix_rfl, hafter, by omega, ?_⟩
    rw [List.take_of_length_le (by rw [htrace, List.length_append]; omega)]

end Threads

end ServerGo.Gateway
