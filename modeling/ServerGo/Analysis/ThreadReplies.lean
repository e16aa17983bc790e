/-
# What the store answers the tasks

Behind the tasks of a server the store sees workers that share it: their commands are
those of the puts in the log, and what a get is replied to is what the store answered
it. So a value that a client reads can be followed back, through a call that may have
been overtaken by any others, to the request that put it, to a record from the network,
or to what was recovered.
-/

import ServerGo.Analysis.AtomicCalls

namespace ServerGo.Analysis

open ServerGo.Gateway ServerGo.Math ServerGo.Storage

/-- The command that a task sends. -/
def taskSent? : WorkerEvent Caller → Option (Nat × SignedRecord)
  | .sendInsert (.task id) record => some (id, record)
  | _ => none

/-- A step of the store that is taken for a record from the network. -/
def isOfNetwork : WorkerEvent Caller → Bool
  | .storeHot (.network _) _ => true
  | .sendInsert (.network _) _ => true
  | _ => false

/-- Such a step, as an event of the node. -/
def networkStep? {n : Nat} : ThreadsEvent n → Option (WorkerEvent Caller)
  | .storeHot thread record => some (.storeHot (.network thread) record)
  | .sendInsert thread record => some (.sendInsert (.network thread) record)
  | .serve _ => none

/-- The record of a put in the log. -/
def taskPut? (hashes : Hashes) {n : Nat} : Entry n → Option (Nat × SignedRecord)
  | .task id (.applied key val) => some (id, kvRecord hashes key val)
  | _ => none

variable {DB : Type} {n : Nat}

/-- What the store has answered a task. -/
def answersTo (workers : Workers Caller DB) (id : Nat) : List (Answer Caller) :=
  workers.answers.filter fun answer => answer.worker = .task id

variable [CdDB DB] {hashes : Hashes} {settings : SecuritySettings} {db : DB}
  {serial : Fin n → SerialChannel} {events : List (ThreadsEvent n)} {state after : Threads DB n}
  {event : ThreadsEvent n}

/-! ## Commands -/

/-- What a server logs that does not touch the store is no put. -/
theorem filterMap_taskPut?_of_isApart {gateway next : Server MockStore n} {inner : ServerEvent n}
    (happart : inner.IsApart gateway.task)
    (hstep : Server.step hashes settings gateway inner = some next) :
    next.log.filterMap (taskPut? hashes) = gateway.log.filterMap (taskPut? hashes) := by
  cases inner with
  | arrive id workerId request =>
      rw [Server.step] at hstep
      split at hstep
      · cases hstep
        rfl
      · cases hstep
  | act id =>
      obtain ⟨workerId, request, action, rest, effect, htask, houtcome, rfl⟩ :=
        Server.act_cases hstep
      obtain ⟨-, hput⟩ := happart _ action rest htask rfl
      have hnone : taskPut? hashes (.task id effect) = none := by
        cases World.causes_of_outcome houtcome with
        | applied key val => exact absurd rfl (hput key val)
        | _ => rfl
      rw [Server.advance_log, filterMap_concat_eq_append, hnone, Option.toList_none,
        List.append_nil]
  | writerTurn => exact happart.elim
  | driverTurn channel =>
      cases hstep
      exact (filterMap_concat_eq_append _).trans (List.append_nil _)
  | close channel =>
      cases hstep
      exact (filterMap_concat_eq_append _).trans (List.append_nil _)

/-- A task sends the command of the put that it logs. -/
theorem sends_step (hstep : Threads.step hashes settings state event = some after)
    (hcalls : ∀ id, Threads.InCall hashes state id) :
    after.gateway.log.filterMap (taskPut? hashes) =
      state.gateway.log.filterMap (taskPut? hashes) ++
        (Threads.workerEvent? hashes state event).toList.filterMap taskSent? := by
  have hreplied : ∀ (id : Nat) (left : Task n) (frame : Frame),
      (state.gateway.advance hashes id left (.replied frame)).log.filterMap (taskPut? hashes) =
        state.gateway.log.filterMap (taskPut? hashes) ++ [] := by
    intro id left frame
    rw [Server.advance_log, filterMap_concat_eq_append]
    rfl
  cases Threads.threadStep_of_step hstep with
  | apart inner hevent happart hgateway _ =>
      rw [hevent, Threads.workerEvent?_eq_none happart,
        filterMap_taskPut?_of_isApart happart hgateway]
      exact (List.append_nil _).symm
  | stored id workerId request key val rest hevent htask hphase _ _ hgateway =>
      rw [hevent, hgateway, Threads.workerEvent?_put htask, hphase]
      exact (List.append_nil _).symm
  | sent id workerId request key val rest record hevent htask hphase _ _ hgateway =>
      obtain ⟨ownId, own, stored, value, left, hput, rfl⟩ := (hcalls id).applying record hphase
      cases htask.symm.trans hput
      rw [hevent, hgateway, Threads.workerEvent?_put htask, hphase, Server.advance_log,
        filterMap_concat_eq_append]
      rfl
  | found id workerId request key rest record hevent htask hphase _ _ _ hgateway =>
      rw [hevent, hgateway, Threads.workerEvent?_get htask, hphase, hreplied]
      rfl
  | missed id workerId request key rest hevent htask hphase _ _ _ hgateway =>
      rw [hevent, hgateway, Threads.workerEvent?_get htask, hphase]
      exact (List.append_nil _).symm
  | read id workerId request key rest asked started hevent htask hphase _ _ hgateway =>
      rw [hevent, hgateway, Threads.workerEvent?_get htask, hphase, hreplied]
      rfl
  | written hevent _ hgateway =>
      rw [hevent, hgateway, Server.record_log, filterMap_concat_eq_append]
      rfl
  | receivedHot thread record hevent _ hgateway =>
      rw [hevent, hgateway]
      exact (List.append_nil _).symm
  | receivedSent thread record hevent _ hgateway =>
      rw [hevent, hgateway]
      exact (List.append_nil _).symm

/-- The commands of the tasks are those of the puts in the log, in that order. -/
theorem sends_run
    (hrun : Threads.run hashes settings (Threads.start db serial) events = some state) :
    (Threads.workersTrace hashes settings db serial events).filterMap taskSent? =
      state.gateway.log.filterMap (taskPut? hashes) := by
  refine runSteps_induction (motive := fun events (state : Threads DB n) =>
    (Threads.workersTrace hashes settings db serial events).filterMap taskSent? =
      state.gateway.log.filterMap (taskPut? hashes)) rfl ?_ hrun
  intro events before event after hbefore ih hstep
  rw [Threads.workersTrace_concat hbefore, List.filterMap_append, ih,
    sends_step hstep (Threads.inCall_run hbefore)]

/-! ## Records from the network -/

omit [CdDB DB] in
theorem filter_isOfNetwork_workerEvent (state : Threads DB n) (event : ThreadsEvent n) :
    (Threads.workerEvent? hashes state event).toList.filter isOfNetwork =
      (networkStep? event).toList := by
  cases event with
  | serve inner =>
      cases inner with
      | act id =>
          rw [Threads.workerEvent?]
          split
          next => cases state.phase id <;> rfl
          next => cases state.phase id <;> rfl
          next => rfl
      | _ => rfl
  | storeHot thread record => rfl
  | sendInsert thread record => rfl

/-- The steps of the network are those of the run, in that order. -/
theorem filter_isOfNetwork_run
    (hrun : Threads.run hashes settings (Threads.start db serial) events = some state) :
    (Threads.workersTrace hashes settings db serial events).filter isOfNetwork =
      events.filterMap networkStep? := by
  refine runSteps_induction (motive := fun events (_ : Threads DB n) =>
    (Threads.workersTrace hashes settings db serial events).filter isOfNetwork =
      events.filterMap networkStep?) rfl ?_ hrun
  intro events before event after hbefore ih _
  rw [Threads.workersTrace_concat hbefore, List.filter_append, ih,
    filter_isOfNetwork_workerEvent, filterMap_concat_eq_append]

/-! ## Answers -/

/-- A step gives an answer to a get and to its task, or it leaves the answers and all
tasks that are about to get. -/
theorem answer_cases (hstep : Threads.step hashes settings state event = some after)
    (hcalls : ∀ id, Threads.InCall hashes state id) :
    (∃ id workerId request key rest value started finished,
      state.gateway.task id = some ⟨workerId, request, .get key :: rest⟩ ∧
      after.workers.answers =
        state.workers.answers ++ [⟨.task id, key, value, started, finished⟩] ∧
      after.gateway = state.gateway.advance hashes id ⟨workerId, request, rest⟩
        (.replied (.bulkString value))) ∨
    (after.workers.answers = state.workers.answers ∧
      ∀ id workerId request key rest,
        state.gateway.task id = some ⟨workerId, request, .get key :: rest⟩ →
          after.gateway.task id = state.gateway.task id) := by
  have hother : ∀ {id workerId : Nat} {request : GatewayRequest} {action : Action n}
      {rest : List (Action n)} {left : Task n} {effect : Effect n},
      state.gateway.task id = some ⟨workerId, request, action :: rest⟩ →
      (∀ key, action ≠ .get key) → ∀ other ownId own key others,
        state.gateway.task other = some ⟨ownId, own, .get key :: others⟩ →
          (state.gateway.advance hashes id left effect).task other = state.gateway.task other := by
    intro id workerId request action rest left effect htask haction other ownId own key others hget
    have hne : other ≠ id := by
      rintro rfl
      cases htask.symm.trans hget
      exact haction key rfl
    exact Function.update_of_ne hne ..
  cases Threads.threadStep_of_step hstep with
  | apart inner _ happart hgateway hworkers =>
      refine Or.inr ⟨by rw [hworkers], fun id workerId request key rest hget => ?_⟩
      cases Server.taskStep_of_step hgateway id with
      | idle htask _ => exact htask
      | spawned _ _ _ hnone _ _ => exact absurd (hget.symm.trans hnone) (by simp)
      | acted _ _ action left _ hevent hat _ _ _ =>
          subst hevent
          exact absurd rfl ((happart _ _ rest hget rfl).1 key)
  | stored id workerId request key val rest _ _ _ hworkers _ hgateway =>
      obtain ⟨-, hafter⟩ := Workers.step_cases hworkers
      exact Or.inr ⟨by rw [hafter], fun _ _ _ _ _ _ => by rw [hgateway]⟩
  | sent id workerId request key val rest record _ htask _ hworkers _ hgateway =>
      obtain ⟨-, hafter⟩ := Workers.step_cases hworkers
      exact Or.inr ⟨by rw [hafter], hgateway ▸ hother htask (by simp)⟩
  | found id workerId request key rest record _ htask _ hload hworkers _ hgateway =>
      obtain ⟨-, ⟨found, hfound, hafter⟩ | ⟨hempty, -⟩⟩ := Workers.step_cases hworkers
      · cases hload.symm.trans hfound
        exact Or.inl ⟨id, workerId, request, key, rest, _, _, _, htask, by rw [hafter], hgateway⟩
      · rw [hload] at hempty
        cases hempty
  | missed id workerId request key rest _ _ _ hload hworkers _ hgateway =>
      obtain ⟨-, ⟨found, hfound, -⟩ | ⟨-, hafter⟩⟩ := Workers.step_cases hworkers
      · rw [hload] at hfound
        cases hfound
      · exact Or.inr ⟨by rw [hafter], fun _ _ _ _ _ _ => by rw [hgateway]⟩
  | read id workerId request key rest asked started _ htask hphase hworkers _ hgateway =>
      obtain ⟨ownId, own, left, hget⟩ := (hcalls id).reading asked started hphase
      cases htask.symm.trans hget
      obtain ⟨_, -, hafter⟩ := Workers.step_cases hworkers
      exact Or.inl ⟨id, workerId, request, key, rest, _, _, _, htask, by rw [hafter], hgateway⟩
  | written _ hworkers hgateway =>
      have hafter := Workers.step_cases hworkers
      exact Or.inr ⟨by rw [hafter], fun _ _ _ _ _ _ => by rw [hgateway, Server.record_task]⟩
  | receivedHot _ _ _ hworkers hgateway =>
      obtain ⟨-, hafter⟩ := Workers.step_cases hworkers
      exact Or.inr ⟨by rw [hafter], fun _ _ _ _ _ _ => by rw [hgateway]⟩
  | receivedSent _ _ _ hworkers hgateway =>
      obtain ⟨-, hafter⟩ := Workers.step_cases hworkers
      exact Or.inr ⟨by rw [hafter], fun _ _ _ _ _ _ => by rw [hgateway]⟩

/-- The store answers a task only the key that its request is a get of. -/
def AnswersAsked (state : Threads DB n) : Prop :=
  ∀ answer ∈ state.workers.answers, ∀ id, answer.worker = .task id →
    ∃ task key, state.gateway.task id = some task ∧ task.request.cmd = .get key ∧
      answer.key = utf8 key.toList

/-- A task whose request is a get has been replied to with what the store answered it, and
with nothing else. -/
def RepliesAnswered (state : Threads DB n) : Prop :=
  ∀ id task key, state.gateway.task id = some task → task.request.cmd = .get key →
    effectsOf id state.gateway.log =
      (answersTo state.workers id).map fun answer => .replied (.bulkString answer.value)

/-- A task about to get is one of a get of that key. -/
theorem cmd_of_get_task {id workerId : Nat} {request : GatewayRequest} {key : Bytes}
    {rest : List (Action n)}
    (hrun : Threads.run hashes settings (Threads.start db serial) events = some state)
    (htask : state.gateway.task id = some ⟨workerId, request, .get key :: rest⟩) :
    ∃ asked, request.cmd = .get asked ∧ key = utf8 asked.toList := by
  have hprogress := Threads.progress_run hrun id
  rw [htask] at hprogress
  exact cmd_of_get_mem hprogress.mem_handler

theorem answersAsked_run
    (hrun : Threads.run hashes settings (Threads.start db serial) events = some state) :
    AnswersAsked state := by
  refine runSteps_induction (motive := fun _ (state : Threads DB n) => AnswersAsked state)
    ?_ ?_ hrun
  · intro answer hmem
    cases hmem
  intro events before event after hbefore ih hstep answer hmem id hworker
  have hmoved := (Threads.threadStep_of_step hstep).moved id
  have hold : answer ∈ before.workers.answers → ∃ task key,
      after.gateway.task id = some task ∧ task.request.cmd = .get key ∧
        answer.key = utf8 key.toList := by
    intro hearlier
    obtain ⟨task, key, htask, hcmd, hkey⟩ := ih answer hearlier id hworker
    obtain ⟨rest, hafter⟩ := hmoved.request htask
    exact ⟨{ task with rest := rest }, key, hafter, hcmd, hkey⟩
  rcases answer_cases hstep (Threads.inCall_run hbefore) with
    ⟨own, workerId, request, key, rest, value, started, finished, htask, hanswers, -⟩ |
      ⟨hanswers, -⟩
  · rw [hanswers] at hmem
    rcases List.mem_append.mp hmem with hearlier | hnew
    · exact hold hearlier
    · cases List.mem_singleton.mp hnew
      cases hworker
      obtain ⟨asked, hcmd, rfl⟩ := cmd_of_get_task hbefore htask
      obtain ⟨left, hafter⟩ := hmoved.request htask
      exact ⟨_, asked, hafter, hcmd, rfl⟩
  · exact hold (hanswers ▸ hmem)

theorem repliesAnswered_run
    (hrun : Threads.run hashes settings (Threads.start db serial) events = some state) :
    RepliesAnswered state := by
  refine runSteps_induction (motive := fun _ (state : Threads DB n) => RepliesAnswered state)
    ?_ ?_ hrun
  · intro id task key htask
    cases htask
  intro events before event after hbefore ih hstep id task key htask hcmd
  rcases answer_cases hstep (Threads.inCall_run hbefore) with
    ⟨own, workerId, request, asked, rest, value, started, finished, hget, hanswers, hgateway⟩ |
      ⟨hanswers, hgets⟩
  · -- one task has got an answer, which is its effect
    rw [answersTo, hanswers, List.filter_append, List.map_append, ← answersTo]
    by_cases hown : id = own
    · subst hown
      rw [hgateway, Server.advance_task, Function.update_self, Option.some.injEq] at htask
      subst htask
      rw [hgateway, Server.effectsOf_advance_self, ih id _ key hget hcmd]
      simp
    · rw [hgateway, Server.advance_task, Function.update_of_ne hown] at htask
      rw [hgateway, Server.effectsOf_advance_of_ne _ hown, ih id task key htask hcmd]
      simp [Ne.symm hown]
  · rw [answersTo, hanswers, ← answersTo]
    cases (Threads.threadStep_of_step hstep).moved id with
    | idle hsame heffects => rw [heffects, ih id task key (hsame ▸ htask) hcmd]
    | spawned workerId request hnone _ heffects =>
        -- nothing has been answered to a task that was not there
        have hprogress := Threads.progress_run hbefore id
        rw [hnone] at hprogress
        have hnothing : answersTo before.workers id = [] := by
          refine List.filter_eq_nil_iff.mpr fun answer hmem hworker => ?_
          obtain ⟨other, _, hother, -⟩ :=
            answersAsked_run hbefore answer hmem id (of_decide_eq_true hworker)
          rw [hnone] at hother
          cases hother
        rw [heffects, hnothing, show effectsOf id before.gateway.log = [] from hprogress]
        rfl
    | acted workerId request action rest effect hat _ hafter _ =>
        -- the only action of a get is that get, which has not been answered
        cases hafter.symm.trans htask
        have hprogress := Threads.progress_run hbefore id
        rw [hat] at hprogress
        have hmem := hprogress.mem_handler
        rw [handler, show request.cmd = .get key from hcmd] at hmem
        cases List.mem_singleton.mp hmem
        have hsame := hgets id _ _ _ _ hat
        rw [hafter, hat] at hsame
        simp at hsame

/-- **Behind the tasks are workers that share a store.** In every run, the store has gone
through a run of workers; the commands that the tasks send are those of the puts in the
log, in that order, and the steps of the network are those of the run; and the store has
answered tasks nothing but their gets, each of which has been replied to with what it
was answered. -/
theorem threads_refine_workers
    (hrun : Threads.run hashes settings (Threads.start db serial) events = some state) :
    ∃ trace, Workers.run hashes (Workers.start db) trace = some state.workers ∧
      trace.filterMap taskSent? = state.gateway.log.filterMap (taskPut? hashes) ∧
      trace.filter isOfNetwork = events.filterMap networkStep? ∧
      AnswersAsked state ∧ RepliesAnswered state :=
  ⟨_, Threads.workers_run hrun, sends_run hrun, filter_isOfNetwork_run hrun,
    answersAsked_run hrun, repliesAnswered_run hrun⟩

/-- The second put's command is sent first, and the get that both overtook is replied to
with what it was answered. -/
theorem threads_refine_workers_overtakenGet :
    ∃ state trace, Threads.run sampleHashes ⟨false⟩ noChannels overtakenGet = some state ∧
      Workers.run sampleHashes (Workers.start ReferenceDB.empty) trace = some state.workers ∧
      trace.filterMap taskSent? = [(2, kvRecord sampleHashes (utf8 "a".toList) [2]),
        (1, kvRecord sampleHashes (utf8 "a".toList) [1])] ∧
      (answersTo state.workers 0).map Answer.value = [some [1]] := by
  obtain ⟨state, hrun, -, htask, hlog⟩ := exists_run_overtakenGet
  obtain ⟨trace, htrace, hsent, -, -, hreplies⟩ := threads_refine_workers hrun
  refine ⟨state, trace, hrun, htrace, hsent.trans (by rw [hlog]; rfl), ?_⟩
  have hreplied : [.replied (.bulkString (some [1]))] = (answersTo state.workers 0).map
      fun answer => (.replied (.bulkString answer.value) : Effect 0) := by
    rw [← hreplies 0 _ "a" htask rfl, hlog]
    decide
  obtain ⟨answer, hanswers, hvalue⟩ := List.map_eq_singleton_iff.mp hreplied.symm
  rw [hanswers]
  simpa using hvalue

/-! ## How a get comes by its reply -/

/-- What a task that gets a key comes by in its next step. -/
inductive Finds (hashes : Hashes) (before : Threads DB n) (id : Nat) (key : Bytes) :
    Option Bytes → Prop
  /-- The record of the slot. -/
  | hot (record : SignedRecord) (hphase : before.phase id = .idle)
      (hload : before.workers.store.loadHot hashes (hashes.sha256 key) = some record) :
      Finds hashes before id key (some record.value)
  /-- The row, where the slot was empty. -/
  | cold (started : Nat) (hphase : before.phase id = .reading key started) :
      Finds hashes before id key
        ((before.workers.store.readColumns hashes (hashes.sha256 key)).map SignedRecord.value)

/-- A reply to a get was given in some step, with what the task came by there. -/
theorem exists_finds {earlier later : List (ThreadsEvent n)} {first : Threads DB n}
    (hfirst : Threads.run hashes settings (Threads.start db serial) earlier = some first)
    (hrun : Threads.run hashes settings first later = some state) {id : Nat} {task : Task n}
    {key : String} {payload : Option Bytes} (htask : state.gateway.task id = some task)
    (hcmd : task.request.cmd = .get key)
    (hnew : .task id (.replied (.bulkString payload)) ∉ first.gateway.log)
    (hreply : .task id (.replied (.bulkString payload)) ∈ state.gateway.log) :
    ∃ since before, since ++ [.serve (.act id)] <+: later ∧
      Threads.run hashes settings first since = some before ∧
        Finds hashes before id (utf8 key.toList) payload := by
  obtain ⟨since, event, before, after, hbegins, hbefore, hstep, hnot, hafter⟩ :=
    exists_step_of_not (motive := fun state : Threads DB n =>
      .replied (.bulkString payload) ∈ effectsOf id state.gateway.log)
      (fun hold => hnew (mem_effectsOf.mp hold)) hrun (mem_effectsOf.mpr hreply)
  have hwhole := runSteps_trans hfirst hbefore
  obtain ⟨_, hlater⟩ := exists_later_of_prefix hrun ((List.prefix_append ..).trans hbegins) hbefore
  -- the task of the step is that of the request
  have hasked : ∀ {workerId : Nat} {request : GatewayRequest} {rest : List (Action n)},
      before.gateway.task id = some ⟨workerId, request, rest⟩ → request.cmd = .get key := by
    intro workerId request rest hat
    obtain ⟨_, hleft⟩ := Threads.request_run hlater hat
    cases htask.symm.trans hleft
    exact hcmd
  have hkey : ∀ {workerId : Nat} {request : GatewayRequest} {asked : Bytes}
      {rest : List (Action n)},
      before.gateway.task id = some ⟨workerId, request, .get asked :: rest⟩ →
        asked = utf8 key.toList := by
    intro workerId request asked rest hat
    obtain ⟨_, hget, rfl⟩ := cmd_of_get_task hwhole hat
    cases hget.symm.trans (hasked hat)
    rfl
  have hidle : effectsOf id after.gateway.log = effectsOf id before.gateway.log → False :=
    fun hsame => hnot (hsame ▸ hafter)
  -- the effect of a step is that of one task, and the only new one
  have hadvance : ∀ {other workerId : Nat} {request : GatewayRequest} {rest : List (Action n)}
      {effect : Effect n}, after.gateway =
        before.gateway.advance hashes other ⟨workerId, request, rest⟩ effect →
      other = id ∧ effect = .replied (.bulkString payload) := by
    intro other workerId request rest effect hgateway
    rw [hgateway] at hidle hafter
    by_cases hother : id = other
    · subst hother
      rw [Server.effectsOf_advance_self] at hafter
      exact ⟨rfl, (List.mem_singleton.mp ((List.mem_append.mp hafter).resolve_left hnot)).symm⟩
    · exact absurd (Server.effectsOf_advance_of_ne _ hother _ _) hidle
  refine ⟨since, before, ?_⟩
  cases Threads.threadStep_of_step hstep with
  | apart inner _ happart hgateway _ =>
      cases Server.taskStep_of_step hgateway id with
      | idle _ heffects => exact (hidle heffects).elim
      | spawned _ _ _ _ _ heffects => exact (hidle heffects).elim
      | acted workerId request action rest effect hevent hat _ _ _ =>
          -- a get has no action but that get
          subst hevent
          have hprogress := Threads.progress_run hwhole id
          rw [hat] at hprogress
          have hmem := hprogress.mem_handler
          rw [handler, hasked hat] at hmem
          exact absurd (List.mem_singleton.mp hmem) ((happart _ action rest hat rfl).1 _)
  | stored _ _ _ _ _ _ _ _ _ _ _ hgateway => exact (hidle (by rw [hgateway])).elim
  | sent _ _ _ _ _ _ _ _ _ _ _ _ hgateway => cases (hadvance hgateway).2
  | found _ _ _ _ _ record hevent hat hphase hload _ _ hgateway =>
      obtain ⟨rfl, hpayload⟩ := hadvance hgateway
      cases hpayload
      cases hkey hat
      exact ⟨hevent ▸ hbegins, hbefore, .hot record hphase hload⟩
  | missed _ _ _ _ _ _ _ _ _ _ _ hgateway => exact (hidle (by rw [hgateway])).elim
  | read _ _ _ _ _ asked started hevent hat hphase _ _ hgateway =>
      obtain ⟨rfl, hpayload⟩ := hadvance hgateway
      cases hpayload
      obtain ⟨_, _, _, hget⟩ := (Threads.inCall_run hwhole _).reading asked started hphase
      cases hkey hget
      exact ⟨hevent ▸ hbegins, hbefore, .cold started hphase⟩
  | written _ _ hgateway =>
      exact (hidle (hgateway ▸ Server.effectsOf_record _ (fun _ => rfl) id)).elim
  | receivedHot _ _ _ _ hgateway => exact (hidle (by rw [hgateway])).elim
  | receivedSent _ _ _ _ hgateway => exact (hidle (by rw [hgateway])).elim

/-- So a get made at once would have found it at that step or at some moment before. -/
theorem Finds.exists_moment [LawfulCdDB DB] {id : Nat} {key : Bytes} {payload : Option Bytes}
    (hfinds : Finds hashes state id key payload) (hidle : CdDB.IsIdle db)
    (hrun : Threads.run hashes settings (Threads.start db serial) events = some state) :
    ∃ sofar between, sofar <+: events ∧
      Threads.run hashes settings (Threads.start db serial) sofar = some between ∧
        payload = L2Executor.get hashes between.workers.store key := by
  cases hfinds with
  | hot record _ hload => exact ⟨events, state, List.prefix_rfl, hrun, (get_of_loadHot hload).symm⟩
  | cold started hphase =>
      obtain ⟨sofar, between, hsofar, hbetween, -, hvalue⟩ :=
        exists_moment_of_reading hidle hrun hphase
      exact ⟨sofar, between, hsofar, hbetween, hvalue⟩

/-! ## Where the values come from -/

/-- A request to put a value on a key has arrived, and the gate lets it through. -/
def PutArrived (settings : SecuritySettings) (events : List (ThreadsEvent n)) (key : String)
    (val : Bytes) : Prop :=
  ∃ id workerId request, .serve (.arrive id workerId request) ∈ events ∧
    request.cmd = .put key val ∧
    (n ≠ 0 → isVm key = true → MayForward settings request.peerAddr val)

/-- A record has come from the network, or it is that of such a request. -/
def RecordArrived (hashes : Hashes) (settings : SecuritySettings) (events : List (ThreadsEvent n))
    (record : SignedRecord) : Prop :=
  (∃ thread, .storeHot thread record ∈ events) ∨ ∃ key val, PutArrived settings events key val ∧
    record = kvRecord hashes (utf8 key.toList) val

/-- Nothing is stored in a slot that has not arrived. -/
theorem recordArrived_of_storeHot_mem
    (hrun : Threads.run hashes settings (Threads.start db serial) events = some state)
    {caller : Caller} {record : SignedRecord}
    (hmem : .storeHot caller record ∈ Threads.workersTrace hashes settings db serial events) :
    RecordArrived hashes settings events record := by
  obtain ⟨earlier, event, before, hbegins, hbefore, hmatched⟩ :=
    Simulation.exists_step_of_mem_trace _ hrun hmem
  have hsub : earlier ⊆ events := ((List.prefix_append ..).trans hbegins).subset
  rcases Threads.storeHot_cases (Option.mem_toList.mp hmatched) with
    ⟨thread, rfl⟩ | ⟨id, workerId, request, stored, val, rest, htask, rfl⟩
  · exact Or.inl ⟨thread, hbegins.subset (List.mem_append_right _ (List.mem_singleton_self _))⟩
  · have hprogress := Threads.progress_run hbefore id
    rw [htask] at hprogress
    obtain ⟨key, hcmd, rfl, hpassed⟩ := passed_of_put_mem hprogress.mem_handler
    exact Or.inr ⟨key, val, ⟨id, workerId, request,
      hsub (Threads.arrive_mem_of_task hbefore htask), hcmd,
      fun hchannels hvm => vmRejection_eq_none_iff.mp (hpassed hchannels hvm)⟩, rfl⟩

/-- A value of a record of the slot of a key, which has arrived. -/
def ValueArrived (hashes : Hashes) (settings : SecuritySettings) (events : List (ThreadsEvent n))
    (key : String) (val : Bytes) : Prop :=
  ∃ record, RecordArrived hashes settings events record ∧
    hotSlot (hashes.entityId record) = keySlot hashes (utf8 key.toList) ∧ record.value = val

/-- A value that was recovered for a key, with nothing stored in its slot. -/
def ValueRecovered (hashes : Hashes) (db : DB) (stored : List (WorkerEvent Caller)) (key : String)
    (val : Bytes) : Prop :=
  ((CdDB.contents db).rows (hashes.ahash (hashes.sha256 (utf8 key.toList)))).toSigned.map
      SignedRecord.value = some val ∧
    ∀ caller record, .storeHot caller record ∈ stored →
      hotSlot (hashes.entityId record) ≠ keySlot hashes (utf8 key.toList)

/-- What a get made at once finds has arrived or was recovered. -/
theorem valueArrived_or_valueRecovered [LawfulCdDB DB] (hidle : CdDB.IsIdle db)
    (hrun : Threads.run hashes settings (Threads.start db serial) events = some state)
    {key : String} {val : Bytes}
    (hget : L2Executor.get hashes state.workers.store (utf8 key.toList) = some val) :
    ValueArrived hashes settings events key val ∨ ValueRecovered hashes db
      (Threads.workersTrace hashes settings db serial events) key val := by
  rw [get_of_workers_run hidle (Threads.workers_run hrun)] at hget
  cases hlast : latest (WorkerEvent.storedIn hashes (keySlot hashes (utf8 key.toList)))
      (Threads.workersTrace hashes settings db serial events) with
  | some record =>
      rw [hlast, Option.some_or, Option.map_some, Option.some.injEq] at hget
      obtain ⟨event, hmem, hstored⟩ := exists_mem_of_latest hlast
      cases event with
      | storeHot caller other =>
          obtain ⟨hslot, hsame⟩ := Option.ite_none_right_eq_some.mp hstored
          cases hsame
          exact Or.inl ⟨record, recordArrived_of_storeHot_mem hrun hmem, hslot, hget⟩
      | _ => cases hstored
  | none =>
      rw [hlast, Option.none_or] at hget
      refine Or.inr ⟨hget, fun caller record hmem hslot => ?_⟩
      have hstored := latest_eq_none_iff.mp hlast _ hmem
      rw [WorkerEvent.storedIn, if_pos hslot] at hstored
      cases hstored

/-- **No value out of thin air, whatever overtakes what.** In every run of the tasks, the
threads of the network and the writer, a value that a get is replied to with had, at
some moment before the reply, arrived in a record from the network or in a request to
put it that the gate let through, on a key of the same slot; or it was recovered, and
nothing had been stored in that slot. -/
theorem thread_replies_arrived [LawfulCdDB DB] (hidle : CdDB.IsIdle db)
    (hrun : Threads.run hashes settings (Threads.start db serial) events = some state) {id : Nat}
    {task : Task n} {key : String} {val : Bytes} (htask : state.gateway.task id = some task)
    (hcmd : task.request.cmd = .get key)
    (hreply : .task id (.replied (.bulkString (some val))) ∈ state.gateway.log) :
    ∃ earlier sofar, earlier ++ [.serve (.act id)] <+: events ∧ sofar <+: earlier ∧
      (ValueArrived hashes settings sofar key val ∨ ValueRecovered hashes db
        (Threads.workersTrace hashes settings db serial sofar) key val) := by
  have hstart : Threads.run hashes settings (Threads.start db serial) [] =
      some (Threads.start db serial) := rfl
  obtain ⟨earlier, before, hbegins, hbefore, hfinds⟩ :=
    exists_finds hstart hrun htask hcmd List.not_mem_nil hreply
  obtain ⟨sofar, between, hsofar, hbetween, hget⟩ := hfinds.exists_moment hidle hbefore
  exact ⟨earlier, sofar, hbegins, hsofar,
    valueArrived_or_valueRecovered hidle hbetween hget.symm⟩

/-- So had the value of the put that the slot no longer held. -/
theorem thread_replies_arrived_overtakenGet :
    ∃ earlier sofar, earlier ++ [.serve (.act 0)] <+: overtakenGet ∧ sofar <+: earlier ∧
      ValueArrived sampleHashes ⟨false⟩ sofar "a" [1] := by
  obtain ⟨state, hrun, -, htask, hlog⟩ := exists_run_overtakenGet
  have hidle : CdDB.IsIdle (ReferenceDB.empty : ReferenceDB 8) := rfl
  have hreply : .task 0 (.replied (.bulkString (some [1]))) ∈ state.gateway.log := by
    simp [hlog]
  obtain ⟨earlier, sofar, hbegins, hsofar, harrived | ⟨hrecovered, -⟩⟩ :=
    thread_replies_arrived hidle hrun htask rfl hreply
  · exact ⟨earlier, sofar, hbegins, hsofar, harrived⟩
  · cases hrecovered

end ServerGo.Analysis
