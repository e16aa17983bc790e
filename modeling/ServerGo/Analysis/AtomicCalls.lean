/-
# Calls that seem to be one step

A put that is two steps acts when it stores its slot, and a get that is two steps
acts at some moment while it is under way. So whatever the tasks of all workers, the
network and the writer do to each other, the clients see a server whose calls of the
store are one step each: at every moment each task stands where it stands there, but
that a call under way may already have been made.
-/

import ServerGo.Analysis.CallHistories
import ServerGo.Analysis.VmGate

namespace ServerGo.Analysis

open ServerGo.Gateway ServerGo.Math ServerGo.Storage

variable {DB : Type} {n : Nat} [CdDB DB] {hashes : Hashes} {settings : SecuritySettings} {db : DB}
  {serial : Fin n → SerialChannel} {joint : List (ThreadsEvent n × List (NodeEvent n))}
  {state after : Threads DB n} {server next : Server (TieredStore DB) n}

/-! ## One step -/

omit [CdDB DB] in
/-- A task that is in no call stands alike in both. -/
theorem Stands.sameTask_of_idle {id : Nat} (hstands : Stands state server id)
    (hphase : state.phase id = .idle) : SameTask state.gateway server id := by
  rw [Stands, hphase] at hstands
  exact hstands

omit [CdDB DB] in
theorem stands_of_sameTask {id : Nat} (hphase : after.phase id = .idle)
    (hsame : SameTask after.gateway next id) : Stands after next id := by
  rw [Stands, hphase]
  exact hsame

theorem SameStores.congr (hstores : SameStores hashes db state server)
    (hworkers : after.workers = state.workers)
    (hstorage : next.world.storage = server.world.storage) : SameStores hashes db after next := by
  rw [SameStores, hworkers, hstorage]
  exact hstores

/-- A step of a worker that stores nothing in a slot leaves the stores alike. -/
theorem SameStores.workerStep (hstores : SameStores hashes db state server)
    {event : WorkerEvent Caller}
    (hstep : Workers.step hashes state.workers event = some after.workers)
    (hrecord : event.stored? = none) (hstorage : next.world.storage = server.world.storage) :
    SameStores hashes db after next := by
  have hnothing : next.world.storage = Call.run hashes server.world.storage [] := hstorage
  exact hstores.concat hstep hnothing (by rw [hrecord]; rfl)

variable [LawfulCdDB DB]

/-- An entry of no task's, that both servers make. -/
theorem Matched.record (hidle : CdDB.IsIdle db)
    (hmatched : Matched hashes settings db serial none joint state server) {event : ThreadsEvent n}
    {inner : ServerEvent n} (hstep : Threads.step hashes settings state event = some after)
    {entry : Entry n} (hentry : ∀ id, entry.effectOf id = none)
    (hgateway : after.gateway = state.gateway.record hashes entry)
    (hphase : ∀ id, after.phase id = state.phase id)
    (hserver : Server.step hashes settings server inner = some (server.record hashes entry))
    (hstores : SameStores hashes db after (server.record hashes entry)) :
    ∃ next, Matched hashes settings db serial none (joint ++ [(event, [.serve inner])]) after
      next := by
  refine ⟨_, hmatched.concat hidle hstep (runNode_serve hserver) ?_ hstores fun id =>
    Or.inl ⟨by simp, hphase id, ?_, ?_⟩⟩
  · rw [hgateway, Server.record_world, Server.record_world]
    exact World.serial_replay_congr hmatched.channels entry
  · rw [hgateway]
    exact ⟨rfl, Server.effectsOf_record _ hentry id⟩
  · exact ⟨rfl, Server.effectsOf_record _ hentry id⟩

/-- An action that a task takes in both, with the same effect. -/
theorem Matched.advance (hidle : CdDB.IsIdle db)
    (hmatched : Matched hashes settings db serial none joint state server) {event : ThreadsEvent n}
    {id : Nat} (hstep : Threads.step hashes settings state event = some after) {left : Task n}
    {effect : Effect n} (hsame : SameTask state.gateway server id)
    (hgateway : after.gateway = state.gateway.advance hashes id left effect)
    (hphase : after.phase id = .idle)
    (hothers : ∀ other ≠ id, after.phase other = state.phase other)
    (hserver : Server.step hashes settings server (.act id) =
      some (server.advance hashes id left effect))
    (hstores : SameStores hashes db after (server.advance hashes id left effect)) :
    ∃ next, Matched hashes settings db serial none (joint ++ [(event, [.serve (.act id)])]) after
      next := by
  refine ⟨_, hmatched.concat hidle hstep (runNode_serve hserver) ?_ hstores fun other => ?_⟩
  · rw [hgateway]
    exact World.serial_replay_congr hmatched.channels (.task id effect)
  · by_cases hother : other = id
    · subst hother
      exact Or.inr ⟨stands_of_sameTask hphase (hgateway ▸ hsame.advance left effect),
        fun key started hreading => by simp [hphase] at hreading⟩
    · exact Or.inl ⟨by simp, hothers other hother, hgateway ▸ sameTask_advance _ hother left effect,
        sameTask_advance _ hother left effect⟩

/-- An event that does not touch the store. -/
theorem Matched.apart (hidle : CdDB.IsIdle db)
    (hmatched : Matched hashes settings db serial none joint state server)
    {inner : ServerEvent n}
    (hstep : Threads.step hashes settings state (.serve inner) = some after)
    (happart : inner.IsApart state.gateway.task)
    (hgateway : Server.step hashes settings state.gateway inner = some after.gateway)
    (hworkers : after.workers = state.workers) :
    ∃ next, Matched hashes settings db serial none (joint ++ [(.serve inner, [.serve inner])]) after
      next := by
  have hphases : ∀ id, after.phase id = state.phase id := by
    intro id
    rw [Threads.phase, hworkers]
    rfl
  cases inner with
  | arrive id workerId request =>
      rw [Server.step] at hgateway
      split at hgateway
      next hnone =>
          have hphase := (Threads.inCall_run hmatched.reaches.1 id).idle_of_isApart
            fun found action rest hfound => by simp [hnone] at hfound
          have hsame := (hmatched.stands id (by simp)).sameTask_of_idle hphase
          have hserver : Server.step hashes settings server (.arrive id workerId request) =
              some { server with
                task := Function.update server.task id
                  (some ⟨workerId, request, handler workerId settings request⟩) } := by
            rw [Server.step, hsame.1, hnone]
          have hafter := (Option.some.inj hgateway).symm
          refine ⟨_, hmatched.concat hidle hstep (runNode_serve hserver) ?_
            (hmatched.stores.congr hworkers rfl) fun other => ?_⟩
          · rw [hafter]
            exact hmatched.channels
          · by_cases hother : other = id
            · subst hother
              refine Or.inr ⟨stands_of_sameTask ((hphases other).trans hphase) ?_,
                fun key started hreading => by simp [hphases, hphase] at hreading⟩
              rw [hafter]
              exact ⟨by simp, hsame.2⟩
            · refine Or.inl ⟨by simp, hphases other, ?_, Function.update_of_ne hother .., rfl⟩
              rw [hafter]
              exact ⟨Function.update_of_ne hother .., rfl⟩
      next => cases hgateway
  | act id =>
      have hphase := (Threads.inCall_run hmatched.reaches.1 id).idle_of_isApart happart
      have hsame := (hmatched.stands id (by simp)).sameTask_of_idle hphase
      obtain ⟨workerId, request, action, rest, effect, htask, houtcome, hafter⟩ :=
        Server.act_cases hgateway
      obtain ⟨hget, hput⟩ := happart _ action rest htask rfl
      have hboth : server.world.outcome hashes action = some effect ∧
          (server.world.after hashes effect).storage = server.world.storage := by
        cases action with
        | sendSerial channel frame =>
            have hserver : server.world.outcome hashes (.sendSerial channel frame) =
                some effect := by
              rw [World.outcome, hmatched.channels]
              exact houtcome
            refine ⟨hserver, ?_⟩
            cases World.causes_of_outcome hserver <;> rfl
        | get key => exact absurd rfl (hget key)
        | put key val => exact absurd rfl (hput key val)
        | reply frame =>
            cases houtcome
            exact ⟨rfl, rfl⟩
      refine hmatched.advance hidle hstep hsame hafter ((hphases id).trans hphase)
        (fun other _ => hphases other) ?_ (hmatched.stores.congr hworkers hboth.2)
      rw [Server.step, hsame.1, htask]
      dsimp only
      rw [hboth.1, Option.map_some]
  | writerTurn => exact happart.elim
  | driverTurn channel =>
      exact hmatched.record hidle hstep (fun _ => rfl) (Option.some.inj hgateway).symm hphases rfl
        (hmatched.stores.congr hworkers rfl)
  | close channel =>
      exact hmatched.record hidle hstep (fun _ => rfl) (Option.some.inj hgateway).symm hphases rfl
        (hmatched.stores.congr hworkers rfl)

/-- A step of a call that neither begins a put nor returns, or a turn behind the tasks,
leaves the server where it is. -/
theorem Matched.wait (hidle : CdDB.IsIdle db)
    (hmatched : Matched hashes settings db serial none joint state server) {event : ThreadsEvent n}
    (hstep : Threads.step hashes settings state event = some after)
    (hgateway : after.gateway = state.gateway) (hstores : SameStores hashes db after server)
    (htasks : ∀ id, after.phase id = state.phase id ∨
      (Stands after server id ∧ ∀ key started, after.phase id = .reading key started →
        state.workers.clock ≤ started)) :
    ∃ next, Matched hashes settings db serial none (joint ++ [(event, [])]) after next :=
  ⟨server, hmatched.concat hidle hstep rfl (hgateway ▸ hmatched.channels) hstores fun id =>
    (htasks id).imp_left fun hphase =>
      ⟨by simp, hphase, hgateway ▸ SameTask.refl _ _, SameTask.refl _ _⟩⟩

/-- A put stores its slot: it acts. -/
theorem Matched.stored (hidle : CdDB.IsIdle db)
    (hmatched : Matched hashes settings db serial none joint state server) {id workerId : Nat}
    {request : GatewayRequest} {key val : Bytes} {rest : List (Action n)}
    (hstep : Threads.step hashes settings state (.serve (.act id)) = some after)
    (htask : state.gateway.task id = some ⟨workerId, request, .put key val :: rest⟩)
    (hbefore : state.phase id = .idle)
    (hworkers : Workers.step hashes state.workers
      (.storeHot (.task id) (kvRecord hashes key val)) = some after.workers)
    (hphase : after.phase id = .applying (kvRecord hashes key val))
    (hgateway : after.gateway = state.gateway) :
    ∃ next, Matched hashes settings db serial none
      (joint ++ [(.serve (.act id), [.serve (.act id)])]) after next := by
  have hsame := (hmatched.stands id (by simp)).sameTask_of_idle hbefore
  have hserver : Server.step hashes settings server (.act id) =
      some (server.advance hashes id ⟨workerId, request, rest⟩ (.applied key val)) := by
    rw [Server.step, hsame.1, htask]
    rfl
  have hput : (server.advance hashes id ⟨workerId, request, rest⟩
      (.applied key val)).world.storage =
        Call.run hashes server.world.storage [.put key val] := rfl
  refine ⟨_, hmatched.concat hidle hstep (runNode_serve hserver) ?_
    (hmatched.stores.concat hworkers hput rfl) fun other => ?_⟩
  · rw [hgateway]
    exact hmatched.channels
  · by_cases hother : other = id
    · subst hother
      refine Or.inr ⟨?_, fun key started hreading => by simp [hphase] at hreading⟩
      rw [Stands, hphase]
      refine ⟨key, val, workerId, request, rest, hgateway ▸ htask, ?_, ?_⟩
      · rw [Server.advance_task, Function.update_self]
      · rw [Server.effectsOf_advance_self, hgateway, hsame.2]
    · exact Or.inl ⟨by simp, Threads.phase_eq_of_task_ne hworkers rfl hother,
        hgateway ▸ .refl _ _, sameTask_advance _ hother ..⟩

/-- A put sends its command: it returns. -/
theorem Matched.sent (hidle : CdDB.IsIdle db)
    (hmatched : Matched hashes settings db serial none joint state server) {id workerId : Nat}
    {request : GatewayRequest} {key val : Bytes} {rest : List (Action n)} {record : SignedRecord}
    (hstep : Threads.step hashes settings state (.serve (.act id)) = some after)
    (htask : state.gateway.task id = some ⟨workerId, request, .put key val :: rest⟩)
    (hbefore : state.phase id = .applying record)
    (hworkers : Workers.step hashes state.workers (.sendInsert (.task id) record) =
      some after.workers)
    (hphase : after.phase id = .idle)
    (hgateway : after.gateway =
      state.gateway.advance hashes id ⟨workerId, request, rest⟩ (.applied key val)) :
    ∃ next, Matched hashes settings db serial none (joint ++ [(.serve (.act id), [])]) after
      next := by
  have hstands := hmatched.stands id (by simp)
  rw [Stands, hbefore] at hstands
  obtain ⟨stored, value, ownId, own, left, hput, hdone, heffects⟩ := hstands
  cases htask.symm.trans hput
  refine ⟨server, hmatched.concat hidle hstep rfl ?_ (hmatched.stores.workerStep hworkers rfl rfl)
    fun other => ?_⟩
  · rw [hgateway]
    exact hmatched.channels
  · by_cases hother : other = id
    · subst hother
      refine Or.inr ⟨stands_of_sameTask hphase ⟨?_, ?_⟩,
        fun key started hreading => by simp [hphase] at hreading⟩
      · rw [hgateway, Server.advance_task, Function.update_self, hdone]
      · rw [hgateway, Server.effectsOf_advance_self, heffects]
    · exact Or.inl ⟨by simp, Threads.phase_eq_of_task_ne hworkers rfl hother,
        hgateway ▸ sameTask_advance _ hother .., .refl _ _⟩

/-- A get finds a record in its slot: it acts and returns. -/
theorem Matched.found (hidle : CdDB.IsIdle db)
    (hmatched : Matched hashes settings db serial none joint state server) {id workerId : Nat}
    {request : GatewayRequest} {key : Bytes} {rest : List (Action n)} {record : SignedRecord}
    (hstep : Threads.step hashes settings state (.serve (.act id)) = some after)
    (htask : state.gateway.task id = some ⟨workerId, request, .get key :: rest⟩)
    (hbefore : state.phase id = .idle)
    (hload : state.workers.store.loadHot hashes (hashes.sha256 key) = some record)
    (hworkers : Workers.step hashes state.workers (.loadHot (.task id) key) = some after.workers)
    (hphase : after.phase id = .idle)
    (hgateway : after.gateway = state.gateway.advance hashes id ⟨workerId, request, rest⟩
      (.replied (.bulkString (some record.value)))) :
    ∃ next, Matched hashes settings db serial none
      (joint ++ [(.serve (.act id), [.serve (.act id)])]) after next := by
  have hsame := (hmatched.stands id (by simp)).sameTask_of_idle hbefore
  refine hmatched.advance hidle hstep hsame hgateway hphase
    (fun other hother => Threads.phase_eq_of_task_ne hworkers rfl hother) ?_
    (hmatched.stores.workerStep hworkers rfl rfl)
  rw [← get_of_loadHot hload, ← hmatched.stores.get hidle]
  exact step_get (hsame.1.trans htask)

/-- A get finds its slot empty: it begins to wait. -/
theorem Matched.missed (hidle : CdDB.IsIdle db)
    (hmatched : Matched hashes settings db serial none joint state server) {id : Nat}
    {key : Bytes} (hstep : Threads.step hashes settings state (.serve (.act id)) = some after)
    (hbefore : state.phase id = .idle)
    (hworkers : Workers.step hashes state.workers (.loadHot (.task id) key) = some after.workers)
    (hphase : after.phase id = .reading key state.workers.clock)
    (hgateway : after.gateway = state.gateway) :
    ∃ next, Matched hashes settings db serial none (joint ++ [(.serve (.act id), [])]) after
      next := by
  refine hmatched.wait hidle hstep hgateway (hmatched.stores.workerStep hworkers rfl rfl)
    fun other => ?_
  by_cases hother : other = id
  · subst hother
    refine Or.inr ⟨?_, fun asked started hreading => ?_⟩
    · rw [Stands, hphase, hgateway]
      exact (hmatched.stands other (by simp)).sameTask_of_idle hbefore
    · rw [hphase] at hreading
      cases hreading
      exact le_rfl
  · exact Or.inl (Threads.phase_eq_of_task_ne hworkers rfl hother)

/-- What a get that has waited reads from the columns, a get made at once would have
found at some moment since. -/
theorem exists_moment_of_reading (hidle : CdDB.IsIdle db) {events : List (ThreadsEvent n)}
    (hrun : Threads.run hashes settings (Threads.start db serial) events = some state)
    {id started : Nat} {key : Bytes} (hphase : state.phase id = .reading key started) :
    ∃ sofar between, sofar <+: events ∧
      Threads.run hashes settings (Threads.start db serial) sofar = some between ∧
      started < between.workers.clock ∧
      (state.workers.store.readColumns hashes (hashes.sha256 key)).map SignedRecord.value =
        L2Executor.get hashes between.workers.store key := by
  have hstore := Threads.workers_run hrun
  obtain ⟨moment, at', hlate, hmoment, hat, hvalue⟩ :=
    exists_answeredAt_of_miss hidle hstore (isMiss_of_reading hstore hphase)
  rw [← Workers.clock_run hstore] at hmoment
  obtain ⟨sofar, between, hsofar, hbetween, hclock, htrace⟩ := Threads.exists_moment hrun hmoment
  obtain rfl : between.workers = at' :=
    Option.some.inj ((htrace ▸ Threads.workers_run hbetween).symm.trans hat)
  exact ⟨sofar, between, hsofar, hbetween, hclock ▸ hlate, hvalue⟩

/-- A get that has waited reads the columns: it acted at some moment since, and returns. -/
theorem Matched.read (hidle : CdDB.IsIdle db)
    (hmatched : Matched hashes settings db serial none joint state server)
    {id workerId started : Nat} {request : GatewayRequest} {key asked : Bytes}
    {rest : List (Action n)}
    (hstep : Threads.step hashes settings state (.serve (.act id)) = some after)
    (htask : state.gateway.task id = some ⟨workerId, request, .get key :: rest⟩)
    (hbefore : state.phase id = .reading asked started)
    (hworkers : Workers.step hashes state.workers (.readColumns (.task id) asked) =
      some after.workers)
    (hphase : after.phase id = .idle)
    (hgateway : after.gateway = state.gateway.advance hashes id ⟨workerId, request, rest⟩
      (.replied (.bulkString ((state.workers.store.readColumns hashes
        (hashes.sha256 asked)).map SignedRecord.value)))) :
    ∃ joint' next, joint'.map Prod.fst = joint.map Prod.fst ++ [.serve (.act id)] ∧
      Matched hashes settings db serial none joint' after next := by
  obtain ⟨ownId, own, left, hget⟩ :=
    (Threads.inCall_run hmatched.reaches.1 id).reading asked started hbefore
  cases htask.symm.trans hget
  -- the moment at which a get made at once would have been given this answer
  obtain ⟨sofar, between, hsofar, hbetween, hlate, hvalue⟩ :=
    exists_moment_of_reading hidle hmatched.reaches.1 hbefore
  obtain ⟨pairs, hpairs, rfl⟩ := List.prefix_map_iff.mp hsofar
  obtain ⟨there, earlier, hreaches, -⟩ := hmatched.sofar pairs hpairs
  obtain rfl : there = between := Option.some.inj (hreaches.1.symm.trans hbetween)
  obtain ⟨joint', ahead, hfirst, hdone, hahead⟩ :=
    hmatched.answer hbefore htask hpairs hreaches hlate
  refine ⟨joint' ++ [(.serve (.act id), [])], ahead, by simp [hfirst],
    hdone.concat hidle hstep rfl ?_ (hdone.stores.workerStep hworkers rfl rfl) fun other => ?_⟩
  · rw [hgateway]
    exact hdone.channels
  · by_cases hother : other = id
    · subst hother
      obtain ⟨ownId, own, left, hput, hleft, heffects⟩ := hahead
      cases htask.symm.trans hput
      refine Or.inr ⟨stands_of_sameTask hphase ⟨?_, ?_⟩,
        fun key started hreading => by simp [hphase] at hreading⟩
      · rw [hgateway, Server.advance_task, Function.update_self, hleft]
      · rw [hgateway, Server.effectsOf_advance_self, heffects, hvalue]
    · exact Or.inl ⟨fun hsame => hother (Option.some.inj hsame).symm,
        Threads.phase_eq_of_task_ne hworkers rfl hother,
        hgateway ▸ sameTask_advance _ hother .., .refl _ _⟩

/-- **Every step keeps the invariant**, once a get that returns with it has been put
where it belongs. -/
theorem Matched.step (hidle : CdDB.IsIdle db)
    (hmatched : Matched hashes settings db serial none joint state server) {event : ThreadsEvent n}
    (hstep : Threads.step hashes settings state event = some after) :
    ∃ joint' next, joint'.map Prod.fst = joint.map Prod.fst ++ [event] ∧
      Matched hashes settings db serial none joint' after next := by
  have hconcat : ∀ {block : List (NodeEvent n)},
      (∃ next, Matched hashes settings db serial none (joint ++ [(event, block)]) after next) →
      ∃ joint' next, joint'.map Prod.fst = joint.map Prod.fst ++ [event] ∧
        Matched hashes settings db serial none joint' after next := by
    rintro block ⟨next, hnext⟩
    exact ⟨_, next, by simp, hnext⟩
  cases Threads.threadStep_of_step hstep with
  | apart inner hevent happart hgateway hworkers =>
      subst hevent
      exact hconcat (hmatched.apart hidle hstep happart hgateway hworkers)
  | stored id workerId request key val rest hevent htask hphase hworkers hafter hgateway =>
      subst hevent
      exact hconcat (hmatched.stored hidle hstep htask hphase hworkers hafter hgateway)
  | sent id workerId request key val rest record hevent htask hphase hworkers hafter hgateway =>
      subst hevent
      exact hconcat (hmatched.sent hidle hstep htask hphase hworkers hafter hgateway)
  | found id workerId request key rest record hevent htask hphase hload hworkers hafter hgateway =>
      subst hevent
      exact hconcat (hmatched.found hidle hstep htask hphase hload hworkers hafter hgateway)
  | missed id workerId request key rest hevent htask hphase hload hworkers hafter hgateway =>
      subst hevent
      exact hconcat (hmatched.missed hidle hstep hphase hworkers hafter hgateway)
  | read id workerId request key rest asked started hevent htask hphase hworkers hafter hgateway =>
      subst hevent
      exact hmatched.read hidle hstep htask hphase hworkers hafter hgateway
  | written hevent hworkers hgateway =>
      have hserver : Server.step hashes settings server .writerTurn =
          some (server.record hashes .writerTurn) := rfl
      have hturn : (server.record hashes .writerTurn).world.storage =
          Call.run hashes server.world.storage [.writerTurn] := rfl
      exact hconcat (hmatched.record hidle hstep (fun _ => rfl) hgateway
        (fun id => Threads.phase_eq_of_ne hworkers (by simp [WorkerEvent.worker?])) hserver
        (hmatched.stores.concat hworkers hturn rfl))
  | receivedHot thread record hevent hworkers hgateway =>
      have happly : (server.receive hashes record).world.storage =
          Call.run hashes server.world.storage [.apply record] := rfl
      have hblock : Server.runNode hashes settings server [.receive record] =
          some (server.receive hashes record) := rfl
      exact hconcat ⟨_, hmatched.concat hidle hstep hblock (hgateway ▸ hmatched.channels)
        (hmatched.stores.concat hworkers happly rfl) fun id => Or.inl ⟨by simp,
          Threads.phase_eq_of_ne hworkers (by simp [WorkerEvent.worker?]), hgateway ▸ .refl _ _,
          rfl, rfl⟩⟩
  | receivedSent thread record hevent hworkers hgateway =>
      exact hconcat (hmatched.wait hidle hstep hgateway
        (hmatched.stores.workerStep hworkers rfl rfl)
        fun id => Or.inl (Threads.phase_eq_of_ne hworkers (by simp [WorkerEvent.worker?])))

/-! ## Whole runs -/

theorem matched_start (hidle : CdDB.IsIdle db) :
    Matched hashes settings db serial none [] (Threads.start db serial)
      (Server.start ⟨TieredStore.new db, [], serial⟩) := by
  have hreaches : Reaches hashes settings db serial [] (Threads.start db serial)
      (Server.start ⟨TieredStore.new db, [], serial⟩) := ⟨rfl, rfl⟩
  have hstores : SameStores hashes db (Threads.start db serial)
      (Server.start ⟨TieredStore.new db, [], serial⟩) := ⟨[], [], rfl, rfl, rfl⟩
  have hstands : ∀ id, Stands (Threads.start db serial)
      (Server.start ⟨TieredStore.new db, [], serial⟩) id := fun id =>
    stands_of_sameTask rfl ⟨rfl, rfl⟩
  refine ⟨hreaches, ?_, rfl, hstores, fun id _ => hstands id, ?_⟩
  · intro sofar hsofar
    obtain rfl := List.prefix_nil.mp hsofar
    exact ⟨_, _, hreaches, rfl, hstores.get hidle, fun id => (hstands id).upToCalls⟩
  · intro id key started _ hphase
    cases hphase

/-- **The server's calls might as well be one step each.** In every run of the tasks,
the threads of the network and the writer there is a run of the server whose calls of
the store are one step each beside it, such that at every moment each task stands where
it stands there, with the same effects and so with the same replies, but that a call
that is under way may already have been made there. -/
theorem threads_linearizable (hidle : CdDB.IsIdle db) {events : List (ThreadsEvent n)}
    (hrun : Threads.run hashes settings (Threads.start db serial) events = some state) :
    ∃ joint : List (ThreadsEvent n × List (NodeEvent n)), joint.map Prod.fst = events ∧
      ∀ sofar, sofar <+: joint → ∃ between server,
        Reaches hashes settings db serial sofar between server ∧
          UpToCalls hashes between server := by
  obtain ⟨joint, server, hjoint, hmatched⟩ :
      ∃ joint server, joint.map Prod.fst = events ∧
        Matched hashes settings db serial none joint state server := by
    refine runSteps_induction (motive := fun events (state : Threads DB n) =>
      ∃ joint server, joint.map Prod.fst = events ∧
        Matched hashes settings db serial none joint state server)
      ⟨[], _, rfl, matched_start hidle⟩ ?_ hrun
    rintro _ before event after - ⟨joint, server, rfl, hmatched⟩ hstep
    exact hmatched.step hidle hstep
  exact ⟨joint, hjoint, hmatched.sofar⟩

/-- A get that finds its slot empty is overtaken by two puts, which pass through the
queue in the other order than through the slot, and reads the columns. -/
def overtakenGet : List (ThreadsEvent 0) :=
  [.serve (.arrive 0 0 ⟨.get "a", none⟩), .serve (.act 0),
    .serve (.arrive 1 1 (localPut "a" [1])), .serve (.act 1),
    .serve (.arrive 2 2 (localPut "a" [2])), .serve (.act 2), .serve (.act 2), .serve (.act 1),
    .serve .writerTurn, .serve .writerTurn, .serve (.act 0)]

/-- The workers of a server without serial channels, at an empty store. -/
def noChannels : Threads (ReferenceDB 8) 0 := Threads.start ReferenceDB.empty Fin.elim0

theorem exists_run_overtakenGet :
    ∃ state, Threads.run sampleHashes ⟨false⟩ noChannels overtakenGet = some state ∧
      (∀ id < 3, state.phase id = .idle) ∧
      state.gateway.task 0 = some ⟨0, ⟨.get "a", none⟩, []⟩ ∧
      state.gateway.log = [.task 2 (.applied (utf8 "a".toList) [2]),
        .task 1 (.applied (utf8 "a".toList) [1]), .writerTurn, .writerTurn,
        .task 0 (.replied (.bulkString (some [1])))] := by
  refine ⟨_, rfl, ?_, rfl, rfl⟩
  decide

/-- With calls that are one step, too, the overtaken get can be answered with the first
put. -/
theorem threads_linearizable_overtakenGet :
    ∃ (joint : List (ThreadsEvent 0 × List (NodeEvent 0)))
      (server : Server (TieredStore (ReferenceDB 8)) 0), joint.map Prod.fst = overtakenGet ∧
      Server.runNode sampleHashes ⟨false⟩ (Server.start ⟨TieredStore.new ReferenceDB.empty, [],
        Fin.elim0⟩) (joint.flatMap Prod.snd) = some server ∧
      effectsOf 0 server.log = [.replied (.bulkString (some [1]))] := by
  obtain ⟨state, hrun, hphase, -, hlog⟩ := exists_run_overtakenGet
  have hidle : CdDB.IsIdle (ReferenceDB.empty : ReferenceDB 8) := rfl
  obtain ⟨joint, hjoint, hsofar⟩ := threads_linearizable hidle hrun
  obtain ⟨between, server, ⟨hbetween, hserver⟩, halike⟩ := hsofar joint List.prefix_rfl
  rw [hjoint] at hbetween
  obtain rfl : state = between := Option.some.inj (hrun.symm.trans hbetween)
  refine ⟨joint, server, hjoint, hserver, ?_⟩
  rcases halike.task 0 with hsame | ⟨hcalling, -⟩
  · rw [hsame.2, hlog]
    decide
  · exact absurd (hphase 0 (by decide)) hcalling

end ServerGo.Analysis
