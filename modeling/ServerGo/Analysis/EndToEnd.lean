/-
# From one client to another

Seen at its stores and its messages, a run of a fleet is a run of the cluster. So a
value that a client reads at one node can be followed back to the request that put it
at another, through the gate that request had to pass there; and a frame on a serial
channel back to a request at the channel's own node, for no record that comes from the
network ever reaches a channel.
-/

import ServerGo.Analysis.VmGate
import ServerGo.Network.Fleet

namespace ServerGo.Analysis

open ServerGo.Gateway ServerGo.Math ServerGo.Network ServerGo.Storage

variable {N DB : Type} {n : N → Nat} [DecidableEq N] [CdDB DB] {hashes : NodeHashes N}
  {settings : N → SecuritySettings} {db : N → DB}
  {serial : ∀ node, Fin (n node) → SerialChannel} {events : List (FleetEvent N n)}
  {state : Fleet N DB n}

/-! ## What a fleet is to its stores -/

/-- Whether an event of the cluster happens in the server of a node. -/
def isServedAt (node : N) : ClusterEvent N → Bool
  | .put other _ _ => other == node
  | .deliver _ _ _ => false
  | .writerTurn other => other == node

/-- Whether it is a delivery. -/
def isDelivery : ClusterEvent N → Bool
  | .deliver _ _ _ => true
  | _ => false

/-- The delivery that an event of the fleet is. -/
def delivery? : FleetEvent N n → Option (ClusterEvent N)
  | .deliver node message record => some (.deliver node message record)
  | .serve _ _ => none

/-- What a run of a fleet is to the cluster of its stores. -/
abbrev clusterTrace (hashes : NodeHashes N) (settings : N → SecuritySettings) (db : N → DB)
    (serial : ∀ node, Fin (n node) → SerialChannel) (events : List (FleetEvent N n)) :
    List (ClusterEvent N) :=
  (Fleet.simulation hashes settings).trace (Fleet.start db serial) events

theorem cluster_run (hrun : Fleet.run hashes settings (Fleet.start db serial) events = some state) :
    Cluster.run hashes (Cluster.start db) (clusterTrace hashes settings db serial events) =
      some state.cluster := by
  have hstart : Cluster.start db = (Fleet.start db serial).cluster := Fleet.cluster_start.symm
  obtain ⟨_, hcluster, rfl⟩ := (Fleet.simulation hashes settings).rel_run hstart hrun
  exact hcluster

/-- What the log of a node records is served at that node. -/
theorem filter_isServedAt_clusterEvent {k : Nat} (node other : N) (log : List (Entry k)) :
    (log.filterMap (Fleet.clusterEvent? other)).filter (isServedAt node) =
      if other = node then log.filterMap (Fleet.clusterEvent? other) else [] := by
  have hserved : ∀ event ∈ log.filterMap (Fleet.clusterEvent? other),
      isServedAt node event = (other == node) := by
    intro event hmem
    obtain ⟨entry, -, hevent⟩ := List.mem_filterMap.mp hmem
    rw [Fleet.clusterEvent?] at hevent
    split at hevent <;> cases hevent <;> rfl
  split
  next hnode =>
      refine List.filter_eq_self.mpr fun event hmem => ?_
      rw [hserved event hmem, hnode, beq_self_eq_true]
  next hnode =>
      refine List.filter_eq_nil_iff.mpr fun event hmem => ?_
      rw [hserved event hmem, beq_iff_eq]
      exact hnode

omit [DecidableEq N] in
/-- It delivers nothing. -/
theorem filter_isDelivery_clusterEvent {k : Nat} (other : N) (log : List (Entry k)) :
    (log.filterMap (Fleet.clusterEvent? other)).filter isDelivery = [] := by
  refine List.filter_eq_nil_iff.mpr fun event hmem => ?_
  obtain ⟨entry, -, hevent⟩ := List.mem_filterMap.mp hmem
  rw [Fleet.clusterEvent?] at hevent
  split at hevent <;> cases hevent <;> exact Bool.false_ne_true

/-- The trace of a run has, for each node, what its log records, in that order. -/
theorem filter_isServedAt_clusterTrace
    (hrun : Fleet.run hashes settings (Fleet.start db serial) events = some state) (node : N) :
    (clusterTrace hashes settings db serial events).filter (isServedAt node) =
      (state.server node).log.filterMap (Fleet.clusterEvent? node) := by
  refine runSteps_induction (motive := fun events (state : Fleet N DB n) =>
    (clusterTrace hashes settings db serial events).filter (isServedAt node) =
      (state.server node).log.filterMap (Fleet.clusterEvent? node)) rfl ?_ hrun
  intro events before event after hbefore ih hstep
  rw [clusterTrace, Simulation.trace_concat _ hbefore, List.filter_append, ih]
  cases event with
  | serve other inner =>
      obtain ⟨server, hserver, rfl⟩ := Fleet.step_cases hstep
      have hmatching : ((Fleet.simulation hashes settings).matching before
          (.serve other inner)).filter (isServedAt node) = if other = node then
            (server.log.drop (before.server other).log.length).filterMap
              (Fleet.clusterEvent? other)
          else [] := by
        rw [← filter_isServedAt_clusterEvent]
        simp only [Fleet.simulation, Fleet.matching, Fleet.logged, hserver]
      rw [hmatching]
      by_cases hnode : other = node
      · subst hnode
        dsimp only
        rw [if_pos rfl, Function.update_self, ← List.filterMap_append]
        obtain ⟨later, hlog⟩ := Server.log_prefix hserver
        rw [← hlog, List.drop_left]
      · dsimp only
        rw [if_neg hnode, Function.update_of_ne (Ne.symm hnode), List.append_nil]
  | deliver other message record =>
      rcases Fleet.server_cases hstep node with ⟨_, hevent, -⟩ | ⟨-, hlog, -⟩
      · cases hevent
      · rw [hlog]
        exact List.append_nil _

/-- And the deliveries of the run, in that order. -/
theorem filter_isDelivery_clusterTrace
    (hrun : Fleet.run hashes settings (Fleet.start db serial) events = some state) :
    (clusterTrace hashes settings db serial events).filter isDelivery =
      events.filterMap delivery? := by
  refine runSteps_induction (motive := fun events (_ : Fleet N DB n) =>
    (clusterTrace hashes settings db serial events).filter isDelivery =
      events.filterMap delivery?) rfl ?_ hrun
  intro events before event after hbefore ih hstep
  rw [clusterTrace, Simulation.trace_concat _ hbefore, List.filter_append, ih,
    filterMap_concat_eq_append]
  cases event with
  | serve other inner =>
      obtain ⟨server, hserver, rfl⟩ := Fleet.step_cases hstep
      refine congrArg (_ ++ ·) ?_
      simp only [Fleet.simulation, Fleet.matching, Fleet.logged, hserver]
      exact filter_isDelivery_clusterEvent other _
  | deliver other message record => rfl

/-- A script is put at a node that allows scripts, its record delivered to one that
does not, and read there. -/
def scriptReplicated : List (FleetEvent Bool fun _ => 1) :=
  [.serve false (.arrive 0 0 (localPut "vm:all" [1])), .serve false (.act 0),
    .serve false (.act 0), .serve false (.act 0),
    .deliver true 0 (kvRecord (sampleNodeHashes.of false) (utf8 "vm:all".toList) [1]),
    .serve true (.arrive 0 0 ⟨.get "vm:all", none⟩), .serve true (.act 0)]

/-- Only the first node allows scripts. -/
def scriptsAtFirst (node : Bool) : SecuritySettings := ⟨!node⟩

/-- Each node has one open channel before an empty store. -/
def oneChannelEach : Fleet Bool (ReferenceDB 8) fun _ => 1 :=
  Fleet.start (fun _ => ReferenceDB.empty) fun _ _ => ⟨4, true, []⟩

theorem exists_run_scriptReplicated :
    ∃ state,
      Fleet.run sampleNodeHashes scriptsAtFirst oneChannelEach scriptReplicated = some state ∧
      (state.server true).task 0 = some ⟨0, ⟨.get "vm:all", none⟩, []⟩ ∧
      (state.server true).log = [.task 0 (.replied (.bulkString (some [1])))] ∧
      ((state.server false).world.serial 0).queue = [vmFrame broadcastMac [1]] ∧
      state.sent = [(false, kvRecord (sampleNodeHashes.of false) (utf8 "vm:all".toList) [1])] := by
  obtain ⟨state, hrun, htask, hlog, hothers⟩ : ∃ state,
      Fleet.run sampleNodeHashes scriptsAtFirst oneChannelEach scriptReplicated = some state ∧
      (state.server true).task 0 = some ⟨0, ⟨.get "vm:all", none⟩, []⟩ ∧
      (state.server true).log = [.task 0 (.replied (.bulkString (L2Executor.get
        (sampleNodeHashes.of true) (Call.run (sampleNodeHashes.of true)
          (TieredStore.new (ReferenceDB.empty : ReferenceDB 8))
            [.apply (kvRecord (sampleNodeHashes.of true) (utf8 "vm:all".toList) [1])])
              (utf8 "vm:all".toList))))] ∧
      ((state.server false).world.serial 0).queue = [vmFrame broadcastMac [1]] ∧
      state.sent = [(false, kvRecord (sampleNodeHashes.of false) (utf8 "vm:all".toList) [1])] :=
    ⟨_, rfl, rfl, rfl, rfl, rfl⟩
  have hlast : lastInSlot (sampleNodeHashes.of true)
      (keySlot (sampleNodeHashes.of true) (utf8 "vm:all".toList))
      [.apply (kvRecord (sampleNodeHashes.of true) (utf8 "vm:all".toList) [1])] =
        some (kvRecord (sampleNodeHashes.of true) (utf8 "vm:all".toList) [1]) := by
    simp [lastInSlot, latest, Call.record?]
  rw [TieredStore.get_run_of_lastInSlot hlast, value_kvRecord] at hlog
  exact ⟨state, hrun, htask, hlog, hothers⟩

/-! ## Where values come from -/

/-- A request to put a value on a key has been received at a node, whose gate lets it
through. -/
def PutReceived (settings : N → SecuritySettings) (events : List (FleetEvent N n)) (origin : N)
    (key : String) (val : Bytes) : Prop :=
  ∃ id workerId request, .serve origin (.arrive id workerId request) ∈ events ∧
    request.cmd = .put key val ∧
    (n origin ≠ 0 → isVm key = true → MayForward (settings origin) request.peerAddr val)

/-- What a node has stored, a request asked it to. -/
theorem putReceived_of_applied
    (hrun : Fleet.run hashes settings (Fleet.start db serial) events = some state) {origin : N}
    {id : Nat} {stored val : Bytes}
    (hmem : .task id (.applied stored val) ∈ (state.server origin).log) :
    ∃ key, stored = utf8 key.toList ∧ PutReceived settings events origin key val := by
  obtain ⟨task, action, htask, haction, hcause⟩ :=
    (Fleet.progress_run hrun origin id).exists_action (mem_effectsOf.mpr hmem)
  cases hcause
  obtain ⟨key, hcmd, rfl, hpassed⟩ := passed_of_put_mem haction
  exact ⟨key, rfl, id, task.workerId, task.request, Fleet.arrive_mem_of_task hrun htask, hcmd,
    fun hchannels hvm => vmRejection_eq_none_iff.mp (hpassed hchannels hvm)⟩

/-- And so what the cluster of their stores puts. -/
theorem putReceived_of_put_mem
    (hrun : Fleet.run hashes settings (Fleet.start db serial) events = some state) {origin : N}
    {stored val : Bytes}
    (hput : .put origin stored val ∈ clusterTrace hashes settings db serial events) :
    ∃ key, stored = utf8 key.toList ∧ PutReceived settings events origin key val := by
  have hserved : .put origin stored val ∈
      (state.server origin).log.filterMap (Fleet.clusterEvent? origin) := by
    rw [← filter_isServedAt_clusterTrace hrun]
    exact List.mem_filter.mpr ⟨hput, beq_self_eq_true origin⟩
  obtain ⟨entry, hentry, hevent⟩ := List.mem_filterMap.mp hserved
  rcases entry with ⟨id, effect⟩ | _ | channel | channel
  · cases effect with
    | applied key stored =>
        cases hevent
        exact putReceived_of_applied hrun hentry
    | _ => cases hevent
  · cases hevent
  · cases hevent
  · cases hevent

/-- A value that some request received by then asked to put, at any node, on a key that
is of the same slot under these hash functions. -/
def IsPut (hashes : Hashes) (settings : N → SecuritySettings) (events : List (FleetEvent N n))
    (key : String) (val : Bytes) : Prop :=
  ∃ origin stored, PutReceived settings events origin stored val ∧
    keySlot hashes (utf8 stored.toList) = keySlot hashes (utf8 key.toList)

/-- A value that a node recovered when it opened its partition, with no record in the
slot of the key that has been delivered to it since. -/
def IsRecovered (hashes : NodeHashes N) (db : N → DB) (events : List (FleetEvent N n)) (node : N)
    (key : String) (val : Bytes) : Prop :=
  ((CdDB.contents (db node)).rows
      (hashes.ahash node (hashes.sha256 (utf8 key.toList)))).toSigned.map SignedRecord.value =
    some val ∧
  ∀ message record, .deliver node message record ∈ events →
    hotSlot ((hashes.of node).entityId record) ≠ keySlot (hashes.of node) (utf8 key.toList)

/-- What a client would read at a node of a fleet was put or recovered. -/
theorem isPut_or_isRecovered [LawfulCdDB DB] (hidle : ∀ node, CdDB.IsIdle (db node))
    (hrun : Fleet.run hashes settings (Fleet.start db serial) events = some state) {node : N}
    {key : String} {val : Bytes}
    (hget : L2Executor.get (hashes.of node) (state.server node).world.storage (utf8 key.toList) =
      some val) :
    IsPut (hashes.of node) settings events key val ∨
      IsRecovered hashes db events node key val := by
  have hcluster := cluster_run hrun
  have hstore := Cluster.store_run hcluster node
  rw [show (state.server node).world.storage = state.cluster.store node from rfl, hstore,
    TieredStore.get_run (hidle node)] at hget
  cases hlast : lastInSlot (hashes.of node) (keySlot (hashes.of node) (utf8 key.toList))
      ((clusterTrace hashes settings db serial events).filterMap (ClusterEvent.callAt node)) with
  | some record =>
      left
      rw [hlast, Option.some_or, Option.map_some, Option.some.injEq] at hget
      rw [lastInSlot, latest_filterMap] at hlast
      obtain ⟨event, hmem, hread⟩ := exists_mem_of_latest hlast
      rw [← Option.bind_assoc, ← ClusterEvent.recordAt] at hread
      obtain ⟨found, hrecord, hslot⟩ := Option.bind_eq_some_iff.mp hread
      obtain ⟨hslot, hsame⟩ := Option.ite_none_right_eq_some.mp hslot
      cases hsame
      obtain ⟨origin, stored, other, hput, rfl⟩ := Cluster.put_of_recordAt hcluster hmem hrecord
      obtain ⟨put, rfl, hreceived⟩ := putReceived_of_put_mem hrun hput
      rw [value_kvRecord] at hget
      rw [entityId_kvRecord, hotSlot_ahash_sha256] at hslot
      exact ⟨origin, put, hget ▸ hreceived, hslot⟩
  | none =>
      right
      rw [hlast, Option.none_or] at hget
      refine ⟨hget, fun message record hdeliver hslot => ?_⟩
      have hmem : .deliver node message record ∈
          clusterTrace hashes settings db serial events := by
        refine List.mem_of_mem_filter (p := isDelivery) ?_
        rw [filter_isDelivery_clusterTrace hrun]
        exact List.mem_filterMap.mpr ⟨_, hdeliver, rfl⟩
      rw [lastInSlot, latest_filterMap, latest_eq_none_iff] at hlast
      have hread := hlast _ hmem
      simp [ClusterEvent.callAt, Call.record?, hslot] at hread

/-- An effect that a task has had was had in some step, by the action it was about to
take. -/
theorem exists_act_of_logged {first : Fleet N DB n}
    (hrun : Fleet.run hashes settings first events = some state) {node : N} {id : Nat}
    {effect : Effect (n node)} (hnew : .task id effect ∉ (first.server node).log)
    (hmem : .task id effect ∈ (state.server node).log) :
    ∃ earlier before workerId request action rest,
      earlier ++ [.serve node (.act id)] <+: events ∧
      Fleet.run hashes settings first earlier = some before ∧
      (before.server node).task id = some ⟨workerId, request, action :: rest⟩ ∧
      (before.server node).world.outcome (hashes.of node) action = some effect := by
  obtain ⟨earlier, event, before, after, hprefix, hbefore, hstep, hnot, hafter⟩ :=
    exists_step_of_not (motive := fun state : Fleet N DB n =>
      effect ∈ effectsOf id (state.server node).log) (fun hold => hnew (mem_effectsOf.mp hold))
      hrun (mem_effectsOf.mpr hmem)
  rcases Fleet.server_cases hstep node with ⟨inner, rfl, hinner⟩ | ⟨-, hlog, -⟩
  · cases Server.taskStep_of_step hinner id with
    | idle _ heffects => exact absurd (heffects ▸ hafter) hnot
    | spawned _ _ _ _ _ heffects => exact absurd (heffects ▸ hafter) hnot
    | acted workerId request action rest happened hevent htask houtcome _ heffects =>
        rw [heffects] at hafter
        cases List.mem_singleton.mp ((List.mem_append.mp hafter).resolve_left hnot)
        exact ⟨earlier, before, workerId, request, action, rest, hevent ▸ hprefix, hbefore, htask,
          houtcome⟩
  · exact absurd (hlog ▸ hafter) hnot

/-- A task whose request is a get asks for that key and nothing else. -/
theorem action_eq_get {before : Fleet N DB n} {earlier later : List (FleetEvent N n)}
    (hbefore : Fleet.run hashes settings (Fleet.start db serial) earlier = some before)
    (hlater : Fleet.run hashes settings before later = some state) {node : N} {id workerId : Nat}
    {request : GatewayRequest} {action : Action (n node)} {rest : List (Action (n node))}
    (hat : (before.server node).task id = some ⟨workerId, request, action :: rest⟩)
    {task : Task (n node)} (htask : (state.server node).task id = some task) {key : String}
    (hcmd : task.request.cmd = .get key) : action = .get (utf8 key.toList) := by
  -- the request is the one that the task is still of
  have hrequest : request.cmd = .get key := by
    obtain ⟨left, hleft⟩ := Fleet.request_run hlater hat
    cases htask.symm.trans hleft
    exact hcmd
  have hprogress := Fleet.progress_run hbefore node id
  rw [hat] at hprogress
  have hmem := hprogress.mem_handler
  rw [handler, hrequest] at hmem
  exact List.mem_singleton.mp hmem

/-- **No value out of thin air.** In any run of a fleet, a value that a get is answered
with at a node was, before the answer, in a request to put it at some node, on a key
of the same slot, that the gate of that node let through; or the node recovered it
when it opened its partition, and no record of the slot had been delivered to it. -/
theorem answers_received [LawfulCdDB DB] (hidle : ∀ node, CdDB.IsIdle (db node))
    (hrun : Fleet.run hashes settings (Fleet.start db serial) events = some state) {node : N}
    {id : Nat} {task : Task (n node)} {key : String} {val : Bytes}
    (htask : (state.server node).task id = some task) (hcmd : task.request.cmd = .get key)
    (hreply : .task id (.replied (.bulkString (some val))) ∈ (state.server node).log) :
    ∃ earlier, earlier ++ [.serve node (.act id)] <+: events ∧
      (IsPut (hashes.of node) settings earlier key val ∨
        IsRecovered hashes db earlier node key val) := by
  obtain ⟨earlier, before, workerId, request, action, rest, hprefix, hbefore, hat, houtcome⟩ :=
    exists_act_of_logged hrun List.not_mem_nil hreply
  refine ⟨earlier, hprefix, isPut_or_isRecovered hidle hbefore ?_⟩
  obtain ⟨later, hlater⟩ :=
    exists_later_of_prefix hrun ((List.prefix_append ..).trans hprefix) hbefore
  cases action_eq_get hbefore hlater hat htask hcmd
  simpa [World.outcome] using houtcome

/-- The value read at the second node was in a request at the first. -/
theorem answers_received_scriptReplicated :
    ∃ earlier, earlier ++ [.serve true (.act 0)] <+: scriptReplicated ∧
      (IsPut (sampleNodeHashes.of true) scriptsAtFirst earlier "vm:all" [1] ∨
        IsRecovered sampleNodeHashes (fun _ => (ReferenceDB.empty : ReferenceDB 8)) earlier true
          "vm:all" [1]) := by
  obtain ⟨state, hrun, htask, hlog, -⟩ := exists_run_scriptReplicated
  have hreply : .task 0 (.replied (.bulkString (some [1]))) ∈ (state.server true).log :=
    hlog ▸ List.mem_singleton_self _
  have hidle : ∀ _ : Bool, CdDB.IsIdle (ReferenceDB.empty : ReferenceDB 8) := fun _ => rfl
  exact answers_received hidle hrun htask rfl hreply

/-! ## What a node does by itself -/

/-- **Records are replicated, scripts are not.** In any run of a fleet, a frame in a
queue of a serial channel was there when the node started or is that of a request
received at this very node that met all conditions there. No record that comes from
the network is ever forwarded. -/
theorem frames_local
    (hrun : Fleet.run hashes settings (Fleet.start db serial) events = some state) {node : N}
    {channel : Fin (n node)} {frame : GatewayFrame}
    (hmem : frame ∈ ((state.server node).world.serial channel).queue) :
    frame ∈ (serial node channel).queue ∨
      ∃ id workerId request key val mac,
        .serve node (.arrive id workerId request) ∈ events ∧ request.cmd = .put key val ∧
          isVm key = true ∧ MayForward (settings node) request.peerAddr val ∧
            macAddr key = some mac ∧ frame = vmFrame mac val := by
  rw [Fleet.serial_run hrun] at hmem
  refine (World.mem_queue_replayAll _ hmem).imp_right fun ⟨id, hlogged⟩ => ?_
  obtain ⟨task, action, htask, haction, hcause⟩ :=
    (Fleet.progress_run hrun node id).exists_action (mem_effectsOf.mpr hlogged)
  cases hcause
  obtain ⟨key, val, hcmd, hvm, hpassed, mac, hmac, rfl⟩ := passed_of_sendSerial_mem haction
  exact ⟨id, task.workerId, task.request, key, val, mac, Fleet.arrive_mem_of_task hrun htask, hcmd,
    hvm, vmRejection_eq_none_iff.mp hpassed, hmac, rfl⟩

theorem frames_local_scriptReplicated :
    ∃ id workerId request,
      .serve false (.arrive id workerId request) ∈ scriptReplicated ∧
        MayForward (scriptsAtFirst false) request.peerAddr [1] := by
  obtain ⟨state, hrun, -, -, hqueue, -⟩ := exists_run_scriptReplicated
  have hmem : vmFrame broadcastMac [1] ∈ ((state.server false).world.serial 0).queue :=
    hqueue ▸ List.mem_singleton_self _
  rcases frames_local hrun hmem with hstart | ⟨id, workerId, request, key, val, mac, harrive, hcmd,
    -, hpassed, -, hframe⟩
  · cases hstart
  · cases congrArg GatewayFrame.payload hframe
    exact ⟨id, workerId, request, harrive, hpassed⟩

end ServerGo.Analysis
