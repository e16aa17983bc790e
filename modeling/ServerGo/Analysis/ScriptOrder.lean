/-
# Scripts on their way to the devices

The task of a script that passed the gate sends its frame to one channel after the
other and then puts the script. Nothing holds two such tasks apart. Every channel
gets every frame, but one task may overtake another between two channels, or
between the last channel and the store; then devices differ in the order they see,
and the store may keep a script that was not delivered last. As long as no task
overtakes another there is one order everywhere.
-/

import ServerGo.Analysis.VmGate
import ServerGo.Gateway.Delivery
import ServerGo.Math.Repeats
import ServerGo.Storage.TieredRun

namespace ServerGo.Analysis

open ServerGo.Gateway ServerGo.Math ServerGo.Storage

/-- A put of a script on this key that passes the gate. -/
def IsScript (settings : SecuritySettings) (key : String) (request : GatewayRequest) : Prop :=
  ∃ val, request.cmd = .put key val ∧ MayForward settings request.peerAddr val

/-- A request that forwards no script and leaves the hot slot of the key to it. -/
def IsApart (hashes : Hashes) (settings : SecuritySettings) (key : String)
    (request : GatewayRequest) : Prop :=
  ∀ other val, request.cmd = .put other val →
    (isVm other = true → ¬MayForward settings request.peerAddr val) ∧
    (other ≠ key → keySlot hashes (utf8 other.toList) ≠ keySlot hashes (utf8 key.toList))

/-- No task overtakes another: of two tasks, the one whose frame enters a channel
first is also first at the next channel, and after the last channel first to put
its value. -/
structure NoOvertaking {n : Nat} (key : String) (log : List (Entry n)) : Prop where
  next : ∀ channel other : Fin n, channel.val + 1 = other.val → ∀ first second,
    [first, second].Sublist (readers (Effect.sentTo channel) log) →
      [first, second].Sublist (readers (Effect.sentTo other) log)
  store : ∀ channel : Fin n, channel.val + 1 = n → ∀ first second,
    [first, second].Sublist (readers (Effect.sentTo channel) log) →
      [first, second].Sublist (readers (Effect.putOn (utf8 key.toList)) log)

variable {n : Nat} {hashes : Hashes} {settings : SecuritySettings} {key : String}

/-! ## What each task contributes -/

section

variable {S : Type} [StateStore S] {world : World S n} {events : List (ServerEvent n)}
  {state : Server S n}

/-- The task with this number is that of a script on the key. -/
def IsScriptTask (settings : SecuritySettings) (key : String) (state : Server S n) (id : Nat) :
    Prop :=
  ∃ task, state.task id = some task ∧ IsScript settings key task.request

/-- The value a task puts. -/
def valueOf (state : Server S n) (id : Nat) : Bytes :=
  match state.task id with
  | some ⟨_, ⟨.put _ val, _⟩, _⟩ => val
  | _ => []

/-- Where no channel has been closed, the task of a script has sent its frame to
each of them, and then put its value. -/
theorem effectsOf_script
    (hrun : Server.run hashes settings (Server.start world) events = some state)
    (hopen : ∀ channel, (state.world.serial channel).isOpen = true)
    (hdone : ∀ id task, state.task id = some task → task.rest = [])
    (hvm : isVm key = true) {id : Nat} (hscript : IsScriptTask settings key state id) :
    ∃ mac, macAddr key = some mac ∧ effectsOf id state.log =
      forwardedEffects key (valueOf state id) (vmFrame mac (valueOf state id)) fun _ => true := by
  obtain ⟨task, htask, val, hcmd, hpassed⟩ := hscript
  have hvalue : valueOf state id = val := by
    obtain ⟨workerId, ⟨cmd, peerAddr⟩, rest⟩ := task
    obtain rfl : cmd = .put key val := hcmd
    rw [valueOf, htask]
  obtain ⟨mac, wasOpen, hmac, heffects⟩ :=
    exists_forwardedEffects hrun htask hcmd hvm hpassed (hdone id task htask)
  have hallOpen : wasOpen = fun _ => true := by
    funext channel
    have hmem : sendEffect (vmFrame mac val) wasOpen channel ∈ effectsOf id state.log := by
      rw [heffects, forwardedEffects]
      exact List.mem_append_left _ (List.mem_map_of_mem (List.mem_finRange channel))
    obtain ⟨earlier, hbefore, hwasOpen⟩ := wasOpen_eq_isOpen hrun hmem
    have hend := hopen channel
    rw [Server.world_run hrun, World.isOpen_replayAll] at hend
    rw [hwasOpen, World.isOpen_replayAll]
    refine ⟨hend.1, fun hclosed => hend.2 (hbefore.subset ?_)⟩
    exact List.mem_append_left _ hclosed
  exact ⟨mac, hmac, by rw [heffects, hallOpen, hvalue]⟩

theorem filterMap_sentTo_forwarded {val : Bytes} {frame : GatewayFrame} (channel : Fin n) :
    (forwardedEffects key val frame fun _ => true).filterMap (Effect.sentTo channel) =
      [frame] := by
  have hsends : (List.finRange n).filterMap (fun other =>
      Effect.sentTo channel (sendEffect frame (fun _ => true) other)) =
        ((List.finRange n).filter (· == channel)).map fun _ => frame := by
    rw [← List.filterMap_eq_filter, List.map_filterMap]
    refine List.filterMap_congr fun other _ => ?_
    by_cases hother : other = channel <;>
      simp [sendEffect, Effect.sentTo, hother, Option.guard]
  have honce : (List.finRange n).count channel = 1 :=
    List.count_eq_one_of_mem (List.nodup_finRange n) (List.mem_finRange channel)
  rw [forwardedEffects, List.filterMap_append, List.filterMap_map]
  show (List.finRange n).filterMap (fun other =>
      Effect.sentTo channel (sendEffect frame (fun _ => true) other)) ++ [] = [frame]
  rw [hsends, List.filter_beq, honce, List.append_nil]
  rfl

theorem filterMap_putOn_forwarded {val : Bytes} {frame : GatewayFrame} :
    (forwardedEffects key val frame (fun _ : Fin n => true)).filterMap
      (Effect.putOn (utf8 key.toList)) = [val] := by
  rw [forwardedEffects, List.filterMap_append, List.filterMap_map]
  have hsends : (List.finRange n).filterMap
      (Effect.putOn (utf8 key.toList) ∘ sendEffect frame fun _ => true) = [] :=
    List.filterMap_eq_nil_iff.mpr fun _ _ => rfl
  rw [hsends]
  simp [Effect.putOn]

/-- A task that is apart sends nothing and puts nothing in the slot of the key. -/
theorem effectsOf_apart
    (hrun : Server.run hashes settings (Server.start world) events = some state)
    (hchannels : n ≠ 0) (hvm : isVm key = true) {id : Nat}
    (hapart : ∀ task, state.task id = some task → IsApart hashes settings key task.request)
    {effect : Effect n} (hmem : effect ∈ effectsOf id state.log) :
    (∀ channel, effect.sentTo channel = none) ∧
      ∀ other val, effect = .applied other val →
        keySlot hashes other ≠ keySlot hashes (utf8 key.toList) := by
  obtain ⟨task, action, htask, haction, hcause⟩ := exists_action_of_mem_effectsOf hrun hmem
  have hrequest := hapart task htask
  cases hcause with
  | enqueued channel frame =>
      obtain ⟨other, val, hcmd, hscript, hpassed, -⟩ := passed_of_sendSerial_mem haction
      exact absurd (vmRejection_eq_none_iff.mp hpassed) ((hrequest other val hcmd).1 hscript)
  | applied stored val =>
      obtain ⟨other, hcmd, rfl, hpassed⟩ := passed_of_put_mem haction
      refine ⟨fun _ => rfl, fun stored val hsame => ?_⟩
      cases hsame
      obtain ⟨hrejected, hslot⟩ := hrequest other val hcmd
      refine hslot fun hkey => ?_
      subst hkey
      exact hrejected hvm (vmRejection_eq_none_iff.mp (hpassed hchannels hvm))
  | _ => exact ⟨fun _ => rfl, fun _ _ hsame => nomatch hsame⟩

end

/-- The store's last record in the slot of a key is that of the last put on it, when
no other key in the log shares the slot. -/
theorem lastInSlot_eq_of_apart {key : Bytes} {log : List (Entry n)}
    (happlied : ∀ id other val, .task id (.applied other val) ∈ log →
      keySlot hashes other = keySlot hashes key → other = key) :
    lastInSlot hashes (keySlot hashes key) (log.filterMap Entry.call?) =
      (readings (Effect.putOn key) log).getLast?.map fun put => kvRecord hashes key put.2 := by
  have hlast : (readings (Effect.putOn key) log).getLast? =
      latest (Entry.reading (Effect.putOn key)) log := by
    rw [readings, List.getLast?_filterMap, latest, List.findSomeRev?_eq_findSome?_reverse]
  rw [lastInSlot, latest_filterMap, hlast, ← latest_map]
  refine latest_congr fun entry hmem => ?_
  rcases entry with ⟨id, effect⟩ | _ | channel | channel
  · cases effect with
    | applied other val =>
        by_cases hkey : other = key
        · subst hkey
          simp [Entry.call?, Call.record?, Entry.reading, Effect.putOn]
        · have hslot : keySlot hashes other ≠ keySlot hashes key :=
            fun hsame => hkey (happlied id other val hmem hsame)
          simp [Entry.call?, Call.record?, Entry.reading, Effect.putOn, hkey, hslot]
    | _ => rfl
  · rfl
  · rfl
  · rfl

/-! ## Runs of scripts on one key -/

/-- Two lists of the same tasks, without repetition, differ in their order alone. -/
theorem perm_of_mem_iff {first second : List Nat} {isScript : Nat → Prop}
    (hfirst : first.Nodup ∧ ∀ id, id ∈ first ↔ isScript id)
    (hsecond : second.Nodup ∧ ∀ id, id ∈ second ↔ isScript id) : first.Perm second :=
  (List.perm_ext_iff_of_nodup hfirst.1 hsecond.1).mpr fun id =>
    (hfirst.2 id).trans (hsecond.2 id).symm

section

variable {DB : Type} [CdDB DB] {world : World (TieredStore DB) n} {events : List (ServerEvent n)}
  {state : Server (TieredStore DB) n} {mac : Mac}
  (hrun : Server.run hashes settings (Server.start world) events = some state)
  (hvm : isVm key = true)
  (hrequests : ∀ id task, state.task id = some task →
    IsScript settings key task.request ∨ IsApart hashes settings key task.request)
  (hopen : ∀ channel, (state.world.serial channel).isOpen = true)
  (hdone : ∀ id task, state.task id = some task → task.rest = [])

section

include hrun hvm hrequests

/-- A task that is not of a script is apart. -/
theorem effectsOf_of_not_script (hchannels : n ≠ 0) {id : Nat}
    (hid : ¬IsScriptTask settings key state id) {effect : Effect n}
    (hmem : effect ∈ effectsOf id state.log) :
    (∀ channel, effect.sentTo channel = none) ∧
      ∀ other val, effect = .applied other val →
        keySlot hashes other ≠ keySlot hashes (utf8 key.toList) := by
  refine effectsOf_apart hrun hchannels hvm (fun task htask => ?_) hmem
  exact (hrequests id task htask).resolve_left fun hscript => hid ⟨task, htask, hscript⟩

end

include hrun hvm hrequests hopen hdone

/-- Every channel has been sent the frame of each script once. -/
theorem sent_scripts (hmac : macAddr key = some mac) (channel : Fin n) :
    (readers (Effect.sentTo channel) state.log).Nodup ∧
    (∀ id, id ∈ readers (Effect.sentTo channel) state.log ↔
      IsScriptTask settings key state id) ∧
    readings (Effect.sentTo channel) state.log =
      (readers (Effect.sentTo channel) state.log).map fun id =>
        (id, vmFrame mac (valueOf state id)) := by
  refine readings_of_once (fun id hid => ?_) fun id hid => ?_
  · obtain ⟨own, hown, heffects⟩ := effectsOf_script hrun hopen hdone hvm hid
    cases hmac.symm.trans hown
    rw [heffects, filterMap_sentTo_forwarded]
  · rw [List.filterMap_eq_nil_iff]
    intro effect hmem
    have hchannels : n ≠ 0 := Nat.ne_of_gt channel.pos
    exact (effectsOf_of_not_script hrun hvm hrequests hchannels hid hmem).1 channel

/-- Each script has been put once. -/
theorem put_scripts (hchannels : n ≠ 0) :
    (readers (Effect.putOn (utf8 key.toList)) state.log).Nodup ∧
    (∀ id, id ∈ readers (Effect.putOn (utf8 key.toList)) state.log ↔
      IsScriptTask settings key state id) ∧
    readings (Effect.putOn (utf8 key.toList)) state.log =
      (readers (Effect.putOn (utf8 key.toList)) state.log).map fun id =>
        (id, valueOf state id) := by
  refine readings_of_once (fun id hid => ?_) fun id hid => ?_
  · obtain ⟨mac, -, heffects⟩ := effectsOf_script hrun hopen hdone hvm hid
    rw [heffects, filterMap_putOn_forwarded]
  · rw [List.filterMap_eq_nil_iff]
    intro effect hmem
    obtain ⟨-, hslot⟩ := effectsOf_of_not_script hrun hvm hrequests hchannels hid hmem
    cases effect with
    | applied other val =>
        exact if_neg fun hkey => hslot other val rfl (congrArg (keySlot hashes) hkey)
    | _ => rfl

/-- A client reads the value put last. -/
theorem get_of_last_put (hchannels : n ≠ 0) {id : Nat}
    (hlast : (readers (Effect.putOn (utf8 key.toList)) state.log).getLast? = some id) :
    L2Executor.get hashes state.world.storage (utf8 key.toList) = some (valueOf state id) := by
  obtain ⟨-, -, hreadings⟩ := put_scripts hrun hvm hrequests hopen hdone hchannels
  have happlied : ∀ id other val, .task id (.applied other val) ∈ state.log →
      keySlot hashes other = keySlot hashes (utf8 key.toList) → other = utf8 key.toList := by
    intro id other val hmem hslot
    rw [← mem_effectsOf] at hmem
    by_cases hid : IsScriptTask settings key state id
    · obtain ⟨mac, -, heffects⟩ := effectsOf_script hrun hopen hdone hvm hid
      rw [heffects] at hmem
      simp only [forwardedEffects, List.mem_append, List.mem_map, sendEffect, if_true,
        reduceCtorEq, and_false, exists_false, List.mem_cons, Effect.applied.injEq,
        List.not_mem_nil, or_false, false_or] at hmem
      exact hmem.1
    · exact absurd hslot
        ((effectsOf_of_not_script hrun hvm hrequests hchannels hid hmem).2 other val rfl)
  have hslot : lastInSlot hashes (keySlot hashes (utf8 key.toList))
      (state.log.filterMap Entry.call?) = _ := lastInSlot_eq_of_apart happlied
  rw [hreadings, List.getLast?_map, hlast] at hslot
  rw [Server.world_run hrun, World.storage_replayAll, TieredStore.get_run_of_lastInSlot hslot,
    value_kvRecord]

/-- What a channel has delivered, script by script. -/
theorem delivered_scripts (hmac : macAddr key = some mac)
    (hempty : ∀ channel, (world.serial channel).queue = [])
    (hdelivered : ∀ channel, (state.world.serial channel).queue = []) (channel : Fin n) :
    delivered hashes world channel state.log =
      (readers (Effect.sentTo channel) state.log).map fun id =>
        vmFrame mac (valueOf state id) := by
  have hfifo : delivered hashes world channel state.log ++ _ = _ :=
    delivered_append_queue world channel state.log
  rw [← Server.world_run hrun, hdelivered, hempty, List.append_nil, List.nil_append,
    (sent_scripts hrun hvm hrequests hopen hdone hmac channel).2.2, List.map_map] at hfifo
  exact hfifo

end

/-- Tasks that do not overtake each other pass every channel in the order in which
they put. -/
theorem readers_eq_of_noOvertaking {log : List (Entry n)} {isScript : Nat → Prop}
    (horder : NoOvertaking key log)
    (hsent : ∀ channel, (readers (Effect.sentTo channel) log).Nodup ∧
      ∀ id, id ∈ readers (Effect.sentTo channel) log ↔ isScript id)
    (hput : (readers (Effect.putOn (utf8 key.toList)) log).Nodup ∧
      ∀ id, id ∈ readers (Effect.putOn (utf8 key.toList)) log ↔ isScript id)
    (channel : Fin n) :
    readers (Effect.sentTo channel) log = readers (Effect.putOn (utf8 key.toList)) log := by
  obtain ⟨distance, hdistance⟩ : ∃ distance, channel.val + distance + 1 = n :=
    ⟨n - 1 - channel.val, by omega⟩
  -- from the last channel, which is next to the store, back to this one
  induction distance generalizing channel with
  | zero =>
      exact eq_of_forall_pair_sublist hput.1 (perm_of_mem_iff (hsent channel) hput)
        (horder.store channel hdistance)
  | succ distance ih =>
      have hnext : channel.val + 1 < n := by omega
      rw [← ih ⟨channel.val + 1, hnext⟩ (by simp; omega)]
      exact eq_of_forall_pair_sublist (hsent _).1 (perm_of_mem_iff (hsent channel) (hsent _))
        (horder.next channel ⟨channel.val + 1, hnext⟩ rfl)

variable {DB : Type} [CdDB DB]

/-- Two open channels before an empty store. -/
def openChannels : World (TieredStore (ReferenceDB 8)) 2 where
  storage := TieredStore.new ReferenceDB.empty
  broadcasts := []
  serial _ := ⟨4, true, []⟩

theorem isScript_localPut {val : Bytes} (hlength : val.length ≤ 4096) :
    IsScript ⟨true⟩ "vm:all" (localPut "vm:all" val) :=
  ⟨val, rfl, rfl, ⟨_, rfl, rfl⟩, hlength⟩

/-- Every driver takes two turns. -/
def driversTwice : List (ServerEvent 2) :=
  (List.finRange 2).map .driverTurn ++ (List.finRange 2).map .driverTurn

/-- Two workers handle a script each, one behind the other. -/
def scriptsInTurn : List (ServerEvent 2) :=
  [.arrive 0 0 (localPut "vm:all" [1]), .arrive 1 1 (localPut "vm:all" [2]),
    .act 0, .act 1, .act 0, .act 1, .act 0, .act 1, .act 0, .act 1] ++ driversTwice

/-- The second script reaches the second channel before the first. -/
def crossedScripts : List (ServerEvent 2) :=
  [.arrive 0 0 (localPut "vm:all" [1]), .arrive 1 1 (localPut "vm:all" [2]),
    .act 0, .act 1, .act 1, .act 0, .act 0, .act 1, .act 0, .act 1] ++ driversTwice

/-- What has become of the two scripts in the end. -/
structure BothDone (state : Server (TieredStore (ReferenceDB 8)) 2) : Prop where
  isOpen : ∀ channel, (state.world.serial channel).isOpen = true
  delivered : ∀ channel, (state.world.serial channel).queue = []
  first : (state.task 0).map Task.rest = some []
  second : (state.task 1).map Task.rest = some []

theorem BothDone.rest_eq_nil {state : Server (TieredStore (ReferenceDB 8)) 2}
    (hdone : BothDone state) {events : List (ServerEvent 2)}
    (harrived : ∀ id workerId request, .arrive id workerId request ∈ events → id = 0 ∨ id = 1)
    (hrun : Server.run sampleHashes ⟨true⟩ (Server.start openChannels) events = some state)
    (id : Nat) (task : Task 2) (htask : state.task id = some task) : task.rest = [] := by
  rcases harrived id _ _ (Server.arrive_mem_of_task hrun htask) with rfl | rfl
  · simpa [htask] using hdone.first
  · simpa [htask] using hdone.second

end ServerGo.Analysis
