/-
# The gate in front of VM scripts

A put on a `vm:` key reaches a serial channel only if scripts are enabled, it
comes from a loopback address and it is short enough. One that fails a check is
answered with an error and leaves no other trace; one that passes is sent once
to every channel, then stored, then confirmed. All of this holds in whatever
order the tasks of a run take their steps.
-/

import ServerGo.Gateway.TaskSteps
import ServerGo.Storage.TieredStore

namespace ServerGo.Analysis

open ServerGo.Gateway ServerGo.Math ServerGo.Storage

/-- The conditions on which a script is forwarded. -/
def MayForward (settings : SecuritySettings) (peerAddr : Option SocketAddr) (val : Bytes) : Prop :=
  settings.enableVmScripts = true ∧ (∃ addr, peerAddr = some addr ∧ addr.ip.isLoopback = true) ∧
    val.length ≤ 4096

/-- The effect of sending a frame to a channel. -/
def sendEffect {n : Nat} (frame : GatewayFrame) (wasOpen : Fin n → Bool) (channel : Fin n) :
    Effect n :=
  if wasOpen channel then .enqueued channel frame else .refused channel frame

/-- What is left of a script that passed: its frame on every channel that was
open when its turn came, then the put, then the confirmation. -/
def forwardedEffects {n : Nat} (key : String) (val : Bytes) (frame : GatewayFrame)
    (wasOpen : Fin n → Bool) : List (Effect n) :=
  (List.finRange n).map (sendEffect frame wasOpen) ++
    [.applied (utf8 key.toList) val, .replied (.simpleString "OK")]

variable {S : Type} [StateStore S] {n : Nat} {hashes : Hashes} {settings : SecuritySettings}
  {world : World S n} {events : List (ServerEvent n)} {state : Server S n}

theorem mem_effectsOf {id : Nat} {log : List (Entry n)} {effect : Effect n} :
    effect ∈ effectsOf id log ↔ .task id effect ∈ log := by
  rw [effectsOf, List.mem_filterMap]
  constructor
  · rintro ⟨entry, hmem, heffect⟩
    cases entry with
    | task other happened =>
        obtain ⟨rfl, hsame⟩ := Option.ite_none_right_eq_some.mp heffect
        cases hsame
        exact hmem
    | _ => cases heffect
  · intro hmem
    exact ⟨_, hmem, by simp [Entry.effectOf]⟩

/-- Every effect of a task was caused by an action its request calls for. -/
theorem exists_action_of_mem_effectsOf
    (hrun : Server.run hashes settings (Server.start world) events = some state) {id : Nat}
    {effect : Effect n} (hmem : effect ∈ effectsOf id state.log) :
    ∃ task action, state.task id = some task ∧
      action ∈ handler task.workerId settings task.request ∧ action.Causes effect := by
  have hprogress := Server.progress_run hrun id
  cases htask : state.task id with
  | none =>
      rw [htask] at hprogress
      rw [show effectsOf id state.log = [] from hprogress] at hmem
      cases hmem
  | some task =>
      rw [htask] at hprogress
      obtain ⟨taken, htaken, hcauses⟩ := hprogress
      obtain ⟨index, hindex, hget⟩ := List.getElem_of_mem hmem
      obtain ⟨hlength, hat⟩ := List.forall₂_iff_get.mp hcauses
      have hcause := hat index (hlength ▸ hindex) hindex
      rw [List.get_eq_getElem, List.get_eq_getElem, hget] at hcause
      refine ⟨task, _, rfl, ?_, hcause⟩
      rw [← htaken]
      exact List.mem_append_left _ (List.getElem_mem _)

/-- **Whatever is enqueued has passed the gate.** -/
theorem mayForward_of_enqueued
    (hrun : Server.run hashes settings (Server.start world) events = some state) {id : Nat}
    {channel : Fin n} {frame : GatewayFrame}
    (hmem : .task id (.enqueued channel frame) ∈ state.log) :
    ∃ task key val, state.task id = some task ∧ task.request.cmd = .put key val ∧
      isVm key = true ∧ MayForward settings task.request.peerAddr val ∧
        frame.payload = 0x40 :: val := by
  obtain ⟨task, action, htask, haction, hcause⟩ :=
    exists_action_of_mem_effectsOf hrun (mem_effectsOf.mpr hmem)
  cases hcause
  obtain ⟨key, val, hcmd, hvm, hpassed, mac, -, rfl⟩ := passed_of_sendSerial_mem haction
  exact ⟨task, key, val, htask, hcmd, hvm, vmRejection_eq_none_iff.mp hpassed, rfl⟩

/-! ## Rejected scripts -/

/-- **A rejected script gets one error and leaves no other trace.** In every
state either its task has done nothing, and its next step is an error reply that
leaves the world as it is, or it has done just that and can do no more. -/
theorem effectsOf_of_rejected
    (hrun : Server.run hashes settings (Server.start world) events = some state)
    (hchannels : n ≠ 0) {id : Nat} {task : Task n} (htask : state.task id = some task)
    {key : String} {val : Bytes} (hcmd : task.request.cmd = .put key val)
    (hvm : isVm key = true) (hrejected : ¬MayForward settings task.request.peerAddr val) :
    ∃ text,
      (effectsOf id state.log = [] ∧
        ∃ after, Server.step hashes settings state (.act id) = some after ∧
          after.world = state.world ∧ effectsOf id after.log = [.replied (.error text)]) ∨
      (effectsOf id state.log = [.replied (.error text)] ∧
        Server.step hashes settings state (.act id) = none) := by
  obtain ⟨text, htext⟩ := Option.ne_none_iff_exists'.mp
    fun hpassed => hrejected (vmRejection_eq_none_iff.mp hpassed)
  have hprogress := Server.progress_run hrun id
  rw [htask] at hprogress
  obtain ⟨taken, htaken, hcauses⟩ := hprogress
  rw [handler, hcmd] at htaken
  dsimp only at htaken
  rw [handlePut_of_rejected hvm hchannels htext] at htaken
  obtain ⟨workerId, request, rest⟩ := task
  refine ⟨text, ?_⟩
  cases taken with
  | nil =>
      left
      obtain rfl : rest = [.reply (.error text)] := htaken
      have hnothing : effectsOf id state.log = [] := List.forall₂_nil_left_iff.mp hcauses
      refine ⟨hnothing, state.advance hashes id ⟨workerId, request, []⟩ (.replied (.error text)),
        ?_, rfl, ?_⟩
      · rw [Server.step, htask]
        rfl
      · rw [Server.advance_log, Server.effectsOf_concat, hnothing]
        simp [Entry.effectOf]
  | cons action taken =>
      right
      obtain ⟨rfl, hrest⟩ := List.cons.inj htaken
      obtain ⟨rfl, rfl⟩ := List.append_eq_nil_iff.mp hrest
      obtain ⟨effect, effects, hcause, hnone, heffects⟩ := List.forall₂_cons_left_iff.mp hcauses
      rw [List.forall₂_nil_left_iff.mp hnone] at heffects
      cases hcause
      refine ⟨heffects, ?_⟩
      rw [Server.step, htask]

/-! ## Scripts that pass -/

/-- Sending to each channel once leaves one effect for each. -/
theorem exists_wasOpen {channels : List (Fin n)} (hnodup : channels.Nodup) {frame : GatewayFrame}
    {effects : List (Effect n)}
    (hcauses : List.Forall₂ Action.Causes
      (channels.map fun channel => .sendSerial channel frame) effects) :
    ∃ wasOpen : Fin n → Bool, effects = channels.map (sendEffect frame wasOpen) := by
  induction channels generalizing effects with
  | nil => exact ⟨fun _ => false, List.forall₂_nil_left_iff.mp hcauses⟩
  | cons channel channels ih =>
      obtain ⟨hfresh, hrest⟩ := List.nodup_cons.mp hnodup
      obtain ⟨effect, others, hcause, hothers, rfl⟩ := List.forall₂_cons_left_iff.mp hcauses
      obtain ⟨wasOpen, rfl⟩ := ih hrest hothers
      have hset : ∀ isOpen : Bool, channels.map (sendEffect frame wasOpen) =
          channels.map (sendEffect frame (Function.update wasOpen channel isOpen)) := by
        intro isOpen
        refine List.map_congr_left fun other hother => ?_
        have hne : other ≠ channel := fun hsame => hfresh (hsame ▸ hother)
        rw [sendEffect, sendEffect, Function.update_of_ne hne]
      cases hcause with
      | enqueued =>
          refine ⟨Function.update wasOpen channel true, ?_⟩
          rw [List.map_cons, ← hset, sendEffect, Function.update_self, if_pos rfl]
      | refused =>
          refine ⟨Function.update wasOpen channel false, ?_⟩
          rw [List.map_cons, ← hset, sendEffect, Function.update_self, if_neg Bool.false_ne_true]

/-- The effects of a script that passed and whose task has ended. -/
theorem exists_forwardedEffects
    (hrun : Server.run hashes settings (Server.start world) events = some state) {id : Nat}
    {task : Task n} (htask : state.task id = some task) {key : String} {val : Bytes}
    (hcmd : task.request.cmd = .put key val) (hvm : isVm key = true)
    (hpassed : MayForward settings task.request.peerAddr val) (hdone : task.rest = []) :
    ∃ mac wasOpen, macAddr key = some mac ∧
      effectsOf id state.log = forwardedEffects key val (vmFrame mac val) wasOpen := by
  obtain ⟨mac, hmac, hhandler⟩ := handlePut_of_passed hvm (vmRejection_eq_none_iff.mpr hpassed)
  have hprogress := Server.progress_run hrun id
  rw [htask] at hprogress
  obtain ⟨taken, htaken, hcauses⟩ := hprogress
  rw [hdone, List.append_nil, handler, hcmd] at htaken
  dsimp only at htaken
  rw [htaken, hhandler] at hcauses
  -- the effects of the sends, then those of the put and the confirmation
  have hsends := List.forall₂_take
    ((List.finRange n).map fun channel => Action.sendSerial channel (vmFrame mac val)).length
    hcauses
  have hlast := List.forall₂_drop
    ((List.finRange n).map fun channel => Action.sendSerial channel (vmFrame mac val)).length
    hcauses
  rw [List.take_left] at hsends
  rw [List.drop_left, storeAndConfirm] at hlast
  obtain ⟨wasOpen, hsent⟩ := exists_wasOpen (List.nodup_finRange n) hsends
  obtain ⟨applied, rest, happlied, hrest, hafter⟩ := List.forall₂_cons_left_iff.mp hlast
  obtain ⟨replied, none, hreplied, hnone, rfl⟩ := List.forall₂_cons_left_iff.mp hrest
  cases List.forall₂_nil_left_iff.mp hnone
  cases happlied
  cases hreplied
  refine ⟨mac, wasOpen, hmac, ?_⟩
  rw [forwardedEffects, ← hsent, ← hafter, List.take_append_drop]

/-- A frame is enqueued if its channel was open when the task came to it, and
refused if it was not. -/
theorem wasOpen_eq_isOpen
    (hrun : Server.run hashes settings (Server.start world) events = some state) {id : Nat}
    {frame : GatewayFrame} {wasOpen : Fin n → Bool} {channel : Fin n}
    (hmem : sendEffect frame wasOpen channel ∈ effectsOf id state.log) :
    ∃ earlier, earlier ++ [.task id (sendEffect frame wasOpen channel)] <+: state.log ∧
      wasOpen channel = ((world.replayAll hashes earlier).serial channel).isOpen := by
  obtain ⟨earlier, later, hlog⟩ := List.append_of_mem (mem_effectsOf.mp hmem)
  have hbefore : earlier ++ [.task id (sendEffect frame wasOpen channel)] <+: state.log :=
    ⟨later, by simp [hlog]⟩
  refine ⟨earlier, hbefore, ?_⟩
  obtain ⟨action, houtcome⟩ := Server.outcome_of_logged hrun hbefore
  have hcause := World.causes_of_outcome houtcome
  cases hopen : wasOpen channel with
  | true =>
      rw [sendEffect, if_pos hopen] at houtcome hcause
      cases hcause
      rw [World.outcome] at houtcome
      split at houtcome
      · symm
        assumption
      · cases houtcome
  | false =>
      rw [sendEffect, hopen, if_neg Bool.false_ne_true] at houtcome hcause
      cases hcause
      rw [World.outcome] at houtcome
      split at houtcome
      · split at houtcome <;> cases houtcome
      · symm
        rwa [← Bool.not_eq_true]

/-- With room on the open channels a task can run to its end without waiting. -/
theorem exists_run_to_end
    (hrun : Server.run hashes settings (Server.start world) events = some state) {id : Nat}
    {task : Task n} (htask : state.task id = some task)
    (hroom : ∀ channel, state.HasRoom channel) :
    ∃ after, Server.run hashes settings state (List.replicate task.rest.length (.act id)) =
      some after ∧ after.task id = some { task with rest := [] } := by
  have hprogress := Server.progress_run hrun id
  rw [htask] at hprogress
  obtain ⟨taken, htaken, -⟩ := hprogress
  have hnodup : (task.rest.filterMap Action.channel?).Nodup := by
    refine (handler_channels_nodup task.workerId settings task.request).sublist ?_
    rw [← htaken]
    exact (List.sublist_append_right _ _).filterMap _
  exact Server.exists_run_act htask hnodup fun channel _ => hroom channel

/-- What the gate guarantees in a state of the server. -/
structure GateHolds (hashes : Hashes) (settings : SecuritySettings) (world : World S n)
    (state : Server S n) : Prop where
  /-- The queues hold only what tasks enqueued. -/
  queued : ∀ channel frame, frame ∈ (state.world.serial channel).queue →
    frame ∈ (world.serial channel).queue ∨
      ∃ id, .task id (.enqueued channel frame) ∈ state.log
  /-- A frame that was ever enqueued carries the value of a script that passed. -/
  enqueued : ∀ id channel frame, .task id (.enqueued channel frame) ∈ state.log →
    ∃ task key val, state.task id = some task ∧ task.request.cmd = .put key val ∧
      isVm key = true ∧ MayForward settings task.request.peerAddr val ∧
        frame.payload = 0x40 :: val
  /-- Where there are channels, a script that fails a check gets one error reply
  and changes nothing. -/
  rejected : n ≠ 0 → ∀ id task key val, state.task id = some task →
    task.request.cmd = .put key val → isVm key = true →
      ¬MayForward settings task.request.peerAddr val → ∃ text,
        (effectsOf id state.log = [] ∧
          ∃ after, Server.step hashes settings state (.act id) = some after ∧
            after.world = state.world ∧ effectsOf id after.log = [.replied (.error text)]) ∨
        (effectsOf id state.log = [.replied (.error text)] ∧
          Server.step hashes settings state (.act id) = none)
  /-- A script that passes, once its task has ended, was sent once to each channel
  that was open in its turn, then put once, then confirmed. -/
  forwarded : ∀ id task key val, state.task id = some task → task.request.cmd = .put key val →
    isVm key = true → MayForward settings task.request.peerAddr val → task.rest = [] →
      ∃ mac wasOpen, macAddr key = some mac ∧
        effectsOf id state.log = forwardedEffects key val (vmFrame mac val) wasOpen ∧
        ∀ channel, ∃ earlier,
          earlier ++ [.task id (sendEffect (vmFrame mac val) wasOpen channel)] <+: state.log ∧
            wasOpen channel = ((world.replayAll hashes earlier).serial channel).isOpen
  /-- Its task can end as soon as the open channels have room. -/
  ends : ∀ id task, state.task id = some task → (∀ channel, state.HasRoom channel) →
    ∃ after, Server.run hashes settings state (List.replicate task.rest.length (.act id)) =
      some after ∧ after.task id = some { task with rest := [] }

/-- Two channels, of which the second is closed. -/
def twoChannels : World (TieredStore (ReferenceDB 8)) 2 where
  storage := TieredStore.new ReferenceDB.empty
  broadcasts := []
  serial channel := ⟨4, channel == 0, []⟩

/-- A script from this host and one from another, handled side by side. -/
def twoScripts : List (ServerEvent 2) :=
  [.arrive 0 3 ⟨.put "vm:all" [1, 2], some ⟨.v4 #v[127, 0, 0, 1], 50000⟩⟩,
    .arrive 1 3 ⟨.put "vm:all" [3], some ⟨.v4 #v[10, 0, 0, 7], 50000⟩⟩,
    .act 0, .act 1, .act 0, .act 0, .act 0]

/-- A put from this host. -/
def localPut (key : String) (val : Bytes) : GatewayRequest :=
  ⟨.put key val, some ⟨.v4 #v[127, 0, 0, 1], 50000⟩⟩

end ServerGo.Analysis
