/-
# The request handler

A worker spawns a task for every request it receives. What the task does is
decided by the request, the settings and the number of serial channels alone, so
it is given here as the list of actions it will take. The task can be suspended
at each of its sends to a serial channel; nothing it does depends on how they
turn out.

`main` has the task twice, for macOS and for the other platforms. As committed the
second moves the senders and the settings into the first task it spawns, which the
compiler refuses; it is read with a clone of them for each task, as the first has.
-/

import ServerGo.Gateway.VmScript
import ServerGo.Storage.Executor

namespace ServerGo.Gateway

open ServerGo.Storage

/-- `io_oi_node::GatewayCommand`; `other` is any that the handler does not know.
-/
inductive GatewayCommand
  | get (key : String)
  | put (key : String) (val : Bytes)
  | info
  | ping
  | other
  deriving DecidableEq

/-- A request as a worker receives it. -/
structure GatewayRequest where
  cmd : GatewayCommand
  peerAddr : Option SocketAddr
  deriving DecidableEq

/-- The RESP frames the handler replies with. -/
inductive Frame
  | simpleString (text : String)
  | error (text : String)
  | bulkString (payload : Option Bytes)
  deriving DecidableEq

/-- What a task can do, with `n` serial channels. -/
inductive Action (n : Nat)
  /-- `s_tx.send(frame).await`. -/
  | sendSerial (channel : Fin n) (frame : GatewayFrame)
  /-- `L2Executor::get`, and the reply with what it returns. -/
  | get (key : Bytes)
  /-- `L2Executor::put`. -/
  | put (key val : Bytes)
  /-- `req.response_tx.send(frame)`. -/
  | reply (frame : Frame)
  deriving DecidableEq

/-- The text of `GatewayCommand::Info`. -/
def stats (workerId : Nat) : String := s!"worker_id:{workerId}\r\nversion:0.1.0\r\n"

variable {n : Nat}

/-- The channel an action sends to. -/
def Action.channel? : Action n → Option (Fin n)
  | .sendSerial channel _ => some channel
  | _ => none

/-- The end of every put that is not rejected. -/
def storeAndConfirm (key : String) (val : Bytes) : List (Action n) :=
  [.put (utf8 key.toList) val, .reply (.simpleString "OK")]

/-- `GatewayCommand::Put`. -/
def handlePut (settings : SecuritySettings) (peerAddr : Option SocketAddr) (key : String)
    (val : Bytes) : List (Action n) :=
  if isVm key && n != 0 then
    match vmRejection settings peerAddr val with
    | some text => [.reply (.error text)]
    | none =>
        match macAddr key with
        | some mac =>
            (List.finRange n).map (fun channel => .sendSerial channel (vmFrame mac val)) ++
              storeAndConfirm key val
        | none => [] -- the task panics
  else storeAndConfirm key val

/-- The body of the task for one request, in both copies of `main`: that of the one
worker of macOS, which calls itself 0, and that of the worker of core `workerId`. -/
def handler (workerId : Nat) (settings : SecuritySettings) (request : GatewayRequest) :
    List (Action n) :=
  match request.cmd with
  | .get key => [.get (utf8 key.toList)]
  | .put key val => handlePut settings request.peerAddr key val
  | .info => [.reply (.bulkString (some (utf8 (stats workerId).toList)))]
  | .ping => [.reply (.simpleString "PONG")]
  | .other => [.reply (.error "Unknown command")]

/-! ## Puts of scripts -/

variable {settings : SecuritySettings} {peerAddr : Option SocketAddr} {key : String} {val : Bytes}

/-- A rejected script is answered, and that is all. -/
theorem handlePut_of_rejected (hvm : isVm key = true) (hchannels : n ≠ 0) {text : String}
    (hrejected : vmRejection settings peerAddr val = some text) :
    (handlePut settings peerAddr key val : List (Action n)) = [.reply (.error text)] := by
  simp [handlePut, hvm, hchannels, hrejected]

/-- A script that passes goes to every channel in turn, then to the store. -/
theorem handlePut_of_passed (hvm : isVm key = true)
    (hpassed : vmRejection settings peerAddr val = none) :
    ∃ mac, macAddr key = some mac ∧ (handlePut settings peerAddr key val : List (Action n)) =
      (List.finRange n).map (fun channel => .sendSerial channel (vmFrame mac val)) ++
        storeAndConfirm key val := by
  obtain ⟨mac, hmac⟩ := Option.isSome_iff_exists.mp (macAddr_isSome key)
  refine ⟨mac, hmac, ?_⟩
  by_cases hchannels : n = 0
  · subst hchannels
    simp [handlePut]
  · simp [handlePut, hvm, hchannels, hpassed, hmac]

/-- A put is rejected, or it sends what it has to send, stores and confirms. -/
theorem handlePut_cases (n : Nat) (settings : SecuritySettings) (peerAddr : Option SocketAddr)
    (key : String) (val : Bytes) :
    (∃ text, (handlePut settings peerAddr key val : List (Action n)) = [.reply (.error text)]) ∨
    ∃ sends : List (Fin n × GatewayFrame), (handlePut settings peerAddr key val : List (Action n)) =
      sends.map (fun send => .sendSerial send.1 send.2) ++ storeAndConfirm key val := by
  rw [handlePut]
  split
  next =>
      cases vmRejection settings peerAddr val with
      | some text => exact Or.inl ⟨text, rfl⟩
      | none =>
          obtain ⟨mac, hmac⟩ := Option.isSome_iff_exists.mp (macAddr_isSome key)
          rw [hmac]
          refine Or.inr ⟨(List.finRange n).map fun channel => (channel, vmFrame mac val), ?_⟩
          rw [List.map_map]
          rfl
  next => exact Or.inr ⟨[], rfl⟩

/-- Nothing but a script that passed is ever sent to a channel. -/
theorem passed_of_sendSerial_mem {workerId : Nat} {request : GatewayRequest} {channel : Fin n}
    {frame : GatewayFrame} (hmem : .sendSerial channel frame ∈ handler workerId settings request) :
    ∃ key val, request.cmd = .put key val ∧ isVm key = true ∧
      vmRejection settings request.peerAddr val = none ∧
        ∃ mac, macAddr key = some mac ∧ frame = vmFrame mac val := by
  rw [handler] at hmem
  cases hcmd : request.cmd with
  | put key val =>
      rw [hcmd] at hmem
      dsimp only [handlePut] at hmem
      split at hmem
      next hvm =>
          cases hrejection : vmRejection settings request.peerAddr val with
          | some text => simp [hrejection] at hmem
          | none =>
              obtain ⟨mac, hmac⟩ := Option.isSome_iff_exists.mp (macAddr_isSome key)
              refine ⟨key, val, rfl, (Bool.and_eq_true_iff.mp hvm).1, hrejection, mac, hmac, ?_⟩
              simpa [hrejection, hmac, storeAndConfirm, eq_comm] using hmem
      next => simp [storeAndConfirm] at hmem
  | get key => simp [hcmd] at hmem
  | info => simp [hcmd] at hmem
  | ping => simp [hcmd] at hmem
  | other => simp [hcmd] at hmem

/-- Nothing but the value of a put is ever stored, and where there are channels no
script that was rejected. -/
theorem passed_of_put_mem {workerId : Nat} {request : GatewayRequest} {stored val : Bytes}
    (hmem : (.put stored val : Action n) ∈ handler workerId settings request) :
    ∃ key, request.cmd = .put key val ∧ stored = utf8 key.toList ∧
      (n ≠ 0 → isVm key = true → vmRejection settings request.peerAddr val = none) := by
  rw [handler] at hmem
  cases hcmd : request.cmd with
  | put key val =>
      rw [hcmd] at hmem
      dsimp only [handlePut] at hmem
      split at hmem
      next hvm =>
          cases hrejection : vmRejection settings request.peerAddr val with
          | some text => simp [hrejection] at hmem
          | none =>
              obtain ⟨mac, hmac⟩ := Option.isSome_iff_exists.mp (macAddr_isSome key)
              obtain ⟨rfl, rfl⟩ : stored = utf8 key.toList ∧ _ = val := by
                simpa [hrejection, hmac, storeAndConfirm] using hmem
              exact ⟨key, rfl, rfl, fun _ _ => hrejection⟩
      next hvm =>
          obtain ⟨rfl, rfl⟩ : stored = utf8 key.toList ∧ _ = val := by
            simpa [storeAndConfirm] using hmem
          exact ⟨key, rfl, rfl, fun hchannels hscript => absurd (by simp [hscript, hchannels]) hvm⟩
  | get key => simp [hcmd] at hmem
  | info => simp [hcmd] at hmem
  | ping => simp [hcmd] at hmem
  | other => simp [hcmd] at hmem

/-- The store is asked for nothing but the key of a get. -/
theorem cmd_of_get_mem {workerId : Nat} {request : GatewayRequest} {asked : Bytes}
    (hmem : (.get asked : Action n) ∈ handler workerId settings request) :
    ∃ key, request.cmd = .get key ∧ asked = utf8 key.toList := by
  rw [handler] at hmem
  cases hcmd : request.cmd with
  | get key =>
      rw [hcmd] at hmem
      exact ⟨key, rfl, Action.get.inj (List.mem_singleton.mp hmem)⟩
  | put key val =>
      rw [hcmd] at hmem
      rcases handlePut_cases n settings request.peerAddr key val with ⟨text, hput⟩ | ⟨sends, hput⟩
      · simp [hput] at hmem
      · simp [hput, storeAndConfirm] at hmem
  | info => simp [hcmd] at hmem
  | ping => simp [hcmd] at hmem
  | other => simp [hcmd] at hmem

/-- No task sends to one channel twice. -/
theorem handler_channels_nodup (workerId : Nat) (settings : SecuritySettings)
    (request : GatewayRequest) :
    ((handler workerId settings request : List (Action n)).filterMap Action.channel?).Nodup := by
  have hsends : ∀ frame, ((List.finRange n).map fun channel =>
      Action.sendSerial channel frame).filterMap Action.channel? = List.finRange n := by
    intro frame
    rw [List.filterMap_map]
    exact List.filterMap_some
  rw [handler]
  cases request.cmd with
  | put key val =>
      dsimp only [handlePut]
      split
      next =>
          cases vmRejection settings request.peerAddr val with
          | some text => simp [List.filterMap_cons, Action.channel?]
          | none =>
              cases macAddr key with
              | some mac =>
                  simp [List.filterMap_append, List.filterMap_cons, hsends, storeAndConfirm,
                    Action.channel?, List.nodup_finRange]
              | none => simp
      next => simp [List.filterMap_cons, storeAndConfirm, Action.channel?]
  | _ => simp [List.filterMap_cons, Action.channel?]

end ServerGo.Gateway
