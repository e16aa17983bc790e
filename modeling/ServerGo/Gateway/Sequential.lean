/-
# One request at a time

A server that handled each request to its end before it took up the next would
answer from the store alone: what a task sends to the serial channels affects
neither the store nor any reply.
-/

import ServerGo.Gateway.Handler

namespace ServerGo.Gateway

open ServerGo.Storage

variable {n : Nat}

namespace Action

/-- What an action is to the store. -/
def call? : Action n → Option Call
  | .put key val => some (.put key val)
  | _ => none

/-- The reply an action makes whatever the store holds. -/
def reply? : Action n → Option Frame
  | .reply frame => some frame
  | _ => none

/-- The hot slot an action reads or writes. -/
def slot? (hashes : Hashes) : Action n → Option Nat
  | .get key => some (keySlot hashes key)
  | .put key _ => some (keySlot hashes key)
  | _ => none

variable {S : Type} [StateStore S] (hashes : Hashes)

/-- An action by itself: the store afterwards, and the reply. -/
def perform (storage : S) : Action n → S × Option Frame
  | .sendSerial _ _ => (storage, none)
  | .get key => (storage, some (.bulkString (L2Executor.get hashes storage key)))
  | .put key val => ((L2Executor.put hashes storage key val).1, none)
  | .reply frame => (storage, some frame)

/-- Actions one after the other: the store afterwards, and the replies. -/
def performAll (storage : S) : List (Action n) → S × List Frame
  | [] => (storage, [])
  | action :: rest =>
      let (storage, answer) := perform hashes storage action
      let (storage, answers) := performAll storage rest
      (storage, answer.toList ++ answers)

end Action

section

variable {S : Type} [StateStore S] (hashes : Hashes) (settings : SecuritySettings)
  (workerId n : Nat)

/-- What a request puts in the store. -/
def requestCalls (request : GatewayRequest) : List Call :=
  (handler workerId settings request : List (Action n)).filterMap Action.call?

/-- The store after handling requests one at a time, with `n` serial channels. -/
def handleAll (storage : S) (requests : List GatewayRequest) : S :=
  requests.foldl (fun storage request =>
    (Action.performAll hashes storage
      (handler workerId settings request : List (Action n))).1) storage

/-- The replies to a request handled after others, one at a time. -/
def replyTo (storage : S) (earlier : List GatewayRequest) (request : GatewayRequest) :
    List Frame :=
  (Action.performAll hashes (handleAll hashes settings workerId n storage earlier)
    (handler workerId settings request : List (Action n))).2

end

variable {S : Type} [StateStore S] {hashes : Hashes} {settings : SecuritySettings}
  {workerId : Nat} {request : GatewayRequest}

namespace Action

theorem performAll_storage (storage : S) (actions : List (Action n)) :
    (performAll hashes storage actions).1 =
      Call.run hashes storage (actions.filterMap Action.call?) := by
  induction actions generalizing storage with
  | nil => rfl
  | cons action rest ih =>
      rw [performAll]
      dsimp only
      rw [ih]
      cases action <;> rfl

/-- Actions that do not read the store reply alike whatever it holds. -/
theorem performAll_replies {storage : S} {actions : List (Action n)}
    (hnoGet : ∀ key, .get key ∉ actions) :
    (performAll hashes storage actions).2 = actions.filterMap Action.reply? := by
  induction actions generalizing storage with
  | nil => rfl
  | cons action rest ih =>
      rw [performAll]
      dsimp only
      rw [ih fun key hmem => hnoGet key (List.mem_cons_of_mem _ hmem)]
      cases action with
      | get key => exact absurd List.mem_cons_self (hnoGet key)
      | _ => rfl

end Action

/-- The store has seen the puts of the requests, in order. -/
theorem handleAll_eq_run (storage : S) (requests : List GatewayRequest) :
    handleAll hashes settings workerId n storage requests =
      Call.run hashes storage (requests.flatMap (requestCalls settings workerId n)) := by
  induction requests generalizing storage with
  | nil => rfl
  | cons request later ih =>
      rw [handleAll, List.foldl_cons, ← handleAll, ih, Action.performAll_storage, List.flatMap_cons,
        Call.run, Call.run, Call.run, List.foldl_append, requestCalls]

/-! ## What a handler consists of -/

/-- A task that reads the store does nothing else. -/
theorem handler_eq_of_get_mem {key : Bytes}
    (hmem : (.get key : Action n) ∈ handler workerId settings request) :
    (handler workerId settings request : List (Action n)) = [.get key] := by
  rw [handler] at hmem ⊢
  cases hcmd : request.cmd with
  | get other =>
      rw [hcmd] at hmem
      cases List.mem_singleton.mp hmem
      rfl
  | put other val =>
      rw [hcmd] at hmem
      dsimp only at hmem
      rcases handlePut_cases n settings request.peerAddr other val with ⟨text, hput⟩ | ⟨sends, hput⟩
      · simp [hput] at hmem
      · simp [hput, storeAndConfirm] at hmem
  | info => simp [hcmd] at hmem
  | ping => simp [hcmd] at hmem
  | other => simp [hcmd] at hmem

/-- A request has something to do. -/
theorem handler_ne_nil : (handler workerId settings request : List (Action n)) ≠ [] := by
  rw [handler]
  cases request.cmd with
  | put key val =>
      dsimp only
      rcases handlePut_cases n settings request.peerAddr key val with ⟨text, hput⟩ | ⟨sends, hput⟩
      · simp [hput]
      · simp [hput, storeAndConfirm]
  | _ => simp

/-- A request puts at most once. -/
theorem length_requestCalls_le (settings : SecuritySettings) (workerId n : Nat)
    (request : GatewayRequest) : (requestCalls settings workerId n request).length ≤ 1 := by
  rw [requestCalls, handler]
  cases request.cmd with
  | put key val =>
      dsimp only
      rcases handlePut_cases n settings request.peerAddr key val with ⟨text, hput⟩ | ⟨sends, hput⟩
      · simp [hput, List.filterMap_cons, Action.call?]
      · have hsends : (sends.map fun send => (.sendSerial send.1 send.2 : Action n)).filterMap
            Action.call? = [] := by simp [Action.call?, List.filterMap_eq_nil_iff]
        rw [hput, List.filterMap_append, hsends]
        simp [storeAndConfirm, List.filterMap_cons, Action.call?]
  | _ => simp [List.filterMap_cons, Action.call?]

end ServerGo.Gateway
