/-
# One reply to each request

Whatever runs beside it, a task replies once, after all else it does, and a put is
confirmed exactly if its value was stored, once. So a client that waits for its
reply neither misses one nor gets two, and an error means that nothing was stored.
-/

import ServerGo.Analysis.VmGate
import ServerGo.Gateway.LocalSet
import ServerGo.Gateway.TaskSteps

namespace ServerGo.Analysis

open ServerGo.Gateway ServerGo.Math ServerGo.Storage

variable {n : Nat}

/-- A request has been dealt with: its one reply came after all else, and its value
was stored, once, exactly if the reply confirms it. -/
structure IsAnswered (request : GatewayRequest) (effects : List (Effect n)) : Prop where
  replied_last : ∃ earlier frame, effects = earlier ++ [.replied frame] ∧
    earlier.filterMap Effect.reply? = []
  stored : effects.filterMap Effect.stored? =
    if confirmation ∈ effects then request.stored?.toList else []
  confirmed : confirmation ∈ effects → request.stored?.isSome

/-! ## What the actions of a request amount to -/

/-- The effects of some actions, then of others. -/
theorem exists_append_of_causes {first second : List (Action n)} {effects : List (Effect n)}
    (hcauses : List.Forall₂ Action.Causes (first ++ second) effects) :
    ∃ earlier later, effects = earlier ++ later ∧ List.Forall₂ Action.Causes first earlier ∧
      List.Forall₂ Action.Causes second later := by
  have hfirst := List.forall₂_take first.length hcauses
  have hsecond := List.forall₂_drop first.length hcauses
  rw [List.take_left] at hfirst
  rw [List.drop_left] at hsecond
  exact ⟨_, _, (List.take_append_drop first.length effects).symm, hfirst, hsecond⟩

/-- Actions that neither reply nor read the store have no replies for effects. -/
theorem filterMap_reply_of_causes {actions : List (Action n)} {effects : List (Effect n)}
    (hcauses : List.Forall₂ Action.Causes actions effects)
    (hsilent : ∀ action ∈ actions, (∀ key, action ≠ .get key) ∧ ∀ frame, action ≠ .reply frame) :
    effects.filterMap Effect.reply? = [] := by
  induction hcauses with
  | nil => rfl
  | cons hfirst _ ih =>
      have hrest := ih fun action hmem => hsilent action (List.mem_cons_of_mem _ hmem)
      obtain ⟨hnoGet, hnoReply⟩ := hsilent _ List.mem_cons_self
      cases hfirst with
      | answered key payload => exact absurd rfl (hnoGet key)
      | replied frame => exact absurd rfl (hnoReply frame)
      | _ => rw [List.filterMap_cons_none rfl, hrest]

/-- Sends store nothing. -/
theorem filterMap_stored_of_sends {sends : List (Fin n × GatewayFrame)}
    {effects : List (Effect n)}
    (hcauses : List.Forall₂ Action.Causes
      (sends.map fun send => (.sendSerial send.1 send.2 : Action n)) effects) :
    effects.filterMap Effect.stored? = [] := by
  induction sends generalizing effects with
  | nil =>
      cases hcauses
      rfl
  | cons send sends ih =>
      cases hcauses with
      | cons hfirst hrest => cases hfirst <;> rw [List.filterMap_cons_none rfl, ih hrest]

/-- The last action of a request is the one that replies. -/
theorem exists_handler_eq (workerId : Nat) (settings : SecuritySettings)
    (request : GatewayRequest) :
    ∃ earlier last, (handler workerId settings request : List (Action n)) = earlier ++ [last] ∧
      ∀ action ∈ earlier, (∀ key, action ≠ .get key) ∧ ∀ frame, action ≠ .reply frame := by
  rw [handler]
  cases request.cmd with
  | put key val =>
      dsimp only
      rcases handlePut_cases n settings request.peerAddr key val with ⟨text, hput⟩ | ⟨sends, hput⟩
      · exact ⟨[], _, hput, by simp⟩
      · refine ⟨(sends.map fun send => .sendSerial send.1 send.2) ++ [.put (utf8 key.toList) val],
          .reply (.simpleString "OK"), ?_, ?_⟩
        · rw [hput, storeAndConfirm, List.append_assoc]
          rfl
        · intro action hmem
          rcases List.mem_append.mp hmem with hsend | hput
          · obtain ⟨send, -, rfl⟩ := List.mem_map.mp hsend
            simp
          · rw [List.mem_singleton.mp hput]
            simp
  | _ => exact ⟨[], _, rfl, by simp⟩

/-- A single reply that is no confirmation. -/
theorem isAnswered_singleton {request : GatewayRequest} {frame : Frame}
    (hframe : frame ≠ .simpleString "OK") :
    IsAnswered request [(.replied frame : Effect n)] := by
  have hother : (confirmation : Effect n) ∉ [.replied frame] := fun hmem =>
    hframe (Effect.replied.inj (List.mem_singleton.mp hmem)).symm
  exact ⟨⟨[], frame, rfl, rfl⟩, by rw [if_neg hother]; rfl, fun hmem => absurd hmem hother⟩

/-- **A task that has taken all its actions has answered.** -/
theorem isAnswered_of_causes {workerId : Nat} {settings : SecuritySettings}
    {request : GatewayRequest} {effects : List (Effect n)}
    (hcauses : List.Forall₂ Action.Causes (handler workerId settings request) effects) :
    IsAnswered request effects := by
  have hsingle : ∀ frame, frame ≠ .simpleString "OK" →
      List.Forall₂ Action.Causes [(.reply frame : Action n)] effects →
        IsAnswered request effects := by
    intro frame hframe hreply
    cases hreply with
    | cons hfirst hnone =>
        cases hfirst
        cases hnone
        exact isAnswered_singleton hframe
  rw [handler] at hcauses
  cases hcmd : request.cmd with
  | get key =>
      rw [hcmd] at hcauses
      cases hcauses with
      | cons hfirst hnone =>
          cases hfirst
          cases hnone
          exact isAnswered_singleton (by simp)
  | put key val =>
      rw [hcmd] at hcauses
      dsimp only at hcauses
      rcases handlePut_cases n settings request.peerAddr key val with ⟨text, hput⟩ | ⟨sends, hput⟩
      · exact hsingle (.error text) (by simp) (hput ▸ hcauses)
      · rw [hput, storeAndConfirm] at hcauses
        obtain ⟨earlier, later, rfl, hsends, hlast⟩ := exists_append_of_causes hcauses
        obtain ⟨_, _, happlied, hrest, rfl⟩ := List.forall₂_cons_left_iff.mp hlast
        obtain ⟨_, _, hreplied, hnone, rfl⟩ := List.forall₂_cons_left_iff.mp hrest
        cases List.forall₂_nil_left_iff.mp hnone
        cases happlied
        cases hreplied
        have hsilent : earlier.filterMap Effect.reply? = [] :=
          filterMap_reply_of_causes hsends fun action hmem => by
            obtain ⟨send, -, rfl⟩ := List.mem_map.mp hmem
            simp
        refine ⟨⟨earlier ++ [.applied (utf8 key.toList) val], .simpleString "OK", by simp, ?_⟩,
          ?_, fun _ => by simp [GatewayRequest.stored?, hcmd]⟩
        · rw [List.filterMap_append, hsilent]
          rfl
        · rw [if_pos (by simp [confirmation]), List.filterMap_append,
            filterMap_stored_of_sends hsends, GatewayRequest.stored?, hcmd]
          rfl
  | info =>
      rw [hcmd] at hcauses
      exact hsingle (.bulkString _) (by simp) hcauses
  | ping =>
      rw [hcmd] at hcauses
      exact hsingle (.simpleString "PONG") (by simp) hcauses
  | other =>
      rw [hcmd] at hcauses
      exact hsingle (.error "Unknown command") (by simp) hcauses

/-! ## In every run -/

variable {S : Type} [StateStore S] {hashes : Hashes} {settings : SecuritySettings}
  {world : World S n} {events : List (ServerEvent n)} {state : Server S n}

/-- A task that has come to its end has answered its request. -/
theorem isAnswered_of_done
    (hrun : Server.run hashes settings (Server.start world) events = some state)
    {id : Nat} {task : Task n} (htask : state.task id = some task) (hdone : task.rest = []) :
    IsAnswered task.request (effectsOf id state.log) := by
  have hprogress := Server.progress_run hrun id
  rw [htask] at hprogress
  obtain ⟨taken, htaken, hcauses⟩ := hprogress
  rw [hdone, List.append_nil] at htaken
  exact isAnswered_of_causes (htaken ▸ hcauses)

end ServerGo.Analysis
