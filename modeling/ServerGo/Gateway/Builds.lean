/-
# Servers on different stores

The store is chosen when the server is built: the tiered store, the pure cache, or
a mock that keeps nothing. What a server does depends on its store only through the
answers of its gets. So two servers on stores that an observer of answers cannot
tell apart run together on any events, and end alike but for the stores.
-/

import ServerGo.Gateway.Server
import ServerGo.Math.Simulation

namespace ServerGo.Gateway

open ServerGo.Math ServerGo.Storage

/-- `MockStore`, the store of a build without storage features. -/
structure MockStore where

instance : StateStore MockStore where
  getRecord _ _ _ := none
  applySignedRecord _ store _ := store
  backgroundWrite store := store

/-! ## Looking at answers -/

/-- Two stores that stay alike, whatever is applied to both and whatever turns
their writers take, to someone who sees `look answer` of each answer. -/
structure StorePair (hashes : Hashes) (look : Option Bytes → Option Bytes) (S T : Type)
    [StateStore S] [StateStore T] where
  Rel : S → T → Prop
  look_get : ∀ {store : S} {other : T}, Rel store other →
    ∀ key, look (L2Executor.get hashes store key) = look (L2Executor.get hashes other key)
  rel_apply : ∀ {store : S} {other : T}, Rel store other →
    ∀ record, Rel (StateStore.applySignedRecord hashes store record)
      (StateStore.applySignedRecord hashes other record)
  rel_backgroundWrite : ∀ {store : S} {other : T}, Rel store other →
    Rel (StateStore.backgroundWrite store) (StateStore.backgroundWrite other)

namespace StorePair

variable {S T : Type} [StateStore S] [StateStore T] {hashes : Hashes}

/-- Any two stores, to someone who sees no answers. -/
def unseen (hashes : Hashes) (S T : Type) [StateStore S] [StateStore T] :
    StorePair hashes (fun _ => none) S T where
  Rel _ _ := True
  look_get _ _ := rfl
  rel_apply _ _ := trivial
  rel_backgroundWrite _ := trivial

/-- Two stores that hold the same slot table, to someone who sees all answers. -/
def ofRefinements (first : SlotRefinement hashes S) (second : SlotRefinement hashes T) :
    StorePair hashes id S T where
  Rel store other := ∃ table, first.Rel store table ∧ second.Rel other table
  look_get := by
    rintro store other ⟨table, hfirst, hsecond⟩ key
    rw [L2Executor.get_eq_map, L2Executor.get_eq_map, first.getRecord_eq hfirst,
      second.getRecord_eq hsecond]
  rel_apply := by
    rintro store other ⟨table, hfirst, hsecond⟩ record
    exact ⟨_, first.rel_apply hfirst record, second.rel_apply hsecond record⟩
  rel_backgroundWrite := by
    rintro store other ⟨table, hfirst, hsecond⟩
    exact ⟨table, first.rel_backgroundWrite hfirst, second.rel_backgroundWrite hsecond⟩

end StorePair

section

variable {n : Nat} (look : Option Bytes → Option Bytes)

/-- A reply with what is seen of its payload. -/
def Frame.seen : Frame → Frame
  | .bulkString payload => .bulkString (look payload)
  | frame => frame

def Effect.seen : Effect n → Effect n
  | .replied frame => .replied (frame.seen look)
  | effect => effect

/-- An entry of the log as someone sees it who looks at payloads so. -/
def Entry.seen : Entry n → Entry n
  | .task id effect => .task id (effect.seen look)
  | entry => entry

@[simp]
theorem Frame.seen_id (frame : Frame) : frame.seen id = frame := by
  cases frame <;> rfl

@[simp]
theorem Entry.seen_id (entry : Entry n) : entry.seen id = entry := by
  rcases entry with ⟨task, effect⟩ | _ | channel | channel
  · cases effect <;> simp [Entry.seen, Effect.seen]
  · rfl
  · rfl
  · rfl

end

/-! ## Servers alike -/

variable {S T : Type} {n : Nat}

/-- Two worlds that differ in their stores at most, and there as `Rel` says. -/
structure World.Alike (Rel : S → T → Prop) (world : World S n) (other : World T n) : Prop where
  storage : Rel world.storage other.storage
  broadcasts : world.broadcasts = other.broadcasts
  serial : world.serial = other.serial

/-- Two servers with the same tasks, in worlds alike, whose logs look the same. -/
structure Server.Alike (look : Option Bytes → Option Bytes) (Rel : S → T → Prop)
    (state : Server S n) (other : Server T n) : Prop where
  world : state.world.Alike Rel other.world
  task : state.task = other.task
  log : state.log.map (Entry.seen look) = other.log.map (Entry.seen look)

variable [StateStore S] [StateStore T] {hashes : Hashes} {look : Option Bytes → Option Bytes}
  {pair : StorePair hashes look S T} {world : World S n} {other : World T n}

/-- In worlds alike an action comes to the same, but for what an answer holds. -/
theorem World.Alike.outcome (halike : world.Alike pair.Rel other) (action : Action n) :
    Option.Rel (fun effect otherEffect => effect.seen look = otherEffect.seen look)
      (world.outcome hashes action) (other.outcome hashes action) := by
  cases action with
  | sendSerial channel frame =>
      rw [World.outcome, World.outcome, halike.serial]
      split
      · split
        · exact .some rfl
        · exact .none
      · exact .some rfl
  | get key =>
      refine .some ?_
      rw [Effect.seen, Effect.seen, Frame.seen, Frame.seen, pair.look_get halike.storage key]
  | put key val => exact .some rfl
  | reply frame => exact .some rfl

/-- Entries that look the same leave worlds alike. -/
theorem World.Alike.replay (halike : world.Alike pair.Rel other) {entry otherEntry : Entry n}
    (hseen : entry.seen look = otherEntry.seen look) :
    (world.replay hashes entry).Alike pair.Rel (other.replay hashes otherEntry) := by
  have hserial : ∀ (channel : Fin n) (change : SerialChannel → SerialChannel),
      Function.update world.serial channel (change (world.serial channel)) =
        Function.update other.serial channel (change (other.serial channel)) := by
    intro channel change
    rw [halike.serial]
  rcases entry with ⟨id, effect⟩ | _ | channel | channel
  · rcases otherEntry with ⟨otherId, otherEffect⟩ | _ | _ | _ <;> try cases hseen
    obtain ⟨-, heffect⟩ := Entry.task.inj hseen
    cases effect with
    | enqueued channel frame =>
        cases otherEffect <;> cases heffect
        exact ⟨halike.storage, halike.broadcasts, hserial channel fun before =>
          { before with queue := before.queue ++ [frame] }⟩
    | refused channel frame =>
        cases otherEffect <;> cases heffect
        exact halike
    | applied key val =>
        cases otherEffect <;> cases heffect
        exact ⟨pair.rel_apply halike.storage _,
          congrArg (· ++ (L2Executor.put hashes world.storage key val).2.toList) halike.broadcasts,
          halike.serial⟩
    | replied frame =>
        cases otherEffect <;> try cases heffect
        exact halike
  · rcases otherEntry with ⟨otherId, otherEffect⟩ | _ | _ | _ <;> cases hseen
    exact ⟨pair.rel_backgroundWrite halike.storage, halike.broadcasts, halike.serial⟩
  · rcases otherEntry with ⟨otherId, otherEffect⟩ | _ | _ | _ <;> cases hseen
    exact ⟨halike.storage, halike.broadcasts, hserial channel fun before =>
      { before with queue := before.queue.tail }⟩
  · rcases otherEntry with ⟨otherId, otherEffect⟩ | _ | _ | _ <;> cases hseen
    exact ⟨halike.storage, halike.broadcasts, hserial channel fun before =>
      { before with isOpen := false }⟩

namespace Server

/-- An entry that looks the same keeps servers alike. -/
theorem Alike.record {state : Server S n} {otherState : Server T n}
    (halike : state.Alike look pair.Rel otherState) {entry otherEntry : Entry n}
    (hseen : entry.seen look = otherEntry.seen look) :
    (state.record hashes entry).Alike look pair.Rel (otherState.record hashes otherEntry) where
  world := halike.world.replay hseen
  task := halike.task
  log := by
    rw [record_log, record_log, List.map_append, List.map_append, halike.log, List.map_singleton,
      List.map_singleton, hseen]

/-- And so does an action with effects that look the same. -/
theorem Alike.advance {state : Server S n} {otherState : Server T n}
    (halike : state.Alike look pair.Rel otherState) (id : Nat) (left : Task n)
    {effect otherEffect : Effect n} (hseen : effect.seen look = otherEffect.seen look) :
    (state.advance hashes id left effect).Alike look pair.Rel
      (otherState.advance hashes id left otherEffect) := by
  have hupdated : Alike look pair.Rel
      { state with task := Function.update state.task id (some left) }
      { otherState with task := Function.update otherState.task id (some left) } :=
    ⟨halike.world, by rw [halike.task], halike.log⟩
  exact hupdated.record (congrArg (Entry.task id) hseen)

/-- **Servers on stores that look alike run together.** -/
def bisimulation (pair : StorePair hashes look S T) (settings : SecuritySettings) :
    Bisimulation (step hashes settings : Server S n → ServerEvent n → Option (Server S n))
      (step hashes settings : Server T n → ServerEvent n → Option (Server T n)) where
  Rel := Alike look pair.Rel
  rel_step := by
    intro state otherState halike event
    cases event with
    | arrive id workerId request =>
        rw [step, step, halike.task]
        split
        · exact .some ⟨halike.world, rfl, halike.log⟩
        · exact .none
    | act id =>
        rw [step, step, halike.task]
        split
        next workerId request action rest htask =>
            have houtcome := halike.world.outcome action
            generalize state.world.outcome hashes action = outcome at houtcome ⊢
            generalize otherState.world.outcome hashes action = otherOutcome at houtcome ⊢
            cases houtcome with
            | none => exact .none
            | @some effect otherEffect hseen =>
                exact .some (halike.advance id ⟨workerId, request, rest⟩ hseen)
        next => exact .none
    | writerTurn => exact .some (halike.record rfl)
    | driverTurn channel => exact .some (halike.record rfl)
    | close channel => exact .some (halike.record rfl)

omit [StateStore S] [StateStore T] in
/-- Servers that start in worlds alike start alike. -/
theorem alike_start {world : World S n} {other : World T n} {Rel : S → T → Prop}
    (halike : world.Alike Rel other) : (start world).Alike look Rel (start other) :=
  ⟨halike, rfl, rfl⟩

end Server

end ServerGo.Gateway
