/-
# What reaches the devices

A channel is a queue: its driver takes the frames off in the order in which they
were enqueued. What it has taken and what still waits are together what tasks
have sent. Each frame in the log is that of a task, and what one task has sent can
be read off its own effects.
-/

import ServerGo.Gateway.Server

namespace ServerGo.Gateway

open ServerGo.Math ServerGo.Storage

/-! ## Reading the effects of all tasks -/

section

variable {n : Nat} {β : Type}

/-- What an effect in the log is read as, with the task it is of. -/
def Entry.reading (read : Effect n → Option β) : Entry n → Option (Nat × β)
  | .task id effect => (read effect).map (id, ·)
  | _ => none

/-- All that is read in a log, in order. -/
def readings (read : Effect n → Option β) (log : List (Entry n)) : List (Nat × β) :=
  log.filterMap (Entry.reading read)

/-- The tasks it is read of, in order. -/
def readers (read : Effect n → Option β) (log : List (Entry n)) : List Nat :=
  (readings read log).map Prod.fst

/-- A frame that enters this channel. -/
def Effect.sentTo (channel : Fin n) : Effect n → Option GatewayFrame
  | .enqueued other frame => if other = channel then some frame else none
  | _ => none

/-- A value that is put on this key. -/
def Effect.putOn (key : Bytes) : Effect n → Option Bytes
  | .applied other val => if other = key then some val else none
  | _ => none

variable {read : Effect n → Option β} {log : List (Entry n)} {id : Nat}

/-- What is read of one task is what its own effects are read as. -/
theorem filter_readings (id : Nat) (log : List (Entry n)) :
    (readings read log).filter (fun found => found.1 == id) =
      ((effectsOf id log).filterMap read).map (id, ·) := by
  rw [readings, effectsOf, List.filter_filterMap, List.filterMap_filterMap, List.map_filterMap]
  refine List.filterMap_congr fun entry _ => ?_
  cases entry with
  | task other effect =>
      by_cases hid : other = id
      · subst hid
        cases hread : read effect <;> simp [Entry.reading, Entry.effectOf, hread]
      · cases hread : read effect <;> simp [Entry.reading, Entry.effectOf, hid, hread]
  | _ => rfl

theorem mem_readings {value : β} :
    (id, value) ∈ readings read log ↔ value ∈ (effectsOf id log).filterMap read := by
  have hmem : (id, value) ∈ (readings read log).filter (fun found => found.1 == id) ↔
      (id, value) ∈ ((effectsOf id log).filterMap read).map (id, ·) := by rw [filter_readings]
  simpa using hmem

/-- A task is named as often as something is read of it. -/
theorem count_readers (id : Nat) (log : List (Entry n)) :
    (readers read log).count id = ((effectsOf id log).filterMap read).length := by
  have hlength : ((readings read log).filter fun found => found.1 == id).length = _ :=
    congrArg List.length (filter_readings id log)
  rw [List.length_map] at hlength
  rw [readers, List.count_eq_countP, List.countP_map, List.countP_eq_length_filter, ← hlength]
  rfl

/-- Where some tasks are read once each, as a value that is known, and the others
never, a log reads as a list of those tasks without repetition. -/
theorem readings_of_once {isRead : Nat → Prop} {value : Nat → β}
    (honce : ∀ id, isRead id → (effectsOf id log).filterMap read = [value id])
    (hnever : ∀ id, ¬isRead id → (effectsOf id log).filterMap read = []) :
    (readers read log).Nodup ∧ (∀ id, id ∈ readers read log ↔ isRead id) ∧
      readings read log = (readers read log).map fun id => (id, value id) := by
  refine ⟨List.nodup_iff_count_le_one.mpr fun id => ?_, fun id => ?_, ?_⟩
  · rw [count_readers]
    by_cases hread : isRead id
    · rw [honce id hread, List.length_singleton]
    · rw [hnever id hread]
      exact Nat.zero_le 1
  · rw [← List.count_pos_iff, count_readers]
    by_cases hread : isRead id
    · rw [honce id hread]
      exact iff_of_true Nat.one_pos hread
    · rw [hnever id hread]
      exact iff_of_false (Nat.lt_irrefl 0) hread
  · rw [readers, List.map_map]
    conv_lhs => rw [← List.map_id (readings read log)]
    refine List.map_congr_left fun found hmem => Prod.ext rfl ?_
    have hvalue : found.2 ∈ (effectsOf found.1 log).filterMap read := mem_readings.mp hmem
    by_cases hread : isRead found.1
    · rw [honce found.1 hread] at hvalue
      exact List.mem_singleton.mp hvalue
    · rw [hnever found.1 hread] at hvalue
      cases hvalue

end

/-! ## Queues -/

section

variable {S : Type} [StateStore S] {n : Nat} (hashes : Hashes)

/-- The frame a driver takes off its queue, if that is what happens. -/
def frameTaken (world : World S n) (channel : Fin n) : Entry n → Option GatewayFrame
  | .driverTurn other => if other = channel then (world.serial channel).queue.head? else none
  | _ => none

/-- The frames that a driver has delivered, oldest first. -/
def delivered (world : World S n) (channel : Fin n) : List (Entry n) → List GatewayFrame
  | [] => []
  | entry :: later =>
      (frameTaken world channel entry).toList ++
        delivered (world.replay hashes entry) channel later

variable {hashes} {world : World S n} {channel : Fin n}

/-- A frame is taken at the front and enters at the back. -/
theorem frameTaken_append_queue (entry : Entry n) :
    (frameTaken world channel entry).toList ++ ((world.replay hashes entry).serial channel).queue =
      (world.serial channel).queue ++
        ((entry.reading (Effect.sentTo channel)).map Prod.snd).toList := by
  rcases entry with ⟨id, effect⟩ | _ | other | other
  · cases effect with
    | enqueued other frame =>
        by_cases hother : other = channel
        · subst hother
          simp [frameTaken, World.replay, World.after, Entry.reading, Effect.sentTo]
        · simp [frameTaken, World.replay, World.after, Entry.reading, Effect.sentTo, hother,
            Function.update_of_ne (Ne.symm hother)]
    | _ => simp [frameTaken, World.replay, World.after, Entry.reading, Effect.sentTo]
  · simp [frameTaken, World.replay, Entry.reading]
  · by_cases hother : other = channel
    · subst hother
      cases hqueue : (world.serial other).queue <;>
        simp [frameTaken, World.replay, Entry.reading, hqueue]
    · simp [frameTaken, World.replay, Entry.reading, hother,
        Function.update_of_ne (Ne.symm hother)]
  · by_cases hother : other = channel
    · subst hother
      simp [frameTaken, World.replay, Entry.reading]
    · simp [frameTaken, World.replay, Entry.reading, Function.update_of_ne (Ne.symm hother)]

/-- **Channels are first in, first out.** What has been delivered and what is still
in the queue is what was in the queue at the start and what has been sent since.
-/
theorem delivered_append_queue (world : World S n) (channel : Fin n) (log : List (Entry n)) :
    delivered hashes world channel log ++ ((world.replayAll hashes log).serial channel).queue =
      (world.serial channel).queue ++
        (readings (Effect.sentTo channel) log).map Prod.snd := by
  induction log generalizing world with
  | nil => simp [delivered, readings, World.replayAll]
  | cons entry later ih =>
      have hreadings : (readings (Effect.sentTo channel) (entry :: later)).map Prod.snd =
          ((entry.reading (Effect.sentTo channel)).map Prod.snd).toList ++
            (readings (Effect.sentTo channel) later).map Prod.snd := by
        rw [readings, filterMap_cons_eq_append, List.map_append, ← readings, Option.toList_map]
      have hrest := ih (world.replay hashes entry)
      calc delivered hashes world channel (entry :: later) ++
            ((world.replayAll hashes (entry :: later)).serial channel).queue
          = (frameTaken world channel entry).toList ++
              (delivered hashes (world.replay hashes entry) channel later ++
                (((world.replay hashes entry).replayAll hashes later).serial channel).queue) :=
            List.append_assoc ..
        _ = ((frameTaken world channel entry).toList ++
              ((world.replay hashes entry).serial channel).queue) ++
                (readings (Effect.sentTo channel) later).map Prod.snd := by
            rw [hrest, List.append_assoc]
        _ = _ := by rw [frameTaken_append_queue, hreadings, List.append_assoc]

end

end ServerGo.Gateway
