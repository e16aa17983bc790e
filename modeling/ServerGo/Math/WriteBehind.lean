/-
# A table behind a first-in first-out write queue

Writes are accepted into a queue at once and reach the table later, one at a
time and in order. What matters about such a table is what it will hold once
the queue is empty: `settled` says so in advance. Accepting a command is one
update of the settled rows, and applying the oldest command does not change
them, so every question about a drained table reduces to the accepted commands.
-/

import Mathlib.Logic.Function.Basic
import ServerGo.Math.History

namespace ServerGo.Math

universe u v w

/-- The commands accepted and not yet applied, oldest first, and the rows the
applied ones have left. -/
@[ext]
structure WriteBehind (K : Type u) (C : Type v) (R : Type w) where
  /-- Accepted commands, oldest first. -/
  pending : List C
  /-- What a reader of the table sees. -/
  rows : K → R

namespace WriteBehind

variable {K : Type u} {C : Type v} {R : Type w}

/-- Accept a command at the back of the queue. -/
def enqueue (table : WriteBehind K C R) (command : C) : WriteBehind K C R :=
  { table with pending := table.pending ++ [command] }

@[simp]
theorem enqueue_pending (table : WriteBehind K C R) (command : C) :
    (table.enqueue command).pending = table.pending ++ [command] := rfl

@[simp]
theorem enqueue_rows (table : WriteBehind K C R) (command : C) :
    (table.enqueue command).rows = table.rows := rfl

variable [DecidableEq K] (key : C → K) (row : C → R)

/-- One turn of the writer: apply the oldest accepted command, if there is one.
-/
def writeOne (table : WriteBehind K C R) : WriteBehind K C R :=
  match table.pending with
  | [] => table
  | command :: rest => ⟨rest, Function.update table.rows (key command) (row command)⟩

/-- The rows after the commands have been applied in order. -/
def applyAll (commands : List C) (rows : K → R) : K → R :=
  commands.foldl (fun rows command => Function.update rows (key command) (row command)) rows

/-- What the table will hold once its queue is empty. -/
def settled (table : WriteBehind K C R) : K → R :=
  applyAll key row table.pending table.rows

variable {key row}

@[simp]
theorem applyAll_concat (commands : List C) (command : C) (rows : K → R) :
    applyAll key row (commands ++ [command]) rows =
      Function.update (applyAll key row commands rows) (key command) (row command) := by
  simp [applyAll]

/-- A row reads as the last command on its key left it. -/
theorem applyAll_apply (commands : List C) (rows : K → R) (k : K) :
    applyAll key row commands rows k =
      ((latest (fun command => if key command = k then some (row command) else none)
        commands).getD (rows k)) := by
  induction commands using List.reverseRecOn with
  | nil => rfl
  | append_singleton commands command ih =>
      rw [applyAll_concat, latest_concat]
      by_cases hkey : key command = k
      · simp [hkey]
      · rw [Function.update_of_ne (Ne.symm hkey), ih, if_neg hkey, Option.none_or]

/-- Accepting a command is one update of the settled rows. -/
@[simp]
theorem settled_enqueue (table : WriteBehind K C R) (command : C) :
    settled key row (table.enqueue command) =
      Function.update (settled key row table) (key command) (row command) := by
  simp [settled, enqueue]

/-- The writer's progress is invisible in the settled rows. -/
@[simp]
theorem settled_writeOne (table : WriteBehind K C R) :
    settled key row (writeOne key row table) = settled key row table := by
  rcases table with ⟨pending, rows⟩
  cases pending <;> rfl

/-- A drained table holds exactly its settled rows. -/
theorem settled_of_pending_eq_nil {table : WriteBehind K C R} (hpending : table.pending = []) :
    settled key row table = table.rows := by
  rw [settled, hpending]
  rfl

/-- With nothing waiting the writer has nothing to do. -/
theorem writeOne_of_pending_eq_nil {table : WriteBehind K C R} (hpending : table.pending = []) :
    writeOne key row table = table := by
  rw [writeOne, hpending]

/-- The writer applies the oldest command. -/
theorem writeOne_of_pending_eq_cons {table : WriteBehind K C R} {oldest : C} {rest : List C}
    (hpending : table.pending = oldest :: rest) :
    writeOne key row table = ⟨rest, Function.update table.rows (key oldest) (row oldest)⟩ := by
  rw [writeOne, hpending]

/-- Applying a command consumes it, and only it, from the queue. -/
@[simp]
theorem writeOne_pending (table : WriteBehind K C R) :
    (writeOne key row table).pending = table.pending.tail := by
  rcases table with ⟨pending, rows⟩
  cases pending <;> rfl

theorem writeOne_pending_subset (table : WriteBehind K C R) {command : C}
    (hmem : command ∈ (writeOne key row table).pending) : command ∈ table.pending := by
  rw [writeOne_pending] at hmem
  exact List.mem_of_mem_tail hmem

variable (key row) in
/-- After a turn of the writer a row is the old one or that of an accepted
command on its key. -/
theorem writeOne_rows (table : WriteBehind K C R) (k : K) :
    (writeOne key row table).rows k = table.rows k ∨
      ∃ command ∈ table.pending, key command = k ∧
        (writeOne key row table).rows k = row command := by
  rcases table with ⟨pending, rows⟩
  cases pending with
  | nil => exact Or.inl rfl
  | cons head rest =>
      by_cases hkey : key head = k
      · subst hkey
        exact Or.inr ⟨head, by simp, rfl, by simp [writeOne]⟩
      · exact Or.inl (by simp [writeOne, Function.update_of_ne (Ne.symm hkey)])

end WriteBehind

end ServerGo.Math
