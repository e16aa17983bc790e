/-
# The last event of a history that matters

A store that overwrites is described by its history: what it answers is read
off the last event that concerns the question. `latest` is that reading. The
event is interpreted by a partial function, so that one history can be read by
key, by slot or by address, and the lemmas say how two such readings compare.
-/

import Mathlib.Data.List.Induction

namespace ServerGo.Math

universe u v w

variable {α : Type u} {β : Type v} {γ : Type w}

/-- The last event of a history that `read` recognizes, as `read` reports it. -/
def latest (read : α → Option β) (history : List α) : Option β :=
  history.findSomeRev? read

variable {read : α → Option β} {history later : List α}

@[simp]
theorem latest_nil : latest read [] = none := rfl

/-- Later events take precedence over earlier ones. -/
theorem latest_append :
    latest read (history ++ later) = (latest read later).or (latest read history) := by
  simp [latest, List.findSome?_append]

/-- One more event either answers by itself or leaves the answer alone. -/
@[simp]
theorem latest_concat (event : α) :
    latest read (history ++ [event]) = (read event).or (latest read history) := by
  rw [latest_append]
  cases hread : read event <;> simp [latest, hread]

/-- One event is read as what it adds to the readings of the others. -/
theorem filterMap_cons_eq_append (event : α) :
    (event :: later).filterMap read = (read event).toList ++ later.filterMap read := by
  cases hread : read event <;> simp [hread]

theorem filterMap_concat_eq_append (event : α) :
    (history ++ [event]).filterMap read = history.filterMap read ++ (read event).toList := by
  rw [List.filterMap_append, filterMap_cons_eq_append, List.filterMap_nil, List.append_nil]

theorem latest_eq_none_iff :
    latest read history = none ↔ ∀ event ∈ history, read event = none := by
  simp [latest]

/-- An event that is recognized, and none after it, is the one reported. -/
theorem latest_of_last {earlier : List α} {event : α} {value : β}
    (hread : read event = some value) (hlater : ∀ other ∈ later, read other = none) :
    latest read (earlier ++ event :: later) = some value := by
  rw [List.append_cons, latest_append, latest_eq_none_iff.mpr hlater, Option.none_or,
    latest_concat, hread, Option.some_or]

/-- What precedes an event of a history is the history up to its position. -/
theorem exists_take_of_prefix_concat {earlier : List α} {event : α}
    (hbefore : earlier ++ [event] <+: history) :
    ∃ position < history.length, earlier = history.take position ∧
      history[position]? = some event := by
  obtain ⟨rest, rfl⟩ := hbefore
  exact ⟨earlier.length, by simp, by simp, by simp⟩

/-- A reading that finds something finds it at an event of the history. -/
theorem exists_mem_of_latest {value : β} (hlatest : latest read history = some value) :
    ∃ event ∈ history, read event = some value := by
  simp only [latest, List.findSomeRev?_eq_findSome?_reverse] at hlatest
  obtain ⟨event, hmem, hread⟩ := List.exists_of_findSome?_eq_some hlatest
  exact ⟨event, List.mem_reverse.mp hmem, hread⟩

/-- Histories are read alike by functions that agree on their events. -/
theorem latest_congr {other : α → Option β}
    (hagree : ∀ event ∈ history, read event = other event) :
    latest read history = latest other history := by
  induction history using List.reverseRecOn with
  | nil => rfl
  | append_singleton history event ih =>
      rw [latest_concat, latest_concat, hagree event (by simp),
        ih fun earlier hmem => hagree earlier (by simp [hmem])]

/-- Reporting the event in other words commutes with finding it. -/
theorem latest_map (translate : β → γ) :
    latest (fun event => (read event).map translate) history =
      (latest read history).map translate := by
  induction history using List.reverseRecOn with
  | nil => rfl
  | append_singleton history event ih =>
      rw [latest_concat, latest_concat, ih]
      cases read event <;> rfl

/-- Reading a filtered history is reading the whole one through the filter. -/
theorem latest_filterMap {δ : Type*} (keep : δ → Option α) (whole : List δ) :
    latest read (whole.filterMap keep) =
      latest (fun event => (keep event).bind read) whole := by
  induction whole using List.reverseRecOn with
  | nil => rfl
  | append_singleton whole event ih =>
      rw [List.filterMap_append, latest_append, latest_concat, ih]
      cases hkeep : keep event <;> simp [latest, hkeep]

/-- Reading a translated history is translating each event before reading it. -/
theorem latest_comp {δ : Type*} (translate : δ → α) (whole : List δ) :
    latest read (whole.map translate) = latest (fun event => read (translate event)) whole := by
  rw [← List.filterMap_eq_map, latest_filterMap]
  rfl

/-- Dropping events does not change a reading when the event it settles on is
kept. -/
theorem latest_filter {keep : α → Bool}
    (hkept : ∀ event, latest (fun event => (read event).map fun _ => event) history = some event →
      keep event = true) :
    latest read (history.filter keep) = latest read history := by
  induction history using List.reverseRecOn with
  | nil => rfl
  | append_singleton history last ih =>
      rw [latest_concat] at hkept
      cases hread : read last with
      | some value =>
          have hlast : keep last = true := hkept last (by simp [hread])
          simp [List.filter_append, hlast, hread]
      | none =>
          simp only [hread, Option.map_none, Option.none_or] at hkept
          rw [latest_concat, hread, Option.none_or, ← ih hkept, List.filter_append, latest_append]
          cases hlast : keep last <;> simp [latest, hlast, hread]

/-- **A finer reading follows a coarser one.** When every event that `fine`
recognizes is also recognized by `coarse`, the event `coarse` settles on is the
one `fine` settles on, provided `fine` recognizes it at all. -/
theorem latest_of_coarser {coarse : α → Option β} {fine : α → Option γ}
    (hcover : ∀ event ∈ history, coarse event = none → fine event = none) {value : β}
    (hlatest : latest coarse history = some value) :
    ∃ event ∈ history, coarse event = some value ∧
      ∀ found, fine event = some found → latest fine history = some found := by
  induction history using List.reverseRecOn with
  | nil => simp at hlatest
  | append_singleton history last ih =>
      rw [latest_concat] at hlatest
      cases hcoarse : coarse last with
      | some reported =>
          rw [hcoarse, Option.some_or] at hlatest
          exact ⟨last, by simp, hcoarse.trans hlatest,
            fun found hfine => by rw [latest_concat, hfine, Option.some_or]⟩
      | none =>
          rw [hcoarse, Option.none_or] at hlatest
          obtain ⟨event, hmem, hevent, hfollow⟩ :=
            ih (fun earlier hmem => hcover earlier (by simp [hmem])) hlatest
          refine ⟨event, by simp [hmem], hevent, fun found hfine => ?_⟩
          rw [latest_concat, hcover last (by simp) hcoarse, Option.none_or]
          exact hfollow found hfine

end ServerGo.Math
