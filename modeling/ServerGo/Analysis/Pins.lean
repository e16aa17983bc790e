/-
# Pins

`get_record_from_route` holds its worker's pin while it looks up a column, and
once more while it reads the entity. Where an index or an element of an entity
that is there is missing, a `?` returns past the last `leave`, and the worker
stays pinned.
-/

import ServerGo.Storage.RouteThread

namespace ServerGo.Analysis

open ServerGo.Math ServerGo.Storage

/-- How often the pin of a worker is held. -/
def held (pins : List Pin) (worker : Worker) : Int :=
  pins.count (.enter worker) - pins.count (.leave worker)

theorem held_append (pins later : List Pin) (worker : Worker) :
    held (pins ++ later) worker = held pins worker + held later worker := by
  simp only [held, List.count_append]
  omega

theorem held_enter_leave (worker other : Worker) :
    held [.enter worker, .leave worker] other = 0 := by
  by_cases hother : worker = other <;> simp [held, hother]

theorem held_enter_nonneg (worker other : Worker) : 0 ≤ held [.enter worker] other := by
  by_cases hother : worker = other <;> simp [held, hother]

variable {memory : Memory} {route : Route} {entityId : EntityId} {tls : Tls}

theorem held_concat_enter_leave (pins : List Pin) (worker : Worker) :
    held (pins ++ [.enter worker, .leave worker]) = held pins := by
  funext other
  rw [held_append, held_enter_leave, add_zero]

/-- A column lookup gives back the pin it takes. -/
theorem held_pinned (tls : Tls) : held tls.pinned.pins = held tls.pins := by
  rw [Tls.pinned]
  split
  next worker _ => exact held_concat_enter_leave tls.pins worker
  next => rfl

/-- Before the columns are used every pin has been given back. -/
theorem held_prepare (memory : Memory) (route : Route) (tls : Tls) :
    held (tls.prepare memory route).pins = held tls.pins := by
  have hrefresh : (tls.refresh route).pins = tls.pins := by
    rw [Tls.refresh]
    split <;> rfl
  have hlookup : ∀ (missing : Bool) (before : Tls) (cache : TlsWorkerCache),
      held (if missing then { before.pinned with cache := cache } else before).pins =
        held before.pins := by
    intro missing before cache
    split
    · exact held_pinned before
    · rfl
  rw [Tls.prepare, Tls.resolveType, hlookup, Tls.resolveEpoch, hlookup, Tls.resolvePayload,
    hlookup, hrefresh]

/-! ## Where a read completes -/

/-- The column a call uses: the one cached under the address of the route, or else
the one the route has. -/
def usable (tls : Tls) (route : Route) (cached : Option Column) (found : Option Nat) :
    Option Column :=
  (if tls.cache.key = route.address then cached else none).or (found.map (Column.mk route.id))

/-- Nothing is missing of an entity that is there: once a call has its three
columns, the entity's pointer has an index into each, and each an element at it.
-/
def Completes (memory : Memory) (route : Route) (entityId : EntityId) (tls : Tls) : Prop :=
  ∀ attributeIndices payload epoch type,
    (memory route.id).pointers entityId = some attributeIndices →
    usable tls route tls.cache.colPayload ((memory route.id).columnBlob "payload") =
      some payload →
    usable tls route tls.cache.colEpoch ((memory route.id).columnInt "epoch") = some epoch →
    usable tls route tls.cache.colType ((memory route.id).columnInt "type") = some type →
      (∃ index, attributeIndices "payload" = some index ∧
        ((memory payload.route).blobAt payload.number index).isSome) ∧
      (∃ index, attributeIndices "epoch" = some index ∧
        ((memory epoch.route).intAt epoch.number index).isSome) ∧
      (∃ index, attributeIndices "type" = some index ∧
        ((memory type.route).intAt type.number index).isSome)

theorem readElements_isSome_iff {attributeIndices : String → Option Nat}
    {payload epoch type : Column} :
    (Tls.readElements memory attributeIndices payload epoch type).isSome ↔
      (∃ index, attributeIndices "payload" = some index ∧
        ((memory payload.route).blobAt payload.number index).isSome) ∧
      (∃ index, attributeIndices "epoch" = some index ∧
        ((memory epoch.route).intAt epoch.number index).isSome) ∧
      (∃ index, attributeIndices "type" = some index ∧
        ((memory type.route).intAt type.number index).isSome) := by
  simp only [Option.isSome_iff_exists]
  constructor
  · rintro ⟨record, hread⟩
    rw [Tls.readElements] at hread
    split at hread
    next payloadIdx epochIdx typeIdx hpayloadIdx hepochIdx htypeIdx =>
        split at hread
        next hpayload hepoch htype =>
            exact ⟨⟨payloadIdx, hpayloadIdx, _, hpayload⟩, ⟨epochIdx, hepochIdx, _, hepoch⟩,
              typeIdx, htypeIdx, _, htype⟩
        next => cases hread
    next => cases hread
  · rintro ⟨⟨payloadIdx, hpayloadIdx, _, hpayload⟩, ⟨epochIdx, hepochIdx, _, hepoch⟩,
      typeIdx, htypeIdx, _, htype⟩
    rw [Tls.readElements, hpayloadIdx, hepochIdx, htypeIdx]
    dsimp only
    rw [hpayload, hepoch, htype]
    exact ⟨_, rfl⟩

/-- The columns a call has once it has looked up those it lacked. -/
theorem prepare_usable (memory : Memory) (route : Route) (tls : Tls) :
    (tls.prepare memory route).cache.colPayload =
        usable tls route tls.cache.colPayload ((memory route.id).columnBlob "payload") ∧
    (tls.prepare memory route).cache.colEpoch =
        usable tls route tls.cache.colEpoch ((memory route.id).columnInt "epoch") ∧
    (tls.prepare memory route).cache.colType =
        usable tls route tls.cache.colType ((memory route.id).columnInt "type") := by
  rw [Tls.prepare_cache, Tls.refresh, usable, usable, usable]
  by_cases hkey : tls.cache.key = route.address
  · rw [if_neg (not_not.mpr hkey), if_pos hkey, if_pos hkey, if_pos hkey]
    exact ⟨rfl, rfl, rfl⟩
  · rw [if_pos hkey, if_neg hkey, if_neg hkey, if_neg hkey]
    exact ⟨rfl, rfl, rfl⟩

/-- With the columns of a call at hand, and the entity there, it completes when
all its elements can be read. -/
theorem completes_iff {attributeIndices : String → Option Nat} {payload epoch type : Column}
    (hpointer : (memory route.id).pointers entityId = some attributeIndices)
    (hpayload : usable tls route tls.cache.colPayload ((memory route.id).columnBlob "payload") =
      some payload)
    (hepoch : usable tls route tls.cache.colEpoch ((memory route.id).columnInt "epoch") =
      some epoch)
    (htype : usable tls route tls.cache.colType ((memory route.id).columnInt "type") = some type) :
    Completes memory route entityId tls ↔
      (Tls.readElements memory attributeIndices payload epoch type).isSome := by
  rw [readElements_isSome_iff]
  constructor
  · intro hcompletes
    exact hcompletes _ _ _ _ hpointer hpayload hepoch htype
  · intro helements attributeIndices' payload' epoch' type' hpointer' hpayload' hepoch' htype'
    cases hpointer.symm.trans hpointer'
    cases hpayload.symm.trans hpayload'
    cases hepoch.symm.trans hepoch'
    cases htype.symm.trans htype'
    exact helements

/-- **A call gives back every pin it takes exactly when it completes**; else it
leaves one held. -/
theorem getRecordFromRoute_held (memory : Memory) (route : Route) (entityId : EntityId)
    (tls : Tls) :
    Completes memory route entityId tls ∧
      held (Tls.getRecordFromRoute memory route entityId tls).2.pins = held tls.pins ∨
    ¬Completes memory route entityId tls ∧ ∃ worker,
      held (Tls.getRecordFromRoute memory route entityId tls).2.pins =
        held tls.pins + held [.enter worker] := by
  obtain ⟨hpayload, hepoch, htype⟩ := prepare_usable memory route tls
  obtain ⟨worker, record, pins, -, hresult, hcases⟩ :=
    Tls.getRecordFromRoute_cases memory route entityId tls
  rw [← held_prepare memory route tls, hresult]
  dsimp only
  rw [hpayload, hepoch, htype] at hcases
  rcases hcases with ⟨-, rfl, hmissing⟩ | ⟨_, _, _, ⟨hcolPayload, hcolEpoch, hcolType⟩, hcases⟩
  · left
    refine ⟨fun _ _ _ _ _ hcolPayload hcolEpoch hcolType => ?_, by rw [List.append_nil]⟩
    simp [hcolPayload, hcolEpoch, hcolType] at hmissing
  · rcases hcases with ⟨hpointer, -, rfl⟩ | ⟨attributeIndices, hpointer, rfl, rfl⟩
    · left
      refine ⟨fun _ _ _ _ hthere => ?_, held_concat_enter_leave _ worker⟩
      cases hpointer.symm.trans hthere
    · rw [completes_iff hpointer hcolPayload hcolEpoch hcolType]
      split
      next hread =>
          left
          exact ⟨hread, held_concat_enter_leave _ worker⟩
      next hread =>
          right
          exact ⟨hread, worker, funext (held_append _ _)⟩

/-! ## Over any sequence of calls -/

/-- A read, if that is what happens, completes. -/
def ReadCompletes (tls : Tls) : ThreadEvent → Prop
  | .getRecord memory route entityId => Completes memory route entityId tls
  | _ => True

/-- Every read of a run completes in the state it is made in. -/
def EveryReadCompletes (start : RouteThread) : List ThreadEvent → Prop
  | [] => True
  | event :: later =>
      ReadCompletes start.tls event ∧
        ∀ next, start.step event = some next → EveryReadCompletes next later

variable {start next state : RouteThread} {event : ThreadEvent} {events : List ThreadEvent}

/-- A step leaves the pins of all workers as they were, unless it is a read that
does not complete. -/
theorem step_held (hstep : start.step event = some next) :
    ReadCompletes start.tls event ∧ held next.tls.pins = held start.tls.pins ∨
    ¬ReadCompletes start.tls event ∧ ∃ worker,
      held next.tls.pins = held start.tls.pins + held [.enter worker] := by
  have hcases := RouteThread.step_cases hstep
  cases event with
  | create route =>
      obtain ⟨-, rfl⟩ := hcases
      exact Or.inl ⟨trivial, rfl⟩
  | drop route =>
      obtain ⟨-, rfl⟩ := hcases
      exact Or.inl ⟨trivial, rfl⟩
  | getWorker route =>
      obtain ⟨-, rfl⟩ := hcases
      refine Or.inl ⟨trivial, ?_⟩
      obtain ⟨worker, hget, -⟩ := Tls.getWorker_eq start.tls route
      rw [hget, Tls.refresh]
      split <;> rfl
  | getRecord memory route entityId =>
      obtain ⟨-, rfl⟩ := hcases
      exact getRecordFromRoute_held memory route entityId start.tls

/-- No pin is given back that was not taken. -/
theorem held_le_of_run (hrun : RouteThread.run start events = some state) (worker : Worker) :
    held start.tls.pins worker ≤ held state.tls.pins worker := by
  induction events generalizing start with
  | nil =>
      cases hrun
      exact Int.le_refl _
  | cons event later ih =>
      rw [RouteThread.run, runSteps_cons] at hrun
      obtain ⟨next, hstep, hlater⟩ := Option.bind_eq_some_iff.mp hrun
      have hleft := ih hlater
      rcases step_held hstep with ⟨-, hsame⟩ | ⟨-, entered, hmore⟩
      · rwa [hsame] at hleft
      · rw [hmore, Pi.add_apply] at hleft
        have htaken := held_enter_nonneg entered worker
        omega

/-- **When every pin is given back.** Over any sequence of calls, from any state
of the cache and whatever the routes present to each call, the pins of all workers
are left as they were if and only if every read completes: an entity that is
there, once its three columns are, has an index into each and an element at it. -/
theorem held_run_iff (hrun : RouteThread.run start events = some state) :
    held state.tls.pins = held start.tls.pins ↔ EveryReadCompletes start events := by
  induction events generalizing start with
  | nil =>
      cases hrun
      exact iff_of_true rfl trivial
  | cons event later ih =>
      rw [RouteThread.run, runSteps_cons] at hrun
      obtain ⟨next, hstep, hlater⟩ := Option.bind_eq_some_iff.mp hrun
      have hrest : (∀ next, start.step event = some next → EveryReadCompletes next later) ↔
          EveryReadCompletes next later := by
        simp only [hstep, Option.some.injEq, forall_eq']
      rw [EveryReadCompletes, hrest]
      rcases step_held hstep with ⟨hcompletes, hsame⟩ | ⟨hnot, entered, hmore⟩
      · rw [← hsame, ih hlater, and_iff_right hcompletes]
      · refine iff_of_false (fun hheld => ?_) fun hevery => hnot hevery.1
        -- the pin that was left is never given back
        have hleft := held_le_of_run hlater entered
        rw [hheld, hmore, Pi.add_apply] at hleft
        have hone : held [.enter entered] entered = 1 := by simp [held]
        omega

/-- An entity with a payload and a type, but no epoch. -/
def withoutEpoch : Memory := oneEntity ["payload", "type"]

/-- An entity that is there is read, then one that is not, and between them a worker is
taken. -/
def readsThatComplete : List ThreadEvent :=
  [.create firstRoute, .getRecord (oneEntity ["payload", "epoch", "type"]) firstRoute 7,
    .getWorker firstRoute, .getRecord withoutEpoch firstRoute 8]

theorem held_run_iff_readsThatComplete :
    ∃ state, RouteThread.run RouteThread.start readsThatComplete = some state ∧
      state.tls.pins.length = 10 ∧ held state.tls.pins = held [] ∧
        EveryReadCompletes RouteThread.start readsThatComplete := by
  obtain ⟨state, hrun, hpins⟩ : ∃ state,
      RouteThread.run RouteThread.start readsThatComplete = some state ∧
        state.tls.pins = (List.replicate 5 [.enter ⟨0, 0⟩, .leave ⟨0, 0⟩]).flatten :=
    ⟨_, rfl, rfl⟩
  have hheld : held state.tls.pins = held [] := by
    funext worker
    rw [hpins]
    simp only [List.replicate, List.flatten_cons, List.flatten_nil, held_append, held_enter_leave,
      zero_add]
  exact ⟨state, hrun, by simp [hpins], hheld, (held_run_iff hrun).mp hheld⟩

/-- A read of an entity without an epoch takes the pin of its worker four times
and gives it back three times. -/
theorem held_of_withoutEpoch :
    (Tls.getRecordFromRoute withoutEpoch firstRoute 7 .start).2.pins =
      [.enter ⟨0, 0⟩, .leave ⟨0, 0⟩, .enter ⟨0, 0⟩, .leave ⟨0, 0⟩,
        .enter ⟨0, 0⟩, .leave ⟨0, 0⟩, .enter ⟨0, 0⟩] ∧
    held (Tls.getRecordFromRoute withoutEpoch firstRoute 7 .start).2.pins ⟨0, 0⟩ = 1 := by
  decide

end ServerGo.Analysis
