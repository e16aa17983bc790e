/-
# One thread and the routes it reads through

Routes come and go while a thread calls `get_worker` and `get_record_from_route`
on those that are there. A route that is dropped gives up its address, and one
created later may be given it; routes that are there together never share one.
-/

import ServerGo.Math.History
import ServerGo.Math.Steps
import ServerGo.Storage.RouteCache

namespace ServerGo.Storage

open ServerGo.Math

/-- What happens on a thread, and to the routes it can reach. -/
inductive ThreadEvent
  | create (route : Route)
  | drop (route : Route)
  | getWorker (route : Route)
  /-- `get_record_from_route`, with what the routes present at that moment. -/
  | getRecord (memory : Memory) (route : Route) (entityId : EntityId)

/-- What a call was made on and what it was served with: the worker, and the
columns that were cached when it read. -/
structure Use where
  route : Route
  worker : Option Worker
  columns : List Column

/-- The columns a cache holds. -/
def TlsWorkerCache.columns (cache : TlsWorkerCache) : List Column :=
  cache.colPayload.toList ++ cache.colEpoch.toList ++ cache.colType.toList

/-- A thread, the routes that are there, all that were ever there, and what its
calls were served with, oldest first. -/
structure RouteThread where
  tls : Tls
  live : List Route
  created : List Nat
  uses : List Use

namespace RouteThread

/-- No route has been created and no call made. -/
def start : RouteThread := ⟨.start, [], [], []⟩

/-- One event, when it is possible. -/
def step (state : RouteThread) : ThreadEvent → Option RouteThread
  | .create route =>
      if route.id ∉ state.created ∧ ∀ other ∈ state.live, other.address ≠ route.address then
        some { state with
          live := state.live ++ [route]
          created := state.created ++ [route.id] }
      else none
  | .drop route =>
      if route ∈ state.live then some { state with live := state.live.erase route } else none
  | .getWorker route =>
      if route ∈ state.live then
        let (worker, tls) := state.tls.getWorker route
        some { state with
          tls := tls
          uses := state.uses ++ [⟨route, some worker, []⟩] }
      else none
  | .getRecord memory route entityId =>
      if route ∈ state.live then
        let (_, tls) := Tls.getRecordFromRoute memory route entityId state.tls
        some { state with
          tls := tls
          uses := state.uses ++ [⟨route, tls.cache.worker, tls.cache.columns⟩] }
      else none

/-- The thread after a list of events, when each was possible in its turn. -/
abbrev run (start : RouteThread) (events : List ThreadEvent) : Option RouteThread :=
  runSteps step start events

variable {state after : RouteThread}

/-- What a step can do, event by event. -/
theorem step_cases {event : ThreadEvent} :
    step state event = some after →
    match event with
    | .create route =>
        (route.id ∉ state.created ∧ ∀ other ∈ state.live, other.address ≠ route.address) ∧
        after = { state with
          live := state.live ++ [route]
          created := state.created ++ [route.id] }
    | .drop route =>
        route ∈ state.live ∧ after = { state with live := state.live.erase route }
    | .getWorker route =>
        route ∈ state.live ∧
        after = { state with
          tls := (state.tls.getWorker route).2
          uses := state.uses ++ [⟨route, some (state.tls.getWorker route).1, []⟩] }
    | .getRecord memory route entityId =>
        route ∈ state.live ∧
        after = { state with
          tls := (Tls.getRecordFromRoute memory route entityId state.tls).2
          uses := state.uses ++ [⟨route,
            (Tls.getRecordFromRoute memory route entityId state.tls).2.cache.worker,
            (Tls.getRecordFromRoute memory route entityId state.tls).2.cache.columns⟩] } := by
  intro hstep
  cases event <;>
    obtain ⟨hpossible, hafter⟩ := Option.ite_none_right_eq_some.mp hstep <;>
    exact ⟨hpossible, (Option.some.inj hafter).symm⟩

end RouteThread

/-- The route an event calls, if it is a call. -/
def ThreadEvent.calledRoute : ThreadEvent → Option Route
  | .getWorker route => some route
  | .getRecord _ route _ => some route
  | _ => none

/-- The routes a thread calls, in order. -/
def calledRoutes (events : List ThreadEvent) : List Route :=
  events.filterMap ThreadEvent.calledRoute

theorem calledRoutes_concat (events : List ThreadEvent) (event : ThreadEvent) :
    calledRoutes (events ++ [event]) = calledRoutes events ++ event.calledRoute.toList :=
  filterMap_concat_eq_append event

theorem calledRoutes_concat_of_call {event : ThreadEvent} {route : Route}
    (hcalled : event.calledRoute = some route) (events : List ThreadEvent) :
    calledRoutes (events ++ [event]) = calledRoutes events ++ [route] := by
  rw [calledRoutes_concat, hcalled, Option.toList_some]

theorem calledRoutes_concat_of_not_call {event : ThreadEvent} (hcalled : event.calledRoute = none)
    (events : List ThreadEvent) : calledRoutes (events ++ [event]) = calledRoutes events := by
  rw [calledRoutes_concat, hcalled, Option.toList_none, List.append_nil]

/-! ## What a cache holds -/

/-- A cache is filled from a route: it lies under its address, and the worker and
the columns are its own. -/
structure TlsWorkerCache.FilledFrom (cache : TlsWorkerCache) (route : Route) : Prop where
  key : cache.key = route.address
  worker : ∀ worker, cache.worker = some worker → worker.route = route.id
  columns : ∀ column ∈ cache.columns, column.route = route.id

namespace Tls

variable {memory : Memory} {route : Route} {tls : Tls}

/-- A cache that is refilled is filled from the route. -/
theorem refill_filledFrom (tls : Tls) (route : Route) :
    (tls.refill route).cache.FilledFrom route where
  key := rfl
  worker := by
    intro worker hworker
    cases hworker
    rfl
  columns := by
    intro column hmem
    cases hmem

/-- A read leaves a cache that was filled from its route so. -/
theorem prepare_filledFrom (hfilled : (tls.refresh route).cache.FilledFrom route) :
    (tls.prepare memory route).cache.FilledFrom route := by
  have hlookup : ∀ (cached : Option Column) (found : Option Nat) (column : Column),
      (∀ held, cached = some held → held.route = route.id) →
        cached.or (found.map (Column.mk route.id)) = some column → column.route = route.id := by
    intro cached found column hcached hcolumn
    rcases Option.or_eq_some_iff.mp hcolumn with hheld | ⟨-, hfound⟩
    · exact hcached column hheld
    · obtain ⟨number, -, rfl⟩ := Option.map_eq_some_iff.mp hfound
      rfl
  have hcolumns := hfilled.columns
  simp only [TlsWorkerCache.columns, List.mem_append, Option.mem_toList] at hcolumns
  rw [prepare_cache]
  refine ⟨hfilled.key, hfilled.worker, fun column hmem => ?_⟩
  simp only [TlsWorkerCache.columns, List.mem_append, Option.mem_toList] at hmem
  rcases hmem with (hpayload | hepoch) | htype
  · exact hlookup _ _ column (fun held hheld => hcolumns held (Or.inl (Or.inl hheld))) hpayload
  · exact hlookup _ _ column (fun held hheld => hcolumns held (Or.inl (Or.inr hheld))) hepoch
  · exact hlookup _ _ column (fun held hheld => hcolumns held (Or.inr hheld)) htype

end Tls

/-! ## Routes of small runs -/

/-- A route, another at the same address, and one at an address of its own. -/
def firstRoute : Route := ⟨0, 4096, by decide⟩

def secondRoute : Route := ⟨1, 4096, by decide⟩

def thirdRoute : Route := ⟨2, 8192, by decide⟩

/-- Every route has its three columns and no entity. -/
def emptyColumns : Memory := fun _ => {
  pointers := fun _ => none
  columnBlob := fun _ => some 0
  columnInt := fun name => if name = "epoch" then some 1 else some 2
  blobAt := fun _ _ => none
  intAt := fun _ _ => none }

/-- Every route has one entity, at the first place of the columns of its
attributes. -/
def oneEntity (attributes : List String) : Memory := fun _ => {
  pointers := fun entityId =>
    if entityId = 7 then
      some fun name => if name ∈ attributes then some 0 else none
    else none
  columnBlob := fun _ => some 0
  columnInt := fun name => if name = "epoch" then some 1 else some 2
  blobAt := fun _ index => if index = 0 then some [1, 2, 3] else none
  intAt := fun _ index => if index = 0 then some 9 else none }

end ServerGo.Storage
