/-
# What the thread-local cache hands out

The cache knows a route by its address. A thread is served with what belongs to
the route it calls as long as no two calls in a row are made on different routes
at one address, and a route is registered with once as long as the thread does
not come back to it after calling another.
-/

import Mathlib.Data.List.Chain
import ServerGo.Math.Repeats
import ServerGo.Storage.RouteThread

namespace ServerGo.Analysis

open ServerGo.Math ServerGo.Storage

/-- A call was served with a worker and columns of its own route. -/
def Use.IsOwn (use : Use) : Prop :=
  (∀ worker, use.worker = some worker → worker.route = use.route.id) ∧
    ∀ column ∈ use.columns, column.route = use.route.id

/-- A route at the address of the route called before is that route. -/
def Follows (earlier later : Route) : Prop :=
  earlier.address = later.address → earlier.id = later.id

variable {events : List ThreadEvent} {event : ThreadEvent} {state before after : RouteThread}
  {route : Route}

/-- What every call does, whichever of the two it is. -/
theorem call_cases (hstep : RouteThread.step before event = some after)
    (hcalled : event.calledRoute = some route) :
    route ∈ before.live ∧ after.live = before.live ∧ after.created = before.created ∧
    after.tls.registered = (before.tls.refresh route).registered ∧
    ((before.tls.refresh route).cache.FilledFrom route → after.tls.cache.FilledFrom route) ∧
    ∃ use, after.uses = before.uses ++ [use] ∧ use.route = route ∧
      use.worker = (before.tls.refresh route).cache.worker ∧
      ((before.tls.refresh route).cache.FilledFrom route → Use.IsOwn use) := by
  cases event with
  | getWorker called =>
      cases hcalled
      obtain ⟨hlive, rfl⟩ := RouteThread.step_cases hstep
      obtain ⟨worker, hget, hworker⟩ := Tls.getWorker_eq before.tls route
      rw [hget]
      refine ⟨hlive, rfl, rfl, rfl, id, _, rfl, rfl, hworker.symm, fun hfilled => ?_⟩
      refine ⟨fun handed hhanded => ?_, fun column hmem => nomatch hmem⟩
      exact hfilled.worker handed (hworker.trans hhanded)
  | getRecord memory called entityId =>
      cases hcalled
      obtain ⟨hlive, rfl⟩ := RouteThread.step_cases hstep
      obtain ⟨hcache, hregistered⟩ := Tls.getRecordFromRoute_tls memory route entityId before.tls
      have hfilled : (before.tls.refresh route).cache.FilledFrom route →
          (Tls.getRecordFromRoute memory route entityId before.tls).2.cache.FilledFrom route :=
        fun hrefreshed => hcache ▸ Tls.prepare_filledFrom hrefreshed
      refine ⟨hlive, rfl, rfl, hregistered, hfilled, _, rfl, rfl, ?_, fun hrefreshed => ?_⟩
      · rw [hcache, Tls.prepare_cache]
      · exact ⟨(hfilled hrefreshed).worker, (hfilled hrefreshed).columns⟩
  | create route => cases hcalled
  | drop route => cases hcalled

/-- What is no call leaves the thread's cache alone. -/
theorem step_of_not_call (hstep : RouteThread.step before event = some after)
    (hcalled : event.calledRoute = none) :
    after.tls = before.tls ∧ after.uses = before.uses := by
  cases event with
  | create route =>
      obtain ⟨-, rfl⟩ := RouteThread.step_cases hstep
      exact ⟨rfl, rfl⟩
  | drop route =>
      obtain ⟨-, rfl⟩ := RouteThread.step_cases hstep
      exact ⟨rfl, rfl⟩
  | getWorker route => cases hcalled
  | getRecord memory route entityId => cases hcalled

/-! ## One route's worker for another -/

/-- A cache filled from the route called before serves the next one right if that
follows. -/
theorem refresh_filledFrom {tls : Tls} {previous : Option Route}
    (hempty : previous = none → tls.cache.key = 0)
    (hfilled : ∀ last, previous = some last → tls.cache.FilledFrom last)
    (hfollows : ∀ last, previous = some last → Follows last route) :
    (tls.refresh route).cache.FilledFrom route := by
  by_cases hkey : tls.cache.key = route.address
  · rw [Tls.refresh, if_neg (not_not.mpr hkey)]
    cases hprevious : previous with
    | none => exact absurd (hkey.symm.trans (hempty hprevious)) route.address_ne_zero
    | some last =>
        have hlast := hfilled last hprevious
        have hid : last.id = route.id := hfollows last hprevious (hlast.key.symm.trans hkey)
        exact ⟨hkey, fun worker hworker => (hlast.worker worker hworker).trans hid,
          fun column hmem => (hlast.columns column hmem).trans hid⟩
  · rw [Tls.refresh, if_pos hkey]
    exact Tls.refill_filledFrom tls route

/-- One that does not follow is served with the worker of the other. -/
theorem not_isOwn_of_not_follows {tls : Tls} {last : Route} (hfilled : tls.cache.FilledFrom last)
    (hfollows : ¬Follows last route) {use : Use} (hroute : use.route = route)
    (hworker : use.worker = (tls.refresh route).cache.worker) : ¬Use.IsOwn use := by
  rintro ⟨hown, -⟩
  rw [Follows, Classical.not_imp] at hfollows
  obtain ⟨haddress, hid⟩ := hfollows
  obtain ⟨worker, hcached⟩ := Tls.refresh_worker tls route
  have hsame : tls.refresh route = tls := by
    rw [Tls.refresh, if_neg (not_not.mpr (hfilled.key.trans haddress))]
  have hlast : worker.route = last.id := hfilled.worker worker (hsame ▸ hcached)
  exact hid (hlast.symm.trans ((hown worker (hworker.trans hcached)).trans (congrArg _ hroute)))

/-- What a run says of the cache: it is untouched before the first call, it is
filled from the route called last as long as every call followed the one before,
and the calls were served right just as long. -/
structure Served (events : List ThreadEvent) (state : RouteThread) : Prop where
  untouched : calledRoutes events = [] → state.tls.cache.key = 0
  filled : (calledRoutes events).IsChain Follows → ∀ last,
    (calledRoutes events).getLast? = some last → state.tls.cache.FilledFrom last
  own : (∀ use ∈ state.uses, Use.IsOwn use) ↔ (calledRoutes events).IsChain Follows

theorem isChain_concat {routes : List Route} :
    (routes ++ [route]).IsChain Follows ↔
      routes.IsChain Follows ∧ ∀ last, routes.getLast? = some last → Follows last route := by
  simp [List.isChain_append]

theorem Served.step (hserved : Served events before)
    (hstep : RouteThread.step before event = some after) : Served (events ++ [event]) after := by
  cases hcalled : event.calledRoute with
  | none =>
      obtain ⟨htls, huses⟩ := step_of_not_call hstep hcalled
      have hsame := calledRoutes_concat_of_not_call hcalled events
      constructor
      · rw [hsame, htls]
        exact hserved.untouched
      · rw [hsame, htls]
        exact hserved.filled
      · rw [hsame, huses]
        exact hserved.own
  | some route =>
      obtain ⟨-, -, -, -, hkeeps, use, huses, hroute, hworker, hown⟩ := call_cases hstep hcalled
      have hlonger := calledRoutes_concat_of_call hcalled events
      have hrefreshed : (calledRoutes events).IsChain Follows →
          (∀ last, (calledRoutes events).getLast? = some last → Follows last route) →
            (before.tls.refresh route).cache.FilledFrom route := fun hchain =>
        refresh_filledFrom (fun hnone => hserved.untouched (List.getLast?_eq_none_iff.mp hnone))
          (hserved.filled hchain)
      constructor
      · rw [hlonger]
        intro hnil
        exact absurd hnil (by simp)
      · rw [hlonger, isChain_concat]
        rintro ⟨hchain, hfollows⟩ last hlast
        rw [List.getLast?_concat] at hlast
        cases hlast
        exact hkeeps (hrefreshed hchain hfollows)
      · rw [hlonger, isChain_concat, huses, List.forall_mem_append, List.forall_mem_singleton,
          hserved.own]
        refine and_congr_right fun hchain => ⟨fun hright last hlast => ?_, fun hfollows => ?_⟩
        · by_contra hnot
          exact not_isOwn_of_not_follows (hserved.filled hchain last hlast) hnot hroute hworker
            hright
        · exact hown (hrefreshed hchain hfollows)

theorem served_run (hrun : RouteThread.run RouteThread.start events = some state) :
    Served events state := by
  refine runSteps_induction (motive := Served) ⟨fun _ => rfl, ?_, ?_⟩ ?_ hrun
  · intro _ last hlast
    cases hlast
  · simp [RouteThread.start, calledRoutes]
  · exact fun _ _ _ _ _ hserved hstep => hserved.step hstep

/-- **When a thread is served with what is its route's.** Whatever routes are
created and dropped, every call of the thread gets a worker and columns of the
very route it is made on if and only if no call is made on a route that lies at
the address of the route of the call before and is another. -/
theorem uses_own_iff (hrun : RouteThread.run RouteThread.start events = some state) :
    (∀ use ∈ state.uses, Use.IsOwn use) ↔ (calledRoutes events).IsChain Follows :=
  (served_run hrun).own

/-- A route is given the address of a dropped one, and another is called in between. -/
def calledBetween : List ThreadEvent :=
  [.create firstRoute, .getRecord emptyColumns firstRoute 7, .drop firstRoute,
    .create thirdRoute, .getWorker thirdRoute, .create secondRoute,
    .getRecord emptyColumns secondRoute 7]

theorem uses_own_iff_calledBetween :
    ∃ state, RouteThread.run RouteThread.start calledBetween = some state ∧
      state.uses.length = 3 ∧ ∀ use ∈ state.uses, Use.IsOwn use := by
  obtain ⟨state, hrun, huses⟩ : ∃ state,
      RouteThread.run RouteThread.start calledBetween = some state ∧ state.uses.length = 3 :=
    ⟨_, rfl, rfl⟩
  refine ⟨state, hrun, huses, (uses_own_iff hrun).mpr ?_⟩
  show [firstRoute, thirdRoute, secondRoute].IsChain Follows
  simp [Follows, firstRoute, secondRoute, thirdRoute]

/-- A read through a route that was given the address of a dropped one is served
with the worker and the columns of that one. -/
theorem not_isOwn_of_reusedAddress :
    ∃ state, RouteThread.run RouteThread.start
        [.create firstRoute, .getRecord emptyColumns firstRoute 7, .drop firstRoute,
          .create secondRoute, .getRecord emptyColumns secondRoute 7] = some state ∧
      ∃ use ∈ state.uses, use.route = secondRoute ∧ use.worker = some ⟨firstRoute.id, 0⟩ ∧
        use.columns = [⟨firstRoute.id, 0⟩, ⟨firstRoute.id, 1⟩, ⟨firstRoute.id, 2⟩] ∧
          ¬Use.IsOwn use := by
  refine ⟨_, rfl, _, List.mem_of_getLast? rfl, rfl, rfl, rfl, fun hown => ?_⟩
  exact absurd (hown.1 _ rfl) (by decide)

/-! ## Registrations -/

/-- The routes of a run that drops none: all that are called are there, and no
two that are there have an address or an identity in common. -/
structure Kept (events : List ThreadEvent) (state : RouteThread) : Prop where
  called : ∀ route ∈ calledRoutes events, route ∈ state.live
  created : ∀ route ∈ state.live, route.id ∈ state.created
  apart : ∀ first ∈ state.live, ∀ second ∈ state.live,
    first.address = second.address ↔ first.id = second.id
  chain : (calledRoutes events).IsChain Follows
  registered : state.tls.registered = visits ((calledRoutes events).map Route.id)

theorem Kept.create (hkept : Kept events before)
    (hstep : RouteThread.step before (.create route) = some after) :
    Kept (events ++ [.create route]) after := by
  obtain ⟨⟨hfresh, haddress⟩, rfl⟩ := RouteThread.step_cases hstep
  have hsame : calledRoutes (events ++ [.create route]) = calledRoutes events :=
    calledRoutes_concat_of_not_call rfl events
  constructor
  · rw [hsame]
    exact fun called hcalled => List.mem_append_left _ (hkept.called called hcalled)
  · intro other hother
    rcases List.mem_append.mp hother with hold | hnew
    · exact List.mem_append_left _ (hkept.created other hold)
    · cases List.mem_singleton.mp hnew
      exact List.mem_append_right _ (by simp)
  · have hnew : ∀ other ∈ before.live, (other.address = route.address ↔ other.id = route.id) :=
      fun other hother => iff_of_false (haddress other hother) fun hid =>
        hfresh (hid ▸ hkept.created other hother)
    intro first hfirst second hsecond
    simp only [List.mem_append, List.mem_singleton] at hfirst hsecond
    rcases hfirst with hfirst | rfl <;> rcases hsecond with hsecond | rfl
    · exact hkept.apart first hfirst second hsecond
    · exact hnew first hfirst
    · rw [eq_comm, hnew second hsecond, eq_comm]
    · exact iff_of_true rfl rfl
  · rw [hsame]
    exact hkept.chain
  · rw [hsame]
    exact hkept.registered

/-- The cache lies under the address of a route that is there just if that is the
route called last. -/
theorem Kept.key_eq_iff (hkept : Kept events before) (hserved : Served events before)
    (hlive : route ∈ before.live) :
    before.tls.cache.key = route.address ↔
      ((calledRoutes events).map Route.id).getLast? = some route.id := by
  rw [List.getLast?_map]
  cases hlast : (calledRoutes events).getLast? with
  | none =>
      have huntouched := hserved.untouched (List.getLast?_eq_none_iff.mp hlast)
      exact iff_of_false (fun hkey => route.address_ne_zero (hkey.symm.trans huntouched)) (by simp)
  | some last =>
      rw [(hserved.filled hkept.chain last hlast).key,
        hkept.apart last (hkept.called last (List.mem_of_getLast? hlast)) route hlive]
      simp

theorem Kept.call (hkept : Kept events before) (hserved : Served events before)
    (hstep : RouteThread.step before event = some after)
    (hcalled : event.calledRoute = some route) : Kept (events ++ [event]) after := by
  obtain ⟨hlive, hsame, hcreated, hregistered, -, -⟩ := call_cases hstep hcalled
  have hlonger := calledRoutes_concat_of_call hcalled events
  constructor
  · rw [hlonger, hsame]
    intro called hmem
    rcases List.mem_append.mp hmem with hold | hnew
    · exact hkept.called called hold
    · exact List.mem_singleton.mp hnew ▸ hlive
  · rw [hsame, hcreated]
    exact hkept.created
  · rw [hsame]
    exact hkept.apart
  · rw [hlonger, isChain_concat]
    refine ⟨hkept.chain, fun last hlast => ?_⟩
    exact (hkept.apart last (hkept.called last (List.mem_of_getLast? hlast)) route hlive).mp
  · have hkey := hkept.key_eq_iff hserved hlive
    rw [hregistered, hlonger, List.map_append, List.map_singleton, visits_concat,
      getLast?_visits, Tls.refresh, ← hkept.registered]
    by_cases hagain : before.tls.cache.key = route.address
    · rw [if_neg (not_not.mpr hagain), if_pos (hkey.mp hagain)]
    · rw [if_pos hagain, if_neg (mt hkey.mpr hagain)]
      rfl

theorem kept_run (hrun : RouteThread.run RouteThread.start events = some state)
    (hdropless : ∀ route, .drop route ∉ events) : Kept events state := by
  revert hdropless
  refine runSteps_induction (motive := fun events state =>
    (∀ route, ThreadEvent.drop route ∉ events) → Kept events state) ?_ ?_ hrun
  · intro _
    constructor <;> simp [RouteThread.start, calledRoutes, Tls.start, visits]
  intro events before event after hbefore ih hstep hdropless
  have hkept := ih fun route hmem => hdropless route (List.mem_append_left _ hmem)
  cases event with
  | create route => exact hkept.create hstep
  | drop route =>
      exact absurd (List.mem_append_right _ (List.mem_singleton_self _)) (hdropless route)
  | getWorker route => exact hkept.call (served_run hbefore) hstep rfl
  | getRecord memory route entityId => exact hkept.call (served_run hbefore) hstep rfl

/-- **When a thread registers with each route at most once.** While no route is
dropped, in any order of calls on any number of routes, this is so if and only if
the thread never comes back to a route after calling another. -/
theorem registered_once_iff (hrun : RouteThread.run RouteThread.start events = some state)
    (hdropless : ∀ route, .drop route ∉ events) :
    (∀ id, state.tls.registered.count id ≤ 1) ↔
      NeverReturns ((calledRoutes events).map Route.id) := by
  rw [(kept_run hrun hdropless).registered, ← List.nodup_iff_count_le_one, nodup_visits_iff]

/-- Calls on two routes, one after the other. -/
def calledInTurn : List ThreadEvent :=
  [.create firstRoute, .create thirdRoute, .getWorker firstRoute,
    .getRecord emptyColumns firstRoute 7, .getWorker thirdRoute]

theorem registered_once_iff_calledInTurn :
    ∃ state, RouteThread.run RouteThread.start calledInTurn = some state ∧
      ((∀ id, state.tls.registered.count id ≤ 1) ↔
        NeverReturns ((calledRoutes calledInTurn).map Route.id)) := by
  obtain ⟨state, hrun⟩ : ∃ state, RouteThread.run RouteThread.start calledInTurn = some state :=
    ⟨_, rfl⟩
  exact ⟨state, hrun, registered_once_iff hrun (by simp [calledInTurn])⟩

/-- A thread that comes back to a route registers with it again. -/
theorem registeredTwice_of_return :
    ∃ state, RouteThread.run RouteThread.start
        [.create firstRoute, .create thirdRoute, .getWorker firstRoute, .getWorker thirdRoute,
          .getWorker firstRoute] = some state ∧
      state.live = [firstRoute, thirdRoute] ∧
        ¬state.tls.registered.count firstRoute.id ≤ 1 :=
  ⟨_, rfl, rfl, by decide⟩

end ServerGo.Analysis
