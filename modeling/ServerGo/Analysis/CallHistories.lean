/-
# Two histories beside each other

The tasks, the network and the writer go through a history of unsynchronised steps,
and beside it a server whose calls of the store are one step goes through its own. The
invariant says where each task stands in both: a put acts when it stores its slot, a
get not before it has returned. When a get returns that has waited, its answer is put
where it belongs, at a moment that has passed.
-/

import ServerGo.Analysis.AtomicReads
import ServerGo.Gateway.Nodes
import ServerGo.Gateway.Threads

namespace ServerGo.Analysis

open ServerGo.Gateway ServerGo.Math ServerGo.Storage

variable {DB : Type} {n : Nat} [CdDB DB]

/-- The server whose calls are one step has the same channels, a get made at once finds
the same in its store, and its tasks stand where they stand among the threads, but that
it may be done with calls that are under way there. -/
structure UpToCalls (hashes : Hashes) (state : Threads DB n) (server : Server (TieredStore DB) n) :
    Prop where
  serial : server.world.serial = state.gateway.world.serial
  get : ∀ key, L2Executor.get hashes server.world.storage key =
    L2Executor.get hashes state.workers.store key
  task : ∀ id, SameTask state.gateway server id ∨ state.phase id ≠ .idle ∧
    ∃ action effect, action.Causes effect ∧ IsAhead state.gateway server id action effect

/-- The events of the threads so far, each with what the server whose calls are one step
does meanwhile, have led to these two. -/
def Reaches (hashes : Hashes) (settings : SecuritySettings) (db : DB)
    (serial : Fin n → SerialChannel) (joint : List (ThreadsEvent n × List (NodeEvent n)))
    (state : Threads DB n) (server : Server (TieredStore DB) n) : Prop :=
  Threads.run hashes settings (Threads.start db serial) (joint.map Prod.fst) = some state ∧
    Server.runNode hashes settings (Server.start ⟨TieredStore.new db, [], serial⟩)
      (joint.flatMap Prod.snd) = some server

variable {hashes : Hashes} {settings : SecuritySettings} {db : DB}
  {serial : Fin n → SerialChannel} {joint : List (ThreadsEvent n × List (NodeEvent n))}
  {state after : Threads DB n} {server next : Server (TieredStore DB) n}

theorem Reaches.concat (hreaches : Reaches hashes settings db serial joint state server)
    {event : ThreadsEvent n} {block : List (NodeEvent n)}
    (hstep : Threads.step hashes settings state event = some after)
    (hblock : Server.runNode hashes settings server block = some next) :
    Reaches hashes settings db serial (joint ++ [(event, block)]) after next := by
  refine ⟨?_, ?_⟩
  · rw [List.map_append]
    exact runSteps_trans hreaches.1 (by rw [List.map_singleton, runSteps_cons, hstep]; rfl)
  · rw [List.flatMap_append, List.flatMap_singleton]
    exact runSteps_trans hreaches.2 hblock

/-- What is reached is one state and one server. -/
theorem Reaches.unique (hreaches : Reaches hashes settings db serial joint state server)
    (hother : Reaches hashes settings db serial joint after next) :
    after = state ∧ next = server :=
  ⟨Option.some.inj (hother.1.symm.trans hreaches.1),
    Option.some.inj (hother.2.symm.trans hreaches.2)⟩

/-! ## What holds after every step -/

/-- Where a task stands, by where it is in its call: a put acts when it stores its slot,
a get not before it has returned. -/
def Stands (state : Threads DB n) (server : Server (TieredStore DB) n) (id : Nat) : Prop :=
  match state.phase id with
  | .idle => SameTask state.gateway server id
  | .applying _ => ∃ key val, IsAhead state.gateway server id (.put key val) (.applied key val)
  | .reading _ _ => SameTask state.gateway server id

/-- Since a get found its slot empty, nothing has happened to its task. -/
def HasWaited (hashes : Hashes) (settings : SecuritySettings) (db : DB)
    (serial : Fin n → SerialChannel) (joint : List (ThreadsEvent n × List (NodeEvent n)))
    (state : Threads DB n) (id started : Nat) : Prop :=
  ∀ sofar between earlier, sofar <+: joint →
    Reaches hashes settings db serial sofar between earlier → started < between.workers.clock →
      between.phase id ≠ .idle ∧ SameTask state.gateway between.gateway id ∧
        SameTask state.gateway earlier id

/-- The same records have been stored in the slots, in the same order. -/
def SameStores (hashes : Hashes) (db : DB) (state : Threads DB n)
    (server : Server (TieredStore DB) n) : Prop :=
  ∃ trace calls, Workers.run hashes (Workers.start db) trace = some state.workers ∧
    server.world.storage = Call.run hashes (TieredStore.new db) calls ∧
    calls.filterMap (Call.record? hashes) = trace.filterMap WorkerEvent.stored?

/-- The invariant, with one task left out that may have got its answer already. -/
structure Matched (hashes : Hashes) (settings : SecuritySettings) (db : DB)
    (serial : Fin n → SerialChannel) (done : Option Nat)
    (joint : List (ThreadsEvent n × List (NodeEvent n))) (state : Threads DB n)
    (server : Server (TieredStore DB) n) : Prop where
  reaches : Reaches hashes settings db serial joint state server
  sofar : ∀ sofar, sofar <+: joint → ∃ between earlier,
    Reaches hashes settings db serial sofar between earlier ∧ UpToCalls hashes between earlier
  channels : server.world.serial = state.gateway.world.serial
  stores : SameStores hashes db state server
  stands : ∀ id, done ≠ some id → Stands state server id
  waited : ∀ id key started, done ≠ some id → state.phase id = .reading key started →
    HasWaited hashes settings db serial joint state id started

/-- A get made at once finds the same in both. -/
theorem SameStores.get [LawfulCdDB DB] (hstores : SameStores hashes db state server)
    (hidle : CdDB.IsIdle db) (key : Bytes) :
    L2Executor.get hashes server.world.storage key =
      L2Executor.get hashes state.workers.store key := by
  obtain ⟨trace, calls, htrace, hstorage, hrecords⟩ := hstores
  rw [hstorage, TieredStore.get_run hidle, get_of_workers_run hidle htrace, lastInSlot_eq_latest,
    hrecords, latest_filterMap]
  simp only [← WorkerEvent.storedIn_eq_bind]

theorem SameStores.concat (hstores : SameStores hashes db state server)
    {event : WorkerEvent Caller}
    (hstep : Workers.step hashes state.workers event = some after.workers) {calls : List Call}
    (hserver : next.world.storage = Call.run hashes server.world.storage calls)
    (hrecords : calls.filterMap (Call.record? hashes) = event.stored?.toList) :
    SameStores hashes db after next := by
  obtain ⟨trace, earlier, htrace, hstorage, hsame⟩ := hstores
  refine ⟨trace ++ [event], earlier ++ calls,
    runSteps_concat_eq_some.mpr ⟨state.workers, htrace, hstep⟩, ?_, ?_⟩
  · rw [hserver, hstorage, Call.run, Call.run, Call.run, List.foldl_append]
  · rw [List.filterMap_append, hsame, hrecords, filterMap_concat_eq_append]

omit [CdDB DB] in
/-- Wherever it is in its call, a task stands where it may stand. -/
theorem Stands.upToCalls {id : Nat} (hstands : Stands state server id) :
    SameTask state.gateway server id ∨ state.phase id ≠ .idle ∧
      ∃ action effect, action.Causes effect ∧ IsAhead state.gateway server id action effect := by
  rw [Stands] at hstands
  cases hphase : state.phase id with
  | idle =>
      rw [hphase] at hstands
      exact Or.inl hstands
  | applying record =>
      rw [hphase] at hstands
      obtain ⟨key, val, hahead⟩ := hstands
      exact Or.inr ⟨by simp, .put key val, .applied key val, .applied key val, hahead⟩
  | reading key started =>
      rw [hphase] at hstands
      exact Or.inl hstands

/-- An event does not concern a task. -/
structure Untouched (state after : Threads DB n) (server next : Server (TieredStore DB) n)
    (id : Nat) : Prop where
  phase : after.phase id = state.phase id
  gateway : SameTask state.gateway after.gateway id
  server : SameTask server next id

omit [CdDB DB] in
theorem Untouched.stands {id : Nat} (huntouched : Untouched state after server next id)
    (hstands : Stands state server id) : Stands after next id := by
  have hsame : SameTask state.gateway server id → SameTask after.gateway next id := fun hsame =>
    huntouched.gateway.symm.trans (hsame.trans huntouched.server)
  rw [Stands] at hstands ⊢
  rw [huntouched.phase]
  cases hphase : state.phase id with
  | idle =>
      rw [hphase] at hstands
      exact hsame hstands
  | applying record =>
      rw [hphase] at hstands
      obtain ⟨key, val, workerId, request, rest, hput, hdone, heffects⟩ := hstands
      refine ⟨key, val, workerId, request, rest, ?_, ?_, ?_⟩
      · rw [huntouched.gateway.1, hput]
      · rw [huntouched.server.1, hdone]
      · rw [huntouched.server.2, huntouched.gateway.2, heffects]
  | reading key started =>
      rw [hphase] at hstands
      exact hsame hstands

theorem Matched.upToCalls [LawfulCdDB DB] (hidle : CdDB.IsIdle db)
    (hmatched : Matched hashes settings db serial none joint state server) :
    UpToCalls hashes state server where
  serial := hmatched.channels
  get := hmatched.stores.get hidle
  task id := (hmatched.stands id (by simp)).upToCalls

/-- What is reached later has the later clock. -/
theorem Reaches.clock_le {sofar : List (ThreadsEvent n × List (NodeEvent n))}
    {between : Threads DB n} {earlier : Server (TieredStore DB) n}
    (hreaches : Reaches hashes settings db serial joint state server) (hsofar : sofar <+: joint)
    (hbetween : Reaches hashes settings db serial sofar between earlier) :
    between.workers.clock ≤ state.workers.clock := by
  obtain ⟨later, hlater⟩ := exists_later_of_prefix hreaches.1 (hsofar.map Prod.fst) hbetween.1
  exact Threads.clock_le_run hlater

/-- **A step keeps the invariant** when it keeps the channels and the stores alike, and
each task is untouched or stands where it may, with no get that has waited before. -/
theorem Matched.concat [LawfulCdDB DB] (hidle : CdDB.IsIdle db) {done : Option Nat}
    (hmatched : Matched hashes settings db serial done joint state server) {event : ThreadsEvent n}
    {block : List (NodeEvent n)} (hstep : Threads.step hashes settings state event = some after)
    (hblock : Server.runNode hashes settings server block = some next)
    (hserial : next.world.serial = after.gateway.world.serial)
    (hstores : SameStores hashes db after next)
    (htasks : ∀ id, (done ≠ some id ∧ Untouched state after server next id) ∨
      (Stands after next id ∧ ∀ key started, after.phase id = .reading key started →
        state.workers.clock ≤ started)) :
    Matched hashes settings db serial none (joint ++ [(event, block)]) after next := by
  have hreaches := hmatched.reaches.concat hstep hblock
  have hstands : ∀ id, Stands after next id := fun id =>
    (htasks id).elim (fun huntouched => huntouched.2.stands (hmatched.stands id huntouched.1))
      And.left
  have halike : UpToCalls hashes after next :=
    ⟨hserial, hstores.get hidle, fun id => (hstands id).upToCalls⟩
  refine ⟨hreaches, ?_, hserial, hstores, fun id _ => hstands id, ?_⟩
  · intro sofar hsofar
    rcases List.prefix_concat_iff.mp hsofar with rfl | hearlier
    · exact ⟨after, next, hreaches, halike⟩
    · exact hmatched.sofar sofar hearlier
  · intro id key started _ hphase sofar between earlier hsofar hbetween hlate
    rcases List.prefix_concat_iff.mp hsofar with rfl | hearlier
    · obtain ⟨rfl, rfl⟩ := hreaches.unique hbetween
      have hstanding := hstands id
      rw [Stands, hphase] at hstanding
      exact ⟨by rw [hphase]; simp, .refl _ _, hstanding⟩
    · rcases htasks id with ⟨hdone, huntouched⟩ | ⟨-, hfresh⟩
      · obtain ⟨hwaiting, hgateway, hserver⟩ := hmatched.waited id key started hdone
          (huntouched.phase ▸ hphase) sofar between earlier hearlier hbetween hlate
        exact ⟨hwaiting, huntouched.gateway.symm.trans hgateway,
          huntouched.gateway.symm.trans hserver⟩
      · have hclock := hmatched.reaches.clock_le hearlier hbetween
        have hstart := hfresh key started hphase
        omega

/-! ## A get that has waited -/

theorem exists_reaches_of_concat {event : ThreadsEvent n} {block : List (NodeEvent n)}
    (hreaches : Reaches hashes settings db serial (joint ++ [(event, block)]) after next) :
    ∃ state server, Reaches hashes settings db serial joint state server ∧
      Threads.step hashes settings state event = some after ∧
      Server.runNode hashes settings server block = some next := by
  obtain ⟨hthreads, hserver⟩ := hreaches
  rw [List.map_append, List.map_singleton] at hthreads
  rw [List.flatMap_append, List.flatMap_singleton] at hserver
  obtain ⟨state, hstate, hstep⟩ := runSteps_concat_eq_some.mp hthreads
  rw [Server.runNode, runSteps_append, Option.bind_eq_some_iff] at hserver
  obtain ⟨server, hbefore, hblock⟩ := hserver
  exact ⟨state, server, ⟨hstate, hbefore⟩, hstep, hblock⟩

/-- What begins a history with something in its midst begins before it or goes on
behind it. -/
theorem prefix_append_cons_cases {α : Type} {first later sofar : List α} {middle : α}
    (hsofar : sofar <+: first ++ middle :: later) :
    sofar <+: first ∨ ∃ since, since <+: later ∧ sofar = first ++ middle :: since := by
  rcases List.prefix_or_prefix_of_prefix hsofar (List.prefix_append first (middle :: later)) with
    hshort | ⟨since, rfl⟩
  · exact Or.inl hshort
  · rw [List.prefix_append_right_inj] at hsofar
    rcases List.prefix_cons_iff.mp hsofar with rfl | ⟨since, rfl, hsince⟩
    · exact Or.inl (by simp)
    · exact Or.inr ⟨since, hsince, rfl⟩

section

variable {id workerId started : Nat} {request : GatewayRequest} {key : Bytes}
  {rest : List (Action n)} {first later : List (ThreadsEvent n × List (NodeEvent n))}
  {event : ThreadsEvent n} {block : List (NodeEvent n)} {between : Threads DB n}
  {earlier : Server (TieredStore DB) n}

/-- The get could have been answered at any moment since it began to wait: all that
followed would have been the same. -/
theorem Matched.exists_answered
    (hmatched : Matched hashes settings db serial none (first ++ (event, block) :: later) state
      server)
    (hphase : state.phase id = .reading key started)
    (htask : state.gateway.task id = some ⟨workerId, request, .get key :: rest⟩)
    (hbetween : Reaches hashes settings db serial (first ++ [(event, block)]) between earlier)
    (hlate : started < between.workers.clock)
    {since : List (ThreadsEvent n × List (NodeEvent n))} (hsince : since <+: later)
    {now : Threads DB n} {meanwhile : Server (TieredStore DB) n}
    (hnow : Reaches hashes settings db serial (first ++ (event, block) :: since) now meanwhile) :
    ∃ ahead,
      Reaches hashes settings db serial
        (first ++ (event, block ++ [.serve (.act id)]) :: since) now ahead ∧
      AnsweredAhead id ⟨workerId, request, rest⟩
        (.replied (.bulkString (L2Executor.get hashes between.workers.store key)))
        meanwhile ahead := by
  have hwaited := hmatched.waited id key started (by simp) hphase
  -- where the history stands when the answer is given, and at any moment since
  have hthere : first ++ [(event, block)] <+: first ++ (event, block) :: later :=
    (List.prefix_append_right_inj first).mpr (List.prefix_append [(event, block)] later)
  induction since using List.reverseRecOn generalizing now meanwhile with
  | nil =>
      obtain ⟨rfl, rfl⟩ := hnow.unique hbetween
      obtain ⟨there, server, hthere', halike⟩ := hmatched.sofar _ hthere
      obtain ⟨rfl, rfl⟩ := hthere'.unique hbetween
      obtain ⟨-, -, hsame⟩ := hwaited _ _ _ hthere hbetween hlate
      have hasked := hsame.1.trans htask
      have hanswer : Server.runNode hashes settings earlier [.serve (.act id)] =
          some (earlier.advance hashes id ⟨workerId, request, rest⟩
            (.replied (.bulkString (L2Executor.get hashes between.workers.store key)))) :=
        runNode_serve (halike.get key ▸ step_get hasked)
      obtain ⟨before, server, hbefore, hstep, hblock⟩ := exists_reaches_of_concat hbetween
      exact ⟨_, hbefore.concat hstep (runSteps_trans hblock hanswer), answeredAhead_advance hasked⟩
  | append_singleton since last ih =>
      have hassoc : ∀ block : List (NodeEvent n), first ++ (event, block) :: (since ++ [last]) =
          first ++ (event, block) :: since ++ [last] := by simp
      rw [hassoc] at hnow ⊢
      obtain ⟨before, server, hbefore, hstep, hblock⟩ := exists_reaches_of_concat hnow
      obtain ⟨ahead, hahead, hanswered⟩ :=
        ih ((List.prefix_append ..).trans hsince) hbefore
      have hlonger : first ++ (event, block) :: since ++ [last] <+:
          first ++ (event, block) :: later := by
        rw [← hassoc, List.prefix_append_right_inj, List.prefix_cons_inj]
        exact hsince
      have hshorter := (List.prefix_append _ [last]).trans hlonger
      have hsofar : first ++ [(event, block)] <+: first ++ (event, block) :: since :=
        (List.prefix_append_right_inj first).mpr (List.prefix_append [(event, block)] since)
      -- nothing happens to the task meanwhile
      have hquiet : effectsOf id meanwhile.log = effectsOf id server.log := by
        have hclock := hbefore.clock_le hsofar hbetween
        have hlater := hnow.clock_le (List.prefix_append _ [last]) hbefore
        obtain ⟨-, -, hthen⟩ := hwaited _ _ _ hshorter hbefore (by omega)
        obtain ⟨-, -, hafter⟩ := hwaited _ _ _ hlonger hnow (by omega)
        rw [hafter.2, hthen.2]
      obtain ⟨next, hnext, hboth⟩ := hanswered.run hblock hquiet
      exact ⟨next, hahead.concat hstep hnext, hboth⟩

/-- To all moments since, with the answer given, belongs one without it. -/
theorem Matched.exists_past
    (hmatched : Matched hashes settings db serial none (first ++ (event, block) :: later) state
      server)
    (hphase : state.phase id = .reading key started)
    (htask : state.gateway.task id = some ⟨workerId, request, .get key :: rest⟩)
    (hbetween : Reaches hashes settings db serial (first ++ [(event, block)]) between earlier)
    (hlate : started < between.workers.clock)
    {past : List (ThreadsEvent n × List (NodeEvent n))}
    (hpast : past <+: first ++ (event, block ++ [.serve (.act id)]) :: later) :
    ∃ before now server ahead, before <+: first ++ (event, block) :: later ∧
      Reaches hashes settings db serial before now server ∧ UpToCalls hashes now server ∧
      Reaches hashes settings db serial past now ahead ∧
      (ahead = server ∨ started < now.workers.clock ∧ AnsweredAhead id ⟨workerId, request, rest⟩
        (.replied (.bulkString (L2Executor.get hashes between.workers.store key))) server
          ahead) := by
  rcases prefix_append_cons_cases hpast with hfirst | ⟨since, hsince, rfl⟩
  · have hbefore := hfirst.trans (List.prefix_append first ((event, block) :: later))
    obtain ⟨now, server, hnow, halike⟩ := hmatched.sofar past hbefore
    exact ⟨past, now, server, server, hbefore, hnow, halike, hnow, Or.inl rfl⟩
  · have hbefore : first ++ (event, block) :: since <+: first ++ (event, block) :: later := by
      rw [List.prefix_append_right_inj, List.prefix_cons_inj]
      exact hsince
    have hsofar : first ++ [(event, block)] <+: first ++ (event, block) :: since :=
      (List.prefix_append_right_inj first).mpr (List.prefix_append [(event, block)] since)
    obtain ⟨now, server, hnow, halike⟩ := hmatched.sofar _ hbefore
    obtain ⟨ahead, hahead, hanswered⟩ :=
      hmatched.exists_answered hphase htask hbetween hlate hsince hnow
    have hclock := hnow.clock_le hsofar hbetween
    exact ⟨_, now, server, ahead, hbefore, hnow, halike, hahead, Or.inr ⟨by omega, hanswered⟩⟩

/-- **An answer may be put where it belongs.** -/
theorem Matched.answer
    (hmatched : Matched hashes settings db serial none joint state server)
    (hphase : state.phase id = .reading key started)
    (htask : state.gateway.task id = some ⟨workerId, request, .get key :: rest⟩)
    {sofar : List (ThreadsEvent n × List (NodeEvent n))} (hsofar : sofar <+: joint)
    (hbetween : Reaches hashes settings db serial sofar between earlier)
    (hlate : started < between.workers.clock) :
    ∃ joint' ahead, joint'.map Prod.fst = joint.map Prod.fst ∧
      Matched hashes settings db serial (some id) joint' state ahead ∧
      IsAhead state.gateway ahead id (.get key)
        (.replied (.bulkString (L2Executor.get hashes between.workers.store key))) := by
  -- the clock has moved, so something has happened by then
  obtain ⟨first, ⟨event, block⟩, rfl⟩ : ∃ first last, sofar = first ++ [last] := by
    rcases List.eq_nil_or_concat sofar with rfl | ⟨first, last, hsofar⟩
    · cases hbetween.1
      exact absurd hlate (Nat.not_lt_zero started)
    · exact ⟨first, last, by rw [hsofar, List.concat_eq_append]⟩
  obtain ⟨later, rfl⟩ := hsofar
  rw [List.append_assoc, List.singleton_append] at hmatched ⊢
  have hwaited := hmatched.waited id key started (by simp) hphase
  obtain ⟨ahead, hahead, hanswered⟩ :=
    hmatched.exists_answered hphase htask hbetween hlate List.prefix_rfl hmatched.reaches
  have hstands := hmatched.stands id (by simp)
  rw [Stands, hphase] at hstands
  refine ⟨first ++ (event, block ++ [.serve (.act id)]) :: later, ahead, by simp, ?_,
    hanswered.isAhead hstands htask⟩
  refine ⟨hahead, ?_, hanswered.world ▸ hmatched.channels, ?_, ?_, ?_⟩
  · intro past hpast
    obtain ⟨before, now, server, ahead, hbefore, hnow, halike, hthere, hcases⟩ :=
      hmatched.exists_past hphase htask hbetween hlate hpast
    rcases hcases with rfl | ⟨hclock, hanswered⟩
    · exact ⟨now, ahead, hthere, halike⟩
    obtain ⟨hwaiting, hgateway, hserver⟩ := hwaited before now server hbefore hnow hclock
    refine ⟨now, ahead, hthere, hanswered.world ▸ halike.serial, hanswered.world ▸ halike.get,
      fun other => ?_⟩
    by_cases hother : other = id
    · subst hother
      exact Or.inr ⟨hwaiting, .get key, _, .answered key _,
        hanswered.isAhead (hgateway.symm.trans hserver) (hgateway.1.trans htask)⟩
    · have hsame := hanswered.sameTask hother
      rcases halike.task other with hboth | ⟨hcalling, action, effect, hcause, hdone⟩
      · exact Or.inl (hboth.trans hsame)
      · exact Or.inr ⟨hcalling, action, effect, hcause, hdone.trans_sameTask hsame⟩
  · obtain ⟨trace, calls, htrace, hstorage, hrecords⟩ := hmatched.stores
    exact ⟨trace, calls, htrace, hanswered.world ▸ hstorage, hrecords⟩
  · intro other hother
    have hne : other ≠ id := fun hsame => hother (congrArg some hsame.symm)
    exact Untouched.stands ⟨rfl, .refl _ _, hanswered.sameTask hne⟩
      (hmatched.stands other (by simp))
  · intro other asked since hother hreading past now' server' hpast hreaches hclock
    have hne : other ≠ id := fun hsame => hother (congrArg some hsame.symm)
    obtain ⟨before, now, server, ahead, hbefore, hnow, -, hthere, hcases⟩ :=
      hmatched.exists_past hphase htask hbetween hlate hpast
    obtain ⟨rfl, rfl⟩ := hthere.unique hreaches
    obtain ⟨hwaiting, hgateway, hserver⟩ :=
      hmatched.waited other asked since (by simp) hreading before _ server hbefore hnow hclock
    refine ⟨hwaiting, hgateway, ?_⟩
    rcases hcases with rfl | ⟨-, hanswered⟩
    · exact hserver
    · exact hserver.trans (hanswered.sameTask hne)

end

end ServerGo.Analysis
