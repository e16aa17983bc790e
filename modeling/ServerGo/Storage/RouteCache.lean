/-
# The thread-local worker cache

To read the columns of a partition a thread needs a worker registered with its
route, and it holds the worker's pin while it reads. Each thread keeps the worker
and the three columns it used last, under the address of the route they came
from. The cache keeps no route alive, so an address may come to stand for another
route while the cache still holds what belongs to the one before.

A route is known by an identity of its own here, which no step looks at; workers
and columns are named after the route that gave them out.
-/

import ServerGo.Storage.TieredStore

namespace ServerGo.Storage

/-- An `Arc<PartitionRoute>`: which route it is, and where it lies. An `Arc` is
never null. -/
structure Route where
  id : Nat
  address : UInt64
  address_ne_zero : address ≠ 0
  deriving DecidableEq

/-- An `Arc<WorkerState>`: the registration with a route it comes from. -/
structure Worker where
  route : Nat
  number : Nat
  deriving DecidableEq

/-- An `Arc<ColumnArray>`: one of the columns of a route. -/
structure Column where
  route : Nat
  number : Nat
  deriving DecidableEq

/-- What a route presents to a reader at one moment. -/
structure RouteView where
  /-- `shared_pointers`: for each entity, the `attribute_indices` of its pointer.
  -/
  pointers : EntityId → Option (String → Option Nat)
  /-- `get_column_blob`. -/
  columnBlob : String → Option Nat
  /-- `get_column_int`. -/
  columnInt : String → Option Nat
  /-- `get_element_pinned` of a blob column. -/
  blobAt : Nat → Nat → Option Bytes
  /-- `get_element_pinned` of an integer column. -/
  intAt : Nat → Nat → Option UInt32

/-- What every route presents; a column outlives its route as long as it is
held. -/
abbrev Memory := Nat → RouteView

/-! ## The session read -/

namespace RouteView

variable (view : RouteView) (entityId : EntityId)

/-- `QuerySession::get_blob`. -/
def getBlob (name : String) : Option Bytes :=
  (view.pointers entityId).bind fun attributeIndices =>
    (attributeIndices name).bind fun index =>
      (view.columnBlob name).bind fun column => view.blobAt column index

/-- `QuerySession::get_int`. -/
def getInt (name : String) : Option UInt32 :=
  (view.pointers entityId).bind fun attributeIndices =>
    (attributeIndices name).bind fun index =>
      (view.columnInt name).bind fun column => view.intAt column index

/-- What a session reads at an entity. -/
def row : Row where
  payload := view.getBlob entityId "payload"
  epoch := view.getInt entityId "epoch"
  type := view.getInt entityId "type"

/-- The cold path of `TieredStore::get_record`. -/
def sessionRead : Option SignedRecord := (view.row entityId).toSigned

end RouteView

/-! ## The cache -/

/-- `TlsWorkerCache`. A cache that has been filled holds a worker. -/
structure TlsWorkerCache where
  key : UInt64
  worker : Option Worker
  colPayload : Option Column
  colEpoch : Option Column
  colType : Option Column
  hasWorker : key ≠ 0 → worker.isSome

/-- `WORKER_CACHE` before its first use. -/
def TlsWorkerCache.empty : TlsWorkerCache where
  key := 0
  worker := none
  colPayload := none
  colEpoch := none
  colType := none
  hasWorker hkey := absurd rfl hkey

/-- What a thread does to the pin of a worker. -/
inductive Pin
  | enter (worker : Worker)
  | leave (worker : Worker)
  deriving DecidableEq

/-- The cache of a thread, the routes on which it has called `register_worker`,
and what it has done to pins, oldest first. -/
structure Tls where
  cache : TlsWorkerCache
  registered : List Nat
  pins : List Pin

namespace Tls

/-- A thread that has not touched its cache. -/
def start : Tls := ⟨.empty, [], []⟩

/-- The worker the next registration with a route returns. -/
def nextWorker (tls : Tls) (route : Route) : Worker := ⟨route.id, tls.registered.count route.id⟩

/-- `register_worker`, and a cache refilled for its route. -/
def refill (tls : Tls) (route : Route) : Tls where
  cache := {
    key := route.address
    worker := some (tls.nextWorker route)
    colPayload := none
    colEpoch := none
    colType := none
    hasWorker := fun _ => rfl }
  registered := tls.registered ++ [route.id]
  pins := tls.pins

/-- `get_worker`. -/
def getWorker (tls : Tls) (route : Route) : Worker × Tls :=
  if tls.cache.key = route.address then
    match tls.cache.worker with
    | some worker => (worker, tls)
    | none => (tls.nextWorker route, tls.refill route)
  else (tls.nextWorker route, tls.refill route)

/-! ## The pre-resolved read -/

/-- The first step of `get_record_from_route`: a cache of another address is
refilled. -/
def refresh (tls : Tls) (route : Route) : Tls :=
  if tls.cache.key ≠ route.address then tls.refill route else tls

/-- `w.enter()` and `w.leave()` around a column lookup. -/
def pinned (tls : Tls) : Tls :=
  match tls.cache.worker with
  | some worker => { tls with pins := tls.pins ++ [.enter worker, .leave worker] }
  | none => tls

variable (memory : Memory) (route : Route)

/-- Look up the payload column unless it is cached. -/
def resolvePayload (tls : Tls) : Tls :=
  if tls.cache.colPayload.isNone then
    { tls.pinned with
      cache := { tls.cache with
        colPayload := ((memory route.id).columnBlob "payload").map (Column.mk route.id) } }
  else tls

/-- Look up the epoch column unless it is cached. -/
def resolveEpoch (tls : Tls) : Tls :=
  if tls.cache.colEpoch.isNone then
    { tls.pinned with
      cache := { tls.cache with
        colEpoch := ((memory route.id).columnInt "epoch").map (Column.mk route.id) } }
  else tls

/-- Look up the type column unless it is cached. -/
def resolveType (tls : Tls) : Tls :=
  if tls.cache.colType.isNone then
    { tls.pinned with
      cache := { tls.cache with
        colType := ((memory route.id).columnInt "type").map (Column.mk route.id) } }
  else tls

/-- All that comes before the columns are used. -/
def prepare (tls : Tls) : Tls :=
  (((tls.refresh route).resolvePayload memory route).resolveEpoch memory route).resolveType
    memory route

/-- The record at an entity's indices in the three columns; `none` when an index
or an element is missing. -/
def readElements (attributeIndices : String → Option Nat) (colPayload colEpoch colType : Column) :
    Option SignedRecord :=
  match attributeIndices "payload", attributeIndices "epoch", attributeIndices "type" with
  | some payloadIdx, some epochIdx, some typeIdx =>
      match (memory colPayload.route).blobAt colPayload.number payloadIdx,
          (memory colEpoch.route).intAt colEpoch.number epochIdx,
          (memory colType.route).intAt colType.number typeIdx with
      | some payload, some epoch, some recordType =>
          some {
            epochId := epoch.toUInt64
            payload := payload
            judgeSignature := zeroSignature
            recordType := recordType }
      | _, _, _ => none
  | _, _, _ => none

/-- `get_record_from_route`. -/
def getRecordFromRoute (entityId : EntityId) (tls : Tls) : Option SignedRecord × Tls :=
  let tls := tls.prepare memory route
  match tls.cache.colPayload, tls.cache.colEpoch, tls.cache.colType, tls.cache.worker with
  | some colPayload, some colEpoch, some colType, some worker =>
      let entered := { tls with pins := tls.pins ++ [.enter worker] }
      match (memory route.id).pointers entityId with
      | some attributeIndices =>
          match readElements memory attributeIndices colPayload colEpoch colType with
          | some record =>
              (some record, { entered with pins := entered.pins ++ [.leave worker] })
          -- a `?` returns from the closure, past `w.leave()`
          | none => (none, entered)
      | none => (none, { entered with pins := entered.pins ++ [.leave worker] })
  | _, _, _, _ => (none, tls)

/-! ## What each step leaves -/

/-- After the first step the cache is that of the address. -/
theorem refresh_key (tls : Tls) (route : Route) :
    (tls.refresh route).cache.key = route.address := by
  rw [refresh]
  split
  · rfl
  next hkey => exact not_not.mp hkey

theorem refresh_worker (tls : Tls) (route : Route) :
    ∃ worker, (tls.refresh route).cache.worker = some worker := by
  refine Option.isSome_iff_exists.mp ((tls.refresh route).cache.hasWorker ?_)
  rw [refresh_key]
  exact route.address_ne_zero

/-- `get_worker` hands out the worker of the refreshed cache. -/
theorem getWorker_eq (tls : Tls) (route : Route) :
    ∃ worker, tls.getWorker route = (worker, tls.refresh route) ∧
      (tls.refresh route).cache.worker = some worker := by
  rw [getWorker, refresh]
  by_cases hkey : tls.cache.key = route.address
  · obtain ⟨worker, hworker⟩ := Option.isSome_iff_exists.mp
      (tls.cache.hasWorker (hkey ▸ route.address_ne_zero))
    rw [if_pos hkey, if_neg (not_not.mpr hkey), hworker]
    exact ⟨worker, rfl, rfl⟩
  · rw [if_neg hkey, if_pos hkey]
    exact ⟨tls.nextWorker route, rfl, rfl⟩

variable {memory route}

@[simp]
theorem pinned_registered (tls : Tls) : tls.pinned.registered = tls.registered := by
  rw [pinned]
  split <;> rfl

theorem resolvePayload_cache (tls : Tls) :
    (tls.resolvePayload memory route).cache = { tls.cache with
      colPayload := tls.cache.colPayload.or
        (((memory route.id).columnBlob "payload").map (Column.mk route.id)) } := by
  rw [resolvePayload]
  rcases tls with ⟨⟨key, worker, colPayload, colEpoch, colType, hasWorker⟩, registered, pins⟩
  cases colPayload <;> rfl

theorem resolveEpoch_cache (tls : Tls) :
    (tls.resolveEpoch memory route).cache = { tls.cache with
      colEpoch := tls.cache.colEpoch.or
        (((memory route.id).columnInt "epoch").map (Column.mk route.id)) } := by
  rw [resolveEpoch]
  rcases tls with ⟨⟨key, worker, colPayload, colEpoch, colType, hasWorker⟩, registered, pins⟩
  cases colEpoch <;> rfl

theorem resolveType_cache (tls : Tls) :
    (tls.resolveType memory route).cache = { tls.cache with
      colType := tls.cache.colType.or
        (((memory route.id).columnInt "type").map (Column.mk route.id)) } := by
  rw [resolveType]
  rcases tls with ⟨⟨key, worker, colPayload, colEpoch, colType, hasWorker⟩, registered, pins⟩
  cases colType <;> rfl

/-- **The cache a read uses**: that of the address, with every column looked up
that was not there. -/
theorem prepare_cache (tls : Tls) :
    (tls.prepare memory route).cache = { (tls.refresh route).cache with
      colPayload := (tls.refresh route).cache.colPayload.or
        (((memory route.id).columnBlob "payload").map (Column.mk route.id))
      colEpoch := (tls.refresh route).cache.colEpoch.or
        (((memory route.id).columnInt "epoch").map (Column.mk route.id))
      colType := (tls.refresh route).cache.colType.or
        (((memory route.id).columnInt "type").map (Column.mk route.id)) } := by
  rw [prepare, resolveType_cache, resolveEpoch_cache, resolvePayload_cache]

theorem prepare_worker (tls : Tls) :
    ∃ worker, (tls.prepare memory route).cache.worker = some worker := by
  rw [prepare_cache]
  exact refresh_worker tls route

theorem prepare_registered (tls : Tls) :
    (tls.prepare memory route).registered = (tls.refresh route).registered := by
  rw [prepare, resolveType, resolveEpoch, resolvePayload]
  split <;> split <;> split <;> simp

/-- **What a read does** once its cache is prepared. Without its three columns it
ends. Else it enters the pin of its worker, and leaves it unless it finds the
entity and an element of it is missing. -/
theorem getRecordFromRoute_cases (memory : Memory) (route : Route) (entityId : EntityId)
    (tls : Tls) :
    ∃ worker record pins, (tls.prepare memory route).cache.worker = some worker ∧
      getRecordFromRoute memory route entityId tls =
        (record, { tls.prepare memory route with
          pins := (tls.prepare memory route).pins ++ pins }) ∧
      ((record = none ∧ pins = [] ∧ ((tls.prepare memory route).cache.colPayload = none ∨
          (tls.prepare memory route).cache.colEpoch = none ∨
          (tls.prepare memory route).cache.colType = none)) ∨
        ∃ colPayload colEpoch colType,
          ((tls.prepare memory route).cache.colPayload = some colPayload ∧
            (tls.prepare memory route).cache.colEpoch = some colEpoch ∧
            (tls.prepare memory route).cache.colType = some colType) ∧
          (((memory route.id).pointers entityId = none ∧ record = none ∧
              pins = [.enter worker, .leave worker]) ∨
            ∃ attributeIndices, (memory route.id).pointers entityId = some attributeIndices ∧
              record = readElements memory attributeIndices colPayload colEpoch colType ∧
              pins =
                if record.isSome then [.enter worker, .leave worker] else [.enter worker])) := by
  obtain ⟨worker, hworker⟩ : ∃ worker, (tls.prepare memory route).cache.worker = some worker :=
    prepare_worker tls
  rw [getRecordFromRoute]
  dsimp only
  split
  next colPayload colEpoch colType entered hcolPayload hcolEpoch hcolType hentered =>
      cases hworker.symm.trans hentered
      have hcolumns := And.intro hcolPayload (And.intro hcolEpoch hcolType)
      split
      next attributeIndices hpointer =>
          split
          next record hread =>
              exact ⟨worker, some record, [.enter worker, .leave worker], hworker,
                by rw [List.append_assoc]; rfl, Or.inr ⟨_, _, _, hcolumns,
                  Or.inr ⟨attributeIndices, hpointer, hread.symm, rfl⟩⟩⟩
          next hread =>
              exact ⟨worker, none, [.enter worker], hworker, rfl, Or.inr ⟨_, _, _, hcolumns,
                Or.inr ⟨attributeIndices, hpointer, hread.symm, rfl⟩⟩⟩
      next hpointer =>
          exact ⟨worker, none, [.enter worker, .leave worker], hworker,
            by rw [List.append_assoc]; rfl, Or.inr ⟨_, _, _, hcolumns,
              Or.inl ⟨hpointer, rfl, rfl⟩⟩⟩
  next hmissing =>
      refine ⟨worker, none, [], hworker, by rw [List.append_nil], Or.inl ⟨rfl, rfl, ?_⟩⟩
      by_contra! hcolumns
      obtain ⟨hpayload, hepoch, htype⟩ := hcolumns
      obtain ⟨colPayload, hcolPayload⟩ := Option.ne_none_iff_exists'.mp hpayload
      obtain ⟨colEpoch, hcolEpoch⟩ := Option.ne_none_iff_exists'.mp hepoch
      obtain ⟨colType, hcolType⟩ := Option.ne_none_iff_exists'.mp htype
      exact hmissing _ _ _ _ hcolPayload hcolEpoch hcolType hworker

/-- A read changes nothing of the cache once it has been prepared, and registers
no further. -/
theorem getRecordFromRoute_tls (memory : Memory) (route : Route) (entityId : EntityId)
    (tls : Tls) :
    (getRecordFromRoute memory route entityId tls).2.cache = (tls.prepare memory route).cache ∧
    (getRecordFromRoute memory route entityId tls).2.registered =
      (tls.refresh route).registered := by
  obtain ⟨_, _, _, -, hresult, -⟩ := getRecordFromRoute_cases memory route entityId tls
  rw [hresult]
  exact ⟨rfl, prepare_registered tls⟩

end Tls

end ServerGo.Storage
