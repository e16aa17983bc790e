/-
# The pre-resolved read

`get_record_from_route` reads the columns it has resolved before, under a pin of
its own. It finds what a session finds except where an entity has a payload and
no epoch or no type, which a session fills in with zeros.
-/

import Mathlib.Logic.Relation
import ServerGo.Storage.RouteThread

namespace ServerGo.Analysis

open ServerGo.Math ServerGo.Storage

/-! ## Reading through one route -/

/-- Between two moments columns were only added. -/
structure ColumnsAdded (before after : RouteView) : Prop where
  blob : ∀ name number, before.columnBlob name = some number → after.columnBlob name = some number
  int : ∀ name number, before.columnInt name = some number → after.columnInt name = some number

/-- A thread and what the routes present to it. -/
structure Reader where
  memory : Memory
  tls : Tls

/-- What can happen between two reads through a route: its contents change, with
columns only added, or the thread makes one of its two calls on it. -/
inductive Reader.Step (route : Route) : Reader → Reader → Prop
  | write {reader : Reader} {after : Memory} :
      ColumnsAdded (reader.memory route.id) (after route.id) →
        Step route reader { reader with memory := after }
  | getWorker {reader : Reader} :
      Step route reader { reader with tls := (reader.tls.getWorker route).2 }
  | getRecord {reader : Reader} (entityId : EntityId) :
      Step route reader { reader with
        tls := (Tls.getRecordFromRoute reader.memory route entityId reader.tls).2 }

/-- The columns cached for a route are those it has. -/
structure Current (route : Route) (view : RouteView) (cache : TlsWorkerCache) : Prop where
  payload : cache.key = route.address → ∀ column, cache.colPayload = some column →
    (view.columnBlob "payload").map (Column.mk route.id) = some column
  epoch : cache.key = route.address → ∀ column, cache.colEpoch = some column →
    (view.columnInt "epoch").map (Column.mk route.id) = some column
  type : cache.key = route.address → ∀ column, cache.colType = some column →
    (view.columnInt "type").map (Column.mk route.id) = some column

variable {route : Route} {reader : Reader}

theorem Current.refresh {view : RouteView} {tls : Tls} (hcurrent : Current route view tls.cache) :
    Current route view (tls.refresh route).cache := by
  rw [Tls.refresh]
  split
  · constructor <;> (intro _ _ hcolumn; cases hcolumn)
  · exact hcurrent

/-- Adding columns leaves those that were cached current. -/
theorem Current.of_columnsAdded {before after : RouteView} {cache : TlsWorkerCache}
    (hcurrent : Current route before cache) (hadded : ColumnsAdded before after) :
    Current route after cache := by
  have hkept : ∀ {earlier later : Option Nat} {column : Column},
      (∀ number, earlier = some number → later = some number) →
        earlier.map (Column.mk route.id) = some column →
          later.map (Column.mk route.id) = some column := by
    intro earlier later column hlater hcolumn
    obtain ⟨number, hnumber, rfl⟩ := Option.map_eq_some_iff.mp hcolumn
    rw [hlater number hnumber, Option.map_some]
  exact ⟨fun hkey column hcolumn => hkept (hadded.blob _) (hcurrent.payload hkey column hcolumn),
    fun hkey column hcolumn => hkept (hadded.int _) (hcurrent.epoch hkey column hcolumn),
    fun hkey column hcolumn => hkept (hadded.int _) (hcurrent.type hkey column hcolumn)⟩

/-- **A read uses the columns the route has now**, whichever of them it had
cached. -/
theorem prepare_columns {memory : Memory} {tls : Tls}
    (hcurrent : Current route (memory route.id) tls.cache) :
    (tls.prepare memory route).cache.colPayload =
        ((memory route.id).columnBlob "payload").map (Column.mk route.id) ∧
    (tls.prepare memory route).cache.colEpoch =
        ((memory route.id).columnInt "epoch").map (Column.mk route.id) ∧
    (tls.prepare memory route).cache.colType =
        ((memory route.id).columnInt "type").map (Column.mk route.id) := by
  have hresolved : ∀ {cached found : Option Column},
      (∀ column, cached = some column → found = some column) → cached.or found = found := by
    intro cached found hsame
    cases cached with
    | none => exact Option.none_or
    | some column => rw [hsame column rfl, Option.some_or]
  have hrefreshed := hcurrent.refresh
  have hkey := Tls.refresh_key tls route
  rw [Tls.prepare_cache]
  exact ⟨hresolved (hrefreshed.payload hkey), hresolved (hrefreshed.epoch hkey),
    hresolved (hrefreshed.type hkey)⟩

theorem Current.prepare {memory : Memory} {tls : Tls}
    (hcurrent : Current route (memory route.id) tls.cache) :
    Current route (memory route.id) (tls.prepare memory route).cache := by
  obtain ⟨hpayload, hepoch, htype⟩ := prepare_columns hcurrent
  exact ⟨fun _ _ hcolumn => hpayload.symm.trans hcolumn,
    fun _ _ hcolumn => hepoch.symm.trans hcolumn, fun _ _ hcolumn => htype.symm.trans hcolumn⟩

/-- Whatever happens to a route whose columns are only added, what a thread has
cached of it stays current. -/
theorem current_of_steps {start : Reader} (hstart : start.tls.cache.key ≠ route.address)
    (hsteps : Relation.ReflTransGen (Reader.Step route) start reader) :
    Current route (reader.memory route.id) reader.tls.cache := by
  induction hsteps with
  | refl =>
      exact ⟨fun hkey => absurd hkey hstart, fun hkey => absurd hkey hstart,
        fun hkey => absurd hkey hstart⟩
  | tail _ hstep ih =>
      cases hstep with
      | write hadded => exact ih.of_columnsAdded hadded
      | getWorker =>
          obtain ⟨worker, hget, -⟩ := Tls.getWorker_eq (Reader.tls _) route
          rw [hget]
          exact ih.refresh
      | getRecord entityId =>
          obtain ⟨hcache, -⟩ := Tls.getRecordFromRoute_tls (Reader.memory _) route entityId
            (Reader.tls _)
          rw [hcache]
          exact ih.prepare

/-! ## The two reads -/

/-- The record of a row that has all of it. -/
def fullRecord (row : Row) : Option SignedRecord :=
  match row.payload, row.epoch, row.type with
  | some payload, some epoch, some recordType =>
      some ⟨epoch.toUInt64, payload, zeroSignature, recordType⟩
  | _, _, _ => none

theorem fullRecord_eq_none_iff (row : Row) :
    fullRecord row = none ↔ row.payload = none ∨ row.epoch = none ∨ row.type = none := by
  rcases row with ⟨_ | payload, _ | epoch, _ | type⟩ <;> simp [fullRecord]

/-- A session fills in an epoch and a type, and else reads the same. -/
theorem fullRecord_eq_toSigned_iff (row : Row) :
    fullRecord row = row.toSigned ↔
      (row.payload.isSome → row.epoch.isSome ∧ row.type.isSome) := by
  rcases row with ⟨_ | payload, _ | epoch, _ | type⟩ <;> simp [fullRecord, Row.toSigned]

/-- What is read at a pointer through the columns of a view is what the view has
in full. -/
theorem readElements_eq {memory : Memory} {entityId : EntityId}
    {attributeIndices : String → Option Nat} {payload epoch type : Nat}
    (hpointer : (memory route.id).pointers entityId = some attributeIndices)
    (hpayload : (memory route.id).columnBlob "payload" = some payload)
    (hepoch : (memory route.id).columnInt "epoch" = some epoch)
    (htype : (memory route.id).columnInt "type" = some type) :
    Tls.readElements memory attributeIndices ⟨route.id, payload⟩ ⟨route.id, epoch⟩
        ⟨route.id, type⟩ =
      fullRecord ((memory route.id).row entityId) := by
  rw [Tls.readElements]
  split
  next payloadIdx epochIdx typeIdx hpayloadIdx hepochIdx htypeIdx =>
      have hrow : (memory route.id).row entityId =
          ⟨(memory route.id).blobAt payload payloadIdx, (memory route.id).intAt epoch epochIdx,
            (memory route.id).intAt type typeIdx⟩ := by
        simp only [RouteView.row, RouteView.getBlob, RouteView.getInt, hpointer, hpayload, hepoch,
          htype, hpayloadIdx, hepochIdx, htypeIdx, Option.bind_some]
      exact (congrArg fullRecord hrow).symm
  next hmissing =>
      symm
      rw [fullRecord_eq_none_iff]
      by_contra! hfull
      simp only [RouteView.row, RouteView.getBlob, RouteView.getInt, hpointer, hpayload, hepoch,
        htype, Option.bind_some, ne_eq, Option.bind_eq_none_iff, not_forall] at hfull
      obtain ⟨⟨payloadIdx, hpayloadIdx, -⟩, ⟨epochIdx, hepochIdx, -⟩, typeIdx, htypeIdx, -⟩ := hfull
      exact hmissing payloadIdx epochIdx typeIdx hpayloadIdx hepochIdx htypeIdx

/-- With current columns the pre-resolved read returns the record of a full row,
and else nothing. -/
theorem getRecordFromRoute_eq {memory : Memory} {tls : Tls}
    (hcurrent : Current route (memory route.id) tls.cache) (entityId : EntityId) :
    (Tls.getRecordFromRoute memory route entityId tls).1 =
      fullRecord ((memory route.id).row entityId) := by
  obtain ⟨hpayload, hepoch, htype⟩ := prepare_columns hcurrent
  obtain ⟨worker, record, pins, -, hresult, hcases⟩ :=
    Tls.getRecordFromRoute_cases memory route entityId tls
  rw [hresult]
  rcases hcases with ⟨rfl, -, hmissing⟩ | ⟨_, _, _, ⟨hcolPayload, hcolEpoch, hcolType⟩, hcases⟩
  · symm
    rw [hpayload, hepoch, htype, Option.map_eq_none_iff, Option.map_eq_none_iff,
      Option.map_eq_none_iff] at hmissing
    rw [fullRecord_eq_none_iff]
    refine hmissing.imp (fun hnone => ?_) (Or.imp (fun hnone => ?_) fun hnone => ?_)
    · simp [RouteView.row, RouteView.getBlob, hnone]
    · simp [RouteView.row, RouteView.getInt, hnone]
    · simp [RouteView.row, RouteView.getInt, hnone]
  · obtain ⟨payload, hpayload, rfl⟩ := Option.map_eq_some_iff.mp (hpayload.symm.trans hcolPayload)
    obtain ⟨epoch, hepoch, rfl⟩ := Option.map_eq_some_iff.mp (hepoch.symm.trans hcolEpoch)
    obtain ⟨type, htype, rfl⟩ := Option.map_eq_some_iff.mp (htype.symm.trans hcolType)
    rcases hcases with ⟨hpointer, rfl, -⟩ | ⟨attributeIndices, hpointer, rfl, -⟩
    · symm
      rw [fullRecord_eq_none_iff]
      left
      rw [RouteView.row, RouteView.getBlob, hpointer, Option.bind_none]
    · exact readElements_eq hpointer hpayload hepoch htype

/-- **When the two reads agree.** On a route whose columns are only added, and in
every state that earlier calls on it have left the thread in, the pre-resolved
read of an entity returns what a session returns if and only if the entity, when
it has a payload, has an epoch and a type with it. -/
theorem fastRead_eq_sessionRead_iff {start : Reader}
    (hstart : start.tls.cache.key ≠ route.address)
    (hsteps : Relation.ReflTransGen (Reader.Step route) start reader) (entityId : EntityId) :
    (Tls.getRecordFromRoute reader.memory route entityId reader.tls).1 =
        (reader.memory route.id).sessionRead entityId ↔
      (((reader.memory route.id).row entityId).payload.isSome →
        ((reader.memory route.id).row entityId).epoch.isSome ∧
        ((reader.memory route.id).row entityId).type.isSome) := by
  rw [getRecordFromRoute_eq (current_of_steps hstart hsteps), RouteView.sessionRead,
    fullRecord_eq_toSigned_iff]

/-- A thread that has read an entity in full through its route. -/
def afterRead : Reader :=
  let memory := oneEntity ["payload", "epoch", "type"]
  ⟨memory, (Tls.getRecordFromRoute memory firstRoute 7 .start).2⟩

theorem fastRead_eq_sessionRead_iff_afterRead :
    (Tls.getRecordFromRoute afterRead.memory firstRoute 7 afterRead.tls).1 =
        (afterRead.memory firstRoute.id).sessionRead 7 ↔
      (((afterRead.memory firstRoute.id).row 7).payload.isSome →
        ((afterRead.memory firstRoute.id).row 7).epoch.isSome ∧
        ((afterRead.memory firstRoute.id).row 7).type.isSome) := by
  have hstart : Tls.start.cache.key ≠ firstRoute.address := by decide
  have hsteps : Relation.ReflTransGen (Reader.Step firstRoute) ⟨afterRead.memory, .start⟩
      afterRead := .single (.getRecord 7)
  exact fastRead_eq_sessionRead_iff hstart hsteps 7

/-- An entity with a payload and a type but no epoch: a session returns it with
epoch 0, the pre-resolved read returns nothing. -/
theorem fastRead_ne_sessionRead_of_noEpoch :
    (Tls.getRecordFromRoute (oneEntity ["payload", "type"]) firstRoute 7 .start).1 = none ∧
    (oneEntity ["payload", "type"] firstRoute.id).sessionRead 7 =
      some ⟨0, [1, 2, 3], zeroSignature, 9⟩ := by
  decide

end ServerGo.Analysis
