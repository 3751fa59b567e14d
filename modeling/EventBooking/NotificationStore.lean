import EventBooking.Lib.Machine
import EventBooking.Lib.Paging
import EventBooking.Services

/-!
# The two notification stores

`InMemoryNotificationStore` is a set of message ids and an array of records,
`PrismaNotificationRepository` two tables under unique constraints. On records
with canonical ids one call on the tables is one call on the store, as long as
the id drawn for the row is new and `created_at` grows.
-/

namespace EventBooking
open Lib

/-! ## In memory -/

structure InMemoryNotificationStore where
  records : List NotificationRecord
  processed : Finset String

namespace InMemoryNotificationStore

def empty : InMemoryNotificationStore := ⟨[], ∅⟩

def appendIfUnprocessed (record : NotificationRecord) (store : InMemoryNotificationStore) :
    Bool × InMemoryNotificationStore :=
  if record.messageId ∈ store.processed then (false, store)
  else (true, ⟨store.records ++ [record], insert record.messageId store.processed⟩)

def list (n pageSize : Nat) (store : InMemoryNotificationStore) : List NotificationRecord :=
  slice ((n - 1) * pageSize) (n * pageSize) store.records

end InMemoryNotificationStore

inductive StoreCall
  | appendIfUnprocessed (record : NotificationRecord) (reply : Bool)
  | list (n pageSize : Nat) (reply : List NotificationRecord)
  deriving DecidableEq

def inMemory : Machine InMemoryNotificationStore StoreCall where
  start store := store = .empty
  exec store
    | .appendIfUnprocessed record reply =>
      if (store.appendIfUnprocessed record).1 = reply then some (store.appendIfUnprocessed record).2 else none
    | .list n pageSize reply => if store.list n pageSize = reply then some store else none

/-! ## In tables -/

def NotificationRow.record (row : NotificationRow) : NotificationRecord where
  timestamp := row.occurredAt
  message := row.message
  type := row.type
  messageId := row.messageId.text
  correlationId := row.correlationId.text
  bookingId := row.bookingId.text
  eventId := row.eventId.text
  reason := row.reason

/-- `orderBy: [{ createdAt: "asc" }, { id: "asc" }]`; uuids are ordered as their texts. -/
def NotificationRow.before : NotificationRow → NotificationRow → Bool := byTime (·.createdAt) (·.id.text)

def listNotifications (n pageSize : Nat) (db : NotificationDb) : List NotificationRecord :=
  (((db.notifications.rows.mergeSort NotificationRow.before).drop ((n - 1) * pageSize)).take pageSize).map
    NotificationRow.record

/-- The record's ids are the texts that `uuid` columns return. -/
def NotificationRecord.canonical (record : NotificationRecord) : Bool :=
  isCanonical record.messageId && isCanonical record.correlationId && isCanonical record.bookingId &&
    isCanonical record.eventId

theorem cast_canonical {s : String} (h : isCanonical s = true) : ∃ u : Uuid, Uuid.cast s = .ok u ∧ u.text = s := by
  obtain ⟨ht, _⟩ := Bool.and_eq_true_iff.mp h
  obtain ⟨u, hu⟩ := Uuid.cast_ok_of_isText ht
  exact ⟨u, hu, (isCanonical_iff hu).mp h⟩

structure RowOf (record : NotificationRecord) (id : RandomUUID) (now : Date) (row : NotificationRow) : Prop where
  row_eq : record.row id now = .ok row
  message_id : Uuid.cast record.messageId = .ok row.messageId
  id_eq : row.id = id.val
  created_at : row.createdAt = now
  record_eq : row.record = record

theorem rowOf_canonical {record : NotificationRecord} (h : record.canonical = true) (id : RandomUUID) (now : Date) :
    ∃ row, RowOf record id now row := by
  unfold NotificationRecord.canonical at h
  simp only [Bool.and_eq_true] at h
  obtain ⟨⟨⟨hm, hc⟩, hb⟩, he⟩ := h
  obtain ⟨m, hm, hmt⟩ := cast_canonical hm
  obtain ⟨c, hc, hct⟩ := cast_canonical hc
  obtain ⟨b, hb, hbt⟩ := cast_canonical hb
  obtain ⟨e, he, het⟩ := cast_canonical he
  refine ⟨⟨id.val, record.type, m, c, b, e, record.message, record.reason, record.timestamp, now⟩, ?_, hm,
    rfl, rfl, ?_⟩
  · unfold NotificationRecord.row
    simp only [hm, hc, hb, he]; rfl
  · unfold NotificationRow.record
    simp only [hmt, hct, hbt, het]

/-! ## The invariant and the relation -/

structure NotificationsOk (db : NotificationDb) : Prop where
  same_ids : db.processed.rows.map (·.messageId) = db.notifications.rows.map (·.messageId)
  increasing : db.notifications.rows.Pairwise fun row row' => row.createdAt < row'.createdAt

structure StoredAs (db : NotificationDb) (store : InMemoryNotificationStore) : Prop where
  records : db.notifications.rows.map NotificationRow.record = store.records
  processed : ∀ u : Uuid, u.text ∈ store.processed ↔ u ∈ db.processed.rows.map (·.messageId)

theorem notificationsOk_empty : NotificationsOk .empty := ⟨rfl, List.Pairwise.nil⟩

theorem storedAs_empty : StoredAs .empty .empty :=
  ⟨rfl, fun u => iff_of_false (by simp [InMemoryNotificationStore.empty]) (by
  intro h; cases h)⟩

/-- Rows in commit order are in the order of `list`. -/
theorem listNotifications_eq {db : NotificationDb} (h : NotificationsOk db) {n : Nat} (hn : 1 ≤ n)
    (pageSize : Nat) :
    listNotifications n pageSize db = page n pageSize (db.notifications.rows.map NotificationRow.record) := by
  rw [page_map, ← page_sorted h.increasing hn pageSize]
  rfl

theorem StoredAs.list_eq {db : NotificationDb} {store : InMemoryNotificationStore} (hs : StoredAs db store)
    (h : NotificationsOk db) {n : Nat} (hn : 1 ≤ n) (pageSize : Nat) :
    listNotifications n pageSize db = store.list n pageSize := by
  rw [listNotifications_eq h hn, hs.records]; rfl

/-! ## One call -/

def processedOf (record : NotificationRecord) (now : Date) : Except DbError ProcessedNotificationRow := do
  let messageId ← Uuid.cast record.messageId
  return ⟨messageId, now⟩

theorem processed_notification_fresh {t : Table processedNotificationSchema} {row : ProcessedNotificationRow} :
    t.Fresh row ↔ row.messageId ∉ t.rows.map (·.messageId) :=
  ⟨fun h => h.1, fun h => ⟨h, fun u hu => (by cases hu)⟩⟩

theorem notification_fresh {t : Table notificationSchema} {row : NotificationRow} :
    t.Fresh row ↔ row.id ∉ t.rows.map (·.id) ∧ row.messageId ∉ t.rows.map (·.messageId) := by
  unfold Table.Fresh
  refine and_congr_right fun _ => ?_
  rw [show t.rows.filterMap notificationSchema.unique = t.rows.map (·.messageId) from
    congrFun (List.filterMap_eq_map (f := NotificationRow.messageId)) t.rows]
  exact ⟨fun h => h _ rfl, fun h u hu => Option.some.inj hu ▸ h⟩

section
variable {db db' : NotificationDb} {store : InMemoryNotificationStore} {record : NotificationRecord}
    {id : RandomUUID}
  {now : Date} {row : NotificationRow}

theorem append_duplicate (hrow : RowOf record id now row)
    (h : row.messageId ∈ db.processed.rows.map (·.messageId)) :
    appendIfUnprocessed record id now none db = (.ok false, db) := by
  have hreg : Tx.Regular (appendTx record id now) := Tx.regular_bind (Tx.regular_stmt _) fun _ => Tx.regular_stmt _
  have hfail : Tx.Fails (appendTx record id now) db .uniqueViolation := by
    unfold appendTx
    rw [Tx.fails_bind (Tx.regular_stmt _), Tx.fails_stmt]
    left
    unfold processedNotificationMessageCreate
    rw [except_bind_error, hrow.message_id]
    exact .inr ⟨_, rfl, insertInto_error.mpr ⟨rfl, fun hf => processed_notification_fresh.mp hf h⟩⟩
  have htx := (Tx.transact_fails hreg).mpr hfail
  unfold appendIfUnprocessed
  cases ht : Tx.transact (appendTx record id now) none db with
  | mk r m =>
    rw [ht] at htx
    obtain rfl : r = .error .uniqueViolation := htx
    rw [Tx.transact_error ht]

theorem append_new (hrow : RowOf record id now row)
    (hp : db.processed.insert ⟨row.messageId, now⟩ = some db'.processed)
    (hn : db.notifications.insert row = some db'.notifications) :
    appendIfUnprocessed record id now none db = (.ok true, db') := by
  have hreg : Tx.Regular (appendTx record id now) := Tx.regular_bind (Tx.regular_stmt _) fun _ => Tx.regular_stmt _
  have hok : Tx.Ok (appendTx record id now) db () db' := by
    unfold appendTx
    rw [Tx.ok_bind (Tx.regular_stmt _)]
    refine ⟨(), { db with processed := db'.processed }, Tx.ok_stmt.mpr ?_, Tx.ok_stmt.mpr ?_⟩
    · unfold processedNotificationMessageCreate
      exact except_bind_ok.mpr ⟨_, hrow.message_id, insertInto_eq_ok.mpr ⟨rfl, _, hp, rfl⟩⟩
    · unfold notificationCreate
      exact except_bind_ok.mpr ⟨_, hrow.row_eq, insertInto_eq_ok.mpr ⟨rfl, _, hn, rfl⟩⟩
  unfold appendIfUnprocessed
  rw [(Tx.transact_eq_ok hreg).mpr hok]

theorem StoredAs.mem_processed (hs : StoredAs db store) (hrow : RowOf record id now row) :
    record.messageId ∈ store.processed ↔ row.messageId ∈ db.processed.rows.map (·.messageId) := by
  have htext : row.messageId.text = record.messageId := congrArg NotificationRecord.messageId hrow.record_eq
  rw [← htext]; exact hs.processed row.messageId

theorem StoredAs.duplicate (hs : StoredAs db store) (hrow : RowOf record id now row)
    (h : row.messageId ∈ db.processed.rows.map (·.messageId)) :
    inMemory.exec store (.appendIfUnprocessed record false) = some store := by
  have hmem := (hs.mem_processed hrow).mpr h
  unfold inMemory InMemoryNotificationStore.appendIfUnprocessed
  simp only [if_pos hmem, if_true]

theorem StoredAs.append (hs : StoredAs db store) (hrow : RowOf record id now row)
    (hp : db.processed.insert ⟨row.messageId, now⟩ = some db'.processed)
    (hn : db.notifications.insert row = some db'.notifications) :
    ∃ store', inMemory.exec store (.appendIfUnprocessed record true) = some store' ∧ StoredAs db' store' := by
  obtain ⟨hfresh, _⟩ := Table.insert_eq_some.mp hp
  have hmem : record.messageId ∉ store.processed := fun h =>
    processed_notification_fresh.mp hfresh ((hs.mem_processed hrow).mp h)
  have htext : row.messageId.text = record.messageId := congrArg NotificationRecord.messageId hrow.record_eq
  refine ⟨⟨store.records ++ [record], insert record.messageId store.processed⟩, ?_, ?_, fun u => ?_⟩
  · unfold inMemory InMemoryNotificationStore.appendIfUnprocessed
    simp only [if_neg hmem, if_true]
  · rw [Table.insert_rows hn, List.map_append, hs.records, List.map_singleton, hrow.record_eq]
  · rw [Finset.mem_insert, hs.processed, Table.insert_rows hp, List.map_append, List.mem_append, List.map_singleton,
      List.mem_singleton, ← htext, Uuid.text_inj]
    exact or_comm

theorem NotificationsOk.append (h : NotificationsOk db) (hrow : RowOf record id now row)
    (hp : db.processed.insert ⟨row.messageId, now⟩ = some db'.processed)
    (hn : db.notifications.insert row = some db'.notifications)
    (hlater : ∀ r ∈ db.notifications.rows, r.createdAt < now) : NotificationsOk db' := by
  constructor
  · rw [Table.insert_rows hp, Table.insert_rows hn, List.map_append, List.map_append, h.same_ids]; rfl
  · rw [Table.insert_rows hn, List.pairwise_append]
    refine ⟨h.increasing, List.pairwise_singleton _ _, fun r hr r' hr' => ?_⟩
    rw [List.mem_singleton] at hr'
    rw [hr', hrow.created_at]; exact hlater r hr

end

end EventBooking
