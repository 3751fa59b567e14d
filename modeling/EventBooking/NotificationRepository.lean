import EventBooking.OutboxTable

/-!
# The Notification Service's repository

`appendIfUnprocessed` writes the inbox row and the notification in one
transaction; a unique violation of either insert is answered as a duplicate.
-/

namespace EventBooking
open Lib

inductive NotificationType
  | bookingConfirmed
  | bookingFailed
  | bookingCancelled
  deriving DecidableEq

structure NotificationRecord where
  timestamp : Date
  message : String
  type : NotificationType
  messageId : String
  correlationId : String
  bookingId : String
  eventId : String
  reason : Option FailureReason
  deriving DecidableEq

structure NotificationRow where
  id : Uuid
  type : NotificationType
  messageId : Uuid
  correlationId : Uuid
  bookingId : Uuid
  eventId : Uuid
  message : String
  reason : Option FailureReason
  occurredAt : Date
  createdAt : Date
  deriving DecidableEq

structure ProcessedNotificationRow where
  messageId : Uuid
  processedAt : Date
  deriving DecidableEq

def notificationSchema : Schema NotificationRow Uuid Uuid := ⟨(·.id), fun r => some r.messageId⟩

def processedNotificationSchema : Schema ProcessedNotificationRow Uuid Unit := ⟨(·.messageId), fun _ => none⟩

structure NotificationDb where
  notifications : Table notificationSchema
  processed : Table processedNotificationSchema

def NotificationDb.empty : NotificationDb := ⟨.empty, .empty⟩

def processedNotificationMessageCreate (messageId : String) (now : Date) (db : NotificationDb) :
    Except DbError (Unit × NotificationDb) := do
  let messageId ← Uuid.cast messageId
  insertInto NotificationDb.processed (fun db processed => { db with processed }) ⟨messageId, now⟩ () db

def NotificationRecord.row (record : NotificationRecord) (id : RandomUUID) (now : Date) :
    Except DbError NotificationRow := do
  let messageId ← Uuid.cast record.messageId
  let correlationId ← Uuid.cast record.correlationId
  let bookingId ← Uuid.cast record.bookingId
  let eventId ← Uuid.cast record.eventId
  return ⟨id.val, record.type, messageId, correlationId, bookingId, eventId, record.message, record.reason,
    record.timestamp, now⟩

def notificationCreate (record : NotificationRecord) (id : RandomUUID) (now : Date) (db : NotificationDb) :
    Except DbError (Unit × NotificationDb) := do
  let row ← record.row id now
  insertInto NotificationDb.notifications (fun db notifications => { db with notifications }) row () db

def appendTx (record : NotificationRecord) (id : RandomUUID) (now : Date) : Tx NotificationDb Unit := do
  let _ ← Tx.stmt (processedNotificationMessageCreate record.messageId now)
  Tx.stmt (notificationCreate record id now)

def appendIfUnprocessed (record : NotificationRecord) (id : RandomUUID) (now : Date) (budget : Option Nat)
    (db : NotificationDb) : Except DbError Bool × NotificationDb :=
  match Tx.transact (appendTx record id now) budget db with
  | (.ok _, db') => (.ok true, db')
  | (.error .uniqueViolation, db') => (.ok false, db')
  | (.error e, db') => (.error e, db')

/-! ## What a call can do -/

structure Appended (record : NotificationRecord) (now : Date) (d : NotificationDb) (row : NotificationRow)
    (d' : NotificationDb) : Prop where
  message_id : Uuid.cast record.messageId = .ok row.messageId
  processed : d.processed.insert ⟨row.messageId, now⟩ = some d'.processed
  notifications : d.notifications.insert row = some d'.notifications

theorem appendIfUnprocessed_cases {record : NotificationRecord} {id : RandomUUID} {now : Date} {budget : Option Nat}
    {d d' : NotificationDb} {r : Except DbError Bool} (h : appendIfUnprocessed record id now budget d = (r, d')) :
    (d' = d ∧ r ≠ .ok true) ∨ ∃ row, r = .ok true ∧ record.row id now = .ok row ∧ Appended record now d row d' := by
  have hreg : Tx.Regular (appendTx record id now) := Tx.regular_bind (Tx.regular_stmt _) fun _ => Tx.regular_stmt _
  unfold appendIfUnprocessed at h
  cases ht : Tx.transact (appendTx record id now) budget d with
  | mk r0 m =>
    rw [ht] at h
    rcases Tx.transact_regular hreg ht with hc | hc
    · obtain ⟨rfl, e, rfl⟩ := hc
      left
      split at h
      · rename_i e1; cases e1
      · rename_i e1; cases e1; cases h; exact ⟨rfl, fun hr => by cases hr⟩
      · rename_i e1; cases e1; cases h; exact ⟨rfl, fun hr => by cases hr⟩
    · obtain ⟨u, rfl, hok⟩ := hc
      right
      obtain ⟨rfl, rfl⟩ := Prod.mk.inj h
      unfold appendTx at hok
      rw [Tx.ok_bind (Tx.regular_stmt _)] at hok
      obtain ⟨_, d1, h1, h2⟩ := hok
      obtain ⟨mid, hmid, h1⟩ := except_bind_ok.mp (Tx.ok_stmt.mp h1)
      obtain ⟨_, processed, hp, rfl⟩ := insertInto_eq_ok.mp h1
      obtain ⟨row, hrow, h2⟩ := except_bind_ok.mp (Tx.ok_stmt.mp h2)
      obtain ⟨_, notifications, hn, rfl⟩ := insertInto_eq_ok.mp h2
      have hid : row.messageId = mid := by
        unfold NotificationRecord.row at hrow
        rw [hmid] at hrow
        obtain ⟨m, hm, hrow⟩ := except_bind_ok.mp hrow
        cases hm
        obtain ⟨_, _, hrow⟩ := except_bind_ok.mp hrow
        obtain ⟨_, _, hrow⟩ := except_bind_ok.mp hrow
        obtain ⟨_, _, hrow⟩ := except_bind_ok.mp hrow
        cases hrow; rfl
      exact ⟨row, rfl, hrow, hid ▸ hmid, hid ▸ hp, hn⟩

end EventBooking
