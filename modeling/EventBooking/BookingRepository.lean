import EventBooking.OutboxTable

/-!
# The Booking Service's repository

The tables of the booking database and the transactions of
`PrismaBookingRepository`. Texts that reach a `uuid` column are cast by the
server; what a column returns is canonical text, which the code then compares
with the texts it was given.
-/

namespace EventBooking
open Lib

def BookingErrors.notFound : AppError := ⟨"BOOKING_NOT_FOUND", "Booking not found", 404⟩

def BookingErrors.invalidStatus : AppError := ⟨"INVALID_BOOKING_STATUS", "Invalid booking status", 409⟩

def BookingErrors.idempotencyKeyReused : AppError :=
  ⟨"IDEMPOTENCY_KEY_REUSED", "The Idempotency-Key was already used with a different booking request", 409⟩

/-! ## Tables -/

structure BookingRow where
  id : Uuid
  userId : Uuid
  eventId : Uuid
  quantity : Int
  status : BookingStatus
  idempotencyKey : Option String
  createdAt : Date
  updatedAt : Date
  deriving DecidableEq

structure BookingDto where
  id : String
  userId : String
  eventId : String
  quantity : Int
  status : BookingStatus
  idempotencyKey : Option String
  createdAt : String
  updatedAt : String
  deriving DecidableEq

def BookingRow.mapRow (row : BookingRow) : BookingDto where
  id := row.id.text
  userId := row.userId.text
  eventId := row.eventId.text
  quantity := row.quantity
  status := row.status
  idempotencyKey := row.idempotencyKey
  createdAt := toISOString row.createdAt
  updatedAt := toISOString row.updatedAt

structure IdempotencyRow where
  key : String
  bookingId : Uuid
  requestFingerprint : String
  response : BookingDto
  createdAt : Date
  deriving DecidableEq

def bookingSchema : Schema BookingRow Uuid String := ⟨(·.id), (·.idempotencyKey)⟩

@[simp] theorem booking_key (r : BookingRow) : bookingSchema.key r = r.id := rfl
@[simp] theorem booking_unique (r : BookingRow) : bookingSchema.unique r = r.idempotencyKey := rfl

def idempotencySchema : Schema IdempotencyRow String Uuid := ⟨(·.key), fun r => some r.bookingId⟩

@[simp] theorem idempotency_key (r : IdempotencyRow) : idempotencySchema.key r = r.key := rfl
@[simp] theorem idempotency_unique (r : IdempotencyRow) : idempotencySchema.unique r = some r.bookingId := rfl

structure BookingDb where
  bookings : Table bookingSchema
  idempotencyKeys : Table idempotencySchema
  processed : Table processedSchema
  outbox : OutboxTable

def BookingDb.empty : BookingDb := ⟨.empty, .empty, .empty, .empty⟩

/-! ## Statements -/

structure BookingInsert where
  id : RandomUUID
  userId : String
  eventId : String
  quantity : Int
  status : BookingStatus
  idempotencyKey : Option String
  deriving DecidableEq

/-- The row `booking.create` stores; `bookings_quantity_positive` is checked on it. -/
def BookingInsert.row (b : BookingInsert) (now : Date) : Except DbError BookingRow := do
  let userId ← Uuid.cast b.userId
  let eventId ← Uuid.cast b.eventId
  let quantity ← int4 b.quantity
  if 0 < quantity then
    return ⟨b.id.val, userId, eventId, quantity, b.status, b.idempotencyKey, now, now⟩
  else throw .checkViolation

structure BookingInsert.Stores (b : BookingInsert) (row : BookingRow) : Prop where
  id : row.id = b.id.val
  userId : Uuid.cast b.userId = .ok row.userId
  eventId : Uuid.cast b.eventId = .ok row.eventId
  quantity : row.quantity = b.quantity
  positive : 0 < row.quantity
  status : row.status = b.status
  idempotencyKey : row.idempotencyKey = b.idempotencyKey

theorem BookingInsert.stores {b : BookingInsert} {now : Date} {row : BookingRow} (h : b.row now = .ok row) :
    b.Stores row := by
  unfold BookingInsert.row at h
  obtain ⟨userId, hu, h⟩ := except_bind_ok.mp h
  obtain ⟨eventId, he, h⟩ := except_bind_ok.mp h
  obtain ⟨quantity, hq, h⟩ := except_bind_ok.mp h
  split at h
  · rename_i hpos
    cases h
    exact ⟨rfl, hu, he, (int4_eq_ok.mp hq).1, hpos, rfl, rfl⟩
  · cases h

def bookingCreate (b : BookingInsert) (now : Date) (db : BookingDb) : Except DbError (BookingRow × BookingDb) := do
  let row ← b.row now
  insertInto BookingDb.bookings (fun db bookings => { db with bookings }) row row db

def idempotencyKeyCreate (row : IdempotencyRow) : BookingDb → Except DbError (Unit × BookingDb) :=
  insertInto BookingDb.idempotencyKeys (fun db idempotencyKeys => { db with idempotencyKeys }) row ()

def processedBookingMessageCreate (messageId : String) (now : Date) :
    BookingDb → Except DbError (Unit × BookingDb) :=
  insertInto BookingDb.processed (fun db processed => { db with processed }) ⟨messageId, now⟩ ()

def bookingOutboxEventCreate (o : OutboxInsert) (now : Date) :
    BookingDb → Except DbError (RandomUUID × BookingDb) :=
  insertInto BookingDb.outbox (fun db outbox => { db with outbox }) (o.row now) o.id

def bookingFindUnique : String → BookingDb → Except DbError (Option BookingRow × BookingDb) :=
  findUnique BookingDb.bookings

/-- The `where` of `booking.updateMany`: columns it does not name are `none`. -/
structure BookingWhere where
  id : Uuid
  eventId : Option Uuid
  quantity : Option Int
  status : BookingStatus

def BookingWhere.holds (w : BookingWhere) (r : BookingRow) : Bool :=
  decide (r.id = w.id) && w.eventId.all (fun e => decide (r.eventId = e)) &&
    w.quantity.all (fun q => decide (r.quantity = q)) && decide (r.status = w.status)

def setStatus (status : BookingStatus) (now : Date) (r : BookingRow) : BookingRow :=
  { r with status, updatedAt := now }

theorem setStatus_key (status : BookingStatus) (now : Date) (r : BookingRow) :
    bookingSchema.key (setStatus status now r) = bookingSchema.key r := rfl

theorem setStatus_unique (status : BookingStatus) (now : Date) (r : BookingRow) :
    bookingSchema.unique (setStatus status now r) = bookingSchema.unique r := rfl

def updateBookings (w : BookingWhere) (status : BookingStatus) (now : Date) (t : Table bookingSchema) :
    Table bookingSchema :=
  t.update w.holds (setStatus status now) (setStatus_key status now) (setStatus_unique status now)

def bookingUpdateMany (id : String) (eventId : Option String) (quantity : Option Int)
    (source target : BookingStatus) (now : Date) (db : BookingDb) : Except DbError (Nat × BookingDb) := do
  let id ← Uuid.cast id
  let eventId ← eventId.mapM Uuid.cast
  let quantity ← quantity.mapM int4
  let w : BookingWhere := ⟨id, eventId, quantity, source⟩
  return (db.bookings.rows.countP w.holds, { db with bookings := updateBookings w target now db.bookings })

/-! ## Creating a booking -/

/-- `if (input.idempotencyKey)`: an empty key is as absent as a missing one. -/
def truthy : Option String → Option String
  | some key => if key = "" then none else some key
  | none => none

structure CreateBookingData extends BookingInsert where
  requestFingerprint : String

/-- The record of the key, whose `response` is the booking as it was created. -/
def createIdempotencyKey (input : CreateBookingData) (booking : BookingRow) (now : Date) : Tx BookingDb Unit :=
  match truthy input.idempotencyKey with
  | some key => Tx.stmt (idempotencyKeyCreate ⟨key, booking.id, input.requestFingerprint, booking.mapRow, now⟩)
  | none => pure ()

def createBookingTx (input : CreateBookingData) (outbox : OutboxInsert) (now : Date) : Tx BookingDb BookingDto := do
  let booking ← Tx.stmt (bookingCreate input.toBookingInsert now)
  let _ ← createIdempotencyKey input booking now
  let _ ← Tx.stmt (bookingOutboxEventCreate outbox now)
  return booking.mapRow

theorem regular_createIdempotencyKey (input : CreateBookingData) (booking : BookingRow) (now : Date) :
    Tx.Regular (createIdempotencyKey input booking now) := by
  unfold createIdempotencyKey
  split
  · exact Tx.regular_stmt _
  · exact Tx.regular_pure _

theorem regular_createBookingTx (input : CreateBookingData) (outbox : OutboxInsert) (now : Date) :
    Tx.Regular (createBookingTx input outbox now) :=
  Tx.regular_bind (Tx.regular_stmt _) fun booking =>
    Tx.regular_bind (regular_createIdempotencyKey input booking now) fun _ =>
      Tx.regular_bind (Tx.regular_stmt _) fun _ => Tx.regular_pure _

def findIdempotencyRecord (key : String) (db : BookingDb) : Option IdempotencyRow := db.idempotencyKeys.find key

def findByIdempotencyKey (key : String) (db : BookingDb) : Option BookingDto :=
  (db.bookings.rows.find? fun r => decide (r.idempotencyKey = some key)).map BookingRow.mapRow

/-- `existing.requestFingerprint !== requestFingerprint ? throw : existing.response`. -/
def replay (existing : IdempotencyRow) (requestFingerprint : String) : Except ServiceError BookingDto :=
  if existing.requestFingerprint ≠ requestFingerprint then .error (.app BookingErrors.idempotencyKeyReused)
  else .ok existing.response

/-- The `catch` of `createBookingWithOutbox`; its two reads see `db` and `db'`. -/
def recoverCreate (input : CreateBookingData) (error : DbError) (db db' : BookingDb) :
    Except ServiceError BookingDto :=
  match error, truthy input.idempotencyKey with
  | .uniqueViolation, some key =>
    match findIdempotencyRecord key db with
    | some existing => replay existing input.requestFingerprint
    | none =>
      match findByIdempotencyKey key db' with
      | some booking => .ok booking
      | none => .error (.db error)
  | _, _ => .error (.db error)

/-! ## Cancelling a booking -/

inductive CancelRejection
  | bookingNotFound
  | invalidStatus
  deriving DecidableEq

inductive CancelBookingResult
  | cancelled (booking : BookingDto) (outboxRowId : RandomUUID)
  | rejected (reason : CancelRejection)
  deriving DecidableEq

def cancelBookingWithOutbox (id : String) (outbox : OutboxInsert) (now : Date) :
    Tx BookingDb CancelBookingResult := do
  let count ← Tx.stmt (bookingUpdateMany id none none .confirmed .cancelled now)
  if count = 0 then do
    match ← Tx.stmt (bookingFindUnique id) with
    | none => return .rejected .bookingNotFound
    | some _ => return .rejected .invalidStatus
  else do
    match ← Tx.stmt (bookingFindUnique id) with
    | none => return .rejected .bookingNotFound
    | some booking => do
      let outboxRowId ← Tx.stmt (bookingOutboxEventCreate outbox now)
      return .cancelled booking.mapRow outboxRowId

/-! ## Settling a booking -/

inductive BookingProcessingFailureReason
  | bookingNotFound
  | eventMismatch
  | quantityMismatch
  | invalidStatus
  deriving DecidableEq

def classifyBookingFailure (booking : Option BookingDto) (eventId : String) (quantity : Option Int) :
    BookingProcessingFailureReason :=
  match booking with
  | none => .bookingNotFound
  | some booking =>
    if booking.eventId ≠ eventId then .eventMismatch
    else if quantity.any fun q => decide (booking.quantity ≠ q) then .quantityMismatch
    else .invalidStatus

inductive SettleResult
  | duplicate
  | settled (booking : BookingDto) (outboxRowId : RandomUUID)
  | rejected (reason : BookingProcessingFailureReason)
  deriving DecidableEq

/-- What follows the inbox row of an outcome message. -/
def settleRecorded (bookingId eventId : String) (quantity : Option Int) (status : BookingStatus)
    (outbox : OutboxInsert) (now : Date) : Tx BookingDb SettleResult := do
  let count ← Tx.stmt (bookingUpdateMany bookingId (some eventId) quantity .pending status now)
  match ← Tx.stmt (bookingFindUnique bookingId) with
  | none => return .rejected (classifyBookingFailure none eventId quantity)
  | some booking =>
    if count = 0 ∨ booking.eventId.text ≠ eventId ∨ quantity.any (fun q => decide (booking.quantity ≠ q)) then
      return .rejected (classifyBookingFailure (some booking.mapRow) eventId quantity)
    else do
      let outboxRowId ← Tx.stmt (bookingOutboxEventCreate outbox now)
      return .settled booking.mapRow outboxRowId

/-- The transaction both outcome handlers run, with the status they set and
the quantity only the success handler compares. -/
def settleBooking (messageId bookingId eventId : String) (quantity : Option Int) (status : BookingStatus)
    (outbox : OutboxInsert) (now : Date) : Tx BookingDb SettleResult :=
  Tx.tryInsert (Tx.stmt (processedBookingMessageCreate messageId now)) .duplicate fun _ =>
    settleRecorded bookingId eventId quantity status outbox now

theorem regular_settle (bookingId eventId : String) (quantity : Option Int) (status : BookingStatus)
    (outbox : OutboxInsert) (now : Date) :
    Tx.Regular (settleRecorded bookingId eventId quantity status outbox now) := by
  refine Tx.regular_bind (Tx.regular_stmt _) fun count => Tx.regular_bind (Tx.regular_stmt _) fun o => ?_
  cases o with
  | none => exact Tx.regular_pure _
  | some booking =>
    refine Tx.regular_ite (Tx.regular_pure _) ?_
    exact Tx.regular_bind (Tx.regular_stmt _) fun _ => Tx.regular_pure _

def processSeatsReservedMessage (messageId bookingId eventId : String) (quantity : Int)
    (outboxOnSuccess : OutboxInsert) (now : Date) : Tx BookingDb SettleResult :=
  settleBooking messageId bookingId eventId (some quantity) .confirmed outboxOnSuccess now

def processSeatReservationFailedMessage (messageId bookingId eventId : String) (outboxOnFailure : OutboxInsert)
    (now : Date) : Tx BookingDb SettleResult :=
  settleBooking messageId bookingId eventId none .failed outboxOnFailure now

end EventBooking
