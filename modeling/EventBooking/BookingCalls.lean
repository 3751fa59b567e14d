import EventBooking.Transactions
import EventBooking.System
import EventBooking.Lib.Sessions

/-!
# Concurrent calls of the Booking Service

The booking database under any number of calls, one awaited statement at a
time. A transaction reads what is committed and what it wrote itself; what it
wrote becomes visible when it commits. An INSERT that clashes with a row of
another open transaction waits for that transaction to end, and an UPDATE waits
for a row that another one has changed.
-/

namespace EventBooking
open Lib

/-! ## createBooking -/

inductive CreatePhase
  | lookup
  | insertBooking
  | insertKey (row : BookingRow)
  | insertOutbox (row : BookingRow)
  | commit (row : BookingRow)
  | recoverKey
  | recoverBooking
  | dispatch (booking : BookingDto)
  | done (reply : Except ServiceError BookingDto)
  deriving DecidableEq

/-- A call of `createBooking`, and what has happened to it: its lookup found
nothing, its transaction was committed, a fault or a colliding identifier hit it. -/
structure CreateCall where
  input : CreateBookingInput
  draw : Draw
  phase : CreatePhase
  missed : Bool
  committed : Bool
  disturbed : Bool
  deriving DecidableEq

namespace CreateCall

def key (c : CreateCall) : Option String := truthy c.input.idempotencyKey

def fingerprint (c : CreateCall) : String := createBookingRequestFingerprint c.input

def begin (input : CreateBookingInput) (draw : Draw) : CreateCall :=
  ⟨input, draw, if (truthy input.idempotencyKey).isSome then .lookup else .insertBooking, false, false, false⟩

def keyRow (c : CreateCall) (row : BookingRow) : Option IdempotencyRow :=
  c.key.map fun key => ⟨key, row.id, c.fingerprint, row.mapRow, c.draw.now⟩

def outboxRow (c : CreateCall) : OutboxRow := (createBookingOutbox c.input c.draw).row c.draw.now

/-- The aborted transaction of a unique violation, as the `catch` goes on from it. -/
def violated (c : CreateCall) (collided : Bool) : CreateCall :=
  if c.key.isSome then { c with phase := .recoverKey, disturbed := c.disturbed || collided }
  else { c with phase := .done (.error (.db .uniqueViolation)), disturbed := c.disturbed || collided }

def fault (c : CreateCall) : CreateCall :=
  { c with phase := .done (.error (.db .unavailable)), disturbed := true }

def commit (c : CreateCall) (row : BookingRow) (db : BookingDb) : Option BookingDb := do
  let bookings ← db.bookings.insert row
  let idempotencyKeys ← db.idempotencyKeys.insertOption (c.keyRow row)
  let outbox ← db.outbox.insert c.outboxRow
  return { db with bookings, idempotencyKeys, outbox }

end CreateCall

/-! ## Cancellations and outcome messages -/

/-- What `cancelBooking` and the two outcome handlers ask of their transaction. -/
structure StatusChange where
  processed : Option String
  bookingId : String
  eventId : Option String
  quantity : Option Int
  source : BookingStatus
  target : BookingStatus
  outbox : OutboxInsert
  now : Date
  deriving DecidableEq

def changeStatus (changed : Option Uuid) (status : BookingStatus) (now : Date) (t : Table bookingSchema) :
    Table bookingSchema :=
  t.update (fun r => decide (some r.id = changed)) (setStatus status now) (setStatus_key status now)
    (setStatus_unique status now)

namespace StatusChange

def cancelBooking (id : String) (booking : BookingDto) (draw : Draw) : StatusChange where
  processed := none
  bookingId := id
  eventId := none
  quantity := none
  source := .confirmed
  target := .cancelled
  outbox := cancelBookingOutbox booking draw
  now := draw.now

def handleSeatsReserved (message : MessageEnvelope BookingEventQuantityPayload) (draw : Draw) : StatusChange where
  processed := some message.messageId
  bookingId := message.payload.bookingId
  eventId := some message.payload.eventId
  quantity := some message.payload.quantity
  source := .pending
  target := .confirmed
  outbox := outboxInsert draw.rowId .bookingConfirmed
    ((envelope draw.messageId message.correlationId draw.sent message.payload).map .bookingEventQuantity)
  now := draw.now

def handleSeatReservationFailed (message : MessageEnvelope FailurePayload) (draw : Draw) : StatusChange where
  processed := some message.messageId
  bookingId := message.payload.bookingId
  eventId := some message.payload.eventId
  quantity := none
  source := .pending
  target := .failed
  outbox := outboxInsert draw.rowId .bookingFailed
    ((envelope draw.messageId message.correlationId draw.sent message.payload).map .failure)
  now := draw.now

def filter (c : StatusChange) : Except DbError BookingWhere := do
  let id ← Uuid.cast c.bookingId
  let eventId ← c.eventId.mapM Uuid.cast
  let quantity ← c.quantity.mapM int4
  return ⟨id, eventId, quantity, c.source⟩

def processedRow (c : StatusChange) : Option ProcessedRow := c.processed.map fun messageId => ⟨messageId, c.now⟩

/-- The checks on the re-read row, after which nothing is sent. -/
def declines (c : StatusChange) (changed : Option Uuid) (booking : Option BookingRow) : Bool :=
  match booking with
  | none => true
  | some booking =>
    changed.isNone || c.eventId.any (fun e => decide (booking.eventId.text ≠ e)) ||
      c.quantity.any fun q => decide (booking.quantity ≠ q)

def commit (c : StatusChange) (changed : Option Uuid) (queued : Bool) (db : BookingDb) : Option BookingDb := do
  let processed ← db.processed.insertOption c.processedRow
  let outbox ← db.outbox.insertOption (if queued then some (c.outbox.row c.now) else none)
  return { db with bookings := changeStatus changed c.target c.now db.bookings, processed, outbox }

end StatusChange

inductive ChangePhase
  | insertProcessed
  | update
  | reread (changed : Option Uuid)
  | insertOutbox (changed : Option Uuid)
  | commit (changed : Option Uuid) (queued : Bool)
  | done
  deriving DecidableEq

/-! ## Sessions -/

inductive BookingCall
  | create (c : CreateCall)
  | change (c : StatusChange) (phase : ChangePhase)
  deriving DecidableEq

namespace BookingCall

def booking : BookingCall → Option BookingRow
  | .create c =>
    match c.phase with
    | .insertKey row | .insertOutbox row | .commit row => some row
    | _ => none
  | .change _ _ => none

def record : BookingCall → Option IdempotencyRow
  | .create c =>
    match c.phase with
    | .insertOutbox row | .commit row => c.keyRow row
    | _ => none
  | .change _ _ => none

def outbox : BookingCall → Option OutboxRow
  | .create c =>
    match c.phase with
    | .commit _ => some c.outboxRow
    | _ => none
  | .change c phase =>
    match phase with
    | .commit _ queued => if queued then some (c.outbox.row c.now) else none
    | _ => none

def processed : BookingCall → Option ProcessedRow
  | .create _ => none
  | .change c phase =>
    match phase with
    | .insertProcessed | .done => none
    | _ => c.processedRow

def changes : BookingCall → Option Uuid
  | .create _ => none
  | .change _ phase =>
    match phase with
    | .reread changed | .insertOutbox changed | .commit changed _ => changed
    | _ => none

end BookingCall

structure BookingCalls where
  db : BookingDb
  calls : List BookingCall

inductive CallLabel
  | createBooking (input : CreateBookingInput) (draw : Draw)
  | cancelBooking (id : String) (draw : Draw)
  | handleSeatsReserved (message : MessageEnvelope BookingEventQuantityPayload) (draw : Draw)
  | handleSeatReservationFailed (message : MessageEnvelope FailurePayload) (draw : Draw)
  | advance (call : Nat)
  | fault (call : Nat)
  | loseCommit (call : Nat)
  | bookkeep (op : Bookkeeping)
  deriving DecidableEq

namespace BookingCalls

def empty : BookingCalls := ⟨.empty, []⟩

def add (s : BookingCalls) (call : BookingCall) : BookingCalls := { s with calls := s.calls ++ [call] }

def goto (s : BookingCalls) (n : Nat) (call : BookingCall) : BookingCalls := { s with calls := s.calls.set n call }

def advanceCreate (s : BookingCalls) (n : Nat) (c : CreateCall) : Option BookingCalls :=
  match c.phase with
  | .lookup =>
    match c.key.bind fun key => findIdempotencyRecord key s.db with
    | some existing => some (s.goto n (.create { c with phase := .done (replay existing c.fingerprint) }))
    | none => some (s.goto n (.create { c with phase := .insertBooking, missed := true }))
  | .insertBooking =>
    match (createBookingData c.input c.draw).row c.draw.now with
    | .error e => some (s.goto n (.create { c with phase := .done (.error (.db e)) }))
    | .ok row =>
      match s.db.bookings.insertAmong (heldByOthers BookingCall.booking s.calls n) row with
      | .violation =>
        let taken := s.db.bookings.rows.any fun r =>
          r.idempotencyKey.isSome && decide (r.idempotencyKey = row.idempotencyKey)
        some (s.goto n (.create (c.violated !taken)))
      | .wait => none
      | .held => some (s.goto n (.create { c with phase := .insertKey row }))
  | .insertKey row =>
    match c.keyRow row with
    | none => some (s.goto n (.create { c with phase := .insertOutbox row }))
    | some record =>
      match s.db.idempotencyKeys.insertAmong (heldByOthers BookingCall.record s.calls n) record with
      | .violation => some (s.goto n (.create (c.violated false)))
      | .wait => none
      | .held => some (s.goto n (.create { c with phase := .insertOutbox row }))
  | .insertOutbox row =>
    match s.db.outbox.insertAmong (heldByOthers BookingCall.outbox s.calls n) c.outboxRow with
    | .violation => some (s.goto n (.create (c.violated true)))
    | .wait => none
    | .held => some (s.goto n (.create { c with phase := .commit row }))
  | .commit row =>
    (c.commit row s.db).map fun db =>
      { s with db }.goto n (.create { c with phase := .dispatch row.mapRow, committed := true })
  | .recoverKey =>
    match c.key.bind fun key => findIdempotencyRecord key s.db with
    | some existing =>
      match replay existing c.fingerprint with
      | .ok booking => some (s.goto n (.create { c with phase := .dispatch booking }))
      | .error e => some (s.goto n (.create { c with phase := .done (.error e) }))
    | none => some (s.goto n (.create { c with phase := .recoverBooking }))
  | .recoverBooking =>
    match c.key.bind fun key => findByIdempotencyKey key s.db with
    | some booking => some (s.goto n (.create { c with phase := .dispatch booking }))
    | none => some (s.goto n (.create { c with phase := .done (.error (.db .uniqueViolation)) }))
  | .dispatch booking => some (s.goto n (.create { c with phase := .done (.ok booking) }))
  | .done _ => none

def advanceChange (s : BookingCalls) (n : Nat) (c : StatusChange) (phase : ChangePhase) : Option BookingCalls :=
  match phase with
  | .insertProcessed =>
    match c.processedRow with
    | none => some (s.goto n (.change c .update))
    | some row =>
      match s.db.processed.insertAmong (heldByOthers BookingCall.processed s.calls n) row with
      | .violation => some (s.goto n (.change c .done))
      | .wait => none
      | .held => some (s.goto n (.change c .update))
  | .update =>
    match c.filter with
    | .error _ => some (s.goto n (.change c .done))
    | .ok w =>
      match s.db.bookings.rows.find? w.holds with
      | none => some (s.goto n (.change c (.reread none)))
      | some row =>
        if (heldByOthers BookingCall.changes s.calls n).contains row.id then none
        else some (s.goto n (.change c (.reread (some row.id))))
  | .reread changed =>
    match bookingFindUnique c.bookingId s.db with
    | .error _ => some (s.goto n (.change c .done))
    | .ok (booking, _) =>
      if c.declines changed booking then some (s.goto n (.change c (.commit changed false)))
      else some (s.goto n (.change c (.insertOutbox changed)))
  | .insertOutbox changed =>
    match s.db.outbox.insertAmong (heldByOthers BookingCall.outbox s.calls n) (c.outbox.row c.now) with
    | .violation => some (s.goto n (.change c .done))
    | .wait => none
    | .held => some (s.goto n (.change c (.commit changed true)))
  | .commit changed queued => (c.commit changed queued s.db).map fun db => { s with db }.goto n (.change c .done)
  | .done => none

def advance (s : BookingCalls) (n : Nat) : Option BookingCalls :=
  match s.calls[n]? with
  | some (.create c) => s.advanceCreate n c
  | some (.change c phase) => s.advanceChange n c phase
  | none => none

def fault (s : BookingCalls) (n : Nat) : Option BookingCalls :=
  match s.calls[n]? with
  | some (.create c) =>
    match c.phase with
    | .done _ => none
    | _ => some (s.goto n (.create c.fault))
  | some (.change c phase) =>
    match phase with
    | .done => none
    | _ => some (s.goto n (.change c .done))
  | none => none

/-- The server commits and the answer is lost. -/
def loseCommit (s : BookingCalls) (n : Nat) : Option BookingCalls :=
  match s.calls[n]? with
  | some (.create c) =>
    match c.phase with
    | .commit row => (c.commit row s.db).map fun db =>
        { s with db }.goto n (.create { c.fault with committed := true })
    | _ => none
  | _ => none

section
variable [Zod]

def exec (s : BookingCalls) : CallLabel → Option BookingCalls
  | .createBooking input draw =>
    if createBookingSchema input then some (s.add (.create (.begin input draw))) else none
  | .cancelBooking id draw =>
    if bookingIdParamSchema id then
      match bookingFindUnique id s.db with
      | .ok (some row, _) => some (s.add (.change (.cancelBooking id row.mapRow draw) .update))
      | _ => some s
    else none
  | .handleSeatsReserved message draw =>
    if messageEnvelopeSchema .seatsReserved (message.map .bookingEventQuantity) then
      some (s.add (.change (.handleSeatsReserved message draw) .insertProcessed))
    else none
  | .handleSeatReservationFailed message draw =>
    if messageEnvelopeSchema .seatReservationFailed (message.map .failure) then
      some (s.add (.change (.handleSeatReservationFailed message draw) .insertProcessed))
    else none
  | .advance n => s.advance n
  | .fault n => s.fault n
  | .loseCommit n => s.loseCommit n
  | .bookkeep op => some { s with db := { s.db with outbox := op.apply s.db.outbox } }

end

end BookingCalls

def bookingCalls [Zod] : Machine BookingCalls CallLabel where
  start s := s = BookingCalls.empty
  exec := BookingCalls.exec

end EventBooking
