import EventBooking.System
import EventBooking.Lib.Sessions

/-!
# Concurrent calls of the Event Service

The event database under any number of `reserveSeats` and `releaseSeats`
transactions, one awaited statement at a time. An INSERT that clashes with a
row of another open transaction waits for that transaction to end, and an
UPDATE or DELETE waits for a row that another one has changed; a row that its
guard passes over it does not wait for.
-/

namespace EventBooking
open Lib

/-! ## The two transactions -/

inductive SeatRequest
  | reserveSeats (message : MessageEnvelope ReserveSeatsPayload) (draw : Draw)
  | releaseSeats (message : MessageEnvelope BookingEventQuantityPayload) (draw : Draw)
  deriving DecidableEq

/-- How the statements between the inbox row and the COMMIT came out: the row the
UPDATE returned, or the row that was found when it returned none. -/
inductive SeatOutcome
  | invalidQuantity
  | applied (row : EventRow)
  | refused (event : Option EventRow)
  deriving DecidableEq

inductive SeatReply
  | reserveSeats (result : ReserveSeatsResult)
  | releaseSeats (result : ReleaseSeatsResult)
  deriving DecidableEq

def SeatOutcome.updated : SeatOutcome → Option EventRow
  | .applied row => some row
  | _ => none

/-- The row the UPDATE returned is what the transaction leaves in `events`. -/
def SeatOutcome.write (t : Table eventTableSchema) : SeatOutcome → Table eventTableSchema
  | .applied row => t.replace row fun _ _ _ => rfl
  | _ => t

namespace SeatRequest

def messageId : SeatRequest → String
  | .reserveSeats message _ => message.messageId
  | .releaseSeats message _ => message.messageId

def eventId : SeatRequest → String
  | .reserveSeats message _ => message.payload.eventId
  | .releaseSeats message _ => message.payload.eventId

def quantity : SeatRequest → Int
  | .reserveSeats message _ => message.payload.quantity
  | .releaseSeats message _ => message.payload.quantity

def now : SeatRequest → Date
  | .reserveSeats _ draw => draw.now
  | .releaseSeats _ draw => draw.now

def check : SeatRequest → Except ServiceError Unit
  | .reserveSeats _ _ => .ok ()
  | .releaseSeats message _ => releaseSeatsCheck message

def processedRow (r : SeatRequest) : ProcessedRow := ⟨r.messageId, r.now⟩

def statement (r : SeatRequest) : EventDb → Except DbError (Option EventRow × EventDb) :=
  match r with
  | .reserveSeats message draw => reserveStatement message.payload.eventId message.payload.quantity draw.now
  | .releaseSeats message draw => releaseStatement message.payload.eventId message.payload.quantity draw.now

def outbox : SeatRequest → SeatOutcome → Option OutboxInsert
  | .reserveSeats message draw, .applied _ => (processReserveSeatsInput message draw).outboxOnSuccess
  | .reserveSeats message draw, .refused event =>
    (processReserveSeatsInput message draw).outboxOnFailure.map fun o =>
      o.outbox message.payload.eventId (failureReason event) draw.sent
  | _, _ => none

def reply : SeatRequest → SeatOutcome → SeatReply
  | .reserveSeats _ _, .invalidQuantity => .reserveSeats (.rejected .invalidQuantity none)
  | .reserveSeats message draw, .applied row =>
    .reserveSeats (.reserved row.mapRow ((processReserveSeatsInput message draw).outboxOnSuccess.map (·.id)))
  | .reserveSeats message draw, .refused event =>
    .reserveSeats (.rejected (.failure (failureReason event))
      ((processReserveSeatsInput message draw).outboxOnFailure.map (·.id)))
  | .releaseSeats _ _, .invalidQuantity => .releaseSeats (.rejected .invalidQuantity)
  | .releaseSeats _ _, .applied row => .releaseSeats (.released row.mapRow)
  | .releaseSeats _ _, .refused event =>
    .releaseSeats (.rejected (if event.isSome then .capacityExceeded else .eventNotFound))

def outboxRow (r : SeatRequest) (outcome : SeatOutcome) : Option OutboxRow := (r.outbox outcome).map (·.row r.now)

def commit (r : SeatRequest) (outcome : SeatOutcome) (db : EventDb) : Option EventDb := do
  let processed ← db.processed.insert r.processedRow
  let outbox ← db.outbox.insertOption (r.outboxRow outcome)
  return { events := outcome.write db.events, processed, outbox }

/-- The whole transaction at once, on a connection that holds. -/
def atomic (r : SeatRequest) (db : EventDb) : Except DbError SeatReply × EventDb :=
  match r with
  | .reserveSeats message draw =>
    let (result, db') := Tx.transact (EventBooking.reserveSeats message draw) none db
    (result.map .reserveSeats, db')
  | .releaseSeats message draw =>
    let (result, db') := Tx.transact (EventBooking.releaseSeats message draw) none db
    (result.map .releaseSeats, db')

end SeatRequest

/-! ## Sessions -/

inductive SeatPhase
  | insertProcessed
  | update
  | reread
  | insertOutbox (outcome : SeatOutcome)
  | commit (outcome : SeatOutcome)
  | committed (outcome : SeatOutcome)
  | duplicate
  | failed (error : DbError)
  deriving DecidableEq

structure SeatCall where
  request : SeatRequest
  phase : SeatPhase
  deriving DecidableEq

namespace SeatCall

def processed (c : SeatCall) : Option ProcessedRow :=
  match c.phase with
  | .update | .reread | .insertOutbox _ | .commit _ => some c.request.processedRow
  | _ => none

def changes (c : SeatCall) : Option Uuid :=
  match c.phase with
  | .insertOutbox (.applied row) | .commit (.applied row) => some row.id
  | _ => none

def outbox (c : SeatCall) : Option OutboxRow :=
  match c.phase with
  | .commit outcome => c.request.outboxRow outcome
  | _ => none

def ended (c : SeatCall) : Bool :=
  match c.phase with
  | .committed _ | .duplicate | .failed _ => true
  | _ => false

end SeatCall

structure SeatCalls where
  db : EventDb
  calls : List SeatCall

inductive SeatLabel
  | begin (request : SeatRequest)
  | advance (call : Nat)
  | fault (call : Nat)
  | loseCommit (call : Nat)
  | createEvent (input : EventInput) (draw : Draw)
  | updateEvent (id : String) (input : EventInput) (now : Date)
  | deleteEvent (id : String)
  | bookkeep (op : Bookkeeping)
  deriving DecidableEq

namespace SeatCalls

def empty : SeatCalls := ⟨.empty, []⟩

def goto (s : SeatCalls) (n : Nat) (c : SeatCall) (phase : SeatPhase) : SeatCalls :=
  { s with calls := s.calls.set n { c with phase } }

/-- The row is changed by an open transaction. -/
def locked (s : SeatCalls) (id : Uuid) : Bool := (s.calls.filterMap SeatCall.changes).contains id

def advanceCall (s : SeatCalls) (n : Nat) (c : SeatCall) : Option SeatCalls :=
  match c.phase with
  | .insertProcessed =>
    match s.db.processed.insertAmong (heldByOthers SeatCall.processed s.calls n) c.request.processedRow with
    | .violation => some (s.goto n c .duplicate)
    | .wait => none
    | .held => some (s.goto n c (if c.request.quantity ≤ 0 then .commit .invalidQuantity else .update))
  | .update =>
    match c.request.statement s.db with
    | .error e => some (s.goto n c (.failed e))
    | .ok (none, _) => some (s.goto n c .reread)
    | .ok (some row, _) =>
      if (heldByOthers SeatCall.changes s.calls n).contains row.id then none
      else some (s.goto n c (.insertOutbox (.applied row)))
  | .reread =>
    match eventFindUnique c.request.eventId s.db with
    | .error e => some (s.goto n c (.failed e))
    | .ok (event, _) => some (s.goto n c (.insertOutbox (.refused event)))
  | .insertOutbox outcome =>
    match c.request.outboxRow outcome with
    | none => some (s.goto n c (.commit outcome))
    | some row =>
      match s.db.outbox.insertAmong (heldByOthers SeatCall.outbox s.calls n) row with
      | .violation => some (s.goto n c (.failed .uniqueViolation))
      | .wait => none
      | .held => some (s.goto n c (.commit outcome))
  | .commit outcome => (c.request.commit outcome s.db).map fun db => { s with db }.goto n c (.committed outcome)
  | .committed _ | .duplicate | .failed _ => none

def advance (s : SeatCalls) (n : Nat) : Option SeatCalls := s.calls[n]?.bind (s.advanceCall n)

/-- The connection fails under the awaited statement: the transaction is rolled back. -/
def fault (s : SeatCalls) (n : Nat) : Option SeatCalls :=
  s.calls[n]?.bind fun c => if c.ended then none else some (s.goto n c (.failed .unavailable))

/-- The server commits and the answer is lost. -/
def loseCommit (s : SeatCalls) (n : Nat) : Option SeatCalls :=
  s.calls[n]?.bind fun c =>
    match c.phase with
    | .commit outcome =>
      (c.request.commit outcome s.db).map fun db => { s with db }.goto n c (.failed .unavailable)
    | _ => none

def exec (s : SeatCalls) : SeatLabel → Option SeatCalls
  | .begin request =>
    match request.check with
    | .error _ => some s
    | .ok () => some { s with calls := s.calls ++ [⟨request, .insertProcessed⟩] }
  | .advance n => s.advance n
  | .fault n => s.fault n
  | .loseCommit n => s.loseCommit n
  | .createEvent input draw =>
    match eventCreate ⟨draw.id, input.title, input.date, input.totalSeats, none⟩ draw.now s.db with
    | .ok (_, db) => some { s with db }
    | .error _ => some s
  | .updateEvent id input now =>
    match updateStatement id input now s.db with
    | .ok (some row, db) => if s.locked row.id then none else some { s with db }
    | _ => some s
  | .deleteEvent id =>
    match deleteStatement id s.db with
    | .ok (some row, db) => if s.locked row then none else some { s with db }
    | _ => some s
  | .bookkeep op => some { s with db := { s.db with outbox := op.apply s.db.outbox } }

end SeatCalls

def seatCalls : Machine SeatCalls SeatLabel where
  start s := s = SeatCalls.empty
  exec := SeatCalls.exec

end EventBooking
