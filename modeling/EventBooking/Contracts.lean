import EventBooking.Uuid

/-!
# The shared contracts

Topics, envelopes and payloads, and the schemas that requests and messages
must satisfy. The text formats are the schema library's: `Zod` holds its two
recognizers with what the services rely on.
-/

namespace EventBooking
open Lib

inductive Topic
  | reserveSeats
  | seatsReserved
  | seatReservationFailed
  | bookingConfirmed
  | bookingFailed
  | bookingCancelled
  deriving DecidableEq, Repr

def Topic.text : Topic → String
  | .reserveSeats => "booking.reserve-seats"
  | .seatsReserved => "event.seats-reserved"
  | .seatReservationFailed => "event.seat-reservation-failed"
  | .bookingConfirmed => "booking.confirmed"
  | .bookingFailed => "booking.failed"
  | .bookingCancelled => "booking.cancelled"

inductive BookingStatus
  | pending
  | confirmed
  | failed
  | cancelled
  | expired
  deriving DecidableEq, Repr

inductive FailureReason
  | insufficientSeats
  | eventNotFound
  deriving DecidableEq, Repr

structure ReserveSeatsPayload where
  bookingId : String
  eventId : String
  userId : String
  quantity : Int
  deriving DecidableEq

/-- The payload of `SEATS_RESERVED`, `BOOKING_CONFIRMED` and `BOOKING_CANCELLED`. -/
structure BookingEventQuantityPayload where
  bookingId : String
  eventId : String
  quantity : Int
  deriving DecidableEq

/-- The payload of `SEAT_RESERVATION_FAILED` and `BOOKING_FAILED`. -/
structure FailurePayload where
  bookingId : String
  eventId : String
  reason : FailureReason
  deriving DecidableEq

structure MessageEnvelope (π : Type) where
  eventId : Option String := none
  messageId : String
  correlationId : String
  timestamp : String
  version : Int
  payload : π
  deriving DecidableEq

inductive Payload
  | reserveSeats (p : ReserveSeatsPayload)
  | bookingEventQuantity (p : BookingEventQuantityPayload)
  | failure (p : FailurePayload)
  deriving DecidableEq

abbrev Message := MessageEnvelope Payload

def Payload.bookingId : Payload → String
  | .reserveSeats p => p.bookingId
  | .bookingEventQuantity p => p.bookingId
  | .failure p => p.bookingId

def Payload.eventId : Payload → String
  | .reserveSeats p => p.eventId
  | .bookingEventQuantity p => p.eventId
  | .failure p => p.eventId

def Payload.quantity : Payload → Option Int
  | .reserveSeats p => some p.quantity
  | .bookingEventQuantity p => some p.quantity
  | .failure _ => none

def MessageEnvelope.map {π π' : Type} (f : π → π') (m : MessageEnvelope π) : MessageEnvelope π' :=
  { m with payload := f m.payload }

section
variable {π π' : Type} (f : π → π') (m : MessageEnvelope π)

@[simp] theorem map_messageId : (m.map f).messageId = m.messageId := rfl
@[simp] theorem map_correlationId : (m.map f).correlationId = m.correlationId := rfl
@[simp] theorem map_payload : (m.map f).payload = f m.payload := rfl

end

/-! ## Errors -/

structure AppError where
  code : String
  message : String
  statusCode : Nat
  deriving DecidableEq

inductive ServiceError
  | app (e : AppError)
  | db (e : DbError)
  deriving DecidableEq

/-! ## Formats -/

class Zod where
  uuid : String → Bool
  datetime : String → Bool
  uuid_isUuidText : ∀ s, uuid s = true → isUuidText s = true
  uuid_toLowerCase : ∀ s, uuid s = true → uuid (toLowerCase s) = true
  uuid_randomUUID : ∀ r : RandomUUID, uuid r.text = true
  datetime_toISOString : ∀ d : Date, datetime (toISOString d) = true

/-- `z.number().int().positive()`: `int` admits safe integers only. -/
def positiveInt (n : Int) : Bool := decide (0 < n) && decide (n ≤ 9007199254740991)

theorem positiveInt_pos {n : Int} (h : positiveInt n = true) : 0 < n := by
  unfold positiveInt at h
  rw [Bool.and_eq_true, decide_eq_true_eq] at h
  exact h.1

section
variable [Zod]

theorem uuid_cast {s : String} (h : Zod.uuid s = true) : ∃ u, Uuid.cast s = .ok u :=
  Uuid.cast_ok_of_isText (Zod.uuid_isUuidText s h)

theorem uuid_text {s : String} (h : Zod.uuid s = true) {u : Uuid} (hu : Uuid.cast s = .ok u) :
    Zod.uuid u.text = true := by
  rw [(Uuid.cast_eq_ok.mp hu).2]
  exact Zod.uuid_toLowerCase s h

structure CreateBookingInput where
  userId : String
  eventId : String
  quantity : Int
  idempotencyKey : Option String
  deriving DecidableEq

def createBookingSchema (input : CreateBookingInput) : Bool :=
  Zod.uuid input.userId && Zod.uuid input.eventId && positiveInt input.quantity

def bookingIdParamSchema (id : String) : Bool := Zod.uuid id

def eventIdParamSchema (id : String) : Bool := Zod.uuid id

structure EventInput where
  title : String
  date : Date
  totalSeats : Int
  deriving DecidableEq

/-- `createEventSchema` and `updateEventSchema`, on a trimmed title and a date already read. -/
def eventSchema (input : EventInput) : Bool := decide (input.title ≠ "") && positiveInt input.totalSeats

def topicPayloadSchemas : Topic → Payload → Bool
  | .reserveSeats, .reserveSeats p =>
    Zod.uuid p.bookingId && Zod.uuid p.eventId && Zod.uuid p.userId && positiveInt p.quantity
  | .seatsReserved, .bookingEventQuantity p
  | .bookingConfirmed, .bookingEventQuantity p
  | .bookingCancelled, .bookingEventQuantity p =>
    Zod.uuid p.bookingId && Zod.uuid p.eventId && positiveInt p.quantity
  | .seatReservationFailed, .failure p
  | .bookingFailed, .failure p => Zod.uuid p.bookingId && Zod.uuid p.eventId
  | _, _ => false

def messageEnvelopeSchema (topic : Topic) (m : Message) : Bool :=
  m.eventId.all Zod.uuid && Zod.uuid m.messageId && Zod.uuid m.correlationId && Zod.datetime m.timestamp &&
    decide (m.version = 1) && topicPayloadSchemas topic m.payload

/-! ### What an accepted message holds -/

theorem bookingEventQuantity_parts {topic : Topic} {message : MessageEnvelope BookingEventQuantityPayload}
    (hs : messageEnvelopeSchema topic (message.map .bookingEventQuantity) = true) :
    (∃ b, Uuid.cast message.payload.bookingId = .ok b) ∧ (∃ u, Uuid.cast message.payload.eventId = .ok u) ∧
      0 < message.payload.quantity := by
  unfold messageEnvelopeSchema topicPayloadSchemas at hs
  simp only [map_payload, Bool.and_eq_true] at hs
  cases topic with
  | seatsReserved | bookingConfirmed | bookingCancelled =>
    simp only [Bool.and_eq_true] at hs
    exact ⟨uuid_cast hs.2.1.1, uuid_cast hs.2.1.2, positiveInt_pos hs.2.2⟩
  | _ => simp at hs

theorem reserveSchema_parts {message : MessageEnvelope ReserveSeatsPayload}
    (hs : messageEnvelopeSchema .reserveSeats (message.map .reserveSeats) = true) :
    (∃ u, Uuid.cast message.payload.eventId = .ok u) ∧ 0 < message.payload.quantity := by
  unfold messageEnvelopeSchema topicPayloadSchemas at hs
  simp only [map_payload, Bool.and_eq_true] at hs
  exact ⟨uuid_cast hs.2.1.1.2, positiveInt_pos hs.2.2⟩

end

end EventBooking
