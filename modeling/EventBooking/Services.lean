import EventBooking.BookingRepository
import EventBooking.InventoryRepository
import EventBooking.NotificationRepository

/-!
# The services' handlers

What each request handler and message consumer builds from its input before it
calls its repository: identifiers, envelopes, outbox rows. A `Draw` holds what
a call takes from its surroundings.
-/

namespace EventBooking
open Lib

/-- The random identifiers of a call, its clock reads (`sent` and `later` in
the process, `now` in the database) and the fate of its connection. -/
structure Draw where
  id : RandomUUID
  rowId : RandomUUID
  messageId : RandomUUID
  otherRowId : RandomUUID
  otherMessageId : RandomUUID
  sent : Date
  now : Date
  later : Date
  budget : Option Nat
  deriving DecidableEq

def envelope {π : Type} (messageId : RandomUUID) (correlationId : String) (sent : Date) (payload : π) :
    MessageEnvelope π where
  messageId := messageId.text
  correlationId := correlationId
  timestamp := toISOString sent
  version := 1
  payload := payload

def outboxInsert (id : RandomUUID) (topic : Topic) (message : Message) : OutboxInsert :=
  ⟨id, topic, message.messageId, message⟩

/-! ## Bookings -/

/-- The characters `String.prototype.trim` strips. -/
def whiteSpace : List Char :=
  [9, 10, 11, 12, 13, 32, 160, 5760, 8192, 8193, 8194, 8195, 8196, 8197, 8198, 8199, 8200, 8201, 8202,
    8232, 8233, 8239, 8287, 12288, 65279].map Char.ofNat

def trim (s : String) : String :=
  let start := s.toList.dropWhile whiteSpace.contains
  String.ofList (start.reverse.dropWhile whiteSpace.contains).reverse

def createBookingRequestFingerprint (input : CreateBookingInput) : String :=
  String.intercalate ":"
    ["v1", toLowerCase (trim input.userId), toLowerCase (trim input.eventId), toString input.quantity]

def createBookingData (input : CreateBookingInput) (draw : Draw) : CreateBookingData where
  id := draw.id
  userId := input.userId
  eventId := input.eventId
  quantity := input.quantity
  status := .pending
  idempotencyKey := input.idempotencyKey
  requestFingerprint := createBookingRequestFingerprint input

def reserveSeatsMessage (input : CreateBookingInput) (draw : Draw) : MessageEnvelope ReserveSeatsPayload :=
  { envelope draw.messageId draw.id.text draw.sent
      { bookingId := draw.id.text
        eventId := input.eventId
        userId := input.userId
        quantity := input.quantity } with
    eventId := some input.eventId }

def createBookingOutbox (input : CreateBookingInput) (draw : Draw) : OutboxInsert :=
  outboxInsert draw.rowId .reserveSeats ((reserveSeatsMessage input draw).map .reserveSeats)

def createBooking (input : CreateBookingInput) (draw : Draw) : Tx BookingDb BookingDto :=
  createBookingTx (createBookingData input draw) (createBookingOutbox input draw) draw.now

def bookingCancelledMessage (booking : BookingDto) (draw : Draw) : MessageEnvelope BookingEventQuantityPayload :=
  { envelope draw.messageId booking.id draw.sent ⟨booking.id, booking.eventId, booking.quantity⟩ with
    eventId := some booking.eventId }

def cancelBookingOutbox (booking : BookingDto) (draw : Draw) : OutboxInsert :=
  outboxInsert draw.rowId .bookingCancelled ((bookingCancelledMessage booking draw).map .bookingEventQuantity)

/-- The transaction of `cancelBooking`, after `getBookingById(id)` returned `booking`. -/
def cancelBooking (id : String) (booking : BookingDto) (draw : Draw) : Tx BookingDb CancelBookingResult :=
  cancelBookingWithOutbox id (cancelBookingOutbox booking draw) draw.now

def handleSeatsReserved (message : MessageEnvelope BookingEventQuantityPayload) (draw : Draw) :
    Tx BookingDb SettleResult :=
  let confirmedMessage := envelope draw.messageId message.correlationId draw.sent message.payload
  processSeatsReservedMessage message.messageId message.payload.bookingId message.payload.eventId
    message.payload.quantity (outboxInsert draw.rowId .bookingConfirmed
      (confirmedMessage.map .bookingEventQuantity))
    draw.now

def handleSeatReservationFailed (message : MessageEnvelope FailurePayload) (draw : Draw) :
    Tx BookingDb SettleResult :=
  let failedMessage := envelope draw.messageId message.correlationId draw.sent message.payload
  processSeatReservationFailedMessage message.messageId message.payload.bookingId message.payload.eventId
    (outboxInsert draw.rowId .bookingFailed (failedMessage.map .failure)) draw.now

/-! ## Inventory -/

def successMessage (message : MessageEnvelope ReserveSeatsPayload) (draw : Draw) :
    MessageEnvelope BookingEventQuantityPayload :=
  envelope draw.messageId message.correlationId draw.sent
    ⟨message.payload.bookingId, message.payload.eventId, message.payload.quantity⟩

def failedMessage (message : MessageEnvelope ReserveSeatsPayload) (reason : FailureReason) (draw : Draw) :
    MessageEnvelope FailurePayload :=
  envelope draw.otherMessageId message.correlationId draw.later
    ⟨message.payload.bookingId, message.payload.eventId, reason⟩

def processReserveSeatsInput (message : MessageEnvelope ReserveSeatsPayload) (draw : Draw) :
    ProcessReserveSeatsInput where
  messageId := message.messageId
  eventId := message.payload.eventId
  quantity := message.payload.quantity
  outboxOnSuccess :=
    some (outboxInsert draw.rowId .seatsReserved ((successMessage message draw).map .bookingEventQuantity))
  outboxOnFailure :=
    some
      { id := draw.otherRowId
        topic := .seatReservationFailed
        messageId := draw.otherMessageId.text
        correlationId := message.correlationId
        bookingId := message.payload.bookingId }

def reserveSeats (message : MessageEnvelope ReserveSeatsPayload) (draw : Draw) : Tx EventDb ReserveSeatsResult :=
  processReserveSeatsMessage (processReserveSeatsInput message draw) draw.sent draw.now

/-- A message the handler publishes itself, and the outbox row it then closes. -/
structure DirectPublish where
  topic : Topic
  message : Message
  outboxRowId : Option RandomUUID
  deriving DecidableEq

/-- What is left of `reserveSeats` after its transaction. -/
def directPublish (message : MessageEnvelope ReserveSeatsPayload) (draw : Draw) :
    ReserveSeatsResult → Option DirectPublish
  | .duplicate => none
  | .reserved _ outboxRowId =>
    some ⟨.seatsReserved, (successMessage message draw).map .bookingEventQuantity, outboxRowId⟩
  | .rejected reason outboxRowId =>
    let failure := match reason with
      | .failure .eventNotFound => FailureReason.eventNotFound
      | _ => .insufficientSeats
    some ⟨.seatReservationFailed, (failedMessage message failure draw).map .failure, outboxRowId⟩

/-- The check of `releaseSeats` before its transaction. -/
def releaseSeatsCheck (message : MessageEnvelope BookingEventQuantityPayload) : Except ServiceError Unit :=
  if message.payload.quantity ≤ 0 then .error (.app InventoryErrors.invalidQuantity) else .ok ()

theorem releaseSeatsCheck_cases (message : MessageEnvelope BookingEventQuantityPayload) :
    (0 < message.payload.quantity ∧ releaseSeatsCheck message = .ok ()) ∨
      (message.payload.quantity ≤ 0 ∧
          releaseSeatsCheck message = .error (.app InventoryErrors.invalidQuantity)) := by
  unfold releaseSeatsCheck
  by_cases h : message.payload.quantity ≤ 0
  · exact Or.inr ⟨h, if_pos h⟩
  · exact Or.inl ⟨Int.not_le.mp h, if_neg h⟩

theorem releaseSeatsCheck_ok {message : MessageEnvelope BookingEventQuantityPayload}
    (h : 0 < message.payload.quantity) :
    releaseSeatsCheck message = .ok () := if_neg (Int.not_le.mpr h)

/-- The transaction of `releaseSeats`. -/
def releaseSeats (message : MessageEnvelope BookingEventQuantityPayload) (draw : Draw) :
    Tx EventDb ReleaseSeatsResult :=
  processReleaseSeatsMessage ⟨message.messageId, message.payload.eventId, message.payload.quantity⟩ draw.now

/-! ## Events -/

/-- The reply of `updateEvent` to its UPDATE; the re-read of a refusal sees `later`. -/
def updateEvent (id : String) (row : Except DbError (Option EventRow)) (later : EventDb) :
    Except ServiceError EventDto :=
  match row >>= fun row => updateResult id row later with
  | .error e => .error (.db e)
  | .ok (.updated event) => .ok event
  | .ok .notFound => .error (.app EventErrors.notFound)
  | .ok .capacityBelowReserved => .error (.app EventErrors.capacityBelowReservedSeats)

def deleteEvent (id : String) (deleted : Except DbError (Option Uuid)) (later : EventDb) :
    Except ServiceError Unit :=
  match deleted >>= fun deleted => deleteResult id deleted later with
  | .error e => .error (.db e)
  | .ok .deleted => .ok ()
  | .ok .notFound => .error (.app EventErrors.notFound)
  | .ok .hasReservations => .error (.app EventErrors.hasReservations)

/-! ## Notifications -/

def notificationRecord (text : String) (type : NotificationType)
    (messageId correlationId bookingId eventId : String)
    (reason : Option FailureReason) (draw : Draw) : NotificationRecord :=
  ⟨draw.sent, text, type, messageId, correlationId, bookingId, eventId, reason⟩

def handleBookingConfirmed (message : MessageEnvelope BookingEventQuantityPayload) (draw : Draw) :
    NotificationRecord :=
  notificationRecord "Booking confirmed" .bookingConfirmed message.messageId message.correlationId
    message.payload.bookingId message.payload.eventId none draw

def handleBookingFailed (message : MessageEnvelope FailurePayload) (draw : Draw) : NotificationRecord :=
  notificationRecord "Booking failed" .bookingFailed message.messageId message.correlationId
    message.payload.bookingId message.payload.eventId (some message.payload.reason) draw

def handleBookingCancelled (message : MessageEnvelope BookingEventQuantityPayload) (draw : Draw) :
    NotificationRecord :=
  notificationRecord "Booking cancelled" .bookingCancelled message.messageId message.correlationId
    message.payload.bookingId message.payload.eventId none draw

end EventBooking
