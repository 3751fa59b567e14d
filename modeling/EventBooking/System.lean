import EventBooking.Lib.Machine
import EventBooking.Services
import EventBooking.Transactions

/-!
# The three services as one machine

The databases, the messages Kafka holds, and the calls between two of their
steps. A published message stays deliverable for ever, so redelivery and
reordering are choices of the run; a handler that crashes after its
transaction is one whose later steps never happen. Dispatchers may publish any
stored row and run their bookkeeping at any time, which includes every schedule
of `dispatchPending`.
-/

namespace EventBooking
open Lib

/-- The history of the seat columns: which messages were applied, and when an event row was created. -/
inductive SeatChange
  | created (eventId : Uuid)
  | reserved (messageId : String) (payload : ReserveSeatsPayload)
  | released (messageId : String) (payload : BookingEventQuantityPayload)
  deriving DecidableEq

structure System where
  booking : BookingDb
  event : EventDb
  notification : NotificationDb
  published : List (Topic × Message)
  readings : List (String × BookingDto)
  publishing : List DirectPublish
  changes : List SeatChange

def System.empty : System := ⟨.empty, .empty, .empty, [], [], [], []⟩

/-! ## Consumers -/

inductive Consumer
  | reserveSeats
  | releaseSeats
  | handleSeatsReserved
  | handleSeatReservationFailed
  | handleBookingConfirmed
  | handleBookingFailed
  | handleBookingCancelled
  deriving DecidableEq

def Consumer.topic : Consumer → Topic
  | .reserveSeats => .reserveSeats
  | .releaseSeats => .bookingCancelled
  | .handleSeatsReserved => .seatsReserved
  | .handleSeatReservationFailed => .seatReservationFailed
  | .handleBookingConfirmed => .bookingConfirmed
  | .handleBookingFailed => .bookingFailed
  | .handleBookingCancelled => .bookingCancelled

def System.reserveSeats (s : System) (message : MessageEnvelope ReserveSeatsPayload) (draw : Draw) : System :=
  match Tx.transact (EventBooking.reserveSeats message draw) draw.budget s.event with
  | (.error _, event) => { s with event }
  | (.ok result, event) =>
    { s with
      event
      publishing := s.publishing ++ (directPublish message draw result).toList
      changes := s.changes ++ match result with
        | .reserved _ _ => [.reserved message.messageId message.payload]
        | _ => [] }

def System.releaseSeats (s : System) (message : MessageEnvelope BookingEventQuantityPayload) (draw : Draw) :
    System :=
  match releaseSeatsCheck message with
  | .error _ => s
  | .ok () =>
    match Tx.transact (EventBooking.releaseSeats message draw) draw.budget s.event with
    | (.error _, event) => { s with event }
    | (.ok result, event) =>
      { s with
        event
        changes := s.changes ++ match result with
          | .released _ => [.released message.messageId message.payload]
          | _ => [] }

def System.settle (s : System) (t : Tx BookingDb SettleResult) (draw : Draw) : System :=
  { s with booking := (Tx.transact t draw.budget s.booking).2 }

def System.notify (s : System) (record : NotificationRecord) (draw : Draw) : System :=
  { s with notification := (appendIfUnprocessed record draw.id draw.now draw.budget s.notification).2 }

def System.deliver (s : System) (consumer : Consumer) (message : Message) (draw : Draw) : Option System :=
  match consumer, message.payload with
  | .reserveSeats, .reserveSeats p => some (s.reserveSeats (message.map fun _ => p) draw)
  | .releaseSeats, .bookingEventQuantity p => some (s.releaseSeats (message.map fun _ => p) draw)
  | .handleSeatsReserved, .bookingEventQuantity p =>
    some (s.settle (handleSeatsReserved (message.map fun _ => p) draw) draw)
  | .handleSeatReservationFailed, .failure p =>
    some (s.settle (handleSeatReservationFailed (message.map fun _ => p) draw) draw)
  | .handleBookingConfirmed, .bookingEventQuantity p =>
    some (s.notify (handleBookingConfirmed (message.map fun _ => p) draw) draw)
  | .handleBookingFailed, .failure p => some (s.notify (handleBookingFailed (message.map fun _ => p) draw) draw)
  | .handleBookingCancelled, .bookingEventQuantity p =>
    some (s.notify (handleBookingCancelled (message.map fun _ => p) draw) draw)
  | _, _ => none

/-! ## Dispatching -/

inductive Service
  | booking
  | event
  deriving DecidableEq

inductive Bookkeeping
  | claim (now : Date) (input : ClaimInput) (locked : List Uuid)
  | markPublished (now : Date) (id : Uuid) (workerId : Option String)
  | recordFailure (now : Date) (id : Uuid) (workerId error : String) (maxAttempts backoffSeconds : Nat)
  deriving DecidableEq

def Bookkeeping.apply (t : OutboxTable) : Bookkeeping → OutboxTable
  | .claim now input locked => (claimOutboxMessages now input locked t).2
  | .markPublished now id workerId => markOutboxPublished now id workerId t
  | .recordFailure now id workerId error maxAttempts backoffSeconds =>
    recordOutboxFailure now id workerId error maxAttempts backoffSeconds t

theorem contents_apply (t : OutboxTable) (op : Bookkeeping) : contents (op.apply t) = contents t := by
  cases op with
  | claim now input locked => exact contents_claim now input locked t
  | markPublished now id workerId => exact contents_markOutboxPublished now id workerId t
  | recordFailure now id workerId error maxAttempts backoff =>
    exact contents_recordOutboxFailure now id workerId error maxAttempts backoff t

def System.outbox (s : System) : Service → OutboxTable
  | .booking => s.booking.outbox
  | .event => s.event.outbox

def System.bookkeep (s : System) (op : Bookkeeping) : Service → System
  | .booking => { s with booking := { s.booking with outbox := op.apply s.booking.outbox } }
  | .event => { s with event := { s.event with outbox := op.apply s.event.outbox } }

def stored (t : OutboxTable) (topic : Topic) (message : Message) : Bool :=
  t.rows.any fun r => decide (r.topic = topic) && decide (r.message = message)

/-! ## Steps -/

inductive Label
  | createBooking (input : CreateBookingInput) (draw : Draw)
  | readBooking (id : String)
  | cancelBooking (id : String) (booking : BookingDto) (draw : Draw)
  | createEvent (input : EventInput) (draw : Draw)
  | updateEvent (id : String) (input : EventInput) (draw : Draw)
  | deleteEvent (id : String)
  | deliver (consumer : Consumer) (message : Message) (draw : Draw)
  | publishDirect (publish : DirectPublish)
  | dispatch (service : Service) (topic : Topic) (message : Message)
  | bookkeep (service : Service) (op : Bookkeeping)
  deriving DecidableEq

def System.createEvent (s : System) (input : EventInput) (draw : Draw) : System :=
  match eventCreate ⟨draw.id, input.title, input.date, input.totalSeats, none⟩ draw.now s.event with
  | .ok (_, event) => { s with event, changes := s.changes ++ [.created draw.id.val] }
  | .error _ => s

def delivered (s : System) (topic : Topic) (message : Message) : Bool := decide ((topic, message) ∈ s.published)

section
variable [Zod]

def System.exec (deliverable : System → Topic → Message → Bool) (s : System) : Label → Option System
  | .createBooking input draw =>
    if createBookingSchema input then
      some { s with booking := (Tx.transact (EventBooking.createBooking input draw) draw.budget s.booking).2 }
    else none
  | .readBooking id =>
    if bookingIdParamSchema id then
      match bookingFindUnique id s.booking with
      | .ok (some row, _) => some { s with readings := s.readings ++ [(id, row.mapRow)] }
      | _ => none
    else none
  | .cancelBooking id booking draw =>
    if (id, booking) ∈ s.readings then
      some { s with booking := (Tx.transact (EventBooking.cancelBooking id booking draw) draw.budget s.booking).2 }
    else none
  | .createEvent input draw => if eventSchema input then some (s.createEvent input draw) else none
  | .updateEvent id input draw =>
    if eventIdParamSchema id && eventSchema input then
      some { s with event := (autocommit (updateStatement id input draw.now) s.event).2 }
    else none
  | .deleteEvent id =>
    if eventIdParamSchema id then some { s with event := (autocommit (deleteStatement id) s.event).2 } else none
  | .deliver consumer message draw =>
    if deliverable s consumer.topic message then s.deliver consumer message draw else none
  | .publishDirect publish =>
    if publish ∈ s.publishing then some { s with published := s.published ++ [(publish.topic, publish.message)] }
    else none
  | .dispatch service topic message =>
    if stored (s.outbox service) topic message then some { s with published := s.published ++ [(topic, message)] }
    else none
  | .bookkeep service op => some (s.bookkeep op service)

/-- The services with what Kafka may deliver. -/
def services (deliverable : System → Topic → Message → Bool) : Machine System Label where
  start s := s = System.empty
  exec := System.exec deliverable

/-- Kafka delivers what was published. -/
def closed : Machine System Label := services delivered

/-- Anything the schemas accept may arrive. -/
def opened : Machine System Label := services fun _ topic message => messageEnvelopeSchema topic message

end

end EventBooking
