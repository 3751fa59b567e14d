import EventBooking.SeatLedger

/-!
# The journey of a booking

A booking passes through seven phases, spread over two databases and the
messages between them. What each phase leaves in the outbox of either service,
in the inbox of the other one and in the history of the seats is fixed by the
phase; `Journey` says that the tables show exactly that.
-/

namespace EventBooking
open Lib

/-! ## Phases -/

inductive Phase
  | requested
  | held
  | refused
  | confirmed
  | failed
  | cancelling
  | released
  deriving DecidableEq

/-- The only ways a phase changes. -/
inductive Phase.Next : Phase → Phase → Prop
  | reserve : Next .requested .held
  | refuse : Next .requested .refused
  | confirm : Next .held .confirmed
  | fail : Next .refused .failed
  | cancel : Next .confirmed .cancelling
  | release : Next .cancelling .released

namespace Phase

def status : Phase → BookingStatus
  | requested | held | refused => .pending
  | confirmed => .confirmed
  | failed => .failed
  | cancelling | released => .cancelled

/-- The booking's rows in `booking_outbox_events`, each with whether the Event
Service has consumed it; news is only sent of a request that named its event
canonically. -/
def sent (canonical : Bool) : Phase → List (Topic × Bool)
  | requested => [(.reserveSeats, false)]
  | held | refused => [(.reserveSeats, true)]
  | confirmed => (.reserveSeats, true) :: if canonical then [(.bookingConfirmed, false)] else []
  | failed => (.reserveSeats, true) :: if canonical then [(.bookingFailed, false)] else []
  | cancelling =>
    (.reserveSeats, true) :: (if canonical then [(.bookingConfirmed, false)] else []) ++
    [(.bookingCancelled, false)]
  | released =>
    (.reserveSeats, true) :: (if canonical then [(.bookingConfirmed, false)] else []) ++ [(.bookingCancelled, true)]

/-- The booking's rows in `event_outbox_events`, each with whether the Booking Service has consumed it. -/
def answers : Phase → List (Topic × Bool)
  | requested => []
  | held => [(.seatsReserved, false)]
  | refused => [(.seatReservationFailed, false)]
  | confirmed | cancelling | released => [(.seatsReserved, true)]
  | failed => [(.seatReservationFailed, true)]

/-- What the history of the seats holds for the booking: `true` for its reservation, `false` for its release. -/
def applied : Phase → List Bool
  | requested | refused | failed => []
  | held | confirmed | cancelling => [true]
  | released => [true, false]

/-- The phases in which the booking's seats are taken. -/
def holds (p : Phase) : Bool := p.applied == [true]

end Phase

/-! ## What the tables show -/

def concerning (bookingId : String) (m : StoredMessage) : Bool := decide (m.message.payload.bookingId = bookingId)

def tokens (c : List StoredMessage) (consumed : List String) (bookingId : String) : List (Topic × Bool) :=
  (c.filter (concerning bookingId)).map fun m => (m.topic, decide (m.messageId ∈ consumed))

def SeatChange.concerning (bookingId : String) : SeatChange → Option Bool
  | .created _ => none
  | .reserved _ p => if p.bookingId = bookingId then some true else none
  | .released _ p => if p.bookingId = bookingId then some false else none

def appliedTo (changes : List SeatChange) (bookingId : String) : List Bool :=
  changes.filterMap (SeatChange.concerning bookingId)

theorem tokens_append (c : List StoredMessage) (m : StoredMessage) (consumed : List String) (bookingId : String) :
    tokens (c ++ [m]) consumed bookingId = tokens c consumed bookingId ++
      if m.message.payload.bookingId = bookingId then [(m.topic, decide (m.messageId ∈ consumed))] else [] := by
  unfold tokens concerning
  rw [List.filter_append, List.map_append]
  by_cases h : m.message.payload.bookingId = bookingId
  · rw [if_pos h]; simp [h]
  · rw [if_neg h]; simp [h]

theorem tokens_consume_other {c : List StoredMessage} {consumed : List String} {id bookingId : String}
    (h : ∀ m ∈ c, m.message.payload.bookingId = bookingId → m.messageId ≠ id) :
    tokens c (consumed ++ [id]) bookingId = tokens c consumed bookingId := by
  unfold tokens
  apply List.map_congr_left; intro m hm
  obtain ⟨hm, hb⟩ := List.mem_filter.mp hm
  have := h m hm (of_decide_eq_true hb)
  simp [this]

/-- Consuming a stored message turns its token over, when no other message of the booking has its topic. -/
theorem tokens_consume {c : List StoredMessage} {consumed : List String} {m : StoredMessage} (hm : m ∈ c)
    (hid : ∀ x ∈ c, x.messageId = m.messageId → x = m)
    (ht : ((tokens c consumed m.message.payload.bookingId).map Prod.fst).Nodup) :
    tokens c (consumed ++ [m.messageId]) m.message.payload.bookingId =
      (tokens c consumed m.message.payload.bookingId).map fun t => (t.1, t.2 || decide (t.1 = m.topic)) := by
  unfold tokens at ht ⊢
  rw [List.map_map] at ht ⊢
  apply List.map_congr_left; intro x hx
  have hmem : m ∈ c.filter (concerning m.message.payload.bookingId) := by
    rw [List.mem_filter]; exact ⟨hm, decide_eq_true rfl⟩
  have htopic : x.topic = m.topic ↔ x.messageId = m.messageId := by
    constructor
    · intro e
      rw [List.inj_on_of_nodup_map ht hx hmem e]
    · intro e
      rw [hid x (List.mem_filter.mp hx).1 e]
  simp only [Function.comp, List.mem_append, List.mem_singleton, Bool.decide_or, htopic]

theorem mem_tokens {c : List StoredMessage} {consumed : List String} {m : StoredMessage} (hm : m ∈ c) :
    (m.topic, decide (m.messageId ∈ consumed)) ∈ tokens c consumed m.message.payload.bookingId := by
  unfold tokens
  rw [List.mem_map]
  refine ⟨m, ?_, rfl⟩
  rw [List.mem_filter]; exact ⟨hm, decide_eq_true rfl⟩

theorem appliedTo_append (changes : List SeatChange) (c : SeatChange) (bookingId : String) :
    appliedTo (changes ++ [c]) bookingId = appliedTo changes bookingId ++ (c.concerning bookingId).toList := by
  unfold appliedTo
  rw [List.filterMap_append]
  cases h : c.concerning bookingId <;> simp [h]

end EventBooking
