import EventBooking.Refinement
import EventBooking.Zod4

/-!
# Seats and bookings agree

Two databases that only share messages: the seats an event's row has given
away are those of the bookings whose reservation was applied and whose
cancellation was not.
-/

namespace EventBooking
open Lib

/-- The booking's reservation was applied and no cancellation of it was. -/
def unreleased (changes : List SeatChange) (b : BookingRow) : Bool :=
  decide (true ∈ appliedTo changes b.id.text) && !decide (false ∈ appliedTo changes b.id.text)

def seatsOf (s : System) (e : Uuid) (p : BookingRow → Bool) : Int :=
  s.booking.bookings.sum fun b => if b.eventId = e ∧ p b = true then b.quantity else 0

def confirmed (b : BookingRow) : Bool := decide (b.status = .confirmed)

/-- Both inboxes hold what the other service's outbox has for them. -/
structure Quiet (s : System) : Prop where
  requests : ∀ m ∈ contents s.booking.outbox, m.topic = .reserveSeats ∨ m.topic = .bookingCancelled →
    m.messageId ∈ inbox s.event.processed
  outcomes : ∀ m ∈ contents s.event.outbox, m.messageId ∈ inbox s.booking.processed

structure SeatsConserved (s : System) : Prop where
  conserved : ∀ row ∈ s.event.events.rows,
    row.seats.total - row.seats.available = seatsOf s row.id (unreleased s.changes)
  bounded : ∀ row ∈ s.event.events.rows, 0 ≤ row.seats.available ∧ row.seats.available ≤ row.seats.total
  confirmed_hold : ∀ b ∈ s.booking.bookings.rows, b.status = .confirmed → unreleased s.changes b = true
  failed_hold_none : ∀ b ∈ s.booking.bookings.rows, b.status = .failed → appliedTo s.changes b.id.text = []
  not_oversold : ∀ row ∈ s.event.events.rows, seatsOf s row.id confirmed ≤ row.seats.total
  quiet : Quiet s → ∀ row ∈ s.event.events.rows,
    row.seats.total - row.seats.available = seatsOf s row.id confirmed

section
variable {s : System} {b : BookingRow}

theorem Phase.unreleased_iff (p : Phase) :
    (decide (true ∈ p.applied) && !decide (false ∈ p.applied)) = p.holds := by
  cases p <;> rfl

theorem Journey.unreleased {g : Saga} {canonical : Bool} {p : Phase} (h : Journey g b canonical p) :
    unreleased g.changes b = p.holds := by
  unfold EventBooking.unreleased
  rw [h.applied, p.unreleased_iff]

variable (hi : Inv s)
include hi

theorem Inv.phase (hb : b ∈ s.booking.bookings.rows) : ∃ c p, Journey s.saga b c p := by
  obtain ⟨_, p, _, hj⟩ := hi.sound.journeys b hb
  exact ⟨_, p, hj⟩

theorem Inv.held_eq (e : Uuid) : held s.saga e = seatsOf s e (unreleased s.changes) := by
  apply Table.sum_congr; intro b hb
  obtain ⟨c, p, hj⟩ := hi.phase hb
  rw [hj.share_eq]
  unfold Phase.share
  rw [← hj.unreleased]; rfl

theorem Inv.reserved_eq {row : EventRow} (hrow : row ∈ s.event.events.rows) :
    row.seats.total - row.seats.available = seatsOf s row.id (unreleased s.changes) := by
  rw [← hi.held_eq, ← hi.balanced, ← hi.ledger.balanced, reservedFor_of_mem hrow]; rfl

theorem Inv.confirmed_hold (hb : b ∈ s.booking.bookings.rows) (h : b.status = .confirmed) :
    unreleased s.changes b = true := by
  obtain ⟨c, p, hj⟩ := hi.phase hb
  rw [show unreleased s.changes b = p.holds from hj.unreleased]
  have hp := hj.status.symm.trans h
  cases p <;> first | rfl | cases hp

theorem Inv.confirmed_le (e : Uuid) : seatsOf s e confirmed ≤ seatsOf s e (unreleased s.changes) := by
  apply Table.sum_le; intro b hb
  have hpos := hi.sound.positive b hb
  by_cases hc : b.eventId = e ∧ confirmed b = true
  · have hu := hi.confirmed_hold hb (of_decide_eq_true hc.2)
    rw [if_pos hc, if_pos ⟨hc.1, hu⟩]
  · rw [if_neg hc]
    split <;> omega

theorem Inv.quiet_unreleased (hq : Quiet s) (hb : b ∈ s.booking.bookings.rows) :
    unreleased s.changes b = confirmed b := by
  obtain ⟨c, p, hj⟩ := hi.phase hb
  have hsent : ∀ t ∈ p.sent c, t.1 = .reserveSeats ∨ t.1 = .bookingCancelled → t.2 = true := by
    intro t ht hc
    rw [← hj.sent] at ht
    obtain ⟨m, hm, rfl⟩ := List.mem_map.mp ht
    exact decide_eq_true (hq.requests m (List.mem_filter.mp hm).1 hc)
  have hanswers : ∀ t ∈ p.answers, t.2 = true := by
    intro t ht
    rw [← hj.answers] at ht
    obtain ⟨m, hm, rfl⟩ := List.mem_map.mp ht
    exact decide_eq_true (hq.outcomes m (List.mem_filter.mp hm).1)
  rw [show unreleased s.changes b = p.holds from hj.unreleased]
  unfold confirmed
  rw [hj.status]
  cases p with
  | held => exact absurd (hanswers _ (List.mem_singleton.mpr rfl)) (by decide)
  | cancelling => exact absurd (hsent (.bookingCancelled, false) (by cases c <;> decide) (Or.inr rfl)) (by decide)
  | _ => rfl

end

/-- Whatever order the steps of the two services and the deliveries between
them take, the seats taken are those of the bookings that hold them. -/
theorem seats_conserved [Zod] {s : System} (h : closed.Reach s) : SeatsConserved s := by
  have hi := inv_closed h
  refine ⟨fun row hrow => hi.reserved_eq hrow, fun row _ => ?_, fun b hb => hi.confirmed_hold hb, fun b hb hf => ?_,
    fun row hrow => ?_, fun hq row hrow => ?_⟩
  · exact ⟨row.seats.available_nonnegative, row.seats.available_not_above_total⟩
  · obtain ⟨c, p, hj⟩ := hi.phase hb
    have hp := hj.status.symm.trans hf
    rw [show appliedTo s.changes b.id.text = p.applied from hj.applied]
    cases p <;> first | rfl | cases hp
  · have hle := hi.confirmed_le row.id
    have := hi.reserved_eq hrow
    have := row.seats.available_nonnegative
    omega
  · rw [hi.reserved_eq hrow]
    apply Table.sum_congr; intro b hb
    rw [hi.quiet_unreleased hq hb]

/-! ## A sample run -/

def sampleBooking : CreateBookingInput := ⟨sampleText 7, sampleText 1, 3, none⟩

def sampleRequest : MessageEnvelope ReserveSeatsPayload := reserveSeatsMessage sampleBooking (sampleDraw 2 3 4 0 0)

def sampleReserved : Message := (successMessage sampleRequest (sampleDraw 0 8 9 10 11)).map .bookingEventQuantity

def sampleReservation : List Label :=
  [.createEvent concert (sampleDraw 1 0 0 0 0),
   .createBooking sampleBooking (sampleDraw 2 3 4 0 0),
   .dispatch .booking .reserveSeats (sampleRequest.map .reserveSeats),
   .deliver .reserveSeats (sampleRequest.map .reserveSeats) (sampleDraw 0 8 9 10 11),
   .publishDirect ⟨.seatsReserved, sampleReserved, some (sample 8)⟩]

def sampleConfirmation : List Label :=
  sampleReservation ++ [.deliver .handleSeatsReserved sampleReserved (sampleDraw 0 5 6 0 0)]

def sampleView (s : System) : List (Uuid × Int × Int) × List (Uuid × BookingStatus) :=
  (seatColumns s, s.booking.bookings.rows.map fun b => (b.id, b.status))

theorem seats_conserved_after_confirmation : ∃ s, (@closed zod4).run System.empty sampleConfirmation = some s ∧
    sampleView s = ([((sample 1).val, 10, 7)], [((sample 2).val, .confirmed)]) ∧ SeatsConserved s := by
  have h : ((@closed zod4).run System.empty sampleConfirmation).map sampleView =
      some ([((sample 1).val, 10, 7)], [((sample 2).val, .confirmed)]) := by
    decide +kernel
  obtain ⟨s, hs, hview⟩ := Option.map_eq_some_iff.mp h
  exact ⟨s, hs, hview, @seats_conserved zod4 s (Machine.Reach.run (.start rfl) hs)⟩

end EventBooking
