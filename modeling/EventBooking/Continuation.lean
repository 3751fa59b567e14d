import EventBooking.Conservation

/-!
# Every pending booking goes on

A booking's journey leaves one request, at most one answer and, as long as the
booking is pending, exactly one of the two unconsumed.
-/

namespace EventBooking
open Lib

/-! ## Rows by topic -/

/-- The stored messages of the topic that concern the booking. -/
def about (c : List StoredMessage) (t : Topic) (bookingId : String) : List StoredMessage :=
  (c.filter (concerning bookingId)).filter fun m => decide (m.topic = t)

theorem about_tokens (c : List StoredMessage) (consumed : List String) (t : Topic) (bookingId : String) :
    (about c t bookingId).map (fun m => (m.topic, decide (m.messageId ∈ consumed))) =
      (tokens c consumed bookingId).filter fun x => decide (x.1 = t) := by
  unfold about tokens
  rw [List.filter_map]; rfl

theorem about_length (c : List StoredMessage) (consumed : List String) (t : Topic) (bookingId : String) :
    (about c t bookingId).length = ((tokens c consumed bookingId).filter fun x => decide (x.1 = t)).length := by
  rw [← about_tokens, List.length_map]

def Phase.consumed : Phase → Bool
  | .requested => false
  | _ => true

theorem Phase.sent_requests (canonical : Bool) (p : Phase) :
    ((p.sent canonical).filter fun x => decide (x.1 = .reserveSeats)) = [(.reserveSeats, p.consumed)] := by
  cases canonical <;> cases p <;> rfl

section
variable {g : Saga} {b : BookingRow} {canonical : Bool} {p : Phase}

theorem Journey.request (h : Journey g b canonical p) : ∃ r, about g.sent .reserveSeats b.id.text = [r] ∧
    decide (r.messageId ∈ g.taken) = p.consumed := by
  have ht := about_tokens g.sent g.taken .reserveSeats b.id.text
  rw [h.sent, p.sent_requests] at ht
  obtain ⟨r, hr, he⟩ := List.map_eq_singleton_iff.mp ht
  exact ⟨r, hr, congrArg Prod.snd he⟩

theorem Journey.no_answer (h : Journey g b canonical p) (hp : p.answers = []) :
    g.answered.filter (concerning b.id.text) = [] := by
  have ht := h.answers
  rw [hp] at ht
  exact List.map_eq_nil_iff.mp ht

theorem Journey.answer (h : Journey g b canonical p) {t : Topic} {consumed : Bool}
    (hp : p.answers = [(t, consumed)]) :
    ∃ m, g.answered.filter (concerning b.id.text) = [m] ∧ m.topic = t ∧
      decide (m.messageId ∈ g.settled) = consumed := by
  have ht := h.answers
  rw [hp] at ht
  obtain ⟨m, hm, he⟩ := List.map_eq_singleton_iff.mp ht
  exact ⟨m, hm, congrArg Prod.fst he, congrArg Prod.snd he⟩

end

/-! ## The continuation -/

def requestsOf (s : System) (b : BookingRow) : List StoredMessage :=
  about (contents s.booking.outbox) .reserveSeats b.id.text

def outcomesOf (s : System) (b : BookingRow) : List StoredMessage :=
  (contents s.event.outbox).filter (concerning b.id.text)

def outcomeTopic : BookingStatus → Topic
  | .failed => .seatReservationFailed
  | _ => .seatsReserved

structure Asked (s : System) (b : BookingRow) (r : StoredMessage) : Prop where
  waiting : r.messageId ∉ inbox s.event.processed
  no_outcome : outcomesOf s b = []

structure Answered (s : System) (b : BookingRow) (r : StoredMessage) : Prop where
  consumed : r.messageId ∈ inbox s.event.processed
  outcome : ∃ m, outcomesOf s b = [m] ∧ (m.topic = .seatsReserved ∨ m.topic = .seatReservationFailed) ∧
    m.messageId ∉ inbox s.booking.processed

structure Finished (s : System) (b : BookingRow) (r : StoredMessage) : Prop where
  consumed : r.messageId ∈ inbox s.event.processed
  outcome : ∃ m, outcomesOf s b = [m] ∧ m.topic = outcomeTopic b.status ∧ m.messageId ∈ inbox s.booking.processed

structure Continues (s : System) (b : BookingRow) : Prop where
  request : ∃ r, requestsOf s b = [r] ∧ (b.status = .pending → Asked s b r ∨ Answered s b r) ∧
    (b.status ≠ .pending → Finished s b r)

theorem Journey.continues {s : System} {b : BookingRow} {canonical : Bool} {p : Phase}
    (h : Journey s.saga b canonical p) : Continues s b := by
  obtain ⟨r, hr, hc⟩ := h.request
  have hstatus := h.status
  refine ⟨r, hr, fun hb => ?_, fun hb => ?_⟩
  · rw [hstatus] at hb
    cases p with
    | requested => exact Or.inl ⟨of_decide_eq_false hc, h.no_answer rfl⟩
    | held =>
      obtain ⟨m, hm, ht, hopen⟩ := h.answer rfl
      exact Or.inr ⟨of_decide_eq_true hc, m, hm, Or.inl ht, of_decide_eq_false hopen⟩
    | refused =>
      obtain ⟨m, hm, ht, hopen⟩ := h.answer rfl
      exact Or.inr ⟨of_decide_eq_true hc, m, hm, Or.inr ht, of_decide_eq_false hopen⟩
    | _ => cases hb
  · have hdone : p.consumed = true ∧ p.answers = [(outcomeTopic p.status, true)] := by
      rw [hstatus] at hb
      cases p <;> first | exact ⟨rfl, rfl⟩ | exact absurd rfl hb
    obtain ⟨m, hm, ht, hopen⟩ := h.answer hdone.2
    rw [hdone.1] at hc
    exact ⟨of_decide_eq_true hc, m, hm, by rw [hstatus]; exact ht, of_decide_eq_true hopen⟩

/-- No delivery is consumed that leaves a booking pending with nothing to wait for. -/
theorem pending_continues [Zod] {s : System} (h : closed.Reach s) :
    ∀ b ∈ s.booking.bookings.rows, Continues s b := by
  intro b hb
  obtain ⟨c, p, hj⟩ := (inv_closed h).phase hb
  exact hj.continues

theorem pending_continues_after_reservation : ∃ s, (@closed zod4).run System.empty sampleReservation = some s ∧
    sampleView s = ([((sample 1).val, 10, 7)], [((sample 2).val, .pending)]) ∧
    ∀ b ∈ s.booking.bookings.rows, Continues s b := by
  have h : ((@closed zod4).run System.empty sampleReservation).map sampleView =
      some ([((sample 1).val, 10, 7)], [((sample 2).val, .pending)]) := by
    decide +kernel
  obtain ⟨s, hs, hview⟩ := Option.map_eq_some_iff.mp h
  exact ⟨s, hs, hview, @pending_continues zod4 s (Machine.Reach.run (.start rfl) hs)⟩

end EventBooking
