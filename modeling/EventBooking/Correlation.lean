import EventBooking.Producers
import EventBooking.Refinement

/-!
# Messages of one booking

Kafka keeps the records of one key in order, and the key of a record is the
message's correlation id. Each message the services send is correlated by the
id of its booking: the request and the cancellation take it from the row, every
answer copies it from the message it answers.
-/

namespace EventBooking
open Lib

def Message.Correlated (m : Message) : Prop := m.correlationId = m.payload.bookingId

structure Correlated (s : System) : Prop where
  booking : ∀ m ∈ contents s.booking.outbox, m.message.Correlated
  event : ∀ m ∈ contents s.event.outbox, m.message.Correlated
  direct : ∀ p ∈ s.publishing, p.message.Correlated
  published : ∀ p ∈ s.published, p.2.Correlated

theorem correlated_insert {t t' : OutboxTable} {o : OutboxInsert} {now : Date}
    (h : ∀ m ∈ contents t, m.message.Correlated) (hi : t.insert (o.row now) = some t') (ho : o.message.Correlated) :
    ∀ m ∈ contents t', m.message.Correlated := by
  intro m hm
  rw [(outbox_insert hi).1, List.mem_append, List.mem_singleton] at hm
  rcases hm with hm | rfl
  · exact h m hm
  · exact ho

section
variable [Zod] {s s' : System} {l : Label}

theorem correlated_step (h : Correlated s) (hs : Step delivered s l s') : Correlated s' := by
  have hin : ∀ {topic : Topic} {message : Message}, delivered s topic message = true → message.Correlated :=
    fun hd => h.published _ (of_decide_eq_true hd)
  have hrequest : ∀ {message : Message} {p : ReserveSeatsPayload}, delivered s .reserveSeats message = true →
      message.payload = .reserveSeats p → message.correlationId = p.bookingId :=
    fun hd hp => (hin hd).trans (by rw [hp]; rfl)
  cases hs with
  | idle => exact h
  | book schema created => exact { h with booking := correlated_insert h.booking created.outbox rfl }
  | read mem => exact { h with }
  | cancel reading cancelled => exact { h with booking := correlated_insert h.booking cancelled.outbox rfl }
  | settle outcome delivered settled =>
    have hm := hin delivered
    have ho := settled.outbox
    split at ho
    · exact { h with booking := correlated_insert h.booking ho hm }
    · exact { h with booking := by rw [ho]; exact h.booking }
  | unsettled outcome delivered unsettled => exact { h with booking := by rw [unsettled.outbox]; exact h.booking }
  | reserve delivered payload reserved =>
    have hm := hrequest delivered payload
    exact
      { h with
        event := correlated_insert h.event reserved.outbox hm
        direct := forall_mem_concat h.direct hm }
  | refuse delivered payload refused =>
    have hm := hrequest delivered payload
    exact
      { h with
        event := correlated_insert h.event refused.outbox hm
        direct := forall_mem_concat h.direct hm }
  | invalid delivered payload quantity ignored =>
    have hm := hrequest delivered payload
    exact
      { h with
        event := by rw [ignored.outbox]; exact h.event
        direct := forall_mem_concat h.direct hm }
  | release delivered payload released => exact { h with event := by rw [released.outbox]; exact h.event }
  | unreleased delivered payload ignored => exact { h with event := by rw [ignored.outbox]; exact h.event }
  | create created => exact { h with event := by rw [created.outbox]; exact h.event }
  | rebase rebased => exact { h with event := by rw [rebased.outbox]; exact h.event }
  | delete deleted => exact { h with event := by rw [deleted.outbox]; exact h.event }
  | notify => exact { h with }
  | publishDirect mem => exact { h with published := forall_mem_concat h.published (h.direct _ mem) }
  | dispatch mem row_topic row_message =>
    rename_i service topic message row
    subst row_topic row_message
    have hrow : row.content ∈ contents (s.outbox service) := List.mem_map_of_mem mem
    refine { h with published := forall_mem_concat h.published ?_ }
    cases service with
    | booking => exact h.booking _ hrow
    | event => exact h.event _ hrow
  | bookkeep service op =>
    cases service with
    | booking => exact { h with booking := fun m hm => h.booking m (contents_apply s.booking.outbox op ▸ hm) }
    | event => exact { h with event := fun m hm => h.event m (contents_apply s.event.outbox op ▸ hm) }

theorem correlated_closed (h : closed.Reach s) : Correlated s := by
  refine h.inv ?_ fun s l s' _ hi he => correlated_step hi (closed_step he)
  intro s h0
  rw [show s = System.empty from h0]
  exact ⟨fun m hm => (by cases hm), fun m hm => (by cases hm), fun p hp => (by cases hp), fun p hp => (by cases hp)⟩

/-- Whatever is published is keyed by a booking that is stored. -/
theorem published_booking (h : closed.Reach s) {topic : Topic} {m : Message} (hm : (topic, m) ∈ s.published) :
    ∃ b ∈ s.booking.bookings.rows, m.payload.bookingId = b.id.text ∧ m.correlationId = b.id.text := by
  have hi := inv_closed h
  have hc : m.correlationId = m.payload.bookingId := (correlated_closed h).published _ hm
  obtain ⟨x, hx, _, _, hp⟩ := hi.published _ hm
  have hp : x.message.payload = m.payload := hp
  have hbooking : ∃ b ∈ s.booking.bookings.rows, m.payload.bookingId = b.id.text := by
    rcases hx with hx | hx
    · obtain ⟨_, b, hb, hn⟩ := hi.sound.sent x hx
      exact ⟨b, hb, hp ▸ hn.bookingId⟩
    · obtain ⟨_, r, hr, ha⟩ := hi.sound.answered x hx
      obtain ⟨_, b, hb, hn⟩ := hi.sound.sent r hr
      exact ⟨b, hb, hp ▸ (ha.bookingId.trans hn.bookingId)⟩
  obtain ⟨b, hb, hid⟩ := hbooking
  exact ⟨b, hb, hid, hc.trans hid⟩

end

end EventBooking
