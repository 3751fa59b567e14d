import EventBooking.Steps
import EventBooking.Wire
import EventBooking.Zod4

/-!
# Producers keep to the schemas

Every message that is written to an outbox, published directly or already on
its way satisfies the schema of its topic. The fields of an answer are those of
a message that passed its own schema, and the fields of a cancellation are read
back from a booking row, which holds what an accepted request wrote.
-/

namespace EventBooking
open Lib

theorem forall_mem_concat {α : Type} {P : α → Prop} {xs : List α} {x : α} (h : ∀ a ∈ xs, P a) (hx : P x) :
    ∀ a ∈ xs ++ [x], P a :=
  List.forall_mem_append.mpr ⟨h, List.forall_mem_singleton.mpr hx⟩

section
variable [Zod]

/-- A booking as every cancellation may quote it. -/
structure Quotable (id eventId : String) (quantity : Int) : Prop where
  id : Zod.uuid id = true
  eventId : Zod.uuid eventId = true
  quantity : positiveInt quantity = true

def Admitted (t : OutboxTable) : Prop := ∀ m ∈ contents t, messageEnvelopeSchema m.topic m.message = true

structure Conforming (s : System) : Prop where
  booking : Admitted s.booking.outbox
  event : Admitted s.event.outbox
  direct : ∀ p ∈ s.publishing, messageEnvelopeSchema p.topic p.message = true
  published : ∀ p ∈ s.published, messageEnvelopeSchema p.1 p.2 = true
  rows : ∀ row ∈ s.booking.bookings.rows, Quotable row.id.text row.eventId.text row.quantity
  readings : ∀ r ∈ s.readings, Quotable r.2.id r.2.eventId r.2.quantity

/-! ## The envelopes -/

theorem schema_iff {topic : Topic} {m : Message} : messageEnvelopeSchema topic m = true ↔
    m.eventId.all Zod.uuid = true ∧ Zod.uuid m.messageId = true ∧ Zod.uuid m.correlationId = true ∧
      Zod.datetime m.timestamp = true ∧ m.version = 1 ∧ topicPayloadSchemas topic m.payload = true := by
  simp only [messageEnvelopeSchema, Bool.and_eq_true, decide_eq_true_eq, and_assoc]

/-- What `envelope` fills in itself is admitted by every schema. -/
theorem schema_envelope {topic : Topic} {messageId : RandomUUID} {correlationId : String} {sent : Date}
    {payload : Payload} (eventId : Option String) (he : eventId.all Zod.uuid = true)
    (hc : Zod.uuid correlationId = true)
    (hp : topicPayloadSchemas topic payload = true) :
    messageEnvelopeSchema topic { envelope messageId correlationId sent payload with eventId } = true :=
  schema_iff.mpr ⟨he, Zod.uuid_randomUUID messageId, hc, Zod.datetime_toISOString sent, rfl, hp⟩

theorem schema_reserveSeats {input : CreateBookingInput} {draw : Draw} (h : createBookingSchema input = true) :
    messageEnvelopeSchema .reserveSeats (createBookingOutbox input draw).message = true := by
  simp only [createBookingSchema, Bool.and_eq_true] at h
  obtain ⟨⟨hu, he⟩, hq⟩ := h
  have hid := Zod.uuid_randomUUID draw.id
  refine schema_envelope (some input.eventId) he hid ?_
  show (Zod.uuid draw.id.text && Zod.uuid input.eventId && Zod.uuid input.userId &&
    positiveInt input.quantity) = true
  simp [hid, he, hu, hq]

theorem schema_bookingCancelled {dto : BookingDto} {draw : Draw} (h : Quotable dto.id dto.eventId dto.quantity) :
    messageEnvelopeSchema .bookingCancelled (cancelBookingOutbox dto draw).message = true := by
  refine schema_envelope (some dto.eventId) h.eventId h.id ?_
  show (Zod.uuid dto.id && Zod.uuid dto.eventId && positiveInt dto.quantity) = true
  simp [h.id, h.eventId, h.quantity]

theorem settlement_schema {source topic : Topic} {status : BookingStatus}
    (ho : settlement source = some (status, topic)) (p : Payload) :
    topicPayloadSchemas topic p = topicPayloadSchemas source p := by
  cases source with
  | seatsReserved | seatReservationFailed =>
    cases ho
    cases p <;> rfl
  | _ => cases ho

/-- The news of an outcome quotes the outcome message, whose schema is the same. -/
theorem schema_settlement {source topic : Topic} {status : BookingStatus} {message : Message} {draw : Draw}
    (ho : settlement source = some (status, topic)) (h : messageEnvelopeSchema source message = true) :
    messageEnvelopeSchema topic (settlementOutbox topic message draw).message = true := by
  obtain ⟨_, _, hc, _, _, hp⟩ := schema_iff.mp h
  exact schema_envelope none rfl hc ((settlement_schema ho message.payload).trans hp)

section
variable {message : Message} {p : ReserveSeatsPayload} {draw : Draw}
  (h : messageEnvelopeSchema .reserveSeats message = true) (hp : message.payload = .reserveSeats p)
include h hp

theorem schema_request : Zod.uuid message.correlationId = true ∧ Zod.uuid p.bookingId = true ∧
    Zod.uuid p.eventId = true ∧ positiveInt p.quantity = true := by
  obtain ⟨_, _, hc, _, _, h⟩ := schema_iff.mp h
  rw [hp] at h
  simp only [topicPayloadSchemas, Bool.and_eq_true] at h
  exact ⟨hc, h.1.1.1, h.1.1.2, h.2⟩

theorem schema_success : messageEnvelopeSchema .seatsReserved
    ((successMessage (message.map fun _ => p) draw).map .bookingEventQuantity) = true := by
  obtain ⟨hc, hb, he, hq⟩ := schema_request h hp
  refine schema_envelope none rfl hc ?_
  show (Zod.uuid p.bookingId && Zod.uuid p.eventId && positiveInt p.quantity) = true
  simp [hb, he, hq]

theorem schema_failure (messageId : RandomUUID) (sent : Date) (reason : FailureReason) :
    messageEnvelopeSchema .seatReservationFailed
      (envelope messageId message.correlationId sent (.failure ⟨p.bookingId, p.eventId, reason⟩)) = true := by
  obtain ⟨hc, hb, he, _⟩ := schema_request h hp
  refine schema_envelope none rfl hc ?_
  show (Zod.uuid p.bookingId && Zod.uuid p.eventId) = true
  simp [hb, he]

end

/-! ## Steps -/

theorem Admitted.insert {t t' : OutboxTable} {o : OutboxInsert} {now : Date} (h : Admitted t)
    (hi : t.insert (o.row now) = some t') (ho : messageEnvelopeSchema o.topic o.message = true) : Admitted t' := by
  intro m hm
  rw [(outbox_insert hi).1, List.mem_append, List.mem_singleton] at hm
  rcases hm with hm | rfl
  · exact h m hm
  · exact ho

theorem Admitted.apply {t : OutboxTable} (h : Admitted t) (op : Bookkeeping) : Admitted (op.apply t) := by
  unfold Admitted
  rw [contents_apply]
  exact h

theorem quotable_created {input : CreateBookingInput} {draw : Draw} {row : BookingRow}
    (h : createBookingSchema input = true)
    (hr : (createBookingData input draw).toBookingInsert.row draw.now = .ok row) :
    Quotable row.id.text row.eventId.text row.quantity := by
  simp only [createBookingSchema, Bool.and_eq_true] at h
  have hs := BookingInsert.stores hr
  refine ⟨?_, uuid_text h.1.2 hs.eventId, ?_⟩
  · rw [hs.id]; exact Zod.uuid_randomUUID draw.id
  · rw [hs.quantity]; exact h.2

theorem quotable_replaced {t t' : Table bookingSchema} {row : BookingRow} {status : BookingStatus} {now : Date}
    (h : ∀ row ∈ t.rows, Quotable row.id.text row.eventId.text row.quantity)
    (hr : t.Replaced row (setStatus status now row) t') :
    ∀ row ∈ t'.rows, Quotable row.id.text row.eventId.text row.quantity := by
  intro x hx
  rcases hr.mem_iff.mp hx with rfl | ⟨hx, _⟩
  · exact h row hr.mem
  · exact h x hx

theorem conforming_step {s s' : System} {l : Label} (h : Conforming s)
    (hs : Step (fun _ topic message => messageEnvelopeSchema topic message) s l s') : Conforming s' := by
  cases hs with
  | idle => exact h
  | book schema created =>
    exact
      { h with
        booking := h.booking.insert created.outbox (schema_reserveSeats schema)
        rows := by
          rw [Table.insert_rows created.bookings]
          exact forall_mem_concat h.rows (quotable_created schema created.row_eq) }
  | read mem => exact { h with readings := forall_mem_concat h.readings (h.rows _ mem) }
  | cancel reading cancelled =>
    exact
      { h with
        booking := h.booking.insert cancelled.outbox (schema_bookingCancelled (h.readings _ reading))
        rows := quotable_replaced h.rows cancelled.bookings }
  | settle outcome delivered settled =>
    refine { h with booking := ?_, rows := quotable_replaced h.rows settled.bookings }
    have ho := settled.outbox
    split at ho
    · exact h.booking.insert ho (schema_settlement outcome delivered)
    · exact (congrArg Admitted ho).mpr h.booking
  | unsettled outcome delivered unsettled =>
    exact { h with
      booking := (congrArg Admitted unsettled.outbox).mpr h.booking
      rows := unsettled.bookings ▸ h.rows }
  | reserve delivered payload reserved =>
    exact
      { h with
        event := h.event.insert reserved.outbox (schema_success delivered payload)
        direct := forall_mem_concat h.direct (schema_success delivered payload) }
  | refuse delivered payload refused =>
    exact
      { h with
        event := h.event.insert refused.outbox (schema_failure delivered payload _ _ _)
        direct := forall_mem_concat h.direct (schema_failure delivered payload _ _ _) }
  | invalid delivered payload quantity ignored =>
    exact
      { h with
        event := (congrArg Admitted ignored.outbox).mpr h.event
        direct := forall_mem_concat h.direct (schema_failure delivered payload _ _ _) }
  | release delivered payload released => exact { h with event := (congrArg Admitted released.outbox).mpr h.event }
  | unreleased delivered payload ignored => exact { h with event := (congrArg Admitted ignored.outbox).mpr h.event }
  | create created => exact { h with event := (congrArg Admitted created.outbox).mpr h.event }
  | rebase rebased => exact { h with event := (congrArg Admitted rebased.outbox).mpr h.event }
  | delete deleted => exact { h with event := (congrArg Admitted deleted.outbox).mpr h.event }
  | notify => exact { h with }
  | publishDirect mem => exact { h with published := forall_mem_concat h.published (h.direct _ mem) }
  | dispatch mem row_topic row_message =>
    rename_i service topic message row
    subst row_topic row_message
    have hrow : row.content ∈ contents (s.outbox service) := List.mem_map_of_mem mem
    refine { h with published := forall_mem_concat h.published ?_ }
    cases service with
    | booking => exact h.booking _ hrow
    | event => exact h.event _ hrow
  | bookkeep service op =>
    cases service with
    | booking => exact { h with booking := h.booking.apply op }
    | event => exact { h with event := h.event.apply op }

theorem conforming_opened {s : System} (h : opened.Reach s) : Conforming s := by
  refine h.inv ?_ fun s l s' _ hi he => conforming_step hi (opened_step he)
  rintro s rfl
  exact ⟨fun m hm => (by cases hm), fun m hm => (by cases hm), fun p hp => (by cases hp), fun p hp => (by cases hp),
    fun r hr => (by cases hr), fun r hr => (by cases hr)⟩

/-! ## What the consumers receive -/

theorem deliver_isSome {s : System} {consumer : Consumer} {message : Message} {draw : Draw}
    (h : messageEnvelopeSchema consumer.topic message = true) : (s.deliver consumer message draw).isSome := by
  obtain ⟨_, _, _, _, _, hp⟩ := schema_iff.mp h
  unfold System.deliver
  generalize message.payload = payload at hp
  cases consumer <;> cases payload <;> first | rfl | cases hp

/-- Every message of the system is read back on its topic as it was sent, and its consumers' handlers run. -/
structure ReceivedAsSent (s : System) : Prop where
  stored : ∀ service, ∀ m ∈ contents (s.outbox service),
    receive m.topic (Json.stringify m.message.toJson) = some m.message
  direct : ∀ p ∈ s.publishing, receive p.topic (Json.stringify p.message.toJson) = some p.message
  published : ∀ topic message, (topic, message) ∈ s.published →
    receive topic (Json.stringify message.toJson) = some message ∧
      ∀ consumer draw, consumer.topic = topic → (s.deliver consumer message draw).isSome

/-- Whichever accepted requests and schema-valid messages arrive, in any order. -/
theorem produced_messages_received {s : System} (h : opened.Reach s) : ReceivedAsSent s := by
  have hc := conforming_opened h
  refine ⟨fun service m hm => ?_, fun p hp => ?_, fun topic message hp => ⟨?_, fun consumer draw ht => ?_⟩⟩
  · rw [receive_stringify]
    cases service with
    | booking => exact hc.booking m hm
    | event => exact hc.event m hm
  · rw [receive_stringify]
    exact hc.direct p hp
  · rw [receive_stringify]
    exact hc.published _ hp
  · subst ht
    exact deliver_isSome (hc.published _ hp)

end

/-! ## A run with every topic -/

def smallBooking : CreateBookingInput := ⟨sampleText 7, sampleText 1, 3, none⟩

def smallRequest : MessageEnvelope ReserveSeatsPayload := reserveSeatsMessage smallBooking (sampleDraw 2 3 4 0 0)

def smallReserved : Message := (successMessage smallRequest (sampleDraw 0 8 9 0 0)).map .bookingEventQuantity

def smallReading : BookingDto :=
  ⟨sampleText 2, sampleText 7, sampleText 1, 3, .confirmed, none, toISOString 0, toISOString 0⟩

def largeBooking : CreateBookingInput := ⟨sampleText 7, sampleText 1, 20, none⟩

def largeRequest : MessageEnvelope ReserveSeatsPayload := reserveSeatsMessage largeBooking (sampleDraw 7 14 15 0 0)

def largeRefused : Message := (failedMessage largeRequest .insufficientSeats (sampleDraw 0 0 0 10 11)).map .failure

def sixTopics : List Label :=
  [.createEvent ⟨"Concert", 0, 10⟩ (sampleDraw 1 0 0 0 0),
   .createBooking smallBooking (sampleDraw 2 3 4 0 0),
   .deliver .reserveSeats (smallRequest.map .reserveSeats) (sampleDraw 0 8 9 0 0),
   .deliver .handleSeatsReserved smallReserved (sampleDraw 0 5 6 0 0),
   .readBooking (sampleText 2),
   .cancelBooking (sampleText 2) smallReading (sampleDraw 0 12 13 0 0),
   .createBooking largeBooking (sampleDraw 7 14 15 0 0),
   .deliver .reserveSeats (largeRequest.map .reserveSeats) (sampleDraw 0 0 0 10 11),
   .deliver .handleSeatReservationFailed largeRefused (sampleDraw 0 8 9 0 0),
   .publishDirect ⟨.seatReservationFailed, largeRefused, some (sample 10)⟩]

def topicsView (s : System) : List Topic × List Topic × List Topic :=
  ((contents s.booking.outbox).map (·.topic), (contents s.event.outbox).map (·.topic), s.published.map (·.1))

theorem six_topics_received : ∃ s, (@opened zod4).run System.empty sixTopics = some s ∧
    topicsView s =
      ([.reserveSeats, .bookingConfirmed, .bookingCancelled, .reserveSeats, .bookingFailed],
        [.seatsReserved, .seatReservationFailed], [.seatReservationFailed]) ∧
    @ReceivedAsSent zod4 s := by
  have h : ((@opened zod4).run System.empty sixTopics).map topicsView =
      some ([.reserveSeats, .bookingConfirmed, .bookingCancelled, .reserveSeats, .bookingFailed],
        [.seatsReserved, .seatReservationFailed], [.seatReservationFailed]) := by
    decide +kernel
  obtain ⟨s, hs, hview⟩ := Option.map_eq_some_iff.mp h
  exact ⟨s, hs, hview, @produced_messages_received zod4 s (Machine.Reach.run (.start rfl) hs)⟩

end EventBooking
