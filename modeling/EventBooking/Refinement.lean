import EventBooking.Saga

/-!
# The services refine the saga

What Kafka carries is backed by a stored row, so every delivery that leaves a
trace is a move of the saga: it takes the one booking it concerns to the next
phase. In particular no consumer records a message on a branch that drops it.
-/

namespace EventBooking
open Lib

def System.saga (s : System) : Saga where
  bookings := s.booking.bookings
  sent := contents s.booking.outbox
  answered := contents s.event.outbox
  taken := inbox s.event.processed
  settled := inbox s.booking.processed
  changes := s.changes

def Backed (g : Saga) (topic : Topic) (message : Message) : Prop :=
  ∃ m, (m ∈ g.sent ∨ m ∈ g.answered) ∧ m.topic = topic ∧ m.messageId = message.messageId ∧
    m.message.payload = message.payload

structure Inv (s : System) : Prop where
  sound : Sound s.saga
  ledger : Ledger s
  balanced : ∀ e, balance s.changes e = held s.saga e
  published : ∀ x ∈ s.published, Backed s.saga x.1 x.2
  publishing : ∀ x ∈ s.publishing, Backed s.saga x.topic x.message
  readings : ∀ x ∈ s.readings, ∃ b ∈ s.booking.bookings.rows, Uuid.cast x.1 = .ok b.id ∧ x.2.id = b.id.text ∧
    x.2.eventId = b.eventId.text ∧ x.2.quantity = b.quantity

/-! ## Opening -/

theorem opens_book {s : System} {input : CreateBookingInput} {draw : Draw} {row : BookingRow} {booking : BookingDb}
    (h : Created (createBookingData input draw) (createBookingOutbox input draw) draw.now s.booking row booking) :
    Opens s.saga { s with booking }.saga row (createBookingOutbox input draw).stored := by
  have hrow := BookingInsert.stores h.row_eq
  obtain ⟨hc, hf⟩ := outbox_insert h.outbox
  refine ⟨h.bookings, hrow.status, hrow.positive, rfl, ⟨?_, hrow.eventId, ?_⟩, rfl, hf, hc, rfl, rfl, ?_, rfl⟩
  · show draw.id.text = row.id.text
    rw [hrow.id]; rfl
  · intro q hq
    rw [hrow.quantity]
    exact (Option.some.inj hq).symm
  · show inbox booking.processed = inbox s.booking.processed
    rw [h.processed]

/-! ## Deliveries -/

theorem settlement_topic {t topic : Topic} {status : BookingStatus} (h : settlement t = some (status, topic)) :
    bookingTopic t = false ∧ bookingTopic topic = true := by
  cases t <;> cases h <;> exact ⟨rfl, rfl⟩

theorem Settled.news {messageId bookingId eventId : String} {quantity : Option Int} {status : BookingStatus}
    {o : OutboxInsert} {now : Date} {d d' : BookingDb} {row : BookingRow}
    (h : Settled messageId bookingId eventId quantity status o now d row d') : ∃ news : Option StoredMessage,
      contents d'.outbox = contents d.outbox ++ news.toList ∧
      (∀ x, news = some x → x = o.stored ∧ x.messageId ∉ (contents d.outbox).map (·.messageId)) ∧
      ∀ c, (row.eventId.text = eventId ↔ c = true) →
        (news.toList.map fun m => (m.topic, false)) = if c then [(o.topic, false)] else [] := by
  have hout := h.outbox
  by_cases he : row.eventId.text = eventId
  · rw [if_pos he] at hout
    obtain ⟨hc, hf⟩ := outbox_insert hout
    refine ⟨some o.stored, hc, fun x hx => ?_, fun c hcan => ?_⟩
    · cases hx; exact ⟨rfl, hf⟩
    · rw [if_pos (hcan.mp he)]; rfl
  · rw [if_neg he] at hout
    refine ⟨none, by rw [hout]; exact (List.append_nil _).symm, fun x hx => (by cases hx), fun c hcan => ?_⟩
    rw [if_neg fun e => he (hcan.mpr e)]; rfl

section
variable {s : System} (hi : Inv s)
include hi

theorem Inv.backed {topic : Topic} {message : Message} (h : delivered s topic message = true) :
    Backed s.saga topic message := hi.published _ (of_decide_eq_true h)

theorem Inv.outcome {topic : Topic} {message : Message} (h : delivered s topic message = true)
    (ht : bookingTopic topic = false) : ∃ m r b, m ∈ s.saga.answered ∧ m.topic = topic ∧
      m.messageId = message.messageId ∧ m.message.payload = message.payload ∧ Answers m r ∧
      b ∈ s.booking.bookings.rows ∧ Requests s.saga r b := by
  obtain ⟨m, hm, rfl, hid, hp⟩ := hi.backed h
  rcases hm with hm | hm
  · have := (hi.sound.sent m hm).1
    rw [ht] at this; cases this
  · obtain ⟨_, r, hr, ha⟩ := hi.sound.answered m hm
    obtain ⟨_, b, hb, hn⟩ := hi.sound.sent r hr
    exact ⟨m, r, b, hm, rfl, hid, hp, ha, hb, hr, ha.request, hn⟩

theorem Inv.news {topic : Topic} {message : Message} (h : delivered s topic message = true)
    (ht : bookingTopic topic = true) : ∃ m b, m ∈ s.saga.sent ∧ m.topic = topic ∧
      m.messageId = message.messageId ∧ m.message.payload = message.payload ∧ b ∈ s.booking.bookings.rows ∧
          Names m b := by
  obtain ⟨m, hm, rfl, hid, hp⟩ := hi.backed h
  rcases hm with hm | hm
  · obtain ⟨_, b, hb, hn⟩ := hi.sound.sent m hm
    exact ⟨m, b, hm, rfl, hid, hp, hb, hn⟩
  · have := (hi.sound.answered m hm).1
    rw [ht] at this; cases this

/-! ## The moves -/

theorem Inv.cancel {id : String} {dto : BookingDto} {draw : Draw} {row : BookingRow} {booking : BookingDb}
    (hr : (id, dto) ∈ s.readings)
    (h : Cancelled id (cancelBookingOutbox dto draw) draw.now s.booking row booking) :
    Moved s.saga { s with booking }.saga := by
  obtain ⟨b, hb, hid, hdto, hevent, hquantity⟩ := hi.readings _ hr
  have hbr : b = row := Table.key_inj hb h.bookings.mem (Except.ok.inj (hid.symm.trans h.row_id))
  subst hbr
  obtain ⟨hc, hf⟩ := outbox_insert h.outbox
  obtain ⟨r, p, hreq, hj⟩ := hi.sound.journeys b hb
  have hp : p = .confirmed := by
    have := hj.status.symm.trans h.status
    cases p <;> first | rfl | cases this
  subst hp
  have hn : Names (cancelBookingOutbox dto draw).stored b := by
    refine ⟨hdto, ?_, fun q hq => ?_⟩
    · show Uuid.cast dto.eventId = _
      rw [hevent]; exact Uuid.cast_text _
    · rw [← hquantity]; exact (Option.some.inj hq).symm
  have ha : Advance s.saga { s with booking }.saga b (setStatus .cancelled draw.now b)
      (some (cancelBookingOutbox dto draw).stored) none none none none := by
    refine ⟨h.bookings, rfl, rfl, hc, (List.append_nil _).symm, (List.append_nil _).symm, ?_,
      (List.append_nil _).symm, ?_, fun m hm => (by cases hm), fun m hm => (by cases hm),
      fun m hm => (by cases hm), fun m hm => ?_,
      fun c id hm => (by cases hm), fun c e n hm => (by cases hm)⟩
    · show inbox booking.processed = inbox s.booking.processed ++ []
      rw [h.processed, List.append_nil]
    · intro m hm
      cases hm
      exact ⟨rfl, hn, hf⟩
    · rcases hm with hm | hm <;> cases hm; rfl
  refine .advanced ha hreq hj .cancel (ha.journey hi.sound hj rfl ?_ rfl rfl)
  cases isCanonical r.message.payload.eventId <;> rfl

theorem Inv.settle {consumer : Consumer} {status : BookingStatus} {topic : Topic} {message : Message} {draw : Draw}
    {row : BookingRow} {booking : BookingDb} (ho : settlement consumer.topic = some (status, topic))
    (hd : delivered s consumer.topic message = true)
    (h : Settled message.messageId message.payload.bookingId message.payload.eventId message.payload.quantity status
      (settlementOutbox topic message draw) draw.now s.booking row booking) :
    Moved s.saga { s with booking }.saga := by
  obtain ⟨m, r, b, hm, ht, hid, hpay, hans, hb, hreq⟩ := hi.outcome hd (settlement_topic ho).1
  have hmb : m.message.payload.bookingId = b.id.text := hans.bookingId.trans hreq.names.bookingId
  have hrow : row = b := by
    have he := h.pending.id
    rw [← hpay, hmb, Uuid.cast_text] at he
    exact (Table.key_inj hb h.bookings.mem (Except.ok.inj he)).symm
  subst hrow
  obtain ⟨hin, hnew⟩ := inbox_insert h.processed
  have hopen : m.messageId ∉ s.saga.settled := by rw [hid]; exact hnew
  obtain ⟨r', p, hreq', hj⟩ := hi.sound.journeys row hb
  rw [hi.sound.request_unique hb hreq' hreq] at hj
  have htoken := hj.answer_open hm hmb hopen
  have htext : m.message.payload.eventId = r.message.payload.eventId := hans.eventId
  have hcanon : row.eventId.text = message.payload.eventId ↔ isCanonical r.message.payload.eventId = true := by
    rw [← hpay, htext, isCanonical_iff hreq.names.eventId]
  obtain ⟨news, hsent, hnew', hnews⟩ := h.news
  have hn : Names (settlementOutbox topic message draw).stored row := by
    refine ⟨?_, ?_, fun q hq => ?_⟩
    · show message.payload.bookingId = _
      rw [← hpay]; exact hmb
    · show Uuid.cast message.payload.eventId = _
      rw [← hpay, htext]; exact hreq.names.eventId
    · exact (h.pending.quantity q hq).symm
  have ha : Advance s.saga { s with booking }.saga row (setStatus status draw.now row) news none none
      (some m) none := by
    refine ⟨h.bookings, rfl, rfl, hsent, (List.append_nil _).symm, (List.append_nil _).symm, ?_,
      (List.append_nil _).symm, fun x hx => ?_, fun m hm => (by cases hm), fun m hm => (by cases hm),
        fun x hx => ?_,
      fun x hx => ?_, fun c id hm => (by cases hm), fun c e n hm => (by cases hm)⟩
    · show inbox booking.processed = inbox s.booking.processed ++ [m.messageId]
      rw [hin, hid]
    · obtain ⟨rfl, hf⟩ := hnew' x hx
      exact ⟨(settlement_topic ho).2, hn, hf⟩
    · cases hx; exact ⟨hm, hmb⟩
    · rcases hx with hx | hx
      · obtain ⟨rfl, _⟩ := hnew' x hx; rfl
      · cases hx
  rw [ht] at htoken
  cases consumer <;> cases ho
  · have hp : p = .held := by
      cases p <;> first | rfl | (revert htoken; decide)
    subst hp
    refine .advanced ha hreq hj .confirm (ha.journey hi.sound hj rfl ?_ ?_ rfl)
    · rw [hnews _ hcanon]; cases isCanonical r.message.payload.eventId <;> rfl
    · rw [turn_some ht]; rfl
  · have hp : p = .refused := by
      cases p <;> first | rfl | (revert htoken; decide)
    subst hp
    refine .advanced ha hreq hj .fail (ha.journey hi.sound hj rfl ?_ ?_ rfl)
    · rw [hnews _ hcanon]; cases isCanonical r.message.payload.eventId <;> rfl
    · rw [turn_some ht]; rfl

theorem Inv.requested {message : Message} {p : ReserveSeatsPayload} (hd : delivered s .reserveSeats message = true)
    (hp : message.payload = .reserveSeats p) (hnew : message.messageId ∉ inbox s.event.processed) :
    ∃ m b, b ∈ s.booking.bookings.rows ∧ Requests s.saga m b ∧ m.messageId = message.messageId ∧
      m.message.payload = .reserveSeats p ∧ p.bookingId = b.id.text ∧
      Journey s.saga b (isCanonical m.message.payload.eventId) .requested := by
  obtain ⟨m, b, hm, ht, hid, hpay, hb, hn⟩ := hi.news hd rfl
  rw [hp] at hpay
  have hpb : p.bookingId = b.id.text := by have := hn.bookingId; rw [hpay] at this; exact this
  have hreq : Requests s.saga m b := ⟨hm, ht, hn⟩
  obtain ⟨r, phase, hreq', hj⟩ := hi.sound.journeys b hb
  rw [hi.sound.request_unique hb hreq' hreq] at hj
  have htoken := hj.sent_open hm hn.bookingId (by rw [hid]; exact hnew)
  rw [ht] at htoken
  have hphase : phase = .requested := by
    cases hcan : isCanonical m.message.payload.eventId <;> rw [hcan] at htoken <;> cases phase <;>
      first | rfl | (revert htoken; decide)
  subst hphase
  exact ⟨m, b, hb, hreq, hid, hpay, hpb, hj⟩

theorem Inv.reserve {message : Message} {p : ReserveSeatsPayload} {draw : Draw} {row row' : EventRow}
    {event : EventDb} {publishing : List DirectPublish} (hd : delivered s .reserveSeats message = true)
    (hp : message.payload = .reserveSeats p)
    (h : Reserved (processReserveSeatsInput (message.map fun _ => p) draw) draw.now s.event row row' event) :
    Moved s.saga
      { s with event, publishing, changes := s.changes ++ [SeatChange.reserved message.messageId p] }.saga := by
  obtain ⟨hin, hnew⟩ := inbox_insert h.processed
  obtain ⟨hc, hf⟩ := outbox_insert h.outbox
  obtain ⟨m, b, hb, hreq, hid, hpay, hpb, hj⟩ := hi.requested hd hp hnew
  have ha : Advance s.saga
      { s with event, publishing, changes := s.changes ++ [SeatChange.reserved message.messageId p] }.saga b b
      none (some (outboxInsert draw.rowId .seatsReserved
        ((successMessage (message.map fun _ => p) draw).map .bookingEventQuantity)).stored) (some m) none
      (some (.reserved message.messageId p)) := by
    refine ⟨Table.replaced_self hb, rfl, rfl, (List.append_nil _).symm, hc, ?_, (List.append_nil _).symm, rfl,
      fun x hx => (by cases hx), fun x hx => ?_, fun x hx => ?_, fun x hx => (by cases hx), fun x hx => ?_,
      fun c id hc hne => ?_, fun c e n hc => ?_⟩
    · show inbox event.processed = inbox s.event.processed ++ [m.messageId]
      rw [hin, hid]; rfl
    · cases hx
      refine ⟨rfl, hpb, hf, m, hreq.mem, hreq.topic, ?_, ?_, fun q hq => ?_⟩
      · rw [hpay]; rfl
      · rw [hpay]; rfl
      · rw [hpay]; exact hq
    · cases hx; exact ⟨hreq.mem, hreq.names.bookingId⟩
    · rcases hx with hx | hx <;> cases hx; rfl
    · cases hc
      by_contra hid
      exact hne (if_neg fun e => hid (e.symm.trans hpb))
    · cases hc
      obtain ⟨hevent, hquantity⟩ := hreq.names.amount hpay
      exact apply_reserved hevent hquantity
  refine .advanced ha hreq hj .reserve (ha.journey hi.sound hj hj.status ?_ rfl ?_)
  · rw [turn_some hreq.topic]; rfl
  · show [] ++ [SeatChange.reserved message.messageId p].filterMap _ = [true]
    have : SeatChange.concerning b.id.text (.reserved message.messageId p) = some true := if_pos hpb
    rw [List.nil_append, List.filterMap_cons_some this]; rfl

theorem Inv.refuse {message : Message} {p : ReserveSeatsPayload} {draw : Draw} {reason : FailureReason}
    {event : EventDb} {publishing : List DirectPublish} (hd : delivered s .reserveSeats message = true)
    (hp : message.payload = .reserveSeats p)
    (h : Refused (processReserveSeatsInput (message.map fun _ => p) draw) reason draw.sent draw.now s.event event) :
    Moved s.saga { s with event, publishing }.saga := by
  obtain ⟨hin, hnew⟩ := inbox_insert h.processed
  obtain ⟨hc, hf⟩ := outbox_insert h.outbox
  obtain ⟨m, b, hb, hreq, hid, hpay, hpb, hj⟩ := hi.requested hd hp hnew
  have ha : Advance s.saga { s with event, publishing }.saga b b none
      (some (OutboxOnFailure.outbox ⟨draw.otherRowId, .seatReservationFailed, draw.otherMessageId.text,
        message.correlationId, p.bookingId⟩ p.eventId reason draw.sent).stored) (some m) none none := by
    refine ⟨Table.replaced_self hb, rfl, rfl, (List.append_nil _).symm, hc, ?_, (List.append_nil _).symm,
      (List.append_nil _).symm, fun x hx => (by cases hx), fun x hx => ?_, fun x hx => ?_,
        fun x hx => (by cases hx),
      fun x hx => ?_, fun c id hc => (by cases hc), fun c e n hc => (by cases hc)⟩
    · show inbox event.processed = inbox s.event.processed ++ [m.messageId]
      rw [hin, hid]; rfl
    · cases hx
      refine ⟨rfl, hpb, hf, m, hreq.mem, hreq.topic, ?_, ?_, fun q hq => (by cases hq)⟩
      · rw [hpay]; rfl
      · rw [hpay]; rfl
    · cases hx; exact ⟨hreq.mem, hreq.names.bookingId⟩
    · rcases hx with hx | hx <;> cases hx; rfl
  refine .advanced ha hreq hj .refuse (ha.journey hi.sound hj hj.status ?_ rfl rfl)
  rw [turn_some hreq.topic]; rfl

theorem Inv.cancelling {message : Message} {p : BookingEventQuantityPayload}
    (hd : delivered s .bookingCancelled message = true) (hp : message.payload = .bookingEventQuantity p)
    (hnew : message.messageId ∉ inbox s.event.processed) : ∃ m r b, b ∈ s.booking.bookings.rows ∧ m ∈ s.saga.sent ∧
      m.topic = .bookingCancelled ∧ Names m b ∧ m.messageId = message.messageId ∧
      m.message.payload = .bookingEventQuantity p ∧ p.bookingId = b.id.text ∧ Requests s.saga r b ∧
      Journey s.saga b (isCanonical r.message.payload.eventId) .cancelling := by
  obtain ⟨m, b, hm, ht, hid, hpay, hb, hn⟩ := hi.news hd rfl
  rw [hp] at hpay
  have hpb : p.bookingId = b.id.text := by have := hn.bookingId; rw [hpay] at this; exact this
  obtain ⟨r, phase, hreq, hj⟩ := hi.sound.journeys b hb
  have htoken := hj.sent_open hm hn.bookingId (by rw [hid]; exact hnew)
  rw [ht] at htoken
  have hphase : phase = .cancelling := by
    cases hcan : isCanonical r.message.payload.eventId <;> rw [hcan] at htoken <;> cases phase <;>
      first | rfl | (revert htoken; decide)
  subst hphase
  exact ⟨m, r, b, hb, hm, ht, hn, hid, hpay, hpb, hreq, hj⟩

theorem Inv.release {message : Message} {p : BookingEventQuantityPayload} {draw : Draw} {row row' : EventRow}
    {event : EventDb} (hd : delivered s .bookingCancelled message = true)
    (hp : message.payload = .bookingEventQuantity p)
    (h : Released ⟨message.messageId, p.eventId, p.quantity⟩ draw.now s.event row row' event) :
    Moved s.saga { s with event, changes := s.changes ++ [SeatChange.released message.messageId p] }.saga := by
  obtain ⟨hin, hnew⟩ := inbox_insert h.processed
  obtain ⟨m, r, b, hb, hm, ht, hn, hid, hpay, hpb, hreq, hj⟩ := hi.cancelling hd hp hnew
  have ha : Advance s.saga
      { s with event, changes := s.changes ++ [SeatChange.released message.messageId p] }.saga b b none none
      (some m) none (some (.released message.messageId p)) := by
    refine ⟨Table.replaced_self hb, rfl, rfl, (List.append_nil _).symm, ?_, ?_, (List.append_nil _).symm, rfl,
      fun x hx => (by cases hx), fun x hx => (by cases hx), fun x hx => ?_, fun x hx => (by cases hx),
      fun x hx => (by rcases hx with hx | hx <;> cases hx), fun c id hc hne => ?_, fun c e n hc => ?_⟩
    · show contents event.outbox = contents s.event.outbox ++ []
      rw [h.outbox, List.append_nil]
    · show inbox event.processed = inbox s.event.processed ++ [m.messageId]
      rw [hin, hid]
    · cases hx; exact ⟨hm, hn.bookingId⟩
    · cases hc
      by_contra hid
      exact hne (if_neg fun e => hid (e.symm.trans hpb))
    · cases hc
      obtain ⟨hevent, hquantity⟩ := hn.amount hpay
      exact apply_released hevent hquantity
  refine .advanced ha hreq hj .release (ha.journey hi.sound hj hj.status ?_ rfl ?_)
  · rw [turn_some ht]; cases isCanonical r.message.payload.eventId <;> rfl
  · show [true] ++ [SeatChange.released message.messageId p].filterMap _ = [true, false]
    have : SeatChange.concerning b.id.text (.released message.messageId p) = some false := if_pos hpb
    rw [List.filterMap_cons_some this]; rfl

/-! ## The branches that would drop a message -/

theorem Inv.not_unsettled {consumer : Consumer} {status : BookingStatus} {topic : Topic}
    {message : Message} {now : Date} {booking : BookingDb} (ho : settlement consumer.topic = some (status, topic))
    (hd : delivered s consumer.topic message = true)
    (h : Unsettled message.messageId message.payload.bookingId message.payload.eventId message.payload.quantity now
      s.booking booking) : False := by
  obtain ⟨m, r, b, hm, ht, hid, hpay, hans, hb, hreq⟩ := hi.outcome hd (settlement_topic ho).1
  have hmb : m.message.payload.bookingId = b.id.text := hans.bookingId.trans hreq.names.bookingId
  obtain ⟨r', p, _, hj⟩ := hi.sound.journeys b hb
  have htoken := hj.answer_open hm hmb (by rw [hid]; exact (inbox_insert h.processed).2)
  have hpending : p.status = .pending := by
    cases p <;> first | rfl | (simp [Phase.answers] at htoken)
  refine h.no_pending b hb ⟨?_, fun e he => ?_, fun q hq => ?_, hj.status.trans hpending⟩
  · rw [← hpay, hmb]; exact Uuid.cast_text _
  · rw [← Option.some.inj he, ← hpay, hans.eventId]; exact hreq.names.eventId
  · rw [← hpay] at hq
    exact (hreq.names.quantity q (hans.quantity q hq)).symm

theorem Inv.not_invalid {message : Message} {p : ReserveSeatsPayload} {now : Date} {event : EventDb}
    (hd : delivered s .reserveSeats message = true) (hp : message.payload = .reserveSeats p) (hq : p.quantity ≤ 0)
    (h : Ignored message.messageId now s.event event) : False := by
  obtain ⟨m, b, hb, hreq, _, hpay, _, _⟩ := hi.requested hd hp (inbox_insert h.processed).2
  have hpos := hi.sound.positive b hb
  have := hreq.names.quantity p.quantity (by rw [hpay]; rfl)
  omega

theorem Inv.not_unreleased {message : Message} {p : BookingEventQuantityPayload} {now : Date} {event : EventDb}
    (hd : delivered s .bookingCancelled message = true) (hp : message.payload = .bookingEventQuantity p)
    (h : Ignored message.messageId now s.event event)
    (hroom : 0 < p.quantity → ∀ row ∈ s.event.events.rows, Uuid.cast p.eventId = .ok row.id →
      row.seats.total < row.seats.available + p.quantity) : False := by
  obtain ⟨m, r, b, hb, _, _, hn, _, hpay, _, hreq, hj⟩ := hi.cancelling hd hp (inbox_insert h.processed).2
  have hpos := hi.sound.positive b hb
  have hquantity : p.quantity = b.quantity := hn.quantity p.quantity (by rw [hpay]; rfl)
  have hevent : Uuid.cast p.eventId = .ok b.eventId := by have := hn.eventId; rw [hpay] at this; exact this
  -- what the booking holds is part of what the event's row has reserved
  have hheld := hi.sound.quantity_le_held hb hj rfl
  rw [← hi.balanced, ← hi.ledger.balanced] at hheld
  unfold reservedFor at hheld
  cases hf : s.event.events.find b.eventId with
  | none => rw [hf, Option.elim_none] at hheld; omega
  | some row =>
    obtain ⟨hrow, hid⟩ := Table.find_eq_some.mp hf
    rw [hf, Option.elim_some] at hheld
    have := hroom (by omega) row hrow (hevent.trans (congrArg _ hid.symm))
    unfold Seats.reserved at hheld
    omega

end

/-! ## Every step -/

/-- A step moves the saga, or leaves it alone but for the record of a new event row. -/
inductive Simulates (s s' : System) : Prop
  | moved (h : Moved s.saga s'.saga)
  | same (h : s'.saga = s.saga)
  | created {e : Uuid} (new : s.event.events.find e = none) (h : s'.saga = s.saga.created e)

theorem saga_event {s : System} {event : EventDb} (hp : event.processed = s.event.processed)
    (ho : event.outbox = s.event.outbox) : { s with event }.saga = s.saga := by
  show Saga.mk _ _ (contents event.outbox) (inbox event.processed) _ _ = _
  rw [hp, ho]; rfl

theorem saga_bookkeep (s : System) (service : Service) (op : Bookkeeping) :
    (s.bookkeep op service).saga = s.saga := by
  cases service with
  | booking =>
    show Saga.mk _ (contents (op.apply s.booking.outbox)) _ _ _ _ = _
    rw [contents_apply]; rfl
  | event =>
    show Saga.mk _ _ (contents (op.apply s.event.outbox)) _ _ _ = _
    rw [contents_apply]; rfl

theorem Simulates.keeps {s s' : System} (h : Simulates s s') : Keeps s.saga s'.saga := by
  cases h with
  | moved h => exact h.keeps
  | same h => rw [h]; exact .refl _
  | created new h => rw [h]; exact ⟨(Keeps.refl s.saga).bookings, (Keeps.refl s.saga).stored⟩

theorem Backed.mono {g g' : Saga} (hk : Keeps g g') {topic : Topic} {message : Message}
    (h : Backed g topic message) :
    Backed g' topic message := by
  obtain ⟨m, hm, hrest⟩ := h
  exact ⟨m, hk.stored m hm, hrest⟩

section
variable [Zod] {s s' : System} {l : Label} (hi : Inv s) (hs : Step delivered s l s')
include hi hs

theorem step_simulates : Simulates s s' := by
  cases hs with
  | idle => exact .same rfl
  | book schema created => exact .moved (.opened (opens_book created))
  | read mem row_id => exact .same rfl
  | cancel reading cancelled => exact .moved (hi.cancel reading cancelled)
  | settle outcome delivered settled => exact .moved (hi.settle outcome delivered settled)
  | unsettled outcome delivered unsettled => exact absurd unsettled (hi.not_unsettled outcome delivered)
  | reserve delivered payload reserved => exact .moved (hi.reserve delivered payload reserved)
  | refuse delivered payload refused => exact .moved (hi.refuse delivered payload refused)
  | invalid delivered payload quantity ignored => exact absurd ignored (hi.not_invalid delivered payload quantity)
  | release delivered payload released => exact .moved (hi.release delivered payload released)
  | unreleased delivered payload ignored no_room =>
    exact absurd no_room (hi.not_unreleased delivered payload ignored)
  | create created =>
    rename_i input draw row event
    have hnew : s.event.events.find draw.id.val = none := by
      have := Table.find_before_insert created.events
      rw [event_key, created.row_id] at this; exact this
    refine .created hnew ?_
    show Saga.created { s with event }.saga draw.id.val = _
    rw [saga_event created.processed created.outbox]
  | rebase rebased => exact .same (saga_event rebased.processed rebased.outbox)
  | delete deleted => exact .same (saga_event deleted.processed deleted.outbox)
  | notify => exact .same rfl
  | publishDirect => exact .same rfl
  | dispatch => exact .same rfl
  | bookkeep service op => exact .same (saga_bookkeep s service op)

theorem step_backed : (∀ x ∈ s'.published, Backed s'.saga x.1 x.2) ∧
    ∀ x ∈ s'.publishing, Backed s'.saga x.topic x.message := by
  have hk := (step_simulates hi hs).keeps
  have hold := fun x hx => (hi.published x hx).mono hk
  have hold' := fun x hx => (hi.publishing x hx).mono hk
  cases hs with
  | reserve delivered payload reserved =>
    rename_i message p draw row row' event
    refine ⟨hold, fun x hx => ?_⟩
    rcases List.mem_append.mp hx with hx | hx
    · exact hold' x hx
    · rw [List.mem_singleton.mp hx]
      refine ⟨(outboxInsert draw.rowId .seatsReserved
        ((successMessage (message.map fun _ => p) draw).map .bookingEventQuantity)).stored, Or.inr ?_, rfl,
          rfl, rfl⟩
      rw [show Saga.answered _ = _ from (outbox_insert reserved.outbox).1]
      exact List.mem_append_right _ (List.mem_singleton.mpr rfl)
  | refuse delivered payload refused =>
    rename_i message p draw reason event
    refine ⟨hold, fun x hx => ?_⟩
    rcases List.mem_append.mp hx with hx | hx
    · exact hold' x hx
    · rw [List.mem_singleton.mp hx]
      refine ⟨(OutboxOnFailure.outbox ⟨draw.otherRowId, .seatReservationFailed, draw.otherMessageId.text,
        message.correlationId, p.bookingId⟩ p.eventId reason draw.sent).stored, Or.inr ?_, rfl, rfl, rfl⟩
      rw [show Saga.answered _ = _ from (outbox_insert refused.outbox).1]
      exact List.mem_append_right _ (List.mem_singleton.mpr rfl)
  | invalid delivered payload quantity ignored => exact absurd ignored (hi.not_invalid delivered payload quantity)
  | publishDirect mem =>
    refine ⟨fun x hx => ?_, hold'⟩
    rcases List.mem_append.mp hx with hx | hx
    · exact hold x hx
    · rw [List.mem_singleton.mp hx]; exact hold' _ mem
  | dispatch mem row_topic row_message =>
    rename_i service topic message row
    refine ⟨fun x hx => ?_, hold'⟩
    rcases List.mem_append.mp hx with hx | hx
    · exact hold x hx
    · rw [List.mem_singleton.mp hx]
      have hstored : row.content ∈ s.saga.sent ∨ row.content ∈ s.saga.answered := by
        cases service with
        | booking => exact Or.inl (List.mem_map_of_mem mem)
        | event => exact Or.inr (List.mem_map_of_mem mem)
      refine ⟨row.content, hstored, row_topic, ?_, congrArg _ row_message⟩
      rw [← hi.sound.enveloped _ hstored]
      exact congrArg _ row_message
  | bookkeep service op => cases service <;> exact ⟨hold, hold'⟩
  | _ => exact ⟨hold, hold'⟩

theorem step_readings : ∀ x ∈ s'.readings, ∃ b ∈ s'.booking.bookings.rows, Uuid.cast x.1 = .ok b.id ∧
    x.2.id = b.id.text ∧ x.2.eventId = b.eventId.text ∧ x.2.quantity = b.quantity := by
  have hk := (step_simulates hi hs).keeps
  have hold : ∀ x ∈ s.readings, ∃ b ∈ s'.booking.bookings.rows, Uuid.cast x.1 = .ok b.id ∧ x.2.id = b.id.text ∧
      x.2.eventId = b.eventId.text ∧ x.2.quantity = b.quantity := by
    intro x hx
    obtain ⟨b, hb, h1, h2, h3, h4⟩ := hi.readings x hx
    obtain ⟨b', hb', hid, he, hq⟩ := hk.bookings b hb
    exact ⟨b', hb', hid ▸ h1, hid ▸ h2, he ▸ h3, hq ▸ h4⟩
  cases hs with
  | read mem row_id =>
    intro x hx
    rcases List.mem_append.mp hx with hx | hx
    · exact hold x hx
    · rw [List.mem_singleton.mp hx]
      exact ⟨_, mem, row_id, rfl, rfl, rfl⟩
  | bookkeep service op => cases service <;> exact hold
  | _ => exact hold

theorem inv_step : Inv s' := by
  have hledger := ledger_step hi.ledger hs
  have hsim := step_simulates hi hs
  have hboth : Sound s'.saga ∧ ∀ e, balance s'.changes e = held s'.saga e := by
    cases hsim with
    | moved h => exact ⟨h.sound hi.sound, h.balanced hi.sound hi.balanced⟩
    | same h =>
      rw [h]
      refine ⟨hi.sound, fun e => ?_⟩
      rw [show s'.changes = s.changes from congrArg Saga.changes h]
      exact hi.balanced e
    | created new h =>
      rename_i e
      rw [h]
      refine ⟨hi.sound.created, fun e' => ?_⟩
      rw [held_created, ← hi.balanced e', show s'.changes = s.changes ++ [.created e] from congrArg Saga.changes h,
        balance_append]
      show (if e = e' then 0 else _) = _
      split
      · rename_i he
        rw [← hi.ledger.balanced, ← he]
        unfold reservedFor
        rw [new]; rfl
      · rfl
  obtain ⟨hp, hp'⟩ := step_backed hi hs
  exact ⟨hboth.1, hledger, hboth.2, hp, hp', step_readings hi hs⟩

end

theorem inv_empty : Inv System.empty :=
  ⟨sound_start, ledger_empty, fun _ => rfl, fun _ h => (by cases h), fun _ h => (by cases h),
    fun _ h => (by cases h)⟩

theorem inv_closed [Zod] {s : System} (h : closed.Reach s) : Inv s := by
  refine Machine.Reach.inv ?_ ?_ h
  · intro s0 h0
    rw [show s0 = System.empty from h0]; exact inv_empty
  · intro s0 l s1 _ hi he
    exact inv_step hi (closed_step he)

end EventBooking
