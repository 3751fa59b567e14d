import EventBooking.Announcements
import EventBooking.Dispatcher
import EventBooking.Producers
import EventBooking.SeatRange

/-!
# Deliveries that nothing disturbs

A published message that its consumer has not recorded: drawn identifiers that
are new and a connection that holds are all it takes for the transaction to
commit. It records the message and stores at most one answer, a pending row
with less of the saga still to come.
-/

namespace EventBooking
open Lib

/-! ## The two ends of an outbox -/

def Service.peer : Service → Service
  | .booking => .event
  | .event => .booking

def System.inbox (s : System) : Service → List String
  | .booking => EventBooking.inbox s.booking.processed
  | .event => EventBooking.inbox s.event.processed

/-- How many deliveries between the two services a message still causes. -/
def Topic.causes : Topic → Nat
  | .reserveSeats => 2
  | .seatsReserved | .seatReservationFailed | .bookingCancelled => 1
  | .bookingConfirmed | .bookingFailed => 0

def OutboxRow.awaiting (r : OutboxRow) : Bool :=
  decide (r.attempts < maxAttempts) &&
    (decide (r.status = .pending) || (decide (r.status = .processing) && r.claimedAt.isSome))

/-! ## New identifiers -/

def Draw.identifiers (draw : Draw) : List String :=
  [draw.rowId.text, draw.messageId.text, draw.otherRowId.text, draw.otherMessageId.text]

def StoredMessage.identifiers (m : StoredMessage) : List String := [m.id.text, m.messageId]

def System.identifiers (s : System) : List String :=
  (contents s.booking.outbox ++ contents s.event.outbox).flatMap StoredMessage.identifiers

/-- The identifiers no row has, on a connection that holds. -/
structure Undisturbed (s : System) (draw : Draw) : Prop where
  budget : draw.budget = none
  unused : ∀ id ∈ draw.identifiers, id ∉ s.identifiers

theorem unused_rows {t : OutboxTable} {u : Uuid} {messageId : String}
    (hu : u.text ∉ (contents t).flatMap StoredMessage.identifiers)
    (hm : messageId ∉ (contents t).flatMap StoredMessage.identifiers) :
    u ∉ t.rows.map (·.id) ∧ messageId ∉ t.rows.map (·.messageId) := by
  refine ⟨fun h => hu ?_, fun h => hm ?_⟩
  · obtain ⟨r, hr, rfl⟩ := List.mem_map.mp h
    exact List.mem_flatMap.mpr ⟨r.content, List.mem_map_of_mem hr, List.mem_cons_self⟩
  · obtain ⟨r, hr, rfl⟩ := List.mem_map.mp h
    exact List.mem_flatMap.mpr ⟨r.content, List.mem_map_of_mem hr, List.mem_cons_of_mem _ List.mem_cons_self⟩

section
variable {s : System} {draw : Draw} (h : Undisturbed s draw)
include h

theorem Undisturbed.absent {id : String} (hid : id ∈ draw.identifiers) :
    id ∉ (contents s.booking.outbox).flatMap StoredMessage.identifiers ∧
      id ∉ (contents s.event.outbox).flatMap StoredMessage.identifiers := by
  have h := h.unused id hid
  unfold System.identifiers at h
  rw [List.flatMap_append] at h
  exact ⟨fun hm => h (List.mem_append_left _ hm), fun hm => h (List.mem_append_right _ hm)⟩

theorem Undisturbed.booking : OutboxFresh draw s.booking.outbox := by
  have hrow : draw.rowId.text ∈ draw.identifiers := List.mem_cons_self
  have hmessage : draw.messageId.text ∈ draw.identifiers := List.mem_cons_of_mem _ List.mem_cons_self
  exact unused_rows (h.absent hrow).1 (h.absent hmessage).1

theorem Undisturbed.event : ReserveFresh draw s.event := by
  have hrow : draw.rowId.text ∈ draw.identifiers := by simp [Draw.identifiers]
  have hmessage : draw.messageId.text ∈ draw.identifiers := by simp [Draw.identifiers]
  have hotherRow : draw.otherRowId.text ∈ draw.identifiers := by simp [Draw.identifiers]
  have hotherMessage : draw.otherMessageId.text ∈ draw.identifiers := by simp [Draw.identifiers]
  exact ⟨unused_rows (h.absent hrow).2 (h.absent hmessage).2,
    unused_rows (h.absent hotherRow).2 (h.absent hotherMessage).2⟩

end

/-! ## What is delivered fits -/

def Fits (s : System) : Prop := ∀ b ∈ s.booking.bookings.rows, b.quantity ≤ int4Max

theorem BookingInsert.row_fits {b : BookingInsert} {now : Date} {row : BookingRow} (h : b.row now = .ok row) :
    row.quantity ≤ int4Max := by
  unfold BookingInsert.row at h
  obtain ⟨userId, _, h⟩ := except_bind_ok.mp h
  obtain ⟨eventId, _, h⟩ := except_bind_ok.mp h
  obtain ⟨quantity, hq, h⟩ := except_bind_ok.mp h
  split at h
  · cases h
    obtain ⟨rfl, _, hfit⟩ := int4_eq_ok.mp hq
    exact hfit
  · cases h

theorem Fits.replaced {s : System} (h : Fits s) {t : Table bookingSchema} {row : BookingRow}
    {status : BookingStatus} {now : Date} (hr : s.booking.bookings.Replaced row (setStatus status now row) t) :
    ∀ b ∈ t.rows, b.quantity ≤ int4Max := by
  intro b hb
  rcases hr.mem_iff.mp hb with rfl | hb
  · exact h row hr.mem
  · exact h b hb.1

section
variable [Zod]

theorem fits_step {deliverable : System → Topic → Message → Bool} {s s' : System} {l : Label} (h : Fits s)
    (hs : Step deliverable s l s') : Fits s' := by
  cases hs with
  | book schema created =>
    intro b hb
    rw [Table.insert_rows created.bookings, List.mem_append, List.mem_singleton] at hb
    rcases hb with hb | rfl
    · exact h b hb
    · exact BookingInsert.row_fits created.row_eq
  | cancel reading cancelled => exact h.replaced cancelled.bookings
  | settle outcome delivered settled => exact h.replaced settled.bookings
  | unsettled outcome delivered unsettled => exact fun b hb => h b (unsettled.bookings ▸ hb)
  | bookkeep service op => cases service <;> exact h
  | _ => exact h

theorem fits_closed {s : System} (h : closed.Reach s) : Fits s := by
  refine h.inv ?_ fun s l s' _ hi he => fits_step hi (closed_step he)
  intro s hs b hb
  rw [show s = System.empty from hs] at hb; cases hb

/-- What the services publish passes the schemas, so a closed run is an open one. -/
theorem opened_of_closed {s : System} (h : closed.Reach s) : opened.Reach s := by
  refine Machine.Reach.inv (fun _ h0 => .start h0) ?_ h
  intro s l s' _ hi he
  refine hi.step (l := l) ?_
  cases l with
  | deliver consumer message draw =>
    obtain ⟨hd, he⟩ := Option.ite_none_right_eq_some.mp he
    have hschema := (conforming_opened hi).published _ (of_decide_eq_true hd)
    exact (if_pos hschema).trans he
  | _ => exact he

end

/-! ## Outcomes -/

theorem settleBooking_no_error {messageId bookingId eventId : String} {b u : Uuid}
    (hb : Uuid.cast bookingId = .ok b) (hu : Uuid.cast eventId = .ok u) {quantity : Option Int}
    (hq : ∀ q, quantity = some q → 0 < q ∧ q ≤ int4Max)
    {status : BookingStatus} {o : OutboxInsert} {now : Date} {d : BookingDb}
    (hid : o.id.val ∉ d.outbox.rows.map (·.id))
    (hmessage : o.messageId ∉ d.outbox.rows.map (·.messageId)) (e : DbError) :
    (Tx.transact (settleBooking messageId bookingId eventId quantity status o now) none d).1 ≠ .error e := by
  intro he
  have he' : dbReply (Tx.transact (settleBooking messageId bookingId eventId quantity status o now) none d).1 =
      .error (.db e) := dbReply_error.mpr he
  obtain ⟨t, _, hf⟩ := (inboxed_fails fun _ => regular_settle _ _ _ _ _ _).mp he'
  unfold settleRecorded at hf
  rw [Tx.fails_bind (Tx.regular_stmt _), Tx.fails_stmt] at hf
  obtain hf | ⟨count, m, hm, hf⟩ := hf
  · cases hquantity : quantity with
    | none =>
      rw [hquantity] at hf
      unfold bookingUpdateMany at hf
      rw [hb] at hf
      simp only [Option.mapM, hu] at hf
      cases hf
    | some q =>
      rw [hquantity] at hf
      obtain ⟨hpos, hfit⟩ := hq q hquantity
      have := ((bookingUpdateMany_error hb hu hpos).mp hf).2
      omega
  · have hout : m.outbox = d.outbox := by
      rcases bookingUpdateMany_cases (Tx.ok_stmt.mp hm) with hc | ⟨row, bookings, _, _, _, rfl⟩
      · rw [hc.2.1]
      · rfl
    rw [Tx.fails_bind (Tx.regular_stmt _), Tx.fails_stmt] at hf
    obtain hf | ⟨found, m', hm', hf⟩ := hf
    · unfold bookingFindUnique at hf; rw [findUnique_ok hb] at hf; cases hf
    · obtain ⟨_, _, _, rfl⟩ := findUnique_eq_ok.mp (Tx.ok_stmt.mp hm')
      cases found with
      | none => exact absurd hf Tx.fails_pure
      | some booking =>
        simp only at hf
        split at hf
        · exact absurd hf Tx.fails_pure
        · rw [Tx.fails_bind (Tx.regular_stmt _), Tx.fails_stmt] at hf
          obtain hf | ⟨_, _, _, hf⟩ := hf
          · exact (insertInto_error.mp hf).2 (hout ▸ outbox_fresh hid hmessage)
          · exact absurd hf Tx.fails_pure

theorem no_error_of_ends {α : Type} {r : Except DbError α} {fresh : Prop} (h : Ends fresh (dbReply r)) (hf : fresh)
    (e : DbError) : r ≠ .error e := by
  intro he
  rw [he] at h
  cases h with
  | collided hn => exact hn hf

theorem map_payload_eq {π : Type} {f : π → Payload} {p : π} {message : Message} (h : message.payload = f p) :
    (message.map fun _ => p).map f = message := by
  unfold MessageEnvelope.map
  rw [← h]

/-! ## A delivery does its work -/

/-- The service recorded the message and stored at most one answer, pending and nearer to the end. -/
structure Handled (s s' : System) (service : Service) (m : StoredMessage) (draw : Draw)
    (answer : Option OutboxRow) :
    Prop where
  published : s'.published = s.published
  inbox : s'.inbox service = s.inbox service ++ [m.messageId]
  other_inbox : s'.inbox service.peer = s.inbox service.peer
  rows : (s'.outbox service).rows = (s.outbox service).rows ++ answer.toList
  other_outbox : s'.outbox service.peer = s.outbox service.peer
  awaiting : ∀ r, answer = some r → r.awaiting = true
  causes : ∀ r, answer = some r → r.topic.causes < m.topic.causes
  identifiers : ∀ r, answer = some r → ∀ id ∈ r.content.identifiers, id ∈ draw.identifiers

theorem handled_insert {s s' : System} {service : Service} {m : StoredMessage} {draw : Draw}
    {o : OutboxInsert} {now : Date} (published : s'.published = s.published)
    (inbox : s'.inbox service = s.inbox service ++ [m.messageId])
    (other_inbox : s'.inbox service.peer = s.inbox service.peer)
    (rows : (s'.outbox service).rows = (s.outbox service).rows ++ [o.row now])
    (other_outbox : s'.outbox service.peer = s.outbox service.peer) (ht : o.topic.causes < m.topic.causes)
    (hid : o.id.text ∈ draw.identifiers) (hm : o.messageId ∈ draw.identifiers) :
    ∃ answer, Handled s s' service m draw answer := by
  refine ⟨some (o.row now), published, inbox, other_inbox, rows, other_outbox, fun r hr => ?_, fun r hr => ?_,
    fun r hr id hmem => ?_⟩
  · cases hr; rfl
  · cases hr; exact ht
  · cases hr
    rcases List.mem_cons.mp hmem with rfl | hmem
    · exact hid
    · rw [List.mem_singleton.mp hmem]; exact hm

theorem handled_bare {s s' : System} {service : Service} {m : StoredMessage} {draw : Draw}
    (published : s'.published = s.published) (inbox : s'.inbox service = s.inbox service ++ [m.messageId])
    (other_inbox : s'.inbox service.peer = s.inbox service.peer) (outbox : s'.outbox service = s.outbox service)
    (other_outbox : s'.outbox service.peer = s.outbox service.peer) :
    ∃ answer, Handled s s' service m draw answer := by
  refine ⟨none, published, inbox, other_inbox, ?_, other_outbox, fun r hr => (by cases hr),
    fun r hr => (by cases hr), fun r hr => (by cases hr)⟩
  rw [outbox]; exact (List.append_nil _).symm

section
variable [Zod] {s : System} (hi : Inv s) (hc : Conforming s) (hf : Fits s) {draw : Draw} (hd : Undisturbed s draw)
  {message : Message}
include hi hc hf hd

theorem reserve_handled {m : StoredMessage} (ht : m.topic = .reserveSeats) (hid : m.messageId = message.messageId)
    (hp : delivered s .reserveSeats message = true) (hnew : message.messageId ∉ inbox s.event.processed) :
    ∃ s', closed.exec s (.deliver .reserveSeats message draw) = some s' ∧
      ∃ answer, Handled s s' .event m draw answer := by
  have hschema := hc.published _ (of_decide_eq_true hp)
  obtain ⟨p, hpay⟩ : ∃ p, message.payload = .reserveSeats p := by
    have h := (schema_iff.mp hschema).2.2.2.2.2
    cases hm : message.payload with
    | reserveSeats p => exact ⟨p, rfl⟩
    | _ => rw [hm] at h; cases h
  obtain ⟨x, b, hb, hreq, _, hxp, _, _⟩ := hi.requested hp hpay hnew
  have hquantity : p.quantity = b.quantity := hreq.names.quantity p.quantity (by rw [hxp]; rfl)
  have hexec : closed.exec s (.deliver .reserveSeats message draw) =
      some (s.reserveSeats (message.map fun _ => p) draw) := by
    refine (if_pos hp).trans ?_
    unfold System.deliver
    simp only [hpay]
  have hmapped : messageEnvelopeSchema .reserveSeats ((message.map fun _ => p).map .reserveSeats) = true := by
    rw [map_payload_eq hpay]; exact hschema
  have hends := (reserveSeats_ends hmapped draw s.event).mpr (.inr (by rw [map_payload, hquantity]; exact hf b hb))
  rw [hexec]
  cases htx : Tx.transact (reserveSeats (message.map fun _ => p) draw) none s.event with
  | mk r event =>
    have herror := no_error_of_ends hends hd.event
    rw [htx] at herror
    have hs' : Tx.transact (reserveSeats (message.map fun _ => p) draw) draw.budget s.event = (r, event) := by
      rw [hd.budget]; exact htx
    rcases processReserveSeatsMessage_cases hs' with hx | hx | hx | hx
    · obtain ⟨_, ⟨_, hin⟩ | ⟨e, hr⟩⟩ := hx
      · exact absurd hin hnew
      · exact absurd hr (herror e)
    · have hpos := hi.sound.positive b hb
      have hle : p.quantity ≤ 0 := hx.1
      omega
    · obtain ⟨row, row', rfl, hr⟩ := hx
      refine ⟨_, rfl, ?_⟩
      unfold System.reserveSeats
      rw [hs']
      refine handled_insert rfl ?_ rfl (Table.insert_rows hr.outbox) rfl ?_ ?_ ?_
      · rw [hid]; exact (inbox_insert hr.processed).1
      · rw [ht]; exact Nat.lt_succ_self 1
      · simp [Draw.identifiers, outboxInsert]
      · simp [Draw.identifiers, outboxInsert, successMessage, envelope]
    · obtain ⟨reason, rfl, hr⟩ := hx
      refine ⟨_, rfl, ?_⟩
      unfold System.reserveSeats
      rw [hs']
      refine handled_insert rfl ?_ rfl (Table.insert_rows hr.outbox) rfl ?_ ?_ ?_
      · rw [hid]; exact (inbox_insert hr.processed).1
      · rw [ht]; exact Nat.lt_succ_self 1
      · simp [Draw.identifiers, OutboxOnFailure.outbox, processReserveSeatsInput]
      · simp [Draw.identifiers, OutboxOnFailure.outbox, processReserveSeatsInput]

theorem release_handled {m : StoredMessage} (hid : m.messageId = message.messageId)
    (hp : delivered s .bookingCancelled message = true) (hnew : message.messageId ∉ inbox s.event.processed) :
    ∃ s', closed.exec s (.deliver .releaseSeats message draw) = some s' ∧
      ∃ answer, Handled s s' .event m draw answer := by
  have hschema := hc.published _ (of_decide_eq_true hp)
  obtain ⟨p, hpay⟩ : ∃ p, message.payload = .bookingEventQuantity p := by
    have h := (schema_iff.mp hschema).2.2.2.2.2
    cases hm : message.payload with
    | bookingEventQuantity p => exact ⟨p, rfl⟩
    | _ => rw [hm] at h; cases h
  obtain ⟨x, r, b, hb, _, _, hn, _, hxp, _, hreq, hj⟩ := hi.cancelling hp hpay hnew
  have hquantity : p.quantity = b.quantity := hn.quantity p.quantity (by rw [hxp]; rfl)
  have hevent : Uuid.cast p.eventId = .ok b.eventId := by have := hn.eventId; rw [hxp] at this; exact this
  have hexec : closed.exec s (.deliver .releaseSeats message draw) =
      some (s.releaseSeats (message.map fun _ => p) draw) := by
    refine (if_pos hp).trans ?_
    unfold System.deliver
    simp only [hpay]
  have hroom : ReleaseFits s.event p.eventId p.quantity := by
    refine ⟨hquantity ▸ hf b hb, fun row hrow hrid => ?_⟩
    -- what the booking holds is part of what the row has reserved
    have hheld := hi.sound.quantity_le_held hb hj rfl
    have hbe : b.eventId = row.id := Except.ok.inj (hevent.symm.trans hrid)
    rw [← hi.balanced, ← hi.ledger.balanced, hbe, reservedFor_of_mem hrow] at hheld
    have := row.seats.total_int4
    unfold Seats.reserved at hheld
    unfold int4Max
    omega
  have hmapped :
      messageEnvelopeSchema .bookingCancelled ((message.map fun _ => p).map .bookingEventQuantity) = true := by
    rw [map_payload_eq hpay]; exact hschema
  have hpositive : 0 < (message.map fun _ => p).payload.quantity := (bookingEventQuantity_parts hmapped).2.2
  have hends := (releaseSeats_ends hmapped draw s.event).mpr (.inr hroom)
  rw [hexec]
  cases htx : Tx.transact (releaseSeats (message.map fun _ => p) draw) none s.event with
  | mk r event =>
    have herror := no_error_of_ends hends trivial
    rw [htx] at herror
    have hs' : Tx.transact (releaseSeats (message.map fun _ => p) draw) draw.budget s.event = (r, event) := by
      rw [hd.budget]; exact htx
    rcases processReleaseSeatsMessage_cases hs' with hx | hx | hx
    · obtain ⟨_, ⟨_, hin⟩ | ⟨e, hr⟩⟩ := hx
      · exact absurd hin hnew
      · exact absurd hr (herror e)
    · obtain ⟨_, hignored, hno⟩ := hx
      exact (hi.not_unreleased hp hpay hignored hno).elim
    · obtain ⟨row, row', rfl, hr⟩ := hx
      refine ⟨_, rfl, ?_⟩
      unfold System.releaseSeats
      rw [releaseSeatsCheck_ok hpositive, hs']
      refine handled_bare rfl ?_ rfl hr.outbox rfl
      rw [hid]; exact (inbox_insert hr.processed).1

omit hi hf hd in
theorem deliver_settle {consumer : Consumer} {status : BookingStatus} {topic : Topic}
    (ho : settlement consumer.topic = some (status, topic)) (hp : delivered s consumer.topic message = true) :
    s.deliver consumer message draw = some (s.settle (settleBooking message.messageId message.payload.bookingId
      message.payload.eventId message.payload.quantity status
          (settlementOutbox topic message draw) draw.now) draw) := by
  have hschema := (schema_iff.mp (hc.published _ (of_decide_eq_true hp))).2.2.2.2.2
  unfold System.deliver settlementOutbox
  generalize hm : message.payload = payload at hschema
  cases consumer with
  | handleSeatsReserved | handleSeatReservationFailed =>
    cases ho
    cases payload <;> first | rfl | cases hschema
  | _ => cases ho

theorem settle_handled {consumer : Consumer} {status : BookingStatus} {topic : Topic} {m : StoredMessage}
    (ho : settlement consumer.topic = some (status, topic)) (ht : m.topic = consumer.topic)
    (hid : m.messageId = message.messageId) (hp : delivered s consumer.topic message = true)
    (hnew : message.messageId ∉ inbox s.booking.processed) :
    ∃ s', closed.exec s (.deliver consumer message draw) = some s' ∧
      ∃ answer, Handled s s' .booking m draw answer := by
  obtain ⟨x, r, b, _, _, _, hxp, hans, hb, hreq⟩ := hi.outcome hp (settlement_topic ho).1
  have hbooking : Uuid.cast message.payload.bookingId = .ok b.id := by
    rw [← hxp, hans.bookingId, hreq.names.bookingId]; exact Uuid.cast_text _
  have hevent : Uuid.cast message.payload.eventId = .ok b.eventId := by
    rw [← hxp, hans.eventId]; exact hreq.names.eventId
  have hquantity : ∀ q, message.payload.quantity = some q → 0 < q ∧ q ≤ int4Max := by
    intro q hq
    rw [← hxp] at hq
    rw [hreq.names.quantity q (hans.quantity q hq)]
    exact ⟨hi.sound.positive b hb, hf b hb⟩
  refine ⟨_, (if_pos hp).trans (deliver_settle hc ho hp), ?_⟩
  unfold System.settle
  rw [hd.budget]
  have herror (e : DbError) : (Tx.transact
    (settleBooking message.messageId message.payload.bookingId message.payload.eventId
      message.payload.quantity status
          (settlementOutbox topic message draw) draw.now) none s.booking).1 ≠ .error e :=
    settleBooking_no_error hbooking hevent hquantity hd.booking.1 hd.booking.2 e
  cases htx : Tx.transact (settleBooking message.messageId message.payload.bookingId message.payload.eventId
      message.payload.quantity status (settlementOutbox topic message draw) draw.now) none s.booking with
  | mk result booking =>
    rw [htx] at herror
    rcases settleBooking_cases htx with hx | hx | hx
    · obtain ⟨_, ⟨_, hin⟩ | ⟨e, hr⟩⟩ := hx
      · exact absurd hin hnew
      · exact absurd hr (herror e)
    · obtain ⟨row, hr, _⟩ := hx
      have hin : inbox booking.processed = inbox s.booking.processed ++ [m.messageId] := by
        rw [hid]; exact (inbox_insert hr.processed).1
      have hout := hr.outbox
      split at hout
      · refine handled_insert rfl hin rfl (Table.insert_rows hout) rfl ?_ ?_ ?_
        · rw [ht]
          cases consumer <;> cases ho <;> exact Nat.lt_succ_self 0
        · simp [Draw.identifiers, settlementOutbox, outboxInsert]
        · simp [Draw.identifiers, settlementOutbox, outboxInsert, envelope]
      · exact handled_bare rfl hin rfl hout rfl
    · exact (hi.not_unsettled ho hp hx.2).elim

theorem deliver_handled {service : Service} {m : StoredMessage} (hm : m ∈ contents (s.outbox service.peer))
    (hw : 0 < m.topic.causes) (hp : (m.topic, m.message) ∈ s.published) (hnew : m.messageId ∉ s.inbox service) :
    ∃ consumer s', closed.exec s (.deliver consumer m.message draw) = some s' ∧
      ∃ answer, Handled s s' service m draw answer := by
  have hdelivered : delivered s m.topic m.message = true := decide_eq_true hp
  cases service with
  | event =>
    have hid := (hi.sound.enveloped m (.inl hm)).symm
    have htopic := (hi.sound.sent m hm).1
    cases ht : m.topic with
    | reserveSeats =>
      rw [ht] at hdelivered
      exact ⟨.reserveSeats, reserve_handled hi hc hf hd ht hid hdelivered (hid ▸ hnew)⟩
    | bookingCancelled =>
      rw [ht] at hdelivered
      exact ⟨.releaseSeats, release_handled hi hc hf hd hid hdelivered (hid ▸ hnew)⟩
    | bookingConfirmed | bookingFailed => rw [ht] at hw; exact absurd hw (by decide)
    | seatsReserved | seatReservationFailed => rw [ht] at htopic; cases htopic
  | booking =>
    have hid := (hi.sound.enveloped m (.inr hm)).symm
    have htopic := (hi.sound.answered m hm).1
    cases ht : m.topic with
    | seatsReserved =>
      rw [ht] at hdelivered
      exact ⟨.handleSeatsReserved, settle_handled hi hc hf hd rfl ht hid hdelivered (hid ▸ hnew)⟩
    | seatReservationFailed =>
      rw [ht] at hdelivered
      exact ⟨.handleSeatReservationFailed, settle_handled hi hc hf hd rfl ht hid hdelivered (hid ▸ hnew)⟩
    | _ => rw [ht] at htopic; cases htopic

end

end EventBooking
