import EventBooking.System

/-!
# What one step can do

`Step` lists the ways a step can end, each with the guards the code checked and
the tables it left. `exec_step` is the only place where the machine's function
is taken apart; invariants are proved by cases on `Step`.
-/

namespace EventBooking
open Lib

/-- What an outcome message does to a pending booking, and the topic of the news it sends. -/
def settlement : Topic → Option (BookingStatus × Topic)
  | .seatsReserved => some (.confirmed, .bookingConfirmed)
  | .seatReservationFailed => some (.failed, .bookingFailed)
  | _ => none

def settlementOutbox (topic : Topic) (message : Message) (draw : Draw) : OutboxInsert :=
  outboxInsert draw.rowId topic (envelope draw.messageId message.correlationId draw.sent message.payload)

/-- What a notification handler records of a message. -/
def Consumer.record (consumer : Consumer) (message : Message) (draw : Draw) : Option NotificationRecord :=
  match consumer, message.payload with
  | .handleBookingConfirmed, .bookingEventQuantity p =>
    some (EventBooking.handleBookingConfirmed (message.map fun _ => p) draw)
  | .handleBookingFailed, .failure p => some (EventBooking.handleBookingFailed (message.map fun _ => p) draw)
  | .handleBookingCancelled, .bookingEventQuantity p =>
    some (EventBooking.handleBookingCancelled (message.map fun _ => p) draw)
  | _, _ => none

section
variable [Zod] (deliverable : System → Topic → Message → Bool) (s : System)

inductive Step : Label → System → Prop
  | idle (l : Label) : Step l s
  | book {input : CreateBookingInput} {draw : Draw} {row : BookingRow} {booking : BookingDb}
      (schema : createBookingSchema input = true)
      (created : Created (createBookingData input draw)
      (createBookingOutbox input draw) draw.now s.booking row booking) :
      Step (.createBooking input draw) { s with booking }
  | read {id : String} {row : BookingRow} (mem : row ∈ s.booking.bookings.rows)
      (row_id : Uuid.cast id = .ok row.id) :
      Step (.readBooking id) { s with readings := s.readings ++ [(id, row.mapRow)] }
  | cancel {id : String} {dto : BookingDto} {draw : Draw} {row : BookingRow} {booking : BookingDb}
      (reading : (id, dto) ∈ s.readings)
      (cancelled : Cancelled id (cancelBookingOutbox dto draw) draw.now s.booking row booking) :
      Step (.cancelBooking id dto draw) { s with booking }
  | settle {consumer : Consumer} {status : BookingStatus} {topic : Topic} {message : Message} {draw : Draw}
      {row : BookingRow} {booking : BookingDb} (outcome : settlement consumer.topic = some (status, topic))
      (delivered : deliverable s consumer.topic message = true)
      (settled : Settled message.messageId message.payload.bookingId message.payload.eventId
        message.payload.quantity status (settlementOutbox topic message draw) draw.now s.booking row booking) :
      Step (.deliver consumer message draw) { s with booking }
  | unsettled {consumer : Consumer} {status : BookingStatus} {topic : Topic} {message : Message} {draw : Draw}
      {booking : BookingDb} (outcome : settlement consumer.topic = some (status, topic))
      (delivered : deliverable s consumer.topic message = true)
      (unsettled : Unsettled message.messageId message.payload.bookingId message.payload.eventId
        message.payload.quantity draw.now s.booking booking) :
      Step (.deliver consumer message draw) { s with booking }
  | reserve {message : Message} {p : ReserveSeatsPayload} {draw : Draw} {row row' : EventRow} {event : EventDb}
      (delivered : deliverable s .reserveSeats message = true) (payload : message.payload = .reserveSeats p)
      (reserved : Reserved (processReserveSeatsInput (message.map fun _ => p) draw) draw.now s.event row row'
        event) :
      Step (.deliver .reserveSeats message draw)
        { s with
          event
          publishing := s.publishing ++
            [⟨.seatsReserved, (successMessage (message.map fun _ => p) draw).map .bookingEventQuantity,
              some draw.rowId⟩]
          changes := s.changes ++ [.reserved message.messageId p] }
  | refuse {message : Message} {p : ReserveSeatsPayload} {draw : Draw} {reason : FailureReason} {event : EventDb}
      (delivered : deliverable s .reserveSeats message = true) (payload : message.payload = .reserveSeats p)
      (refused : Refused (processReserveSeatsInput (message.map fun _ => p) draw) reason draw.sent draw.now
        s.event event) :
      Step (.deliver .reserveSeats message draw)
        { s with
          event
          publishing := s.publishing ++
            [⟨.seatReservationFailed, (failedMessage (message.map fun _ => p) reason draw).map .failure,
              some draw.otherRowId⟩] }
  | invalid {message : Message} {p : ReserveSeatsPayload} {draw : Draw} {event : EventDb}
      (delivered : deliverable s .reserveSeats message = true) (payload : message.payload = .reserveSeats p)
      (quantity : p.quantity ≤ 0) (ignored : Ignored message.messageId draw.now s.event event) :
      Step (.deliver .reserveSeats message draw)
        { s with
          event
          publishing := s.publishing ++
            [⟨.seatReservationFailed, (failedMessage (message.map fun _ => p) .insufficientSeats draw).map .failure,
              none⟩] }
  | release {message : Message} {p : BookingEventQuantityPayload} {draw : Draw} {row row' : EventRow}
      {event : EventDb} (delivered : deliverable s .bookingCancelled message = true)
      (payload : message.payload = .bookingEventQuantity p)
      (released : Released ⟨message.messageId, p.eventId, p.quantity⟩ draw.now s.event row row' event) :
      Step (.deliver .releaseSeats message draw)
        { s with event, changes := s.changes ++ [.released message.messageId p] }
  | unreleased {message : Message} {p : BookingEventQuantityPayload} {draw : Draw} {event : EventDb}
      (delivered : deliverable s .bookingCancelled message = true)
      (payload : message.payload = .bookingEventQuantity p)
      (ignored : Ignored message.messageId draw.now s.event event)
      (no_room : 0 < p.quantity → ∀ row ∈ s.event.events.rows, Uuid.cast p.eventId = .ok row.id →
        row.seats.total < row.seats.available + p.quantity) :
      Step (.deliver .releaseSeats message draw) { s with event }
  | create {input : EventInput} {draw : Draw} {row : EventRow} {event : EventDb}
      (created : EventCreated ⟨draw.id, input.title, input.date, input.totalSeats, none⟩ draw.now s.event row
        event) :
      Step (.createEvent input draw) { s with event, changes := s.changes ++ [.created draw.id.val] }
  | rebase {id : String} {input : EventInput} {draw : Draw} {row row' : EventRow} {event : EventDb}
      (rebased : Rebased id input s.event row row' event) : Step (.updateEvent id input draw) { s with event }
  | delete {id : String} {row : EventRow} {event : EventDb} (deleted : Deleted id s.event row event) :
      Step (.deleteEvent id) { s with event }
  | notify {consumer : Consumer} {message : Message} {draw : Draw} {record : NotificationRecord}
      {row : NotificationRow} {notification : NotificationDb}
      (delivered : deliverable s consumer.topic message = true)
      (record_eq : consumer.record message draw = some record)
      (appended : Appended record draw.now s.notification row notification) :
      Step (.deliver consumer message draw) { s with notification }
  | publishDirect {publish : DirectPublish} (mem : publish ∈ s.publishing) :
      Step (.publishDirect publish) { s with published := s.published ++ [(publish.topic, publish.message)] }
  | dispatch {service : Service} {topic : Topic} {message : Message} {row : OutboxRow}
      (mem : row ∈ (s.outbox service).rows) (row_topic : row.topic = topic) (row_message : row.message = message) :
      Step (.dispatch service topic message) { s with published := s.published ++ [(topic, message)] }
  | bookkeep (service : Service) (op : Bookkeeping) : Step (.bookkeep service op) (s.bookkeep op service)

variable {deliverable s} {consumer : Consumer} {message : Message} {draw : Draw} {s' : System}

theorem step_reserveSeats {p : ReserveSeatsPayload} (hd : deliverable s .reserveSeats message = true)
    (hp : message.payload = .reserveSeats p) :
    Step deliverable s (.deliver .reserveSeats message draw) (s.reserveSeats (message.map fun _ => p) draw) := by
  cases ht : Tx.transact (reserveSeats (message.map fun _ => p) draw) draw.budget s.event with
  | mk r event =>
    unfold System.reserveSeats
    rw [ht]
    rcases processReserveSeatsMessage_cases ht with hc | hc | hc | hc
    · obtain ⟨rfl, ⟨rfl, _⟩ | ⟨e, rfl⟩⟩ := hc
      · simp only [directPublish, Option.toList_none, List.append_nil]
        exact .idle _
      · exact .idle _
    · obtain ⟨hq, rfl, hi⟩ := hc
      simp only [directPublish, Option.toList_some, List.append_nil]
      exact .invalid hd hp hq hi
    · obtain ⟨row, row', rfl, hr⟩ := hc
      exact .reserve hd hp hr
    · obtain ⟨reason, rfl, hr⟩ := hc
      simp only [directPublish, Option.toList_some, List.append_nil]
      cases reason with
      | insufficientSeats => exact .refuse hd hp hr
      | eventNotFound => exact .refuse hd hp hr

theorem step_releaseSeats {p : BookingEventQuantityPayload} (hd : deliverable s .bookingCancelled message = true)
    (hp : message.payload = .bookingEventQuantity p) :
    Step deliverable s (.deliver .releaseSeats message draw) (s.releaseSeats (message.map fun _ => p) draw) := by
  unfold System.releaseSeats
  rcases releaseSeatsCheck_cases (message.map fun _ => p) with ⟨_, hcheck⟩ | ⟨_, hcheck⟩
  · rw [hcheck]
    cases ht : Tx.transact (releaseSeats (message.map fun _ => p) draw) draw.budget s.event with
    | mk r event =>
      rcases processReleaseSeatsMessage_cases ht with hc | hc | hc
      · obtain ⟨rfl, ⟨rfl, _⟩ | ⟨e, rfl⟩⟩ := hc
        · simp only [List.append_nil]
          exact .idle _
        · exact .idle _
      · obtain ⟨⟨reason, rfl⟩, hi, hno⟩ := hc
        simp only [List.append_nil]
        exact .unreleased hd hp hi hno
      · obtain ⟨row, row', rfl, hr⟩ := hc
        exact .release hd hp hr
  · rw [hcheck]
    exact .idle _

theorem step_settle {status : BookingStatus} {topic : Topic} {t : Tx BookingDb SettleResult}
    (ho : settlement consumer.topic = some (status, topic)) (hd : deliverable s consumer.topic message = true)
    (ht : t = settleBooking message.messageId message.payload.bookingId message.payload.eventId
      message.payload.quantity status (settlementOutbox topic message draw) draw.now) :
    Step deliverable s (.deliver consumer message draw) (s.settle t draw) := by
  subst ht
  unfold System.settle
  cases hr : Tx.transact (settleBooking message.messageId message.payload.bookingId message.payload.eventId
      message.payload.quantity status (settlementOutbox topic message draw) draw.now) draw.budget s.booking with
  | mk r booking =>
    rcases settleBooking_cases hr with hc | hc | hc
    · obtain ⟨rfl, _⟩ := hc
      exact .idle _
    · obtain ⟨row, hs, _⟩ := hc
      exact .settle ho hd hs
    · exact .unsettled ho hd hc.2

theorem step_notify {record : NotificationRecord} (hd : deliverable s consumer.topic message = true)
    (hr : consumer.record message draw = some record) :
    Step deliverable s (.deliver consumer message draw) (s.notify record draw) := by
  unfold System.notify
  cases ha : appendIfUnprocessed record draw.id draw.now draw.budget s.notification with
  | mk r notification =>
    rcases appendIfUnprocessed_cases ha with hc | hc
    · obtain ⟨rfl, _⟩ := hc
      exact .idle _
    · obtain ⟨row, _, _, ha⟩ := hc
      exact .notify hd hr ha

theorem step_deliver (hd : deliverable s consumer.topic message = true)
    (h : s.deliver consumer message draw = some s') : Step deliverable s (.deliver consumer message draw) s' := by
  unfold System.deliver at h
  split at h
  · rename_i p hp
    obtain rfl := Option.some.inj h
    exact step_reserveSeats hd hp
  · rename_i p hp
    obtain rfl := Option.some.inj h
    exact step_releaseSeats hd hp
  · rename_i p hp
    obtain rfl := Option.some.inj h
    apply step_settle (show settlement Consumer.handleSeatsReserved.topic =
      some (.confirmed, .bookingConfirmed) from rfl) hd
    unfold settlementOutbox; rw [hp]; rfl
  · rename_i p hp
    obtain rfl := Option.some.inj h
    apply step_settle (show settlement Consumer.handleSeatReservationFailed.topic =
      some (.failed, .bookingFailed) from rfl) hd
    unfold settlementOutbox; rw [hp]; rfl
  · rename_i p hp
    obtain rfl := Option.some.inj h
    apply step_notify hd; simp only [Consumer.record, hp]
  · rename_i p hp
    obtain rfl := Option.some.inj h
    apply step_notify hd; simp only [Consumer.record, hp]
  · rename_i p hp
    obtain rfl := Option.some.inj h
    apply step_notify hd; simp only [Consumer.record, hp]
  · cases h

theorem exec_step {l : Label} (h : System.exec deliverable s l = some s') : Step deliverable s l s' := by
  cases l with
  | createBooking input draw =>
    obtain ⟨hs, rfl⟩ := guard_eq_some.mp h
    cases ht : Tx.transact (createBooking input draw) draw.budget s.booking with
    | mk r booking =>
      rcases createBookingTx_cases ht with hc | hc
      · obtain ⟨rfl, _⟩ := hc; exact .idle _
      · obtain ⟨row, _, hc⟩ := hc; exact .book hs hc
  | readBooking id =>
    obtain ⟨_, h⟩ := Option.ite_none_right_eq_some.mp h
    split at h
    · rename_i row d hf
      obtain rfl := Option.some.inj h
      obtain ⟨u, hu, hrow, _⟩ := findUnique_eq_ok.mp hf
      obtain ⟨hmem, rfl⟩ := Table.find_eq_some.mp hrow.symm
      exact .read hmem hu
    · cases h
  | cancelBooking id dto draw =>
    obtain ⟨hr, rfl⟩ := guard_eq_some.mp h
    cases ht : Tx.transact (cancelBooking id dto draw) draw.budget s.booking with
    | mk r booking =>
      rcases cancelBookingWithOutbox_cases ht with hc | hc
      · obtain ⟨rfl, _⟩ := hc; exact .idle _
      · obtain ⟨row, _, hc⟩ := hc; exact .cancel hr hc
  | createEvent input draw =>
    obtain ⟨_, rfl⟩ := guard_eq_some.mp h
    unfold System.createEvent
    split
    · rename_i dto event he
      obtain ⟨row, _, hc⟩ := eventCreate_cases he
      exact .create hc
    · exact .idle _
  | updateEvent id input draw =>
    obtain ⟨_, rfl⟩ := guard_eq_some.mp h
    cases ht : autocommit (updateStatement id input draw.now) s.event with
    | mk r event =>
      rcases autocommit_cases ht with hc | hc
      · obtain ⟨rfl, _⟩ := hc; exact .idle _
      · obtain ⟨o, hu, _⟩ := hc
        rcases updateStatement_cases hu with hc | hc
        · obtain ⟨_, rfl, _⟩ := hc; exact .idle _
        · obtain ⟨row, row', _, hc⟩ := hc; exact .rebase hc
  | deleteEvent id =>
    obtain ⟨_, rfl⟩ := guard_eq_some.mp h
    cases ht : autocommit (deleteStatement id) s.event with
    | mk r event =>
      rcases autocommit_cases ht with hc | hc
      · obtain ⟨rfl, _⟩ := hc; exact .idle _
      · obtain ⟨o, hu, _⟩ := hc
        rcases deleteStatement_cases hu with hc | hc
        · obtain ⟨_, rfl, _⟩ := hc; exact .idle _
        · obtain ⟨row, _, hc⟩ := hc; exact .delete hc
  | deliver consumer message draw =>
    obtain ⟨hd, h⟩ := Option.ite_none_right_eq_some.mp h
    exact step_deliver hd h
  | publishDirect publish =>
    obtain ⟨hm, rfl⟩ := guard_eq_some.mp h
    exact .publishDirect hm
  | dispatch service topic message =>
    obtain ⟨hm, rfl⟩ := guard_eq_some.mp h
    unfold stored at hm
    obtain ⟨row, hrow, hr⟩ := List.any_eq_true.mp hm
    rw [Bool.and_eq_true, decide_eq_true_eq, decide_eq_true_eq] at hr
    exact .dispatch hrow hr.1 hr.2
  | bookkeep service op =>
    obtain rfl := Option.some.inj h
    exact .bookkeep service op

theorem closed_step {l : Label} (h : closed.exec s l = some s') :
    Step delivered s l s' := exec_step h

theorem opened_step {l : Label} (h : opened.exec s l = some s') :
    Step (fun _ topic message => messageEnvelopeSchema topic message) s l s' := exec_step h

end

end EventBooking
