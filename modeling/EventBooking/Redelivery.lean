import EventBooking.Lifecycle

/-!
# Redelivered and aborted deliveries

A delivery that aborts and a delivery of a message its service has already
recorded leave every table as it was, so a run without them ends the same. The
inbox row of a message is committed by one delivery: with all that the message
does, with its rejection, or, where the message does not spell the event as the
column does, with the status of the booking and without its news.
-/

namespace EventBooking
open Lib

/-! ## What the inboxes hold -/

inductive Inbox
  | processedEventMessages
  | processedBookingMessages
  | processedNotificationMessages
  deriving DecidableEq

def Consumer.inbox : Consumer → Inbox
  | .reserveSeats | .releaseSeats => .processedEventMessages
  | .handleSeatsReserved | .handleSeatReservationFailed => .processedBookingMessages
  | .handleBookingConfirmed | .handleBookingFailed | .handleBookingCancelled => .processedNotificationMessages

def System.committed (s : System) (messageId : String) : Inbox → Bool
  | .processedEventMessages => decide (messageId ∈ EventBooking.inbox s.event.processed)
  | .processedBookingMessages => decide (messageId ∈ EventBooking.inbox s.booking.processed)
  | .processedNotificationMessages =>
    s.notification.processed.rows.any fun r => decide (Uuid.cast messageId = .ok r.messageId)

/-- The ids an inbox does not tell apart: only the Notification Service's has a `uuid` column. -/
def Inbox.sameId (id id' : String) : Inbox → Prop
  | .processedNotificationMessages => Uuid.cast id = Uuid.cast id'
  | _ => id = id'

theorem empty_committed (id : String) (i : Inbox) : System.empty.committed id i = false := by
  cases i <;> rfl

def thrown {ε α : Type} : Except ε α → Bool
  | .ok _ => false
  | .error _ => true

def System.aborts (s : System) (consumer : Consumer) (message : Message) (draw : Draw) : Bool :=
  match consumer, message.payload with
  | .reserveSeats, .reserveSeats p =>
    thrown (Tx.transact (EventBooking.reserveSeats (message.map fun _ => p) draw) draw.budget s.event).1
  | .releaseSeats, .bookingEventQuantity p =>
    thrown (releaseSeatsCheck (message.map fun _ => p)) ||
      thrown (Tx.transact (EventBooking.releaseSeats (message.map fun _ => p) draw) draw.budget s.event).1
  | .handleSeatsReserved, .bookingEventQuantity p =>
    thrown (Tx.transact (handleSeatsReserved (message.map fun _ => p) draw) draw.budget s.booking).1
  | .handleSeatReservationFailed, .failure p =>
    thrown (Tx.transact (handleSeatReservationFailed (message.map fun _ => p) draw) draw.budget s.booking).1
  | .handleBookingConfirmed, .bookingEventQuantity p =>
    thrown (appendIfUnprocessed (handleBookingConfirmed (message.map fun _ => p) draw) draw.id draw.now draw.budget
      s.notification).1
  | .handleBookingFailed, .failure p =>
    thrown (appendIfUnprocessed (handleBookingFailed (message.map fun _ => p) draw) draw.id draw.now draw.budget
      s.notification).1
  | .handleBookingCancelled, .bookingEventQuantity p =>
    thrown (appendIfUnprocessed (handleBookingCancelled (message.map fun _ => p) draw) draw.id draw.now draw.budget
      s.notification).1
  | _, _ => false

def redundant (s : System) : Label → Bool
  | .deliver consumer message draw => s.aborts consumer message draw || s.committed message.messageId consumer.inbox
  | _ => false

/-! ## What a delivery commits -/

structure EntersInbox (s : System) (message : Message) (consumer : Consumer) (s' : System) : Prop where
  fresh : s.committed message.messageId consumer.inbox = false
  committed : ∀ id i, s'.committed id i = true ↔
    s.committed id i = true ∨ i = consumer.inbox ∧ i.sameId id message.messageId

/-- The inbox row with all effects of the message, or with nothing else where it is rejected for good. -/
inductive Commits (s : System) (message : Message) (draw : Draw) : Consumer → System → Prop
  | settled {consumer : Consumer} {status : BookingStatus} {topic : Topic} {row : BookingRow} {booking : BookingDb}
      (outcome : settlement consumer.topic = some (status, topic))
      (settled : Settled message.messageId message.payload.bookingId message.payload.eventId
        message.payload.quantity status (settlementOutbox topic message draw) draw.now s.booking row booking)
      (announced : s.booking.outbox.insert ((settlementOutbox topic message draw).row draw.now) =
        some booking.outbox) :
      Commits s message draw consumer { s with booking }
  | unsettled {consumer : Consumer} {status : BookingStatus} {topic : Topic} {booking : BookingDb}
      (outcome : settlement consumer.topic = some (status, topic))
      (unsettled : Unsettled message.messageId message.payload.bookingId message.payload.eventId
        message.payload.quantity draw.now s.booking booking) :
      Commits s message draw consumer { s with booking }
  | reserved {p : ReserveSeatsPayload} {row row' : EventRow} {event : EventDb} {publishing : List DirectPublish}
      (payload : message.payload = .reserveSeats p)
      (reserved : Reserved (processReserveSeatsInput (message.map fun _ => p) draw) draw.now s.event row row'
        event) :
      Commits s message draw .reserveSeats
        { s with event, publishing, changes := s.changes ++ [.reserved message.messageId p] }
  | refused {p : ReserveSeatsPayload} {reason : FailureReason} {event : EventDb} {publishing : List DirectPublish}
      (payload : message.payload = .reserveSeats p)
      (refused : Refused (processReserveSeatsInput (message.map fun _ => p) draw) reason draw.sent draw.now
        s.event event) :
      Commits s message draw .reserveSeats { s with event, publishing }
  | invalid {p : ReserveSeatsPayload} {event : EventDb} {publishing : List DirectPublish}
      (payload : message.payload = .reserveSeats p) (quantity : p.quantity ≤ 0)
      (ignored : Ignored message.messageId draw.now s.event event) :
      Commits s message draw .reserveSeats { s with event, publishing }
  | released {p : BookingEventQuantityPayload} {row row' : EventRow} {event : EventDb}
      (payload : message.payload = .bookingEventQuantity p)
      (released : Released ⟨message.messageId, p.eventId, p.quantity⟩ draw.now s.event row row' event) :
      Commits s message draw .releaseSeats { s with event, changes := s.changes ++ [.released message.messageId p] }
  | unreleased {p : BookingEventQuantityPayload} {event : EventDb}
      (payload : message.payload = .bookingEventQuantity p)
      (ignored : Ignored message.messageId draw.now s.event event)
      (no_room : 0 < p.quantity → ∀ row ∈ s.event.events.rows, Uuid.cast p.eventId = .ok row.id →
        row.seats.total < row.seats.available + p.quantity) :
      Commits s message draw .releaseSeats { s with event }
  | notified {consumer : Consumer} {record : NotificationRecord} {row : NotificationRow}
      {notification : NotificationDb} (record_eq : consumer.record message draw = some record)
      (appended : Appended record draw.now s.notification row notification) :
      Commits s message draw consumer { s with notification }

section
variable {s s' : System} {consumer : Consumer} {message : Message} {draw : Draw}

theorem Consumer.record_messageId {record : NotificationRecord} (h : consumer.record message draw = some record) :
    record.messageId = message.messageId := by
  unfold Consumer.record at h
  split at h <;> cases h <;> rfl

theorem Consumer.record_inbox {record : NotificationRecord} (h : consumer.record message draw = some record) :
    consumer.inbox = .processedNotificationMessages := by
  unfold Consumer.record at h
  split at h <;> cases h <;> rfl

theorem settlement_inbox {o : BookingStatus × Topic} (h : settlement consumer.topic = some o) :
    consumer.inbox = .processedBookingMessages := by
  cases consumer <;> first | rfl | cases h

theorem inbox_insert_committed {t t' : Table processedSchema} {messageId : String} {now : Date}
    (h : t.insert ⟨messageId, now⟩ = some t') (id : String) :
    decide (id ∈ inbox t') = (decide (id ∈ inbox t) || decide (id = messageId)) := by
  rw [(inbox_insert h).1]
  simp

section
variable {now : Date}

theorem entersInbox_event (hc : consumer.inbox = .processedEventMessages)
    (hp : s.event.processed.insert ⟨message.messageId, now⟩ = some s'.event.processed) (hb : s'.booking = s.booking)
    (hn : s'.notification = s.notification) : EntersInbox s message consumer s' := by
  constructor
  · rw [hc]; exact decide_eq_false (inbox_insert hp).2
  · intro id i
    rw [hc]
    cases i <;> simp [System.committed, Inbox.sameId, inbox_insert_committed hp, hb, hn]

theorem entersInbox_booking (hc : consumer.inbox = .processedBookingMessages)
    (hp : s.booking.processed.insert ⟨message.messageId, now⟩ = some s'.booking.processed) (he : s'.event = s.event)
    (hn : s'.notification = s.notification) : EntersInbox s message consumer s' := by
  constructor
  · rw [hc]; exact decide_eq_false (inbox_insert hp).2
  · intro id i
    rw [hc]
    cases i <;> simp [System.committed, Inbox.sameId, inbox_insert_committed hp, he, hn]

end

theorem entersInbox_notification {record : NotificationRecord} {row : NotificationRow}
    {notification : NotificationDb} (hr : consumer.record message draw = some record)
    (ha : Appended record draw.now s.notification row notification) :
    EntersInbox s message consumer { s with notification } := by
  have hid := ha.message_id
  rw [Consumer.record_messageId hr] at hid
  constructor
  · have hnew := Table.find_eq_none.mp (Table.find_before_insert ha.processed)
    rw [Consumer.record_inbox hr]
    simp only [System.committed, List.any_eq_false, decide_eq_true_eq, hid, Except.ok.injEq]
    exact fun x hx e => hnew x hx e.symm
  · intro id i
    rw [Consumer.record_inbox hr]
    cases i with
    | processedNotificationMessages =>
      simp [System.committed, Inbox.sameId, Table.insert_rows ha.processed, hid]
    | _ => simp [System.committed]

theorem Commits.entersInbox (h : Commits s message draw consumer s') : EntersInbox s message consumer s' := by
  cases h with
  | settled outcome settled announced =>
    exact entersInbox_booking (settlement_inbox outcome) settled.processed rfl rfl
  | unsettled outcome unsettled => exact entersInbox_booking (settlement_inbox outcome) unsettled.processed rfl rfl
  | reserved payload reserved => exact entersInbox_event rfl reserved.processed rfl rfl
  | refused payload refused => exact entersInbox_event rfl refused.processed rfl rfl
  | invalid payload quantity ignored => exact entersInbox_event rfl ignored.processed rfl rfl
  | released payload released => exact entersInbox_event rfl released.processed rfl rfl
  | unreleased payload ignored => exact entersInbox_event rfl ignored.processed rfl rfl
  | notified record_eq appended => exact entersInbox_notification record_eq appended

/-- The inbox row with the new status and without the news of it. -/
structure Unannounced (s : System) (message : Message) (draw : Draw) (consumer : Consumer) (status : BookingStatus)
    (topic : Topic) (row : BookingRow) (s' : System) : Prop where
  outcome : settlement consumer.topic = some (status, topic)
  settled : Settled message.messageId message.payload.bookingId message.payload.eventId
    message.payload.quantity status (settlementOutbox topic message draw) draw.now s.booking row s'.booking
  outbox : s'.booking.outbox = s.booking.outbox
  event : s'.event = s.event
  notification : s'.notification = s.notification

theorem Unannounced.entersInbox {status : BookingStatus} {topic : Topic} {row : BookingRow}
    (h : Unannounced s message draw consumer status topic row s') : EntersInbox s message consumer s' :=
  entersInbox_booking (settlement_inbox h.outcome) h.settled.processed h.event h.notification

/-! ## Outcomes that spell the event as the column does -/

def Spelled (s : System) : Label → Prop
  | .deliver consumer message _ => ∀ o, settlement consumer.topic = some o → ∀ row ∈ s.booking.bookings.rows,
      Matches message.payload.bookingId (some message.payload.eventId) message.payload.quantity .pending row →
        row.eventId.text = message.payload.eventId
  | _ => True

theorem Settled.spelled_iff {status : BookingStatus} {topic : Topic} {o : OutboxInsert} {now : Date}
    {row : BookingRow} {d' : BookingDb} (ho : settlement consumer.topic = some (status, topic))
    (h : Settled message.messageId message.payload.bookingId message.payload.eventId message.payload.quantity
      status o now s.booking row d') :
    Spelled s (.deliver consumer message draw) ↔ row.eventId.text = message.payload.eventId := by
  constructor
  · intro hs; exact hs _ ho row h.bookings.mem h.pending
  · intro ht o _ x hx hm
    have : x = row := Table.key_inj hx h.bookings.mem (Except.ok.inj (hm.id.symm.trans h.pending.id))
    rw [this]; exact ht

theorem spelled_of_none (h : settlement consumer.topic = none) : Spelled s (.deliver consumer message draw) := by
  intro o ho
  rw [h] at ho; cases ho

theorem Commits.spelled (h : Commits s message draw consumer s') : Spelled s (.deliver consumer message draw) := by
  cases h with
  | settled outcome settled announced =>
    refine (settled.spelled_iff outcome).mpr ?_
    by_contra ht
    have hout := settled.outbox
    rw [if_neg ht] at hout
    exact Table.insert_ne announced hout
  | unsettled outcome unsettled => exact fun o _ row hrow hm => absurd hm (unsettled.no_pending row hrow)
  | notified record_eq appended =>
    refine spelled_of_none ?_
    have := Consumer.record_inbox record_eq
    cases consumer <;> first | rfl | cases this
  | reserved | refused | invalid | released | unreleased => exact spelled_of_none rfl

section
variable {status : BookingStatus} {topic : Topic} {row : BookingRow}
  (h : Unannounced s message draw consumer status topic row s')
include h

theorem Unannounced.not_spelled : ¬ Spelled s (.deliver consumer message draw) := by
  rw [h.settled.spelled_iff h.outcome]
  intro ht
  have hout := h.settled.outbox
  rw [if_pos ht, h.outbox] at hout
  exact Table.insert_ne hout rfl

theorem Unannounced.not_commits : ¬ Commits s message draw consumer s' := fun hc => h.not_spelled hc.spelled

end

theorem deliver_aborts (ha : s.aborts consumer message draw = true)
    (h : s.deliver consumer message draw = some s') :
    s' = s := by
  have htx : ∀ {δ α : Type} {t : Tx δ α} {budget : Option Nat} {d : δ}, thrown (Tx.transact t budget d).1 = true →
      (∃ e, (Tx.transact t budget d).1 = .error e) ∧ (Tx.transact t budget d).2 = d := by
    intro δ α t budget d hf
    cases hr : Tx.transact t budget d with
    | mk r d' =>
      rw [hr] at hf
      cases r with
      | ok a => cases hf
      | error e => exact ⟨⟨e, rfl⟩, Tx.transact_error hr⟩
  have hnote : ∀ {record : NotificationRecord}, thrown (appendIfUnprocessed record draw.id draw.now draw.budget
      s.notification).1 = true → s.notify record draw = s := by
    intro record hf
    unfold System.notify
    cases hr : appendIfUnprocessed record draw.id draw.now draw.budget s.notification with
    | mk r d' =>
      rw [hr] at hf
      rcases appendIfUnprocessed_cases hr with hc | hc
      · rw [hc.1]
      · obtain ⟨_, rfl, _⟩ := hc; cases hf
  unfold System.aborts at ha
  unfold System.deliver at h
  split at h <;> rename_i hp <;> simp only [hp] at ha
  · obtain rfl := Option.some.inj h
    obtain ⟨⟨e, he⟩, hd⟩ := htx ha
    unfold System.reserveSeats
    rw [← Prod.mk.eta (p := Tx.transact _ _ _), he, hd]
  · obtain rfl := Option.some.inj h
    unfold System.releaseSeats
    rcases Bool.or_eq_true_iff.mp ha with hf | hf
    · rcases releaseSeatsCheck_cases (message.map fun _ => _) with ⟨_, hcheck⟩ | ⟨_, hcheck⟩
      · rw [hcheck] at hf; cases hf
      · rw [hcheck]
    · obtain ⟨⟨e, he⟩, hd⟩ := htx hf
      rw [← Prod.mk.eta (p := Tx.transact _ _ _), he, hd]
      split <;> rfl
  · obtain rfl := Option.some.inj h
    unfold System.settle; rw [(htx ha).2]
  · obtain rfl := Option.some.inj h
    unfold System.settle; rw [(htx ha).2]
  · obtain rfl := Option.some.inj h; exact hnote ha
  · obtain rfl := Option.some.inj h; exact hnote ha
  · obtain rfl := Option.some.inj h; exact hnote ha
  · cases h

variable [Zod] {deliverable : System → Topic → Message → Bool}

/-- A delivery changes nothing, or commits the message, or all of it but the news. -/
theorem step_commits (hs : Step deliverable s (.deliver consumer message draw) s') :
    s' = s ∨ Commits s message draw consumer s' ∨
      ∃ status topic row, Unannounced s message draw consumer status topic row s' := by
  cases hs with
  | idle => exact Or.inl rfl
  | settle outcome delivered settled =>
    have hout := settled.outbox
    split at hout
    · exact Or.inr (Or.inl (.settled outcome settled hout))
    · exact Or.inr (Or.inr ⟨_, _, _, outcome, settled, hout, rfl, rfl⟩)
  | unsettled outcome delivered unsettled => exact Or.inr (Or.inl (.unsettled outcome unsettled))
  | reserve delivered payload reserved => exact Or.inr (Or.inl (.reserved payload reserved))
  | refuse delivered payload refused => exact Or.inr (Or.inl (.refused payload refused))
  | invalid delivered payload quantity ignored => exact Or.inr (Or.inl (.invalid payload quantity ignored))
  | release delivered payload released => exact Or.inr (Or.inl (.released payload released))
  | unreleased delivered payload ignored no_room => exact Or.inr (Or.inl (.unreleased payload ignored no_room))
  | notify delivered record_eq appended => exact Or.inr (Or.inl (.notified record_eq appended))

theorem step_commits_iff (hs : Step deliverable s (.deliver consumer message draw) s') (hne : s' ≠ s) :
    EntersInbox s message consumer s' ∧
      (Commits s message draw consumer s' ↔ Spelled s (.deliver consumer message draw)) := by
  rcases step_commits hs with h | h | h
  · exact absurd h hne
  · exact ⟨h.entersInbox, iff_of_true h h.spelled⟩
  · obtain ⟨status, topic, row, h⟩ := h
    exact ⟨h.entersInbox, iff_of_false h.not_commits h.not_spelled⟩

theorem step_committed {l : Label} (hs : Step deliverable s l s')
    (hl : ∀ consumer message draw, l ≠ .deliver consumer message draw) (id : String) (i : Inbox) :
    s'.committed id i = s.committed id i := by
  have hsame : ∀ {s' : System}, s'.event.processed = s.event.processed →
      s'.booking.processed = s.booking.processed →
      s'.notification.processed = s.notification.processed → s'.committed id i = s.committed id i := by
    intro s' h1 h2 h3
    cases i <;> simp only [System.committed, h1, h2, h3]
  cases hs with
  | idle => rfl
  | book schema created => exact hsame rfl created.processed rfl
  | cancel reading cancelled => exact hsame rfl cancelled.processed rfl
  | create created => exact hsame created.processed rfl rfl
  | rebase rebased => exact hsame rebased.processed rfl rfl
  | delete deleted => exact hsame deleted.processed rfl rfl
  | bookkeep service op => cases service <;> exact hsame rfl rfl rfl
  | read | publishDirect | dispatch => exact hsame rfl rfl rfl
  | settle | unsettled | reserve | refuse | invalid | release | unreleased | notify =>
    exact absurd rfl (hl _ _ _)

theorem redundant_idle {l : Label} (hl : redundant s l = true) (h : (services deliverable).exec s l = some s') :
    s' = s := by
  cases l with
  | deliver consumer message draw =>
    unfold redundant at hl
    rcases Bool.or_eq_true_iff.mp hl with ha | hc
    · exact deliver_aborts ha (Option.ite_none_right_eq_some.mp h).2
    · by_contra hne
      rw [(step_commits_iff (exec_step h) hne).1.fresh] at hc; cases hc
  | _ => cases hl

/-- The news that a booking has its answer names the event as the request did. -/
theorem spelled_of_canonical {l : Label} (h : closed.ReachBy CanonicalRequest s) (he : closed.exec s l = some s') :
    Spelled s l := by
  cases l with
  | deliver consumer message draw =>
    rintro ⟨status, topic⟩ ho row hrow hm
    have hi := inv_closed h.reach
    obtain ⟨hd, _⟩ := Option.ite_none_right_eq_some.mp he
    obtain ⟨m, r, b, _, _, _, hpay, hans, hb, hreq⟩ := hi.outcome hd (settlement_topic ho).1
    have hbooking : Uuid.cast message.payload.bookingId = .ok b.id := by
      rw [← hpay, hans.bookingId, hreq.names.bookingId]; exact Uuid.cast_text _
    have hbr : row = b := Table.key_inj hrow hb (Except.ok.inj (hm.id.symm.trans hbooking))
    subst hbr
    rw [← hpay, hans.eventId]
    exact (isCanonical_iff hreq.names.eventId).mp (requests_canonical h r hreq.mem hreq.topic)
  | _ => trivial

/-- A run without its aborted and repeated deliveries leaves the same state.
Each inbox row was committed by one delivery of its message: with all that the
message did or its rejection, exactly when the message spelled the event as the
column does, which all do where the requests name events in canonical text. -/
theorem redelivery_insensitive {ls : List Label} (h : (services deliverable).run System.empty ls = some s) :
    (services deliverable).run System.empty ((services deliverable).prune redundant System.empty ls) = some s ∧
    (∀ a consumer message draw b, (services deliverable).Passes System.empty ls s a
      (.deliver consumer message draw) b → b ≠ a → EntersInbox a message consumer b ∧
        (Commits a message draw consumer b ↔ Spelled a (.deliver consumer message draw))) ∧
    (∀ id i, s.committed id i = true → ∃ a consumer message draw b,
      (services deliverable).Passes System.empty ls s a (.deliver consumer message draw) b ∧
      a.committed id i = false ∧ b ≠ a ∧ i = consumer.inbox ∧ i.sameId id message.messageId ∧
      ((services deliverable).Meets Spelled System.empty ls → Commits a message draw consumer b)) ∧
    ∀ a l b, closed.ReachBy CanonicalRequest a → closed.exec a l = some b → Spelled a l := by
  refine ⟨Machine.run_prune (fun s l s' => redundant_idle) h, fun a consumer message draw b hp hne => ?_,
    fun id i hc => ?_, fun a l b ha he => spelled_of_canonical ha he⟩
  · exact step_commits_iff (exec_step hp.exec) hne
  · have h0 : ¬ System.empty.committed id i = true := by rw [empty_committed]; exact Bool.false_ne_true
    obtain ⟨a, l, b, hp, ha, hb⟩ := Machine.run_turns (P := fun s => s.committed id i = true) h h0 hc
    have hne : b ≠ a := fun e => ha (e ▸ hb)
    by_cases hl : ∃ consumer message draw, l = .deliver consumer message draw
    · obtain ⟨consumer, message, draw, rfl⟩ := hl
      obtain ⟨henters, hcommits⟩ := step_commits_iff (exec_step hp.exec) hne
      obtain ⟨hi, hid⟩ := ((henters.committed id i).mp hb).resolve_left ha
      exact ⟨a, consumer, message, draw, b, hp, Bool.eq_false_iff.mpr ha, hne, hi, hid,
        fun hm => hcommits.mpr (hp.reach (.start rfl) hm).2⟩
    · have := step_committed (exec_step hp.exec) (fun c m d e => hl ⟨c, m, d, e⟩) id i
      rw [this] at hb; exact absurd hb ha

end

/-! ## A sample run -/

def sampleRedelivery : List Label :=
  sampleReservation ++
    [.deliver .reserveSeats (sampleRequest.map .reserveSeats) (sampleDraw 0 12 13 14 15),
     .deliver .handleSeatsReserved sampleReserved { sampleDraw 0 5 6 0 0 with budget := some 1 },
     .deliver .handleSeatsReserved sampleReserved (sampleDraw 0 5 6 0 0),
     .deliver .handleSeatsReserved sampleReserved (sampleDraw 0 12 13 0 0)]

theorem redelivery_insensitive_sample : ∃ s, (@closed zod4).run System.empty sampleRedelivery = some s ∧
    (@closed zod4).run System.empty sampleConfirmation = some s := by
  have h : ((@closed zod4).run System.empty sampleRedelivery).isSome = true := by decide +kernel
  have hp : (@closed zod4).prune redundant System.empty sampleRedelivery = sampleConfirmation := by decide +kernel
  obtain ⟨s, hs⟩ := Option.isSome_iff_exists.mp h
  exact ⟨s, hs, hp ▸ (@redelivery_insensitive s zod4 _ sampleRedelivery hs).1⟩

def bookingsView (s : System) : Bool × Nat × List BookingStatus :=
  (s.committed capitalReserved.messageId .processedBookingMessages, s.booking.outbox.rows.length,
    s.booking.bookings.rows.map (·.status))

/-- The row of the outcome is committed with the status of the booking and no news. -/
theorem recorded_without_news : ∃ a b, (@closed zod4).run System.empty capitalRun.dropLast = some a ∧
    (@closed zod4).exec a (.deliver .handleSeatsReserved capitalReserved (sampleDraw 0 5 6 0 0)) = some b ∧
    a.committed capitalReserved.messageId .processedBookingMessages = false ∧
    b.committed capitalReserved.messageId .processedBookingMessages = true ∧
    ¬ Commits a capitalReserved (sampleDraw 0 5 6 0 0) .handleSeatsReserved b := by
  have h : ((@closed zod4).run System.empty capitalRun.dropLast).map bookingsView =
      some (false, 1, [.pending]) := by
    decide +kernel
  have h' : ((@closed zod4).run System.empty capitalRun).map bookingsView = some (true, 1, [.confirmed]) := by
    decide +kernel
  obtain ⟨a, ha, hview⟩ := Option.map_eq_some_iff.mp h
  obtain ⟨b, hb, hview'⟩ := Option.map_eq_some_iff.mp h'
  have hstatus : a.booking.bookings.rows.map (·.status) = [.pending] := congrArg (·.2.2) hview
  have hlength : a.booking.outbox.rows.length = 1 := congrArg (·.2.1) hview
  have hstatus' : b.booking.bookings.rows.map (·.status) = [.confirmed] := congrArg (·.2.2) hview'
  have hlength' : b.booking.outbox.rows.length = 1 := congrArg (·.2.1) hview'
  have hexec : (@closed zod4).exec a
      (.deliver .handleSeatsReserved capitalReserved (sampleDraw 0 5 6 0 0)) = some b := by
    have hsplit : capitalRun = capitalRun.dropLast ++
        [.deliver .handleSeatsReserved capitalReserved (sampleDraw 0 5 6 0 0)] := rfl
    rw [hsplit, Machine.run_append, ha] at hb
    obtain ⟨m, hm, hnil⟩ := Machine.run_cons_some.mp hb
    rw [hm]; exact hnil
  refine ⟨a, b, ha, hexec, congrArg Prod.fst hview, congrArg Prod.fst hview', fun hc => ?_⟩
  cases hc with
  | settled outcome settled announced =>
    have hrows := congrArg List.length (Table.insert_rows announced)
    rw [List.length_append, hlength, List.length_singleton] at hrows
    exact absurd (hlength'.symm.trans hrows) (by decide)
  | unsettled outcome unsettled =>
    simp only [unsettled.bookings] at hstatus'
    exact absurd (hstatus.symm.trans hstatus') (by decide)
  | notified record_eq appended => exact absurd (Consumer.record_inbox record_eq) (by decide)

end EventBooking
