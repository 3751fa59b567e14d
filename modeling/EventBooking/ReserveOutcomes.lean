import EventBooking.SeatLedger

/-!
# The outcome of a reservation

The outcome of a RESERVE_SEATS message is built twice: by the handler, which
publishes it itself, and inside the transaction, which stores it for the
dispatchers. Both are the same message up to the timestamp, whatever fails and
whoever publishes, and there is one outcome for a request.
-/

namespace EventBooking
open Lib

structure ReserveOutcome where
  request : MessageEnvelope ReserveSeatsPayload
  direct : DirectPublish
  before : EventDb
  after : EventDb

def reserveOutcome (s : System) (l : Label) (s' : System) : Option ReserveOutcome :=
  match l with
  | .deliver .reserveSeats message _ =>
    match message.payload, s'.publishing.drop s.publishing.length with
    | .reserveSeats p, direct :: _ => some ⟨message.map fun _ => p, direct, s.event, s'.event⟩
    | _, _ => none
  | _ => none

namespace ReserveOutcome

def Found (o : ReserveOutcome) : Prop :=
  ∃ row ∈ o.before.events.rows, Uuid.cast o.request.payload.eventId = .ok row.id

def Lowered (o : ReserveOutcome) : Prop :=
  ∃ row row', Uuid.cast o.request.payload.eventId = .ok row.id ∧ o.before.events.Replaced row row' o.after.events ∧
    row'.seats.available = row.seats.available - o.request.payload.quantity ∧ row'.seats.total = row.seats.total

def stored (o : ReserveOutcome) : Option StoredMessage := (contents o.after.outbox).getLast?

/-- The handler's message and the stored one agree, and say what the transaction did. -/
structure Agrees (o : ReserveOutcome) (m : StoredMessage) : Prop where
  committed : contents o.after.outbox = contents o.before.outbox ++ [m]
  topic : o.direct.topic = m.topic
  message : { o.direct.message with timestamp := m.message.timestamp } = m.message
  messageId : m.messageId = m.message.messageId
  correlationId : m.message.correlationId = o.request.correlationId
  version : m.message.version = 1
  reserved_iff : m.topic = .seatsReserved ↔ o.Lowered
  reserved : m.topic = .seatsReserved → m.message.payload =
    .bookingEventQuantity ⟨o.request.payload.bookingId, o.request.payload.eventId, o.request.payload.quantity⟩
  failed : m.topic ≠ .seatsReserved → m.topic = .seatReservationFailed ∧ ∃ reason,
    m.message.payload = .failure ⟨o.request.payload.bookingId, o.request.payload.eventId, reason⟩ ∧
    (reason = .eventNotFound ↔ ¬ o.Found) ∧ (reason = .insufficientSeats ↔ o.Found)

theorem Agrees.stored_eq {o : ReserveOutcome} {m : StoredMessage} (h : o.Agrees m) : o.stored = some m := by
  unfold stored
  rw [h.committed, List.getLast?_concat]

theorem not_lowered {o : ReserveOutcome} (hq : 0 < o.request.payload.quantity)
    (he : o.after.events = o.before.events) :
    ¬ o.Lowered := by
  intro h
  obtain ⟨row, row', _, hrep, hava, _⟩ := h
  rw [he] at hrep
  have hmem : row' ∈ o.before.events.rows := hrep.mem_iff.mpr (.inl rfl)
  have hsame : row' = row := Table.key_inj hmem hrep.mem hrep.key
  rw [hsame] at hava
  omega

end ReserveOutcome

/-! ## One delivery -/

section
variable {message : MessageEnvelope ReserveSeatsPayload} {draw : Draw} {d d' : EventDb}

theorem reserved_agrees {row row' : EventRow}
    (h : Reserved (processReserveSeatsInput message draw) draw.now d row row' d') :
    (ReserveOutcome.mk message
      ⟨.seatsReserved, (successMessage message draw).map .bookingEventQuantity, some draw.rowId⟩ d d').Agrees
      (outboxInsert draw.rowId .seatsReserved
        ((successMessage message draw).map .bookingEventQuantity)).stored where
  committed := (outbox_insert h.outbox).1
  topic := rfl
  message := rfl
  messageId := rfl
  correlationId := rfl
  version := rfl
  reserved_iff := iff_of_true rfl ⟨row, row', h.row_id, h.events, h.available, h.total⟩
  reserved _ := rfl
  failed hne := absurd rfl hne

theorem refused_agrees {reason : FailureReason}
    (h : Refused (processReserveSeatsInput message draw) reason draw.sent draw.now d d') :
    ∃ m, (ReserveOutcome.mk message
      ⟨.seatReservationFailed, (failedMessage message reason draw).map .failure,
          some draw.otherRowId⟩ d d').Agrees m := by
  refine ⟨_, ⟨(outbox_insert h.outbox).1, rfl, rfl, rfl, rfl, rfl, iff_of_false (fun e => ?_) ?_, fun e => ?_,
    fun _ => ⟨rfl, reason, rfl, ?_, h.found⟩⟩⟩
  · cases e
  · exact ReserveOutcome.not_lowered h.quantity h.events
  · cases e
  · refine Iff.trans ?_ (not_congr h.found)
    cases reason with
    | insufficientSeats => exact iff_of_false (fun e => by cases e) fun hn => hn rfl
    | eventNotFound => exact iff_of_true rfl fun e => by cases e

end

/-! ## Runs -/

def Unserved (s : System) : Prop := ∃ events, s = { System.empty with event := { EventDb.empty with events } }

/-- The services from any table of events; anything the schemas accept may arrive. -/
def reserving [Zod] : Machine System Label where
  start := Unserved
  exec := System.exec fun _ topic message => messageEnvelopeSchema topic message

def isOutcome (topic : Topic) : Bool := decide (topic = .seatsReserved) || decide (topic = .seatReservationFailed)

/-- The log of outcomes accounts for all that the handlers publish, all that the outbox stores and
all that was published. -/
structure Accounted (s : System) (log : List ReserveOutcome) : Prop where
  once : (log.map (·.request.messageId)).Nodup
  seen : ∀ o ∈ log, o.request.messageId ∈ inbox s.event.processed
  direct : s.publishing = log.map (·.direct)
  stored : (contents s.event.outbox).map some = log.map ReserveOutcome.stored
  agrees : ∀ o ∈ log, ∃ m, o.Agrees m
  published : ∀ topic message, (topic, message) ∈ s.published → isOutcome topic = true → ∃ o ∈ log,
    (topic = o.direct.topic ∧ message = o.direct.message) ∨ ∃ m, o.stored = some m ∧ topic = m.topic ∧
      message = m.message
  bookings : ∀ m ∈ contents s.booking.outbox, isOutcome m.topic = false

theorem accounted_start {s : System} (h : Unserved s) : Accounted s [] := by
  obtain ⟨events, rfl⟩ := h
  refine ⟨List.nodup_nil, fun o ho => (by cases ho), rfl, rfl, fun o ho => (by cases ho),
    fun t m hm => (by cases hm), fun m hm => (by cases hm)⟩

section
variable {s s' : System} {log : List ReserveOutcome}

theorem reserveOutcome_none {l : Label} (h : s'.publishing = s.publishing) : reserveOutcome s l s' = none := by
  unfold reserveOutcome
  split
  · rw [h, List.drop_length]
    split
    · rename_i hd; cases hd
    · rfl
  · rfl

theorem Accounted.keep (h : Accounted s log) {l : Label} (hp : s'.publishing = s.publishing)
    (hi : ∀ id ∈ inbox s.event.processed, id ∈ inbox s'.event.processed)
    (ho : contents s'.event.outbox = contents s.event.outbox)
    (hb : ∀ m ∈ contents s'.booking.outbox, isOutcome m.topic = false)
    (hpub : ∀ topic message, (topic, message) ∈ s'.published → isOutcome topic = true → ∃ o ∈ log,
      (topic = o.direct.topic ∧ message = o.direct.message) ∨
        ∃ m, o.stored = some m ∧ topic = m.topic ∧ message = m.message) :
    Accounted s' (log ++ (reserveOutcome s l s').toList) := by
  rw [reserveOutcome_none hp, Option.toList_none, List.append_nil]
  exact ⟨h.once, fun o hm => hi _ (h.seen o hm), hp.trans h.direct, ho ▸ h.stored, h.agrees, hpub, hb⟩

theorem Accounted.answer (h : Accounted s log) {message : Message} {p : ReserveSeatsPayload} {draw : Draw}
    {direct : DirectPublish} (hpayload : message.payload = .reserveSeats p) {event : EventDb}
    (hs' : s'.publishing = s.publishing ++ [direct] ∧ s'.event = event ∧ s'.booking = s.booking ∧
      s'.published = s.published)
    (hi : s.event.processed.insert ⟨message.messageId, draw.now⟩ = some event.processed)
    {m : StoredMessage} (ha : (ReserveOutcome.mk (message.map fun _ => p) direct s.event event).Agrees m) :
    Accounted s' (log ++ (reserveOutcome s (.deliver .reserveSeats message draw) s').toList) := by
  obtain ⟨hpub, rfl, hbook, hpublished⟩ := hs'
  have ho : reserveOutcome s (.deliver .reserveSeats message draw) s' =
      some ⟨message.map fun _ => p, direct, s.event, s'.event⟩ := by
    unfold reserveOutcome
    rw [hpub, List.drop_left]
    simp only [hpayload]
  obtain ⟨hinbox, hnew⟩ := inbox_insert hi
  rw [ho, Option.toList_some]
  refine ⟨?_, fun o hm => ?_, ?_, ?_, fun o hm => ?_, fun t msg hm ht => ?_, ?_⟩
  · rw [List.map_append, List.nodup_append]
    refine ⟨h.once, List.nodup_singleton _, fun a hmem b hb => ?_⟩
    obtain ⟨o, hlog, rfl⟩ := List.mem_map.mp hmem
    rw [List.map_singleton, List.mem_singleton] at hb
    rintro rfl
    exact hnew (hb ▸ h.seen o hlog)
  · rw [hinbox, List.mem_append]
    rcases List.mem_append.mp hm with hm | hm
    · exact .inl (h.seen o hm)
    · rw [List.mem_singleton.mp hm]; exact .inr (List.mem_singleton_self _)
  · rw [hpub, h.direct, List.map_append]; rfl
  · rw [ha.committed, List.map_append, List.map_append, h.stored, List.map_singleton, List.map_singleton,
      ha.stored_eq]
  · rcases List.mem_append.mp hm with hm | hm
    · exact h.agrees o hm
    · rw [List.mem_singleton.mp hm]; exact ⟨m, ha⟩
  · rw [hpublished] at hm
    obtain ⟨o, hlog, hcase⟩ := h.published t msg hm ht
    exact ⟨o, List.mem_append_left _ hlog, hcase⟩
  · rw [hbook]; exact h.bookings

theorem bookings_append {t t' : OutboxTable} {o : OutboxInsert} {now : Date} (h : t.insert (o.row now) = some t')
    (hb : ∀ m ∈ contents t, isOutcome m.topic = false) (ho : isOutcome o.topic = false) :
    ∀ m ∈ contents t', isOutcome m.topic = false := by
  intro m hm
  rw [(outbox_insert h).1, List.mem_append] at hm
  rcases hm with hm | hm
  · exact hb m hm
  · rw [List.mem_singleton.mp hm]; exact ho

theorem contents_bookkeep (s : System) (op : Bookkeeping) (service service' : Service) :
    contents ((s.bookkeep op service).outbox service') = contents (s.outbox service') := by
  cases service with
  | booking =>
    cases service' with
    | booking => exact contents_apply s.booking.outbox op
    | event => rfl
  | event =>
    cases service' with
    | booking => rfl
    | event => exact contents_apply s.event.outbox op

section
variable [Zod]

theorem accounted_step {l : Label} (h : Accounted s log)
    (hs : Step (fun _ topic message => messageEnvelopeSchema topic message) s l s') :
    Accounted s' (log ++ (reserveOutcome s l s').toList) := by
  have hsame : ∀ id ∈ inbox s.event.processed, id ∈ inbox s.event.processed := fun _ hid => hid
  cases hs with
  | idle => exact h.keep rfl hsame rfl h.bookings h.published
  | book schema created =>
    exact h.keep rfl hsame rfl (bookings_append created.outbox h.bookings rfl) h.published
  | read => exact h.keep rfl hsame rfl h.bookings h.published
  | cancel reading cancelled =>
    exact h.keep rfl hsame rfl (bookings_append cancelled.outbox h.bookings rfl) h.published
  | @settle consumer status topic message draw row booking outcome delivered settled =>
    refine h.keep rfl hsame rfl ?_ h.published
    have hnews : isOutcome topic = false := by
      unfold settlement at outcome
      split at outcome
      · cases outcome; rfl
      · cases outcome; rfl
      · cases outcome
    have ho := settled.outbox
    split at ho
    · exact bookings_append ho h.bookings hnews
    · show ∀ m ∈ contents booking.outbox, _
      rw [ho]; exact h.bookings
  | @unsettled consumer status topic message draw booking outcome delivered unsettled =>
    refine h.keep rfl hsame rfl ?_ h.published
    show ∀ m ∈ contents booking.outbox, _
    rw [unsettled.outbox]; exact h.bookings
  | reserve delivered payload reserved =>
    exact h.answer payload ⟨rfl, rfl, rfl, rfl⟩ reserved.processed (reserved_agrees reserved)
  | refuse delivered payload refused =>
    obtain ⟨m, ha⟩ := refused_agrees refused
    exact h.answer payload ⟨rfl, rfl, rfl, rfl⟩ refused.processed ha
  | @invalid message p draw event delivered payload quantity ignored =>
    have hmessage : (message.map fun _ => p).map .reserveSeats = message := by
      cases message
      cases payload; rfl
    obtain ⟨_, hpos⟩ := reserveSchema_parts (hmessage.symm ▸ delivered)
    exact absurd quantity (Int.not_le.mpr hpos)
  | @release message p draw row row' event delivered payload released =>
    refine h.keep rfl (fun id hid => ?_) ?_ h.bookings h.published
    · rw [(inbox_insert released.processed).1]; exact List.mem_append_left _ hid
    · exact congrArg contents released.outbox
  | @unreleased message p draw event delivered payload ignored no_room =>
    refine h.keep rfl (fun id hid => ?_) ?_ h.bookings h.published
    · rw [(inbox_insert ignored.processed).1]; exact List.mem_append_left _ hid
    · exact congrArg contents ignored.outbox
  | create created =>
    exact h.keep rfl (fun id hid => created.processed ▸ hid) (congrArg contents created.outbox) h.bookings
      h.published
  | rebase rebased =>
    exact h.keep rfl (fun id hid => rebased.processed ▸ hid) (congrArg contents rebased.outbox) h.bookings
      h.published
  | delete deleted =>
    exact h.keep rfl (fun id hid => deleted.processed ▸ hid) (congrArg contents deleted.outbox) h.bookings
      h.published
  | notify => exact h.keep rfl hsame rfl h.bookings h.published
  | @publishDirect publish mem =>
    refine h.keep rfl hsame rfl h.bookings fun topic message hm ht => ?_
    rcases List.mem_append.mp hm with hm | hm
    · exact h.published topic message hm ht
    · obtain ⟨rfl, rfl⟩ := Prod.mk.inj (List.mem_singleton.mp hm)
      rw [h.direct] at mem
      obtain ⟨o, ho, rfl⟩ := List.mem_map.mp mem
      exact ⟨o, ho, .inl ⟨rfl, rfl⟩⟩
  | @dispatch service topic message row mem row_topic row_message =>
    refine h.keep rfl hsame rfl h.bookings fun t m hm ht => ?_
    rcases List.mem_append.mp hm with hm | hm
    · exact h.published t m hm ht
    · obtain ⟨rfl, rfl⟩ := Prod.mk.inj (List.mem_singleton.mp hm)
      have hrow : row.content ∈ contents (s.outbox service) := List.mem_map_of_mem mem
      cases service with
      | booking =>
        have hno := h.bookings _ hrow
        rw [show row.content.topic = row.topic from rfl, row_topic] at hno
        rw [hno] at ht; cases ht
      | event =>
        have hsome : some row.content ∈ log.map ReserveOutcome.stored := h.stored ▸ List.mem_map_of_mem hrow
        obtain ⟨o, ho, hstored⟩ := List.mem_map.mp hsome
        exact ⟨o, ho, .inr ⟨row.content, hstored, row_topic.symm, row_message.symm⟩⟩
  | bookkeep service op =>
    refine h.keep ?_ (fun id hid => ?_) (contents_bookkeep s op service .event) ?_ ?_
    · cases service <;> rfl
    · cases service <;> exact hid
    · show ∀ m ∈ contents ((s.bookkeep op service).outbox .booking), _
      rw [contents_bookkeep]; exact h.bookings
    · intro t m hm ht
      refine h.published t m ?_ ht
      cases service <;> exact hm

/-- From any table of events and in every run: a request has at most one outcome; the
message its handler publishes and the stored one agree up to the timestamp and say what
the transaction did; and a message on the outcome topics was only ever published as one
of the two, of a row that is stored. -/
theorem reserve_outcomes_agree {s₀ s : System} {ls : List Label} (h₀ : Unserved s₀)
    (hr : reserving.run s₀ ls = some s) :
    ((reserving.trace reserveOutcome s₀ ls).map (·.request.messageId)).Nodup ∧
    (∀ o ∈ reserving.trace reserveOutcome s₀ ls, ∃ m, o.Agrees m ∧ o.stored = some m ∧
      m ∈ contents s.event.outbox) ∧
    s.publishing = (reserving.trace reserveOutcome s₀ ls).map (·.direct) ∧
    (contents s.event.outbox).map some = (reserving.trace reserveOutcome s₀ ls).map ReserveOutcome.stored ∧
    ((contents s.event.outbox).map (·.messageId)).Nodup ∧
    ∀ topic message, (topic, message) ∈ s.published → topic = .seatsReserved ∨ topic = .seatReservationFailed →
      ∃ o ∈ reserving.trace reserveOutcome s₀ ls, ∃ m ∈ contents s.event.outbox, o.Agrees m ∧
        ((topic = o.direct.topic ∧ message = o.direct.message) ∨ (topic = m.topic ∧ message = m.message)) ∧
        topic = m.topic ∧ message.messageId = m.messageId ∧ message.correlationId = m.message.correlationId ∧
        message.version = m.message.version ∧ message.payload = m.message.payload := by
  have ha : Accounted s (reserving.trace reserveOutcome s₀ ls) := by
    have := Machine.run_traced (I := Accounted) (C := fun _ _ => True)
      (fun s l s' log _ _ he hi => accounted_step hi (exec_step he)) (.start h₀)
      (Machine.meets_of_forall (fun _ _ _ => trivial) s₀) hr (accounted_start h₀)
    rwa [List.nil_append] at this
  have hstored : ∀ o ∈ reserving.trace reserveOutcome s₀ ls, ∀ m, o.Agrees m → m ∈ contents s.event.outbox := by
    intro o ho m hm
    have hsome : o.stored ∈ (contents s.event.outbox).map some := ha.stored ▸ List.mem_map_of_mem ho
    rw [hm.stored_eq] at hsome
    obtain ⟨m', hm', he⟩ := List.mem_map.mp hsome
    exact Option.some.inj he ▸ hm'
  refine ⟨ha.once, fun o ho => ?_, ha.direct, ha.stored, contents_messageId_nodup _, fun topic message hm ht => ?_⟩
  · obtain ⟨m, hm⟩ := ha.agrees o ho
    exact ⟨m, hm, hm.stored_eq, hstored o ho m hm⟩
  · have htopic : isOutcome topic = true := by
      unfold isOutcome
      rcases ht with rfl | rfl
      · rfl
      · rfl
    obtain ⟨o, ho, hcase⟩ := ha.published topic message hm htopic
    obtain ⟨m, hagrees⟩ := ha.agrees o ho
    refine ⟨o, ho, m, hstored o ho m hagrees, hagrees, ?_⟩
    rcases hcase with ⟨rfl, rfl⟩ | ⟨m', hm', rfl, rfl⟩
    · have hmessage := hagrees.message
      refine ⟨.inl ⟨rfl, rfl⟩, hagrees.topic, ?_, ?_, ?_, ?_⟩
      · rw [hagrees.messageId, ← hmessage]
      · rw [← hmessage]
      · rw [← hmessage]
      · rw [← hmessage]
    · rw [hagrees.stored_eq] at hm'
      obtain rfl := Option.some.inj hm'
      exact ⟨.inr ⟨rfl, rfl⟩, rfl, hagrees.messageId.symm, rfl, rfl, rfl⟩

end

end

/-! ## A sample run -/

def threeReserved : Message :=
  (successMessage (reserveThree.map fun _ => ⟨sampleText 6, sampleText 1, sampleText 7, 3⟩)
    (sampleDraw 0 8 9 10 11)).map .bookingEventQuantity

def reservedTwice : List Label :=
  sampleTraffic ++
    [.dispatch .event .seatsReserved threeReserved, .deliver .reserveSeats reserveThree (sampleDraw 0 12 13 14 15),
      .publishDirect ⟨.seatsReserved, threeReserved, some (sample 8)⟩]

theorem unserved_empty : Unserved System.empty := ⟨.empty, rfl⟩

theorem reserved_twice_published_alike : ∃ s, (@reserving zod4).run System.empty reservedTwice = some s ∧
    s.published = [(.seatsReserved, threeReserved), (.seatsReserved, threeReserved)] ∧
    ∃ o ∈ (@reserving zod4).trace reserveOutcome System.empty reservedTwice, ∃ m, o.Agrees m := by
  have h : ((@reserving zod4).run System.empty reservedTwice).map (·.published) =
      some [(.seatsReserved, threeReserved), (.seatsReserved, threeReserved)] := by
    decide +kernel
  obtain ⟨s, hs, hview⟩ := Option.map_eq_some_iff.mp h
  obtain ⟨_, _, _, _, _, hpublished⟩ := @reserve_outcomes_agree zod4 System.empty s reservedTwice unserved_empty hs
  have hmem : (Topic.seatsReserved, threeReserved) ∈ s.published := by rw [hview]; exact List.mem_cons_self
  obtain ⟨o, ho, m, _, hagrees, _⟩ := hpublished .seatsReserved threeReserved hmem (.inl rfl)
  exact ⟨s, hs, hview, o, ho, m, hagrees⟩

end EventBooking
