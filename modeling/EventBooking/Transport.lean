import EventBooking.Correlation
import EventBooking.KafkaRecords
import EventBooking.NotificationStore
import EventBooking.Settling

/-!
# The services over partitioned logs

The machine `closed` lets any published message arrive at any time. Here a
publish appends a keyed record to a partition, and each consumer group reads
the partitions of its topics from a position that it moves on when a record is
done and may have to take back. Every run of this machine is a run of `closed`.
-/

namespace EventBooking
open Lib

/-! ## Consumer groups -/

inductive Group
  | bookingService
  | eventService
  | notificationService
  deriving DecidableEq

/-- The subscriptions of `createBookingMessaging`, `createEventMessaging` and `createNotificationMessaging`. -/
def Group.topics : Group → List Topic
  | .bookingService => [.seatsReserved, .seatReservationFailed]
  | .eventService => [.reserveSeats, .bookingCancelled]
  | .notificationService => [.bookingConfirmed, .bookingFailed, .bookingCancelled]

def Group.consumer : Group → Topic → Option Consumer
  | .bookingService, .seatsReserved => some .handleSeatsReserved
  | .bookingService, .seatReservationFailed => some .handleSeatReservationFailed
  | .eventService, .reserveSeats => some .reserveSeats
  | .eventService, .bookingCancelled => some .releaseSeats
  | .notificationService, .bookingConfirmed => some .handleBookingConfirmed
  | .notificationService, .bookingFailed => some .handleBookingFailed
  | .notificationService, .bookingCancelled => some .handleBookingCancelled
  | _, _ => none

theorem Group.consumer_isSome {group : Group} {topic : Topic} (h : topic ∈ group.topics) :
    ∃ consumer, group.consumer topic = some consumer := by
  cases group <;> cases topic <;> first | exact ⟨_, rfl⟩ | exact absurd h (by decide)

theorem Group.consumer_topic {group : Group} {topic : Topic} {consumer : Consumer}
    (h : group.consumer topic = some consumer) : consumer.topic = topic := by
  cases group <;> cases topic <;> cases h <;> rfl

/-! ## Handlers -/

def System.reply (s : System) (consumer : Consumer) (message : Message) (draw : Draw) : Except ServiceError Unit :=
  match consumer, message.payload with
  | .reserveSeats, .reserveSeats p =>
    dbReply ((Tx.transact (EventBooking.reserveSeats (message.map fun _ => p) draw) draw.budget s.event).1.map
      fun _ => ())
  | .releaseSeats, .bookingEventQuantity p =>
    match releaseSeatsCheck (message.map fun _ => p) with
    | .error e => .error e
    | .ok () =>
      dbReply ((Tx.transact (EventBooking.releaseSeats (message.map fun _ => p) draw) draw.budget s.event).1.map
        fun _ => ())
  | .handleSeatsReserved, .bookingEventQuantity p =>
    dbReply ((Tx.transact (handleSeatsReserved (message.map fun _ => p) draw) draw.budget s.booking).1.map
      fun _ => ())
  | .handleSeatReservationFailed, .failure p =>
    dbReply ((Tx.transact (handleSeatReservationFailed (message.map fun _ => p) draw) draw.budget s.booking).1.map
      fun _ => ())
  | .handleBookingConfirmed, .bookingEventQuantity p =>
    dbReply ((appendIfUnprocessed (handleBookingConfirmed (message.map fun _ => p) draw) draw.id draw.now
      draw.budget s.notification).1.map fun _ => ())
  | .handleBookingFailed, .failure p =>
    dbReply ((appendIfUnprocessed (handleBookingFailed (message.map fun _ => p) draw) draw.id draw.now
      draw.budget s.notification).1.map fun _ => ())
  | .handleBookingCancelled, .bookingEventQuantity p =>
    dbReply ((appendIfUnprocessed (handleBookingCancelled (message.map fun _ => p) draw) draw.id draw.now
      draw.budget s.notification).1.map fun _ => ())
  | _, _ => .ok ()

def System.handler (s : System) (errorText : ServiceError → String) (group : Group) (draw : Draw)
    (rest : Option String) (topic : Topic) : UserHandler := fun message =>
  match group.consumer topic with
  | none => .ok ()
  | some consumer =>
    match s.reply consumer message draw, rest with
    | .error e, _ => .error (.other (errorText e))
    | .ok (), some error => .error (.other error)
    | .ok (), none => .ok ()

def System.invoke (s : System) (group : Group) (topic : Topic) (draw : Draw) (invoked : List Message) : System :=
  match group.consumer topic with
  | none => s
  | some consumer => invoked.foldl (fun s message => (s.deliver consumer message draw).getD s) s

/-! ## Logs and positions -/

structure Transport where
  system : System
  logs : Topic → Nat → List KafkaMessage
  position : Group → Topic → Nat → Nat
  deadLetters : List (String × DeadLetterRecord)

def Transport.empty : Transport := ⟨.empty, fun _ _ => [], fun _ _ _ => 0, []⟩

def kafkaMessage (offset : Nat) (message : Message) : KafkaMessage :=
  ⟨toString offset, some message.correlationId, some (Json.stringify message.toJson)⟩

/-- The producer's choice of a partition for a key, and the texts of errors. -/
structure Client where
  partitioner : String → Nat
  clientId : Group → String
  texts : ErrorTexts
  errorText : ServiceError → String

inductive TransportLabel
  | step (l : Label)
  | poll (group : Group) (topic : Topic) (partition : Nat) (draw : Draw) (now : Date)
      (rest deadLetter : Option String)
  | rewind (group : Group) (topic : Topic) (partition position : Nat)
  deriving DecidableEq

section
variable (client : Client)

def Transport.publish (t : Transport) (topic : Topic) (message : Message) : Transport :=
  let partition := client.partitioner message.correlationId
  let log := t.logs topic partition
  { t with
    logs := Function.update t.logs topic
      (Function.update (t.logs topic) partition (log ++ [kafkaMessage log.length message])) }

def Transport.publishes (t : Transport) : Label → Transport
  | .dispatch _ topic message => t.publish client topic message
  | .publishDirect publish => t.publish client publish.topic publish.message
  | _ => t

def Transport.setPosition (t : Transport) (group : Group) (topic : Topic) (partition position : Nat) : Transport :=
  { t with
    position := Function.update t.position group
      (Function.update (t.position group) topic (Function.update (t.position group topic) partition position)) }

variable [Zod]

/-- One record goes through `eachMessage`; a rejected one stays where it is. -/
def Transport.consume (t : Transport) (group : Group) (topic : Topic) (partition : Nat) (draw : Draw)
    (out : Except Thrown Unit × Effects) : Transport :=
  let after : Transport :=
    { t with system := t.system.invoke group topic draw out.2.invoked, deadLetters := t.deadLetters ++ out.2.sent }
  if out.1.isOk then after.setPosition group topic partition (t.position group topic partition + 1) else after

def Transport.exec (t : Transport) : TransportLabel → Option Transport
  | .step (.deliver _ _ _) => none
  | .step l => (System.exec delivered t.system l).map fun system => { t with system }.publishes client l
  | .poll group topic partition draw now rest deadLetter =>
    if h : topic ∈ group.topics then
      (t.logs topic partition)[t.position group topic partition]?.map fun message =>
        let publisher : Publisher := fun _ _ => match deadLetter with
          | none => .ok ()
          | some error => .error (.other error)
        t.consume group topic partition draw
          ((Assignment.mk group.topics (client.clientId group) topic partition h).deliver client.texts message
            ⟨t.system.handler client.errorText group draw rest, publisher, now⟩)
    else none
  | .rewind group topic partition position =>
    if position ≤ t.position group topic partition then some (t.setPosition group topic partition position)
    else none

def kafka : Machine Transport TransportLabel where
  start t := t = Transport.empty
  exec := Transport.exec client

end

/-! ## What a group has recorded -/

/-- The message's id is in the inbox of the group's service. -/
def System.recorded (s : System) : Group → Message → Prop
  | .bookingService, m => m.messageId ∈ EventBooking.inbox s.booking.processed
  | .eventService, m => m.messageId ∈ EventBooking.inbox s.event.processed
  | .notificationService, m => ∃ u, Uuid.cast m.messageId = .ok u ∧
      u ∈ s.notification.processed.rows.map (·.messageId)

structure Remembers (s s' : System) : Prop where
  booking : ∀ id ∈ inbox s.booking.processed, id ∈ inbox s'.booking.processed
  event : ∀ id ∈ inbox s.event.processed, id ∈ inbox s'.event.processed
  notification : ∀ r ∈ s.notification.processed.rows, r ∈ s'.notification.processed.rows

theorem Remembers.recorded {s s' : System} (h : Remembers s s') {group : Group} {m : Message}
    (hm : s.recorded group m) :
    s'.recorded group m := by
  cases group with
  | bookingService => exact h.booking _ hm
  | eventService => exact h.event _ hm
  | notificationService =>
    obtain ⟨u, hu, hmem⟩ := hm
    obtain ⟨r, hr, hid⟩ := List.mem_map.mp hmem
    exact ⟨u, hu, List.mem_map.mpr ⟨r, h.notification r hr, hid⟩⟩

theorem step_remembers [Zod] {deliverable : System → Topic → Message → Bool} {s s' : System} {l : Label}
    (hs : Step deliverable s l s') : Remembers s s' := by
  have hinbox : ∀ {t t' : Table processedSchema} {id : String} {now : Date}, t.insert ⟨id, now⟩ = some t' →
      ∀ x ∈ inbox t, x ∈ inbox t' := by
    intro t t' id now h x hx
    rw [(inbox_insert h).1]; exact List.mem_append_left _ hx
  have hsame : ∀ {t t' : Table processedSchema}, t' = t → ∀ x ∈ inbox t, x ∈ inbox t' := by
    intro t t' h x hx
    rw [h]; exact hx
  have hid : ∀ id ∈ inbox s.booking.processed, id ∈ inbox s.booking.processed := fun _ h => h
  have hid' : ∀ id ∈ inbox s.event.processed, id ∈ inbox s.event.processed := fun _ h => h
  cases hs with
  | idle | read | publishDirect | dispatch => exact ⟨hid, hid', fun _ h => h⟩
  | book schema created => exact ⟨hsame created.processed, hid', fun _ h => h⟩
  | cancel reading cancelled => exact ⟨hsame cancelled.processed, hid', fun _ h => h⟩
  | settle outcome delivered settled => exact ⟨hinbox settled.processed, hid', fun _ h => h⟩
  | unsettled outcome delivered unsettled => exact ⟨hinbox unsettled.processed, hid', fun _ h => h⟩
  | reserve delivered payload reserved => exact ⟨hid, hinbox reserved.processed, fun _ h => h⟩
  | refuse delivered payload refused => exact ⟨hid, hinbox refused.processed, fun _ h => h⟩
  | invalid delivered payload quantity ignored => exact ⟨hid, hinbox ignored.processed, fun _ h => h⟩
  | release delivered payload released => exact ⟨hid, hinbox released.processed, fun _ h => h⟩
  | unreleased delivered payload ignored => exact ⟨hid, hinbox ignored.processed, fun _ h => h⟩
  | create created => exact ⟨hid, hsame created.processed, fun _ h => h⟩
  | rebase rebased => exact ⟨hid, hsame rebased.processed, fun _ h => h⟩
  | delete deleted => exact ⟨hid, hsame deleted.processed, fun _ h => h⟩
  | notify delivered record_eq appended =>
    refine ⟨hid, hid', fun r hr => ?_⟩
    rw [Table.insert_rows appended.processed]; exact List.mem_append_left _ hr
  | bookkeep service op => cases service <;> exact ⟨hid, hid', fun _ h => h⟩

/-! ## A handler that returns has recorded its message -/

theorem inbox_inserted {t t' : Table processedSchema} {messageId : String} {now : Date}
    (h : t.insert ⟨messageId, now⟩ = some t') : messageId ∈ inbox t' := by
  rw [(inbox_insert h).1]; exact List.mem_append_right _ List.mem_cons_self

theorem settled_recorded {messageId bookingId eventId : String} {quantity : Option Int} {status : BookingStatus}
    {o : OutboxInsert} {now : Date} {budget : Option Nat} {d d' : BookingDb} {r : Except DbError SettleResult}
    (h : Tx.transact (settleBooking messageId bookingId eventId quantity status o now) budget d = (r, d'))
    (hr : ∃ a, r = .ok a) : messageId ∈ inbox d'.processed := by
  obtain ⟨a, rfl⟩ := hr
  rcases settleBooking_cases h with hc | hc | hc
  · obtain ⟨rfl, ⟨_, hin⟩ | ⟨e, he⟩⟩ := hc
    · exact hin
    · cases he
  · obtain ⟨row, hs, _⟩ := hc
    exact inbox_inserted hs.processed
  · exact inbox_inserted hc.2.processed

theorem reserved_recorded {input : ProcessReserveSeatsInput} {sent now : Date} {budget : Option Nat}
    {d d' : EventDb} {r : Except DbError ReserveSeatsResult}
    (h : Tx.transact (processReserveSeatsMessage input sent now) budget d = (r, d')) (hr : ∃ a, r = .ok a) :
    input.messageId ∈ inbox d'.processed := by
  obtain ⟨a, rfl⟩ := hr
  rcases processReserveSeatsMessage_cases h with hc | hc | hc | hc
  · obtain ⟨rfl, ⟨_, hin⟩ | ⟨e, he⟩⟩ := hc
    · exact hin
    · cases he
  · exact inbox_inserted hc.2.2.processed
  · obtain ⟨row, row', _, hres⟩ := hc
    exact inbox_inserted hres.processed
  · obtain ⟨reason, _, href⟩ := hc
    exact inbox_inserted href.processed

theorem released_recorded {input : ProcessReleaseSeatsInput} {now : Date} {budget : Option Nat} {d d' : EventDb}
    {r : Except DbError ReleaseSeatsResult}
    (h : Tx.transact (processReleaseSeatsMessage input now) budget d = (r, d')) (hr : ∃ a, r = .ok a) :
    input.messageId ∈ inbox d'.processed := by
  obtain ⟨a, rfl⟩ := hr
  rcases processReleaseSeatsMessage_cases h with hc | hc | hc
  · obtain ⟨rfl, ⟨_, hin⟩ | ⟨e, he⟩⟩ := hc
    · exact hin
    · cases he
  · exact inbox_inserted hc.2.1.processed
  · obtain ⟨row, row', _, hrel⟩ := hc
    exact inbox_inserted hrel.processed

theorem cast_violates {text : String} {e : DbError} (h : Uuid.cast text = .error e) : e = .invalidText := by
  unfold Uuid.cast at h
  split at h
  · cases h
  · exact (Except.error.inj h).symm

theorem NotificationRecord.row_id {record : NotificationRecord} {id : RandomUUID} {now : Date}
    {row : NotificationRow} (h : record.row id now = .ok row) : row.id = id.val := by
  unfold NotificationRecord.row at h
  obtain ⟨_, _, h⟩ := except_bind_ok.mp h
  obtain ⟨_, _, h⟩ := except_bind_ok.mp h
  obtain ⟨_, _, h⟩ := except_bind_ok.mp h
  obtain ⟨_, _, h⟩ := except_bind_ok.mp h
  cases h; rfl

theorem notificationCreate_violation {record : NotificationRecord} {id : RandomUUID} {now : Date}
    {d : NotificationDb} (h : notificationCreate record id now d = .error .uniqueViolation) :
    ∃ u, Uuid.cast record.messageId = .ok u ∧
      (id.val ∈ d.notifications.rows.map (·.id) ∨ u ∈ d.notifications.rows.map (·.messageId)) := by
  unfold notificationCreate at h
  rcases except_bind_error.mp h with h | ⟨row, hrow, h⟩
  · unfold NotificationRecord.row at h
    rcases except_bind_error.mp h with h | ⟨_, _, h⟩
    · cases cast_violates h
    · rcases except_bind_error.mp h with h | ⟨_, _, h⟩
      · cases cast_violates h
      · rcases except_bind_error.mp h with h | ⟨_, _, h⟩
        · cases cast_violates h
        · rcases except_bind_error.mp h with h | ⟨_, _, h⟩
          · cases cast_violates h
          · cases h
  · have hstale := (insertInto_error.mp h).2
    rw [notification_fresh, NotificationRecord.row_id hrow] at hstale
    refine ⟨row.messageId, (NotificationRecord.row_eq hrow).1, ?_⟩
    by_contra hno
    rw [not_or] at hno
    exact hstale hno

/-- A duplicate is one of the message, unless the drawn id of the row is taken. -/
theorem appended_recorded {record : NotificationRecord} {id : RandomUUID} {now : Date} {budget : Option Nat}
    {d d' : NotificationDb} {r : Except DbError Bool}
    (hsame : d.processed.rows.map (·.messageId) = d.notifications.rows.map (·.messageId))
    (hfresh : id.val ∉ d.notifications.rows.map (·.id))
    (h : appendIfUnprocessed record id now budget d = (r, d')) (hr : ∃ a, r = .ok a) :
    ∃ u, Uuid.cast record.messageId = .ok u ∧ u ∈ d'.processed.rows.map (·.messageId) := by
  obtain ⟨a, rfl⟩ := hr
  rcases appendIfUnprocessed_cases h with hc | hc
  · obtain ⟨rfl, hne⟩ := hc
    have hviolation : Tx.transact (appendTx record id now) budget d' = (.error .uniqueViolation, d') := by
      unfold appendIfUnprocessed at h
      cases ht : Tx.transact (appendTx record id now) budget d' with
      | mk r0 m =>
        rw [ht] at h
        split at h
        · cases h; exact absurd rfl hne
        · rename_i e; cases e; cases h; rfl
        · cases h
    unfold appendTx at hviolation
    rcases Tx.transact_two_error (by decide) hviolation with he | he
    · rcases except_bind_error.mp he with he | ⟨u, hu, he⟩
      · cases cast_violates he
      · refine ⟨u, hu, ?_⟩
        by_contra hnew
        exact (insertInto_error.mp he).2 (processed_notification_fresh.mpr hnew)
    · obtain ⟨_, m, hfirst, hsecond⟩ := he
      obtain ⟨u, hu, hfirst⟩ := except_bind_ok.mp hfirst
      obtain ⟨_, processed, hp, rfl⟩ := insertInto_eq_ok.mp hfirst
      obtain ⟨v, hv, hstale⟩ := notificationCreate_violation hsecond
      obtain rfl : u = v := Except.ok.inj (hu.symm.trans hv)
      refine ⟨u, hu, ?_⟩
      rw [hsame]
      exact hstale.resolve_left hfresh
  · obtain ⟨row, _, _, ha⟩ := hc
    refine ⟨row.messageId, ha.message_id, ?_⟩
    rw [Table.insert_rows ha.processed, List.map_append]
    exact List.mem_append_right _ List.mem_cons_self

theorem returned_of_map {α : Type} {x : Except DbError α} (h : dbReply (x.map fun _ => ()) = .ok ()) :
    ∃ a, x = .ok a := by
  cases x with
  | ok a => exact ⟨a, rfl⟩
  | error e => cases h

theorem reserveSeats_event (s : System) (message : MessageEnvelope ReserveSeatsPayload) (draw : Draw) :
    (s.reserveSeats message draw).event = (Tx.transact (reserveSeats message draw) draw.budget s.event).2 := by
  unfold System.reserveSeats
  split <;> rename_i h <;> rw [h]

theorem releaseSeats_event (s : System) {message : MessageEnvelope BookingEventQuantityPayload} {draw : Draw}
    (hc : releaseSeatsCheck message = .ok ()) :
    (s.releaseSeats message draw).event = (Tx.transact (releaseSeats message draw) draw.budget s.event).2 := by
  unfold System.releaseSeats
  rw [hc]
  simp only
  split <;> rename_i h <;> rw [h]

section
variable {s s' : System} {message : Message} {draw : Draw}

theorem settle_recorded {bookingId eventId : String} {quantity : Option Int} {status : BookingStatus}
    {o : OutboxInsert} {now : Date} {t : Tx BookingDb SettleResult}
    (ht : t = settleBooking message.messageId bookingId eventId quantity status o now)
    (hr : dbReply ((Tx.transact t draw.budget s.booking).1.map fun _ => ()) = .ok ()) :
    (s.settle t draw).recorded .bookingService message := by
  subst ht
  exact settled_recorded (Prod.mk.eta).symm (returned_of_map hr)

theorem notify_recorded {record : NotificationRecord} (hid : record.messageId = message.messageId)
    (hsame : s.notification.processed.rows.map (·.messageId) = s.notification.notifications.rows.map (·.messageId))
    (hfresh : draw.id.val ∉ s.notification.notifications.rows.map (·.id))
    (hr : dbReply ((appendIfUnprocessed record draw.id draw.now draw.budget s.notification).1.map
      fun _ => ()) = .ok ()) :
    (s.notify record draw).recorded .notificationService message := by
  have h := appended_recorded hsame hfresh (Prod.mk.eta).symm (returned_of_map hr)
  rw [hid] at h; exact h

theorem reply_recorded {group : Group} {topic : Topic} {consumer : Consumer}
    (hg : group.consumer topic = some consumer)
    (hsame : s.notification.processed.rows.map (·.messageId) = s.notification.notifications.rows.map (·.messageId))
    (hfresh : draw.id.val ∉ s.notification.notifications.rows.map (·.id))
    (hd : s.deliver consumer message draw = some s') (hr : s.reply consumer message draw = .ok ()) :
    s'.recorded group message := by
  unfold System.deliver at hd
  unfold System.reply at hr
  generalize hp : message.payload = payload at hd hr
  cases group with
  | bookingService =>
    cases topic <;> cases hg <;> cases payload <;> cases hd
    · exact settle_recorded rfl hr
    · exact settle_recorded rfl hr
  | eventService =>
    cases topic <;> cases hg <;> cases payload <;> cases hd
    · show message.messageId ∈ inbox _
      rw [reserveSeats_event]
      exact reserved_recorded (Prod.mk.eta).symm (returned_of_map hr)
    · simp only at hr
      split at hr
      · cases hr
      · rename_i hcheck
        show message.messageId ∈ inbox _
        rw [releaseSeats_event s hcheck]
        exact released_recorded (Prod.mk.eta).symm (returned_of_map hr)
  | notificationService =>
    cases topic <;> cases hg <;> cases payload <;> cases hd
    · exact notify_recorded rfl hsame hfresh hr
    · exact notify_recorded rfl hsame hfresh hr
    · exact notify_recorded rfl hsame hfresh hr

end

/-! ## One record -/

theorem handler_cases {group : Group} {topic : Topic} {consumer : Consumer}
    (hg : group.consumer topic = some consumer)
    (s : System) (errorText : ServiceError → String) (draw : Draw) (rest : Option String) (message : Message) :
    (s.handler errorText group draw rest topic message = .ok () ∧ s.reply consumer message draw = .ok ()) ∨
      ∃ text, s.handler errorText group draw rest topic message = .error (.other text) := by
  unfold System.handler
  simp only [hg]
  cases hr : s.reply consumer message draw with
  | error e => exact .inr ⟨_, rfl⟩
  | ok u =>
    cases rest with
    | none => exact .inl ⟨rfl, rfl⟩
    | some error => exact .inr ⟨_, rfl⟩

theorem invoke_one {s s' : System} {group : Group} {topic : Topic} {consumer : Consumer} {draw : Draw}
    {message : Message} (hg : group.consumer topic = some consumer)
    (hd : s.deliver consumer message draw = some s') :
    s.invoke group topic draw [message] = s' := by
  unfold System.invoke
  simp only [hg, List.foldl_cons, List.foldl_nil, hd, Option.getD_some]

/-- A record that carries a message of its topic reaches the handler, and no dead letter is sent for it. -/
theorem deliver_carried [Zod] (texts : ErrorTexts) (a : Assignment) {km : KafkaMessage} {l : Surroundings}
    {m : Message} (hvalue : km.value = some (Json.stringify m.toJson)) (hs : messageEnvelopeSchema a.topic m = true)
    (ht : ∀ e, l.handlers a.topic m = .error e → e.permanent = false) :
    a.deliver texts km l = (l.handlers a.topic m, ⟨[m], []⟩) := by
  obtain ⟨value, hj, hv⟩ := Option.bind_eq_some_iff.mp (receive_stringify.mpr hs)
  have htried : Tried texts a.topic (l.handlers a.topic) (km.record a.partition a.clientId).rawPayload (some m)
      (l.handlers a.topic m) := by
    rw [show (km.record a.partition a.clientId).rawPayload = some (Json.stringify m.toJson) from hvalue]
    exact .handled hj hv
  generalize hresult : l.handlers a.topic m = result at htried ht
  rw [a.deliver_eq texts]
  simp only
  rw [deliverRecord_eq texts htried]
  cases result with
  | ok u => rfl
  | error e =>
    simp only [ht e rfl, Bool.false_eq_true, if_false]
    rfl

/-! ## What the logs carry -/

section
variable (client : Client) (t : Transport) (topic : Topic) (message : Message)

theorem publish_logs (topic' : Topic) (partition : Nat) : (t.publish client topic message).logs topic' partition =
    t.logs topic' partition ++
      if topic' = topic ∧ partition = client.partitioner message.correlationId
      then [kafkaMessage (t.logs topic' partition).length message] else [] := by
  unfold Transport.publish
  by_cases ht : topic' = topic
  · subst ht
    by_cases hp : partition = client.partitioner message.correlationId
    · subst hp
      rw [if_pos ⟨rfl, rfl⟩]
      simp only [Function.update_self]
    · rw [if_neg fun h => hp h.2, List.append_nil]
      simp only [Function.update_self, Function.update_of_ne hp]
  · rw [if_neg fun h => ht h.1, List.append_nil]
    simp only [Function.update_of_ne ht]

theorem publish_mem : kafkaMessage (t.logs topic (client.partitioner message.correlationId)).length message ∈
    (t.publish client topic message).logs topic (client.partitioner message.correlationId) := by
  rw [publish_logs, if_pos ⟨rfl, rfl⟩]
  exact List.mem_append_right _ List.mem_cons_self

variable {client t topic message}

theorem mem_publish {topic' : Topic} {partition : Nat} {r : KafkaMessage}
    (h : r ∈ (t.publish client topic message).logs topic' partition) : r ∈ t.logs topic' partition ∨
      topic' = topic ∧ partition = client.partitioner message.correlationId ∧ ∃ n, r = kafkaMessage n message := by
  rw [publish_logs, List.mem_append] at h
  rcases h with h | h
  · exact .inl h
  · split at h
    · rename_i hc
      exact .inr ⟨hc.1, hc.2, _, List.mem_singleton.mp h⟩
    · cases h

end

structure Logged (client : Client) (t : Transport) : Prop where
  records : ∀ topic p, ∀ r ∈ t.logs topic p, ∃ m, (topic, m) ∈ t.system.published ∧ r.key = some m.correlationId ∧
    r.value = some (Json.stringify m.toJson) ∧ p = client.partitioner m.correlationId
  published : ∀ topic m, (topic, m) ∈ t.system.published →
    ∃ r ∈ t.logs topic (client.partitioner m.correlationId), r.value = some (Json.stringify m.toJson)

/-- A group has recorded what stands before its position. -/
structure Consumed [Zod] (t : Transport) : Prop where
  bound : ∀ group topic p, t.position group topic p ≤ (t.logs topic p).length
  recorded : ∀ group topic p, topic ∈ Group.topics group →
    ∀ o < t.position group topic p, ∀ r, (t.logs topic p)[o]? = some r →
    ∀ m, r.value = some (Json.stringify m.toJson) → messageEnvelopeSchema topic m = true → t.system.recorded group m

theorem setPosition_position (t : Transport) (group : Group) (topic : Topic) (partition position : Nat)
    (group' : Group) (topic' : Topic) (partition' : Nat) :
    (t.setPosition group topic partition position).position group' topic' partition' =
      if group' = group ∧ topic' = topic ∧
          partition' = partition then position else t.position group' topic' partition' := by
  unfold Transport.setPosition
  by_cases hg : group' = group
  · subst hg
    by_cases ht : topic' = topic
    · subst ht
      by_cases hp : partition' = partition
      · subst hp
        rw [if_pos ⟨rfl, rfl, rfl⟩]
        simp only [Function.update_self]
      · rw [if_neg fun h => hp h.2.2]
        simp only [Function.update_self, Function.update_of_ne hp]
    · rw [if_neg fun h => ht h.2.1]
      simp only [Function.update_self, Function.update_of_ne ht]
  · rw [if_neg fun h => hg h.1]
    simp only [Function.update_of_ne hg]

section
variable [Zod] {client : Client} {t t' : Transport}

omit [Zod] in
theorem logged_publish (h : Logged client t) {system : System} {topic : Topic} {message : Message}
    (hp : system.published = t.system.published ++ [(topic, message)]) :
    Logged client (({ t with system } : Transport).publish client topic message) := by
  have hnew : (topic, message) ∈ system.published := by rw [hp]; exact List.mem_append_right _ List.mem_cons_self
  have hold : ∀ x ∈ t.system.published, x ∈ system.published := by
    intro x hx
    rw [hp]; exact List.mem_append_left _ hx
  refine ⟨fun topic' p r hr => ?_, fun topic' m hm => ?_⟩
  · rcases mem_publish hr with hr | hr
    · obtain ⟨m, hm, hkey, hvalue, hpart⟩ := h.records topic' p r hr
      exact ⟨m, hold _ hm, hkey, hvalue, hpart⟩
    · obtain ⟨rfl, hpart, n, rfl⟩ := hr
      exact ⟨message, hnew, rfl, rfl, hpart⟩
  · have hm : (topic', m) ∈ t.system.published ++ [(topic, message)] := hp ▸ hm
    rcases List.mem_append.mp hm with hm | hm
    · obtain ⟨r, hr, hvalue⟩ := h.published topic' m hm
      refine ⟨r, ?_, hvalue⟩
      rw [publish_logs]; exact List.mem_append_left _ hr
    · cases List.mem_singleton.mp hm
      exact ⟨_, publish_mem client { t with system } topic message, rfl⟩

omit [Zod] in
theorem Logged.same (h : Logged client t) (hl : t'.logs = t.logs) (hp : t'.system.published = t.system.published) :
    Logged client t' := by
  refine ⟨fun topic p r hr => ?_, fun topic m hm => ?_⟩
  · rw [hl] at hr
    rw [hp]; exact h.records topic p r hr
  · rw [hp] at hm
    rw [hl]; exact h.published topic m hm

theorem Consumed.grow (h : Consumed t) (hr : Remembers t.system t'.system) (hpos : t'.position = t.position)
    (hlogs : ∀ topic p, ∃ extra, t'.logs topic p = t.logs topic p ++ extra) : Consumed t' := by
  refine ⟨fun group topic p => ?_, fun group topic p ht o ho r hget m hvalue hs => ?_⟩
  · obtain ⟨extra, he⟩ := hlogs topic p
    rw [hpos, he, List.length_append]
    exact Nat.le_add_right_of_le (h.bound group topic p)
  · obtain ⟨extra, he⟩ := hlogs topic p
    rw [hpos] at ho
    rw [he, List.getElem?_append_left (Nat.lt_of_lt_of_le ho (h.bound group topic p))] at hget
    exact hr.recorded (h.recorded group topic p ht o ho r hget m hvalue hs)

theorem Consumed.seek (h : Consumed t) {group : Group} {topic : Topic} {partition position : Nat}
    (hle : position ≤ (t.logs topic partition).length)
    (hdone : topic ∈ Group.topics group → ∀ o < position, t.position group topic partition ≤ o →
      ∀ r, (t.logs topic partition)[o]? = some r → ∀ m, r.value = some (Json.stringify m.toJson) →
        messageEnvelopeSchema topic m = true → t.system.recorded group m) :
    Consumed (t.setPosition group topic partition position) := by
  refine ⟨fun group' topic' p => ?_, fun group' topic' p ht o ho r hget m hvalue hs => ?_⟩
  · rw [setPosition_position]
    split
    · rename_i hc
      obtain ⟨rfl, rfl, rfl⟩ := hc
      exact hle
    · exact h.bound group' topic' p
  · rw [setPosition_position] at ho
    split at ho
    · rename_i hc
      obtain ⟨rfl, rfl, rfl⟩ := hc
      by_cases hbefore : o < t.position group' topic' p
      · exact h.recorded group' topic' p ht o hbefore r hget m hvalue hs
      · exact hdone ht o ho (Nat.not_lt.mp hbefore) r hget m hvalue hs
    · exact h.recorded group' topic' p ht o ho r hget m hvalue hs

end

/-! ## Every step -/

def NewIds (t : Transport) : TransportLabel → Prop
  | .poll _ _ _ draw _ _ _ => draw.id.val ∉ t.system.notification.notifications.rows.map (·.id)
  | _ => True

structure Carried [Zod] (client : Client) (t : Transport) : Prop where
  reached : closed.Reach t.system
  logged : Logged client t
  consumed : Consumed t
  no_dead_letters : t.deadLetters = []

section
variable [Zod] {client : Client} {t t' : Transport}

theorem step_published {deliverable : System → Topic → Message → Bool} {s s' : System} {l : Label}
    (hs : Step deliverable s l s') (hd : ∀ service topic message, l ≠ .dispatch service topic message)
    (hp : ∀ publish, l ≠ .publishDirect publish) : s'.published = s.published := by
  cases hs with
  | publishDirect mem => exact absurd rfl (hp _)
  | dispatch mem row_topic row_message => exact absurd rfl (hd _ _ _)
  | bookkeep service op => cases service <;> rfl
  | _ => rfl

theorem carried_local (h : Carried client t) {l : Label} {system : System}
    (he : System.exec delivered t.system l = some system)
    (hd : ∀ service topic message, l ≠ .dispatch service topic message)
    (hp : ∀ publish, l ≠ .publishDirect publish) :
    Carried client { t with system } :=
  ⟨h.reached.step he, h.logged.same rfl (step_published (closed_step he) hd hp),
    h.consumed.grow (step_remembers (closed_step he)) rfl fun _ _ => ⟨[], (List.append_nil _).symm⟩,
      h.no_dead_letters⟩

theorem carried_publish (h : Carried client t) {l : Label} {system : System}
    (he : System.exec delivered t.system l = some system)
    {topic : Topic} {message : Message} (hp : system.published = t.system.published ++ [(topic, message)]) :
    Carried client (({ t with system } : Transport).publish client topic message) :=
  ⟨h.reached.step he, logged_publish h.logged hp,
    h.consumed.grow (step_remembers (closed_step he)) rfl fun _ _ => ⟨_, publish_logs client _ topic message _ _⟩,
    h.no_dead_letters⟩

structure Polled (t : Transport) (group : Group) (topic : Topic) (draw : Draw) (r : KafkaMessage)
    (consumer : Consumer) (m : Message) (system : System) : Prop where
  published : (topic, m) ∈ t.system.published
  value : r.value = some (Json.stringify m.toJson)
  schema : messageEnvelopeSchema topic m = true
  subscribed : group.consumer topic = some consumer
  deliver : t.system.deliver consumer m draw = some system
  exec : System.exec delivered t.system (.deliver consumer m draw) = some system

theorem Carried.polled (h : Carried client t) {group : Group} {topic : Topic} {partition : Nat} (draw : Draw)
    (ht : topic ∈ group.topics) {r : KafkaMessage} (hr : r ∈ t.logs topic partition) :
    ∃ consumer m system, Polled t group topic draw r consumer m system ∧
      ∀ (rest : Option String) (publisher : Publisher)
      (now : Date), t.consume group topic partition draw
        ((Assignment.mk group.topics (client.clientId group) topic partition ht).deliver client.texts r
          ⟨t.system.handler client.errorText group draw rest, publisher, now⟩) =
        if (t.system.handler client.errorText group draw rest topic m).isOk
        then ({ t with system } : Transport).setPosition group topic partition
          (t.position group topic partition + 1)
        else { t with system } := by
  obtain ⟨consumer, hg⟩ := Group.consumer_isSome ht
  obtain ⟨m, hm, _, hvalue, _⟩ := h.logged.records topic partition r hr
  have hschema : messageEnvelopeSchema topic m = true :=
    (conforming_opened (opened_of_closed h.reached)).published _ hm
  have htopic := Group.consumer_topic hg
  have hsome : (t.system.deliver consumer m draw).isSome := deliver_isSome (htopic.symm ▸ hschema)
  obtain ⟨system, hd⟩ := Option.isSome_iff_exists.mp hsome
  have he : System.exec delivered t.system (.deliver consumer m draw) = some system :=
    (if_pos (decide_eq_true (htopic.symm ▸ hm))).trans hd
  refine ⟨consumer, m, system, ⟨hm, hvalue, hschema, hg, hd, he⟩, fun rest publisher now => ?_⟩
  have htransient : ∀ e, t.system.handler client.errorText group draw rest topic m = .error e →
      e.permanent = false := by
    intro e he
    rcases handler_cases hg t.system client.errorText draw rest m with ⟨hok, _⟩ | ⟨text, herror⟩
    · rw [hok] at he; cases he
    · rw [herror] at he; cases he; rfl
  rw [deliver_carried client.texts ⟨group.topics, client.clientId group, topic, partition, ht⟩ hvalue hschema
    htransient]
  unfold Transport.consume
  simp only [invoke_one hg hd, List.append_nil]

theorem carried_poll (h : Carried client t) {group : Group} {topic : Topic} {partition : Nat} {draw : Draw}
    {rest : Option String} {publisher : Publisher} {now : Date}
    (hfresh : draw.id.val ∉ t.system.notification.notifications.rows.map (·.id))
    (ht : topic ∈ group.topics) {r : KafkaMessage}
    (hr : (t.logs topic partition)[t.position group topic partition]? = some r) :
    Carried client (t.consume group topic partition draw
      ((Assignment.mk group.topics (client.clientId group) topic partition ht).deliver client.texts r
        ⟨t.system.handler client.errorText group draw rest, publisher, now⟩)) := by
  obtain ⟨consumer, m, system, hp, hconsume⟩ := h.polled draw ht (List.mem_of_getElem? hr)
  have hlocal := carried_local h hp.exec (fun _ _ _ e => by cases e) fun _ e => by cases e
  rw [hconsume rest publisher now]
  split
  · rename_i hok
    have hreply : t.system.reply consumer m draw = .ok () := by
      rcases handler_cases hp.subscribed t.system client.errorText draw rest m with ⟨_, hreply⟩ | ⟨text, herror⟩
      · exact hreply
      · rw [herror] at hok; cases hok
    have hlt : t.position group topic partition < (t.logs topic partition).length := by
      obtain ⟨hlt, _⟩ := List.getElem?_eq_some_iff.mp hr
      exact hlt
    refine ⟨hlocal.reached, hlocal.logged.same rfl rfl,
      hlocal.consumed.seek hlt fun _ o ho hpos x hx y hy hys => ?_, hlocal.no_dead_letters⟩
    obtain rfl : o = t.position group topic partition := Nat.le_antisymm (Nat.lt_succ_iff.mp ho) hpos
    obtain rfl : x = r := Option.some.inj (hx.symm.trans hr)
    have hxy : receive topic (Json.stringify y.toJson) = some m := by
      rw [Option.some.inj (hy.symm.trans hp.value)]; exact receive_stringify.mpr hp.schema
    obtain rfl : y = m := Option.some.inj ((receive_stringify.mpr hys).symm.trans hxy)
    exact reply_recorded hp.subscribed (noticed_closed h.reached).same_ids hfresh hp.deliver hreply
  · exact hlocal

theorem carried_step {l : TransportLabel} (h : Carried client t) (hc : NewIds t l)
    (he : (kafka client).exec t l = some t') :
    Carried client t' := by
  cases l with
  | step l =>
    cases l with
    | deliver consumer message draw => cases he
    | dispatch service topic message =>
      obtain ⟨system, hs, rfl⟩ := Option.map_eq_some_iff.mp he
      obtain ⟨_, rfl⟩ := guard_eq_some.mp hs
      exact carried_publish h hs rfl
    | publishDirect publish =>
      obtain ⟨system, hs, rfl⟩ := Option.map_eq_some_iff.mp he
      obtain ⟨_, rfl⟩ := guard_eq_some.mp hs
      exact carried_publish h hs rfl
    | bookkeep service op =>
      obtain rfl := Option.some.inj he
      exact carried_local h (l := .bookkeep service op) rfl (fun _ _ _ e => by cases e) fun _ e => by cases e
    | _ =>
      obtain ⟨system, hs, rfl⟩ := Option.map_eq_some_iff.mp he
      exact carried_local h hs (fun _ _ _ e => by cases e) fun _ e => by cases e
  | poll group topic partition draw now rest deadLetter =>
    obtain ⟨ht, he⟩ := Option.dite_none_right_eq_some.mp he
    obtain ⟨r, hr, rfl⟩ := Option.map_eq_some_iff.mp he
    exact carried_poll h hc ht hr
  | rewind group topic partition position =>
    obtain ⟨hle, rfl⟩ := guard_eq_some.mp he
    refine ⟨h.reached, h.logged.same rfl rfl, h.consumed.seek ?_ fun _ o ho hpos => ?_, h.no_dead_letters⟩
    · exact Nat.le_trans hle (h.consumed.bound group topic partition)
    · omega

theorem carried_kafka (h : (kafka client).ReachBy NewIds t) : Carried client t := by
  refine h.inv ?_ fun t l t' _ hi hc he => carried_step hi hc he
  intro t h0
  rw [show t = Transport.empty from h0]
  refine ⟨.start rfl, ⟨fun _ _ r hr => (by cases hr), fun _ m hm => (by cases hm)⟩,
    ⟨fun _ _ _ => Nat.le_refl _, ?_⟩, rfl⟩
  intro _ _ _ _ o ho
  exact absurd ho (Nat.not_lt_zero o)

end

/-! ## What consumers may rely on -/

/-- Every stored row was sent to Kafka, and every group has read its partitions to the end. -/
structure CaughtUp (t : Transport) : Prop where
  sent : ∀ service, ∀ m ∈ contents (t.system.outbox service), (m.topic, m.message) ∈ t.system.published
  read : ∀ group, ∀ topic ∈ Group.topics group, ∀ p, (t.logs topic p).length ≤ t.position group topic p

structure Transported [Zod] (client : Client) (t : Transport) : Prop where
  reached : closed.Reach t.system
  no_dead_letters : t.deadLetters = []
  keyed : ∀ topic p, ∀ r ∈ t.logs topic p, ∃ m : Message, ∃ b ∈ t.system.booking.bookings.rows,
    r.value = some (Json.stringify m.toJson) ∧ m.payload.bookingId = b.id.text ∧ r.key = some b.id.text ∧
      p = client.partitioner b.id.text
  recorded : ∀ group, ∀ topic ∈ Group.topics group, ∀ p, ∀ o < t.position group topic p, ∃ raw m,
    ((t.logs topic p)[o]?.bind KafkaMessage.value) = some raw ∧ receive topic raw = some m ∧
      t.system.recorded group m
  at_rest : CaughtUp t → AtRest t.system ∧ NewsConsumed t.system

section
variable [Zod] {client : Client} {t : Transport}

theorem Carried.read (h : Carried client t) {group : Group} {topic : Topic} (ht : topic ∈ group.topics) {p o : Nat}
    (ho : o < t.position group topic p) :
    ∃ m r, (t.logs topic p)[o]? = some r ∧ r.value = some (Json.stringify m.toJson) ∧
      (topic, m) ∈ t.system.published ∧ messageEnvelopeSchema topic m = true ∧ t.system.recorded group m := by
  have hlt := Nat.lt_of_lt_of_le ho (h.consumed.bound group topic p)
  have hget : (t.logs topic p)[o]? = some ((t.logs topic p)[o]) := List.getElem?_eq_getElem hlt
  obtain ⟨m, hm, _, hvalue, _⟩ := h.logged.records topic p _ (List.mem_of_getElem? hget)
  have hschema : messageEnvelopeSchema topic m = true :=
    (conforming_opened (opened_of_closed h.reached)).published _ hm
  exact ⟨m, _, hget, hvalue, hm, hschema, h.consumed.recorded group topic p ht o ho _ hget m hvalue hschema⟩

/-- Where a group has read everything, it has recorded every published message of its topics. -/
theorem Carried.recorded_published (h : Carried client t) (hread : ∀ group, ∀ topic ∈ Group.topics group, ∀ p,
    (t.logs topic p).length ≤ t.position group topic p) {group : Group} {topic : Topic} (ht : topic ∈ group.topics)
    {m : Message} (hm : (topic, m) ∈ t.system.published) : t.system.recorded group m := by
  have hschema : messageEnvelopeSchema topic m = true :=
    (conforming_opened (opened_of_closed h.reached)).published _ hm
  obtain ⟨r, hr, hvalue⟩ := h.logged.published topic m hm
  obtain ⟨o, hget⟩ := List.mem_iff_getElem?.mp hr
  have hlt : o < (t.logs topic (client.partitioner m.correlationId)).length := (List.getElem?_eq_some_iff.mp hget).1
  exact h.consumed.recorded group topic _ ht o
    (Nat.lt_of_lt_of_le hlt (hread group topic ht _)) r hget m hvalue hschema

theorem Carried.at_rest (h : Carried client t) (hc : CaughtUp t) : AtRest t.system ∧ NewsConsumed t.system := by
  have hi := inv_closed h.reached
  have hrec : ∀ (group : Group) (service : Service) {m : StoredMessage}, m ∈ contents (t.system.outbox service) →
      m.topic ∈ group.topics → t.system.recorded group m.message :=
    fun group service m hm ht => h.recorded_published hc.read ht (hc.sent service m hm)
  have hquiet : Quiet t.system := by
    refine ⟨fun m hm ht => ?_, fun m hm => ?_⟩
    · have hrec := hrec .eventService .booking hm (by
        rcases ht with ht | ht <;> rw [ht] <;> decide)
      rw [← hi.sound.enveloped m (.inl hm)]; exact hrec
    · have htopic := (hi.sound.answered m hm).1
      have hrec := hrec .bookingService .event hm (by
        cases ht : m.topic <;> rw [ht] at htopic <;> first | decide | cases htopic)
      rw [← hi.sound.enveloped m (.inr hm)]; exact hrec
  refine ⟨at_rest_of_quiet hi hquiet, fun m hm type ht => ?_⟩
  have hrec := hrec .notificationService .booking hm (by rw [ht]; cases type <;> decide)
  obtain ⟨u, hu, hmem⟩ := hrec
  rw [← hi.sound.enveloped m (.inl hm)]
  exact ⟨u, hu, hmem⟩

/-- Whatever is published, polled, thrown and taken back, in any order. -/
theorem kafka_transports (h : (kafka client).ReachBy NewIds t) : Transported client t := by
  have hc := carried_kafka h
  refine ⟨hc.reached, hc.no_dead_letters, fun topic p r hr => ?_, fun group topic ht p o ho => ?_, hc.at_rest⟩
  · obtain ⟨m, hm, hkey, hvalue, hpart⟩ := hc.logged.records topic p r hr
    obtain ⟨b, hb, hid, hcorrelation⟩ := published_booking hc.reached hm
    exact ⟨m, b, hb, hvalue, hid, by rw [hkey, hcorrelation], by rw [hpart, hcorrelation]⟩
  · obtain ⟨m, r, hget, hvalue, _, hschema, hrec⟩ := hc.read ht ho
    refine ⟨_, m, ?_, receive_stringify.mpr hschema, hrec⟩
    rw [hget, Option.bind_some]; exact hvalue

end

/-! ## A run with a redelivery -/

def sampleClient : Client := ⟨fun key => key.length % 5, fun _ => "service", sampleTexts, fun _ => "database error"⟩

def sampleTransport : List TransportLabel :=
  [.step (.createEvent concert (sampleDraw 1 0 0 0 0)),
   .step (.createBooking sampleBooking (sampleDraw 2 3 4 0 0)),
   .step (.dispatch .booking .reserveSeats (sampleRequest.map .reserveSeats)),
   .poll .eventService .reserveSeats 1 (sampleDraw 0 8 9 10 11) 0 (some "no broker") none,
   .poll .eventService .reserveSeats 1 (sampleDraw 0 12 13 14 15) 0 none none]

def transportView (t : Transport) : List Nat :=
  [(t.logs .reserveSeats 1).length, t.position .eventService .reserveSeats 1, t.system.event.processed.rows.length,
    t.system.event.outbox.rows.length]

def newIds (t : Transport) : TransportLabel → Bool
  | .poll _ _ _ draw _ _ _ => t.system.notification.notifications.rows.all fun r => decide (r.id ≠ draw.id.val)
  | _ => true

theorem newIds_sound (t : Transport) (l : TransportLabel) (h : newIds t l = true) : NewIds t l := by
  cases l with
  | poll group topic partition draw now rest deadLetter =>
    intro hmem
    obtain ⟨r, hr, hid⟩ := List.mem_map.mp hmem
    exact of_decide_eq_true (List.all_eq_true.mp h r hr) hid
  | _ => trivial

theorem kafka_transports_redelivery : ∃ t, (@kafka sampleClient zod4).run .empty sampleTransport = some t ∧
    transportView t = [1, 1, 1, 1] ∧ @Transported zod4 sampleClient t := by
  have h : (((@kafka sampleClient zod4).run .empty sampleTransport).map transportView,
      (@kafka sampleClient zod4).allowed newIds .empty sampleTransport) = (some [1, 1, 1, 1], true) := by
    decide +kernel
  obtain ⟨hrun, hallowed⟩ := Prod.mk.inj h
  obtain ⟨t, ht, hview⟩ := Option.map_eq_some_iff.mp hrun
  have hmeets := Machine.meets_of_allowed newIds_sound hallowed
  exact ⟨t, ht, hview, @kafka_transports zod4 sampleClient t (Machine.ReachBy.run (.start rfl) hmeets ht)⟩

end EventBooking
