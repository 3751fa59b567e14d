import EventBooking.Lifecycle

/-!
# What the notifications tell

The third service only hears of bookings through messages. Each stored
notification is traced to the row of the booking outbox it records, and from
there to the booking and to the answer of the Event Service.
-/

namespace EventBooking
open Lib

def NotificationType.topic : NotificationType → Topic
  | .bookingConfirmed => .bookingConfirmed
  | .bookingFailed => .bookingFailed
  | .bookingCancelled => .bookingCancelled

def NotificationType.text : NotificationType → String
  | .bookingConfirmed => "Booking confirmed"
  | .bookingFailed => "Booking failed"
  | .bookingCancelled => "Booking cancelled"

theorem NotificationType.topic_inj {t t' : NotificationType} (h : t.topic = t'.topic) : t = t' := by
  cases t <;> cases t' <;> first | rfl | cases h

def Payload.reason : Payload → Option FailureReason
  | .failure p => some p.reason
  | _ => none

/-! ## From a message to a row -/

/-- The row holds what a notification handler makes of the message. -/
structure Records (topic : Topic) (message : Message) (row : NotificationRow) : Prop where
  topic : row.type.topic = topic
  messageId : Uuid.cast message.messageId = .ok row.messageId
  bookingId : Uuid.cast message.payload.bookingId = .ok row.bookingId
  eventId : Uuid.cast message.payload.eventId = .ok row.eventId
  text : row.message = row.type.text
  reason : row.reason = message.payload.reason
  failed : row.reason.isSome = decide (row.type = .bookingFailed)

theorem NotificationRecord.row_eq {record : NotificationRecord} {id : RandomUUID} {now : Date}
    {row : NotificationRow} (h : record.row id now = .ok row) : Uuid.cast record.messageId = .ok row.messageId ∧
      Uuid.cast record.bookingId = .ok row.bookingId ∧ Uuid.cast record.eventId = .ok row.eventId ∧
      row.type = record.type ∧ row.message = record.message ∧ row.reason = record.reason := by
  unfold NotificationRecord.row at h
  obtain ⟨m, hm, h⟩ := except_bind_ok.mp h
  obtain ⟨c, _, h⟩ := except_bind_ok.mp h
  obtain ⟨b, hb, h⟩ := except_bind_ok.mp h
  obtain ⟨e, he, h⟩ := except_bind_ok.mp h
  cases h
  exact ⟨hm, hb, he, rfl, rfl, rfl⟩

theorem Consumer.records {consumer : Consumer} {message : Message} {draw : Draw} {record : NotificationRecord}
    {row : NotificationRow} (hr : consumer.record message draw = some record)
    (hrow : record.row draw.id draw.now = .ok row) : Records consumer.topic message row := by
  obtain ⟨hm, hb, he, htype, htext, hreason⟩ := NotificationRecord.row_eq hrow
  unfold Consumer.record at hr
  split at hr <;> cases hr
  all_goals
    rename_i hp
    refine ⟨congrArg _ htype, hm, ?_, ?_, ?_, ?_, ?_⟩
    · rw [hp]; exact hb
    · rw [hp]; exact he
    · rw [htext, htype]; rfl
    · rw [hreason, hp]; rfl
    · rw [hreason, htype]; rfl

/-! ## What a step does to the notifications -/

inductive Noted (deliverable : System → Topic → Message → Bool) (s : System) (d : NotificationDb) : Prop
  | same (h : d = s.notification)
  | stored {consumer : Consumer} {message : Message} {row : NotificationRow} {now : Date}
      (delivered : deliverable s consumer.topic message = true) (records : Records consumer.topic message row)
      (processed : s.notification.processed.insert ⟨row.messageId, now⟩ = some d.processed)
      (notifications : s.notification.notifications.insert row = some d.notifications)

theorem deliver_notify {s : System} {consumer : Consumer} {message : Message} {draw : Draw}
    {record : NotificationRecord} (h : consumer.record message draw = some record) :
    s.deliver consumer message draw = some (s.notify record draw) := by
  unfold Consumer.record at h
  unfold System.deliver
  split at h <;> cases h <;> rename_i hp <;> simp only [hp]

section
variable [Zod] {deliverable : System → Topic → Message → Bool} {s s' : System} {l : Label}

theorem exec_noted (h : (services deliverable).exec s l = some s') : Noted deliverable s s'.notification := by
  cases exec_step h with
  | notify delivered record_eq appended =>
    rename_i consumer message draw record _ _
    obtain ⟨_, h⟩ := Option.ite_none_right_eq_some.mp h
    rw [deliver_notify record_eq, Option.some.injEq] at h
    cases ha : appendIfUnprocessed record draw.id draw.now draw.budget s.notification with
    | mk r d =>
      have hd : (s.notify record draw).notification = d := by
        unfold System.notify; rw [ha]
      rw [← h, hd]
      rcases appendIfUnprocessed_cases ha with hc | hc
      · exact .same hc.1
      · obtain ⟨row, _, hrow, ha⟩ := hc
        exact .stored delivered (Consumer.records record_eq hrow) ha.processed ha.notifications
  | bookkeep service op => cases service <;> exact .same rfl
  | _ => exact .same rfl

end

/-! ## The invariant -/

/-- Every notification records a stored row, every outcome row repeats an
answer of the Event Service, and stored ids are written as `uuid` columns return them. -/
structure Noticed (s : System) : Prop where
  same_ids : s.notification.processed.rows.map (·.messageId) = s.notification.notifications.rows.map (·.messageId)
  recorded : ∀ row ∈ s.notification.notifications.rows, ∃ m ∈ contents s.booking.outbox,
    Records m.topic m.message row
  repeated : ∀ m ∈ contents s.booking.outbox, ∀ t status, settlement t = some (status, m.topic) →
    ∃ a ∈ contents s.event.outbox, a.topic = t ∧ a.message.payload = m.message.payload
  canonical : ∀ m ∈ contents s.booking.outbox, ∃ u : Uuid, m.messageId = u.text

theorem settlement_inj {t t' topic : Topic} {status status' : BookingStatus}
    (h : settlement t = some (status, topic)) (h' : settlement t' = some (status', topic)) : t = t' := by
  cases t <;> cases h <;> cases t' <;> first | rfl | cases h'

section
variable [Zod] {s s' : System} {l : Label}

theorem step_contents (hi : Inv s) (hs : Step delivered s l s') :
    (∀ m ∈ contents s.booking.outbox, m ∈ contents s'.booking.outbox) ∧
      ∀ m ∈ contents s.event.outbox, m ∈ contents s'.event.outbox := by
  have hk := (step_simulates hi hs).keeps
  have hi' := inv_step hi hs
  refine ⟨fun m hm => ?_, fun m hm => ?_⟩
  · refine (hk.stored m (.inl hm)).resolve_right fun ha => ?_
    have := (hi'.sound.answered m ha).1
    rw [(hi.sound.sent m hm).1] at this; cases this
  · refine (hk.stored m (.inr hm)).resolve_left fun ha => ?_
    have := (hi'.sound.sent m ha).1
    rw [(hi.sound.answered m hm).1] at this; cases this

/-- A new row of the booking outbox has a drawn id, and repeats the delivered answer when it is an outcome. -/
theorem step_sent (hi : Inv s) (hs : Step delivered s l s') {m : StoredMessage}
    (hm : m ∈ contents s'.booking.outbox) :
    m ∈ contents s.booking.outbox ∨ (∃ u : Uuid, m.messageId = u.text) ∧
      ∀ t status, settlement t = some (status, m.topic) →
        ∃ a ∈ contents s.event.outbox, a.topic = t ∧ a.message.payload = m.message.payload := by
  have hnew : ∀ {t t' : OutboxTable} {o : OutboxInsert} {now : Date}, t.insert (o.row now) = some t' →
      m ∈ contents t' → m ∈ contents t ∨ m = o.stored := by
    intro t t' o now h hm
    rw [(outbox_insert h).1, List.mem_append, List.mem_singleton] at hm; exact hm
  cases hs with
  | book schema created =>
    rename_i input draw row booking
    refine (hnew created.outbox hm).imp_right fun e => ?_
    rw [e]
    refine ⟨⟨draw.messageId.val, rfl⟩, fun t status h => ?_⟩
    cases t <;> cases h
  | cancel reading cancelled =>
    rename_i id dto draw row booking
    refine (hnew cancelled.outbox hm).imp_right fun e => ?_
    rw [e]
    refine ⟨⟨draw.messageId.val, rfl⟩, fun t status h => ?_⟩
    cases t <;> cases h
  | settle outcome delivered settled =>
    rename_i consumer status topic message draw row booking
    have hout := settled.outbox
    split at hout
    · refine (hnew hout hm).imp_right fun e => ?_
      rw [e]
      refine ⟨⟨draw.messageId.val, rfl⟩, fun t status' h => ?_⟩
      obtain ⟨a, _, _, ha, htopic, _, hp, _⟩ := hi.outcome delivered (settlement_topic outcome).1
      exact ⟨a, ha, htopic.trans (settlement_inj outcome h), hp⟩
    · exact .inl (hout ▸ hm)
  | unsettled outcome delivered unsettled => exact .inl (unsettled.outbox ▸ hm)
  | bookkeep service op =>
    cases service with
    | booking => exact .inl (contents_apply s.booking.outbox op ▸ hm)
    | event => exact .inl hm
  | _ => exact .inl hm

theorem noticed_step (hi : Inv s) (hn : Noticed s) (he : closed.exec s l = some s') : Noticed s' := by
  have hs := closed_step he
  obtain ⟨hkeep, hkeep'⟩ := step_contents hi hs
  have hnoted := exec_noted he
  refine ⟨?_, fun row hrow => ?_, fun m hm t status ht => ?_, fun m hm => ?_⟩
  · cases hnoted with
    | same h => rw [h]; exact hn.same_ids
    | stored delivered records processed notifications =>
      rw [Table.insert_rows processed, Table.insert_rows notifications, List.map_append, List.map_append,
        hn.same_ids]
      rfl
  · have hold : row ∈ s.notification.notifications.rows →
        ∃ m ∈ contents s'.booking.outbox, Records m.topic m.message row := by
      intro hrow
      obtain ⟨m, hm, hr⟩ := hn.recorded row hrow
      exact ⟨m, hkeep m hm, hr⟩
    cases hnoted with
    | same h => rw [h] at hrow; exact hold hrow
    | stored delivered records processed notifications =>
      rename_i consumer message row' now
      rw [Table.insert_rows notifications, List.mem_append, List.mem_singleton] at hrow
      rcases hrow with hrow | rfl
      · exact hold hrow
      · have htopic : bookingTopic consumer.topic = true := by
          rw [← records.topic]
          cases row.type <;> rfl
        obtain ⟨m, _, hm, hmt, hid, hp, _⟩ := hi.news delivered htopic
        refine ⟨m, hkeep m hm, ?_⟩
        have hmid : m.message.messageId = message.messageId := (hi.sound.enveloped m (.inl hm)).trans hid
        exact ⟨records.topic.trans hmt.symm, hmid ▸ records.messageId, hp ▸ records.bookingId, hp ▸ records.eventId,
          records.text, hp ▸ records.reason, records.failed⟩
  · have hold : (∃ a ∈ contents s.event.outbox, a.topic = t ∧ a.message.payload = m.message.payload) →
        ∃ a ∈ contents s'.event.outbox, a.topic = t ∧ a.message.payload = m.message.payload :=
      fun ⟨a, ha, h⟩ => ⟨a, hkeep' a ha, h⟩
    rcases step_sent hi hs hm with hm | hm
    · exact hold (hn.repeated m hm t status ht)
    · exact hold (hm.2 t status ht)
  · rcases step_sent hi hs hm with hm | hm
    · exact hn.canonical m hm
    · exact hm.1

theorem noticed_closed (h : closed.Reach s) : Noticed s := by
  refine Machine.Reach.inv ?_ ?_ h
  · intro s0 h0
    rw [show s0 = System.empty from h0]
    exact ⟨rfl, fun _ h => (by cases h), fun _ h => (by cases h), fun _ h => (by cases h)⟩
  · intro s l s' hr hn he
    exact noticed_step (inv_closed hr) hn he

end

/-! ## Notifications and bookings -/

structure Announced (s : System) (row : NotificationRow) (b : BookingRow) : Prop where
  booking : row.bookingId = b.id
  event : row.eventId = b.eventId
  status : expected b.status row.type.topic = 1
  text : row.message = row.type.text
  reason : row.reason.isSome = decide (row.type = .bookingFailed)
  answer : row.type = .bookingFailed → ∃ a, outcomesOf s b = [a] ∧ a.topic = .seatReservationFailed ∧
    a.message.payload.reason = row.reason

def notificationsOf (s : System) (b : BookingRow) (type : NotificationType) : List NotificationRow :=
  s.notification.notifications.rows.filter fun row => decide (row.bookingId = b.id) && decide (row.type = type)

def NewsConsumed (s : System) : Prop :=
  ∀ m ∈ contents s.booking.outbox, ∀ type : NotificationType, m.topic = type.topic →
    ∃ u, Uuid.cast m.messageId = .ok u ∧ u ∈ s.notification.processed.rows.map (·.messageId)

structure NotificationsTrue (s : System) : Prop where
  announced : ∀ row ∈ s.notification.notifications.rows, ∃ b ∈ s.booking.bookings.rows, Announced s row b
  once : ∀ b ∈ s.booking.bookings.rows, ∀ type, (notificationsOf s b type).length ≤ 1
  complete : NewsConsumed s → ∀ b ∈ s.booking.bookings.rows,
    (∀ r ∈ requestsOf s b, isCanonical r.message.payload.eventId = true) →
      ∀ type, (notificationsOf s b type).length = expected b.status type.topic

section
variable {s : System} (hi : Inv s) (hn : Noticed s)
include hi hn

theorem Noticed.source {row : NotificationRow} (hrow : row ∈ s.notification.notifications.rows) :
    ∃ m b, m ∈ contents s.booking.outbox ∧ Records m.topic m.message row ∧ b ∈ s.booking.bookings.rows ∧ Names m b ∧
      row.bookingId = b.id := by
  obtain ⟨m, hm, hr⟩ := hn.recorded row hrow
  obtain ⟨_, b, hb, hnames⟩ := hi.sound.sent m hm
  refine ⟨m, b, hm, hr, hb, hnames, ?_⟩
  have hcast := hr.bookingId
  rw [hnames.bookingId, Uuid.cast_text] at hcast
  exact (Except.ok.inj hcast).symm

theorem Noticed.row_unique {row row' : NotificationRow} (hrow : row ∈ s.notification.notifications.rows)
    (hrow' : row' ∈ s.notification.notifications.rows) (hb : row.bookingId = row'.bookingId)
    (ht : row.type = row'.type) :
    row = row' := by
  obtain ⟨m, b, hm, hr, hmem, hnames, hid⟩ := hn.source hi hrow
  obtain ⟨m', b', hm', hr', hmem', hnames', hid'⟩ := hn.source hi hrow'
  have hbb : b' = b := Table.key_inj hmem' hmem (hid'.symm.trans (hb.symm.trans hid))
  subst hbb
  obtain ⟨_, p, _, hj⟩ := hi.sound.journeys b' hmem
  have htopic : m.topic = m'.topic := by rw [← hr.topic, ← hr'.topic, ht]
  have hnodup := p.sent_nodup
  have hunique : ((tokens (contents s.booking.outbox) s.saga.taken b'.id.text).map Prod.fst).Nodup := by
    rw [show tokens (contents s.booking.outbox) s.saga.taken b'.id.text = _ from hj.sent]; exact hnodup _
  have hmm : m = m' := token_unique hunique hm hm' hnames.bookingId hnames'.bookingId htopic
  subst hmm
  have hmessage := Except.ok.inj (hr.messageId.symm.trans hr'.messageId)
  exact Table.unique_inj hrow hrow' rfl (congrArg some hmessage.symm)

theorem Noticed.announced {row : NotificationRow} (hrow : row ∈ s.notification.notifications.rows) :
    ∃ b ∈ s.booking.bookings.rows, Announced s row b := by
  obtain ⟨m, b, hm, hr, hb, hnames, hid⟩ := hn.source hi hrow
  obtain ⟨r, p, hreq, hj⟩ := hi.sound.journeys b hb
  have htoken := @mem_tokens _ s.saga.taken m hm
  rw [hnames.bookingId, show tokens (contents s.booking.outbox) _ _ = _ from hj.sent] at htoken
  refine ⟨b, hb, hid, ?_, ?_, hr.text, hr.failed, fun htype => ?_⟩
  · exact Except.ok.inj (hr.eventId.symm.trans hnames.eventId)
  · rw [hj.status]
    rw [← hr.topic] at htoken
    revert htoken
    generalize isCanonical r.message.payload.eventId = c
    cases row.type <;> cases p <;> cases c <;> simp [Phase.sent, NotificationType.topic, expected, Phase.status]
  · have hmt : m.topic = .bookingFailed := by rw [← hr.topic, htype]; rfl
    obtain ⟨a, ha, hat, hap⟩ := hn.repeated m hm .seatReservationFailed .failed (by rw [hmt]; rfl)
    have hmem : a ∈ outcomesOf s b := by
      refine List.mem_filter.mpr ⟨ha, decide_eq_true ?_⟩
      rw [hap]; exact hnames.bookingId
    have hanswer : (a.topic, decide (a.messageId ∈ s.saga.settled)) ∈ p.answers := by
      rw [← hj.answers]
      exact List.mem_map.mpr ⟨a, hmem, rfl⟩
    have hone : ∃ c, p.answers = [(Topic.seatReservationFailed, c)] := by
      rw [hat] at hanswer
      cases p <;> simp [Phase.answers] at hanswer ⊢
    obtain ⟨c, hc⟩ := hone
    obtain ⟨a', hl, _⟩ := hj.answer hc
    rw [show outcomesOf s b = [a'] from hl, List.mem_singleton] at hmem
    subst hmem
    exact ⟨a, hl, hat, by rw [hap, hr.reason]⟩

theorem Noticed.length_le (b : BookingRow) (type : NotificationType) : (notificationsOf s b type).length ≤ 1 := by
  have hnodup : (notificationsOf s b type).Nodup := (s.notification.notifications.key_nodup.of_map).filter _
  have hsame : ∀ x ∈ notificationsOf s b type, ∀ y ∈ notificationsOf s b type, x = y := by
    intro x hx y hy
    unfold notificationsOf at hx hy
    simp only [List.mem_filter, Bool.and_eq_true, decide_eq_true_eq] at hx hy
    exact hn.row_unique hi hx.1 hy.1 (hx.2.1.trans hy.2.1.symm) (hx.2.2.trans hy.2.2.symm)
  match hl : notificationsOf s b type with
  | [] => simp
  | [_] => simp
  | x :: y :: _ =>
    rw [hl] at hnodup hsame
    have := hsame x (by simp) y (by simp)
    simp [this] at hnodup

theorem Noticed.stored {m : StoredMessage} {b : BookingRow} {type : NotificationType}
    (hm : m ∈ contents s.booking.outbox) (ht : m.topic = type.topic) (hnames : Names m b)
    (hheard : ∃ u, Uuid.cast m.messageId = .ok u ∧ u ∈ s.notification.processed.rows.map (·.messageId)) :
    notificationsOf s b type ≠ [] := by
  obtain ⟨u, hu, hmem⟩ := hheard
  rw [hn.same_ids, List.mem_map] at hmem
  obtain ⟨row, hrow, rfl⟩ := hmem
  obtain ⟨m', b', hm', hr, _, hnames', hid⟩ := hn.source hi hrow
  have hids : m'.messageId = m.messageId := by
    obtain ⟨v, hv⟩ := hn.canonical m hm
    obtain ⟨v', hv'⟩ := hn.canonical m' hm'
    have hcast := hr.messageId
    rw [hi.sound.enveloped m' (.inl hm'), hv', Uuid.cast_text] at hcast
    rw [hv, Uuid.cast_text] at hu
    rw [hv, hv', Except.ok.inj hcast, Except.ok.inj hu]
  have hmm : m' = m := message_unique hi.sound.sent_ids hm hm' hids
  subst hmm
  have hbook : row.bookingId = b.id := by
    have hcast := hr.bookingId
    rw [hnames.bookingId, Uuid.cast_text] at hcast
    exact (Except.ok.inj hcast).symm
  have htype : row.type = type := NotificationType.topic_inj (hr.topic.trans ht)
  refine List.ne_nil_of_mem (a := row) ?_
  unfold notificationsOf
  rw [List.mem_filter, Bool.and_eq_true, decide_eq_true_eq, decide_eq_true_eq]
  exact ⟨hrow, hbook, htype⟩

end

theorem expected_le (status : BookingStatus) (t : Topic) : expected status t ≤ 1 := by
  cases status <;> cases t <;> decide

/-- Each notification is about a booking that took the way it tells of, no
booking is told of twice in one way, and once all news is heard every booking
of a canonical request has exactly the notifications of its status. -/
theorem notifications_true [Zod] {s : System} (h : closed.Reach s) : NotificationsTrue s := by
  have hi := inv_closed h
  have hn := noticed_closed h
  refine ⟨fun row hrow => hn.announced hi hrow, fun b _ type => hn.length_le hi b type,
    fun hheard b hb hc type => ?_⟩
  obtain ⟨r, p, hreq, hj⟩ := hi.sound.journeys b hb
  have hr : r ∈ requestsOf s b := by
    unfold requestsOf about
    rw [List.mem_filter, List.mem_filter]
    exact ⟨⟨hreq.mem, decide_eq_true hreq.names.bookingId⟩, decide_eq_true hreq.topic⟩
  have hcorr : Corresponds s b := hj.corresponds.mpr (.inl (hc r hr))
  have hle := hn.length_le hi b type
  by_cases hex : expected b.status type.topic = 1
  · have hlen := hcorr type.topic
    rw [hex, List.length_eq_one_iff] at hlen
    obtain ⟨m, hm⟩ := hlen
    have hmem : m ∈ about (contents s.booking.outbox) type.topic b.id.text := by
      rw [hm]; exact List.mem_singleton.mpr rfl
    unfold about at hmem
    rw [List.mem_filter, List.mem_filter] at hmem
    have hbook : m.message.payload.bookingId = b.id.text := of_decide_eq_true hmem.1.2
    obtain ⟨_, b', hb', hnames⟩ := hi.sound.sent m hmem.1.1
    have hbb : b' = b := by
      have := hnames.bookingId.symm.trans hbook
      exact Table.key_inj hb' hb (Uuid.text_inj.mp this)
    subst hbb
    have htopic : m.topic = type.topic := of_decide_eq_true hmem.2
    have hne := hn.stored hi hmem.1.1 htopic hnames (hheard m hmem.1.1 type htopic)
    have := List.length_pos_of_ne_nil hne
    omega
  · have hzero : expected b.status type.topic = 0 := by
      have := expected_le b.status type.topic
      omega
    rw [hzero, List.length_eq_zero_iff, List.eq_nil_iff_forall_not_mem]
    intro row hrow
    unfold notificationsOf at hrow
    simp only [List.mem_filter, Bool.and_eq_true, decide_eq_true_eq] at hrow
    obtain ⟨hrow, hid, htype⟩ := hrow
    obtain ⟨b', hb', ha⟩ := hn.announced hi hrow
    have hbb : b' = b := Table.key_inj hb' hb (ha.booking.symm.trans hid)
    have hone := ha.status
    rw [hbb, htype, hzero] at hone
    cases hone

/-! ## A sample run -/

def sampleNews : Message := (settlementOutbox .bookingConfirmed sampleReserved (sampleDraw 0 5 6 0 0)).message

def sampleAnnouncement : List Label :=
  sampleConfirmation ++
    [.dispatch .booking .bookingConfirmed sampleNews,
     .deliver .handleBookingConfirmed sampleNews (sampleDraw 7 0 0 0 0),
     .deliver .handleBookingConfirmed sampleNews (sampleDraw 9 0 0 0 0)]

theorem notifications_true_after_confirmation : ∃ s, (@closed zod4).run System.empty sampleAnnouncement = some s ∧
    (s.notification.notifications.rows.map fun row => (row.bookingId, row.message)) =
      [((sample 2).val, "Booking confirmed")] ∧ NotificationsTrue s := by
  have h : ((@closed zod4).run System.empty sampleAnnouncement).map (fun s =>
      s.notification.notifications.rows.map fun row => (row.bookingId, row.message)) =
        some [((sample 2).val, "Booking confirmed")] := by
    decide +kernel
  obtain ⟨s, hs, hview⟩ := Option.map_eq_some_iff.mp h
  exact ⟨s, hs, hview, @notifications_true zod4 s (Machine.Reach.run (.start rfl) hs)⟩

end EventBooking
