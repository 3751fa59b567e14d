import EventBooking.Redelivery
import EventBooking.Transport

/-!
# The services come to rest over Kafka

Records can only be read in the order of their partitions, some of them for the
second time. Still every record that is read leaves less to do: a repeated one
is passed over and changes nothing, a new one is handled. With a dispatcher for
each service all rows are sent and all partitions read to their ends.
-/

namespace EventBooking
open Lib

/-! ## Handlers that nothing disturbs -/

theorem returned_of_thrown {α : Type} {r : Except DbError α} (h : thrown r = false) :
    dbReply (r.map fun _ => ()) = .ok () := by
  cases r with
  | ok a => rfl
  | error e => cases h

theorem repeated_returns {δ β : Type} {table : δ → Table processedSchema} {set : δ → Table processedSchema → δ}
    {messageId : String} {now : Date} {dup : β} {k : Unit → Tx δ β} {d : δ} (h : messageId ∈ inbox (table d)) :
    Tx.transact (Tx.tryInsert (Tx.stmt (insertInto table set ⟨messageId, now⟩ ())) dup k) none d = (.ok dup, d) :=
  Tx.transact_refused (insertInto_error.mpr ⟨rfl, fun hf => processed_fresh.mp hf h⟩)

/-- Casts that succeed leave only the keys to refuse the rows, and that is answered as a duplicate. -/
theorem append_returns {record : NotificationRecord} {u c b e : Uuid} (hu : Uuid.cast record.messageId = .ok u)
    (hc : Uuid.cast record.correlationId = .ok c) (hb : Uuid.cast record.bookingId = .ok b)
    (he : Uuid.cast record.eventId = .ok e) (id : RandomUUID) (now : Date) (d : NotificationDb) :
    dbReply ((appendIfUnprocessed record id now none d).1.map fun _ => ()) = .ok () := by
  have hregular : Tx.Regular (appendTx record id now) :=
    Tx.regular_bind (Tx.regular_stmt _) fun _ => Tx.regular_stmt _
  unfold appendIfUnprocessed
  cases ht : Tx.transact (appendTx record id now) none d with
  | mk r d' =>
    cases r with
    | ok a => rfl
    | error err =>
      have hf : Tx.Fails (appendTx record id now) d err := (Tx.transact_fails hregular).mp (by rw [ht])
      unfold appendTx at hf
      rw [Tx.fails_bind (Tx.regular_stmt _), Tx.fails_stmt] at hf
      have hunique : err = .uniqueViolation := by
        rcases hf with hf | ⟨_, m, _, hf⟩
        · unfold processedNotificationMessageCreate at hf
          rw [hu] at hf
          simp only [bind, Except.bind] at hf
          exact (insertInto_error.mp hf).1
        · rw [Tx.fails_stmt] at hf
          unfold notificationCreate NotificationRecord.row at hf
          rw [hu, hc, hb, he] at hf
          simp only [bind, Except.bind, pure, Except.pure] at hf
          exact (insertInto_error.mp hf).1
      rw [hunique]; rfl

section
variable {s s' : System} {group : Group} {topic : Topic} {consumer : Consumer} {message : Message} {draw : Draw}

theorem reply_of_commits (h : s.aborts consumer message draw = false) : s.reply consumer message draw = .ok () := by
  unfold System.aborts at h
  unfold System.reply
  split <;> rename_i hp <;> simp only [hp] at h
  case h_2 =>
    obtain ⟨hcheck, hthrown⟩ := Bool.or_eq_false_iff.mp h
    split
    · rename_i hc; rw [hc] at hcheck; cases hcheck
    · exact returned_of_thrown hthrown
  all_goals first | exact returned_of_thrown h | rfl

theorem repeated_reply (hg : group.consumer topic = some consumer) (hsaga : group ≠ .notificationService)
    (hb : draw.budget = none) (hq : ∀ p, message.payload = .bookingEventQuantity p → 0 < p.quantity)
    (hrec : s.recorded group message) : s.reply consumer message draw = .ok () := by
  unfold System.reply
  rw [hb]
  generalize message.payload = payload at hq
  have hreturn : ∀ {δ β : Type} {r : Except DbError β × δ} {b : β} {d : δ}, r = (.ok b, d) →
      dbReply (r.1.map fun _ => ()) = .ok () := by
    intro δ β r b d h
    rw [h]; rfl
  cases group with
  | bookingService =>
    cases topic <;> cases hg <;> cases payload <;> first | rfl | exact hreturn (repeated_returns hrec)
  | eventService =>
    cases topic with
    | reserveSeats => cases hg; cases payload <;> first | rfl | exact hreturn (repeated_returns hrec)
    | bookingCancelled =>
      cases hg
      cases payload with
      | bookingEventQuantity p =>
        have hpositive : 0 < (message.map fun _ => p).payload.quantity := hq p rfl
        simp only [releaseSeatsCheck_ok hpositive]
        exact hreturn (repeated_returns hrec)
      | _ => rfl
    | _ => cases hg
  | notificationService => exact absurd rfl hsaga

theorem recorded_iff_committed (hg : group.consumer topic = some consumer) :
    s.recorded group message ↔ s.committed message.messageId consumer.inbox = true := by
  cases group with
  | bookingService =>
    cases topic <;> cases hg <;>
      exact (decide_eq_true_iff (p := message.messageId ∈ inbox s.booking.processed)).symm
  | eventService =>
    cases topic <;> cases hg <;> exact (decide_eq_true_iff (p := message.messageId ∈ inbox s.event.processed)).symm
  | notificationService =>
    have h : s.recorded .notificationService message ↔
        s.committed message.messageId .processedNotificationMessages = true := by
      simp only [System.recorded, System.committed, List.any_eq_true, decide_eq_true_eq, List.mem_map]
      constructor
      · intro h
        obtain ⟨_, hu, r, hr, rfl⟩ := h
        exact ⟨r, hr, hu⟩
      · intro h
        obtain ⟨r, hr, hu⟩ := h
        exact ⟨_, hu, r, hr, rfl⟩
    cases topic <;> cases hg <;> exact h

theorem deliver_news (hg : Group.notificationService.consumer topic = some consumer)
    (hd : s.deliver consumer message draw = some s') : ∃ record, s' = s.notify record draw := by
  unfold System.deliver at hd
  generalize message.payload = payload at hd
  cases topic <;> cases hg <;> cases payload <;> cases hd <;> exact ⟨_, rfl⟩

theorem deliver_saga (hg : group.consumer topic = some consumer) (hsaga : group ≠ .notificationService)
    (hd : s.deliver consumer message draw = some s') : s'.notification = s.notification := by
  have hreserve : ∀ p : MessageEnvelope ReserveSeatsPayload,
      (s.reserveSeats p draw).notification = s.notification := by
    intro p
    unfold System.reserveSeats
    split <;> rfl
  have hrelease : ∀ p : MessageEnvelope BookingEventQuantityPayload,
      (s.releaseSeats p draw).notification = s.notification := by
    intro p
    unfold System.releaseSeats
    split
    · rfl
    · split <;> rfl
  unfold System.deliver at hd
  generalize message.payload = payload at hd
  cases group with
  | bookingService => cases topic <;> cases hg <;> cases payload <;> cases hd <;> rfl
  | eventService =>
    cases topic <;> cases hg <;> cases payload <;> cases hd
    · exact hreserve _
    · exact hrelease _
  | notificationService => exact absurd rfl hsaga

end

section
variable [Zod] {s : System} (h : closed.Reach s) {topic : Topic} {message : Message}
    (hm : (topic, message) ∈ s.published)
include h hm

/-- The ids in the news are those of stored rows, and drawn ones. -/
theorem news_reply {consumer : Consumer} (hg : Group.notificationService.consumer topic = some consumer)
    {draw : Draw} (hb : draw.budget = none) : s.reply consumer message draw = .ok () := by
  have hi := inv_closed h
  have htopic : bookingTopic topic = true := by cases topic <;> cases hg <;> rfl
  obtain ⟨x, _, hx, _, hid, hp, _⟩ := hi.news (decide_eq_true hm) htopic
  obtain ⟨u, hu⟩ := (noticed_closed h).canonical x hx
  obtain ⟨b, _, hbooking, hcorrelation⟩ := published_booking h hm
  obtain ⟨_, b', _, hnames⟩ := hi.sound.sent x hx
  have hmessageId : Uuid.cast message.messageId = .ok u := by rw [← hid, hu]; exact Uuid.cast_text u
  have hcorrelationId : Uuid.cast message.correlationId = .ok b.id := by rw [hcorrelation]; exact Uuid.cast_text _
  have hbookingId : Uuid.cast message.payload.bookingId = .ok b.id := by rw [hbooking]; exact Uuid.cast_text _
  have heventId : Uuid.cast message.payload.eventId = .ok b'.eventId := by rw [← hp]; exact hnames.eventId
  have hreturn : ∀ {record : NotificationRecord}, record.messageId = message.messageId →
      record.correlationId = message.correlationId → record.bookingId = message.payload.bookingId →
      record.eventId = message.payload.eventId →
      dbReply ((appendIfUnprocessed record draw.id draw.now none s.notification).1.map fun _ => ()) = .ok () := by
    intro record h1 h2 h3 h4
    exact append_returns (h1 ▸ hmessageId) (h2 ▸ hcorrelationId) (h3 ▸ hbookingId) (h4 ▸ heventId) _ _ _
  unfold System.reply
  rw [hb]
  generalize message.payload = payload at hreturn
  cases topic with
  | bookingConfirmed =>
    cases hg
    cases payload with
    | bookingEventQuantity p => exact hreturn rfl rfl rfl rfl
    | _ => rfl
  | bookingFailed =>
    cases hg
    cases payload with
    | failure p => exact hreturn rfl rfl rfl rfl
    | _ => rfl
  | bookingCancelled =>
    cases hg
    cases payload with
    | bookingEventQuantity p => exact hreturn rfl rfl rfl rfl
    | _ => rfl
  | _ => cases hg

theorem group_handled {group : Group} {consumer : Consumer} (hg : group.consumer topic = some consumer)
    (hsaga : group ≠ .notificationService) {draw : Draw} (hd : Undisturbed s draw)
    (hnew : ¬ s.recorded group message) :
    ∃ service m, m ∈ contents (s.outbox (Service.peer service)) ∧ 0 < m.topic.causes ∧
      m.messageId ∉ s.inbox service ∧ ∃ s', closed.exec s (.deliver consumer message draw) = some s' ∧
      ∃ answer, Handled s s' service m draw answer := by
  have hi := inv_closed h
  have hc := conforming_opened (opened_of_closed h)
  have hf := fits_closed h
  have hdelivered : delivered s topic message = true := decide_eq_true hm
  obtain ⟨x, hx, ht, hid, _⟩ := hi.published _ hm
  have hid : x.messageId = message.messageId := hid
  have hside : x ∈ contents s.booking.outbox ∧ bookingTopic topic = true ∨
      x ∈ contents s.event.outbox ∧ bookingTopic topic = false := by
    rw [← show x.topic = topic from ht]
    exact hx.imp (fun hx => ⟨hx, (hi.sound.sent x hx).1⟩) fun hx => ⟨hx, (hi.sound.answered x hx).1⟩
  cases group with
  | bookingService =>
    have hfalse : bookingTopic topic = false := by cases topic <;> cases hg <;> rfl
    have hx : x ∈ contents s.event.outbox := by
      rcases hside with hx | hx
      · rw [hfalse] at hx; cases hx.2
      · exact hx.1
    have hsettlement : ∃ o, settlement consumer.topic = some o := by cases topic <;> cases hg <;> exact ⟨_, rfl⟩
    obtain ⟨⟨status, answer⟩, ho⟩ := hsettlement
    have htopic := Group.consumer_topic hg
    refine ⟨.booking, x, hx, ?_, hid ▸ hnew,
      settle_handled hi hc hf hd ho (htopic ▸ ht) hid (htopic ▸ hdelivered) hnew⟩
    rw [show x.topic = topic from ht]
    cases topic <;> cases hg <;> decide
  | eventService =>
    have htrue : bookingTopic topic = true := by cases topic <;> cases hg <;> rfl
    have hx : x ∈ contents s.booking.outbox := by
      rcases hside with hx | hx
      · exact hx.1
      · rw [htrue] at hx; cases hx.2
    cases topic with
    | reserveSeats =>
      cases hg
      exact ⟨.event, x, hx, ht ▸ Nat.zero_lt_succ _, hid ▸ hnew,
        reserve_handled hi hc hf hd ht hid hdelivered hnew⟩
    | bookingCancelled =>
      cases hg
      exact ⟨.event, x, hx, ht ▸ Nat.zero_lt_succ _, hid ▸ hnew,
        release_handled hi hc hf hd hid hdelivered hnew⟩
    | _ => cases hg
  | notificationService => exact absurd rfl hsaga

end

/-! ## What is left to consume -/

def System.news (s : System) : Nat :=
  ((contents s.booking.outbox).map fun m =>
    if m.topic ∈ Group.notificationService.topics ∧ s.committed m.messageId .processedNotificationMessages = false
    then 1 else 0).sum

/-- No more new messages than this will be consumed. -/
def System.due (s : System) : Nat := 2 * s.work + s.news

section
variable {s s' : System} {service : Service} {m : StoredMessage} {draw : Draw} {answer : Option OutboxRow}

theorem news_congr (hc : contents s'.booking.outbox = contents s.booking.outbox)
    (hn : s'.notification = s.notification) :
    s'.news = s.news := by
  unfold System.news System.committed
  rw [hc, hn]

theorem handled_due (h : Handled s s' service m draw answer) (hn : s'.notification = s.notification)
    (hm : m ∈ contents (s.outbox service.peer)) (hw : 0 < m.topic.causes) (hnew : m.messageId ∉ s.inbox service) :
    s'.due < s.due := by
  have hwork := (h.effort hm hw hnew).1
  have hnews : s'.news ≤ s.news + 1 := by
    cases service with
    | booking =>
      have hcontents : contents s'.booking.outbox =
          contents s.booking.outbox ++ answer.toList.map OutboxRow.content :=
        h.contents
      unfold System.news System.committed
      rw [hcontents, hn, List.map_append, List.sum_append]
      refine Nat.add_le_add_left ?_ _
      cases answer with
      | none => exact Nat.zero_le _
      | some r =>
        simp only [Option.toList_some, List.map_cons, List.map_nil, List.sum_singleton]
        split <;> omega
    | event =>
      have hcontents : contents s'.booking.outbox = contents s.booking.outbox := congrArg contents h.other_outbox
      rw [news_congr hcontents hn]; exact Nat.le_succ _
  unfold System.due
  omega

theorem news_lt (hc : contents s'.booking.outbox = contents s.booking.outbox)
    (hkeep : ∀ r ∈ s.notification.processed.rows, r ∈ s'.notification.processed.rows)
    (hm : m ∈ contents s.booking.outbox) (ht : m.topic ∈ Group.notificationService.topics)
    (hnew : s.committed m.messageId .processedNotificationMessages = false)
    (hdone : s'.committed m.messageId .processedNotificationMessages = true) : s'.news < s.news := by
  have hkept : ∀ id, s.committed id .processedNotificationMessages = true →
      s'.committed id .processedNotificationMessages = true := by
    intro id h
    obtain ⟨r, hr, hid⟩ := List.any_eq_true.mp h
    exact List.any_eq_true.mpr ⟨r, hkeep r hr, hid⟩
  unfold System.news
  rw [hc]
  refine List.sum_lt_sum _ _ (fun x _ => ?_) ⟨m, hm, ?_⟩
  · by_cases hx : s.committed x.messageId .processedNotificationMessages = true
    · rw [if_neg fun hno => by rw [hkept _ hx] at hno; cases hno.2]
      exact Nat.zero_le _
    · split
      · rename_i hx'
        rw [if_pos ⟨hx'.1, Bool.eq_false_iff.mpr hx⟩]
      · exact Nat.zero_le _
  · rw [if_neg fun hno => (by rw [hdone] at hno; cases hno.2), if_pos ⟨ht, hnew⟩]
    exact Nat.zero_lt_one

end

/-! ## Draws to spare -/

structure Spare (s : System) (draws : List Draw) : Prop where
  supply : Supply s draws
  unused : ∀ draw ∈ draws, draw.id.val ∉ s.notification.notifications.rows.map (·.id)
  distinct : draws.Pairwise fun a b => a.id.val ≠ b.id.val

section
variable {s s' : System} {draw : Draw} {draws : List Draw}

theorem Spare.congr (h : Spare s draws) (hids : s'.identifiers = s.identifiers)
    (hn : s'.notification = s.notification) :
    Spare s' draws :=
  ⟨h.supply.congr hids, fun d hd => by rw [hn]; exact h.unused d hd, h.distinct⟩

theorem Spare.handled {service : Service} {m : StoredMessage} {answer : Option OutboxRow}
    (h : Spare s (draw :: draws)) (hd : Handled s s' service m draw answer)
    (hn : s'.notification = s.notification) : Spare s' draws :=
  ⟨h.supply.handled hd, fun d hd => by rw [hn]; exact h.unused d (List.mem_cons_of_mem _ hd),
    (List.pairwise_cons.mp h.distinct).2⟩

theorem Spare.notified (h : Spare s (draw :: draws)) (record : NotificationRecord) :
    Spare (s.notify record draw) draws := by
  obtain ⟨hdistinct, hrest⟩ := List.pairwise_cons.mp h.distinct
  have hsupply : Supply (s.notify record draw) draws :=
    ⟨fun d hd => ⟨(h.supply.undisturbed d (List.mem_cons_of_mem _ hd)).budget,
      (h.supply.undisturbed d (List.mem_cons_of_mem _ hd)).unused⟩, (List.pairwise_cons.mp h.supply.apart).2⟩
  refine ⟨hsupply, fun d hd hmem => ?_, hrest⟩
  have hunused := h.unused d (List.mem_cons_of_mem _ hd)
  unfold System.notify at hmem
  cases ha : appendIfUnprocessed record draw.id draw.now draw.budget s.notification with
  | mk r notification =>
    rw [ha] at hmem
    rcases appendIfUnprocessed_cases ha with hc | hc
    · exact hunused (hc.1 ▸ hmem)
    · obtain ⟨row, _, hrow, happended⟩ := hc
      simp only [Table.insert_rows happended.notifications, List.map_append, List.mem_append,
        List.map_cons, List.map_nil, List.mem_singleton] at hmem
      rcases hmem with hmem | hmem
      · exact hunused hmem
      · rw [NotificationRecord.row_id hrow] at hmem
        exact hdistinct d hd hmem.symm

end

/-! ## Reading one record -/

structure Consumes (worker : Service → String) (s s' : System) (consumer : Consumer) (message : Message)
    (draw : Draw) (draws : List Draw) : Prop where
  reply : s.reply consumer message draw = .ok ()
  recoverable : Recoverable worker s → Recoverable worker s'
  effort : s'.effort worker ≤ s.effort worker
  spare : s.due < (draw :: draws).length → ∃ draws', Spare s' draws' ∧ s'.due < draws'.length

section
variable [Zod] {s s' : System} (h : closed.Reach s) {group : Group} {topic : Topic} {consumer : Consumer}
  {message : Message} {draw : Draw} {draws : List Draw} (hg : group.consumer topic = some consumer)
  (hm : (topic, message) ∈ s.published)
  (hspare : Spare s (draw :: draws)) (he : closed.exec s (.deliver consumer message draw) = some s')
include h hg hm hspare he

theorem repeated_consumes (worker : Service → String) (hrec : s.recorded group message) :
    Consumes worker s s' consumer message draw draws := by
  have hbudget := (hspare.supply.undisturbed draw List.mem_cons_self).budget
  have hredundant : redundant s (.deliver consumer message draw) = true :=
    Bool.or_eq_true_iff.mpr (.inr ((recorded_iff_committed hg).mp hrec))
  obtain rfl : s' = s := redundant_idle hredundant he
  refine ⟨?_, id, Nat.le_refl _, fun hdue => ⟨_, hspare, hdue⟩⟩
  by_cases hsaga : group = .notificationService
  · subst hsaga
    exact news_reply h hm hg hbudget
  · refine repeated_reply hg hsaga hbudget (fun p hp => ?_) hrec
    have hschema := (conforming_opened (opened_of_closed h)).published _ hm
    rw [← map_payload_eq hp] at hschema
    exact (bookingEventQuantity_parts hschema).2.2

theorem handled_consumes (worker : Service → String) (hsaga : group ≠ .notificationService)
    (hnew : ¬ s.recorded group message) : Consumes worker s s' consumer message draw draws := by
  obtain ⟨_, hdeliver⟩ := Option.ite_none_right_eq_some.mp he
  have hn := deliver_saga hg hsaga hdeliver
  obtain ⟨service, m, hmem, hcauses, hmnew, s'', he', answer, hh⟩ :=
    group_handled h hm hg hsaga (hspare.supply.undisturbed draw List.mem_cons_self) hnew
  obtain rfl : s'' = s' := Option.some.inj (he'.symm.trans he)
  have hcommits : s.aborts consumer message draw = false := by
    rw [← Bool.not_eq_true]
    intro ha
    have hinbox := hh.inbox
    rw [deliver_aborts ha hdeliver] at hinbox
    have := congrArg List.length hinbox
    rw [List.length_append, List.length_singleton] at this
    omega
  refine ⟨reply_of_commits hcommits, handled_recoverable hh, ((hh.effort hmem hcauses hmnew).2 worker).le,
    fun hdue => ⟨draws, hspare.handled hh hn, ?_⟩⟩
  have := handled_due hh hn hmem hcauses hmnew
  rw [List.length_cons] at hdue
  omega

theorem news_consumes (worker : Service → String) (hgroup : group = .notificationService)
    (hnew : ¬ s.recorded group message) : Consumes worker s s' consumer message draw draws := by
  subst hgroup
  have hi := inv_closed h
  have hreply := news_reply h hm hg (hspare.supply.undisturbed draw List.mem_cons_self).budget
  obtain ⟨_, hdeliver⟩ := Option.ite_none_right_eq_some.mp he
  have hdone := reply_recorded hg (noticed_closed h).same_ids
    (hspare.unused draw List.mem_cons_self) hdeliver hreply
  have hkeep := (step_remembers (closed_step he)).notification
  have htopic : bookingTopic topic = true := by cases topic <;> cases hg <;> rfl
  obtain ⟨x, _, hx, hxt, hid, _, _⟩ := hi.news (decide_eq_true hm) htopic
  have hinbox : consumer.inbox = .processedNotificationMessages := by cases topic <;> cases hg <;> rfl
  rw [recorded_iff_committed hg, hinbox, ← hid] at hnew hdone
  obtain ⟨record, rfl⟩ := deliver_news hg hdeliver
  have hlt : (s.notify record draw).news < s.news := by
    refine news_lt rfl hkeep hx ?_ (Bool.eq_false_iff.mpr hnew) hdone
    rw [hxt]
    cases topic <;> cases hg <;> decide
  refine ⟨hreply, fun hrec service => ?_, Nat.le_refl _, fun hdue => ⟨draws, hspare.notified record, ?_⟩⟩
  · cases service with
    | booking => exact hrec .booking
    | event => exact hrec .event
  · have hwork : (s.notify record draw).work = s.work := rfl
    unfold System.due at hdue ⊢
    rw [List.length_cons] at hdue
    omega

theorem read_consumes (worker : Service → String) : Consumes worker s s' consumer message draw draws := by
  by_cases hrec : s.recorded group message
  · exact repeated_consumes h hg hm hspare he worker hrec
  · by_cases hgroup : group = .notificationService
    · exact news_consumes h hg hm hspare he worker hgroup hrec
    · exact handled_consumes h hg hm hspare he worker hgroup hrec

end

/-! ## What is left to read -/

def subscriptions : List (Group × Topic) :=
  [Group.bookingService, .eventService, .notificationService].flatMap fun group =>
    group.topics.map fun topic => (group, topic)

theorem mem_subscriptions {group : Group} {topic : Topic} (h : topic ∈ group.topics) :
    (group, topic) ∈ subscriptions := by
  cases group <;> cases topic <;> first | decide | exact absurd h (by decide)

def Transport.unread (t : Transport) (partitions : Nat) : Nat :=
  (subscriptions.map fun s =>
    PartitionLog.lag (Finset.range partitions) (fun p => (t.logs s.2 p).length) (t.position s.1 s.2)).sum

/-- No topic has more than two groups that read it. -/
theorem unread_publish (client : Client) (t : Transport) (topic : Topic) (message : Message) (partitions : Nat) :
    (t.publish client topic message).unread partitions ≤ t.unread partitions + 2 := by
  have hgrow : ∀ s : Group × Topic,
      PartitionLog.lag (Finset.range partitions) (fun p => ((t.publish client topic message).logs s.2 p).length)
          (t.position s.1 s.2) ≤
        PartitionLog.lag (Finset.range partitions) (fun p => (t.logs s.2 p).length) (t.position s.1 s.2) +
          if s.2 = topic then 1 else 0 := by
    intro s
    split
    · refine PartitionLog.lag_append (i := client.partitioner message.correlationId) fun p => ?_
      rw [publish_logs, List.length_append]
      split <;> split <;> simp_all
    · rename_i hother
      refine (congrArg (PartitionLog.lag _ · _) (funext fun p => ?_)).le
      rw [publish_logs, if_neg fun hc => hother hc.1, List.append_nil]
  have htwo : (subscriptions.map fun s => if s.2 = topic then 1 else 0).sum ≤ 2 := by
    cases topic <;> decide
  calc (t.publish client topic message).unread partitions
      ≤ (subscriptions.map fun s => PartitionLog.lag (Finset.range partitions) (fun p => (t.logs s.2 p).length)
          (t.position s.1 s.2) + if s.2 = topic then 1 else 0).sum := List.sum_le_sum fun s _ => hgrow s
    _ ≤ t.unread partitions + 2 := by
      rw [List.sum_map_add]
      exact Nat.add_le_add_left htwo _

theorem unread_advance {t : Transport} {group : Group} {topic : Topic} {partition partitions : Nat}
    (ht : topic ∈ group.topics) (hp : partition < partitions)
    (hlt : t.position group topic partition < (t.logs topic partition).length) :
    (t.setPosition group topic partition (t.position group topic partition + 1)).unread partitions <
      t.unread partitions := by
  have hpos := setPosition_position t group topic partition (t.position group topic partition + 1)
  refine List.sum_lt_sum _ _ (fun s _ => ?_) ⟨(group, topic), mem_subscriptions ht, ?_⟩
  · refine Finset.sum_le_sum fun p _ => ?_
    rw [hpos]
    split
    · rename_i hc
      obtain ⟨hg, hs, rfl⟩ := hc
      rw [hg, hs]; exact Nat.sub_le_sub_left (Nat.le_succ _) _
    · exact Nat.le_refl _
  · refine PartitionLog.lag_advance (i := partition) (Finset.mem_range.mpr hp) hlt ?_ fun p hne => ?_
    · rw [hpos, if_pos ⟨rfl, rfl, rfl⟩]; exact Nat.lt_succ_self _
    · rw [hpos, if_neg fun hc => hne hc.2.2]

/-! ## Reading on -/

/-- Only the dispatchers, and polls on connections that hold. -/
def Draining (worker : Service → String) (t : Transport) : TransportLabel → Prop
  | .step (.deliver _ _ _) => False
  | .step l => Recovering worker t.system l
  | .poll _ _ _ draw _ rest deadLetter => draw.budget = none ∧ rest = none ∧ deadLetter = none
  | .rewind _ _ _ _ => False

structure Drainable [Zod] (client : Client) (worker : Service → String) (start : System)
    (t : Transport) : Prop where
  carried : Carried client t
  recoverable : Recoverable worker t.system
  spare : ∃ draws, Spare t.system draws ∧ t.system.due < draws.length
  progress : Progress start t.system

def Transport.load (t : Transport) (worker : Service → String) (partitions : Nat) : Nat :=
  3 * t.system.effort worker + t.unread partitions

section
variable [Zod] {client : Client} {worker : Service → String} {start : System} {t : Transport}
  (h : Drainable client worker start t) {partitions : Nat}
include h

theorem dispatched_step {l : Label} {system : System} (hd : Dispatched worker t.system l system) :
    ∃ l' t', Draining worker t l' ∧ (kafka client).exec t l' = some t' ∧ Drainable client worker start t' ∧
      t'.load worker partitions < t.load worker partitions := by
  have hexec : (kafka client).exec t (.step l) = some (({ t with system } : Transport).publishes client l) := by
    have he : System.exec delivered t.system l = some system := hd.exec
    cases l with
    | deliver consumer message draw => exact absurd rfl (hd.undelivered consumer message draw)
    | bookkeep service op =>
      obtain rfl := Option.some.inj he
      rfl
    | _ => exact congrArg (Option.map _) he
  have hsystem : (({ t with system } : Transport).publishes client l).system = system := by cases l <;> rfl
  have hunread : (({ t with system } : Transport).publishes client l).unread partitions ≤
      t.unread partitions + 2 := by
    cases l with
    | dispatch service topic message => exact unread_publish client { t with system } topic message partitions
    | publishDirect publish =>
      exact unread_publish client { t with system } publish.topic publish.message partitions
    | _ => exact Nat.le_add_right _ 2
  obtain ⟨draws, hspare, hdue⟩ := h.spare
  have hdue' : system.due = t.system.due := by
    unfold System.due
    rw [hd.work, news_congr hd.contents hd.notification]
  refine ⟨.step l, _, ?_, hexec, ⟨carried_step (l := .step l) h.carried trivial hexec, ?_, ⟨draws, ?_, ?_⟩, ?_⟩, ?_⟩
  · cases l with
    | deliver consumer message draw => exact absurd rfl (hd.undelivered consumer message draw)
    | _ => exact hd.allowed
  · rw [hsystem]; exact hd.recoverable
  · rw [hsystem]; exact hspare.congr hd.identifiers hd.notification
  · rw [hsystem, hdue']; exact hdue
  · rw [hsystem]
    have hrun : closed.run t.system [l] = some system := Machine.run_cons_some.mpr ⟨system, hd.exec, rfl⟩
    exact h.progress.trans (run_progress h.carried.reached hrun)
  · have := hd.effort
    unfold Transport.load
    rw [hsystem]
    omega

theorem poll_step (hpart : ∀ key, client.partitioner key < partitions) {group : Group} {topic : Topic}
    {partition : Nat} (ht : topic ∈ group.topics)
    (hlt : t.position group topic partition < (t.logs topic partition).length) :
    ∃ l' t', Draining worker t l' ∧ (kafka client).exec t l' = some t' ∧ Drainable client worker start t' ∧
      t'.load worker partitions < t.load worker partitions := by
  obtain ⟨draws, hspare, hdue⟩ := h.spare
  cases draws with
  | nil => exact absurd hdue (Nat.not_lt_zero _)
  | cons draw draws =>
    have hr : (t.logs topic partition)[t.position group topic partition]? = some _ := List.getElem?_eq_getElem hlt
    have hmem := List.mem_of_getElem? hr
    obtain ⟨consumer, m, system, hp, hconsume⟩ := h.carried.polled draw ht hmem
    have hread := read_consumes h.carried.reached hp.subscribed hp.published hspare hp.exec worker
    have hok : (t.system.handler client.errorText group draw none topic m).isOk = true := by
      unfold System.handler
      simp only [hp.subscribed, hread.reply]; rfl
    have hexec : (kafka client).exec t (.poll group topic partition draw 0 none none) = some
        (({ t with system } : Transport).setPosition group topic partition
            (t.position group topic partition + 1)) := by
      refine (dif_pos ht).trans ?_
      rw [hr, Option.map_some, hconsume none _ 0, if_pos hok]
    have hpartition : partition < partitions := by
      obtain ⟨_, _, _, _, rfl⟩ := h.carried.logged.records topic partition _ hmem
      exact hpart _
    refine ⟨.poll group topic partition draw 0 none none, _,
      ⟨(hspare.supply.undisturbed draw List.mem_cons_self).budget, rfl, rfl⟩, hexec,
      ⟨carried_step (l := .poll group topic partition draw 0 none none) h.carried
        (hspare.unused draw List.mem_cons_self) hexec, hread.recoverable h.recoverable,
        hread.spare hdue, ?_⟩, ?_⟩
    · have hrun : closed.run t.system [.deliver consumer m draw] = some system :=
        Machine.run_cons_some.mpr ⟨system, hp.exec, rfl⟩
      exact h.progress.trans (run_progress h.carried.reached hrun)
    · have hunread := unread_advance (t := { t with system }) ht hpartition hlt
      have heffort : system.effort worker ≤ t.system.effort worker := hread.effort
      have hsame : ({ t with system } : Transport).unread partitions = t.unread partitions := rfl
      exact Nat.add_lt_add_of_le_of_lt (Nat.mul_le_mul_left 3 heffort) hunread

theorem drain_step (hpart : ∀ key, client.partitioner key < partitions) (hc : ¬ CaughtUp t) :
    ∃ l' t', Draining worker t l' ∧ (kafka client).exec t l' = some t' ∧ Drainable client worker start t' ∧
      t'.load worker partitions < t.load worker partitions := by
  by_cases hsent : ∀ service, ∀ m ∈ contents (t.system.outbox service), (m.topic, m.message) ∈ t.system.published
  · by_cases hread : ∀ group, ∀ topic ∈ Group.topics group, ∀ p, (t.logs topic p).length ≤ t.position group topic p
    · exact absurd ⟨hsent, hread⟩ hc
    · simp only [not_forall, not_le] at hread
      obtain ⟨group, topic, ht, p, hlt⟩ := hread
      exact poll_step h hpart ht hlt
  · simp only [not_forall] at hsent
    obtain ⟨service, m, hm, hp⟩ := hsent
    obtain ⟨l, system, hd⟩ := unsent_dispatched h.recoverable hm hp
    exact dispatched_step h hd

end

def sentTwice : List TransportLabel :=
  let request := Label.dispatch .booking .reserveSeats (sampleRequest.map .reserveSeats)
  abandonedRequest.map .step ++ [.step request, .step request]

def spareDraws : List Draw := [5, 6, 7, 8, 9].map fun n => sampleDraw n n n n n

def drainingView (t : Transport) : Nat × List Nat × Bool × Bool :=
  (t.system.due, [(t.logs .reserveSeats 1).length, t.system.event.outbox.rows.length,
    t.system.notification.notifications.rows.length], t.system.booking.outbox.rows.all OutboxRow.awaiting,
    (spareDraws.flatMap Draw.identifiers).all fun id => !t.system.identifiers.contains id)

end EventBooking
