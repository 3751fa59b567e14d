import EventBooking.Journey

/-!
# The booking saga

The abstract view of the two services: the bookings, what each outbox has ever
held, what each inbox has consumed and the history of the seats. A saga moves
by starting a booking's journey or by taking one booking to its next phase;
`Sound` is kept by both moves.
-/

namespace EventBooking
open Lib

structure Saga where
  bookings : Table bookingSchema
  sent : List StoredMessage
  answered : List StoredMessage
  taken : List String
  settled : List String
  changes : List SeatChange

def Saga.start : Saga := ⟨.empty, [], [], [], [], []⟩

/-- The tables show the booking in this phase. -/
structure Journey (g : Saga) (b : BookingRow) (canonical : Bool) (p : Phase) : Prop where
  status : b.status = p.status
  sent : tokens g.sent g.taken b.id.text = p.sent canonical
  answers : tokens g.answered g.settled b.id.text = p.answers
  applied : appliedTo g.changes b.id.text = p.applied

structure Names (m : StoredMessage) (b : BookingRow) : Prop where
  bookingId : m.message.payload.bookingId = b.id.text
  eventId : Uuid.cast m.message.payload.eventId = .ok b.eventId
  quantity : ∀ q, m.message.payload.quantity = some q → q = b.quantity

structure Answers (m r : StoredMessage) : Prop where
  request : r.topic = .reserveSeats
  bookingId : m.message.payload.bookingId = r.message.payload.bookingId
  eventId : m.message.payload.eventId = r.message.payload.eventId
  quantity : ∀ q, m.message.payload.quantity = some q → r.message.payload.quantity = some q

def bookingTopic : Topic → Bool
  | .reserveSeats | .bookingConfirmed | .bookingFailed | .bookingCancelled => true
  | .seatsReserved | .seatReservationFailed => false

structure Requests (g : Saga) (r : StoredMessage) (b : BookingRow) : Prop where
  mem : r ∈ g.sent
  topic : r.topic = .reserveSeats
  names : Names r b

structure Sound (g : Saga) : Prop where
  sent_ids : (g.sent.map (·.messageId)).Nodup
  answered_ids : (g.answered.map (·.messageId)).Nodup
  positive : ∀ b ∈ g.bookings.rows, 0 < b.quantity
  sent : ∀ m ∈ g.sent, bookingTopic m.topic = true ∧ ∃ b ∈ g.bookings.rows, Names m b
  answered : ∀ m ∈ g.answered, bookingTopic m.topic = false ∧ ∃ r ∈ g.sent, Answers m r
  enveloped : ∀ m, m ∈ g.sent ∨ m ∈ g.answered → m.message.messageId = m.messageId
  taken : ∀ id ∈ g.taken, id ∈ g.sent.map (·.messageId)
  settled : ∀ id ∈ g.settled, id ∈ g.answered.map (·.messageId)
  changed : ∀ id, appliedTo g.changes id ≠ [] → ∃ b ∈ g.bookings.rows, b.id.text = id
  journeys : ∀ b ∈ g.bookings.rows, ∃ r p, Requests g r b ∧ Journey g b (isCanonical r.message.payload.eventId) p

theorem sound_start : Sound Saga.start := by
  refine ⟨List.nodup_nil, List.nodup_nil, ?_, ?_, ?_, ?_, ?_, ?_, ?_, ?_⟩
  · intro x hx; cases hx
  · intro x hx; cases hx
  · intro x hx; cases hx
  · intro x hx; exact absurd hx (by simp [Saga.start])
  · intro x hx; cases hx
  · intro x hx; cases hx
  · intro x hx; exact absurd rfl hx
  · intro x hx; cases hx

/-! ## Reading the saga -/

namespace Phase

theorem sent_nodup (canonical : Bool) (p : Phase) : ((p.sent canonical).map Prod.fst).Nodup := by
  cases canonical <;> cases p <;> decide

theorem answers_nodup (p : Phase) : (p.answers.map Prod.fst).Nodup := by
  cases p <;> decide

end Phase

section
variable {g : Saga} {b : BookingRow} {canonical : Bool} {p : Phase}

theorem message_unique {l : List StoredMessage} (h : (l.map (·.messageId)).Nodup) {m m' : StoredMessage}
    (hm : m ∈ l) (hm' : m' ∈ l) (e : m'.messageId = m.messageId) : m' = m := List.inj_on_of_nodup_map h hm' hm e

theorem token_unique {c : List StoredMessage} {consumed : List String} {bookingId : String} {m m' : StoredMessage}
    (h : ((tokens c consumed bookingId).map Prod.fst).Nodup) (hm : m ∈ c) (hm' : m' ∈ c)
    (hb : m.message.payload.bookingId = bookingId) (hb' : m'.message.payload.bookingId = bookingId)
    (ht : m.topic = m'.topic) : m = m' := by
  unfold tokens at h
  rw [List.map_map] at h
  have hf : ∀ {x}, x ∈ c → x.message.payload.bookingId = bookingId → x ∈ c.filter (concerning bookingId) :=
    fun hx hxb => List.mem_filter.mpr ⟨hx, decide_eq_true hxb⟩
  exact List.inj_on_of_nodup_map h (hf hm hb) (hf hm' hb') ht

theorem Names.amount {m : StoredMessage} {b : BookingRow} (h : Names m b) {payload : Payload}
    (hp : m.message.payload = payload) :
    Uuid.cast payload.eventId = .ok b.eventId ∧ ∀ q, payload.quantity = some q → q = b.quantity :=
  ⟨hp ▸ h.eventId, hp ▸ h.quantity⟩

theorem apply_reserved {b : BookingRow} {id : String} {p : ReserveSeatsPayload} {e : Uuid} {n : Int}
    (he : Uuid.cast p.eventId = .ok b.eventId) (hq : ∀ q, some p.quantity = some q → q = b.quantity) :
    (SeatChange.reserved id p).apply e n = n + if b.eventId = e then 1 * b.quantity else 0 := by
  have := hq p.quantity rfl
  by_cases h : b.eventId = e <;> simp [SeatChange.apply, he, h, this]

theorem apply_released {b : BookingRow} {id : String} {p : BookingEventQuantityPayload} {e : Uuid} {n : Int}
    (he : Uuid.cast p.eventId = .ok b.eventId) (hq : ∀ q, some p.quantity = some q → q = b.quantity) :
    (SeatChange.released id p).apply e n = n + if b.eventId = e then -1 * b.quantity else 0 := by
  have := hq p.quantity rfl
  by_cases h : b.eventId = e
  · simp [SeatChange.apply, he, h, this]; omega
  · simp [SeatChange.apply, he, h]

theorem Journey.sent_open (h : Journey g b canonical p) {m : StoredMessage} (hm : m ∈ g.sent)
    (hb : m.message.payload.bookingId = b.id.text) (ho : m.messageId ∉ g.taken) :
    (m.topic, false) ∈ p.sent canonical := by
  have := @mem_tokens _ g.taken m hm
  rw [hb, h.sent, decide_eq_false ho] at this
  exact this

theorem Journey.answer_open (h : Journey g b canonical p) {m : StoredMessage} (hm : m ∈ g.answered)
    (hb : m.message.payload.bookingId = b.id.text) (ho : m.messageId ∉ g.settled) :
    (m.topic, false) ∈ p.answers := by
  have := @mem_tokens _ g.settled m hm
  rw [hb, h.answers, decide_eq_false ho] at this
  exact this

end

/-! ## Moves -/

/-- One booking's journey goes on: its row keeps what it is about, and whatever
is stored, consumed or applied concerns it. -/
structure Advance (g g' : Saga) (b b' : BookingRow) (news answer request outcome : Option StoredMessage)
    (change : Option SeatChange) : Prop where
  bookings : g.bookings.Replaced b b' g'.bookings
  eventId : b'.eventId = b.eventId
  quantity : b'.quantity = b.quantity
  sent : g'.sent = g.sent ++ news.toList
  answered : g'.answered = g.answered ++ answer.toList
  taken : g'.taken = g.taken ++ request.toList.map (·.messageId)
  settled : g'.settled = g.settled ++ outcome.toList.map (·.messageId)
  changes : g'.changes = g.changes ++ change.toList
  news_ok : ∀ m, news = some m → bookingTopic m.topic = true ∧ Names m b ∧ m.messageId ∉ g.sent.map (·.messageId)
  answer_ok : ∀ m, answer = some m → bookingTopic m.topic = false ∧ m.message.payload.bookingId = b.id.text ∧
    m.messageId ∉ g.answered.map (·.messageId) ∧ ∃ r ∈ g.sent, Answers m r
  taken_ok : ∀ m, request = some m → m ∈ g.sent ∧ m.message.payload.bookingId = b.id.text
  settled_ok : ∀ m, outcome = some m → m ∈ g.answered ∧ m.message.payload.bookingId = b.id.text
  enveloped : ∀ m, news = some m ∨ answer = some m → m.message.messageId = m.messageId
  change_ok : ∀ c id, change = some c → c.concerning id ≠ none → id = b.id.text
  amount : ∀ c e n, change = some c → c.apply e n = n + if b.eventId = e then c.sign * b.quantity else 0

section
variable {g g' : Saga} {b b' : BookingRow} {news answer request outcome : Option StoredMessage}
  {change : Option SeatChange}

theorem tokens_append_other {c : List StoredMessage} {o : Option StoredMessage} {consumed : List String}
    {id : String} (h : ∀ m, o = some m → m.message.payload.bookingId ≠ id) :
    tokens (c ++ o.toList) consumed id = tokens c consumed id := by
  cases o with
  | none => rw [Option.toList_none, List.append_nil]
  | some m => rw [Option.toList_some, tokens_append, if_neg (h m rfl), List.append_nil]

theorem tokens_consume_unconcerned {c : List StoredMessage} {o : Option StoredMessage} {consumed : List String}
    {id : String} (hn : (c.map (·.messageId)).Nodup)
    (h : ∀ m, o = some m → m ∈ c ∧ m.message.payload.bookingId ≠ id) :
    tokens c (consumed ++ o.toList.map (·.messageId)) id = tokens c consumed id := by
  cases o with
  | none => rw [Option.toList_none, List.map_nil, List.append_nil]
  | some m =>
    rw [Option.toList_some, List.map_singleton]
    apply tokens_consume_other; intro x hx hb e
    obtain ⟨hm, hne⟩ := h m rfl
    exact hne (message_unique hn hm hx e ▸ hb)

theorem nodup_append_toList {l : List StoredMessage} {o : Option StoredMessage} (hn : (l.map (·.messageId)).Nodup)
    (h : ∀ m, o = some m → m.messageId ∉ l.map (·.messageId)) : ((l ++ o.toList).map (·.messageId)).Nodup := by
  cases o with
  | none => rw [Option.toList_none, List.append_nil]; exact hn
  | some m =>
    rw [Option.toList_some, List.map_append, List.map_singleton, List.nodup_append]
    refine ⟨hn, List.nodup_singleton _, fun a ha x hx => ?_⟩
    rw [List.mem_singleton] at hx
    exact fun e => h m rfl (hx ▸ e ▸ ha)

theorem Advance.applied_other (h : Advance g g' b b' news answer request outcome change) {id : String}
    (hid : id ≠ b.id.text) : appliedTo g'.changes id = appliedTo g.changes id := by
  rw [h.changes]
  cases hc : change with
  | none => rw [Option.toList_none, List.append_nil]
  | some c =>
    have : c.concerning id = none := by
      by_contra hn
      exact hid (h.change_ok c id hc hn)
    rw [Option.toList_some, appliedTo_append, this, Option.toList_none, List.append_nil]

theorem Advance.other (h : Advance g g' b b' news answer request outcome change) (hs : Sound g) {x : BookingRow}
    (hx : x.id ≠ b.id) {canonical : Bool} {p : Phase} (hj : Journey g x canonical p) :
    Journey g' x canonical p := by
  have hne : ∀ id : String, id = b.id.text → id ≠ x.id.text := fun id e e' => hx (Uuid.ext (e'.symm.trans e))
  have hsent : tokens g'.sent g'.taken x.id.text = tokens g.sent g.taken x.id.text := by
    rw [h.sent, h.taken, tokens_append_other fun m hm => hne _ (h.news_ok m hm).2.1.bookingId]
    exact tokens_consume_unconcerned hs.sent_ids fun m hm => ⟨(h.taken_ok m hm).1, hne _ (h.taken_ok m hm).2⟩
  have hanswers : tokens g'.answered g'.settled x.id.text = tokens g.answered g.settled x.id.text := by
    rw [h.answered, h.settled, tokens_append_other fun m hm => hne _ (h.answer_ok m hm).2.1]
    exact tokens_consume_unconcerned hs.answered_ids fun m hm =>
      ⟨(h.settled_ok m hm).1, hne _ (h.settled_ok m hm).2⟩
  exact ⟨hj.status, hsent.trans hj.sent, hanswers.trans hj.answers,
    (h.applied_other fun e => hne _ e rfl).trans hj.applied⟩

theorem Advance.id_eq (h : Advance g g' b b' news answer request outcome change) : b'.id = b.id := h.bookings.key

theorem Advance.names (h : Advance g g' b b' news answer request outcome change) {m : StoredMessage}
    {x : BookingRow} (hx : x ∈ g.bookings.rows) (hm : Names m x) :
    ∃ y ∈ g'.bookings.rows, y.id = x.id ∧ Names m y := by
  by_cases e : x.id = b.id
  · have : x = b := Table.key_inj hx h.bookings.mem e
    subst this
    refine ⟨b', h.bookings.mem_iff.mpr (Or.inl rfl), h.id_eq, ?_, ?_, ?_⟩
    · rw [h.id_eq]; exact hm.bookingId
    · rw [h.eventId]; exact hm.eventId
    · rw [h.quantity]; exact hm.quantity
  · exact ⟨x, h.bookings.mem_iff.mpr (Or.inr ⟨hx, e⟩), rfl, hm⟩

theorem Advance.sound (h : Advance g g' b b' news answer request outcome change) (hs : Sound g)
    (hj : ∀ r, Requests g r b → ∃ p, Journey g' b' (isCanonical r.message.payload.eventId) p) : Sound g' := by
  have hsub : ∀ m ∈ g.sent, m ∈ g'.sent := fun m hm => by rw [h.sent]; exact List.mem_append_left _ hm
  refine ⟨?_, ?_, fun x hx => ?_, fun m hm => ?_, fun m hm => ?_, fun m hm => ?_, fun id hid => ?_,
    fun id hid => ?_, fun id hid => ?_, fun x hx => ?_⟩
  · rw [h.sent]; exact nodup_append_toList hs.sent_ids fun m hm => (h.news_ok m hm).2.2
  · rw [h.answered]; exact nodup_append_toList hs.answered_ids fun m hm => (h.answer_ok m hm).2.2.1
  · rcases h.bookings.mem_iff.mp hx with rfl | hx
    · rw [h.quantity]; exact hs.positive b h.bookings.mem
    · exact hs.positive x hx.1
  · rw [h.sent, List.mem_append, Option.mem_toList] at hm
    rcases hm with hm | hm
    · obtain ⟨ht, x, hx, hn⟩ := hs.sent m hm
      obtain ⟨y, hy, _, hn⟩ := h.names hx hn
      exact ⟨ht, y, hy, hn⟩
    · obtain ⟨ht, hn, _⟩ := h.news_ok m hm
      obtain ⟨y, hy, _, hn⟩ := h.names h.bookings.mem hn
      exact ⟨ht, y, hy, hn⟩
  · rw [h.answered, List.mem_append, Option.mem_toList] at hm
    rcases hm with hm | hm
    · obtain ⟨ht, r, hr, ha⟩ := hs.answered m hm
      exact ⟨ht, r, hsub r hr, ha⟩
    · obtain ⟨ht, _, _, r, hr, ha⟩ := h.answer_ok m hm
      exact ⟨ht, r, hsub r hr, ha⟩
  · rw [h.sent, h.answered, List.mem_append, List.mem_append, Option.mem_toList, Option.mem_toList] at hm
    rcases hm with (hm | hm) | hm | hm
    · exact hs.enveloped m (Or.inl hm)
    · exact h.enveloped m (Or.inl hm)
    · exact hs.enveloped m (Or.inr hm)
    · exact h.enveloped m (Or.inr hm)
  · rw [h.sent, List.map_append, List.mem_append]
    rw [h.taken, List.mem_append] at hid
    left
    rcases hid with hid | hid
    · exact hs.taken id hid
    · obtain ⟨m, hm, rfl⟩ := List.mem_map.mp hid
      exact List.mem_map_of_mem (h.taken_ok m (Option.mem_toList.mp hm)).1
  · rw [h.answered, List.map_append, List.mem_append]
    rw [h.settled, List.mem_append] at hid
    left
    rcases hid with hid | hid
    · exact hs.settled id hid
    · obtain ⟨m, hm, rfl⟩ := List.mem_map.mp hid
      exact List.mem_map_of_mem (h.settled_ok m (Option.mem_toList.mp hm)).1
  · have hold : appliedTo g.changes id ≠ [] ∨ id = b.id.text := by
      by_cases e : id = b.id.text
      · exact Or.inr e
      · left; rw [← h.applied_other e]; exact hid
    rcases hold with hid | hid
    · obtain ⟨x, hx, he⟩ := hs.changed id hid
      have hk : x.id ∈ g'.bookings.rows.map (·.id) := by
        rw [show g'.bookings.rows.map (·.id) = g.bookings.rows.map (·.id) from h.bookings.keys]
        exact List.mem_map_of_mem hx
      obtain ⟨y, hy, e⟩ := List.mem_map.mp hk
      exact ⟨y, hy, by rw [e, he]⟩
    · exact ⟨b', h.bookings.mem_iff.mpr (Or.inl rfl), by rw [h.id_eq, hid]⟩
  · rcases h.bookings.mem_iff.mp hx with rfl | hx
    · obtain ⟨r, p, hr, _⟩ := hs.journeys b h.bookings.mem
      obtain ⟨p', hp⟩ := hj r hr
      refine ⟨r, p', ⟨hsub r hr.mem, hr.topic, ?_, ?_, ?_⟩, hp⟩
      · rw [h.id_eq]; exact hr.names.bookingId
      · rw [h.eventId]; exact hr.names.eventId
      · rw [h.quantity]; exact hr.names.quantity
    · obtain ⟨r, p, hr, hp⟩ := hs.journeys x hx.1
      exact ⟨r, p, ⟨hsub r hr.mem, hr.topic, hr.names⟩, h.other hs hx.2 hp⟩

def turn (o : Option StoredMessage) (ts : List (Topic × Bool)) : List (Topic × Bool) :=
  ts.map fun t => (t.1, t.2 || o.any fun m => decide (t.1 = m.topic))

theorem turn_none (ts : List (Topic × Bool)) : turn none ts = ts := by
  unfold turn
  simp

theorem turn_some {m : StoredMessage} {t : Topic} (h : m.topic = t) (ts : List (Topic × Bool)) :
    turn (some m) ts = ts.map fun x => (x.1, x.2 || decide (x.1 = t)) := by
  subst h; rfl

theorem tokens_turn {c : List StoredMessage} {o : Option StoredMessage} {consumed : List String} {id : String}
    (hn : (c.map (·.messageId)).Nodup) (h : ∀ m, o = some m → m ∈ c ∧ m.message.payload.bookingId = id)
    (ht : ((tokens c consumed id).map Prod.fst).Nodup) :
    tokens c (consumed ++ o.toList.map (·.messageId)) id = turn o (tokens c consumed id) := by
  cases o with
  | none => rw [turn_none, Option.toList_none, List.map_nil, List.append_nil]
  | some m =>
    obtain ⟨hm, rfl⟩ := h m rfl
    rw [Option.toList_some, List.map_singleton]
    exact tokens_consume hm (fun x hx e => message_unique hn hm hx e) ht

theorem tokens_new {c : List StoredMessage} {o : Option StoredMessage} {consumed : List String} {id : String}
    (h : ∀ m, o = some m → m.message.payload.bookingId = id ∧ m.messageId ∉ consumed) :
    tokens (c ++ o.toList) consumed id = tokens c consumed id ++ o.toList.map fun m => (m.topic, false) := by
  cases o with
  | none => simp
  | some m =>
    obtain ⟨hb, hc⟩ := h m rfl
    rw [Option.toList_some, tokens_append, if_pos hb, decide_eq_false hc, List.map_singleton]

theorem fresh_not_consumed {c : List StoredMessage} {o : Option StoredMessage} {consumed : List String}
    {id : String} (hc : ∀ id ∈ consumed, id ∈ c.map (·.messageId)) (ho : ∀ m, o = some m → m ∈ c)
    (h : id ∉ c.map (·.messageId)) : id ∉ consumed ++ o.toList.map (·.messageId) := by
  intro hm
  rcases List.mem_append.mp hm with hm | hm
  · exact h (hc id hm)
  · obtain ⟨m, hmem, rfl⟩ := List.mem_map.mp hm
    exact h (List.mem_map_of_mem (ho m (Option.mem_toList.mp hmem)))

theorem Advance.journey (h : Advance g g' b b' news answer request outcome change) (hs : Sound g) {canonical : Bool}
    {p p' : Phase} (hj : Journey g b canonical p) (hstatus : b'.status = p'.status)
    (hsent : turn request (p.sent canonical) ++ (news.toList.map fun m => (m.topic, false)) = p'.sent canonical)
    (hanswers : turn outcome p.answers ++ (answer.toList.map fun m => (m.topic, false)) = p'.answers)
    (happlied : p.applied ++ change.toList.filterMap (SeatChange.concerning b.id.text) = p'.applied) :
    Journey g' b' canonical p' := by
  refine ⟨hstatus, ?_, ?_, ?_⟩
  · rw [h.id_eq, ← hsent, ← hj.sent, h.sent, h.taken, tokens_new, tokens_turn hs.sent_ids h.taken_ok]
    · rw [hj.sent]; exact p.sent_nodup canonical
    · intro m hm
      obtain ⟨_, hn, hf⟩ := h.news_ok m hm
      exact ⟨hn.bookingId, fresh_not_consumed hs.taken (fun m hm => (h.taken_ok m hm).1) hf⟩
  · rw [h.id_eq, ← hanswers, ← hj.answers, h.answered, h.settled, tokens_new,
      tokens_turn hs.answered_ids h.settled_ok]
    · rw [hj.answers]; exact p.answers_nodup
    · intro m hm
      obtain ⟨_, hb, hf, _⟩ := h.answer_ok m hm
      exact ⟨hb, fresh_not_consumed hs.settled (fun m hm => (h.settled_ok m hm).1) hf⟩
  · rw [h.id_eq, ← happlied, ← hj.applied, h.changes]
    unfold appliedTo
    rw [List.filterMap_append]

end

/-! ## Opening a journey -/

structure Opens (g g' : Saga) (b : BookingRow) (r : StoredMessage) : Prop where
  bookings : g.bookings.insert b = some g'.bookings
  status : b.status = .pending
  positive : 0 < b.quantity
  topic : r.topic = .reserveSeats
  names : Names r b
  enveloped : r.message.messageId = r.messageId
  fresh : r.messageId ∉ g.sent.map (·.messageId)
  sent : g'.sent = g.sent ++ [r]
  answered : g'.answered = g.answered
  taken : g'.taken = g.taken
  settled : g'.settled = g.settled
  changes : g'.changes = g.changes

section
variable {g g' : Saga} {b : BookingRow} {r : StoredMessage}

theorem Opens.new (h : Opens g g' b r) {x : BookingRow} (hx : x ∈ g.bookings.rows) : x.id ≠ b.id := by
  have hf := Table.find_before_insert h.bookings
  exact Table.find_eq_none.mp hf x hx

theorem Opens.journey (h : Opens g g' b r) (hs : Sound g) (canonical : Bool) :
    Journey g' b canonical .requested := by
  have hnone : ∀ x ∈ g.bookings.rows, x.id.text ≠ b.id.text := fun x hx e => h.new hx (Uuid.ext e)
  have hsent : ∀ m ∈ g.sent, m.message.payload.bookingId ≠ b.id.text := by
    intro m hm e
    obtain ⟨_, x, hx, hn⟩ := hs.sent m hm
    exact hnone x hx (hn.bookingId.symm.trans e)
  have hempty : ∀ (c : List StoredMessage) consumed, (∀ m ∈ c, m.message.payload.bookingId ≠ b.id.text) →
      tokens c consumed b.id.text = [] := by
    intro c consumed hc
    unfold tokens
    rw [List.map_eq_nil_iff, List.filter_eq_nil_iff]
    intro m hm e
    exact hc m hm (of_decide_eq_true e)
  refine ⟨h.status, ?_, ?_, ?_⟩
  · have hfree : r.messageId ∉ g.taken := fun hm => h.fresh (hs.taken _ hm)
    rw [h.sent, h.taken, tokens_append, hempty g.sent _ hsent, if_pos h.names.bookingId, h.topic,
      decide_eq_false hfree]
    rfl
  · rw [h.answered, h.settled]
    refine hempty g.answered _ fun m hm e => ?_
    obtain ⟨_, q, hq, ha⟩ := hs.answered m hm
    exact hsent q hq (ha.bookingId.symm.trans e)
  · rw [h.changes]
    by_contra hne
    obtain ⟨x, hx, e⟩ := hs.changed b.id.text hne
    exact hnone x hx e

theorem Opens.other (h : Opens g g' b r) {x : BookingRow} (hx : x.id ≠ b.id) {canonical : Bool} {p : Phase}
    (hj : Journey g x canonical p) : Journey g' x canonical p := by
  refine ⟨hj.status, ?_, ?_, ?_⟩
  · rw [h.sent, h.taken, tokens_append, if_neg, List.append_nil, hj.sent]
    intro e; exact hx (Uuid.ext (e.symm.trans h.names.bookingId))
  · rw [h.answered, h.settled, hj.answers]
  · rw [h.changes, hj.applied]

theorem Opens.sound (h : Opens g g' b r) (hs : Sound g) : Sound g' := by
  have hrows := Table.insert_rows h.bookings
  have hsub : ∀ x ∈ g.bookings.rows, x ∈ g'.bookings.rows := fun x hx => by
    rw [hrows]; exact List.mem_append_left _ hx
  have hb : b ∈ g'.bookings.rows := by rw [hrows]; simp
  have hmem : ∀ x ∈ g'.bookings.rows, x ∈ g.bookings.rows ∨ x = b := fun x hx => by
    rw [hrows, List.mem_append, List.mem_singleton] at hx; exact hx
  have hkeep : ∀ m ∈ g.sent, m ∈ g'.sent := fun m hm => by rw [h.sent]; exact List.mem_append_left _ hm
  refine ⟨?_, ?_, fun x hx => ?_, fun m hm => ?_, fun m hm => ?_, fun m hm => ?_, fun id hid => ?_,
    fun id hid => ?_, fun id hid => ?_, fun x hx => ?_⟩
  · have := @nodup_append_toList g.sent (some r) hs.sent_ids fun m hm => Option.some.inj hm ▸ h.fresh
    rw [h.sent]; exact this
  · rw [h.answered]; exact hs.answered_ids
  · rcases hmem x hx with hx | rfl
    · exact hs.positive x hx
    · exact h.positive
  · rw [h.sent, List.mem_append, List.mem_singleton] at hm
    rcases hm with hm | rfl
    · obtain ⟨ht, x, hx, hn⟩ := hs.sent m hm
      exact ⟨ht, x, hsub x hx, hn⟩
    · refine ⟨?_, b, hb, h.names⟩
      rw [h.topic]; rfl
  · rw [h.answered] at hm
    obtain ⟨ht, q, hq, ha⟩ := hs.answered m hm
    exact ⟨ht, q, hkeep q hq, ha⟩
  · rw [h.sent, h.answered, List.mem_append, List.mem_singleton] at hm
    rcases hm with (hm | rfl) | hm
    · exact hs.enveloped m (Or.inl hm)
    · exact h.enveloped
    · exact hs.enveloped m (Or.inr hm)
  · rw [h.taken] at hid
    rw [h.sent, List.map_append]; exact List.mem_append_left _ (hs.taken id hid)
  · rw [h.settled] at hid
    rw [h.answered]; exact hs.settled id hid
  · rw [h.changes] at hid
    obtain ⟨x, hx, e⟩ := hs.changed id hid
    exact ⟨x, hsub x hx, e⟩
  · rcases hmem x hx with hx | rfl
    · obtain ⟨q, p, hq, hp⟩ := hs.journeys x hx
      exact ⟨q, p, ⟨hkeep q hq.mem, hq.topic, hq.names⟩, h.other (h.new hx) hp⟩
    · refine ⟨r, .requested, ⟨?_, h.topic, h.names⟩, h.journey hs _⟩
      rw [h.sent]; simp

end

/-! ## One step of the saga -/

inductive Moved (g g' : Saga) : Prop
  | opened {b : BookingRow} {r : StoredMessage} (opens : Opens g g' b r)
  | advanced {b b' : BookingRow} {news answer request outcome : Option StoredMessage} {change : Option SeatChange}
      {r : StoredMessage} {p p' : Phase} (advance : Advance g g' b b' news answer request outcome change)
      (requests : Requests g r b) (before : Journey g b (isCanonical r.message.payload.eventId) p)
      (next : p.Next p') (after : Journey g' b' (isCanonical r.message.payload.eventId) p')

theorem Sound.request_unique {g : Saga} (hs : Sound g) {b : BookingRow} (hb : b ∈ g.bookings.rows)
    {r r' : StoredMessage} (h : Requests g r b) (h' : Requests g r' b) : r = r' := by
  obtain ⟨_, p, _, hj⟩ := hs.journeys b hb
  have hn : ((tokens g.sent g.taken b.id.text).map Prod.fst).Nodup := by rw [hj.sent]; exact p.sent_nodup _
  exact token_unique hn h.mem h'.mem h.names.bookingId h'.names.bookingId (h.topic.trans h'.topic.symm)

theorem Moved.sound {g g' : Saga} (h : Moved g g') (hs : Sound g) : Sound g' := by
  cases h with
  | opened opens => exact opens.sound hs
  | advanced advance requests before next after =>
    refine advance.sound hs fun r' hr' => ?_
    rw [hs.request_unique advance.bookings.mem hr' requests]
    exact ⟨_, after⟩

/-! ## Seats held -/

/-- The seats of the event that the booking holds: reserved for it and not released. -/
def share (changes : List SeatChange) (e : Uuid) (b : BookingRow) : Int :=
  if b.eventId = e ∧ appliedTo changes b.id.text = [true] then b.quantity else 0

def held (g : Saga) (e : Uuid) : Int := g.bookings.sum (share g.changes e)

def Phase.share (p : Phase) (e : Uuid) (b : BookingRow) : Int :=
  if b.eventId = e ∧ p.holds = true then b.quantity else 0

theorem Journey.share_eq {g : Saga} {b : BookingRow} {canonical : Bool} {p : Phase} (h : Journey g b canonical p)
    (e : Uuid) : share g.changes e b = p.share e b := by
  have hp : p.holds = true ↔ p.applied = [true] := beq_iff_eq
  unfold share Phase.share
  simp only [h.applied, hp]

theorem Sound.quantity_le_held {g : Saga} (hs : Sound g) {b : BookingRow} (hb : b ∈ g.bookings.rows)
    {canonical : Bool} {p : Phase} (hj : Journey g b canonical p) (hp : p.holds = true) :
    b.quantity ≤ held g b.eventId := by
  have hshare : share g.changes b.eventId b = b.quantity := by
    rw [hj.share_eq]; exact if_pos ⟨rfl, hp⟩
  rw [← hshare]
  apply Table.le_sum hb
  intro x hx
  have := hs.positive x hx
  unfold share
  split <;> omega

theorem Opens.held {g g' : Saga} {b : BookingRow} {r : StoredMessage} (h : Opens g g' b r) (hs : Sound g)
    (e : Uuid) :
    held g' e = EventBooking.held g e := by
  have hb : share g'.changes e b = 0 := by
    rw [(h.journey hs true).share_eq e]
    exact if_neg fun hp => absurd hp.2 (by decide)
  unfold EventBooking.held
  rw [Table.sum_insert h.bookings, hb, Int.add_zero, h.changes]

theorem Advance.held {g g' : Saga} {b b' : BookingRow} {news answer request outcome : Option StoredMessage}
    {change : Option SeatChange} (h : Advance g g' b b' news answer request outcome change) {canonical : Bool}
    {p p' : Phase} (hj : Journey g b canonical p) (hj' : Journey g' b' canonical p') (e : Uuid) :
    held g' e = EventBooking.held g e - p.share e b + p'.share e b := by
  have hrest : g.bookings.sum (share g'.changes e) =
      g.bookings.sum (share g.changes e) - share g.changes e b + share g'.changes e b := by
    apply Table.sum_change h.bookings.mem
    intro x hx hne
    have : x.id.text ≠ b.id.text := fun e => hne (Table.key_inj hx h.bookings.mem (Uuid.ext e))
    unfold share
    rw [h.applied_other this]
  have hb' : share g'.changes e b' = p'.share e b := by
    rw [hj'.share_eq e]
    unfold Phase.share
    rw [h.eventId, h.quantity]
  unfold EventBooking.held
  rw [h.bookings.sum, hrest, hb', hj.share_eq e]
  omega

theorem Advance.balance {g g' : Saga} {b b' : BookingRow} {news answer request outcome : Option StoredMessage}
    {change : Option SeatChange} (h : Advance g g' b b' news answer request outcome change) {canonical : Bool}
    {p p' : Phase} (hj : Journey g b canonical p) (next : p.Next p') (hj' : Journey g' b' canonical p') (e : Uuid) :
    balance g'.changes e = EventBooking.balance g.changes e - p.share e b + p'.share e b := by
  have happlied := hj'.applied
  rw [h.id_eq, h.changes] at happlied
  unfold Phase.share
  cases hc : change with
  | none =>
    rw [hc, Option.toList_none, List.append_nil, hj.applied] at happlied
    rw [h.changes, hc, Option.toList_none, List.append_nil]
    unfold Phase.holds
    rw [happlied]
    omega
  | some c =>
    have hb : c.sign ≠ 0 ∧ c.concerning b.id.text = some (decide (0 < c.sign)) := by
      cases c with
      | created e' =>
        have := h.amount _ e' 1 hc
        simp [SeatChange.apply, SeatChange.sign] at this
      | reserved id q =>
        have := h.change_ok _ q.bookingId hc (by simp [SeatChange.concerning])
        exact ⟨Int.one_ne_zero, if_pos this⟩
      | released id q =>
        have := h.change_ok _ q.bookingId hc (by simp [SeatChange.concerning])
        exact ⟨by simp [SeatChange.sign], if_pos this⟩
    rw [hc, Option.toList_some, appliedTo_append, hj.applied, hb.2, Option.toList_some] at happlied
    rw [h.changes, hc, Option.toList_some, balance_append, h.amount c e _ hc]
    have hsign : c.sign = 1 ∨ c.sign = -1 := by
      cases c with
      | created e' => exact absurd rfl hb.1
      | reserved id q => exact Or.inl rfl
      | released id q => exact Or.inr rfl
    -- the history of the booking grows by one entry: only a reservation and a release do that
    rcases hsign with hsign | hsign <;> rw [hsign] at happlied ⊢ <;> cases next <;>
      try exact absurd happlied (by decide)
    · by_cases he : b.eventId = e <;> simp [he, Phase.holds, Phase.applied]
    · by_cases he : b.eventId = e
      · simp [he, Phase.holds, Phase.applied]; omega
      · simp [he]

theorem Moved.balanced {g g' : Saga} (h : Moved g g') (hs : Sound g)
    (hb : ∀ e, balance g.changes e = held g e) (e : Uuid) :
    balance g'.changes e = held g' e := by
  cases h with
  | opened opens => rw [opens.held hs, opens.changes, hb]
  | advanced advance requests before next after =>
    rw [advance.balance before next after, advance.held before after, hb]

/-! ## What a move keeps -/

structure Keeps (g g' : Saga) : Prop where
  bookings : ∀ b ∈ g.bookings.rows, ∃ b' ∈ g'.bookings.rows, b'.id = b.id ∧ b'.eventId = b.eventId ∧
    b'.quantity = b.quantity
  stored : ∀ m, m ∈ g.sent ∨ m ∈ g.answered → m ∈ g'.sent ∨ m ∈ g'.answered

theorem Moved.keeps {g g' : Saga} (h : Moved g g') : Keeps g g' := by
  cases h with
  | opened opens =>
    refine ⟨fun b hb => ⟨b, ?_, rfl, rfl, rfl⟩, fun m hm => ?_⟩
    · rw [Table.insert_rows opens.bookings]; exact List.mem_append_left _ hb
    · rw [opens.sent, opens.answered]; exact hm.imp_left (List.mem_append_left _)
  | advanced advance requests before next after =>
    rename_i b b' _ _ _ _ _ _ _ _
    refine ⟨fun x hx => ?_, fun m hm => ?_⟩
    · by_cases e : x.id = b.id
      · have hxb : x = b := Table.key_inj hx advance.bookings.mem e
        rw [hxb]
        exact ⟨b', advance.bookings.mem_iff.mpr (Or.inl rfl), advance.id_eq, advance.eventId, advance.quantity⟩
      · exact ⟨x, advance.bookings.mem_iff.mpr (Or.inr ⟨hx, e⟩), rfl, rfl, rfl⟩
    · rw [advance.sent, advance.answered]
      exact hm.imp (List.mem_append_left _) (List.mem_append_left _)

theorem Keeps.refl (g : Saga) : Keeps g g := ⟨fun b hb => ⟨b, hb, rfl, rfl, rfl⟩, fun _ hm => hm⟩

/-! ## Creating an event is no part of the saga -/

section
variable {g : Saga} {e : Uuid}

def Saga.created (g : Saga) (e : Uuid) : Saga := { g with changes := g.changes ++ [.created e] }

theorem appliedTo_created (id : String) : appliedTo (g.created e).changes id = appliedTo g.changes id := by
  show appliedTo (g.changes ++ [_]) id = _
  rw [appliedTo_append]
  exact List.append_nil _

theorem Journey.created {b : BookingRow} {canonical : Bool} {p : Phase} (h : Journey g b canonical p) :
    Journey (g.created e) b canonical p :=
  ⟨h.status, h.sent, h.answers, (appliedTo_created _).trans h.applied⟩

theorem Sound.created (hs : Sound g) : Sound (g.created e) where
  sent_ids := hs.sent_ids
  answered_ids := hs.answered_ids
  positive := hs.positive
  sent := hs.sent
  answered := hs.answered
  enveloped := hs.enveloped
  taken := hs.taken
  settled := hs.settled
  changed id hid := hs.changed id (by rw [← @appliedTo_created g e id]; exact hid)
  journeys b hb := by
    obtain ⟨r, p, hr, hj⟩ := hs.journeys b hb
    exact ⟨r, p, ⟨hr.mem, hr.topic, hr.names⟩, hj.created⟩

theorem held_created (e' : Uuid) : held (g.created e) e' = held g e' := by
  unfold held share
  simp only [appliedTo_created]
  rfl

end

end EventBooking
