import EventBooking.Spellings

/-!
# Deliveries and the event cache

The handlers of RESERVE_SEATS and BOOKING_CANCELLED between their awaits, with
crashes, lost answers and redelivery, over the event database and the cache. A
handler commits first and deletes the entry next; a redelivered message is a
duplicate and deletes nothing, so an entry that outlives the first delivery stays.
-/

namespace EventBooking
open Lib

/-! ## Handlers -/

inductive SeatMessage
  | reserveSeats (message : MessageEnvelope ReserveSeatsPayload)
  | releaseSeats (message : MessageEnvelope BookingEventQuantityPayload)
  deriving DecidableEq

def SeatMessage.messageId : SeatMessage → String
  | .reserveSeats message => message.messageId
  | .releaseSeats message => message.messageId

def SeatMessage.eventId : SeatMessage → String
  | .reserveSeats message => message.payload.eventId
  | .releaseSeats message => message.payload.eventId

inductive SeatHandler
  | idle
  | processing (m : SeatMessage)
  | invalidating (m : SeatMessage) (publish : Option DirectPublish)
  | publishing (m : SeatMessage) (publish : DirectPublish)
  | marking (m : SeatMessage) (id : RandomUUID)
  deriving DecidableEq

def SeatHandler.message : SeatHandler → Option SeatMessage
  | .idle => none
  | .processing m | .invalidating m _ | .publishing m _ | .marking m _ => some m

inductive SeatNext
  | awaits (h : SeatHandler)
  | returns
  | throws
  deriving DecidableEq

def SeatMessage.start : SeatMessage → SeatNext
  | .reserveSeats message => .awaits (.processing (.reserveSeats message))
  | .releaseSeats message =>
    match releaseSeatsCheck message with
    | .error _ => .throws
    | .ok () => .awaits (.processing (.releaseSeats message))

def SeatMessage.publish (m : SeatMessage) : Option DirectPublish → SeatNext
  | some p => .awaits (.publishing m p)
  | none => .returns

/-- The transaction of a message, and what its handler does next. -/
def SeatMessage.process (draw : Draw) (db : EventDb) : SeatMessage → SeatNext × EventDb
  | .reserveSeats message =>
    let (result, db') := Tx.transact (EventBooking.reserveSeats message draw) draw.budget db
    match result with
    | .error _ => (.throws, db')
    | .ok (.reserved event outboxRowId) =>
      (.awaits (.invalidating (.reserveSeats message)
        (directPublish message draw (.reserved event outboxRowId))), db')
    | .ok result => ((SeatMessage.reserveSeats message).publish (directPublish message draw result), db')
  | .releaseSeats message =>
    let (result, db') := Tx.transact (EventBooking.releaseSeats message draw) draw.budget db
    match result with
    | .error _ => (.throws, db')
    | .ok (.released _) => (.awaits (.invalidating (.releaseSeats message) none), db')
    | .ok _ => (.returns, db')

def SeatNext.changed : SeatNext → Bool
  | .awaits (.invalidating _ _) => true
  | _ => false

/-! ## Deliveries -/

/-- The event database, the cache with the time each entry was stored, the handlers of all
replicas, when each change of the seats was committed and for which messages a handler returned. -/
structure Deliveries where
  store : EventStore
  storedAt : String → Nat
  clock : Nat
  handlers : Nat → SeatHandler
  commits : List (SeatMessage × Nat)
  returned : List SeatMessage

inductive DeliveryLabel
  | deliver (n : Nat) (m : SeatMessage)
  | advance (n : Nat) (draw : Draw)
  | reject (n : Nat)
  | loseReply (n : Nat) (draw : Draw)
  | crash (n : Nat)
  | getEventById (id : String) (awaits : List Await)
  | createEvent (input : EventInput) (draw : Draw)
  | updateEvent (id : String) (input : EventInput) (now : Date)
  | deleteEvent (id : String)
  | drop (key : String)
  | bookkeep (op : Bookkeeping)
  deriving DecidableEq

namespace Deliveries

def empty : Deliveries := ⟨.empty, fun _ => 0, 0, fun _ => .idle, [], []⟩

def goto (s : Deliveries) (n : Nat) (h : SeatHandler) : Deliveries :=
  { s with handlers := Function.update s.handlers n h }

def go (s : Deliveries) (n : Nat) (m : SeatMessage) : SeatNext → Deliveries
  | .awaits h => s.goto n h
  | .returns => { s.goto n .idle with returned := s.returned ++ [m] }
  | .throws => s.goto n .idle

def setDb (s : Deliveries) (db : EventDb) : Deliveries := { s with store := { s.store with db } }

def drop (s : Deliveries) (key : String) : Deliveries :=
  { s with store := { s.store with redis := Function.update s.store.redis key none } }

def record (s : Deliveries) (m : SeatMessage) (next : SeatNext) : Deliveries :=
  { s with commits := if next.changed then s.commits ++ [(m, s.clock)] else s.commits }

def advance (s : Deliveries) (n : Nat) (draw : Draw) : Option Deliveries :=
  match s.handlers n with
  | .idle => none
  | .processing m =>
    some (((s.setDb (m.process draw s.store.db).2).record m (m.process draw s.store.db).1).go n m
      (m.process draw s.store.db).1)
  | .invalidating m publish => some ((s.drop (eventCacheKey m.eventId)).go n m (m.publish publish))
  | .publishing m p => some (s.go n m (p.outboxRowId.elim .returns fun id => .awaits (.marking m id)))
  | .marking m id =>
    some ((s.setDb { s.store.db with outbox := markOutboxPublished draw.now id.val none s.store.db.outbox }).go n m
      .returns)

def reject (s : Deliveries) (n : Nat) : Option Deliveries :=
  match s.handlers n with
  | .processing m | .publishing m _ | .marking m _ => some (s.go n m .throws)
  | .idle | .invalidating _ _ => none

/-- The transaction is committed and its answer is lost: the handler throws, before it deletes the entry. -/
def loseReply (s : Deliveries) (n : Nat) (draw : Draw) : Option Deliveries :=
  match s.handlers n with
  | .processing m =>
    some (((s.setDb (m.process draw s.store.db).2).record m (m.process draw s.store.db).1).go n m .throws)
  | _ => none

def getEventById (s : Deliveries) (id : String) (awaits : List Await) : Option Deliveries :=
  (s.store.serve (.getEventById id) awaits).map fun p =>
    { s with
      store := p.2
      storedAt :=
        if (s.store.redis (eventCacheKey id)).isNone then Function.update s.storedAt (eventCacheKey id) s.clock
        else s.storedAt }

/-- `drop` is an entry that expires, or that `updateEvent` or `deleteEvent` deletes after its statement. -/
def act (s : Deliveries) : DeliveryLabel → Option Deliveries
  | .deliver n m => if s.handlers n = .idle then some (s.go n m m.start) else none
  | .advance n draw => s.advance n draw
  | .reject n => s.reject n
  | .loseReply n draw => s.loseReply n draw
  | .crash n => if s.handlers n = .idle then none else some (s.goto n .idle)
  | .getEventById id awaits => s.getEventById id awaits
  | .createEvent input draw =>
    some (s.setDb
      (autocommit (eventCreate ⟨draw.id, input.title, input.date, input.totalSeats, none⟩ draw.now) s.store.db).2)
  | .updateEvent id input now => some (s.setDb (autocommit (updateStatement id input now) s.store.db).2)
  | .deleteEvent id => some (s.setDb (autocommit (deleteStatement id) s.store.db).2)
  | .drop key => some (s.drop key)
  | .bookkeep op => some (s.setDb { s.store.db with outbox := op.apply s.store.db.outbox })

def exec (s : Deliveries) (l : DeliveryLabel) : Option Deliveries :=
  (s.act l).map fun s' => { s' with clock := s.clock + 1 }

end Deliveries

def seatDeliveries : Machine Deliveries DeliveryLabel where
  start s := s = .empty
  exec := Deliveries.exec

def SameEvent (id id' : String) : Prop := ∃ u, Uuid.cast id = .ok u ∧ Uuid.cast id' = .ok u

/-- Kafka delivers a message again only when no handler has it in hand, and no `getEventById`
overlaps a delivery. -/
def Scheduled (s : Deliveries) : DeliveryLabel → Prop
  | .deliver _ m => ∀ n, (s.handlers n).message ≠ some m
  | .getEventById _ _ => ∀ n, s.handlers n = .idle
  | _ => True

/-- No handler crashes between its commit and the deletion of an entry, and no change is committed
while its event is cached under another spelling than the message's, or under any where the answer is lost. -/
def Invalidates (s : Deliveries) : DeliveryLabel → Prop
  | .crash n => ∀ m publish, s.handlers n = .invalidating m publish → s.store.redis (eventCacheKey m.eventId) = none
  | .advance n draw => ∀ m, s.handlers n = .processing m → (m.process draw s.store.db).1.changed = true →
    ∀ id, id ≠ m.eventId → SameEvent id m.eventId → s.store.redis (eventCacheKey id) = none
  | .loseReply n draw => ∀ m, s.handlers n = .processing m → (m.process draw s.store.db).1.changed = true →
    ∀ id, SameEvent id m.eventId → s.store.redis (eventCacheKey id) = none
  | _ => True

/-- For a message whose handler has returned, the cache holds no entry of its event from before its change. -/
def Deliveries.Invalidated (s : Deliveries) : Prop :=
  ∀ m t id event, m ∈ s.returned → (m, t) ∈ s.commits → SameEvent id m.eventId →
    s.store.redis (eventCacheKey id) = some event → ¬ s.storedAt (eventCacheKey id) < t

/-! ## What the transaction of a message can do -/

inductive Processing (m : SeatMessage) (d : EventDb) : SeatNext → EventDb → Prop
  | threw : Processing m d .throws d
  | duplicate (old : m.messageId ∈ inbox d.processed) : Processing m d .returns d
  | kept {next : SeatNext} {d' : EventDb} (next_eq : next = .returns ∨ ∃ p, next = .awaits (.publishing m p))
      (new : inbox d'.processed = inbox d.processed ++ [m.messageId]) : Processing m d next d'
  | changed {publish : Option DirectPublish} {d' : EventDb} (fresh : m.messageId ∉ inbox d.processed)
      (new : inbox d'.processed = inbox d.processed ++ [m.messageId]) (event : ∃ u, Uuid.cast m.eventId = .ok u) :
      Processing m d (.awaits (.invalidating m publish)) d'

theorem process_cases (draw : Draw) (d : EventDb) (m : SeatMessage) :
    Processing m d (m.process draw d).1 (m.process draw d).2 := by
  cases m with
  | reserveSeats message =>
    unfold SeatMessage.process
    have ht := (Prod.mk.eta (p := Tx.transact (reserveSeats message draw) draw.budget d)).symm
    rcases processReserveSeatsMessage_cases ht with hc | hc | hc | hc
    · obtain ⟨hd, ⟨hr, hold⟩ | ⟨e, hr⟩⟩ := hc
      · simp only [hr, hd, directPublish]
        exact .duplicate hold
      · simp only [hr, hd]
        exact .threw
    · obtain ⟨_, hr, hi⟩ := hc
      simp only [hr]
      exact .kept (.inr ⟨_, rfl⟩) (inbox_insert hi.processed).1
    · obtain ⟨row, row', hr, hc⟩ := hc
      simp only [hr]
      obtain ⟨hnew, hfresh⟩ := inbox_insert hc.processed
      exact .changed (m := .reserveSeats message) hfresh hnew ⟨row.id, hc.row_id⟩
    · obtain ⟨reason, hr, hc⟩ := hc
      simp only [hr]
      exact .kept (.inr ⟨_, rfl⟩) (inbox_insert hc.processed).1
  | releaseSeats message =>
    unfold SeatMessage.process
    have ht := (Prod.mk.eta (p := Tx.transact (releaseSeats message draw) draw.budget d)).symm
    rcases processReleaseSeatsMessage_cases ht with hc | hc | hc
    · obtain ⟨hd, ⟨hr, hold⟩ | ⟨e, hr⟩⟩ := hc
      · simp only [hr, hd]
        exact .duplicate hold
      · simp only [hr, hd]
        exact .threw
    · obtain ⟨⟨reason, hr⟩, hi, _⟩ := hc
      simp only [hr]
      exact .kept (.inl rfl) (inbox_insert hi.processed).1
    · obtain ⟨row, row', hr, hc⟩ := hc
      simp only [hr]
      obtain ⟨hnew, hfresh⟩ := inbox_insert hc.processed
      exact .changed (m := .releaseSeats message) hfresh hnew ⟨row.id, hc.row_id⟩

/-! ## What an await of a handler can do -/

def SeatHandler.settled : SeatHandler → Option SeatMessage
  | .idle | .processing _ => none
  | .invalidating m _ | .publishing m _ | .marking m _ => some m

def SeatNext.Leaves (m : SeatMessage) (next : SeatNext) : Prop :=
  next = .returns ∨ ∃ h, next = .awaits h ∧ h.message = some m ∧ ∀ m publish, h ≠ .invalidating m publish

theorem leaves_returns {m : SeatMessage} : SeatNext.returns.Leaves m := .inl rfl

theorem leaves_publishing {m : SeatMessage} {p : DirectPublish} : (SeatNext.awaits (.publishing m p)).Leaves m :=
  .inr ⟨_, rfl, rfl, fun _ _ e => by cases e⟩

theorem leaves_marking {m : SeatMessage} {id : RandomUUID} : (SeatNext.awaits (.marking m id)).Leaves m :=
  .inr ⟨_, rfl, rfl, fun _ _ e => by cases e⟩

inductive Advanced (s : Deliveries) (n : Nat) (draw : Draw) : Deliveries → Prop
  | threw {m : SeatMessage} (phase : s.handlers n = .processing m) : Advanced s n draw (s.goto n .idle)
  | went {m : SeatMessage} {next : SeatNext} {db : EventDb} (message : (s.handlers n).message = some m)
      (phase : ∀ m publish, s.handlers n ≠ .invalidating m publish)
      (received : (s.handlers n).settled = some m ∨ m.messageId ∈ inbox db.processed)
      (kept : ∀ id, id ∈ inbox s.store.db.processed → id ∈ inbox db.processed) (leaves : next.Leaves m) :
      Advanced s n draw ((s.setDb db).go n m next)
  | committed {m : SeatMessage} {publish : Option DirectPublish} {db : EventDb}
      (phase : s.handlers n = .processing m) (changed : (m.process draw s.store.db).1.changed = true)
      (fresh : m.messageId ∉ inbox s.store.db.processed)
      (new : inbox db.processed = inbox s.store.db.processed ++ [m.messageId])
      (event : ∃ u, Uuid.cast m.eventId = .ok u) :
      Advanced s n draw ({ s.setDb db with commits := s.commits ++ [(m, s.clock)] }.goto n
        (.invalidating m publish))
  | deleted {m : SeatMessage} {publish : Option DirectPublish} {next : SeatNext}
      (phase : s.handlers n = .invalidating m publish) (leaves : next.Leaves m) :
      Advanced s n draw ((s.drop (eventCacheKey m.eventId)).go n m next)

section
variable {s s' : Deliveries} {n : Nat} {m : SeatMessage} {draw : Draw}

theorem advance_processing (hn : s.handlers n = .processing m) : Advanced s n draw
    (((s.setDb (m.process draw s.store.db).2).record m (m.process draw s.store.db).1).go n m
      (m.process draw s.store.db).1) := by
  have hcommitted : ∀ publish db, (m.process draw s.store.db).1.changed = true →
      m.messageId ∉ inbox s.store.db.processed →
      inbox db.processed = inbox s.store.db.processed ++ [m.messageId] → (∃ u, Uuid.cast m.eventId = .ok u) →
      Advanced s n draw ({ s.setDb db with commits := s.commits ++ [(m, s.clock)] }.goto n
          (.invalidating m publish)) :=
    fun _ _ => .committed hn
  have hwent : ∀ {next db}, m.messageId ∈ inbox db.processed →
      (∀ id, id ∈ inbox s.store.db.processed → id ∈ inbox db.processed) →
      next.Leaves m → Advanced s n draw ((s.setDb db).go n m next) := fun hin hkept hl =>
    .went (by rw [hn]; rfl) (fun _ _ e => by rw [hn] at e; cases e) (.inr hin) hkept hl
  have hcases := process_cases draw s.store.db m
  generalize m.process draw s.store.db = p at hcases hcommitted ⊢
  obtain ⟨next, db⟩ := p
  cases hcases with
  | threw => exact .threw hn
  | duplicate old => exact hwent old (fun _ hid => hid) leaves_returns
  | kept next_eq new =>
    have hin : m.messageId ∈ inbox db.processed := by
      rw [new]; exact List.mem_append_right _ List.mem_cons_self
    have hkept : ∀ id, id ∈ inbox s.store.db.processed → id ∈ inbox db.processed := fun id hid => by
      rw [new]; exact List.mem_append_left _ hid
    rcases next_eq with rfl | ⟨p, rfl⟩
    · exact hwent hin hkept leaves_returns
    · exact hwent hin hkept leaves_publishing
  | changed fresh new event => exact hcommitted _ _ rfl fresh new event

theorem advance_cases (h : s.advance n draw = some s') : Advanced s n draw s' := by
  unfold Deliveries.advance at h
  cases hn : s.handlers n with
  | idle => rw [hn] at h; cases h
  | processing m =>
    rw [hn] at h
    obtain rfl := Option.some.inj h
    exact advance_processing hn
  | invalidating m publish =>
    rw [hn] at h
    obtain rfl := Option.some.inj h
    refine .deleted hn ?_
    cases publish with
    | none => exact leaves_returns
    | some p => exact leaves_publishing
  | publishing m p =>
    rw [hn] at h
    obtain rfl := Option.some.inj h
    have hleaves : (p.outboxRowId.elim .returns fun id => SeatNext.awaits (.marking m id)).Leaves m := by
      cases p.outboxRowId with
      | none => exact leaves_returns
      | some id => exact leaves_marking
    have hwent : Advanced s n draw ((s.setDb s.store.db).go n m _) := .went (by rw [hn]; rfl)
      (fun _ _ e => by rw [hn] at e; cases e) (.inl (by rw [hn]; rfl)) (fun _ hid => hid) hleaves
    exact hwent
  | marking m id =>
    rw [hn] at h
    obtain rfl := Option.some.inj h
    exact .went (by rw [hn]; rfl) (fun _ _ e => by rw [hn] at e; cases e) (.inl (by rw [hn]; rfl))
      (fun _ hid => hid)
      leaves_returns

/-- What a handler leaves that never learns how its transaction ended. -/
inductive Unlearnt (s : Deliveries) (n : Nat) (draw : Draw) : Deliveries → Prop
  | kept {m : SeatMessage} {db : EventDb} (phase : s.handlers n = .processing m)
      (kept : ∀ id, id ∈ inbox s.store.db.processed → id ∈ inbox db.processed) :
      Unlearnt s n draw ((s.setDb db).goto n .idle)
  | committed {m : SeatMessage} {db : EventDb} (phase : s.handlers n = .processing m)
      (changed : (m.process draw s.store.db).1.changed = true) (fresh : m.messageId ∉ inbox s.store.db.processed)
      (new : inbox db.processed = inbox s.store.db.processed ++ [m.messageId])
      (event : ∃ u, Uuid.cast m.eventId = .ok u) :
      Unlearnt s n draw ({ s.setDb db with commits := s.commits ++ [(m, s.clock)] }.goto n .idle)

theorem loseReply_cases (h : s.loseReply n draw = some s') : Unlearnt s n draw s' := by
  unfold Deliveries.loseReply at h
  split at h
  · rename_i m hn
    obtain rfl := Option.some.inj h
    have hcommitted : ∀ db, (m.process draw s.store.db).1.changed = true →
        m.messageId ∉ inbox s.store.db.processed →
        inbox db.processed = inbox s.store.db.processed ++ [m.messageId] → (∃ u, Uuid.cast m.eventId = .ok u) →
        Unlearnt s n draw ({ s.setDb db with commits := s.commits ++ [(m, s.clock)] }.goto n .idle) :=
      fun _ => .committed hn
    have hkept : ∀ db, (∀ id, id ∈ inbox s.store.db.processed → id ∈ inbox db.processed) →
        Unlearnt s n draw ((s.setDb db).goto n .idle) := fun _ => .kept hn
    have hcases := process_cases draw s.store.db m
    generalize m.process draw s.store.db = p at hcases hcommitted ⊢
    obtain ⟨next, db⟩ := p
    cases hcases with
    | threw | duplicate => exact hkept _ fun _ hid => hid
    | kept next_eq new =>
      have hin : ∀ id, id ∈ inbox s.store.db.processed → id ∈ inbox db.processed := fun id hid => by
        rw [new]; exact List.mem_append_left _ hid
      rcases next_eq with rfl | ⟨p, rfl⟩ <;> exact hkept db hin
    | changed fresh new event => exact hcommitted db rfl fresh new event
  · cases h

theorem reject_cases (h : s.reject n = some s') :
    (∀ m publish, s.handlers n ≠ .invalidating m publish) ∧ s' = s.goto n .idle := by
  unfold Deliveries.reject at h
  cases hn : s.handlers n with
  | idle | invalidating => rw [hn] at h; cases h
  | processing | publishing | marking =>
    rw [hn] at h
    obtain rfl := Option.some.inj h
    exact ⟨fun _ _ e => (by cases e), rfl⟩

end

/-! ## Entries from before a change -/

structure OldEntry (s : Deliveries) (m : SeatMessage) (t : Nat) (id : String) : Prop where
  event : SameEvent id m.eventId
  cached : ∃ event, s.store.redis (eventCacheKey id) = some event
  stored : s.storedAt (eventCacheKey id) < t

theorem settled_message {h : SeatHandler} {m : SeatMessage} (hm : h.settled = some m) : h.message = some m := by
  cases h with
  | idle | processing => cases hm
  | invalidating | publishing | marking => exact hm

structure DeliveriesInv (s : Deliveries) : Prop where
  one : ∀ n n' m, (s.handlers n).message = some m → (s.handlers n').message = some m → n = n'
  received : ∀ n m, (s.handlers n).settled = some m → m.messageId ∈ inbox s.store.db.processed
  finished : ∀ m ∈ s.returned, m.messageId ∈ inbox s.store.db.processed
  pending : ∀ n m publish, s.handlers n = .invalidating m publish → m ∉ s.returned
  past : ∀ m t, (m, t) ∈ s.commits → t < s.clock
  old : ∀ m t id, (m, t) ∈ s.commits → OldEntry s m t id →
    id = m.eventId ∧ ∃ n publish, s.handlers n = .invalidating m publish

section
variable {s s' : Deliveries} {n : Nat} {m : SeatMessage} {h' : SeatHandler}

theorem DeliveriesInv.invalidated (h : DeliveriesInv s) : s.Invalidated := by
  intro m t id event hm hc he hid hlt
  obtain ⟨_, n, publish, hn⟩ := h.old m t id hc ⟨he, ⟨event, hid⟩, hlt⟩
  exact h.pending n m publish hn hm

theorem handlers_self : (s.goto n h').handlers n = h' := by
  unfold Deliveries.goto; simp

theorem handlers_other {k : Nat} (hk : k ≠ n) : (s.goto n h').handlers k = s.handlers k := by
  unfold Deliveries.goto; simp [hk]

theorem DeliveriesInv.tick (h : DeliveriesInv s) : DeliveriesInv { s with clock := s.clock + 1 } :=
  { h with
    past := fun m t hc => Nat.lt_succ_of_lt (h.past m t hc)
    old := fun m t id hc he => h.old m t id hc ⟨he.event, he.cached, he.stored⟩ }

theorem DeliveriesInv.goto (h : DeliveriesInv s)
    (hmessage : ∀ m, h'.message = some m → (s.handlers n).message = some m)
    (hsettled : ∀ m, h'.settled = some m → m.messageId ∈ inbox s.store.db.processed)
    (hpending : ∀ m publish, h' ≠ .invalidating m publish)
    (hgone : ∀ m publish, s.handlers n = .invalidating m publish → ∀ t, ¬ OldEntry s m t m.eventId) :
    DeliveriesInv (s.goto n h') := by
  have hback : ∀ k m, ((s.goto n h').handlers k).message = some m → (s.handlers k).message = some m := by
    intro k m hm
    by_cases hk : k = n
    · rw [hk, handlers_self] at hm; rw [hk]; exact hmessage m hm
    · rwa [handlers_other hk] at hm
  refine ⟨fun k k' m hk hk' => h.one k k' m (hback k m hk) (hback k' m hk'), fun k m hm => ?_, h.finished,
    fun k m publish hm => ?_, h.past, fun m t id hc he => ?_⟩
  · by_cases hk : k = n
    · rw [hk, handlers_self] at hm
      exact hsettled m hm
    · rw [handlers_other hk] at hm
      exact h.received k m hm
  · by_cases hk : k = n
    · rw [hk, handlers_self] at hm
      exact absurd hm (hpending m publish)
    · rw [handlers_other hk] at hm
      exact h.pending k m publish hm
  · have he : OldEntry s m t id := ⟨he.event, he.cached, he.stored⟩
    obtain ⟨rfl, k, publish, hk⟩ := h.old m t id hc he
    by_cases hkn : k = n
    · rw [hkn] at hk
      exact absurd he (hgone m publish hk t)
    · exact ⟨rfl, k, publish, by rw [handlers_other hkn]; exact hk⟩

theorem DeliveriesInv.free (h : DeliveriesInv s)
    (hgone : ∀ m publish, s.handlers n = .invalidating m publish → ∀ t, ¬ OldEntry s m t m.eventId) :
    DeliveriesInv (s.goto n .idle) :=
  h.goto (fun _ e => by cases e) (fun _ e => by cases e) (fun _ _ e => by cases e) hgone

/-- The database and the cache change: no inbox row is lost, and entries only disappear. -/
theorem DeliveriesInv.store (h : DeliveriesInv s) (store : EventStore)
    (hinbox : ∀ id, id ∈ inbox s.store.db.processed → id ∈ inbox store.db.processed)
    (hredis : ∀ id event, store.redis (eventCacheKey id) = some event →
      s.store.redis (eventCacheKey id) = some event) :
    DeliveriesInv { s with store } where
  one := h.one
  received k m hm := hinbox _ (h.received k m hm)
  finished m hm := hinbox _ (h.finished m hm)
  pending := h.pending
  past := h.past
  old m t id hc he := by
    obtain ⟨event, hid⟩ := he.cached
    exact h.old m t id hc ⟨he.event, ⟨event, hredis id event hid⟩, he.stored⟩

theorem DeliveriesInv.setDb (h : DeliveriesInv s) {db : EventDb}
    (hinbox : ∀ id, id ∈ inbox s.store.db.processed → id ∈ inbox db.processed) : DeliveriesInv (s.setDb db) :=
  h.store { s.store with db } hinbox fun _ _ hid => hid

theorem drop_redis {key other : String} {event : EventDto} (h : (s.drop key).store.redis other = some event) :
    other ≠ key ∧ s.store.redis other = some event := by
  change Function.update s.store.redis key none other = some event at h
  by_cases hk : other = key
  · rw [hk, Function.update_self] at h; cases h
  · rw [Function.update_of_ne hk] at h
    exact ⟨hk, h⟩

theorem DeliveriesInv.drop (h : DeliveriesInv s) (key : String) : DeliveriesInv (s.drop key) :=
  h.store ⟨s.store.db, _⟩ (fun _ hid => hid) fun _ _ hid => (drop_redis hid).2

theorem DeliveriesInv.returns (h : DeliveriesInv s) (hm : m.messageId ∈ inbox s.store.db.processed)
    (hfree : ∀ n, (s.handlers n).message ≠ some m) : DeliveriesInv { s with returned := s.returned ++ [m] } :=
  { h with
    finished := fun m' hm' => by
      rcases List.mem_append.mp hm' with hm' | hm'
      · exact h.finished m' hm'
      · rw [List.mem_singleton.mp hm']; exact hm
    pending := fun k m' publish hk hm' => by
      rcases List.mem_append.mp hm' with hm' | hm'
      · exact h.pending k m' publish hk hm'
      · rw [List.mem_singleton] at hm'
        exact hfree k (by rw [hk, ← hm']; rfl)
    old := fun m' t id hc he => h.old m' t id hc ⟨he.event, he.cached, he.stored⟩ }

/-! ## One step -/

theorem start_cases (m : SeatMessage) : m.start = .throws ∨ m.start = .awaits (.processing m) := by
  cases m with
  | reserveSeats message => exact .inr rfl
  | releaseSeats message =>
    unfold SeatMessage.start
    rcases releaseSeatsCheck_cases message with ⟨_, hc⟩ | ⟨_, hc⟩
    · simp only [hc]; exact .inr trivial
    · simp only [hc]; exact .inl trivial

theorem DeliveriesInv.go (h : DeliveriesInv s) {next : SeatNext} (hn : (s.handlers n).message = some m)
    (hin : m.messageId ∈ inbox s.store.db.processed)
    (hnext : next.Leaves m)
    (hgone : ∀ m publish, s.handlers n = .invalidating m publish → ∀ t, ¬ OldEntry s m t m.eventId) :
    DeliveriesInv (s.go n m next) := by
  rcases hnext with rfl | ⟨h', rfl, hm, hp⟩
  · refine (h.free hgone).returns hin fun k hk => ?_
    by_cases hkn : k = n
    · rw [hkn, handlers_self] at hk; cases hk
    · rw [handlers_other hkn] at hk
      exact hkn (h.one k n m hk hn)
  · refine h.goto (fun m' e => ?_) (fun m' e => ?_) hp hgone
    · rw [hn, ← hm]; exact e
    · have hsame := settled_message e
      rw [hm] at hsame
      exact Option.some.inj hsame ▸ hin

theorem go_clock {next : SeatNext} : (s.go n m next).clock = s.clock := by cases next <;> rfl

theorem DeliveriesInv.go_tick {next : SeatNext} (h : DeliveriesInv (s.go n m next)) :
    DeliveriesInv { s.go n m next with clock := s.clock + 1 } := by
  have htick := h.tick
  rwa [go_clock] at htick

theorem DeliveriesInv.commit (h : DeliveriesInv s) (publish : Option DirectPublish) {db : EventDb}
    (hn : s.handlers n = .processing m) (hfresh : m.messageId ∉ inbox s.store.db.processed)
    (hnew : inbox db.processed = inbox s.store.db.processed ++ [m.messageId])
    (hother : ∀ id, id ≠ m.eventId → SameEvent id m.eventId → s.store.redis (eventCacheKey id) = none) :
    DeliveriesInv { ({ s.setDb db with commits := s.commits ++ [(m, s.clock)] }.goto n
      (.invalidating m publish)) with
      clock := s.clock + 1 } := by
  have hin : ∀ id, id ∈ inbox s.store.db.processed → id ∈ inbox db.processed := by
    intro id hid
    rw [hnew]; exact List.mem_append_left _ hid
  have hself : (s.goto n (.invalidating m publish)).handlers n = .invalidating m publish := handlers_self
  have hback : ∀ k m', ((s.goto n (.invalidating m publish)).handlers k).message = some m' →
      (s.handlers k).message = some m' := by
    intro k m' hm
    by_cases hk : k = n
    · rw [hk, hself] at hm
      rw [hk, hn]; exact hm
    · rwa [handlers_other hk] at hm
  refine ⟨fun k k' m' hk hk' => h.one k k' m' (hback k m' hk) (hback k' m' hk'), fun k m' hm => ?_,
    fun m' hm => hin _ (h.finished m' hm), fun k m' p hm hr => ?_, fun m' t hc => ?_, fun m' t id hc he => ?_⟩
  · change ((s.goto n (.invalidating m publish)).handlers k).settled = some m' at hm
    by_cases hk : k = n
    · rw [hk, hself] at hm
      obtain rfl := Option.some.inj hm
      show m.messageId ∈ inbox db.processed
      rw [hnew]; exact List.mem_append_right _ List.mem_cons_self
    · rw [handlers_other hk] at hm
      exact hin _ (h.received k m' hm)
  · change (s.goto n (.invalidating m publish)).handlers k = .invalidating m' p at hm
    by_cases hk : k = n
    · rw [hk, hself] at hm
      cases hm
      exact hfresh (h.finished m hr)
    · rw [handlers_other hk] at hm
      exact h.pending k m' p hm hr
  · rcases List.mem_append.mp hc with hc | hc
    · exact Nat.lt_succ_of_lt (h.past m' t hc)
    · cases List.mem_singleton.mp hc
      exact Nat.lt_succ_self _
  · have he' : OldEntry s m' t id := ⟨he.event, he.cached, he.stored⟩
    rcases List.mem_append.mp hc with hc | hc
    · obtain ⟨rfl, k, p, hk⟩ := h.old m' t id hc he'
      have hkn : k ≠ n := fun e => by rw [e, hn] at hk; cases hk
      exact ⟨rfl, k, p, (handlers_other hkn).trans hk⟩
    · cases List.mem_singleton.mp hc
      refine ⟨?_, n, publish, hself⟩
      by_contra hne
      obtain ⟨event, hid⟩ := he'.cached
      rw [hother id hne he'.event] at hid; cases hid

theorem not_invalidating (hn : ∀ m publish, s.handlers n ≠ .invalidating m publish) (m : SeatMessage)
    (publish : Option DirectPublish) (h : s.handlers n = .invalidating m publish) (t : Nat) :
    ¬ OldEntry s m t m.eventId :=
  absurd h (hn m publish)

theorem advance_inv {draw : Draw} (h : DeliveriesInv s) (hl : Invalidates s (.advance n draw))
    (he : s.advance n draw = some s') : DeliveriesInv { s' with clock := s.clock + 1 } := by
  cases advance_cases he with
  | threw phase => exact (h.free (not_invalidating fun _ _ e => by rw [phase] at e; cases e)).tick
  | @went m next db message phase received kept leaves =>
    have hin : m.messageId ∈ inbox db.processed := received.elim (fun hs => kept _ (h.received n m hs)) id
    exact DeliveriesInv.go_tick ((h.setDb kept).go message hin leaves (not_invalidating phase))
  | committed phase changed fresh new event => exact h.commit _ phase fresh new (hl _ phase changed)
  | @deleted m publish next phase leaves =>
    have hmessage : ((s.drop (eventCacheKey m.eventId)).handlers n).message = some m := by
      show (s.handlers n).message = some m
      rw [phase]; rfl
    have hin := h.received n m (by rw [phase]; rfl)
    refine ((h.drop (eventCacheKey m.eventId)).go hmessage hin leaves fun m' p hm t hold => ?_).go_tick
    -- the entry it was to delete is gone
    change s.handlers n = _ at hm
    rw [phase] at hm
    cases hm
    obtain ⟨event, hid⟩ := hold.cached
    exact (drop_redis hid).1 rfl

theorem goto_goto {h h' : SeatHandler} {c : Nat} :
    { s.goto n h with clock := c }.goto n h' = { s.goto n h' with clock := c } := by
  unfold Deliveries.goto
  simp only [Function.update_idem]

theorem loseReply_inv {draw : Draw} (h : DeliveriesInv s) (hl : Invalidates s (.loseReply n draw))
    (he : s.loseReply n draw = some s') : DeliveriesInv { s' with clock := s.clock + 1 } := by
  cases loseReply_cases he with
  | kept phase kept =>
    exact ((h.setDb kept).free (not_invalidating fun _ _ e => by
      change s.handlers n = _ at e
      rw [phase] at e; cases e)).tick
  | @committed m db phase changed fresh new event =>
    -- as if the handler had gone on and crashed before it deleted anything
    have hnone := hl m phase changed
    have hcommit := h.commit none phase fresh new fun id _ hsame => hnone id hsame
    have hfree := hcommit.free (n := n) fun m' p hm t hold => ?_
    · rwa [goto_goto] at hfree
    · change (Deliveries.goto _ n (.invalidating m none)).handlers n = _ at hm
      rw [handlers_self] at hm
      cases hm
      obtain ⟨entry, hid⟩ := hold.cached
      have := hnone m.eventId hold.event
      rw [show s.store.redis _ = _ from hid] at this; cases this

structure EntryRead (s s' : Deliveries) : Prop where
  db : s'.store.db = s.store.db
  handlers : s'.handlers = s.handlers
  commits : s'.commits = s.commits
  returned : s'.returned = s.returned
  entry : ∀ id event, s'.store.redis (eventCacheKey id) = some event →
    (s.store.redis (eventCacheKey id) = some event ∧
      s'.storedAt (eventCacheKey id) = s.storedAt (eventCacheKey id)) ∨ s'.storedAt (eventCacheKey id) = s.clock

theorem read_cases {id : String} {awaits : List Await} (h : s.getEventById id awaits = some s') :
    EntryRead s s' := by
  obtain ⟨⟨reply, store⟩, hserve, rfl⟩ := Option.map_eq_some_iff.mp h
  rcases serve_read hserve with hr | hr
  · obtain ⟨event, hhit, _, _, rfl⟩ := hr
    simp only [hhit, Option.isNone_some, Bool.false_eq_true, if_false]
    exact ⟨rfl, rfl, rfl, rfl, fun other event hid => .inl ⟨hid, rfl⟩⟩
  · obtain ⟨hmiss, _, hdb, hredis⟩ := hr
    simp only [hmiss, Option.isNone_none, if_true]
    refine ⟨hdb, rfl, rfl, rfl, fun other event hid => ?_⟩
    by_cases ho : other = id
    · rw [ho]
      exact .inr (Function.update_self ..)
    · have hkey : eventCacheKey other ≠ eventCacheKey id := fun e => ho (eventCacheKey_inj.mp e)
      refine .inl ⟨?_, Function.update_of_ne hkey ..⟩
      rcases hredis with hr | ⟨_, _, hr⟩
      · rwa [hr] at hid
      · rwa [hr, Function.update_of_ne hkey] at hid

theorem read_inv {id : String} {awaits : List Await} (h : DeliveriesInv s) (hidle : ∀ n, s.handlers n = .idle)
    (he : s.getEventById id awaits = some s') : DeliveriesInv { s' with clock := s.clock + 1 } := by
  have hr := read_cases he
  have hno : ∀ n, s'.handlers n = .idle := fun n => by rw [hr.handlers, hidle]
  refine ⟨fun n _ m hm => ?_, fun n m hm => ?_, fun m hm => ?_, fun n m publish hn => ?_, fun m t hc => ?_,
    fun m t other hc hold => ?_⟩
  · rw [hno n] at hm; cases hm
  · rw [hno n] at hm; cases hm
  · show m.messageId ∈ inbox s'.store.db.processed
    rw [hr.db]
    exact h.finished m (hr.returned ▸ hm)
  · rw [hno n] at hn; cases hn
  · exact Nat.lt_succ_of_lt (h.past m t (hr.commits ▸ hc))
  · have hc : (m, t) ∈ s.commits := hr.commits ▸ hc
    obtain ⟨event, hcached⟩ := hold.cached
    have hstored := hold.stored
    rcases hr.entry other event hcached with ⟨hkept, hsame⟩ | hnew
    · obtain ⟨_, n, publish, hn⟩ := h.old m t other hc ⟨hold.event, ⟨event, hkept⟩, hsame ▸ hstored⟩
      rw [hidle n] at hn; cases hn
    · -- a new entry is as old as the clock, and every change is older
      have hpast := h.past m t hc
      change s'.storedAt _ < t at hstored
      omega

theorem deliver_inv (h : DeliveriesInv s) (hl : Scheduled s (.deliver n m)) (hidle : s.handlers n = .idle) :
    DeliveriesInv { s.go n m m.start with clock := s.clock + 1 } := by
  have hfree : DeliveriesInv (s.goto n .idle) := h.free (not_invalidating fun _ _ e => by rw [hidle] at e; cases e)
  rcases start_cases m with hs | hs
  · rw [hs]
    exact hfree.tick
  · rw [hs]
    have hback : ∀ k m', ((s.goto n (.processing m)).handlers k).message = some m' →
        k = n ∧ m' = m ∨ (s.handlers k).message = some m' := by
      intro k m' hm
      by_cases hk : k = n
      · rw [hk, handlers_self] at hm
        exact .inl ⟨hk, (Option.some.inj hm).symm⟩
      · rw [handlers_other hk] at hm
        exact .inr hm
    have hother : ∀ k, (s.goto n (.processing m)).handlers k = .processing m ∧ k = n ∨
        (s.goto n (.processing m)).handlers k = s.handlers k := by
      intro k
      by_cases hk : k = n
      · rw [hk]; exact .inl ⟨handlers_self, rfl⟩
      · exact .inr (handlers_other hk)
    suffices DeliveriesInv (s.goto n (.processing m)) from this.tick
    refine ⟨fun k k' m' hk hk' => ?_, fun k m' hm => ?_, h.finished, fun k m' publish hm => ?_, h.past,
      fun m' t id hc he => ?_⟩
    · rcases hback k m' hk with ⟨hk, hm⟩ | hk
      · rcases hback k' m' hk' with ⟨hk', _⟩ | hk'
        · rw [hk, hk']
        · rw [hm] at hk'; exact absurd hk' (hl k')
      · rcases hback k' m' hk' with ⟨_, hm⟩ | hk'
        · rw [hm] at hk; exact absurd hk (hl k)
        · exact h.one k k' m' hk hk'
    · rcases hother k with ⟨hk, _⟩ | hk
      · rw [hk] at hm; cases hm
      · rw [hk] at hm; exact h.received k m' hm
    · rcases hother k with ⟨hk, _⟩ | hk
      · rw [hk] at hm; cases hm
      · rw [hk] at hm; exact h.pending k m' publish hm
    · obtain ⟨rfl, k, publish, hk⟩ := h.old m' t id hc ⟨he.event, he.cached, he.stored⟩
      refine ⟨rfl, k, publish, (handlers_other fun e => ?_).trans hk⟩
      rw [e, hidle] at hk; cases hk

theorem DeliveriesInv.statement {α : Type} {f : EventDb → Except DbError (α × EventDb)} (h : DeliveriesInv s)
    (hf : ∀ a d', f s.store.db = .ok (a, d') → d'.processed = s.store.db.processed) :
    DeliveriesInv (s.setDb (autocommit f s.store.db).2) := by
  refine h.setDb fun id hid => ?_
  rcases autocommit_cases (Prod.mk.eta (p := autocommit f s.store.db)).symm with hc | hc
  · rw [hc.1]; exact hid
  · obtain ⟨a, hc, _⟩ := hc
    rw [hf a _ hc]; exact hid

theorem deliveries_step {l : DeliveryLabel} (h : DeliveriesInv s) (hs : Scheduled s l) (hi : Invalidates s l)
    (he : seatDeliveries.exec s l = some s') : DeliveriesInv s' := by
  obtain ⟨s1, ha, rfl⟩ := Option.map_eq_some_iff.mp he
  cases l with
  | deliver n m =>
    obtain ⟨hidle, rfl⟩ := guard_eq_some.mp ha
    exact deliver_inv h hs hidle
  | advance n draw =>
    exact advance_inv h hi ha
  | reject n =>
    obtain ⟨hn, rfl⟩ := reject_cases ha
    exact (h.free (not_invalidating hn)).tick
  | loseReply n draw => exact loseReply_inv h hi ha
  | crash n =>
    obtain ⟨_, ha⟩ := Option.ite_none_left_eq_some.mp ha
    obtain rfl := Option.some.inj ha
    refine (h.free fun m publish hn t hold => ?_).tick
    obtain ⟨event, hid⟩ := hold.cached
    rw [hi m publish hn] at hid; cases hid
  | getEventById id awaits =>
    exact read_inv h hs ha
  | createEvent input draw =>
    obtain rfl := Option.some.inj ha
    refine (h.statement fun dto d' hc => ?_).tick
    obtain ⟨row, _, hc⟩ := eventCreate_cases hc
    exact hc.processed
  | updateEvent id input now =>
    obtain rfl := Option.some.inj ha
    refine (h.statement fun o d' hc => ?_).tick
    rcases updateStatement_cases hc with ⟨_, rfl, _⟩ | ⟨row, row', _, hc⟩
    · rfl
    · exact hc.processed
  | deleteEvent id =>
    obtain rfl := Option.some.inj ha
    refine (h.statement fun o d' hc => ?_).tick
    rcases deleteStatement_cases hc with ⟨_, rfl, _⟩ | ⟨row, _, hc⟩
    · rfl
    · exact hc.processed
  | drop key =>
    obtain rfl := Option.some.inj ha
    exact (h.drop key).tick
  | bookkeep op =>
    obtain rfl := Option.some.inj ha
    have hdb : DeliveriesInv (s.setDb { s.store.db with outbox := op.apply s.store.db.outbox }) :=
      h.setDb fun _ hid => hid
    exact hdb.tick

end

theorem DeliveriesInv.empty : DeliveriesInv .empty where
  one _ _ _ hm := by cases hm
  received _ _ hm := by cases hm
  finished _ hm := by cases hm
  pending _ _ _ hn := by cases hn
  past _ _ hc := by cases hc
  old _ _ _ hc := by cases hc

theorem deliveriesInv {s : Deliveries} (h : seatDeliveries.ReachBy (fun s l => Scheduled s l ∧ Invalidates s l) s) :
    DeliveriesInv s :=
  h.inv (fun s0 (h0 : s0 = .empty) => h0 ▸ .empty) fun _ _ _ _ hi hl he => deliveries_step hi hl.1 hl.2 he

/-! ## A step that leaves an entry behind -/

def Overdue (s : Deliveries) (m : SeatMessage) : Prop :=
  (∃ u, Uuid.cast m.eventId = .ok u) ∧ ∃ t, (m, t) ∈ s.commits ∧
    ∀ id event, s.store.redis (eventCacheKey id) = some event → s.storedAt (eventCacheKey id) < t

structure HandlersInv (s : Deliveries) : Prop where
  started : ∀ n m, (s.handlers n).message = some m → m.start = .awaits (.processing m)
  cached : ∀ id event, s.store.redis (eventCacheKey id) = some event → s.storedAt (eventCacheKey id) < s.clock
  overdue : ∀ n m publish, s.handlers n = .invalidating m publish → Overdue s m

section
variable {s s' : Deliveries} {n : Nat} {m : SeatMessage} {h' : SeatHandler}

theorem HandlersInv.tick (h : HandlersInv s) : HandlersInv { s with clock := s.clock + 1 } :=
  { h with cached := fun id event hid => Nat.lt_succ_of_lt (h.cached id event hid) }

theorem HandlersInv.goto (h : HandlersInv s) (hstart : ∀ m, h'.message = some m → m.start = .awaits (.processing m))
    (hoverdue : ∀ m publish, h' = .invalidating m publish → Overdue s m) : HandlersInv (s.goto n h') where
  started k m hm := by
    by_cases hk : k = n
    · rw [hk, handlers_self] at hm; exact hstart m hm
    · rw [handlers_other hk] at hm; exact h.started k m hm
  cached := h.cached
  overdue k m publish hm := by
    by_cases hk : k = n
    · rw [hk, handlers_self] at hm; exact hoverdue m publish hm
    · rw [handlers_other hk] at hm; exact h.overdue k m publish hm

theorem HandlersInv.free (h : HandlersInv s) : HandlersInv (s.goto n .idle) :=
  h.goto (fun _ e => by cases e) fun _ _ e => by cases e

theorem HandlersInv.go (h : HandlersInv s) {next : SeatNext} (hn : (s.handlers n).message = some m)
    (hnext : next.Leaves m) : HandlersInv { s.go n m next with clock := s.clock + 1 } := by
  rcases hnext with rfl | ⟨h', rfl, hm, hp⟩
  · exact { h.free.tick with }
  · refine (h.goto (fun m' e => h.started n m' ?_) fun m' p e => absurd e (hp m' p)).tick
    rw [hn, ← hm]; exact e

theorem HandlersInv.store (h : HandlersInv s) (store : EventStore)
    (hredis : ∀ id event, store.redis (eventCacheKey id) = some event →
      s.store.redis (eventCacheKey id) = some event) :
    HandlersInv { s with store } where
  started := h.started
  cached id event hid := h.cached id event (hredis id event hid)
  overdue n m publish hn := by
    obtain ⟨hu, t, ht, hold⟩ := h.overdue n m publish hn
    exact ⟨hu, t, ht, fun id event hid => hold id event (hredis id event hid)⟩

theorem HandlersInv.setDb (h : HandlersInv s) {db : EventDb} : HandlersInv (s.setDb db) :=
  h.store { s.store with db } fun _ _ hid => hid

theorem HandlersInv.commits (h : HandlersInv s) (c : SeatMessage × Nat) :
    HandlersInv { s with commits := s.commits ++ [c] } where
  started := h.started
  cached := h.cached
  overdue k m p hk := by
    obtain ⟨hu, t, ht, hold⟩ := h.overdue k m p hk
    exact ⟨hu, t, List.mem_append_left _ ht, hold⟩

theorem HandlersInv.drop (h : HandlersInv s) (key : String) : HandlersInv (s.drop key) :=
  h.store ⟨s.store.db, _⟩ fun _ _ hid => (drop_redis hid).2

theorem handlers_advance {draw : Draw} (h : HandlersInv s) (he : s.advance n draw = some s') :
    HandlersInv { s' with clock := s.clock + 1 } := by
  cases advance_cases he with
  | threw phase => exact h.free.tick
  | @went m next db message phase received kept leaves =>
    have hdb : HandlersInv (s.setDb db) := h.setDb
    exact hdb.go message leaves
  | @committed m publish db phase changed fresh new event =>
    refine ((h.setDb.commits (m, s.clock)).goto (fun m' e => ?_) fun m' p e => ?_).tick
    · cases e
      exact h.started n m (by rw [phase]; rfl)
    · cases e
      exact ⟨event, s.clock, List.mem_append_right _ List.mem_cons_self, h.cached⟩
  | @deleted m publish next phase leaves =>
    have hmessage : ((s.drop (eventCacheKey m.eventId)).handlers n).message = some m := by
      show (s.handlers n).message = some m
      rw [phase]; rfl
    exact (h.drop _).go hmessage leaves

theorem handlers_loseReply {draw : Draw} (h : HandlersInv s) (he : s.loseReply n draw = some s') :
    HandlersInv { s' with clock := s.clock + 1 } := by
  cases loseReply_cases he with
  | @kept m db phase kept =>
    have hdb : HandlersInv (s.setDb db) := h.setDb
    exact hdb.free.tick
  | committed phase changed fresh new event => exact (h.setDb.commits _).free.tick

theorem handlers_step {l : DeliveryLabel} (h : HandlersInv s) (hs : Scheduled s l)
    (he : seatDeliveries.exec s l = some s') : HandlersInv s' := by
  obtain ⟨s1, ha, rfl⟩ := Option.map_eq_some_iff.mp he
  have hfree : ∀ n, HandlersInv { s.goto n .idle with clock := s.clock + 1 } := fun n => h.free.tick
  cases l with
  | deliver n m =>
    obtain ⟨_, rfl⟩ := guard_eq_some.mp ha
    rcases start_cases m with hm | hm
    · rw [hm]; exact hfree n
    · rw [hm]
      refine (h.goto (fun m' e => ?_) fun _ _ e => by cases e).tick
      cases e
      exact hm
  | advance n draw => exact handlers_advance h ha
  | reject n =>
    obtain ⟨_, rfl⟩ := reject_cases ha
    exact hfree n
  | loseReply n draw => exact handlers_loseReply h ha
  | crash n =>
    obtain ⟨_, ha⟩ := Option.ite_none_left_eq_some.mp ha
    obtain rfl := Option.some.inj ha
    exact hfree n
  | getEventById id awaits =>
    have hr := read_cases ha
    have hno : ∀ n, s1.handlers n = .idle := fun n => by rw [hr.handlers, hs n]
    refine ⟨fun n m hm => ?_, fun other event hid => ?_, fun n m publish hn => ?_⟩
    · rw [hno n] at hm; cases hm
    · show s1.storedAt (eventCacheKey other) < s.clock + 1
      rcases hr.entry other event hid with ⟨hkept, hsame⟩ | hnew
      · have := h.cached other event hkept
        omega
      · omega
    · rw [hno n] at hn; cases hn
  | createEvent | updateEvent | deleteEvent | bookkeep =>
    obtain rfl := Option.some.inj ha
    exact h.setDb.tick
  | drop key =>
    obtain rfl := Option.some.inj ha
    exact (h.drop key).tick

end

theorem HandlersInv.empty : HandlersInv .empty where
  started _ _ hm := by cases hm
  cached _ _ hid := by cases hid
  overdue _ _ _ hn := by cases hn

theorem handlersInv {s : Deliveries} (h : seatDeliveries.ReachBy (fun s l => Scheduled s l ∧ Invalidates s l) s) :
    HandlersInv s :=
  h.inv (fun s0 (h0 : s0 = .empty) => h0 ▸ .empty) fun _ _ _ _ hi hl he => handlers_step hi hl.1 he

def Alone (n : Nat) (ls : List DeliveryLabel) : Prop := ∀ l ∈ ls, ∃ draw, l = .advance n draw

theorem Alone.scheduled {n : Nat} {ls : List DeliveryLabel} (h : Alone n ls) (s : Deliveries) :
    seatDeliveries.Meets Scheduled s ls := by
  refine Machine.meets_of_forall (fun l hl s0 => ?_) s
  obtain ⟨draw, rfl⟩ := h l hl
  trivial

def Finishes (n : Nat) (m : SeatMessage) (s : Deliveries) : Prop :=
  ∃ ls s', Alone n ls ∧ seatDeliveries.run s ls = some s' ∧ m ∈ s'.returned ∧ s'.commits = s.commits ∧
    s'.storedAt = s.storedAt ∧ ∀ id, id ≠ m.eventId →
      s'.store.redis (eventCacheKey id) = s.store.redis (eventCacheKey id)

section
variable {s s' s1 : Deliveries} {n : Nat} {m : SeatMessage}

theorem Finishes.advance {draw : Draw} (h : Finishes n m { s1 with clock := s.clock + 1 })
    (he : s.advance n draw = some s1) (hcommits : s1.commits = s.commits) (hstored : s1.storedAt = s.storedAt)
    (hredis : ∀ id, id ≠ m.eventId → s1.store.redis (eventCacheKey id) = s.store.redis (eventCacheKey id)) :
    Finishes n m s := by
  obtain ⟨ls, s', hls, hrun, hm, hc, ht, hr⟩ := h
  have hexec : seatDeliveries.exec s (.advance n draw) = some { s1 with clock := s.clock + 1 } :=
    congrArg (Option.map _) he
  refine ⟨.advance n draw :: ls, s', fun l hl => ?_, Machine.run_cons_some.mpr ⟨_, hexec, hrun⟩, hm,
    hc.trans hcommits, ht.trans hstored, fun id hid => (hr id hid).trans (hredis id hid)⟩
  rcases List.mem_cons.mp hl with rfl | hl
  · exact ⟨draw, rfl⟩
  · exact hls l hl

theorem finishes_of_returned (h : m ∈ s.returned) : Finishes n m s :=
  ⟨[], s, fun _ hl => (by cases hl), rfl, h, rfl, rfl, fun _ _ => rfl⟩

theorem finishes_returns {c : Nat} : Finishes n m { s.go n m .returns with clock := c } :=
  finishes_of_returned (List.mem_append_right _ List.mem_cons_self)

theorem finishes_marking {id : RandomUUID} (hn : s.handlers n = .marking m id) : Finishes n m s := by
  have hstep : s.advance n (sampleDraw 0 0 0 0 0) = some ((s.setDb { s.store.db with
      outbox := markOutboxPublished 0 id.val none s.store.db.outbox }).go n m .returns) := by
    unfold Deliveries.advance; rw [hn]; rfl
  exact Finishes.advance finishes_returns hstep rfl rfl fun _ _ => rfl

theorem finishes_publishing {p : DirectPublish} (hn : s.handlers n = .publishing m p) : Finishes n m s := by
  have hstep : s.advance n (sampleDraw 0 0 0 0 0) =
      some (s.go n m (p.outboxRowId.elim .returns fun id => .awaits (.marking m id))) := by
    unfold Deliveries.advance; rw [hn]
  cases hid : p.outboxRowId with
  | none =>
    rw [hid] at hstep
    exact Finishes.advance finishes_returns hstep rfl rfl fun _ _ => rfl
  | some id =>
    rw [hid] at hstep
    have hmark : Finishes n m { s.goto n (.marking m id) with clock := s.clock + 1 } :=
      finishes_marking handlers_self
    exact hmark.advance hstep rfl rfl fun _ _ => rfl

theorem finishes_invalidating {publish : Option DirectPublish} (hn : s.handlers n = .invalidating m publish) :
    Finishes n m s := by
  have hstep : s.advance n (sampleDraw 0 0 0 0 0) =
      some ((s.drop (eventCacheKey m.eventId)).go n m (m.publish publish)) := by
    unfold Deliveries.advance; rw [hn]
  have hother : ∀ id, id ≠ m.eventId →
      (s.drop (eventCacheKey m.eventId)).store.redis (eventCacheKey id) = s.store.redis (eventCacheKey id) :=
    fun id hid => Function.update_of_ne (fun e => hid (eventCacheKey_inj.mp e)) ..
  cases publish with
  | none => exact Finishes.advance finishes_returns hstep rfl rfl hother
  | some p =>
    have hpublish : Finishes n m { (s.drop (eventCacheKey m.eventId)).goto n (.publishing m p) with
      clock := s.clock + 1 } := finishes_publishing handlers_self
    exact hpublish.advance hstep rfl rfl hother

theorem process_duplicate {d : EventDb} {draw : Draw} (hbudget : draw.budget = none)
    (h : m.messageId ∈ inbox d.processed) : m.process draw d = (.returns, d) := by
  cases m with
  | reserveSeats message =>
    have hrefused : processedEventMessageCreate message.messageId draw.now d = .error .uniqueViolation :=
      insertInto_error.mpr ⟨rfl, fun hf => processed_fresh.mp hf h⟩
    have htx : Tx.transact (reserveSeats message draw) draw.budget d = (.ok .duplicate, d) := by
      rw [hbudget]; exact Tx.transact_refused hrefused
    unfold SeatMessage.process
    simp only [htx]; rfl
  | releaseSeats message =>
    have hrefused : processedEventMessageCreate message.messageId draw.now d = .error .uniqueViolation :=
      insertInto_error.mpr ⟨rfl, fun hf => processed_fresh.mp hf h⟩
    have htx : Tx.transact (releaseSeats message draw) draw.budget d = (.ok .duplicate, d) := by
      rw [hbudget]; exact Tx.transact_refused hrefused
    unfold SeatMessage.process
    simp only [htx]

theorem not_invalidated {t : Nat} {id : String} {event : EventDto} (hm : m ∈ s.returned) (hc : (m, t) ∈ s.commits)
    (hs : SameEvent id m.eventId) (hid : s.store.redis (eventCacheKey id) = some event)
    (ht : s.storedAt (eventCacheKey id) < t) : ¬ s.Invalidated :=
  fun h => h m t id event hm hc hs hid ht

theorem redelivery_leaves {t : Nat} {id : String} {event : EventDto} (hn : s.handlers n = .idle)
    (hfree : ∀ k, (s.handlers k).message ≠ some m) (hstart : m.start = .awaits (.processing m))
    (hin : m.messageId ∈ inbox s.store.db.processed) (hc : (m, t) ∈ s.commits) (hsame : SameEvent id m.eventId)
    (hid : s.store.redis (eventCacheKey id) = some event) (ht : s.storedAt (eventCacheKey id) < t) :
    ∃ ls t, seatDeliveries.Meets Scheduled s ls ∧ seatDeliveries.run s ls = some t ∧ ¬ t.Invalidated := by
  let s1 : Deliveries := { s.goto n (.processing m) with clock := s.clock + 1 }
  have hdeliver : seatDeliveries.exec s (.deliver n m) = some s1 := by
    change Option.map _ (if s.handlers n = .idle then some _ else none) = some s1
    rw [if_pos hn, hstart]; rfl
  have hprocessing : s1.handlers n = .processing m := handlers_self
  have hadvance : s1.advance n (sampleDraw 0 0 0 0 0) =
      some (((s1.setDb s1.store.db).record m .returns).go n m .returns) := by
    have hdup : m.process (sampleDraw 0 0 0 0 0) s1.store.db = (.returns, s1.store.db) := process_duplicate rfl hin
    unfold Deliveries.advance
    rw [hprocessing]
    simp only [hdup]
  refine ⟨[.deliver n m, .advance n (sampleDraw 0 0 0 0 0)], _, ⟨hfree, fun _ _ => ⟨trivial, fun _ _ => trivial⟩⟩,
    Machine.run_cons_some.mpr ⟨s1, hdeliver,
      Machine.run_cons_some.mpr ⟨_, congrArg (Option.map _) hadvance, rfl⟩⟩, ?_⟩
  exact not_invalidated (List.mem_append_right _ List.mem_cons_self) hc hsame hid ht

theorem DeliveriesInv.released (h : DeliveriesInv s) (hn : (s.handlers n).message = some m) (k : Nat) :
    ((s.goto n .idle).handlers k).message ≠ some m := by
  intro hk
  by_cases hkn : k = n
  · rw [hkn, handlers_self] at hk; cases hk
  · rw [handlers_other hkn] at hk
    exact hkn (h.one k n m hk hn)

theorem crash_leaves {publish : Option DirectPublish} {event : EventDto} (h : DeliveriesInv s) (hh : HandlersInv s)
    (hn : s.handlers n = .invalidating m publish) (hid : s.store.redis (eventCacheKey m.eventId) = some event)
    (he : seatDeliveries.exec s (.crash n) = some s') :
    ∃ ls t, seatDeliveries.Meets Scheduled s' ls ∧ seatDeliveries.run s' ls = some t ∧ ¬ t.Invalidated := by
  obtain ⟨s0, ha, rfl⟩ := Option.map_eq_some_iff.mp he
  obtain ⟨_, ha⟩ := Option.ite_none_left_eq_some.mp ha
  obtain rfl := Option.some.inj ha
  obtain ⟨⟨u, hu⟩, t, ht, hold⟩ := hh.overdue n m publish hn
  exact redelivery_leaves handlers_self (h.released (by rw [hn]; rfl)) (hh.started n m (by rw [hn]; rfl))
    (h.received n m (by rw [hn]; rfl)) ht ⟨u, hu, hu⟩ hid (hold _ event hid)

theorem loseReply_leaves {draw : Draw} {id : String} {event : EventDto} (h : DeliveriesInv s) (hh : HandlersInv s)
    (hn : s.handlers n = .processing m) (hchanged : (m.process draw s.store.db).1.changed = true)
    (hsame : SameEvent id m.eventId) (hid : s.store.redis (eventCacheKey id) = some event)
    (he : seatDeliveries.exec s (.loseReply n draw) = some s') :
    ∃ ls t, seatDeliveries.Meets Scheduled s' ls ∧ seatDeliveries.run s' ls = some t ∧ ¬ t.Invalidated := by
  obtain ⟨s1, ha, rfl⟩ := Option.map_eq_some_iff.mp he
  change s.loseReply n draw = some s1 at ha
  unfold Deliveries.loseReply at ha
  rw [hn] at ha
  obtain rfl := Option.some.inj ha
  have hcases := process_cases draw s.store.db m
  generalize m.process draw s.store.db = p at hchanged hcases ⊢
  obtain ⟨next, db⟩ := p
  cases hcases with
  | threw | duplicate => cases hchanged
  | kept next_eq new => rcases next_eq with rfl | ⟨p, rfl⟩ <;> cases hchanged
  | changed fresh new event =>
    refine redelivery_leaves (n := n) (t := s.clock) handlers_self (h.released (by rw [hn]; rfl))
      (hh.started n m (by rw [hn]; rfl)) ?_ (List.mem_append_right _ List.mem_cons_self) hsame hid
        (hh.cached id _ hid)
    show m.messageId ∈ inbox db.processed
    rw [new]; exact List.mem_append_right _ List.mem_cons_self

theorem commit_leaves {draw : Draw} {id : String} {event : EventDto} (hh : HandlersInv s)
    (hn : s.handlers n = .processing m) (hchanged : (m.process draw s.store.db).1.changed = true)
    (hne : id ≠ m.eventId) (hsame : SameEvent id m.eventId) (hid : s.store.redis (eventCacheKey id) = some event)
    (he : seatDeliveries.exec s (.advance n draw) = some s') :
    ∃ ls t, seatDeliveries.Meets Scheduled s' ls ∧ seatDeliveries.run s' ls = some t ∧ ¬ t.Invalidated := by
  obtain ⟨s1, ha, rfl⟩ := Option.map_eq_some_iff.mp he
  change s.advance n draw = some s1 at ha
  unfold Deliveries.advance at ha
  rw [hn] at ha
  obtain rfl := Option.some.inj ha
  have hcases := process_cases draw s.store.db m
  generalize m.process draw s.store.db = p at hchanged hcases ⊢
  obtain ⟨next, db⟩ := p
  cases hcases with
  | threw | duplicate => cases hchanged
  | kept next_eq new => rcases next_eq with rfl | ⟨p, rfl⟩ <;> cases hchanged
  | @changed publish _ fresh new event =>
    have hfinish : Finishes n m { ((s.setDb db).record m (.awaits (.invalidating m publish))).go n m
      (.awaits (.invalidating m publish)) with clock := s.clock + 1 } := finishes_invalidating handlers_self
    obtain ⟨ls, t, hls, hrun, hm, hc, ht, hr⟩ := hfinish
    refine ⟨ls, t, hls.scheduled _, hrun, not_invalidated (t := s.clock) hm ?_ hsame ((hr id hne).trans hid) ?_⟩
    · rw [hc]
      exact List.mem_append_right _ List.mem_cons_self
    · rw [ht]
      exact hh.cached id _ hid

end

/-- While every step meets the condition no entry outlives its message's delivery. After a step
that does not meet it, deliveries can go on so that one does. -/
theorem entries_invalidated {s : Deliveries}
    (h : seatDeliveries.ReachBy (fun s l => Scheduled s l ∧ Invalidates s l) s) :
    s.Invalidated ∧ ∀ l s', Scheduled s l → seatDeliveries.exec s l = some s' → ¬ Invalidates s l →
      ∃ ls t, seatDeliveries.Meets Scheduled s' ls ∧ seatDeliveries.run s' ls = some t ∧ ¬ t.Invalidated := by
  have hinv := deliveriesInv h
  have hhandlers := handlersInv h
  refine ⟨hinv.invalidated, fun l s' _ he hnot => ?_⟩
  cases l with
  | crash n =>
    simp only [Invalidates, not_forall] at hnot
    obtain ⟨m, publish, hn, hid⟩ := hnot
    obtain ⟨event, hid⟩ := Option.ne_none_iff_exists'.mp hid
    exact crash_leaves hinv hhandlers hn hid he
  | advance n draw =>
    simp only [Invalidates, not_forall] at hnot
    obtain ⟨m, hn, hchanged, id, hne, hsame, hid⟩ := hnot
    obtain ⟨event, hid⟩ := Option.ne_none_iff_exists'.mp hid
    exact commit_leaves hhandlers hn hchanged hne hsame hid he
  | loseReply n draw =>
    simp only [Invalidates, not_forall] at hnot
    obtain ⟨m, hn, hchanged, id, hsame, hid⟩ := hnot
    obtain ⟨event, hid⟩ := Option.ne_none_iff_exists'.mp hid
    exact loseReply_leaves hinv hhandlers hn hchanged hsame hid he
  | _ => exact absurd trivial hnot

/-! ## One handler and one spelling -/

def sampleReserve : SeatMessage :=
  .reserveSeats (envelope (sample 4) (sampleText 6) 0 ⟨sampleText 6, sampleText 10, sampleText 7, 3⟩)

def reserveCommitted : List DeliveryLabel :=
  [.createEvent recital (sampleDraw 10 0 0 0 0),
    .getEventById (sampleText 10) (List.replicate 3 (.resolved (sampleDraw 0 0 0 0 0))),
    .deliver 0 sampleReserve, .advance 0 (sampleDraw 0 8 9 10 11)]

def redelivered : List DeliveryLabel := [.crash 0, .deliver 0 sampleReserve, .advance 0 (sampleDraw 0 8 9 10 11)]

structure OneHandler (s : Deliveries) : Prop where
  idle : ∀ n, n ≠ 0 → s.handlers n = .idle
  uncached : ∀ id, id ≠ sampleText 10 → s.store.redis (eventCacheKey id) = none

def oneHandlerStep (crashes : Bool) (s : Deliveries) : DeliveryLabel → Bool
  | .deliver n m => decide (n = 0) && decide ((s.handlers 0).message ≠ some m)
  | .advance n _ => decide (n = 0) && (s.handlers 0).message.all fun m => decide (m.eventId = sampleText 10)
  | .crash n => decide (n = 0) && (crashes || (s.store.redis (eventCacheKey (sampleText 10))).isNone)
  | .getEventById id _ => decide (id = sampleText 10) && decide (s.handlers 0 = .idle)
  | .createEvent _ _ => true
  | _ => false

section
variable {s s' : Deliveries} {l : DeliveryLabel} {n : Nat} {crashes : Bool}

theorem go_other {k : Nat} {m : SeatMessage} {next : SeatNext} (hk : k ≠ n) :
    (s.go n m next).handlers k = s.handlers k := by
  cases next <;> exact handlers_other hk

theorem go_store {m : SeatMessage} {next : SeatNext} : (s.go n m next).store = s.store := by cases next <;> rfl

theorem advance_frame {draw : Draw} (h : s.advance n draw = some s') : (∀ k, k ≠ n → s'.handlers k = s.handlers k) ∧
    ∀ key event, s'.store.redis key = some event → s.store.redis key = some event := by
  cases advance_cases h with
  | threw phase => exact ⟨fun k hk => handlers_other hk, fun key event hid => hid⟩
  | went => exact ⟨fun k hk => go_other hk, fun key event hid => by rw [go_store] at hid; exact hid⟩
  | committed => exact ⟨fun k hk => handlers_other hk, fun key event hid => hid⟩
  | deleted =>
    refine ⟨fun k hk => go_other hk, fun key event hid => ?_⟩
    rw [go_store] at hid
    exact (drop_redis hid).2

theorem OneHandler.step (h : OneHandler s) (ht : oneHandlerStep crashes s l = true)
    (he : seatDeliveries.exec s l = some s') : OneHandler s' := by
  obtain ⟨s1, ha, rfl⟩ := Option.map_eq_some_iff.mp he
  cases l with
  | deliver n m =>
    obtain ⟨_, rfl⟩ := guard_eq_some.mp ha
    simp only [oneHandlerStep, Bool.and_eq_true, decide_eq_true_eq] at ht
    obtain ⟨rfl, _⟩ := ht
    refine ⟨fun k hk => (go_other hk).trans (h.idle k hk), fun id hid => ?_⟩
    show (s.go 0 m m.start).store.redis (eventCacheKey id) = none
    rw [go_store]; exact h.uncached id hid
  | advance n draw =>
    simp only [oneHandlerStep, Bool.and_eq_true, decide_eq_true_eq] at ht
    obtain ⟨rfl, _⟩ := ht
    obtain ⟨hhandlers, hredis⟩ := advance_frame ha
    refine ⟨fun k hk => (hhandlers k hk).trans (h.idle k hk), fun id hid => ?_⟩
    by_contra hsome
    obtain ⟨event, hsome⟩ := Option.ne_none_iff_exists'.mp hsome
    have hnone := h.uncached id hid
    rw [hredis _ _ hsome] at hnone; cases hnone
  | crash n =>
    obtain ⟨_, ha⟩ := Option.ite_none_left_eq_some.mp ha
    obtain rfl := Option.some.inj ha
    simp only [oneHandlerStep, Bool.and_eq_true, decide_eq_true_eq] at ht
    obtain ⟨rfl, _⟩ := ht
    exact ⟨fun k hk => (handlers_other hk).trans (h.idle k hk), h.uncached⟩
  | getEventById id awaits =>
    simp only [oneHandlerStep, Bool.and_eq_true, decide_eq_true_eq] at ht
    obtain ⟨rfl, _⟩ := ht
    obtain ⟨⟨reply, store⟩, hserve, rfl⟩ := Option.map_eq_some_iff.mp ha
    refine ⟨h.idle, fun other hother => ?_⟩
    show store.redis (eventCacheKey other) = none
    rcases serve_read hserve with ⟨_, _, _, _, rfl⟩ | ⟨_, _, _, hr | ⟨_, _, hr⟩⟩
    · exact h.uncached other hother
    · rw [hr]; exact h.uncached other hother
    · rw [hr, redis_update, if_neg hother]; exact h.uncached other hother
  | createEvent input draw =>
    obtain rfl := Option.some.inj ha
    exact ⟨h.idle, h.uncached⟩
  | reject | loseReply | updateEvent | deleteEvent | drop | bookkeep => cases ht

theorem OneHandler.scheduled (h : OneHandler s) (ht : oneHandlerStep crashes s l = true) : Scheduled s l := by
  cases l with
  | deliver n m =>
    simp only [oneHandlerStep, Bool.and_eq_true, decide_eq_true_eq] at ht
    intro k
    by_cases hk : k = 0
    · rw [hk]; exact ht.2
    · rw [h.idle k hk]
      intro e; cases e
  | getEventById id awaits =>
    simp only [oneHandlerStep, Bool.and_eq_true, decide_eq_true_eq] at ht
    intro k
    by_cases hk : k = 0
    · rw [hk]; exact ht.2
    · exact h.idle k hk
  | _ => trivial

theorem OneHandler.invalidates (h : OneHandler s) (ht : oneHandlerStep false s l = true) : Invalidates s l := by
  cases l with
  | crash n =>
    simp only [oneHandlerStep, Bool.and_eq_true, decide_eq_true_eq, Bool.false_or, Option.isNone_iff_eq_none] at ht
    intro m publish _
    by_cases hm : m.eventId = sampleText 10
    · rw [hm]; exact ht.2
    · exact h.uncached _ hm
  | advance n draw =>
    simp only [oneHandlerStep, Bool.and_eq_true, decide_eq_true_eq] at ht
    obtain ⟨rfl, hall⟩ := ht
    intro m hm _ id hid _
    rw [hm] at hall
    have hm : m.eventId = sampleText 10 := by simpa [SeatHandler.message] using hall
    exact h.uncached id (hm ▸ hid)
  | loseReply n draw => cases ht
  | _ => trivial

end

theorem OneHandler.empty : OneHandler .empty := ⟨fun _ _ => rfl, fun _ _ => rfl⟩

def Deliveries.view (s : Deliveries) : List (SeatMessage × Nat) × List SeatMessage × Option Int × Nat :=
  (s.commits, s.returned, (s.store.redis (eventCacheKey (sampleText 10))).map (·.availableSeats),
    s.storedAt (eventCacheKey (sampleText 10)))

/-- The handler crashes after it deleted the entry, and returns for the duplicate. -/
theorem entry_invalidated_before_crash : ∃ s, seatDeliveries.run .empty
      (reserveCommitted ++ .advance 0 (sampleDraw 0 8 9 10 11) :: redelivered) = some s ∧
    s.view = ([(sampleReserve, 3)], [sampleReserve], none, 1) ∧ s.Invalidated := by
  have h : (seatDeliveries.run .empty (reserveCommitted ++ .advance 0 (sampleDraw 0 8 9 10 11) :: redelivered)).map
      Deliveries.view = some ([(sampleReserve, 3)], [sampleReserve], none, 1) := by decide +kernel
  have hallowed : seatDeliveries.allowed (oneHandlerStep false) .empty
      (reserveCommitted ++ .advance 0 (sampleDraw 0 8 9 10 11) :: redelivered) = true := by decide +kernel
  obtain ⟨s, hs, hview⟩ := Option.map_eq_some_iff.mp h
  have hmeets := Machine.meets_of_allowed_inv (C := fun s l => Scheduled s l ∧ Invalidates s l)
    (fun _ _ hi ht => ⟨hi.scheduled ht, hi.invalidates ht⟩) (fun _ _ _ hi ht he => hi.step ht he)
    OneHandler.empty hallowed
  exact ⟨s, hs, hview, (entries_invalidated (Machine.ReachBy.run (.start rfl) hmeets hs)).1⟩

/-- The handler crashes between its commit and the deletion; the duplicate branch returns and the entry stays. -/
theorem stale_after_crash : ∃ s, seatDeliveries.run .empty (reserveCommitted ++ redelivered) = some s ∧
    seatDeliveries.Meets Scheduled .empty (reserveCommitted ++ redelivered) ∧
    s.view = ([(sampleReserve, 3)], [sampleReserve], some 10, 1) ∧ ¬ s.Invalidated := by
  have h : (seatDeliveries.run .empty (reserveCommitted ++ redelivered)).map Deliveries.view =
      some ([(sampleReserve, 3)], [sampleReserve], some 10, 1) := by decide +kernel
  have hallowed : seatDeliveries.allowed (oneHandlerStep true) .empty (reserveCommitted ++ redelivered) = true := by
    decide +kernel
  obtain ⟨s, hs, hview⟩ := Option.map_eq_some_iff.mp h
  have hmeets := Machine.meets_of_allowed_inv (C := Scheduled) (fun _ _ hi ht => OneHandler.scheduled hi ht)
    (fun _ _ _ hi ht he => hi.step ht he) OneHandler.empty hallowed
  refine ⟨s, hs, hmeets, hview, ?_⟩
  obtain ⟨hcommits, hreturned, hentry, hstored⟩ : s.commits = [(sampleReserve, 3)] ∧ s.returned = [sampleReserve] ∧
      (s.store.redis (eventCacheKey (sampleText 10))).map (·.availableSeats) = some 10 ∧
      s.storedAt (eventCacheKey (sampleText 10)) = 1 := by
    simpa [Deliveries.view] using hview
  obtain ⟨event, hid, _⟩ := Option.map_eq_some_iff.mp hentry
  have hcast : Uuid.cast (sampleText 10) = .ok (sample 10).val := Uuid.cast_text (sample 10).val
  have hsame : SameEvent (sampleText 10) sampleReserve.eventId := ⟨_, hcast, hcast⟩
  refine not_invalidated (m := sampleReserve) (t := 3) ?_ ?_ hsame hid ?_
  · rw [hreturned]; exact List.mem_cons_self
  · rw [hcommits]; exact List.mem_cons_self
  · rw [hstored]; decide

end EventBooking
