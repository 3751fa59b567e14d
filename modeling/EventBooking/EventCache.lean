import EventBooking.SeatLedger
import EventBooking.Lib.CacheAside

/-!
# The event cache

The calls of `EventsService` and `InventoryService` that read or delete cache
entries, over one event database and one Redis. A call is the point of the
function it stands at: each await is a step, and the steps of all calls of all
replicas interleave.
-/

namespace EventBooking
open Lib

def eventCacheKey (eventId : String) : String := "event:" ++ eventId

theorem eventCacheKey_inj {id id' : String} : eventCacheKey id = eventCacheKey id' ↔ id = id' := by
  unfold eventCacheKey
  rw [← String.toList_inj, String.toList_append, String.toList_append, List.append_cancel_left_eq,
    String.toList_inj]

/-! ## Calls -/

inductive EventWrite
  | updateEvent (id : String) (input : EventInput)
  | deleteEvent (id : String)
  | reserveSeats (message : MessageEnvelope ReserveSeatsPayload)
  | releaseSeats (message : MessageEnvelope BookingEventQuantityPayload)
  deriving DecidableEq

inductive EventOp
  | getEventById (id : String)
  | write (w : EventWrite)
  deriving DecidableEq

def EventWrite.eventId : EventWrite → String
  | .updateEvent id _ => id
  | .deleteEvent id => id
  | .reserveSeats message => message.payload.eventId
  | .releaseSeats message => message.payload.eventId

def EventOp.eventId : EventOp → String
  | .getEventById id => id
  | .write w => w.eventId

inductive EventReply
  | event (r : Except ServiceError EventDto)
  | deleted (r : Except ServiceError Unit)
  | reserved (r : Except DbError ReserveSeatsResult)
  | released (r : Except ServiceError ReleaseSeatsResult)
  deriving DecidableEq

inductive EventCall
  | absent
  | getting (id : String)
  | finding (id : String)
  | setting (id : String) (event : EventDto)
  | writing (w : EventWrite)
  | rereadingUpdate (id : String)
  | rereadingDelete (id : String)
  | deleting (id : String) (reply : EventReply)
  | returned (reply : EventReply)
  | crashed
  deriving DecidableEq

def EventCall.inProgress : EventCall → Bool
  | .absent | .returned _ | .crashed => false
  | _ => true

def EventOp.begin : EventOp → EventCall
  | .getEventById id => .getting id
  | .write (.releaseSeats message) =>
    match releaseSeatsCheck message with
    | .error e => .returned (.released (.error e))
    | .ok () => .writing (.releaseSeats message)
  | .write w => .writing w

def EventWrite.failed (e : DbError) : EventWrite → EventReply
  | .updateEvent _ _ => .event (.error (.db e))
  | .deleteEvent _ => .deleted (.error (.db e))
  | .reserveSeats _ => .reserved (.error e)
  | .releaseSeats _ => .released (.error (.db e))

/-- The database write of a call, and what the call does next. -/
def EventWrite.perform (draw : Draw) (db : EventDb) : EventWrite → EventCall × EventDb
  | .updateEvent id input =>
    let (row, db') := autocommit (updateStatement id input draw.now) db
    match row with
    | .ok (some row) => (.deleting id (.event (.ok row.mapRow)), db')
    | .ok none => (.rereadingUpdate id, db')
    | .error e => (.returned (.event (.error (.db e))), db')
  | .deleteEvent id =>
    let (deleted, db') := autocommit (deleteStatement id) db
    match deleted with
    | .ok (some _) => (.deleting id (.deleted (.ok ())), db')
    | .ok none => (.rereadingDelete id, db')
    | .error e => (.returned (.deleted (.error (.db e))), db')
  | .reserveSeats message =>
    let (result, db') := Tx.transact (EventBooking.reserveSeats message draw) draw.budget db
    match result with
    | .ok (.reserved _ _) => (.deleting message.payload.eventId (.reserved result), db')
    | _ => (.returned (.reserved result), db')
  | .releaseSeats message =>
    let (result, db') := Tx.transact (EventBooking.releaseSeats message draw) draw.budget db
    match result with
    | .ok (.released event) => (.deleting message.payload.eventId (.released (.ok (.released event))), db')
    | .ok result => (.returned (.released (.ok result)), db')
    | .error e => (.returned (.released (.error (.db e))), db')

/-- `findById`, and the error `getEventById` throws for a missing row. -/
def findEvent (db : EventDb) (id : String) : Except ServiceError EventDto :=
  match eventFindUnique id db with
  | .ok (some row, _) => .ok row.mapRow
  | .ok (none, _) => .error (.app EventErrors.notFound)
  | .error e => .error (.db e)

/-! ## The replicas -/

structure Replicas where
  db : EventDb
  redis : String → Option EventDto
  calls : Nat → EventCall

inductive ReplicaLabel
  | start (call : Nat) (op : EventOp)
  | advance (call : Nat) (draw : Draw)
  | reject (call : Nat)
  | loseReply (call : Nat) (draw : Draw)
  | crash (call : Nat)
  | expire (key : String)
  | createEvent (input : EventInput) (draw : Draw)
  deriving DecidableEq

namespace Replicas

def empty : Replicas := ⟨.empty, fun _ => none, fun _ => .absent⟩

def goto (s : Replicas) (n : Nat) (call : EventCall) : Replicas :=
  { s with calls := Function.update s.calls n call }

def advance (s : Replicas) (n : Nat) (draw : Draw) : Option Replicas :=
  match s.calls n with
  | .getting id =>
    match s.redis (eventCacheKey id) with
    | some event => some (s.goto n (.returned (.event (.ok event))))
    | none => some (s.goto n (.finding id))
  | .finding id =>
    match findEvent s.db id with
    | .ok event => some (s.goto n (.setting id event))
    | .error e => some (s.goto n (.returned (.event (.error e))))
  | .setting id event =>
    some ({ s with redis := Function.update s.redis (eventCacheKey id) (some event) }.goto n
      (.returned (.event (.ok event))))
  | .writing w => some ({ s with db := (w.perform draw s.db).2 }.goto n (w.perform draw s.db).1)
  | .rereadingUpdate id => some (s.goto n (.returned (.event (updateEvent id (.ok none) s.db))))
  | .rereadingDelete id => some (s.goto n (.returned (.deleted (deleteEvent id (.ok none) s.db))))
  | .deleting id reply =>
    some ({ s with redis := Function.update s.redis (eventCacheKey id) none }.goto n (.returned reply))
  | .absent | .returned _ | .crashed => none

/-- The awaited operation of call `n` fails: a cache operation is caught and logged, a statement is thrown on. -/
def reject (s : Replicas) (n : Nat) : Option Replicas :=
  match s.calls n with
  | .getting id => some (s.goto n (.finding id))
  | .finding _ | .rereadingUpdate _ => some (s.goto n (.returned (.event (.error (.db .unavailable)))))
  | .setting _ event => some (s.goto n (.returned (.event (.ok event))))
  | .writing w => some (s.goto n (.returned (w.failed .unavailable)))
  | .rereadingDelete _ => some (s.goto n (.returned (.deleted (.error (.db .unavailable)))))
  | .deleting _ reply => some (s.goto n (.returned reply))
  | .absent | .returned _ | .crashed => none

/-- The write of call `n` is carried out and its answer is lost: the call throws, before it deletes the key. -/
def loseReply (s : Replicas) (n : Nat) (draw : Draw) : Option Replicas :=
  match s.calls n with
  | .writing w => some ({ s with db := (w.perform draw s.db).2 }.goto n (.returned (w.failed .unavailable)))
  | _ => none

def exec (s : Replicas) : ReplicaLabel → Option Replicas
  | .start n op => if s.calls n = .absent then some (s.goto n op.begin) else none
  | .advance n draw => s.advance n draw
  | .reject n => s.reject n
  | .loseReply n draw => s.loseReply n draw
  | .crash n => if (s.calls n).inProgress then some (s.goto n .crashed) else none
  | .expire key => some { s with redis := Function.update s.redis key none }
  | .createEvent input draw =>
    some { s with db :=
      (autocommit (eventCreate ⟨draw.id, input.title, input.date, input.totalSeats, none⟩ draw.now) s.db).2 }

end Replicas

def replicas : Machine Replicas ReplicaLabel where
  start s := s = Replicas.empty
  exec := Replicas.exec

/-! ## What a step does -/

def EventCall.eventId : EventCall → Option String
  | .getting id | .finding id | .setting id _ | .rereadingUpdate id | .rereadingDelete id | .deleting id _ =>
    some id
  | .writing w => some w.eventId
  | .absent | .returned _ | .crashed => none

def EventCall.deletes : EventCall → Option String
  | .deleting id _ => some id
  | _ => none

def ReplicaLabel.eventId : ReplicaLabel → Option String
  | .start _ op => some op.eventId
  | _ => none

def Rewritten (id : String) (d d' : EventDb) : Prop :=
  ∃ u, Uuid.cast id = .ok u ∧ ∀ v, v ≠ u → d'.events.find v = d.events.find v

theorem rewritten_replaced {id : String} {d d' : EventDb} {row row' : EventRow} (hid : Uuid.cast id = .ok row.id)
    (h : d.events.Replaced row row' d'.events) : Rewritten id d d' := by
  refine ⟨row.id, hid, fun v hv => ?_⟩
  rw [h.find, event_key, if_neg hv]

theorem Deleted.rewritten {id : String} {d d' : EventDb} {row : EventRow} (h : Deleted id d row d') :
    Rewritten id d d' := by
  refine ⟨row.id, h.row_id, fun v hv => (Table.find_congr fun x hx => ?_).symm⟩
  rw [h.events]
  exact ⟨fun hm => ⟨hm, fun e => hv (hx.symm.trans e)⟩, fun hm => hm.1⟩

/-- A write leaves the rows alone, or it changes the row it names and deletes that entry next. -/
structure Performed (w : EventWrite) (d : EventDb) (call : EventCall) (d' : EventDb) : Prop where
  eventId : ∀ id, call.eventId = some id → id = w.eventId
  effect : (d'.events = d.events ∧ call.deletes = none) ∨ Rewritten w.eventId d d' ∧ call.deletes = some w.eventId

theorem performed_returned {w : EventWrite} {d d' : EventDb} {reply : EventReply} (h : d'.events = d.events) :
    Performed w d (.returned reply) d' :=
  ⟨fun _ e => (by cases e), Or.inl ⟨h, rfl⟩⟩

theorem performed_deleting {w : EventWrite} {d d' : EventDb} {reply : EventReply} (h : Rewritten w.eventId d d') :
    Performed w d (.deleting w.eventId reply) d' :=
  ⟨fun _ e => (Option.some.inj e).symm, Or.inr ⟨h, rfl⟩⟩

theorem perform_updateEvent (draw : Draw) (d : EventDb) (id : String) (input : EventInput) :
    Performed (.updateEvent id input) d ((EventWrite.updateEvent id input).perform draw d).1
      ((EventWrite.updateEvent id input).perform draw d).2 := by
  unfold EventWrite.perform
  rcases autocommit_cases (Prod.mk.eta (p := autocommit (updateStatement id input draw.now) d)).symm with hc | hc
  · obtain ⟨hd, e, _, he⟩ := hc
    simp only [he]
    exact performed_returned (by rw [hd])
  · obtain ⟨o, ho, he⟩ := hc
    simp only [he]
    rcases updateStatement_cases ho with hc | hc
    · obtain ⟨rfl, hd, _⟩ := hc
      exact ⟨fun _ e => (Option.some.inj e).symm, Or.inl ⟨by rw [hd], rfl⟩⟩
    · obtain ⟨row, row', rfl, hc⟩ := hc
      exact performed_deleting (w := .updateEvent id input) (rewritten_replaced hc.row_id hc.events)

theorem perform_deleteEvent (draw : Draw) (d : EventDb) (id : String) :
    Performed (.deleteEvent id) d ((EventWrite.deleteEvent id).perform draw d).1
      ((EventWrite.deleteEvent id).perform draw d).2 := by
  unfold EventWrite.perform
  rcases autocommit_cases (Prod.mk.eta (p := autocommit (deleteStatement id) d)).symm with hc | hc
  · obtain ⟨hd, e, _, he⟩ := hc
    simp only [he]
    exact performed_returned (by rw [hd])
  · obtain ⟨o, ho, he⟩ := hc
    simp only [he]
    rcases deleteStatement_cases ho with hc | hc
    · obtain ⟨rfl, hd, _⟩ := hc
      exact ⟨fun _ e => (Option.some.inj e).symm, Or.inl ⟨by rw [hd], rfl⟩⟩
    · obtain ⟨row, rfl, hc⟩ := hc
      exact performed_deleting (w := .deleteEvent id) hc.rewritten

theorem perform_reserveSeats (draw : Draw) (d : EventDb) (message : MessageEnvelope ReserveSeatsPayload) :
    Performed (.reserveSeats message) d ((EventWrite.reserveSeats message).perform draw d).1
      ((EventWrite.reserveSeats message).perform draw d).2 := by
  unfold EventWrite.perform
  have ht := (Prod.mk.eta (p := Tx.transact (reserveSeats message draw) draw.budget d)).symm
  rcases processReserveSeatsMessage_cases ht with hc | hc | hc | hc
  · rcases hc.2 with he | he
    · simp only [he.1]
      exact performed_returned (by rw [hc.1])
    · obtain ⟨e, he⟩ := he
      simp only [he]
      exact performed_returned (by rw [hc.1])
  · simp only [hc.2.1]
    exact performed_returned hc.2.2.events
  · obtain ⟨row, row', he, hc⟩ := hc
    simp only [he]
    exact performed_deleting (w := .reserveSeats message) (rewritten_replaced hc.row_id hc.events)
  · obtain ⟨reason, he, hc⟩ := hc
    simp only [he]
    exact performed_returned hc.events

theorem perform_releaseSeats (draw : Draw) (d : EventDb) (message : MessageEnvelope BookingEventQuantityPayload) :
    Performed (.releaseSeats message) d ((EventWrite.releaseSeats message).perform draw d).1
      ((EventWrite.releaseSeats message).perform draw d).2 := by
  unfold EventWrite.perform
  have ht := (Prod.mk.eta (p := Tx.transact (releaseSeats message draw) draw.budget d)).symm
  rcases processReleaseSeatsMessage_cases ht with hc | hc | hc
  · rcases hc.2 with he | he
    · simp only [he.1]
      exact performed_returned (by rw [hc.1])
    · obtain ⟨e, he⟩ := he
      simp only [he]
      exact performed_returned (by rw [hc.1])
  · obtain ⟨⟨reason, he⟩, hc, _⟩ := hc
    simp only [he]
    exact performed_returned hc.events
  · obtain ⟨row, row', he, hc⟩ := hc
    simp only [he]
    exact performed_deleting (w := .releaseSeats message) (rewritten_replaced hc.row_id hc.events)

theorem perform_cases (draw : Draw) (w : EventWrite) (d : EventDb) :
    Performed w d (w.perform draw d).1 (w.perform draw d).2 := by
  cases w with
  | updateEvent id input => exact perform_updateEvent draw d id input
  | deleteEvent id => exact perform_deleteEvent draw d id
  | reserveSeats message => exact perform_reserveSeats draw d message
  | releaseSeats message => exact perform_releaseSeats draw d message

def shown (db : EventDb) (id : String) : Option EventDto :=
  match findEvent db id with
  | .ok event => some event
  | .error _ => none

def Replicas.Doomed (s : Replicas) (id : String) : Prop := ∃ n, (s.calls n).deletes = some id

def Replicas.fills (s : Replicas) : ReplicaLabel → Option (String × EventDto)
  | .advance n _ =>
    match s.calls n with
    | .setting id event => some (id, event)
    | _ => none
  | _ => none

inductive ReplicaStep (s : Replicas) : ReplicaLabel → Replicas → Prop
  | pass {l : ReplicaLabel} {n : Nat} {call : EventCall} (idle : s.fills l = none)
      (answered : ∀ m draw, l ≠ .loseReply m draw) (before : (s.calls n).deletes = none)
      (after : call.deletes = none)
      (named : ∀ id, call.eventId = some id → (s.calls n).eventId = some id ∨ l.eventId = some id) :
      ReplicaStep s l (s.goto n call)
  | abandon {l : ReplicaLabel} {n : Nat} {call : EventCall} {id : String} {reply : EventReply}
      (before : s.calls n = .deleting id reply) (label : l = .reject n ∨ l = .crash n) (after : call.deletes = none)
      (named : call.eventId = none) : ReplicaStep s l (s.goto n call)
  | fill {n : Nat} {draw : Draw} {id : String} {event : EventDto} {reply : EventReply}
      (before : s.calls n = .setting id event) :
      ReplicaStep s (.advance n draw)
        ({ s with redis := Function.update s.redis (eventCacheKey id) (some event) }.goto n (.returned reply))
  | drop {n : Nat} {draw : Draw} {id : String} {reply : EventReply} (before : s.calls n = .deleting id reply) :
      ReplicaStep s (.advance n draw)
        ({ s with redis := Function.update s.redis (eventCacheKey id) none }.goto n (.returned reply))
  | write {n : Nat} {draw : Draw} {w : EventWrite} {call : EventCall} {db : EventDb}
      (before : s.calls n = .writing w) (performed : Performed w s.db call db) :
      ReplicaStep s (.advance n draw) ({ s with db }.goto n call)
  | lose {n : Nat} {draw : Draw} {w : EventWrite} {reply : EventReply} (before : s.calls n = .writing w) :
      ReplicaStep s (.loseReply n draw) ({ s with db := (w.perform draw s.db).2 }.goto n (.returned reply))
  | expire {key : String} : ReplicaStep s (.expire key) { s with redis := Function.update s.redis key none }
  | created {input : EventInput} {draw : Draw} {db : EventDb}
      (events : ∀ u, db.events.find u = s.db.events.find u ∨ s.db.events.find u = none) :
      ReplicaStep s (.createEvent input draw) { s with db }

section
variable {s s' : Replicas} {n : Nat}

theorem begin_deletes (op : EventOp) : op.begin.deletes = none := by
  unfold EventOp.begin
  split
  · rfl
  · split <;> rfl
  · rfl

theorem begin_eventId {op : EventOp} {id : String} (h : op.begin.eventId = some id) : op.eventId = id := by
  unfold EventOp.begin at h
  split at h
  · exact Option.some.inj h
  · split at h
    · cases h
    · exact Option.some.inj h
  · exact Option.some.inj h

theorem advance_step {draw : Draw} (h : s.advance n draw = some s') : ReplicaStep s (.advance n draw) s' := by
  have hpass : ∀ call, s.fills (.advance n draw) = none → (s.calls n).deletes = none → call.deletes = none →
      (∀ id, call.eventId = some id → (s.calls n).eventId = some id) →
      ReplicaStep s (.advance n draw) (s.goto n call) :=
    fun call hf hb ha hn => .pass hf (fun _ _ e => by cases e) hb ha fun id hid => Or.inl (hn id hid)
  unfold Replicas.fills at hpass
  unfold Replicas.advance at h
  cases hc : s.calls n with
  | getting id =>
    simp only [hc] at h
    simp only [hc] at hpass
    split at h <;> rw [← Option.some.inj h]
    · exact hpass _ trivial rfl rfl fun _ e => (by cases e)
    · exact hpass _ trivial rfl rfl fun _ e => e
  | finding id =>
    simp only [hc] at h
    simp only [hc] at hpass
    split at h <;> rw [← Option.some.inj h]
    · exact hpass _ trivial rfl rfl fun _ e => e
    · exact hpass _ trivial rfl rfl fun _ e => (by cases e)
  | setting id event =>
    simp only [hc] at h
    rw [← Option.some.inj h]
    exact .fill hc
  | writing w =>
    simp only [hc] at h
    rw [← Option.some.inj h]
    exact .write hc (perform_cases draw w s.db)
  | rereadingUpdate id =>
    simp only [hc] at h
    simp only [hc] at hpass
    rw [← Option.some.inj h]
    exact hpass _ trivial rfl rfl fun _ e => (by cases e)
  | rereadingDelete id =>
    simp only [hc] at h
    simp only [hc] at hpass
    rw [← Option.some.inj h]
    exact hpass _ trivial rfl rfl fun _ e => (by cases e)
  | deleting id reply =>
    simp only [hc] at h
    rw [← Option.some.inj h]
    exact .drop hc
  | absent => simp [hc] at h
  | returned reply => simp [hc] at h
  | crashed => simp [hc] at h

theorem reject_step (h : s.reject n = some s') : ReplicaStep s (.reject n) s' := by
  have hpass : ∀ call, (s.calls n).deletes = none → call.deletes = none →
      (∀ id, call.eventId = some id → (s.calls n).eventId = some id) → ReplicaStep s (.reject n) (s.goto n call) :=
    fun call hb ha hn => .pass rfl (fun _ _ e => by cases e) hb ha fun id hid => Or.inl (hn id hid)
  unfold Replicas.reject at h
  cases hc : s.calls n with
  | getting id =>
    simp only [hc, Option.some.injEq] at h
    rw [hc] at hpass
    rw [← h]
    exact hpass _ rfl rfl fun _ e => e
  | deleting id reply =>
    simp only [hc, Option.some.injEq] at h
    rw [← h]
    exact .abandon hc (Or.inl rfl) rfl rfl
  | finding _ | rereadingUpdate _ | setting _ _ | writing _ | rereadingDelete _ =>
    simp only [hc, Option.some.injEq] at h
    rw [hc] at hpass
    rw [← h]
    exact hpass _ rfl rfl fun _ e => (by cases e)
  | absent => simp [hc] at h
  | returned reply => simp [hc] at h
  | crashed => simp [hc] at h

theorem loseReply_step {draw : Draw} (h : s.loseReply n draw = some s') : ReplicaStep s (.loseReply n draw) s' := by
  unfold Replicas.loseReply at h
  split at h
  · rename_i w hc
    obtain rfl := Option.some.inj h
    exact .lose hc
  · cases h

theorem crash_step (h : s.exec (.crash n) = some s') : ReplicaStep s (.crash n) s' := by
  obtain ⟨_, rfl⟩ := guard_eq_some.mp h
  cases hc : s.calls n with
  | deleting id reply => exact .abandon hc (Or.inr rfl) rfl rfl
  | _ =>
    refine .pass rfl (fun _ _ e => by cases e) ?_ rfl fun _ e => (by cases e)
    rw [hc]; rfl

def ReplicaLabel.call : ReplicaLabel → Option Nat
  | .start n _ | .advance n _ | .reject n | .loseReply n _ | .crash n => some n
  | .expire _ | .createEvent _ _ => none

theorem exec_other {l : ReplicaLabel} (h : replicas.exec s l = some s') (hl : l.call ≠ some n) :
    s'.calls n = s.calls n := by
  change s.exec l = some s' at h
  have hgoto : ∀ {s0 : Replicas} {m : Nat} {call : EventCall}, m ≠ n → s0.calls = s.calls →
      (s0.goto m call).calls n = s.calls n := by
    intro s0 m call hm h0
    show Function.update s0.calls m call n = _
    rw [Function.update_of_ne (Ne.symm hm), h0]
  cases l with
  | start m op =>
    obtain ⟨_, rfl⟩ := guard_eq_some.mp h
    exact hgoto (fun e => hl (congrArg some e)) rfl
  | expire key => obtain rfl := Option.some.inj h; rfl
  | createEvent input draw => obtain rfl := Option.some.inj h; rfl
  | advance m draw =>
    have hm : m ≠ n := fun e => hl (congrArg some e)
    change s.advance m draw = some s' at h
    unfold Replicas.advance at h
    repeat' split at h
    all_goals cases h
    all_goals exact hgoto hm rfl
  | reject m =>
    have hm : m ≠ n := fun e => hl (congrArg some e)
    change s.reject m = some s' at h
    unfold Replicas.reject at h
    split at h
    all_goals cases h
    all_goals exact hgoto hm rfl
  | loseReply m draw =>
    have hm : m ≠ n := fun e => hl (congrArg some e)
    change s.loseReply m draw = some s' at h
    unfold Replicas.loseReply at h
    split at h
    all_goals cases h
    all_goals exact hgoto hm rfl
  | crash m =>
    obtain ⟨_, rfl⟩ := guard_eq_some.mp h
    exact hgoto (fun e => hl (congrArg some e)) rfl

theorem run_other {ls : List ReplicaLabel} (h : replicas.run s ls = some s') (hl : ∀ l ∈ ls, l.call ≠ some n) :
    s'.calls n = s.calls n := by
  induction ls generalizing s with
  | nil => rw [Machine.run_nil, Option.some.injEq] at h; rw [h]
  | cons l ls ih =>
    obtain ⟨m, he, h⟩ := Machine.run_cons_some.mp h
    rw [ih h fun x hx => hl x (List.mem_cons_of_mem _ hx), exec_other he (hl l List.mem_cons_self)]

theorem createEvent_find (input : EventInput) (draw : Draw) (d : EventDb) (u : Uuid) :
    (autocommit (eventCreate ⟨draw.id, input.title, input.date, input.totalSeats, none⟩ draw.now) d).2.events.find u
        = d.events.find u ∨ d.events.find u = none := by
  rcases autocommit_cases (Prod.mk.eta (p := autocommit
    (eventCreate ⟨draw.id, input.title, input.date, input.totalSeats, none⟩ draw.now) d)).symm with hc | hc
  · rw [hc.1]; exact Or.inl rfl
  · obtain ⟨dto, hc, _⟩ := hc
    obtain ⟨row, _, hc⟩ := eventCreate_cases hc
    rw [Table.find_insert hc.events]
    by_cases hu : u = row.id
    · rw [hu]; exact Or.inr (Table.find_before_insert hc.events)
    · exact Or.inl (if_neg hu)

theorem replica_step {l : ReplicaLabel} (h : replicas.exec s l = some s') : ReplicaStep s l s' := by
  change s.exec l = some s' at h
  cases l with
  | start n op =>
    obtain ⟨hc, rfl⟩ := guard_eq_some.mp h
    refine .pass rfl (fun _ _ e => by cases e) ?_ (begin_deletes op) fun id hid =>
      Or.inr (congrArg some (begin_eventId hid))
    rw [hc]; rfl
  | advance n draw => exact advance_step h
  | reject n => exact reject_step h
  | loseReply n draw => exact loseReply_step h
  | crash n => exact crash_step h
  | expire key =>
    obtain rfl := Option.some.inj h
    exact .expire
  | createEvent input draw =>
    obtain rfl := Option.some.inj h
    exact .created fun u => createEvent_find input draw s.db u

end

/-! ## Coherence -/

/-- Every entry is the current row or is about to be deleted. -/
def CacheCoherent (s : Replicas) : Prop :=
  Coherent (fun u : Uuid => shown s.db u.text) (fun u => s.redis (eventCacheKey u.text)) fun u => s.Doomed u.text

def EventCall.awaitsCache : EventCall → Bool
  | .getting _ | .setting _ _ | .deleting _ _ => true
  | _ => false

/-- Calls name events by their canonical text, cache operations succeed and no replica crashes. -/
def healthy (s : Replicas) : ReplicaLabel → Bool
  | .start _ op => isCanonical op.eventId
  | .reject n => !(s.calls n).awaitsCache
  | .crash _ => false
  | .advance _ _ | .loseReply _ _ | .expire _ | .createEvent _ _ => true

/-- A read stores what the database still holds, or what another call is about to delete. -/
def FreshFill (s : Replicas) (l : ReplicaLabel) : Prop :=
  ∀ id event, s.fills l = some (id, event) → shown s.db id = some event ∨ s.Doomed id

/-- A write whose answer is lost finds no entry it makes stale, or another call is about to delete it. -/
def Kept (s : Replicas) : ReplicaLabel → Prop
  | .loseReply n draw => ∀ w, s.calls n = .writing w → s.redis (eventCacheKey w.eventId) = none ∨
      s.Doomed w.eventId ∨ shown (w.perform draw s.db).2 w.eventId = shown s.db w.eventId
  | _ => True

def Replicas.Quiet (s : Replicas) : Prop := ∀ n, (s.calls n).inProgress = false

structure CacheInv (s : Replicas) : Prop where
  canonical : ∀ n id, (s.calls n).eventId = some id → isCanonical id = true
  coherent : CacheCoherent s

theorem canonical_text {id : String} (h : isCanonical id = true) : ∃ u : Uuid, u.text = id := by
  have ht : isUuidText id = true := by
    unfold isCanonical at h
    exact (Bool.and_eq_true_iff.mp h).1
  obtain ⟨u, hu⟩ := Uuid.cast_ok_of_isText ht
  exact ⟨u, (isCanonical_iff hu).mp h⟩

theorem shown_cast {id : String} {u : Uuid} (h : Uuid.cast id = .ok u) (db : EventDb) :
    shown db id = (db.events.find u).map EventRow.mapRow := by
  have hf : eventFindUnique id db = .ok (db.events.find u, db) := findUnique_eq_ok.mpr ⟨u, h, rfl, rfl⟩
  unfold shown findEvent
  rw [hf]
  cases db.events.find u <;> rfl

theorem shown_text (db : EventDb) (u : Uuid) : shown db u.text = (db.events.find u).map EventRow.mapRow :=
  shown_cast (Uuid.cast_text u) db

theorem cached_update (redis : String → Option EventDto) (v : Uuid) (x : Option EventDto) :
    (fun u : Uuid => Function.update redis (eventCacheKey v.text) x (eventCacheKey u.text)) =
      Function.update (fun u : Uuid => redis (eventCacheKey u.text)) v x := by
  funext u
  by_cases h : u = v
  · rw [h, Function.update_self, Function.update_self]
  · have hk : eventCacheKey u.text ≠ eventCacheKey v.text := fun e => h (Uuid.text_inj.mp (eventCacheKey_inj.mp e))
    rw [Function.update_of_ne hk, Function.update_of_ne h]

section
variable {s s' : Replicas} {n : Nat} {call : EventCall} {l : ReplicaLabel}

theorem goto_self : (s.goto n call).calls n = call := by
  unfold Replicas.goto; simp

theorem goto_other {m : Nat} (h : m ≠ n) : (s.goto n call).calls m = s.calls m := by
  unfold Replicas.goto; simp [h]

theorem doomed_goto {id : String} :
    (s.goto n call).Doomed id ↔ call.deletes = some id ∨ ∃ m, m ≠ n ∧ (s.calls m).deletes = some id := by
  unfold Replicas.Doomed
  constructor
  · intro h
    obtain ⟨m, hm⟩ := h
    by_cases hmn : m = n
    · rw [hmn, goto_self] at hm; exact Or.inl hm
    · rw [goto_other hmn] at hm; exact Or.inr ⟨m, hmn, hm⟩
  · intro h
    rcases h with h | h
    · exact ⟨n, by rw [goto_self]; exact h⟩
    · obtain ⟨m, hmn, hm⟩ := h
      exact ⟨m, by rw [goto_other hmn]; exact hm⟩

theorem doomed_same (before : (s.calls n).deletes = none) (after : call.deletes = none) {id : String} :
    (s.goto n call).Doomed id ↔ s.Doomed id := by
  rw [doomed_goto, after]
  constructor
  · intro h
    obtain ⟨m, _, hm⟩ := h.resolve_left (by simp)
    exact ⟨m, hm⟩
  · intro h
    obtain ⟨m, hm⟩ := h
    refine Or.inr ⟨m, fun e => ?_, hm⟩
    rw [e, before] at hm; cases hm

theorem doomed_kept (before : (s.calls n).deletes = none) {id : String} (h : s.Doomed id) :
    (s.goto n call).Doomed id := by
  obtain ⟨m, hm⟩ := h
  refine doomed_goto.mpr (Or.inr ⟨m, fun e => ?_, hm⟩)
  rw [e, before] at hm; cases hm

theorem named_step (hs : ReplicaStep s l s') (hl : healthy s l = true)
    (h : ∀ n id, (s.calls n).eventId = some id → isCanonical id = true) :
    ∀ n id, (s'.calls n).eventId = some id → isCanonical id = true := by
  have hgoto : ∀ {s0 : Replicas} (n : Nat) (call : EventCall), s0.calls = s.calls →
      (∀ id, call.eventId = some id → isCanonical id = true) →
      ∀ m id, ((s0.goto n call).calls m).eventId = some id → isCanonical id = true := by
    intro s0 n call h0 hc m id hm
    by_cases hmn : m = n
    · rw [hmn, goto_self] at hm; exact hc id hm
    · rw [goto_other hmn, h0] at hm; exact h m id hm
  cases hs with
  | pass idle answered before after named =>
    refine hgoto _ _ rfl fun id hid => ?_
    rcases named id hid with hn | hn
    · exact h _ id hn
    · cases l with
      | start m op => obtain rfl := Option.some.inj hn; exact hl
      | _ => cases hn
  | abandon before label after named => exact hgoto _ _ rfl fun id hid => absurd (hid.symm.trans named) (by simp)
  | fill before => exact hgoto _ _ rfl fun id hid => (by cases hid)
  | drop before => exact hgoto _ _ rfl fun id hid => (by cases hid)
  | @write n draw w call db before performed =>
    refine hgoto _ _ rfl fun id hid => h n id ?_
    rw [before, performed.eventId id hid]; rfl
  | lose before => exact hgoto _ _ rfl fun id hid => (by cases hid)
  | expire => exact h
  | created events => exact h

theorem harmless (h : s.fills l = none) (hl : ∀ m draw, l ≠ .loseReply m draw) : FreshFill s l ∧ Kept s l := by
  refine ⟨fun id event he => ?_, ?_⟩
  · rw [h] at he; cases he
  · cases l with
    | loseReply m draw => exact absurd rfl (hl m draw)
    | _ => trivial

theorem Performed.shown_other {w : EventWrite} {d d' : EventDb} (h : Performed w d call d')
    (hcanon : isCanonical w.eventId = true) {u : Uuid} (hu : u.text ≠ w.eventId) :
    shown d' u.text = shown d u.text := by
  rw [shown_text, shown_text]
  rcases h.effect with he | he
  · rw [he.1]
  · obtain ⟨⟨v, hv, hother⟩, _⟩ := he
    rw [hother u fun e => hu (e ▸ (isCanonical_iff hv).mp hcanon)]

theorem Performed.shown_or_deleted {w : EventWrite} {d d' : EventDb} (h : Performed w d call d')
    (hcanon : isCanonical w.eventId = true) (u : Uuid) :
    shown d' u.text = shown d u.text ∨ call.deletes = some u.text := by
  by_cases hu : u.text = w.eventId
  · rcases h.effect with he | he
    · left
      rw [shown_text, shown_text, he.1]
    · exact Or.inr (hu ▸ he.2)
  · exact Or.inl (h.shown_other hcanon hu)

theorem coherent_fill {n : Nat} {draw : Draw} {id : String} {event : EventDto} {reply : EventReply} (h : CacheInv s)
    (before : s.calls n = .setting id event) :
    CacheCoherent
      ({ s with redis := Function.update s.redis (eventCacheKey id) (some event) }.goto n (.returned reply)) ↔
      FreshFill s (.advance n draw) := by
  have hfills : s.fills (.advance n draw) = some (id, event) := by
    unfold Replicas.fills; simp only [before]
  obtain ⟨v, rfl⟩ := canonical_text (h.canonical n id (by rw [before]; rfl))
  have hd : ∀ u : Uuid, ({ s with redis := Function.update s.redis (eventCacheKey v.text) (some event) }.goto n
      (.returned reply)).Doomed u.text ↔ s.Doomed u.text :=
    fun u => doomed_same (s := { s with redis := _ }) (by rw [before]; rfl) rfl
  unfold CacheCoherent
  simp only [hd]
  show Coherent _
    (fun u : Uuid => Function.update s.redis (eventCacheKey v.text) (some event) (eventCacheKey u.text)) _ ↔ _
  rw [cached_update]
  refine h.coherent.fill_iff.trans ⟨fun hf id event' he => ?_, fun hf => hf v.text event hfills⟩
  obtain ⟨rfl, rfl⟩ := Prod.mk.inj (Option.some.inj (hfills.symm.trans he))
  exact hf

theorem coherent_lose {n : Nat} {draw : Draw} {w : EventWrite} {reply : EventReply} (h : CacheInv s)
    (before : s.calls n = .writing w) :
    CacheCoherent ({ s with db := (w.perform draw s.db).2 }.goto n (.returned reply)) ↔
      Kept s (.loseReply n draw) := by
  have hcanon := h.canonical n w.eventId (by rw [before]; rfl)
  obtain ⟨v, hv⟩ := canonical_text hcanon
  have hd : ∀ u : Uuid, ({ s with db := (w.perform draw s.db).2 }.goto n (.returned reply)).Doomed u.text ↔
      s.Doomed u.text :=
    fun u => doomed_same (s := { s with db := _ }) (by rw [before]; rfl) rfl
  unfold CacheCoherent
  simp only [hd]
  refine (h.coherent.lose_iff (k := v) fun u hu => ?_).trans ⟨fun hk w' hw => ?_, fun hk => ?_⟩
  · exact (perform_cases draw w s.db).shown_other hcanon fun e => hu (Uuid.text_inj.mp (e.trans hv.symm))
  · obtain rfl := EventCall.writing.inj (before.symm.trans hw)
    rw [← hv]; exact hk
  · rw [hv]; exact hk w before

/-- A healthy step keeps coherence exactly when it neither fills in a stale entry nor leaves one
behind a lost answer. -/
theorem coherent_step (h : CacheInv s) (hs : ReplicaStep s l s') (hl : healthy s l = true) :
    CacheCoherent s' ↔ FreshFill s l ∧ Kept s l := by
  have hc := h.coherent
  cases hs with
  | pass idle answered before after named =>
    exact iff_of_true (hc.mono fun u => doomed_kept before) (harmless idle answered)
  | abandon before label after named =>
    rcases label with rfl | rfl
    · change (!(s.calls _).awaitsCache) = true at hl
      rw [before] at hl; cases hl
    · cases hl
  | fill before => exact (coherent_fill h before).trans (and_iff_left trivial).symm
  | @drop n draw id reply before =>
    obtain ⟨v, rfl⟩ := canonical_text (h.canonical n id (by rw [before]; rfl))
    refine iff_of_true ?_ (harmless ?_ fun _ _ e => by cases e)
    · show Coherent _ (fun u : Uuid => Function.update s.redis (eventCacheKey v.text) none (eventCacheKey u.text)) _
      rw [cached_update]
      refine hc.drop fun u hu hd => ?_
      obtain ⟨m, hm⟩ := hd
      refine doomed_goto.mpr (Or.inr ⟨m, fun e => ?_, hm⟩)
      rw [e, before] at hm
      exact hu (Uuid.text_inj.mp (Option.some.inj hm).symm)
    · unfold Replicas.fills; simp only [before]
  | @write n draw w call db before performed =>
    have hd : ∀ u : Uuid, s.Doomed u.text → ({ s with db }.goto n call).Doomed u.text :=
      fun u hu => doomed_kept (s := { s with db }) (by rw [before]; rfl) hu
    refine iff_of_true ?_ (harmless ?_ fun _ _ e => by cases e)
    · refine hc.write hd fun u => ?_
      refine (performed.shown_or_deleted (h.canonical n w.eventId (by rw [before]; rfl)) u).imp_right fun hdel => ?_
      exact doomed_goto.mpr (Or.inl hdel)
    · unfold Replicas.fills; simp only [before]
  | lose before => exact (coherent_lose h before).trans (and_iff_right fun _ _ e => by cases e).symm
  | @expire key =>
    refine iff_of_true (hc.evict fun u => ?_) (harmless rfl fun _ _ e => by cases e)
    by_cases hk : eventCacheKey u.text = key
    · right
      show Function.update s.redis key none (eventCacheKey u.text) = none
      rw [hk, Function.update_self]
    · left
      show Function.update s.redis key none (eventCacheKey u.text) = _
      rw [Function.update_of_ne hk]
  | created events =>
    refine iff_of_true (hc.appear fun u => ?_) (harmless rfl fun _ _ e => by cases e)
    simp only [shown_text]
    rcases events u with hu | hu
    · rw [hu]; exact Or.inl rfl
    · rw [hu]; exact Or.inr rfl

theorem cache_inv (h : replicas.ReachBy (fun s l => healthy s l = true ∧ FreshFill s l ∧ Kept s l) s) :
    CacheInv s := by
  refine h.inv (fun s h0 => ?_) fun s l s' _ hi hl he => ?_
  · obtain rfl := (show s = Replicas.empty from h0)
    exact ⟨fun n id hid => (by cases hid), Coherent.empty⟩
  · have hs := replica_step he
    exact ⟨named_step hs hl.1 hi.canonical, (coherent_step hi hs hl.1).mpr hl.2⟩

/-! ## Quiet states -/

/-- The entry is absent or the current row, and absent when there is no row. -/
def Replicas.Current (s : Replicas) : Prop :=
  ∀ u : Uuid, s.redis (eventCacheKey u.text) = none ∨ s.redis (eventCacheKey u.text) = shown s.db u.text

theorem not_doomed (h : s.Quiet) (id : String) : ¬ s.Doomed id := by
  intro hd
  obtain ⟨m, hm⟩ := hd
  have hq := h m
  cases hc : s.calls m with
  | deleting id' reply => rw [hc] at hq; cases hq
  | _ => rw [hc] at hm; cases hm

theorem current_iff (h : s.Quiet) : s.Current ↔ CacheCoherent s := by
  constructor
  · intro hc u v hv
    rcases hc u with hu | hu
    · exact absurd (hu.symm.trans hv) (by simp)
    · exact Or.inl (hu.symm.trans hv)
  · intro hc
    exact hc.exact fun u => not_doomed h u.text

def readAlone (n : Nat) (id : String) (draw : Draw) (awaits : Nat) : List ReplicaLabel :=
  .start n (.getEventById id) :: List.replicate awaits (.advance n draw)

theorem advance_getting (s : Replicas) (n : Nat) (id : String) (draw : Draw) :
    (s.goto n (.getting id)).advance n draw =
    some ((s.goto n (.getting id)).goto n
      ((s.redis (eventCacheKey id)).elim (.finding id) fun event => .returned (.event (.ok event)))) := by
  unfold Replicas.advance
  rw [goto_self]
  simp only [show (s.goto n (.getting id)).redis = s.redis from rfl]
  cases s.redis (eventCacheKey id) <;> rfl

theorem advance_finding (s : Replicas) (n : Nat) (id : String) (draw : Draw) :
    (s.goto n (.finding id)).advance n draw =
    some ((s.goto n (.finding id)).goto n
      (match findEvent s.db id with
        | .ok event => .setting id event
        | .error e => .returned (.event (.error e)))) := by
  unfold Replicas.advance
  rw [goto_self]
  simp only [show (s.goto n (.finding id)).db = s.db from rfl]
  cases findEvent s.db id <;> rfl

theorem advance_setting (s : Replicas) (n : Nat) (id : String) (event : EventDto) (draw : Draw) :
    ∃ s0 : Replicas, (s.goto n (.setting id event)).advance n draw =
      some (s0.goto n (.returned (.event (.ok event)))) := by
  unfold Replicas.advance
  rw [goto_self]
  exact ⟨_, rfl⟩

theorem findEvent_of_shown {db : EventDb} {id : String} {event : EventDto} (h : shown db id = some event) :
    findEvent db id = .ok event := by
  unfold shown at h
  split at h
  · rename_i e he; rw [he, Option.some.inj h]
  · cases h

theorem read_current (h : s.Current) (u : Uuid) (hn : s.calls n = .absent) (draw : Draw) : ∃ awaits s',
    replicas.run s (readAlone n u.text draw awaits) = some s' ∧
      s'.calls n = .returned (.event (findEvent s.db u.text)) := by
  have hstart : replicas.exec s (.start n (.getEventById u.text)) = some (s.goto n (.getting u.text)) :=
    guard_eq_some.mpr ⟨hn, rfl⟩
  have hget := advance_getting s n u.text draw
  cases hc : s.redis (eventCacheKey u.text) with
  | some event =>
    have hshown : shown s.db u.text = some event := by
      rcases h u with hu | hu
      · exact absurd (hu.symm.trans hc) (by simp)
      · exact hu.symm.trans hc
    rw [hc, Option.elim_some] at hget
    rw [findEvent_of_shown hshown]
    exact ⟨1, _, Machine.run_cons_some.mpr ⟨_, hstart, Machine.run_cons_some.mpr ⟨_, hget, rfl⟩⟩, goto_self⟩
  | none =>
    rw [hc, Option.elim_none] at hget
    have hfind := advance_finding (s.goto n (.getting u.text)) n u.text draw
    change _ = some (Replicas.goto _ n (match findEvent s.db u.text with
      | .ok event => .setting u.text event
      | .error e => .returned (.event (.error e)))) at hfind
    cases hf : findEvent s.db u.text with
    | error e =>
      simp only [hf] at hfind
      exact ⟨2, _, Machine.run_cons_some.mpr ⟨_, hstart, Machine.run_cons_some.mpr ⟨_, hget,
        Machine.run_cons_some.mpr ⟨_, hfind, rfl⟩⟩⟩, goto_self⟩
    | ok event =>
      simp only [hf] at hfind
      obtain ⟨s0, hset⟩ :=
        advance_setting ((s.goto n (.getting u.text)).goto n (.finding u.text)) n u.text event draw
      exact ⟨3, _, Machine.run_cons_some.mpr ⟨_, hstart, Machine.run_cons_some.mpr ⟨_, hget,
        Machine.run_cons_some.mpr ⟨_, hfind, Machine.run_cons_some.mpr ⟨_, hset, rfl⟩⟩⟩⟩, goto_self⟩

/-- Where no read fills in a stale entry and no lost answer leaves one, a quiet
system's cache is current and the next read returns what the database holds; a
step into a quiet state loses that exactly when it does one of the two. -/
theorem cache_current_when_fills_fresh
    (h : replicas.ReachBy (fun s l => healthy s l = true ∧ FreshFill s l ∧ Kept s l) s) :
    (s.Quiet → s.Current ∧ ∀ (u : Uuid) (n : Nat) (draw : Draw), s.calls n = .absent → ∃ awaits s',
      replicas.run s (readAlone n u.text draw awaits) = some s' ∧
        s'.calls n = .returned (.event (findEvent s.db u.text))) ∧
    ∀ l s', healthy s l = true → replicas.exec s l = some s' → s'.Quiet →
      (s'.Current ↔ FreshFill s l ∧ Kept s l) := by
  have hi := cache_inv h
  refine ⟨fun hq => ?_, fun l s' hl he hq => ?_⟩
  · have hc := (current_iff hq).mpr hi.coherent
    exact ⟨hc, fun u n draw hn => read_current hc u hn draw⟩
  · exact (current_iff hq).trans (coherent_step hi (replica_step he) hl)

end

/-! ## A stale entry -/

def cacheView (s : Replicas) : Option Int × Option Int × Bool × Bool :=
  ((s.redis (eventCacheKey (sampleText 1))).map (·.totalSeats), (shown s.db (sampleText 1)).map (·.totalSeats),
    (s.calls 0).inProgress, (s.calls 1).inProgress)

def readThenUpdate : List ReplicaLabel :=
  [.createEvent concert (sampleDraw 1 0 0 0 0), .start 0 (.getEventById (sampleText 1)),
    .advance 0 (sampleDraw 0 0 0 0 0), .advance 0 (sampleDraw 0 0 0 0 0), .advance 0 (sampleDraw 0 0 0 0 0),
    .start 1 (.write (.updateEvent (sampleText 1) ⟨"Recital", 0, 20⟩)), .advance 1 (sampleDraw 0 0 0 0 0),
    .advance 1 (sampleDraw 0 0 0 0 0)]

def readAroundUpdate : List ReplicaLabel :=
  [.createEvent concert (sampleDraw 1 0 0 0 0), .start 0 (.getEventById (sampleText 1)),
    .advance 0 (sampleDraw 0 0 0 0 0), .advance 0 (sampleDraw 0 0 0 0 0),
    .start 1 (.write (.updateEvent (sampleText 1) ⟨"Recital", 0, 20⟩)), .advance 1 (sampleDraw 0 0 0 0 0),
    .advance 1 (sampleDraw 0 0 0 0 0), .advance 0 (sampleDraw 0 0 0 0 0)]

/-- `FreshFill` without the second way out, and no answer is lost. -/
def fillsCurrent (s : Replicas) : ReplicaLabel → Bool
  | .loseReply _ _ => false
  | l => (s.fills l).all fun p => decide (shown s.db p.1 = some p.2)

theorem fresh_of_fillsCurrent {s : Replicas} {l : ReplicaLabel} (h : fillsCurrent s l = true) :
    FreshFill s l ∧ Kept s l := by
  cases l with
  | advance n draw =>
    refine ⟨fun id event he => ?_, trivial⟩
    change ((s.fills (.advance n draw)).all fun p => decide (shown s.db p.1 = some p.2)) = true at h
    rw [he, Option.all_some, decide_eq_true_eq] at h
    exact Or.inl h
  | loseReply n draw => cases h
  | _ => exact harmless rfl fun _ _ e => by cases e

theorem allowed_runs {s : Replicas} {ls : List ReplicaLabel} (hr : replicas.run Replicas.empty ls = some s)
    (h : replicas.allowed (fun s l => healthy s l && fillsCurrent s l) Replicas.empty ls = true) :
    replicas.ReachBy (fun s l => healthy s l = true ∧ FreshFill s l ∧ Kept s l) s := by
  refine Machine.ReachBy.run (.start rfl) (Machine.meets_of_allowed (fun s l hb => ?_) h) hr
  obtain ⟨hh, hf⟩ := Bool.and_eq_true_iff.mp hb
  exact ⟨hh, fresh_of_fillsCurrent hf⟩

theorem quiet_of_two {s : Replicas} {ls : List ReplicaLabel} (hr : replicas.run Replicas.empty ls = some s)
    (hl : ∀ l ∈ ls, l.call = none ∨ l.call = some 0 ∨ l.call = some 1) (h0 : (s.calls 0).inProgress = false)
    (h1 : (s.calls 1).inProgress = false) : s.Quiet := by
  intro n
  by_cases hn0 : n = 0
  · rw [hn0]; exact h0
  · by_cases hn1 : n = 1
    · rw [hn1]; exact h1
    · rw [run_other (n := n) hr fun l hm => ?_]
      · rfl
      · intro e
        rcases hl l hm with hc | hc | hc <;> rw [e] at hc
        · cases hc
        · exact hn0 (Option.some.inj hc)
        · exact hn1 (Option.some.inj hc)

theorem sample_quiet {s : Replicas} {ls : List ReplicaLabel} {cached held : Option Int}
    (hr : replicas.run Replicas.empty ls = some s)
    (hl : (ls.all fun l => decide (l.call = none ∨ l.call = some 0 ∨ l.call = some 1)) = true)
    (hv : cacheView s = (cached, held, false, false)) : s.Quiet := by
  refine quiet_of_two hr (fun l hm => ?_) (congrArg (fun x => x.2.2.1) hv) (congrArg (fun x => x.2.2.2) hv)
  simpa using List.all_eq_true.mp hl l hm

theorem cache_current_after_update : ∃ s, replicas.run Replicas.empty readThenUpdate = some s ∧
    cacheView s = (none, some 20, false, false) ∧ s.Current := by
  have h : (replicas.run Replicas.empty readThenUpdate).map cacheView = some (none, some 20, false, false) := by
    decide +kernel
  obtain ⟨s, hs, hview⟩ := Option.map_eq_some_iff.mp h
  have hallowed :
      replicas.allowed (fun s l => healthy s l && fillsCurrent s l) Replicas.empty readThenUpdate = true := by
    decide +kernel
  have hquiet := sample_quiet hs (by decide) hview
  exact ⟨s, hs, hview, ((cache_current_when_fills_fresh (allowed_runs hs hallowed)).1 hquiet).1⟩

/-- The read misses, an update writes and deletes the key, and the read then
stores the row it had found: the old capacity stays in the cache. -/
theorem stale_after_update : ∃ s, replicas.run Replicas.empty readAroundUpdate = some s ∧
    replicas.Meets (fun s l => healthy s l = true) Replicas.empty readAroundUpdate ∧ s.Quiet ∧ ¬ s.Current := by
  have h : (replicas.run Replicas.empty readAroundUpdate).map cacheView =
      some (some 10, some 20, false, false) := by
    decide +kernel
  obtain ⟨s, hs, hview⟩ := Option.map_eq_some_iff.mp h
  have hallowed : replicas.allowed healthy Replicas.empty readAroundUpdate = true := by
    decide +kernel
  refine ⟨s, hs, Machine.meets_of_allowed (fun _ _ hb => hb) hallowed, sample_quiet hs (by decide) hview,
    fun hc => ?_⟩
  have hcached : (s.redis (eventCacheKey (sampleText 1))).map (·.totalSeats) = some 10 := congrArg Prod.fst hview
  have hheld : (shown s.db (sampleText 1)).map (·.totalSeats) = some 20 := congrArg (fun x => x.2.1) hview
  rcases hc (sample 1).val with hn | he
  · change s.redis (eventCacheKey (sampleText 1)) = none at hn
    rw [hn] at hcached; cases hcached
  · change s.redis (eventCacheKey (sampleText 1)) = shown s.db (sampleText 1) at he
    rw [he, hheld] at hcached; cases hcached

end EventBooking
