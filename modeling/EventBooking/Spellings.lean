import EventBooking.EventCache

/-!
# The spellings of an event id

The calls of the Event Service one after the other, each naming its event by a
text the schemas accept. PostgreSQL compares identifiers by value and Redis by
text, so an entry filled in under one spelling outlives a write that names the
event by another. A write whose answer is lost deletes no entry at all.
-/

namespace EventBooking
open Lib

/-! ## One call after the other -/

structure EventStore where
  db : EventDb
  redis : String → Option EventDto

inductive Await
  | resolved (draw : Draw)
  | rejected
  | lost (draw : Draw)
  deriving DecidableEq

/-- The next await of the only call; cache operations succeed. -/
def Await.exec (s : Replicas) : Await → Option Replicas
  | .resolved draw => s.advance 0 draw
  | .rejected => if (s.calls 0).awaitsCache then none else s.reject 0
  | .lost draw => s.loseReply 0 draw

def Replicas.rest (s : Replicas) : List Await → Option (EventReply × EventStore)
  | [] =>
    match s.calls 0 with
    | .returned reply => some (reply, ⟨s.db, s.redis⟩)
    | _ => none
  | a :: awaits => (a.exec s).bind fun s' => s'.rest awaits

namespace EventStore

def empty : EventStore := ⟨.empty, fun _ => none⟩

def calling (s : EventStore) (call : EventCall) : Replicas :=
  Replicas.goto ⟨s.db, s.redis, fun _ => .absent⟩ 0 call

def serve (s : EventStore) (op : EventOp) (awaits : List Await) : Option (EventReply × EventStore) :=
  (s.calling op.begin).rest awaits

end EventStore

def EventWrite.leaves (w : EventWrite) (db : EventDb) : List Await → EventDb
  | .resolved draw :: _ | .lost draw :: _ => (w.perform draw db).2
  | _ => db

def Unanswered : List Await → Prop
  | .lost _ :: _ => True
  | _ => False

/-- What `findById` gives a call whose awaits end so, and the error `getEventById` throws for a missing row. -/
def findById (awaits : List Await) (db : EventDb) (id : String) : Except ServiceError EventDto :=
  if .rejected ∈ awaits then .error (.db .unavailable) else findEvent db id

/-! ## What a call does -/

section
variable {s : Replicas} {awaits : List Await} {reply : EventReply} {st : EventStore}

theorem rest_step (hp : (s.calls 0).inProgress = true) (h : s.rest awaits = some (reply, st)) :
    ∃ a later s', awaits = a :: later ∧ a.exec s = some s' ∧ s'.rest later = some (reply, st) := by
  cases awaits with
  | nil =>
    unfold Replicas.rest at h
    split at h
    · rename_i r hc; rw [hc] at hp; cases hp
    · cases h
  | cons a later =>
    obtain ⟨s', ha, hs'⟩ := Option.bind_eq_some_iff.mp h
    exact ⟨a, later, s', rfl, ha, hs'⟩

theorem rest_returned {r : EventReply} (hc : s.calls 0 = .returned r) (h : s.rest awaits = some (reply, st)) :
    awaits = [] ∧ reply = r ∧ st = ⟨s.db, s.redis⟩ := by
  cases awaits with
  | nil =>
    unfold Replicas.rest at h
    rw [hc] at h
    obtain ⟨rfl, rfl⟩ := Prod.mk.inj (Option.some.inj h)
    exact ⟨rfl, rfl, rfl⟩
  | cons a later =>
    obtain ⟨s', ha, _⟩ := Option.bind_eq_some_iff.mp h
    cases a <;> simp [Await.exec, Replicas.advance, Replicas.reject, Replicas.loseReply, hc] at ha

theorem rest_deleting {id : String} {r : EventReply} (hc : s.calls 0 = .deleting id r)
    (h : s.rest awaits = some (reply, st)) :
    reply = r ∧ st = ⟨s.db, Function.update s.redis (eventCacheKey id) none⟩ := by
  obtain ⟨a, later, s', rfl, ha, hs'⟩ := rest_step (by rw [hc]; rfl) h
  cases a with
  | resolved draw =>
    unfold Await.exec Replicas.advance at ha
    simp only [hc, Option.some.injEq] at ha
    subst ha
    exact (rest_returned goto_self hs').2
  | rejected => simp [Await.exec, EventCall.awaitsCache, hc] at ha
  | lost draw => simp [Await.exec, Replicas.loseReply, hc] at ha

theorem rest_setting {id : String} {event : EventDto} (hc : s.calls 0 = .setting id event)
    (h : s.rest awaits = some (reply, st)) : .rejected ∉ awaits ∧
    reply = .event (.ok event) ∧ st = ⟨s.db, Function.update s.redis (eventCacheKey id) (some event)⟩ := by
  obtain ⟨a, later, s', rfl, ha, hs'⟩ := rest_step (by rw [hc]; rfl) h
  cases a with
  | resolved draw =>
    unfold Await.exec Replicas.advance at ha
    simp only [hc, Option.some.injEq] at ha
    subst ha
    obtain ⟨rfl, hr⟩ := rest_returned goto_self hs'
    exact ⟨by simp, hr⟩
  | rejected => simp [Await.exec, EventCall.awaitsCache, hc] at ha
  | lost draw => simp [Await.exec, Replicas.loseReply, hc] at ha

theorem rest_finding {id : String} (hc : s.calls 0 = .finding id) (h : s.rest awaits = some (reply, st)) :
    reply = .event (findById awaits s.db id) ∧ st.db = s.db ∧ (st.redis = s.redis ∨
      ∃ event, findEvent s.db id = .ok event ∧
          st.redis = Function.update s.redis (eventCacheKey id) (some event)) := by
  obtain ⟨a, later, s', rfl, ha, hs'⟩ := rest_step (by rw [hc]; rfl) h
  cases a with
  | rejected =>
    simp only [Await.exec, EventCall.awaitsCache, Replicas.reject, hc, Bool.false_eq_true, if_false,
      Option.some.injEq] at ha
    subst ha
    obtain ⟨rfl, rfl, rfl⟩ := rest_returned goto_self hs'
    exact ⟨rfl, rfl, .inl rfl⟩
  | resolved draw =>
    unfold Await.exec Replicas.advance at ha
    simp only [hc] at ha
    split at ha
    · rename_i event hf
      obtain rfl := Option.some.inj ha
      obtain ⟨hn, rfl, rfl⟩ := rest_setting goto_self hs'
      refine ⟨?_, rfl, .inr ⟨event, hf, rfl⟩⟩
      unfold findById
      rw [if_neg (by simpa using hn), hf]
    · rename_i e hf
      obtain rfl := Option.some.inj ha
      obtain ⟨rfl, rfl, rfl⟩ := rest_returned goto_self hs'
      refine ⟨?_, rfl, .inl rfl⟩
      unfold findById
      rw [if_neg (by simp), hf]
  | lost draw => simp [Await.exec, Replicas.loseReply, hc] at ha

theorem rest_rereading {id : String} (hc : s.calls 0 = .rereadingUpdate id ∨ s.calls 0 = .rereadingDelete id)
    (h : s.rest awaits = some (reply, st)) : st = ⟨s.db, s.redis⟩ := by
  obtain ⟨a, later, s', rfl, ha, hs'⟩ := rest_step (by rcases hc with hc | hc <;> rw [hc] <;> rfl) h
  have hgoto : ∃ r, s' = s.goto 0 (.returned r) := by
    rcases hc with hc | hc
    all_goals
      cases a with
      | resolved draw =>
        unfold Await.exec Replicas.advance at ha
        simp only [hc] at ha
        exact ⟨_, (Option.some.inj ha).symm⟩
      | rejected =>
        simp only [Await.exec, EventCall.awaitsCache, Replicas.reject, hc, Bool.false_eq_true, if_false] at ha
        exact ⟨_, (Option.some.inj ha).symm⟩
      | lost draw => simp [Await.exec, Replicas.loseReply, hc] at ha
  obtain ⟨r, rfl⟩ := hgoto
  exact (rest_returned goto_self hs').2.2

inductive Followed (w : EventWrite) : EventCall → Prop
  | returned (reply : EventReply) : Followed w (.returned reply)
  | rereadingUpdate (id : String) : Followed w (.rereadingUpdate id)
  | rereadingDelete (id : String) : Followed w (.rereadingDelete id)
  | deleting (reply : EventReply) : Followed w (.deleting w.eventId reply)

theorem perform_followed (draw : Draw) (w : EventWrite) (db : EventDb) : Followed w (w.perform draw db).1 := by
  cases w with
  | updateEvent id input =>
    unfold EventWrite.perform
    rcases hr : (autocommit (updateStatement id input draw.now) db).1 with e | _ | row
    · simp only [hr]; exact .returned _
    · simp only [hr]; exact .rereadingUpdate id
    · simp only [hr]; exact .deleting (w := .updateEvent id input) _
  | deleteEvent id =>
    unfold EventWrite.perform
    rcases hr : (autocommit (deleteStatement id) db).1 with e | _ | u
    · simp only [hr]; exact .returned _
    · simp only [hr]; exact .rereadingDelete id
    · simp only [hr]; exact .deleting (w := .deleteEvent id) _
  | reserveSeats message =>
    unfold EventWrite.perform
    rcases hr : (Tx.transact (reserveSeats message draw) draw.budget db).1 with e | _ | _ | _
    · simp only [hr]; exact .returned _
    · simp only [hr]; exact .returned _
    · simp only [hr]; exact .deleting (w := .reserveSeats message) _
    · simp only [hr]; exact .returned _
  | releaseSeats message =>
    unfold EventWrite.perform
    rcases hr : (Tx.transact (releaseSeats message draw) draw.budget db).1 with e | _ | _ | _
    · simp only [hr]; exact .returned _
    · simp only [hr]; exact .returned _
    · simp only [hr]; exact .deleting (w := .releaseSeats message) _
    · simp only [hr]; exact .returned _

/-- A write leaves rows and entries alone, or it changes its event and deletes the entry it
names; unanswered, it leaves the entries alone. -/
structure Written (w : EventWrite) (awaits : List Await) (s s' : EventStore) : Prop where
  db : s'.db = w.leaves s.db awaits
  redis : Unanswered awaits ∧ s'.redis = s.redis ∨ ¬ Unanswered awaits ∧
    (s'.db.events = s.db.events ∧ s'.redis = s.redis ∨
    Rewritten w.eventId s.db s'.db ∧ s'.redis = Function.update s.redis (eventCacheKey w.eventId) none)

theorem rest_writing {w : EventWrite} (hc : s.calls 0 = .writing w) (h : s.rest awaits = some (reply, st)) :
    Written w awaits ⟨s.db, s.redis⟩ st := by
  obtain ⟨a, later, s', rfl, ha, hs'⟩ := rest_step (by rw [hc]; rfl) h
  cases a with
  | rejected =>
    simp only [Await.exec, EventCall.awaitsCache, Replicas.reject, hc, Bool.false_eq_true, if_false,
      Option.some.injEq] at ha
    subst ha
    obtain ⟨_, _, rfl⟩ := rest_returned goto_self hs'
    exact ⟨rfl, .inr ⟨id, .inl ⟨rfl, rfl⟩⟩⟩
  | lost draw =>
    simp only [Await.exec, Replicas.loseReply, hc, Option.some.injEq] at ha
    subst ha
    obtain ⟨_, _, rfl⟩ := rest_returned goto_self hs'
    exact ⟨rfl, .inl ⟨trivial, rfl⟩⟩
  | resolved draw =>
    have hperformed := perform_cases draw w s.db
    have hfollowed := perform_followed draw w s.db
    unfold Await.exec Replicas.advance at ha
    simp only [hc, Option.some.injEq] at ha
    have hleaves : w.leaves s.db (.resolved draw :: later) = (w.perform draw s.db).2 := rfl
    generalize w.perform draw s.db = p at ha hperformed hfollowed hleaves
    obtain ⟨call, db⟩ := p
    subst ha
    -- a call that deletes nothing next has left the rows alone
    have hkept : call.deletes = none → db.events = s.db.events := by
      intro hd
      rcases hperformed.effect with he | he
      · exact he.1
      · rw [hd] at he; cases he.2
    cases hfollowed with
    | returned r =>
      obtain ⟨_, _, rfl⟩ := rest_returned goto_self hs'
      exact ⟨hleaves.symm, .inr ⟨id, .inl ⟨hkept rfl, rfl⟩⟩⟩
    | rereadingUpdate id =>
      obtain rfl := rest_rereading (.inl goto_self) hs'
      exact ⟨hleaves.symm, .inr ⟨fun h => h, .inl ⟨hkept rfl, rfl⟩⟩⟩
    | rereadingDelete id =>
      obtain rfl := rest_rereading (.inr goto_self) hs'
      exact ⟨hleaves.symm, .inr ⟨fun h => h, .inl ⟨hkept rfl, rfl⟩⟩⟩
    | deleting r =>
      obtain ⟨_, rfl⟩ := rest_deleting goto_self hs'
      rcases hperformed.effect with he | he
      · cases he.2
      · exact ⟨hleaves.symm, .inr ⟨id, .inr ⟨he.1, rfl⟩⟩⟩

end

section
variable {s s' : EventStore} {awaits : List Await} {reply : EventReply}

theorem serve_read {id : String} (h : s.serve (.getEventById id) awaits = some (reply, s')) :
    (∃ event, s.redis (eventCacheKey id) = some event ∧ .rejected ∉ awaits ∧ reply = .event (.ok event) ∧ s' = s) ∨
    (s.redis (eventCacheKey id) = none ∧ reply = .event (findById awaits s.db id) ∧ s'.db = s.db ∧
      (s'.redis = s.redis ∨ ∃ event, findEvent s.db id = .ok event ∧
        s'.redis = Function.update s.redis (eventCacheKey id) (some event))) := by
  have hc : (s.calling (.getting id)).calls 0 = .getting id := goto_self
  obtain ⟨a, later, m, rfl, ha, hm⟩ :=
    rest_step (by rw [show EventOp.begin (.getEventById id) = .getting id from rfl, hc]; rfl) h
  cases a with
  | rejected => simp [Await.exec, EventOp.begin, EventCall.awaitsCache, hc] at ha
  | lost draw => simp [Await.exec, EventOp.begin, Replicas.loseReply, hc] at ha
  | resolved draw =>
    have hget := advance_getting ⟨s.db, s.redis, fun _ => .absent⟩ 0 id draw
    have hgoto := Option.some.inj (ha.symm.trans hget)
    subst hgoto
    change Replicas.rest (Replicas.goto _ 0 ((s.redis (eventCacheKey id)).elim (.finding id)
      fun event => .returned (.event (.ok event)))) later = _ at hm
    cases hr : s.redis (eventCacheKey id) with
    | some event =>
      rw [hr, Option.elim_some] at hm
      obtain ⟨rfl, rfl, rfl⟩ := rest_returned goto_self hm
      exact .inl ⟨event, rfl, by simp, rfl, rfl⟩
    | none =>
      rw [hr, Option.elim_none] at hm
      obtain ⟨rfl, hdb, hredis⟩ := rest_finding goto_self hm
      refine .inr ⟨rfl, ?_, hdb, hredis⟩
      unfold findById
      simp only [List.mem_cons, reduceCtorEq, false_or]
      rfl

theorem begin_write (w : EventWrite) :
    EventOp.begin (.write w) = .writing w ∨ ∃ r, EventOp.begin (.write w) = .returned r := by
  cases w with
  | releaseSeats message =>
    unfold EventOp.begin
    rcases releaseSeatsCheck_cases message with ⟨_, hc⟩ | ⟨_, hc⟩
    · simp only [hc]; exact .inl trivial
    · simp only [hc]; exact .inr ⟨_, rfl⟩
  | _ => exact .inl rfl

theorem serve_write {w : EventWrite} (h : s.serve (.write w) awaits = some (reply, s')) :
    Written w awaits s s' := by
  unfold EventStore.serve at h
  rcases begin_write w with hb | ⟨r, hb⟩
  · rw [hb] at h
    exact rest_writing goto_self h
  · rw [hb] at h
    obtain ⟨rfl, _, rfl⟩ := rest_returned goto_self h
    exact ⟨rfl, .inr ⟨id, .inl ⟨rfl, rfl⟩⟩⟩

end

/-! ## Sequences of calls -/

inductive StoreLabel
  | call (op : EventOp) (awaits : List Await)
  | createEvent (input : EventInput) (draw : Draw)
  deriving DecidableEq

def EventStore.Agrees (s : EventStore) : Prop :=
  ∀ id event, s.redis (eventCacheKey id) = some event → shown s.db id = some event

/-- No write changes an event, as `findById` shows it, that is cached under another spelling than
the write's own, or under any where its answer is lost. -/
def NamedAsCached (s : EventStore) : StoreLabel → Prop
  | .call (.write w) awaits => ∀ id, (id = w.eventId → Unanswered awaits) →
    (s.redis (eventCacheKey id)).isSome = true → shown (w.leaves s.db awaits) id = shown s.db id
  | _ => True

theorem redis_update {redis : String → Option EventDto} {id other : String} {x : Option EventDto} :
    Function.update redis (eventCacheKey id) x (eventCacheKey other) =
      if other = id then x else redis (eventCacheKey other) := by
  by_cases h : other = id
  · rw [h, Function.update_self, if_pos rfl]
  · rw [if_neg h, Function.update_of_ne fun e => h (eventCacheKey_inj.mp e)]

theorem shown_malformed {id : String} {e : DbError} (h : Uuid.cast id = .error e) (db : EventDb) :
    shown db id = none := by
  unfold shown findEvent eventFindUnique findUnique
  rw [h]; rfl

theorem cast_of_shown {db : EventDb} {id : String} {event : EventDto} (h : shown db id = some event) :
    ∃ u, Uuid.cast id = .ok u := by
  cases hu : Uuid.cast id with
  | ok u => exact ⟨u, rfl⟩
  | error e =>
    rw [shown_malformed hu] at h; cases h

theorem shown_congr {d d' : EventDb} (h : d'.events = d.events) (id : String) : shown d' id = shown d id := by
  cases hu : Uuid.cast id with
  | error e => rw [shown_malformed hu, shown_malformed hu]
  | ok u => rw [shown_cast hu, shown_cast hu, h]

theorem shown_of_findEvent {db : EventDb} {id : String} {event : EventDto} (h : findEvent db id = .ok event) :
    shown db id = some event := by
  unfold shown; rw [h]

section
variable [Zod]

def EventOp.accepted : EventOp → Bool
  | .getEventById id => eventIdParamSchema id
  | .write (.updateEvent id input) => eventIdParamSchema id && eventSchema input
  | .write (.deleteEvent id) => eventIdParamSchema id
  | .write (.reserveSeats message) => messageEnvelopeSchema .reserveSeats (message.map .reserveSeats)
  | .write (.releaseSeats message) => messageEnvelopeSchema .bookingCancelled (message.map .bookingEventQuantity)

def EventStore.exec (s : EventStore) : StoreLabel → Option EventStore
  | .call op awaits => if op.accepted then (s.serve op awaits).map Prod.snd else none
  | .createEvent input draw =>
    if eventSchema input then
      some { s with db :=
        (autocommit (eventCreate ⟨draw.id, input.title, input.date, input.totalSeats, none⟩ draw.now) s.db).2 }
    else none

/-- Calls that the schemas accept, one after the other; cache operations succeed and no entry expires. -/
def serving : Machine EventStore StoreLabel where
  start s := s = .empty
  exec := EventStore.exec

/-- `getEventById` of any accepted text returns what `findById` returns, or throws for it. -/
def EventStore.Transparent (s : EventStore) : Prop := ∀ id awaits reply s', eventIdParamSchema id = true →
  s.serve (.getEventById id) awaits = some (reply, s') → reply = .event (findById awaits s.db id)

def EventStore.AcceptedKeys (s : EventStore) : Prop :=
  ∀ id event, s.redis (eventCacheKey id) = some event → eventIdParamSchema id = true

variable {s s' : EventStore} {l : StoreLabel}

theorem exec_createEvent {input : EventInput} {draw : Draw}
    (he : serving.exec s (.createEvent input draw) = some s') :
    s' = { s with db :=
      (autocommit (eventCreate ⟨draw.id, input.title, input.date, input.totalSeats, none⟩ draw.now) s.db).2 } := by
  change s.exec (.createEvent input draw) = some s' at he
  exact (guard_eq_some.mp he).2.symm

theorem exec_call {op : EventOp} {awaits : List Await} (he : serving.exec s (.call op awaits) = some s') :
    op.accepted = true ∧ ∃ reply, s.serve op awaits = some (reply, s') := by
  change s.exec (.call op awaits) = some s' at he
  obtain ⟨ha, he⟩ := Option.ite_none_right_eq_some.mp he
  obtain ⟨⟨reply, s0⟩, hserve, rfl⟩ := Option.map_eq_some_iff.mp he
  exact ⟨ha, reply, hserve⟩

theorem acceptedKeys_step (h : s.AcceptedKeys) (he : serving.exec s l = some s') : s'.AcceptedKeys := by
  intro id event hid
  cases l with
  | createEvent input draw =>
    rw [exec_createEvent he] at hid
    exact h id event hid
  | call op awaits =>
    obtain ⟨ha, reply, hserve⟩ := exec_call he
    cases op with
    | getEventById text =>
      rcases serve_read hserve with hr | hr
      · obtain ⟨_, _, _, _, hs⟩ := hr
        rw [hs] at hid
        exact h id event hid
      · obtain ⟨_, _, _, hr | ⟨_, _, hr⟩⟩ := hr
        · rw [hr] at hid
          exact h id event hid
        · rw [hr, redis_update] at hid
          by_cases htext : id = text
          · rw [htext]; exact ha
          · rw [if_neg htext] at hid
            exact h id event hid
    | write w =>
      rcases (serve_write hserve).redis with hw | ⟨_, hw | hw⟩
      · rw [hw.2] at hid
        exact h id event hid
      · rw [hw.2] at hid
        exact h id event hid
      · rw [hw.2, redis_update] at hid
        split at hid
        · cases hid
        · exact h id event hid

theorem acceptedKeys (h : serving.Reach s) : s.AcceptedKeys := by
  refine Machine.Reach.inv ?_ (fun s0 l s1 _ hi he => acceptedKeys_step hi he) h
  intro s0 h0
  obtain rfl := (show s0 = .empty from h0)
  intro id event hid
  cases hid

theorem transparent_iff (h : s.AcceptedKeys) : s.Transparent ↔ s.Agrees := by
  constructor
  · intro ht id event hid
    -- a hit answers with the entry, so the entry is what the database holds
    have hget := advance_getting ⟨s.db, s.redis, fun _ => .absent⟩ 0 id (sampleDraw 0 0 0 0 0)
    have hserve : s.serve (.getEventById id) [.resolved (sampleDraw 0 0 0 0 0)] = some (.event (.ok event), s) := by
      unfold EventStore.serve Replicas.rest
      refine Option.bind_eq_some_iff.mpr ⟨_, hget, ?_⟩
      simp only [hid, Option.elim_some]
      unfold Replicas.rest
      rw [goto_self]; rfl
    have hreply := ht id _ _ s (h id event hid) hserve
    refine shown_of_findEvent ?_
    exact (EventReply.event.inj hreply).symm
  · intro ha id awaits reply s' _ hserve
    rcases serve_read hserve with hr | hr
    · obtain ⟨event, hid, hn, rfl, _⟩ := hr
      unfold findById
      rw [if_neg hn, findEvent_of_shown (ha id event hid)]
    · exact hr.2.1

theorem agrees_step (h : s.Agrees) (he : serving.exec s l = some s') : s'.Agrees ↔ NamedAsCached s l := by
  cases l with
  | createEvent input draw =>
    obtain rfl := exec_createEvent he
    refine iff_of_true (fun id event hid => ?_) trivial
    have hold := h id event hid
    obtain ⟨u, hu⟩ := cast_of_shown hold
    rw [shown_cast hu] at hold ⊢
    rcases createEvent_find input draw s.db u with hf | hf
    · rw [hf]; exact hold
    · rw [hf] at hold; cases hold
  | call op awaits =>
    obtain ⟨_, reply, hserve⟩ := exec_call he
    cases op with
    | getEventById text =>
      refine iff_of_true (fun id event hid => ?_) trivial
      rcases serve_read hserve with hr | hr
      · obtain ⟨_, _, _, _, hs⟩ := hr
        rw [hs] at hid ⊢
        exact h id event hid
      · obtain ⟨_, _, hdb, hr⟩ := hr
        rw [show shown s'.db id = shown s.db id by rw [hdb]]
        rcases hr with hr | ⟨found, hf, hr⟩
        · rw [hr] at hid
          exact h id event hid
        · rw [hr, redis_update] at hid
          split at hid
          · rename_i htext
            rw [htext, ← Option.some.inj hid]
            exact shown_of_findEvent hf
          · exact h id event hid
    | write w =>
      obtain ⟨hdb, hw⟩ := serve_write hserve
      unfold NamedAsCached
      simp only [← hdb]
      rcases hw with ⟨hlost, hredis⟩ | ⟨hanswered, ⟨hevents, hredis⟩ | ⟨_, hredis⟩⟩
      · constructor
        · intro ha id _ hsome
          obtain ⟨event, hid⟩ := Option.isSome_iff_exists.mp hsome
          rw [h id event hid]
          exact ha id event (hredis ▸ hid)
        · intro hc id event hid
          rw [hredis] at hid
          rw [hc id (fun _ => hlost) (by rw [hid]; rfl)]
          exact h id event hid
      · refine iff_of_true (fun id event hid => ?_) fun id _ _ => shown_congr hevents id
        rw [hredis] at hid
        rw [shown_congr hevents]
        exact h id event hid
      · constructor
        · intro ha id hne hsome
          obtain ⟨event, hid⟩ := Option.isSome_iff_exists.mp hsome
          rw [h id event hid]
          refine ha id event ?_
          rw [hredis, redis_update, if_neg fun e => hanswered (hne e)]; exact hid
        · intro hc id event hid
          rw [hredis, redis_update] at hid
          split at hid
          · cases hid
          · rename_i hne
            rw [hc id (fun e => absurd e hne) (by rw [hid]; rfl)]
            exact h id event hid

/-- The calls of a sequence, and the next one, see the database through the cache exactly
when no write changes an event that stays cached, under another spelling or behind a lost answer. -/
theorem reads_transparent_iff {ls : List StoreLabel} (hr : serving.run .empty ls = some s) :
    (∀ pre m, pre <+: ls → serving.run .empty pre = some m → m.Transparent) ↔
      serving.Meets NamedAsCached .empty ls := by
  have hempty : serving.Reach EventStore.empty := .start rfl
  have hagrees : EventStore.empty.Agrees := fun id event hid => by cases hid
  rw [← Machine.prefixes_iff_meets (fun s0 l s1 _ h he => agrees_step h he) hempty hr hagrees]
  refine forall_congr' fun pre => forall_congr' fun m => imp_congr_right fun _ => forall_congr' fun hm => ?_
  exact transparent_iff (acceptedKeys (hempty.run hm))

end

/-! ## Two spellings -/

def recital : EventInput := ⟨"Recital", 0, 10⟩

def reserveThreeOf (eventId : String) : EventOp :=
  .write (.reserveSeats (envelope (sample 4) (sampleText 6) 0 ⟨sampleText 6, eventId, sampleText 7, 3⟩))

def readThenReserve (eventId : String) : List StoreLabel :=
  let awaits (n : Nat) : List Await := List.replicate n (.resolved (sampleDraw 0 8 9 10 11))
  [.createEvent recital (sampleDraw 10 0 0 0 0), .call (.getEventById (sampleText 10)) (awaits 3),
    .call (reserveThreeOf eventId) (awaits 2)]

def EventStore.seats (s : EventStore) : Option Int × Option Int :=
  ((s.redis (eventCacheKey (sampleText 10))).map (·.availableSeats),
    (shown s.db (sampleText 10)).map (·.availableSeats))

theorem reads_agree_after_reservation : ∃ s, (@serving zod4).run .empty (readThenReserve (sampleText 10)) = some s ∧
    s.seats = (none, some 7) ∧ @EventStore.Transparent zod4 s := by
  have h : ((@serving zod4).run .empty (readThenReserve (sampleText 10))).map EventStore.seats =
      some (none, some 7) := by
    decide +kernel
  obtain ⟨s, hs, hview⟩ := Option.map_eq_some_iff.mp h
  refine ⟨s, hs, hview, (@reads_transparent_iff zod4 s _ hs).mpr ?_ _ s (List.prefix_refl _) hs⟩
  refine ⟨trivial, fun s1 h1 => ⟨trivial, fun s2 h2 => ⟨fun id hne hsome => absurd hsome ?_, fun _ _ => trivial⟩⟩⟩
  have hne : id ≠ sampleText 10 := fun e => hne e
  -- the only entry is the one the read filled in
  obtain rfl := @exec_createEvent zod4 _ _ _ _ h1
  obtain ⟨_, reply, hserve⟩ := @exec_call zod4 _ _ _ _ h2
  have hother : s2.redis (eventCacheKey id) = none := by
    rcases serve_read hserve with ⟨_, hr, _⟩ | ⟨_, _, _, hr | ⟨_, _, hr⟩⟩
    · cases hr
    · rw [hr]; rfl
    · rw [hr, redis_update, if_neg hne]; rfl
  rw [hother]
  exact Bool.false_ne_true

/-- A reservation in upper case leaves the entry of the lower-case text with the old seats. -/
theorem stale_under_another_spelling : zodUuid (sampleText 10) = true ∧ zodUuid sampleUpperText = true ∧
    ∃ s, (@serving zod4).run .empty (readThenReserve sampleUpperText) = some s ∧ s.seats = (some 10, some 7) ∧
      ¬ @EventStore.Transparent zod4 s := by
  have h : ((@serving zod4).run .empty (readThenReserve sampleUpperText)).map EventStore.seats =
      some (some 10, some 7) := by
    decide +kernel
  obtain ⟨s, hs, hview⟩ := Option.map_eq_some_iff.mp h
  refine ⟨by decide, by decide, s, hs, hview, fun ht => ?_⟩
  have hreach : (@serving zod4).Reach s := Machine.Reach.run (.start rfl) hs
  have hagrees := (@transparent_iff zod4 s (@acceptedKeys zod4 s hreach)).mp ht
  obtain ⟨event, hid, hten⟩ := Option.map_eq_some_iff.mp (congrArg Prod.fst hview)
  obtain ⟨found, hf, hseven⟩ := Option.map_eq_some_iff.mp (congrArg Prod.snd hview)
  obtain rfl := Option.some.inj ((hagrees _ event hid).symm.trans hf)
  rw [hten] at hseven; cases hseven

end EventBooking
