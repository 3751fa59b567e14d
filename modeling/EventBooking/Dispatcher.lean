import EventBooking.Lib.Machine
import EventBooking.Services

/-!
# The outbox dispatchers

Any number of workers run `dispatchPending` against one outbox table while
transactions insert rows and, in the Event Service, handlers publish their own
rows. Every awaited call may be rejected, whether or not it took effect, and a
worker may crash between any two of them.
-/

namespace EventBooking
open Lib

def maxAttempts : Nat := 8

def claimTimeoutSeconds : Nat := 60

def backoffSeconds (attempts : Nat) : Nat := min 300 (2 ^ (attempts - 1))

/-! ## Workers -/

/-- How an awaited call ends; a rejected one may have taken effect. -/
inductive Reply
  | resolved
  | rejected (error : String) (applied : Bool)
  deriving DecidableEq

def Reply.applied : Reply → Bool
  | .resolved => true
  | .rejected _ applied => applied

def Reply.ok : Reply → Bool
  | .resolved => true
  | .rejected _ _ => false

/-- The call `publishRecord` makes next. -/
inductive Stage
  | publishing
  | marking
  | recording (error : String)
  deriving DecidableEq

def Stage.next (stage : Stage) : Reply → Stage
  | .resolved => stage
  | .rejected error _ => .recording error

/-- A claimed batch: the records dealt with, the one in hand and the ones to come. -/
structure Batch where
  handled : List OutboxRow
  current : OutboxRow
  rest : List OutboxRow
  stage : Stage
  deriving DecidableEq

def Batch.records (b : Batch) : List OutboxRow := b.handled ++ b.current :: b.rest

inductive Worker
  | absent
  | idle
  | busy (batch : Batch)
  | dead
  deriving DecidableEq

/-- The loop of `dispatchPending` takes up the next record. -/
def Worker.take (handled : List OutboxRow) : List OutboxRow → Worker
  | [] => .idle
  | r :: rest => .busy ⟨handled, r, rest, .publishing⟩

def Batch.finish (b : Batch) : Worker := .take (b.handled ++ [b.current]) b.rest

/-- After `markOutboxPublished`: a rejection is caught and recorded as a failure. -/
def Batch.marked (b : Batch) : Reply → Worker
  | .resolved => b.finish
  | .rejected error _ => .busy { b with stage := .recording error }

/-! ## The desk -/

/-- One claim of a row, or one publish of it. -/
structure Attempt where
  workerId : String
  id : Uuid
  attempts : Nat
  deriving DecidableEq

def OutboxRow.attempt (workerId : String) (r : OutboxRow) : Attempt := ⟨workerId, r.id, r.attempts⟩

structure Desk where
  now : Date
  table : OutboxTable
  workers : String → Worker
  publishing : List DirectPublish
  marking : List RandomUUID
  claims : List Attempt
  calls : List Attempt
  succeeded : List (Topic × String)

def Desk.start : Desk := ⟨0, .empty, fun _ => .absent, [], [], [], [], []⟩

def Desk.set (s : Desk) (workerId : String) (w : Worker) : Desk :=
  { s with workers := Function.update s.workers workerId w }

inductive DeskLabel
  | tick (milliseconds : Nat)
  | commit (outbox : OutboxInsert) (direct : Option DirectPublish)
  | join (workerId : String)
  | claim (workerId : String) (limit : Nat) (locked : List Uuid) (reply : Reply)
  | publish (workerId : String) (reply : Reply)
  | markPublished (workerId : String) (reply : Reply)
  | recordFailure (workerId : String) (reply : Reply)
  | crash (workerId : String)
  | publishDirect (publish : DirectPublish) (reply : Reply)
  | markDirect (id : RandomUUID) (reply : Reply)
  deriving DecidableEq

def OutboxInsert.enveloped (o : OutboxInsert) : Bool := decide (o.message.messageId = o.messageId)

/-- The handler publishes the message of the row it inserted. -/
def DirectPublish.sends (p : DirectPublish) (o : OutboxInsert) : Bool :=
  decide (p.outboxRowId = some o.id) && decide (p.topic = o.topic) && decide (p.message.messageId = o.messageId)

def claimInput (workerId : String) (limit : Nat) : ClaimInput := ⟨workerId, limit, claimTimeoutSeconds, maxAttempts⟩

def Desk.claim (s : Desk) (workerId : String) (limit : Nat) (locked : List Uuid) (reply : Reply) : Desk :=
  let (records, table) := claimOutboxMessages s.now (claimInput workerId limit) locked s.table
  let claimed : Desk := { s with table, claims := s.claims ++ records.map (OutboxRow.attempt workerId) }
  if reply.applied then claimed.set workerId (if reply.ok then .take [] records else .idle) else s

def Desk.publish (s : Desk) (workerId : String) (b : Batch) (reply : Reply) : Desk :=
  { s with
    calls := s.calls ++ [b.current.attempt workerId]
    succeeded :=
      if reply.ok then s.succeeded ++ [(b.current.topic, b.current.message.messageId)] else s.succeeded }.set
    workerId (.busy { b with stage := Stage.marking.next reply })

def Desk.markPublished (s : Desk) (workerId : String) (b : Batch) (reply : Reply) : Desk :=
  { s with
    table := if reply.applied then markOutboxPublished s.now b.current.id (some workerId) s.table else s.table }.set
    workerId (b.marked reply)

def Desk.recordFailure (s : Desk) (workerId error : String) (b : Batch) (reply : Reply) : Desk :=
  { s with
    table :=
      if reply.applied then
        recordOutboxFailure s.now b.current.id workerId error maxAttempts
          (backoffSeconds b.current.attempts) s.table
      else s.table }.set
    workerId b.finish

/-- `direct`: handlers of this service publish their own rows. -/
def Desk.exec (direct : Bool) (s : Desk) : DeskLabel → Option Desk
  | .tick milliseconds => some { s with now := s.now + milliseconds }
  | .commit o publish =>
    if o.enveloped && publish.all (fun p => direct && p.sends o) then
      (s.table.insert (o.row s.now)).map fun table => { s with table, publishing := s.publishing ++ publish.toList }
    else none
  | .join workerId => if s.workers workerId = .absent then some (s.set workerId .idle) else none
  | .claim workerId limit locked reply =>
    if s.workers workerId = .idle then some (s.claim workerId limit locked reply) else none
  | .publish workerId reply =>
    match s.workers workerId with
    | .busy b => if b.stage = .publishing then some (s.publish workerId b reply) else none
    | _ => none
  | .markPublished workerId reply =>
    match s.workers workerId with
    | .busy b => if b.stage = .marking then some (s.markPublished workerId b reply) else none
    | _ => none
  | .recordFailure workerId reply =>
    match s.workers workerId with
    | .busy b =>
      match b.stage with
      | .recording error => some (s.recordFailure workerId error b reply)
      | _ => none
    | _ => none
  | .crash workerId =>
    match s.workers workerId with
    | .idle | .busy _ => some (s.set workerId .dead)
    | _ => none
  | .publishDirect p reply =>
    if p ∈ s.publishing then
      some
        { s with
          publishing := s.publishing.erase p
          marking := if reply.ok then s.marking ++ p.outboxRowId.toList else s.marking
          succeeded := if reply.ok then s.succeeded ++ [(p.topic, p.message.messageId)] else s.succeeded }
    else none
  | .markDirect id reply =>
    if id ∈ s.marking then
      some
        { s with
          table := if reply.applied then markOutboxPublished s.now id.val none s.table else s.table
          marking := s.marking.erase id }
    else none

/-- The dispatchers of one service over its outbox. -/
def desk (direct : Bool) : Machine Desk DeskLabel where
  start s := s = Desk.start
  exec := Desk.exec direct

/-! ## What a step can do -/

inductive DeskStep (direct : Bool) (s : Desk) : DeskLabel → Desk → Prop
  | tick {milliseconds : Nat} : DeskStep direct s (.tick milliseconds) { s with now := s.now + milliseconds }
  | commit {o : OutboxInsert} {publish : Option DirectPublish} {table : OutboxTable}
      (enveloped : o.message.messageId = o.messageId)
      (sends : ∀ p, publish = some p →
        p.outboxRowId = some o.id ∧ p.topic = o.topic ∧ p.message.messageId = o.messageId)
      (insert : s.table.insert (o.row s.now) = some table) :
      DeskStep direct s (.commit o publish) { s with table, publishing := s.publishing ++ publish.toList }
  | join {workerId : String} (absent : s.workers workerId = .absent) :
      DeskStep direct s (.join workerId) (s.set workerId .idle)
  | claim {workerId : String} {limit : Nat} {locked : List Uuid} {reply : Reply} {records : List OutboxRow}
      {table : OutboxTable} (idle : s.workers workerId = .idle) (applied : reply.applied = true)
      (claimed : claimOutboxMessages s.now (claimInput workerId limit) locked s.table = (records, table)) :
      DeskStep direct s (.claim workerId limit locked reply)
        ({ s with table, claims := s.claims ++ records.map (OutboxRow.attempt workerId) }.set workerId
          (if reply.ok then .take [] records else .idle))
  | unclaimed {workerId : String} {limit : Nat} {locked : List Uuid} {reply : Reply}
      (lost : reply.applied = false) :
      DeskStep direct s (.claim workerId limit locked reply) s
  | publish {workerId : String} {reply : Reply} {b : Batch} (busy : s.workers workerId = .busy b)
      (stage : b.stage = .publishing) : DeskStep direct s (.publish workerId reply) (s.publish workerId b reply)
  | markPublished {workerId : String} {reply : Reply} {b : Batch} (busy : s.workers workerId = .busy b)
      (stage : b.stage = .marking) :
      DeskStep direct s (.markPublished workerId reply) (s.markPublished workerId b reply)
  | recordFailure {workerId error : String} {reply : Reply} {b : Batch} (busy : s.workers workerId = .busy b)
      (stage : b.stage = .recording error) :
      DeskStep direct s (.recordFailure workerId reply) (s.recordFailure workerId error b reply)
  | crash {workerId : String} : DeskStep direct s (.crash workerId) (s.set workerId .dead)
  | publishDirect {p : DirectPublish} {reply : Reply} (mem : p ∈ s.publishing) :
      DeskStep direct s (.publishDirect p reply)
        { s with
          publishing := s.publishing.erase p
          marking := if reply.ok then s.marking ++ p.outboxRowId.toList else s.marking
          succeeded := if reply.ok then s.succeeded ++ [(p.topic, p.message.messageId)] else s.succeeded }
  | markDirect {id : RandomUUID} {reply : Reply} (mem : id ∈ s.marking) :
      DeskStep direct s (.markDirect id reply)
        { s with
          table := if reply.applied then markOutboxPublished s.now id.val none s.table else s.table
          marking := s.marking.erase id }

theorem desk_step {direct : Bool} {s s' : Desk} {l : DeskLabel} (h : (desk direct).exec s l = some s') :
    DeskStep direct s l s' := by
  replace h : Desk.exec direct s l = some s' := h
  cases l with
  | tick milliseconds => obtain rfl := Option.some.inj h; exact .tick
  | commit o publish =>
    obtain ⟨hg, h⟩ := Option.ite_none_right_eq_some.mp h
    obtain ⟨table, hi, rfl⟩ := Option.map_eq_some_iff.mp h
    obtain ⟨he, hp⟩ := Bool.and_eq_true_iff.mp hg
    refine .commit (of_decide_eq_true he) (fun p hpp => ?_) hi
    subst hpp
    simpa [DirectPublish.sends, and_assoc] using (Bool.and_eq_true_iff.mp hp).2
  | join workerId => obtain ⟨ha, rfl⟩ := guard_eq_some.mp h; exact .join ha
  | claim workerId limit locked reply =>
    obtain ⟨hi, rfl⟩ := guard_eq_some.mp h
    unfold Desk.claim
    cases hc : claimOutboxMessages s.now (claimInput workerId limit) locked s.table with
    | mk records table =>
      by_cases ha : reply.applied = true
      · simp only [if_pos ha]; exact .claim hi ha hc
      · simp only [if_neg ha]; exact .unclaimed (by simpa using ha)
  | publish workerId reply =>
    cases hw : s.workers workerId with
    | busy b =>
      simp only [Desk.exec, hw] at h
      obtain ⟨hs, rfl⟩ := guard_eq_some.mp h
      exact .publish hw hs
    | _ => simp [Desk.exec, hw] at h
  | markPublished workerId reply =>
    cases hw : s.workers workerId with
    | busy b =>
      simp only [Desk.exec, hw] at h
      obtain ⟨hs, rfl⟩ := guard_eq_some.mp h
      exact .markPublished hw hs
    | _ => simp [Desk.exec, hw] at h
  | recordFailure workerId reply =>
    cases hw : s.workers workerId with
    | busy b =>
      cases hs : b.stage with
      | recording error =>
        simp only [Desk.exec, hw, hs, Option.some.injEq] at h
        subst h
        exact .recordFailure hw hs
      | _ => simp [Desk.exec, hw, hs] at h
    | _ => simp [Desk.exec, hw] at h
  | crash workerId =>
    cases hw : s.workers workerId with
    | idle | busy =>
      simp only [Desk.exec, hw, Option.some.injEq] at h
      subst h
      exact .crash
    | _ => simp [Desk.exec, hw] at h
  | publishDirect p reply => obtain ⟨hm, rfl⟩ := guard_eq_some.mp h; exact .publishDirect hm
  | markDirect id reply => obtain ⟨hm, rfl⟩ := guard_eq_some.mp h; exact .markDirect hm

end EventBooking
