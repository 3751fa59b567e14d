import EventBooking.Contracts

/-!
# The inbox and outbox tables

A processed-messages table holds the ids a service has consumed.
`booking_outbox_events` and `event_outbox_events` have the same columns and the
two services run the same statements on them: insert a pending row, claim due
rows, close a published row, and put a failed row back or retire it.
-/

namespace EventBooking
open Lib

/-! ## Tables -/

structure ProcessedRow where
  messageId : String
  processedAt : Date
  deriving DecidableEq

def processedSchema : Schema ProcessedRow String Unit := ⟨(·.messageId), fun _ => none⟩

@[simp] theorem processed_key (r : ProcessedRow) : processedSchema.key r = r.messageId := rfl

inductive OutboxStatus
  | pending
  | processing
  | published
  | failed
  deriving DecidableEq, Repr

structure OutboxRow where
  id : Uuid
  topic : Topic
  messageId : String
  message : Message
  status : OutboxStatus
  attempts : Nat
  nextAttemptAt : Date
  claimedAt : Option Date
  claimedBy : Option String
  lastError : Option String
  createdAt : Date
  updatedAt : Date
  publishedAt : Option Date
  deriving DecidableEq

def outboxSchema : Schema OutboxRow Uuid String := ⟨(·.id), fun r => some r.messageId⟩

@[simp] theorem outbox_key (r : OutboxRow) : outboxSchema.key r = r.id := rfl
@[simp] theorem outbox_unique (r : OutboxRow) : outboxSchema.unique r = some r.messageId := rfl

abbrev OutboxTable := Table outboxSchema

structure OutboxInsert where
  id : RandomUUID
  topic : Topic
  messageId : String
  message : Message
  deriving DecidableEq

def OutboxInsert.row (o : OutboxInsert) (now : Date) : OutboxRow where
  id := o.id.val
  topic := o.topic
  messageId := o.messageId
  message := o.message
  status := .pending
  attempts := 0
  nextAttemptAt := now
  claimedAt := none
  claimedBy := none
  lastError := none
  createdAt := now
  updatedAt := now
  publishedAt := none

/-! ## Claiming -/

def second : Nat := 1000

structure ClaimInput where
  workerId : String
  limit : Nat
  claimTimeoutSeconds : Nat
  maxAttempts : Nat
  deriving DecidableEq

def claimable (now : Date) (input : ClaimInput) (r : OutboxRow) : Bool :=
  decide (r.attempts < input.maxAttempts) &&
    ((decide (r.status = .pending) && decide (r.nextAttemptAt ≤ now)) ||
      (decide (r.status = .processing) &&
        r.claimedAt.any fun t => decide (t + input.claimTimeoutSeconds * second < now)))

/-- The ids the `claimable` query selects; `locked` are the rows other
transactions hold, which `SKIP LOCKED` passes over. -/
def claimableIds (now : Date) (input : ClaimInput) (locked : List Uuid) (t : OutboxTable) : List Uuid :=
  let due := t.rows.filter fun r => claimable now input r && !locked.contains r.id
  ((due.insertionSort fun a b => a.createdAt ≤ b.createdAt).take input.limit).map (·.id)

def OutboxRow.claim (now : Date) (workerId : String) (r : OutboxRow) : OutboxRow :=
  { r with
    status := .processing
    attempts := r.attempts + 1
    claimedAt := some now
    claimedBy := some workerId
    lastError := none
    updatedAt := now }

def claimRows (now : Date) (workerId : String) (ids : List Uuid) (t : OutboxTable) : OutboxTable :=
  t.update (fun r => ids.contains r.id) (OutboxRow.claim now workerId) (fun _ => rfl) (fun _ => rfl)

def claimOutboxMessages (now : Date) (input : ClaimInput) (locked : List Uuid) (t : OutboxTable) :
    List OutboxRow × OutboxTable :=
  let ids := claimableIds now input locked t
  let t' := claimRows now input.workerId ids t
  (t'.rows.filter fun r => ids.contains r.id, t')

/-! ## Closing and retrying -/

def OutboxRow.publish (now : Date) (r : OutboxRow) : OutboxRow :=
  { r with
    status := .published
    publishedAt := some now
    claimedAt := none
    claimedBy := none
    lastError := none
    updatedAt := now }

def markOutboxPublished (now : Date) (id : Uuid) (workerId : Option String) (t : OutboxTable) : OutboxTable :=
  t.update (fun r => decide (r.id = id) && (workerId.isNone || decide (r.claimedBy = workerId)))
    (OutboxRow.publish now) (fun _ => rfl) (fun _ => rfl)

def OutboxRow.retry (now : Date) (error : String) (maxAttempts backoffSeconds : Nat) (r : OutboxRow) : OutboxRow :=
  { r with
    status := if maxAttempts ≤ r.attempts then .failed else .pending
    nextAttemptAt := now + backoffSeconds * second
    claimedAt := none
    claimedBy := none
    lastError := some error
    updatedAt := now }

def recordOutboxFailure (now : Date) (id : Uuid) (workerId error : String) (maxAttempts backoffSeconds : Nat)
    (t : OutboxTable) : OutboxTable :=
  t.update (fun r => decide (r.id = id) && decide (r.status = .processing) && decide (r.claimedBy = some workerId))
    (OutboxRow.retry now error maxAttempts backoffSeconds) (fun _ => rfl) (fun _ => rfl)

/-! ## What dispatching leaves alone -/

structure StoredMessage where
  id : Uuid
  topic : Topic
  messageId : String
  message : Message
  deriving DecidableEq

def OutboxRow.content (r : OutboxRow) : StoredMessage := ⟨r.id, r.topic, r.messageId, r.message⟩

def contents (t : OutboxTable) : List StoredMessage := t.rows.map OutboxRow.content

theorem contents_messageId_nodup (t : OutboxTable) : ((contents t).map (·.messageId)).Nodup := by
  have h := t.unique_nodup
  rw [show outboxSchema.unique = fun r => some r.messageId from rfl, List.filterMap_eq_map'] at h
  unfold contents
  rw [List.map_map]; exact h

theorem contents_update (t : OutboxTable) {p : OutboxRow → Bool} {f : OutboxRow → OutboxRow}
    {hk : ∀ r, outboxSchema.key (f r) = outboxSchema.key r}
    {hu : ∀ r, outboxSchema.unique (f r) = outboxSchema.unique r}
    (hf : ∀ r, (f r).content = r.content) : contents (t.update p f hk hu) = contents t := by
  unfold contents
  rw [Table.update_rows, List.map_map]
  apply List.map_congr_left; intro r _
  simp only [Function.comp]
  split
  · exact hf r
  · rfl

theorem contents_claim (now : Date) (input : ClaimInput) (locked : List Uuid) (t : OutboxTable) :
    contents (claimOutboxMessages now input locked t).2 = contents t := by
  show contents (claimRows now input.workerId (claimableIds now input locked t) t) = contents t
  unfold claimRows; apply contents_update; intro r; rfl

theorem contents_markOutboxPublished (now : Date) (id : Uuid) (workerId : Option String) (t : OutboxTable) :
    contents (markOutboxPublished now id workerId t) = contents t := by
  unfold markOutboxPublished; apply contents_update; intro r; rfl

theorem contents_recordOutboxFailure (now : Date) (id : Uuid) (workerId error : String) (maxAttempts backoff : Nat)
    (t : OutboxTable) :
    contents (recordOutboxFailure now id workerId error maxAttempts backoff t) = contents t := by
  unfold recordOutboxFailure; apply contents_update; intro r; rfl

theorem contents_insert {t t' : OutboxTable} {r : OutboxRow} (h : t.insert r = some t') :
    contents t' = contents t ++ [r.content] := by
  unfold contents; rw [Table.insert_rows h]; simp

def OutboxInsert.stored (o : OutboxInsert) : StoredMessage := ⟨o.id.val, o.topic, o.messageId, o.message⟩

theorem outbox_insert {t t' : OutboxTable} {o : OutboxInsert} {now : Date} (h : t.insert (o.row now) = some t') :
    contents t' = contents t ++ [o.stored] ∧ o.messageId ∉ (contents t).map (·.messageId) := by
  refine ⟨contents_insert h, fun hm => ?_⟩
  obtain ⟨hf, _⟩ := Table.insert_eq_some.mp h
  obtain ⟨m, hm, e⟩ := List.mem_map.mp hm
  obtain ⟨r, hr, rfl⟩ := List.mem_map.mp hm
  exact hf.2 o.messageId rfl (List.mem_filterMap.mpr ⟨r, hr, congrArg some e⟩)

end EventBooking
