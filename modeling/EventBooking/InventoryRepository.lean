import EventBooking.OutboxTable

/-!
# The Event Service's repositories

The tables of the event database, the guarded single-row statements on
`events`, and the two inventory transactions. `Seats` is a pair of seat columns
that satisfies the table's CHECK constraints; every statement that writes the
columns goes through `Seats.check`.
-/

namespace EventBooking
open Lib

def EventErrors.notFound : AppError := ⟨"EVENT_NOT_FOUND", "Event not found", 404⟩

def EventErrors.capacityBelowReservedSeats : AppError :=
  ⟨"CAPACITY_BELOW_RESERVED_SEATS", "Event capacity cannot be lower than the number of reserved seats", 409⟩

def EventErrors.hasReservations : AppError :=
  ⟨"EVENT_HAS_RESERVATIONS", "Events with reserved seats cannot be deleted", 409⟩

def InventoryErrors.invalidQuantity : AppError := ⟨"INVALID_QUANTITY", "Quantity must be greater than zero", 400⟩

/-! ## Seats -/

structure Seats where
  total : Int
  available : Int
  total_int4 : total ≤ 2147483647
  total_positive : 0 < total
  available_nonnegative : 0 ≤ available
  available_not_above_total : available ≤ total
  deriving DecidableEq

def Seats.reserved (s : Seats) : Int := s.total - s.available

/-- The two columns as a statement stores them: their type first, then the CHECK constraints. -/
def Seats.check (total available : Int) : Except DbError Seats :=
  if _ : total ≤ 2147483647 ∧ available ≤ 2147483647 ∧ -2147483648 ≤ total ∧ -2147483648 ≤ available then
    if _ : 0 < total ∧ 0 ≤ available ∧ available ≤ total then
      .ok ⟨total, available, by omega, by omega, by omega, by omega⟩
    else .error .checkViolation
  else .error .outOfRange

theorem check_eq_ok {total available : Int} {s : Seats} :
    Seats.check total available = .ok s ↔ s.total = total ∧ s.available = available := by
  unfold Seats.check
  constructor
  · intro h
    split at h
    · split at h
      · rw [Except.ok.injEq] at h; subst h; exact ⟨rfl, rfl⟩
      · cases h
    · cases h
  · intro h
    obtain ⟨rfl, rfl⟩ := h
    have := s.total_int4; have := s.total_positive
    have := s.available_nonnegative; have := s.available_not_above_total
    rw [dif_pos (by omega), dif_pos (by omega)]

@[ext] theorem Seats.ext {s s' : Seats} (h : s.total = s'.total) (h' : s.available = s'.available) : s = s' := by
  cases s; cases s'; cases h; cases h'; rfl

/-- `SET available_seats = available_seats - q WHERE available_seats >= q`. -/
def Seats.reserve (quantity : Int) (s : Seats) : Except DbError (Option Seats) :=
  if quantity ≤ s.available then some <$> Seats.check s.total (s.available - quantity) else .ok none

/-- `SET available_seats = available_seats + q WHERE available_seats + q <= total_seats`. -/
def Seats.release (quantity : Int) (s : Seats) : Except DbError (Option Seats) := do
  let available ← int4 (s.available + quantity)
  if available ≤ s.total then some <$> Seats.check s.total available else .ok none

/-- `SET available_seats = t - (total_seats - available_seats), total_seats = t
WHERE t >= total_seats - available_seats`, both expressions over the old row. -/
def Seats.rebase (totalSeats : Int) (s : Seats) : Except DbError (Option Seats) :=
  if s.total - s.available ≤ totalSeats then
    some <$> Seats.check totalSeats (totalSeats - (s.total - s.available))
  else .ok none

theorem map_some_eq_ok {α : Type} {x : Except DbError α} {o : Option α} :
    some <$> x = .ok o ↔ ∃ a, x = .ok a ∧ o = some a := by
  cases x with
  | error e => exact ⟨fun h => (by cases h), fun ⟨a, h, _⟩ => (by cases h)⟩
  | ok a =>
    constructor
    · intro h; exact ⟨a, rfl, (Except.ok.inj h).symm⟩
    · intro h; obtain ⟨b, h, rfl⟩ := h; cases h; rfl

section
variable {s : Seats} {q : Int} {o : Option Seats}

theorem reserve_eq_ok : s.reserve q = .ok o ↔
    (q ≤ s.available ∧ ∃ s', o = some s' ∧ s'.total = s.total ∧ s'.available = s.available - q) ∨
      (s.available < q ∧ o = none) := by
  unfold Seats.reserve
  split
  · rename_i h
    simp only [map_some_eq_ok, check_eq_ok]
    constructor
    · intro e; obtain ⟨s', e, rfl⟩ := e; exact Or.inl ⟨h, s', rfl, e⟩
    · intro e
      rcases e with e | e
      · obtain ⟨_, s', rfl, e⟩ := e; exact ⟨s', e, rfl⟩
      · omega
  · rename_i h
    rw [Except.ok.injEq]
    constructor
    · intro e; exact Or.inr ⟨by omega, e.symm⟩
    · intro e
      rcases e with e | e
      · exact absurd e.1 h
      · exact e.2.symm

theorem release_eq_ok : s.release q = .ok o ↔
    (s.available + q ≤ s.total ∧ ∃ s', o = some s' ∧ s'.total = s.total ∧ s'.available = s.available + q) ∨
      (s.total < s.available + q ∧ s.available + q ≤ 2147483647 ∧ o = none) := by
  unfold Seats.release
  rw [except_bind_ok]
  constructor
  · intro h
    obtain ⟨a, ha, h⟩ := h
    obtain ⟨rfl, ha, ha'⟩ := int4_eq_ok.mp ha
    split at h
    · rename_i hle
      obtain ⟨s', h', rfl⟩ := map_some_eq_ok.mp h
      exact Or.inl ⟨hle, s', rfl, check_eq_ok.mp h'⟩
    · rename_i hle
      exact Or.inr ⟨by omega, ha', (Except.ok.inj h).symm⟩
  · intro h
    refine ⟨s.available + q, ?_, ?_⟩
    · rw [int4_eq_ok]
      have := s.total_positive; have := s.available_nonnegative
      rcases h with h | h
      · obtain ⟨h, s', rfl, h1, h2⟩ := h
        have := s'.total_int4; have := s'.available_nonnegative
        exact ⟨rfl, by omega, by omega⟩
      · exact ⟨rfl, by omega, h.2.1⟩
    · rcases h with h | h
      · obtain ⟨h, s', rfl, e⟩ := h
        rw [if_pos h, map_some_eq_ok]
        exact ⟨s', check_eq_ok.mpr e, rfl⟩
      · rw [if_neg (by omega), h.2.2]

theorem rebase_eq_ok {t : Int} : s.rebase t = .ok o ↔
    (s.reserved ≤ t ∧ ∃ s', o = some s' ∧ s'.total = t ∧ s'.reserved = s.reserved) ∨
    (t < s.reserved ∧ o = none) := by
  unfold Seats.rebase Seats.reserved
  split
  · rename_i h
    simp only [map_some_eq_ok, check_eq_ok]
    constructor
    · intro e; obtain ⟨s', e, rfl⟩ := e; exact Or.inl ⟨h, s', rfl, e.1, by omega⟩
    · intro e
      rcases e with e | e
      · obtain ⟨_, s', rfl, e⟩ := e; exact ⟨s', ⟨e.1, by omega⟩, rfl⟩
      · omega
  · rename_i h
    rw [Except.ok.injEq]
    constructor
    · intro e; exact Or.inr ⟨by omega, e.symm⟩
    · intro e
      rcases e with e | e
      · exact absurd e.1 h
      · exact e.2.symm

end

/-! ## Tables -/

structure EventRow where
  id : Uuid
  title : String
  date : Date
  seats : Seats
  createdAt : Date
  updatedAt : Date
  deriving DecidableEq

structure EventDto where
  id : String
  title : String
  date : String
  totalSeats : Int
  availableSeats : Int
  createdAt : String
  updatedAt : String
  deriving DecidableEq

def EventRow.mapRow (row : EventRow) : EventDto where
  id := row.id.text
  title := row.title
  date := toISOString row.date
  totalSeats := row.seats.total
  availableSeats := row.seats.available
  createdAt := toISOString row.createdAt
  updatedAt := toISOString row.updatedAt

def eventTableSchema : Schema EventRow Uuid Unit := ⟨(·.id), fun _ => none⟩

@[simp] theorem event_key (r : EventRow) : eventTableSchema.key r = r.id := rfl

structure EventDb where
  events : Table eventTableSchema
  processed : Table processedSchema
  outbox : OutboxTable

def EventDb.empty : EventDb := ⟨.empty, .empty, .empty⟩

/-! ## Statements on `events` -/

def EventRow.setSeats (now : Date) (row : EventRow) (seats : Seats) : EventRow :=
  { row with seats, updatedAt := now }

/-- The `SET` and guard of a statement that only moves the seat columns. -/
def reseat (seats : Seats → Except DbError (Option Seats)) (now : Date) (row : EventRow) :
    Except DbError (Option EventRow) := do
  let seats ← seats row.seats
  return seats.map (row.setSeats now)

/-- `UPDATE events SET … WHERE id = $1::uuid AND … RETURNING …`; `set` is the guard and the assignment. -/
def eventUpdate (id : String) (set : EventRow → Except DbError (Option EventRow)) (db : EventDb) :
    Except DbError (Option EventRow × EventDb) := do
  let id ← Uuid.cast id
  match db.events.find id with
  | none => return (none, db)
  | some row =>
    match ← set row with
    | none => return (none, db)
    | some row' => return (some row', { db with events := db.events.replace row' fun _ _ _ => rfl })

def eventFindUnique : String → EventDb → Except DbError (Option EventRow × EventDb) := findUnique EventDb.events

def processedEventMessageCreate (messageId : String) (now : Date) : EventDb → Except DbError (Unit × EventDb) :=
  insertInto EventDb.processed (fun db processed => { db with processed }) ⟨messageId, now⟩ ()

def eventOutboxEventCreate (o : OutboxInsert) (now : Date) : EventDb → Except DbError (RandomUUID × EventDb) :=
  insertInto EventDb.outbox (fun db outbox => { db with outbox }) (o.row now) o.id

/-! ## Events -/

structure EventCreate where
  id : RandomUUID
  title : String
  date : Date
  totalSeats : Int
  availableSeats : Option Int
  deriving DecidableEq

def eventCreate (input : EventCreate) (now : Date) (db : EventDb) : Except DbError (EventDto × EventDb) := do
  let title ← text input.title
  let seats ← Seats.check input.totalSeats (input.availableSeats.getD input.totalSeats)
  let row : EventRow := ⟨input.id.val, title, input.date, seats, now, now⟩
  insertInto EventDb.events (fun db events => { db with events }) row row.mapRow db

def EventRow.describe (title : String) (date : Date) (row : EventRow) : EventRow := { row with title, date }

def updateStatement (id : String) (input : EventInput) (now : Date) (db : EventDb) :
    Except DbError (Option EventRow × EventDb) := do
  let title ← text input.title
  let totalSeats ← int4 input.totalSeats
  eventUpdate id (fun row => do
    let row ← reseat (Seats.rebase totalSeats) now row
    return row.map (EventRow.describe title input.date)) db

inductive UpdateResult
  | updated (event : EventDto)
  | notFound
  | capacityBelowReserved
  deriving DecidableEq

/-- `update`: the re-read that tells the two rejections apart sees `later`. -/
def updateResult (id : String) (row : Option EventRow) (later : EventDb) : Except DbError UpdateResult :=
  match row with
  | some row => .ok (.updated row.mapRow)
  | none => do
    let (current, _) ← eventFindUnique id later
    return if current.isSome then .capacityBelowReserved else .notFound

def deletable (id : Uuid) (row : EventRow) : Bool :=
  decide (row.id = id) && decide (row.seats.available = row.seats.total)

def deleteStatement (id : String) (db : EventDb) : Except DbError (Option Uuid × EventDb) := do
  let id ← Uuid.cast id
  return ((db.events.rows.find? (deletable id)).map (·.id), { db with events := db.events.delete (deletable id) })

inductive DeleteResult
  | deleted
  | notFound
  | hasReservations
  deriving DecidableEq

def deleteResult (id : String) (deleted : Option Uuid) (later : EventDb) : Except DbError DeleteResult :=
  match deleted with
  | some _ => .ok .deleted
  | none => do
    let (current, _) ← eventFindUnique id later
    return if current.isSome then .hasReservations else .notFound

/-! ## Reserving and releasing -/

structure OutboxOnFailure where
  id : RandomUUID
  topic : Topic
  messageId : String
  correlationId : String
  bookingId : String
  deriving DecidableEq

structure ProcessReserveSeatsInput where
  messageId : String
  eventId : String
  quantity : Int
  outboxOnSuccess : Option OutboxInsert
  outboxOnFailure : Option OutboxOnFailure
  deriving DecidableEq

inductive ReserveSeatsReason
  | invalidQuantity
  | failure (reason : FailureReason)
  deriving DecidableEq

inductive ReserveSeatsResult
  | duplicate
  | reserved (event : EventDto) (outboxRowId : Option RandomUUID)
  | rejected (reason : ReserveSeatsReason) (outboxRowId : Option RandomUUID)
  deriving DecidableEq

/-- `event ? "INSUFFICIENT_SEATS" : "EVENT_NOT_FOUND"`. -/
def failureReason (event : Option EventRow) : FailureReason :=
  if event.isSome then .insufficientSeats else .eventNotFound

/-- The failure envelope the transaction writes, stamped with a clock read of its own. -/
def OutboxOnFailure.outbox (o : OutboxOnFailure) (eventId : String) (reason : FailureReason) (sent : Date) :
    OutboxInsert where
  id := o.id
  topic := o.topic
  messageId := o.messageId
  message :=
    { messageId := o.messageId
      correlationId := o.correlationId
      timestamp := toISOString sent
      version := 1
      payload := .failure ⟨o.bookingId, eventId, reason⟩ }

def createOutboxRow (o : Option OutboxInsert) (now : Date) : Tx EventDb (Option RandomUUID) :=
  match o with
  | none => pure none
  | some o => do
    let id ← Tx.stmt (eventOutboxEventCreate o now)
    return some id

theorem regular_createOutboxRow (o : Option OutboxInsert) (now : Date) : Tx.Regular (createOutboxRow o now) := by
  unfold createOutboxRow
  cases o with
  | none => exact Tx.regular_pure _
  | some o => exact Tx.regular_bind (Tx.regular_stmt _) fun _ => Tx.regular_pure _

def reserveStatement (eventId : String) (quantity : Int) (now : Date) (db : EventDb) :
    Except DbError (Option EventRow × EventDb) := do
  let quantity ← int4 quantity
  eventUpdate eventId (reseat (Seats.reserve quantity) now) db

/-- What follows the inbox row of a reservation. -/
def reserveRecorded (input : ProcessReserveSeatsInput) (sent now : Date) : Tx EventDb ReserveSeatsResult :=
  if input.quantity ≤ 0 then return .rejected .invalidQuantity none
  else do
    match ← Tx.stmt (reserveStatement input.eventId input.quantity now) with
    | some row => do
      let outboxRowId ← createOutboxRow input.outboxOnSuccess now
      return .reserved row.mapRow outboxRowId
    | none => do
      let event ← Tx.stmt (eventFindUnique input.eventId)
      let failure := input.outboxOnFailure.map fun o => o.outbox input.eventId (failureReason event) sent
      let outboxRowId ← createOutboxRow failure now
      return .rejected (.failure (failureReason event)) outboxRowId

def processReserveSeatsMessage (input : ProcessReserveSeatsInput) (sent now : Date) :
    Tx EventDb ReserveSeatsResult :=
  Tx.tryInsert (Tx.stmt (processedEventMessageCreate input.messageId now)) .duplicate fun _ =>
    reserveRecorded input sent now

theorem regular_reserve (input : ProcessReserveSeatsInput) (sent now : Date) :
    Tx.Regular (reserveRecorded input sent now) := by
  refine Tx.regular_ite (Tx.regular_pure _) (Tx.regular_bind (Tx.regular_stmt _) fun o => ?_)
  cases o with
  | none =>
    exact Tx.regular_bind (Tx.regular_stmt _) fun _ =>
      Tx.regular_bind (regular_createOutboxRow _ _) fun _ => Tx.regular_pure _
  | some row => exact Tx.regular_bind (regular_createOutboxRow _ _) fun _ => Tx.regular_pure _

structure ProcessReleaseSeatsInput where
  messageId : String
  eventId : String
  quantity : Int
  deriving DecidableEq

inductive ReleaseSeatsReason
  | invalidQuantity
  | eventNotFound
  | capacityExceeded
  deriving DecidableEq

inductive ReleaseSeatsResult
  | duplicate
  | released (event : EventDto)
  | rejected (reason : ReleaseSeatsReason)
  deriving DecidableEq

def releaseStatement (eventId : String) (quantity : Int) (now : Date) (db : EventDb) :
    Except DbError (Option EventRow × EventDb) := do
  let quantity ← int4 quantity
  eventUpdate eventId (reseat (Seats.release quantity) now) db

/-- What follows the inbox row of a release. -/
def releaseRecorded (input : ProcessReleaseSeatsInput) (now : Date) : Tx EventDb ReleaseSeatsResult :=
  if input.quantity ≤ 0 then return .rejected .invalidQuantity
  else do
    match ← Tx.stmt (releaseStatement input.eventId input.quantity now) with
    | some row => return .released row.mapRow
    | none => do
      let event ← Tx.stmt (eventFindUnique input.eventId)
      return .rejected (if event.isSome then .capacityExceeded else .eventNotFound)

def processReleaseSeatsMessage (input : ProcessReleaseSeatsInput) (now : Date) : Tx EventDb ReleaseSeatsResult :=
  Tx.tryInsert (Tx.stmt (processedEventMessageCreate input.messageId now)) .duplicate fun _ =>
    releaseRecorded input now

theorem regular_release (input : ProcessReleaseSeatsInput) (now : Date) :
    Tx.Regular (releaseRecorded input now) := by
  refine Tx.regular_ite (Tx.regular_pure _) (Tx.regular_bind (Tx.regular_stmt _) fun o => ?_)
  cases o with
  | none => exact Tx.regular_bind (Tx.regular_stmt _) fun _ => Tx.regular_pure _
  | some row => exact Tx.regular_pure _

end EventBooking
