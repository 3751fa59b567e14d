import EventBooking.Dispatcher
import EventBooking.Transactions
import EventBooking.Zod4

/-!
# Commands and their replies

`createBooking` and `cancelBooking` from their first read to their reply, one
await at a time: the reads, the transaction with its recovery, and the dispatch
of pending rows that follows. The dispatch swallows what publishing and its
bookkeeping reject, and passes on what claiming rejects.
-/

namespace EventBooking
open Lib

/-! ## The awaits of a command -/

inductive BookingCommand
  | createBooking (input : CreateBookingInput)
  | cancelBooking (id : String)
  deriving DecidableEq

/-- What a command awaits; `committed` says that its own transaction, not an earlier one, made the booking. -/
inductive CommandPhase
  | findIdempotencyRecord (input : CreateBookingInput) (key : String)
  | createBookingWithOutbox (input : CreateBookingInput)
  | recoverRecord (input : CreateBookingInput) (key : String)
  | recoverBooking (key : String)
  | findById (id : String)
  | cancelBookingWithOutbox (id : String) (booking : BookingDto)
  | dispatchPending (booking : BookingDto) (committed : Bool)
  | publishRecord (booking : BookingDto) (workerId : String) (batch : Batch)
  | done (reply : Except ServiceError BookingDto)
  deriving DecidableEq

def BookingCommand.begin : BookingCommand → CommandPhase
  | .createBooking input =>
    match truthy input.idempotencyKey with
    | some key => .findIdempotencyRecord input key
    | none => .createBookingWithOutbox input
  | .cancelBooking id => .findById id

namespace CommandPhase

def read (db : BookingDb) : CommandPhase → Option CommandPhase
  | .findIdempotencyRecord input key =>
    match EventBooking.findIdempotencyRecord key db with
    | some existing => some (.done (replay existing (createBookingRequestFingerprint input)))
    | none => some (.createBookingWithOutbox input)
  | .recoverRecord input key =>
    match EventBooking.findIdempotencyRecord key db with
    | some existing =>
      match replay existing (createBookingRequestFingerprint input) with
      | .ok booking => some (.dispatchPending booking false)
      | .error e => some (.done (.error e))
    | none => some (.recoverBooking key)
  | .recoverBooking key =>
    match findByIdempotencyKey key db with
    | some booking => some (.dispatchPending booking false)
    | none => some (.done (.error (.db .uniqueViolation)))
  | .findById id =>
    match bookingFindUnique id db with
    | .ok (some row, _) => some (.cancelBookingWithOutbox id row.mapRow)
    | .ok (none, _) => some (.done (.error (.app BookingErrors.notFound)))
    | .error e => some (.done (.error (.db e)))
  | _ => none

def createFailed (input : CreateBookingInput) (error : DbError) : CommandPhase :=
  match error, truthy input.idempotencyKey with
  | .uniqueViolation, some key => .recoverRecord input key
  | _, _ => .done (.error (.db error))

def cancelReply : Except DbError CancelBookingResult → CommandPhase
  | .ok (.cancelled booking _) => .dispatchPending booking true
  | .ok (.rejected .bookingNotFound) => .done (.error (.app BookingErrors.notFound))
  | .ok (.rejected .invalidStatus) => .done (.error (.app BookingErrors.invalidStatus))
  | .error e => .done (.error (.db e))

def transact (draw : Draw) (db : BookingDb) : CommandPhase → Option (CommandPhase × BookingDb)
  | .createBookingWithOutbox input =>
    match Tx.transact (createBooking input draw) draw.budget db with
    | (.ok booking, db') => some (.dispatchPending booking true, db')
    | (.error e, db') => some (createFailed input e, db')
  | .cancelBookingWithOutbox id booking =>
    let (result, db') := Tx.transact (cancelBooking id booking draw) draw.budget db
    some (cancelReply result, db')
  | _ => none

def dispatched (booking : BookingDto) (workerId : String) : Worker → CommandPhase
  | .busy batch => .publishRecord booking workerId batch
  | _ => .done (.ok booking)

end CommandPhase

/-! ## Runs -/

/-- The database, the database had the command not been made, and what each of its own
statements found and left. -/
structure Command where
  db : BookingDb
  alone : BookingDb
  phase : CommandPhase
  writes : List (BookingDb × BookingDb)

/-- `lost`: the transaction ends and its answer is lost. `draining`: another call of
`dispatchPending` is in progress. -/
inductive CommandLabel
  | others (change : BookingDb → BookingDb)
  | read (rejected : Bool)
  | transact (draw : Draw) (lost : Bool)
  | draining
  | claim (workerId : String) (now : Date) (locked : List Uuid) (reply : Reply)
  | publish (reply : Reply)
  | markPublished (now : Date) (reply : Reply)
  | recordFailure (now : Date) (reply : Reply)

def unavailable : CommandPhase := .done (.error (.db .unavailable))

def dispatchLimit : Nat := 25

namespace Command

def start (command : BookingCommand) (db : BookingDb) : Command := ⟨db, db, command.begin, []⟩

def goto (s : Command) (phase : CommandPhase) : Command := { s with phase }

def write (s : Command) (db : BookingDb) (phase : CommandPhase) : Command :=
  { s with db, phase, writes := s.writes ++ [(s.db, db)] }

def writeOutbox (s : Command) (reply : Reply) (outbox : OutboxTable) (phase : CommandPhase) : Command :=
  s.write (if reply.applied then { s.db with outbox } else s.db) phase

/-- `claimOutboxMessages`, awaited outside any `try`. -/
def claim (s : Command) (booking : BookingDto) (workerId : String) (now : Date) (locked : List Uuid)
    (reply : Reply) :
    Command :=
  let (records, outbox) := claimOutboxMessages now (claimInput workerId dispatchLimit) locked s.db.outbox
  s.writeOutbox reply outbox (if reply.ok then .dispatched booking workerId (.take [] records) else unavailable)

/-- `publishRecord`, whose `catch` clauses let nothing through. -/
def publishRecord (s : Command) (booking : BookingDto) (workerId : String) (b : Batch) :
    CommandLabel → Option Command
  | .publish reply =>
    match b.stage with
    | .publishing => some (s.goto (.publishRecord booking workerId { b with stage := Stage.marking.next reply }))
    | _ => none
  | .markPublished now reply =>
    match b.stage with
    | .marking =>
      some (s.writeOutbox reply (markOutboxPublished now b.current.id (some workerId) s.db.outbox)
        (.dispatched booking workerId (b.marked reply)))
    | _ => none
  | .recordFailure now reply =>
    match b.stage with
    | .recording error =>
      some (s.writeOutbox reply
        (recordOutboxFailure now b.current.id workerId error maxAttempts
          (backoffSeconds b.current.attempts) s.db.outbox)
        (.dispatched booking workerId b.finish))
    | _ => none
  | _ => none

def exec (s : Command) : CommandLabel → Option Command
  | .others change => some { s with db := change s.db, alone := change s.alone }
  | .read rejected => (s.phase.read s.db).map fun phase => s.goto (if rejected then unavailable else phase)
  | .transact draw lost => (s.phase.transact draw s.db).map fun p => s.write p.2 (if lost then unavailable else p.1)
  | .draining =>
    match s.phase with
    | .dispatchPending booking _ => some (s.goto (.done (.ok booking)))
    | _ => none
  | .claim workerId now locked reply =>
    match s.phase with
    | .dispatchPending booking _ => some (s.claim booking workerId now locked reply)
    | _ => none
  | l =>
    match s.phase with
    | .publishRecord booking workerId b => s.publishRecord booking workerId b l
    | _ => none

def Rejected (s : Command) : Prop := ∃ e, s.phase = .done (.error e)

def Untouched (s : Command) : Prop := ∀ w ∈ s.writes, w.2 = w.1

end Command

/-- One command, from any state of the database, among any changes by others. -/
def bookingCommand : Machine Command CommandLabel where
  start s := ∃ command db, s = .start command db
  exec := Command.exec

/-- The answer of a transaction that changed something is not lost. `claimOutboxMessages` is not
rejected after the command's own transaction has committed, nor with rows claimed. -/
def Heard (s : Command) : CommandLabel → Prop
  | .transact draw lost => lost = true → ∀ p, s.phase.transact draw s.db = some p → p.2 = s.db
  | .claim workerId now locked reply => reply.ok = false →
    (∀ booking, s.phase ≠ .dispatchPending booking true) ∧ (reply.applied = true →
      (claimOutboxMessages now (claimInput workerId dispatchLimit) locked s.db.outbox).2 = s.db.outbox)
  | _ => True

/-! ## What a step can do -/

def CommandPhase.early : CommandPhase → Bool
  | .dispatchPending _ committed => !committed
  | .publishRecord _ _ _ | .done _ => false
  | _ => true

def CommandPhase.rejects : CommandPhase → Bool
  | .done (.error _) => true
  | _ => false

theorem rejected_iff {s : Command} : s.Rejected ↔ s.phase.rejects = true := by
  unfold Command.Rejected CommandPhase.rejects
  constructor
  · intro hx
    obtain ⟨e, he⟩ := hx
    rw [he]
  · intro h
    split at h
    · rename_i e he; exact ⟨e, he⟩
    · cases h

section
variable {s s' : Command} {db : BookingDb} {phase phase' : CommandPhase}

theorem untouched_write : (s.write db phase).Untouched ↔ s.Untouched ∧ db = s.db := by
  unfold Command.Untouched Command.write
  constructor
  · intro h
    exact ⟨fun w hw => h w (List.mem_append_left _ hw), h (s.db, db) (List.mem_append_right _ List.mem_cons_self)⟩
  · intro hx w hw
    obtain ⟨h, rfl⟩ := hx
    rcases List.mem_append.mp hw with hw | hw
    · exact h w hw
    · rw [List.mem_singleton.mp hw]

theorem begin_early (command : BookingCommand) : command.begin.early = true := by
  cases command with
  | createBooking input =>
    simp only [BookingCommand.begin]
    split <;> rfl
  | cancelBooking id => rfl

theorem commandRead_cases (h : phase.read db = some phase') :
    phase.early = true ∧ (phase'.early = true ∨ ∃ r, phase' = .done r) := by
  cases phase with
  | findIdempotencyRecord input key =>
    simp only [CommandPhase.read] at h
    split at h
    · obtain rfl := Option.some.inj h; exact ⟨rfl, .inr ⟨_, rfl⟩⟩
    · obtain rfl := Option.some.inj h; exact ⟨rfl, .inl rfl⟩
  | recoverRecord input key =>
    simp only [CommandPhase.read] at h
    split at h
    · split at h
      · obtain rfl := Option.some.inj h; exact ⟨rfl, .inl rfl⟩
      · obtain rfl := Option.some.inj h; exact ⟨rfl, .inr ⟨_, rfl⟩⟩
    · obtain rfl := Option.some.inj h; exact ⟨rfl, .inl rfl⟩
  | recoverBooking key =>
    simp only [CommandPhase.read] at h
    split at h
    · obtain rfl := Option.some.inj h; exact ⟨rfl, .inl rfl⟩
    · obtain rfl := Option.some.inj h; exact ⟨rfl, .inr ⟨_, rfl⟩⟩
  | findById id =>
    simp only [CommandPhase.read] at h
    split at h
    · obtain rfl := Option.some.inj h; exact ⟨rfl, .inl rfl⟩
    · obtain rfl := Option.some.inj h; exact ⟨rfl, .inr ⟨_, rfl⟩⟩
    · obtain rfl := Option.some.inj h; exact ⟨rfl, .inr ⟨_, rfl⟩⟩
  | _ => cases h

theorem createFailed_cases (input : CreateBookingInput) (e : DbError) :
    (CommandPhase.createFailed input e).early = true ∨ (CommandPhase.createFailed input e).rejects = true := by
  unfold CommandPhase.createFailed
  split
  · exact .inl rfl
  · exact .inr rfl

/-- A transaction that commits something leads on to the dispatch; any other leaves the database as it was. -/
theorem commandTransact_cases {draw : Draw} {p : CommandPhase × BookingDb} (h : phase.transact draw db = some p) :
    phase.early = true ∧ ((p.2 = db ∧ (p.1.early = true ∨ p.1.rejects = true)) ∨
      (p.2 ≠ db ∧ ∃ booking, p.1 = .dispatchPending booking true)) := by
  cases phase with
  | createBookingWithOutbox input =>
    refine ⟨rfl, ?_⟩
    have hcases := createBookingTx_cases
      (Prod.mk.eta (p := Tx.transact (createBooking input draw) draw.budget db)).symm
    simp only [CommandPhase.transact] at h
    split at h
    · rename_i booking db' htx
      obtain rfl := Option.some.inj h
      rw [htx] at hcases
      rcases hcases with ⟨_, e, he⟩ | ⟨row, _, hc⟩
      · cases he
      · exact .inr ⟨fun e => Table.insert_ne hc.outbox (congrArg BookingDb.outbox e), booking, rfl⟩
    · rename_i e db' htx
      obtain rfl := Option.some.inj h
      rw [htx] at hcases
      rcases hcases with ⟨hdb, _⟩ | ⟨row, he, _⟩
      · exact .inl ⟨hdb, createFailed_cases input e⟩
      · cases he
  | cancelBookingWithOutbox id booking =>
    refine ⟨rfl, ?_⟩
    have hcases := cancelBookingWithOutbox_cases
      (Prod.mk.eta (p := Tx.transact (cancelBooking id booking draw) draw.budget db)).symm
    simp only [CommandPhase.transact] at h
    change some
      (CommandPhase.cancelReply (Tx.transact (cancelBooking id booking draw) draw.budget db).1, _) = some p at h
    generalize Tx.transact (cancelBooking id booking draw) draw.budget db = q at h hcases
    obtain ⟨result, db'⟩ := q
    obtain rfl := Option.some.inj h
    rcases hcases with ⟨hdb, hr⟩ | ⟨row, rfl, hc⟩
    · refine .inl ⟨hdb, .inr ?_⟩
      rcases hr with ⟨e, rfl⟩ | ⟨⟨reason, rfl⟩, _⟩
      · rfl
      · cases reason <;> rfl
    · exact .inr ⟨fun e => Table.insert_ne hc.outbox (congrArg BookingDb.outbox e), _, rfl⟩
  | _ => cases h

structure Replying (phase : CommandPhase) : Prop where
  early : phase.early = false
  rejects : phase.rejects = false
  dispatch : ∀ booking committed, phase ≠ .dispatchPending booking committed

theorem replying_ok (booking : BookingDto) : Replying (.done (.ok booking)) := ⟨rfl, rfl, fun _ _ e => by cases e⟩

theorem replying_publishRecord (booking : BookingDto) (workerId : String) (b : Batch) :
    Replying (.publishRecord booking workerId b) := ⟨rfl, rfl, fun _ _ e => by cases e⟩

theorem replying_dispatched (booking : BookingDto) (workerId : String) (w : Worker) :
    Replying (.dispatched booking workerId w) := by
  cases w with
  | busy b => exact replying_publishRecord booking workerId b
  | absent | idle | dead => exact replying_ok booking

inductive CommandStep (s : Command) : CommandLabel → Command → Prop
  | others (change : BookingDb → BookingDb) :
      CommandStep s (.others change) { s with db := change s.db, alone := change s.alone }
  | read {rejected : Bool} {phase : CommandPhase} (early : s.phase.early = true)
      (goes : phase.early = true ∨ ∃ r, phase = .done r) : CommandStep s (.read rejected) (s.goto phase)
  | transact {draw : Draw} {lost : Bool} {p : CommandPhase × BookingDb} (eq : s.phase.transact draw s.db = some p) :
      CommandStep s (.transact draw lost) (s.write p.2 (if lost then unavailable else p.1))
  | claim {workerId : String} {now : Date} {locked : List Uuid} {reply : Reply} {booking : BookingDto}
      {committed : Bool} (phase_eq : s.phase = .dispatchPending booking committed) :
      CommandStep s (.claim workerId now locked reply) (s.claim booking workerId now locked reply)
  | replies {l : CommandLabel} {phase : CommandPhase} (heard : Heard s l) (pending : s.phase.rejects = false)
      (replying : Replying phase) : CommandStep s l (s.goto phase)
  | writes {l : CommandLabel} {db : BookingDb} {phase : CommandPhase} (heard : Heard s l)
      (pending : s.phase.rejects = false) (replying : Replying phase) : CommandStep s l (s.write db phase)

theorem command_publishRecord {l : CommandLabel} {booking : BookingDto} {workerId : String} {b : Batch}
    (hp : s.phase = .publishRecord booking workerId b) (h : s.publishRecord booking workerId b l = some s') :
    CommandStep s l s' := by
  cases l with
  | publish reply =>
    simp only [Command.publishRecord] at h
    split at h
    · obtain rfl := Option.some.inj h
      exact .replies trivial (by rw [hp]; rfl) (replying_publishRecord ..)
    · cases h
  | markPublished now reply =>
    simp only [Command.publishRecord] at h
    split at h
    · obtain rfl := Option.some.inj h
      exact .writes trivial (by rw [hp]; rfl) (replying_dispatched ..)
    · cases h
  | recordFailure now reply =>
    simp only [Command.publishRecord] at h
    split at h
    · obtain rfl := Option.some.inj h
      exact .writes trivial (by rw [hp]; rfl) (replying_dispatched ..)
    · cases h
  | _ => cases h

theorem command_step {l : CommandLabel} (h : bookingCommand.exec s l = some s') : CommandStep s l s' := by
  change s.exec l = some s' at h
  cases l with
  | others change =>
    obtain rfl := Option.some.inj h
    exact .others change
  | read rejected =>
    obtain ⟨phase, hread, rfl⟩ := Option.map_eq_some_iff.mp h
    obtain ⟨hearly, hgoes⟩ := commandRead_cases hread
    refine .read hearly ?_
    cases rejected with
    | true => exact .inr ⟨_, rfl⟩
    | false => exact hgoes
  | transact draw lost =>
    obtain ⟨p, hp, rfl⟩ := Option.map_eq_some_iff.mp h
    exact .transact hp
  | draining =>
    cases hp : s.phase with
    | dispatchPending booking committed =>
      simp only [Command.exec, hp] at h
      obtain rfl := Option.some.inj h
      exact .replies trivial (by rw [hp]; rfl) (replying_ok booking)
    | _ => simp [Command.exec, hp] at h
  | claim workerId now locked reply =>
    cases hp : s.phase with
    | dispatchPending booking committed =>
      simp only [Command.exec, hp] at h
      obtain rfl := Option.some.inj h
      exact .claim hp
    | _ => simp [Command.exec, hp] at h
  | publish | markPublished | recordFailure =>
    cases hp : s.phase with
    | publishRecord booking workerId b =>
      simp only [Command.exec, hp] at h
      exact command_publishRecord hp h
    | _ => simp [Command.exec, hp] at h

/-! ## Rejections -/

structure CommandInv (s : Command) : Prop where
  kept : s.Untouched → s.db = s.alone
  early : s.phase.early = true → s.Untouched
  committed : ∀ booking, s.phase = .dispatchPending booking true → ¬ s.Untouched

theorem CommandInv.goto (h : CommandInv s) (hearly : phase.early = true → s.phase.early = true)
    (hdispatch : ∀ booking, phase ≠ .dispatchPending booking true) : CommandInv (s.goto phase) :=
  ⟨h.kept, fun he => h.early (hearly he), fun booking e => absurd e (hdispatch booking)⟩

theorem CommandInv.write (h : CommandInv s) (hearly : phase.early = true → s.phase.early = true ∧ db = s.db)
    (hdispatch : ∀ booking, phase = .dispatchPending booking true → db ≠ s.db) : CommandInv (s.write db phase) := by
  refine ⟨fun hu => ?_, fun he => ?_, fun booking e hu => ?_⟩
  · obtain ⟨hu, hdb⟩ := untouched_write.mp hu
    show db = s.alone
    rw [hdb]; exact h.kept hu
  · obtain ⟨hearly, hdb⟩ := hearly he
    exact untouched_write.mpr ⟨h.early hearly, hdb⟩
  · exact hdispatch booking e (untouched_write.mp hu).2

theorem commandInv_step {l : CommandLabel} (h : CommandInv s) (he : bookingCommand.exec s l = some s') :
    CommandInv s' := by
  cases command_step he with
  | others change => exact ⟨fun hu => congrArg change (h.kept hu), h.early, h.committed⟩
  | read early goes =>
    refine h.goto (fun _ => early) fun booking e => ?_
    rcases goes with hg | ⟨r, hg⟩
    · rw [e] at hg; cases hg
    · rw [e] at hg; cases hg
  | @transact draw lost p eq =>
    obtain ⟨hearly, hp⟩ := commandTransact_cases eq
    cases lost with
    | true => exact h.write (fun e => by cases e) fun _ e => by cases e
    | false =>
      rcases hp with ⟨hdb, hp⟩ | ⟨hdb, booking, hp⟩
      · refine h.write (fun _ => ⟨hearly, hdb⟩) fun booking e => ?_
        rw [show p.1 = .dispatchPending booking true from e] at hp
        rcases hp with hp | hp <;> cases hp
      · refine h.write (fun e => ?_) fun _ _ => hdb
        rw [show (if false = true then unavailable else p.1) = p.1 from rfl, hp] at e
        cases e
  | @claim workerId now locked reply booking committed phase_eq =>
    refine h.write (fun e => ?_) fun booking' e => ?_
    · split at e
      · rw [(replying_dispatched ..).early] at e; cases e
      · cases e
    · split at e
      · exact absurd e ((replying_dispatched ..).dispatch booking' true)
      · cases e
  | replies heard pending replying =>
    refine h.goto (fun e => ?_) fun booking => replying.dispatch booking true
    rw [replying.early] at e; cases e
  | writes heard pending replying =>
    refine h.write (fun e => ?_) fun booking e => absurd e (replying.dispatch booking true)
    rw [replying.early] at e; cases e

theorem commandInv (h : bookingCommand.Reach s) : CommandInv s := by
  refine Machine.Reach.inv (fun s0 h0 => ?_) (fun s0 l s1 _ hi he => commandInv_step hi he) h
  obtain ⟨command, db, rfl⟩ := h0
  refine ⟨fun _ => rfl, fun _ w hw => (by cases hw), fun booking e => ?_⟩
  have hearly := begin_early command
  rw [show command.begin = .dispatchPending booking true from e] at hearly
  cases hearly

def Command.Torn (s : Command) : Prop := s.Rejected ∧ ¬ s.Untouched

theorem not_torn_of_rejects (h : s.phase.rejects = false) : ¬ s.Torn := by
  intro hx
  obtain ⟨hr, _⟩ := hx
  rw [rejected_iff, h] at hr; cases hr

theorem not_torn_of_untouched (h : s.Untouched) : ¬ s.Torn := fun ht => ht.2 h

theorem not_torn_of_early (h : CommandInv s) (he : s.phase.early = true) : ¬ s.Torn :=
  not_torn_of_untouched (h.early he)

theorem torn_unavailable : (s.write db unavailable).Torn ↔ ¬ (s.Untouched ∧ db = s.db) := by
  have hwrite : (s.write db unavailable).Untouched ↔ s.Untouched ∧ db = s.db := untouched_write
  rw [← hwrite]
  exact ⟨fun h => h.2, fun h => ⟨⟨_, rfl⟩, h⟩⟩

theorem outbox_kept {applied : Bool} {d : BookingDb} {outbox : OutboxTable} :
    (if applied then { d with outbox } else d) = d ↔ (applied = true → outbox = d.outbox) := by
  cases applied with
  | false => exact ⟨fun _ e => (by cases e), fun _ => rfl⟩
  | true =>
    refine ⟨fun e _ => congrArg BookingDb.outbox e, fun e => ?_⟩
    show { d with outbox } = d
    rw [e rfl]

theorem claim_rejected {booking : BookingDto} {workerId : String} {now : Date} {locked : List Uuid} {reply : Reply}
    (h : reply.ok = false) :
    (s.claim booking workerId now locked reply).Torn ↔ ¬ (s.Untouched ∧ (reply.applied = true →
      (claimOutboxMessages now (claimInput workerId dispatchLimit) locked s.db.outbox).2 = s.db.outbox)) := by
  unfold Command.claim Command.writeOutbox
  rw [h]
  exact torn_unavailable.trans (not_congr (and_congr_right fun _ => outbox_kept))

/-- A step tears a command exactly when it is not heard. -/
theorem torn_step {l : CommandLabel} (h : CommandInv s) (he : bookingCommand.exec s l = some s') :
    s'.Torn ↔ s.Torn ∨ ¬ Heard s l := by
  have hheard : Heard s l → ¬ s.Torn → ¬ s'.Torn → (s'.Torn ↔ s.Torn ∨ ¬ Heard s l) := fun hl hs hs' =>
    iff_of_false hs' fun ht => ht.elim hs fun hn => hn hl
  cases command_step he with
  | others change => exact ⟨.inl, fun ht => ht.resolve_right fun hn => hn trivial⟩
  | read early goes => exact hheard trivial (not_torn_of_early h early) (not_torn_of_untouched (h.early early))
  | @transact draw lost p eq =>
    obtain ⟨hearly, hp⟩ := commandTransact_cases eq
    cases lost with
    | false =>
      refine hheard (fun e => by cases e) (not_torn_of_early h hearly) ?_
      rcases hp with ⟨hdb, _⟩ | ⟨_, booking, hp⟩
      · exact not_torn_of_untouched (untouched_write.mpr ⟨h.early hearly, hdb⟩)
      · refine not_torn_of_rejects ?_
        show p.1.rejects = false
        rw [hp]; rfl
    | true =>
      refine torn_unavailable.trans ?_
      rw [or_iff_right (not_torn_of_early h hearly), and_iff_right (h.early hearly), not_iff_not]
      exact ⟨fun e _ p' hp' => Option.some.inj (eq.symm.trans hp') ▸ e, fun e => e rfl p eq⟩
  | @claim workerId now locked reply booking committed phase_eq =>
    have hs : ¬ s.Torn := not_torn_of_rejects (by rw [phase_eq]; rfl)
    cases hok : reply.ok with
    | true =>
      refine hheard (fun e => by rw [hok] at e; cases e) hs (not_torn_of_rejects ?_)
      show (if reply.ok = true then CommandPhase.dispatched booking workerId (.take [] _)
        else unavailable).rejects = false
      rw [if_pos hok]
      exact (replying_dispatched ..).rejects
    | false =>
      rw [claim_rejected hok, or_iff_right hs, not_iff_not]
      have huntouched : s.Untouched ↔ ∀ booking, s.phase ≠ .dispatchPending booking true := by
        cases committed with
        | true => exact iff_of_false (h.committed booking phase_eq) fun hn => hn booking phase_eq
        | false =>
          refine iff_of_true (h.early (by rw [phase_eq]; rfl)) fun booking' e => ?_
          rw [phase_eq] at e; cases e
      rw [huntouched]
      exact ⟨fun e _ => e, fun e => e hok⟩
  | replies heard pending replying =>
    exact hheard heard (not_torn_of_rejects pending) (not_torn_of_rejects replying.rejects)
  | writes heard pending replying =>
    exact hheard heard (not_torn_of_rejects pending) (not_torn_of_rejects replying.rejects)

end

/-- A command whose promise rejects has changed nothing exactly when all its steps are heard. A command
that changed nothing leaves the database that the others leave without it. -/
theorem rejected_untouched_iff {command : BookingCommand} {db : BookingDb} {ls : List CommandLabel} {s : Command}
    (hr : bookingCommand.run (.start command db) ls = some s) :
    ((s.Rejected → s.Untouched) ↔ bookingCommand.Meets Heard (.start command db) ls) ∧
    (s.Untouched → s.db = s.alone) := by
  have hstart : bookingCommand.Reach (.start command db) := .start ⟨command, db, rfl⟩
  have hinv := commandInv (hstart.run hr)
  have htorn := Machine.run_violates (fun s l s' h he => torn_step (commandInv h) he) hstart hr
  have hfirst : ¬ (Command.start command db).Torn := not_torn_of_untouched fun w hw => (by cases hw)
  rw [or_iff_right hfirst] at htorn
  refine ⟨?_, hinv.kept⟩
  rw [← not_iff_not, ← htorn]
  exact Classical.not_imp

/-! ## Two rejections -/

def requestForTwo (idempotencyKey : Option String) : CreateBookingInput :=
  ⟨sampleText 7, sampleText 1, 2, idempotencyKey⟩

def Command.view (s : Command) : Bool × (Nat × Nat) × Nat × Nat :=
  (s.phase.rejects, (s.db.bookings.rows.length, s.db.outbox.rows.length),
    s.alone.bookings.rows.length, s.alone.outbox.rows.length)

theorem aborted_and_rejected : ∃ s, bookingCommand.run (.start (.createBooking (requestForTwo (some "k"))) .empty)
      [.read false, .transact { sampleDraw 2 3 4 0 0 with budget := some 2 } false] = some s ∧
    s.view = (true, (0, 0), 0, 0) ∧ s.Rejected ∧ s.Untouched ∧ s.db = s.alone := by
  have h : (bookingCommand.run (.start (.createBooking (requestForTwo (some "k"))) .empty)
      [.read false, .transact { sampleDraw 2 3 4 0 0 with budget := some 2 } false]).map Command.view =
      some (true, (0, 0), 0, 0) := by decide +kernel
  obtain ⟨s, hs, hview⟩ := Option.map_eq_some_iff.mp h
  have hrejected : s.Rejected := rejected_iff.mpr (congrArg Prod.fst hview)
  have hmeets : bookingCommand.Meets Heard (.start (.createBooking (requestForTwo (some "k"))) .empty)
      [.read false, .transact { sampleDraw 2 3 4 0 0 with budget := some 2 } false] :=
    ⟨trivial, fun _ _ => ⟨fun e => (by cases e), fun _ _ => trivial⟩⟩
  have huntouched := (rejected_untouched_iff hs).1.mpr hmeets hrejected
  exact ⟨s, hs, hview, hrejected, huntouched, (rejected_untouched_iff hs).2 huntouched⟩

theorem booked_and_rejected : ∃ s, bookingCommand.run (.start (.createBooking (requestForTwo none)) .empty)
      [.transact (sampleDraw 2 3 4 0 0) false, .claim "w" 0 [] (.rejected "connection lost" false)] = some s ∧
    s.view = (true, (1, 1), 0, 0) ∧ s.Rejected ∧ s.db ≠ s.alone ∧ ¬ s.Untouched := by
  have h : (bookingCommand.run (.start (.createBooking (requestForTwo none)) .empty)
      [.transact (sampleDraw 2 3 4 0 0) false,
        .claim "w" 0 [] (.rejected "connection lost" false)]).map Command.view =
      some (true, (1, 1), 0, 0) := by decide +kernel
  obtain ⟨s, hs, hview⟩ := Option.map_eq_some_iff.mp h
  have hstart : bookingCommand.Reach (.start (.createBooking (requestForTwo none)) .empty) := .start ⟨_, _, rfl⟩
  have hne : s.db ≠ s.alone := fun e => by
    unfold Command.view at hview
    rw [e] at hview
    simp only [Prod.mk.injEq] at hview
    omega
  exact ⟨s, hs, hview, rejected_iff.mpr (congrArg Prod.fst hview), hne,
    fun hu => hne ((commandInv (hstart.run hs)).kept hu)⟩

end EventBooking
