import EventBooking.SeatCalls

/-!
# The seat transactions, one step at a time

What a step of a call can do, and what a call knows until its COMMIT: an UPDATE
that returned a row holds that row, so at the COMMIT it would still return it,
and the transaction could as well have run there at once.
-/

namespace EventBooking
open Lib

/-! ## The UPDATE -/

namespace SeatRequest

def seats : SeatRequest → Int → Seats → Except DbError (Option Seats)
  | .reserveSeats _ _ => Seats.reserve
  | .releaseSeats _ _ => Seats.release

def taken : SeatRequest → Int
  | .reserveSeats message _ => message.payload.quantity
  | .releaseSeats message _ => -message.payload.quantity

def Unmet (r : SeatRequest) (d : EventDb) : Prop :=
  ∀ row ∈ d.events.rows, Uuid.cast r.eventId = .ok row.id →
    match r with
    | .reserveSeats _ _ => row.seats.available < r.quantity
    | .releaseSeats _ _ => row.seats.total < row.seats.available + r.quantity

structure Writes (r : SeatRequest) (t : Table eventTableSchema) (old row : EventRow) : Prop where
  fits : int4 r.quantity = .ok r.quantity
  row_id : Uuid.cast r.eventId = .ok row.id
  found : t.find row.id = some old
  reseated : reseat (r.seats r.quantity) r.now old = .ok (some row)

section
variable {r : SeatRequest} {d d' : EventDb} {old row : EventRow}

theorem statement_eq (r : SeatRequest) (d : EventDb) : r.statement d =
    (do let quantity ← int4 r.quantity; eventUpdate r.eventId (reseat (r.seats quantity) r.now) d) := by
  cases r <;> rfl

theorem statement_some (h : r.statement d = .ok (some row, d')) : ∃ old, r.Writes d.events old row := by
  rw [statement_eq] at h
  obtain ⟨q, hq, h⟩ := except_bind_ok.mp h
  obtain ⟨rfl, _⟩ := int4_eq_ok.mp hq
  rcases eventUpdate_cases (fun _ _ h => by rw [(reseat_eq_some.mp h).2]; rfl) h with h | h
  · cases h.1
  · obtain ⟨old, row', _, he, hid, hset, hrow, _⟩ := h
    cases he
    have hk : row.id = old.id := hrow.key
    exact ⟨old, hq, hk ▸ hid, Table.find_eq_some.mpr ⟨hrow.mem, hk.symm⟩, hset⟩

theorem Writes.statement (h : r.Writes d.events old row) :
    r.statement d = .ok (some row, { d with events := (SeatOutcome.applied row).write d.events }) := by
  rw [statement_eq]
  unfold eventUpdate
  simp only [h.fits, h.row_id, h.found, h.reseated, bind, Except.bind, pure, Except.pure]
  rfl

theorem statement_none (h : r.statement d = .ok (none, d')) : r.Unmet d := by
  cases r with
  | reserveSeats message draw =>
    rcases reserveStatement_cases h with h | h
    · exact h.2.2
    · obtain ⟨_, _, h, _⟩ := h; cases h
  | releaseSeats message draw =>
    rcases releaseStatement_cases h with h | h
    · exact h.2.2
    · obtain ⟨_, _, h, _⟩ := h; cases h

theorem Writes.id_eq (h : r.Writes d.events old row) : old.id = row.id := (Table.find_eq_some.mp h.found).2

theorem Writes.replaced (h : r.Writes d.events old row) :
    d.events.Replaced old row ((SeatOutcome.applied row).write d.events) := by
  have hrep : d.events.Replaced old row (d.events.replace row fun _ _ _ => rfl) :=
    Table.replaced_replace (Table.find_eq_some.mp h.found).1 h.id_eq.symm
  exact hrep

theorem Writes.reserved (h : r.Writes d.events old row) : row.seats.reserved = old.seats.reserved + r.taken := by
  obtain ⟨hs, _⟩ := reseat_eq_some.mp h.reseated
  cases r with
  | reserveSeats message draw =>
    rcases reserve_eq_ok.mp hs with h | h
    · obtain ⟨_, s', h, ht, ha⟩ := h
      cases h
      simp only [Seats.reserved, taken, quantity] at ha ⊢
      omega
    · cases h.2
  | releaseSeats message draw =>
    rcases release_eq_ok.mp hs with h | h
    · obtain ⟨_, s', h, ht, ha⟩ := h
      cases h
      simp only [Seats.reserved, taken, quantity] at ha ⊢
      omega
    · cases h.2.2

theorem Writes.congr (h : r.Writes d.events old row) (hf : d'.events.find row.id = d.events.find row.id) :
    r.Writes d'.events old row := ⟨h.fits, h.row_id, hf.trans h.found, h.reseated⟩

end

end SeatRequest

/-! ## The COMMIT -/

structure SeatCommits (r : SeatRequest) (outcome : SeatOutcome) (d d' : EventDb) : Prop where
  processed : d.processed.insert r.processedRow = some d'.processed
  outbox : d.outbox.insertOption (r.outboxRow outcome) = some d'.outbox
  events : d'.events = outcome.write d.events

def OutcomeOk (d : EventDb) (r : SeatRequest) : SeatOutcome → Prop
  | .invalidQuantity => r.quantity ≤ 0
  | .applied row => 0 < r.quantity ∧ ∃ old, r.Writes d.events old row
  | .refused _ => 0 < r.quantity

section
variable {r : SeatRequest} {outcome : SeatOutcome} {d d' : EventDb}

theorem seat_commit_eq_some : r.commit outcome d = some d' ↔ SeatCommits r outcome d d' := by
  unfold SeatRequest.commit
  simp only [Option.bind_eq_bind, Option.bind_eq_some_iff, Option.pure_def, Option.some.injEq]
  constructor
  · intro h
    obtain ⟨processed, hp, outbox, ho, rfl⟩ := h
    exact ⟨hp, ho, rfl⟩
  · intro h
    exact ⟨_, h.processed, _, h.outbox, by rw [← h.events]⟩

theorem ok_created {o : OutboxInsert} {now : Date} {outbox : OutboxTable}
    (h : d.outbox.insert (o.row now) = some outbox) :
    Tx.Ok (createOutboxRow (some o) now) d (some o.id) { d with outbox } := by
  unfold createOutboxRow
  refine (Tx.ok_bind (Tx.regular_stmt _)).mpr ⟨o.id, { d with outbox }, Tx.ok_stmt.mpr ?_,
    Tx.ok_pure.mpr ⟨rfl, rfl⟩⟩
  exact insertInto_eq_ok.mpr ⟨rfl, outbox, h, rfl⟩

/-- The whole transaction at once, where it commits: the inbox row, then nothing
for an invalid quantity, else the UPDATE and what `cont` does after it. -/
theorem SeatCommits.transact {β : Type} {dup : β} {cont : Option EventRow → Tx EventDb β}
    {result : Option EventRow → β} (h : SeatCommits r outcome d d') (ho : OutcomeOk d r outcome)
    (hr : ∀ event, outcome ≠ .refused event)
    (hcont : ∀ row m, outcome = .applied row → m.outbox = d.outbox →
      Tx.Ok (cont (some row)) m (result (some row)) { m with outbox := d'.outbox })
    {k : Tx EventDb β} (hk : k = if r.quantity ≤ 0 then pure (result none) else Tx.stmt r.statement >>= cont) :
    Tx.transact (Tx.tryInsert (Tx.stmt (processedEventMessageCreate r.messageId r.now)) dup fun _ => k) none d =
      (.ok (result outcome.updated), d') := by
  subst hk
  have hinsert : processedEventMessageCreate r.messageId r.now d = .ok ((), { d with processed := d'.processed }) :=
    insertInto_eq_ok.mpr ⟨rfl, _, h.processed, rfl⟩
  refine Tx.transact_inserted hinsert ?_
  obtain ⟨events, processed, outbox⟩ := d'
  have hevents : events = outcome.write d.events := h.events
  cases outcome with
  | refused event => exact absurd rfl (hr event)
  | invalidQuantity =>
    have hnone : r.outboxRow .invalidQuantity = none := by cases r <;> rfl
    have houtbox := h.outbox
    rw [hnone] at houtbox
    rw [if_pos (show r.quantity ≤ 0 from ho)]
    refine Tx.ok_pure.mpr ⟨rfl, ?_⟩
    rw [show events = d.events from hevents, show outbox = d.outbox from Table.insertOption_none houtbox]
  | applied row =>
    obtain ⟨hq, old, hw⟩ := ho
    rw [if_neg (Int.not_le.mpr hq)]
    refine (Tx.ok_bind (Tx.regular_stmt _)).mpr ⟨some row, { d with processed, events }, Tx.ok_stmt.mpr ?_, ?_⟩
    · rw [hevents]
      exact SeatRequest.Writes.statement (d := { d with processed }) hw
    · exact hcont row _ rfl rfl

/-- A transaction that ran at once, where it commits, would have come out the same. -/
theorem SeatCommits.atomic (h : SeatCommits r outcome d d') (ho : OutcomeOk d r outcome)
    (hr : ∀ event, outcome ≠ .refused event) : r.atomic d = (.ok (r.reply outcome), d') := by
  cases r with
  | reserveSeats message draw =>
    let result (updated : Option EventRow) : ReserveSeatsResult := updated.elim (.rejected .invalidQuantity none)
      fun row => .reserved row.mapRow ((processReserveSeatsInput message draw).outboxOnSuccess.map (·.id))
    have htx : Tx.transact (reserveSeats message draw) none d = (.ok (result outcome.updated), d') := by
      refine h.transact ho hr (fun row m houtcome hm => ?_) rfl
      subst houtcome
      have hcreated := ok_created (d := m) (hm ▸ Table.insertOption_some h.outbox)
      exact (Tx.ok_bind (regular_createOutboxRow _ _)).mpr ⟨_, _, hcreated, Tx.ok_pure.mpr ⟨rfl, rfl⟩⟩
    unfold SeatRequest.atomic
    simp only [htx, Except.map]
    cases outcome with
    | refused event => exact absurd rfl (hr event)
    | invalidQuantity | applied => rfl
  | releaseSeats message draw =>
    let result (updated : Option EventRow) : ReleaseSeatsResult :=
      updated.elim (.rejected .invalidQuantity) fun row => .released row.mapRow
    have htx : Tx.transact (releaseSeats message draw) none d = (.ok (result outcome.updated), d') := by
      refine h.transact ho hr (fun row m houtcome hm => ?_) rfl
      subst houtcome
      refine Tx.ok_pure.mpr ⟨rfl, ?_⟩
      rw [show d'.outbox = m.outbox from (Table.insertOption_none h.outbox).trans hm.symm]
    unfold SeatRequest.atomic
    simp only [htx, Except.map]
    cases outcome with
    | refused event => exact absurd rfl (hr event)
    | invalidQuantity | applied => rfl

end

/-! ## One step of a call -/

def SeatCall.committing (c : SeatCall) : Option SeatOutcome :=
  match c.phase with
  | .commit outcome => some outcome
  | _ => none

/-- The ways a step of the call `n` can end, with what it saw and what it committed. -/
inductive SeatStep (s : SeatCalls) (n : Nat) (c : SeatCall) : Option SeatOutcome → SeatCalls → Prop
  | duplicate (phase : c.phase = .insertProcessed) (consumed : c.request.messageId ∈ inbox s.db.processed) :
      SeatStep s n c none (s.goto n c .duplicate)
  | failed {e : DbError} (unfinished : c.ended = false) : SeatStep s n c none (s.goto n c (.failed e))
  | received (phase : c.phase = .insertProcessed)
      (held : s.db.processed.insertAmong
      (heldByOthers SeatCall.processed s.calls n) c.request.processedRow = .held) :
      SeatStep s n c none (s.goto n c (if c.request.quantity ≤ 0 then .commit .invalidQuantity else .update))
  | missed (phase : c.phase = .update) (unmet : c.request.Unmet s.db) : SeatStep s n c none (s.goto n c .reread)
  | changed {old row : EventRow} (phase : c.phase = .update) (writes : c.request.Writes s.db.events old row)
      (free : row.id ∉ heldByOthers SeatCall.changes s.calls n) :
      SeatStep s n c none (s.goto n c (.insertOutbox (.applied row)))
  | reread {event : Option EventRow} (phase : c.phase = .reread)
      (found : eventFindUnique c.request.eventId s.db = .ok (event, s.db)) :
      SeatStep s n c none (s.goto n c (.insertOutbox (.refused event)))
  | queued {outcome : SeatOutcome} (phase : c.phase = .insertOutbox outcome)
      (held : ∀ row, c.request.outboxRow outcome = some row →
        s.db.outbox.insertAmong (heldByOthers SeatCall.outbox s.calls n) row = .held) :
      SeatStep s n c none (s.goto n c (.commit outcome))
  | commits {outcome : SeatOutcome} {db : EventDb} {later : SeatPhase} (phase : c.phase = .commit outcome)
      (commits : SeatCommits c.request outcome s.db db)
      (ended : later = .committed outcome ∨ later = .failed .unavailable) :
      SeatStep s n c (some outcome) ({ s with db }.goto n c later)

section
variable {s s' : SeatCalls} {n : Nat} {c : SeatCall}

theorem advance_seatStep (h : s.advanceCall n c = some s') : SeatStep s n c c.committing s' := by
  have hnone : (∀ outcome, c.phase ≠ .commit outcome) → c.committing = none := by
    intro hp
    unfold SeatCall.committing
    split
    · rename_i outcome he; exact absurd he (hp outcome)
    · rfl
  unfold SeatCalls.advanceCall at h
  cases hp : c.phase with
  | insertProcessed =>
    rw [hnone (by simp [hp])]
    simp only [hp] at h
    cases hi : s.db.processed.insertAmong (heldByOthers SeatCall.processed s.calls n) c.request.processedRow with
    | violation =>
      simp only [hi, Option.some.injEq] at h
      refine h ▸ .duplicate hp ?_
      by_contra hnew
      exact Table.insertAmong_violation hi (processed_fresh.mpr hnew)
    | wait => simp [hi] at h
    | held =>
      simp only [hi, Option.some.injEq] at h
      exact h ▸ .received hp hi
  | update =>
    rw [hnone (by simp [hp])]
    simp only [hp] at h
    cases hs : c.request.statement s.db with
    | error e =>
      simp only [hs, Option.some.injEq] at h
      exact h ▸ .failed (by simp [SeatCall.ended, hp])
    | ok p =>
      obtain ⟨o, db⟩ := p
      cases o with
      | none =>
        simp only [hs, Option.some.injEq] at h
        exact h ▸ .missed hp (SeatRequest.statement_none hs)
      | some row =>
        simp only [hs, Option.ite_none_left_eq_some, Option.some.injEq] at h
        obtain ⟨hfree, rfl⟩ := h
        obtain ⟨old, hw⟩ := SeatRequest.statement_some hs
        exact .changed hp hw fun hm => hfree (List.contains_iff_mem.mpr hm)
  | reread =>
    rw [hnone (by simp [hp])]
    simp only [hp] at h
    cases hf : eventFindUnique c.request.eventId s.db with
    | error e =>
      simp only [hf, Option.some.injEq] at h
      exact h ▸ .failed (by simp [SeatCall.ended, hp])
    | ok p =>
      obtain ⟨event, db⟩ := p
      obtain ⟨_, _, _, rfl⟩ := findUnique_eq_ok.mp hf
      simp only [hf, Option.some.injEq] at h
      exact h ▸ .reread hp hf
  | insertOutbox outcome =>
    rw [hnone (by simp [hp])]
    simp only [hp] at h
    cases hr : c.request.outboxRow outcome with
    | none =>
      simp only [hr, Option.some.injEq] at h
      exact h ▸ .queued hp fun row hrow => by rw [hr] at hrow; cases hrow
    | some row =>
      simp only [hr] at h
      cases hi : s.db.outbox.insertAmong (heldByOthers SeatCall.outbox s.calls n) row with
      | violation =>
        simp only [hi, Option.some.injEq] at h
        exact h ▸ .failed (by simp [SeatCall.ended, hp])
      | wait => simp [hi] at h
      | held =>
        simp only [hi, Option.some.injEq] at h
        exact h ▸ .queued hp fun row' hrow => by rw [hr] at hrow; cases hrow; exact hi
  | commit outcome =>
    rw [show c.committing = some outcome by simp [SeatCall.committing, hp]]
    simp only [hp] at h
    obtain ⟨db, hdb, rfl⟩ := Option.map_eq_some_iff.mp h
    exact .commits hp (seat_commit_eq_some.mp hdb) (.inl rfl)
  | committed | duplicate | failed => simp [hp] at h

theorem fault_seatStep (h : s.fault n = some s') : ∃ c, s.calls[n]? = some c ∧ SeatStep s n c none s' := by
  unfold SeatCalls.fault at h
  obtain ⟨c, hn, h⟩ := Option.bind_eq_some_iff.mp h
  simp only [Option.ite_none_left_eq_some, Option.some.injEq] at h
  exact ⟨c, hn, h.2 ▸ .failed (by simpa using h.1)⟩

theorem loseCommit_seatStep (h : s.loseCommit n = some s') :
    ∃ c, s.calls[n]? = some c ∧ SeatStep s n c c.committing s' := by
  unfold SeatCalls.loseCommit at h
  obtain ⟨c, hn, h⟩ := Option.bind_eq_some_iff.mp h
  refine ⟨c, hn, ?_⟩
  cases hp : c.phase with
  | commit outcome =>
    rw [show c.committing = some outcome by simp [SeatCall.committing, hp]]
    simp only [hp] at h
    obtain ⟨db, hdb, rfl⟩ := Option.map_eq_some_iff.mp h
    exact .commits hp (seat_commit_eq_some.mp hdb) (.inr rfl)
  | _ => simp [hp] at h

end

/-! ## The invariant -/

def SeatPhaseOk (d : EventDb) (c : SeatCall) : Prop :=
  match c.phase with
  | .update | .reread => 0 < c.request.quantity
  | .insertOutbox outcome | .commit outcome => OutcomeOk d c.request outcome
  | _ => True

structure SeatCallsInv (s : SeatCalls) : Prop where
  processed : Exclusive s.db.processed SeatCall.processed s.calls
  locks : Locks SeatCall.changes s.calls
  outbox : Exclusive s.db.outbox SeatCall.outbox s.calls
  phase : ∀ (n : Nat) c, s.calls[n]? = some c → SeatPhaseOk s.db c

theorem OutcomeOk.congr {d d' : EventDb} {r : SeatRequest} {outcome : SeatOutcome} (h : OutcomeOk d r outcome)
    (hf : ∀ row, outcome = .applied row → d'.events.find row.id = d.events.find row.id) :
    OutcomeOk d' r outcome := by
  cases outcome with
  | invalidQuantity | refused => exact h
  | applied row =>
    obtain ⟨hq, old, hw⟩ := h
    exact ⟨hq, old, hw.congr (hf row rfl)⟩

theorem SeatPhaseOk.congr {d d' : EventDb} {c : SeatCall} (h : SeatPhaseOk d c)
    (hf : ∀ id, c.changes = some id → d'.events.find id = d.events.find id) : SeatPhaseOk d' c := by
  unfold SeatPhaseOk SeatCall.changes at *
  cases hp : c.phase with
  | insertOutbox outcome | commit outcome =>
    simp only [hp] at h hf ⊢
    refine h.congr fun row he => ?_
    subst he; exact hf row.id rfl
  | update | reread => simpa only [hp] using h
  | _ => trivial

section
variable {s s' : SeatCalls} {n : Nat} {c : SeatCall}

theorem phase_set {d : EventDb} {c' : SeatCall} (ho : ∀ (m : Nat) x, m ≠ n → s.calls[m]? = some x → SeatPhaseOk d x)
    (hc : SeatPhaseOk d c') : ∀ (m : Nat) x, (s.calls.set n c')[m]? = some x → SeatPhaseOk d x := by
  intro m x hx
  rcases getElem?_set_cases hx with hm | hm
  · exact hm.2 ▸ hc
  · exact ho m x hm.1 hm.2

theorem SeatCommits.find {r : SeatRequest} {outcome : SeatOutcome} {d d' : EventDb} (h : SeatCommits r outcome d d')
    (ho : OutcomeOk d r outcome) {id : Uuid} (hid : ∀ row, outcome = .applied row → id ≠ row.id) :
    d'.events.find id = d.events.find id := by
  rw [h.events]
  cases outcome with
  | invalidQuantity | refused => rfl
  | applied row =>
    obtain ⟨_, old, hw⟩ := ho
    rw [hw.replaced.find, event_key, hw.id_eq, if_neg (hid row rfl)]

theorem SeatCallsInv.step {o : Option SeatOutcome} (h : SeatCallsInv s) (hn : s.calls[n]? = some c)
    (hs : SeatStep s n c o s') : SeatCallsInv s' := by
  have hc := h.phase n c hn
  have hothers : ∀ (m : Nat) x, m ≠ n → s.calls[m]? = some x → SeatPhaseOk s.db x := fun m x _ => h.phase m x
  -- a step that leaves the database alone
  have hgoto : ∀ phase, Exclusive s.db.processed SeatCall.processed (s.calls.set n { c with phase }) →
      Locks SeatCall.changes (s.calls.set n { c with phase }) →
      Exclusive s.db.outbox SeatCall.outbox (s.calls.set n { c with phase }) →
      SeatPhaseOk s.db { c with phase } → SeatCallsInv (s.goto n c phase) :=
    fun phase hp hl ho hok => ⟨hp, hl, ho, phase_set hothers hok⟩
  cases hs with
  | duplicate phase consumed =>
    exact hgoto _ (h.processed.release rfl) (h.locks.release rfl) (h.outbox.release rfl) trivial
  | failed => exact hgoto _ (h.processed.release rfl) (h.locks.release rfl) (h.outbox.release rfl) trivial
  | received phase held =>
    have hhold : Exclusive s.db.processed SeatCall.processed
        (s.calls.set n { c with
          phase := if c.request.quantity ≤ 0 then .commit .invalidQuantity else .update }) := by
      refine h.processed.hold fun r hr => ?_
      have : r = c.request.processedRow := by
        unfold SeatCall.processed at hr
        split at hr <;> simp_all
      exact this ▸ held
    refine hgoto _ hhold (h.locks.release ?_) (h.outbox.release ?_) ?_
    · split <;> rfl
    · split
      · obtain ⟨request, _⟩ := c
        cases request <;> rfl
      · rfl
    · split
      · rename_i hq; exact hq
      · rename_i hq; exact Int.not_le.mp hq
  | missed phase unmet =>
    refine hgoto _ (h.processed.keep hn ?_) (h.locks.release rfl) (h.outbox.release rfl) ?_
    · simp [SeatCall.processed, phase]
    · unfold SeatPhaseOk at hc
      rw [phase] at hc; exact hc
  | @changed old row phase writes free =>
    refine hgoto _ (h.processed.keep hn ?_) (h.locks.lock fun id hid => ?_) (h.outbox.release rfl) ?_
    · simp [SeatCall.processed, phase]
    · obtain rfl := Option.some.inj hid
      exact free
    · unfold SeatPhaseOk at hc
      rw [phase] at hc; exact ⟨hc, old, writes⟩
  | reread phase found =>
    refine hgoto _ (h.processed.keep hn ?_) (h.locks.release rfl) (h.outbox.release rfl) ?_
    · simp [SeatCall.processed, phase]
    · unfold SeatPhaseOk at hc
      rw [phase] at hc; exact hc
  | @queued outcome phase held =>
    refine hgoto _ (h.processed.keep hn ?_) (h.locks.keep hn ?_) (h.outbox.hold held) ?_
    · simp [SeatCall.processed, phase]
    · cases outcome <;> simp [SeatCall.changes, phase]
    · unfold SeatPhaseOk at hc
      rw [phase] at hc; exact hc
  | @commits outcome db later phase commits ended =>
    unfold SeatPhaseOk at hc
    rw [phase] at hc
    have hempty : SeatCall.processed { c with phase := later } = none ∧
        SeatCall.changes { c with phase := later } = none ∧
        SeatCall.outbox { c with phase := later } = none ∧ SeatPhaseOk db { c with phase := later } := by
      rcases ended with rfl | rfl <;> exact ⟨rfl, rfl, rfl, trivial⟩
    refine ⟨h.processed.commit hn hempty.1 ?_, h.locks.release hempty.2.1, h.outbox.commit hn hempty.2.2.1 ?_,
      phase_set (fun m x hm hx => (h.phase m x hx).congr fun id hid => commits.find hc fun row he => ?_)
        hempty.2.2.2⟩
    · simp only [SeatCall.processed, phase]; exact commits.processed
    · simp only [SeatCall.outbox, phase]; exact commits.outbox
    · rintro rfl
      exact h.locks.apart (Ne.symm hm) hn hx (by simp [SeatCall.changes, phase, he]) hid

theorem locked_iff {id : Uuid} :
    s.locked id = true ↔ ∃ (n : Nat) (c : SeatCall), s.calls[n]? = some c ∧ c.changes = some id := by
  unfold SeatCalls.locked
  rw [List.contains_iff_mem, List.mem_filterMap]
  constructor
  · intro h
    obtain ⟨c, hc, hid⟩ := h
    obtain ⟨n, hn⟩ := List.getElem?_of_mem hc
    exact ⟨n, c, hn, hid⟩
  · intro h
    obtain ⟨n, c, hn, hid⟩ := h
    exact ⟨c, List.mem_of_getElem? hn, hid⟩

/-- A statement of another session, which waits for the locked rows. -/
theorem SeatCallsInv.around (h : SeatCallsInv s) {db : EventDb} (hp : db.processed = s.db.processed)
    (ho : ∀ r, db.outbox.Fresh r ↔ s.db.outbox.Fresh r)
    (hf : ∀ id, s.locked id = true → db.events.find id = s.db.events.find id) : SeatCallsInv { s with db } where
  processed := hp ▸ h.processed
  locks := h.locks
  outbox := h.outbox.congr ho
  phase n c hn := (h.phase n c hn).congr fun id hid => hf id (locked_iff.mpr ⟨n, c, hn, hid⟩)

theorem SeatCallsInv.locked_found (h : SeatCallsInv s) {id : Uuid} (hl : s.locked id = true) :
    s.db.events.find id ≠ none := by
  obtain ⟨n, c, hn, hid⟩ := locked_iff.mp hl
  have hc := h.phase n c hn
  unfold SeatPhaseOk at hc
  unfold SeatCall.changes at hid
  have hrow : ∀ row, OutcomeOk s.db c.request (.applied row) → s.db.events.find row.id ≠ none := by
    intro row hok
    obtain ⟨_, old, hw⟩ := hok
    rw [hw.found]; simp
  split at hid
  · rename_i row hp
    cases hid
    rw [hp] at hc; exact hrow row hc
  · rename_i row hp
    cases hid
    rw [hp] at hc; exact hrow row hc
  · cases hid

end

end EventBooking
