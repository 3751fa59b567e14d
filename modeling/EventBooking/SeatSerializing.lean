import EventBooking.SeatTransactions
import EventBooking.SeatLedger
import EventBooking.Idempotency

/-!
# Concurrent seat transactions in commit order

`seatDatabase` runs one transaction of the Event Service after the other. The
concurrent calls leave the database it leaves for the same work in the order of
the COMMITs. Only a refusal may be late: it is due to what its UPDATE and its
re-read saw while the call was under way.
-/

namespace EventBooking
open Lib

/-! ## One transaction after the other -/

/-- What the event database does at one moment; `turnAway` is a refusal that was decided before. -/
inductive SeatWork
  | serve (request : SeatRequest) (outcome : SeatOutcome)
  | turnAway (request : SeatRequest) (event : Option EventRow)
  | createEvent (input : EventInput) (draw : Draw)
  | updateEvent (id : String) (input : EventInput) (now : Date)
  | deleteEvent (id : String)
  | bookkeep (op : Bookkeeping)

namespace SeatWork

def messageId : SeatWork → Option String
  | .serve request _ | .turnAway request _ => some request.messageId
  | _ => none

def changes : SeatWork → List SeatChange
  | .serve (.reserveSeats message _) (.applied _) => [.reserved message.messageId message.payload]
  | .serve (.releaseSeats message _) (.applied _) => [.released message.messageId message.payload]
  | .createEvent _ draw => [.created draw.id.val]
  | _ => []

def exec (d : EventDb) : SeatWork → Option EventDb
  | .serve request outcome =>
    match request.atomic d with
    | (.ok reply, db) => if reply = request.reply outcome then some db else none
    | (.error _, _) => none
  | .turnAway request event => request.commit (.refused event) d
  | .createEvent input draw =>
    match eventCreate ⟨draw.id, input.title, input.date, input.totalSeats, none⟩ draw.now d with
    | .ok (_, db) => some db
    | .error _ => none
  | .updateEvent id input now => some (autocommit (updateStatement id input now) d).2
  | .deleteEvent id => some (autocommit (deleteStatement id) d).2
  | .bookkeep op => some { d with outbox := op.apply d.outbox }

end SeatWork

def seatDatabase : Machine EventDb SeatWork where
  start d := d = .empty
  exec := SeatWork.exec

def SeatOutcome.work (r : SeatRequest) : SeatOutcome → SeatWork
  | .refused event => .turnAway r event
  | outcome => .serve r outcome

def SeatCalls.work (s : SeatCalls) (l : SeatLabel) (_ : SeatCalls) : Option SeatWork :=
  match l with
  | .begin _ | .fault _ => none
  | .advance n | .loseCommit n => s.calls[n]?.bind fun c => c.committing.map (SeatOutcome.work c.request)
  | .createEvent input draw =>
    match eventCreate ⟨draw.id, input.title, input.date, input.totalSeats, none⟩ draw.now s.db with
    | .ok _ => some (.createEvent input draw)
    | .error _ => none
  | .updateEvent id input now => some (.updateEvent id input now)
  | .deleteEvent id => some (.deleteEvent id)
  | .bookkeep op => some (.bookkeep op)

structure Accounts (d : EventDb) (work : List SeatWork) : Prop where
  serial : seatDatabase.run .empty work = some d
  consumed : inbox d.processed = work.filterMap SeatWork.messageId
  balanced : ∀ e, reservedFor d e = balance (work.flatMap SeatWork.changes) e

section
variable {d d' : EventDb} {work : List SeatWork} {w : SeatWork}

theorem serial_append (h : seatDatabase.run .empty work = some d) (he : w.exec d = some d') :
    seatDatabase.run .empty (work ++ [w]) = some d' := by
  rw [Machine.run_append, h, Option.bind_some]
  exact Machine.run_cons_some.mpr ⟨d', he, rfl⟩

theorem Accounts.same (h : Accounts d work) (he : w.exec d = some d') (hm : w.messageId = none)
    (hc : w.changes = []) (hp : inbox d'.processed = inbox d.processed)
    (hr : ∀ e, reservedFor d' e = reservedFor d e) :
    Accounts d' (work ++ [w]) where
  serial := serial_append h.serial he
  consumed := by rw [hp, h.consumed]; simp [hm]
  balanced e := by rw [hr, h.balanced]; simp [hc]

theorem SeatCommits.exec {r : SeatRequest} {outcome : SeatOutcome} (h : SeatCommits r outcome d d')
    (ho : OutcomeOk d r outcome) : (outcome.work r).exec d = some d' := by
  cases outcome with
  | refused event => exact seat_commit_eq_some.mpr h
  | invalidQuantity | applied =>
    show (match r.atomic d with | (.ok reply, db) => _ | (.error _, _) => _) = _
    rw [h.atomic ho fun _ e => by cases e]
    simp only [if_true]

theorem SeatCommits.reservedFor {r : SeatRequest} {outcome : SeatOutcome} (h : SeatCommits r outcome d d')
    (ho : OutcomeOk d r outcome) (e : Uuid) :
    reservedFor d' e = ((outcome.work r).changes.foldl (SeatChange.apply e) (EventBooking.reservedFor d e)) := by
  cases outcome with
  | invalidQuantity =>
    rw [reservedFor_congr h.events]
    cases r <;> rfl
  | refused event => exact reservedFor_congr h.events e
  | applied row =>
    obtain ⟨_, old, hw⟩ := ho
    have hrep := hw.replaced
    rw [← h.events] at hrep
    rw [reservedFor_replaced hrep, hw.reserved, ← reservedFor_of_mem hrep.mem]
    have hid : Uuid.cast r.eventId = .ok old.id := hw.id_eq ▸ hw.row_id
    by_cases he : e = old.id
    · subst he
      rw [if_pos rfl]
      cases r with
      | reserveSeats message draw => exact (if_pos hid).symm
      | releaseSeats message draw => exact (if_pos hid).symm
    · have hne : Uuid.cast r.eventId ≠ .ok e := fun h => he (Except.ok.inj (hid.symm.trans h)).symm
      rw [if_neg he]
      cases r with
      | reserveSeats message draw => exact (if_neg hne).symm
      | releaseSeats message draw => exact (if_neg hne).symm

theorem Accounts.commit {r : SeatRequest} {outcome : SeatOutcome} (h : Accounts d work)
    (hc : SeatCommits r outcome d d') (ho : OutcomeOk d r outcome) : Accounts d' (work ++ [outcome.work r]) where
  serial := serial_append h.serial (hc.exec ho)
  consumed := by
    rw [(inbox_insert hc.processed).1, h.consumed, List.filterMap_append]
    cases outcome <;> rfl
  balanced e := by
    rw [hc.reservedFor ho, h.balanced]
    unfold balance
    rw [List.flatMap_append, List.foldl_append, List.flatMap_singleton]

end

/-! ## The calls and the work -/

structure SeatLog (s : SeatCalls) (work : List SeatWork) : Prop where
  inv : SeatCallsInv s
  accounts : Accounts s.db work
  committed : ∀ (n : Nat) c outcome, s.calls[n]? = some c → c.phase = .committed outcome →
    outcome.work c.request ∈ work
  duplicate : ∀ (n : Nat) c, s.calls[n]? = some c → c.phase = .duplicate →
    c.request.messageId ∈ inbox s.db.processed

section
variable {s s' : SeatCalls} {n : Nat} {c : SeatCall} {work : List SeatWork}

theorem SeatLog.goto (h : SeatLog s work) {phase : SeatPhase} (hi : SeatCallsInv (s.goto n c phase))
    (hc : ∀ outcome, phase ≠ .committed outcome)
    (hd : phase = .duplicate → c.request.messageId ∈ inbox s.db.processed) : SeatLog (s.goto n c phase) work where
  inv := hi
  accounts := h.accounts
  committed m x outcome hx hp := by
    rcases getElem?_set_cases hx with hm | hm
    · rw [hm.2] at hp; exact absurd hp (hc outcome)
    · exact h.committed m x outcome hm.2 hp
  duplicate m x hx hp := by
    rcases getElem?_set_cases hx with hm | hm
    · rw [hm.2] at hp ⊢; exact hd hp
    · exact h.duplicate m x hm.2 hp

theorem SeatLog.call {o : Option SeatOutcome} (h : SeatLog s work) (hn : s.calls[n]? = some c)
    (hs : SeatStep s n c o s') :
    SeatLog s' (work ++ (o.map (SeatOutcome.work c.request)).toList) := by
  have hi := h.inv.step hn hs
  have hc := h.inv.phase n c hn
  cases hs with
  | duplicate phase consumed =>
    rw [Option.map_none, Option.toList_none, List.append_nil]
    exact h.goto hi (fun _ e => by cases e) fun _ => consumed
  | received phase held =>
    rw [Option.map_none, Option.toList_none, List.append_nil]
    refine h.goto hi (fun _ e => ?_) fun e => ?_ <;> split at e <;> cases e
  | failed | missed | changed | reread | queued =>
    rw [Option.map_none, Option.toList_none, List.append_nil]
    exact h.goto hi (fun _ e => by cases e) fun e => by cases e
  | @commits outcome db later phase commits ended =>
    unfold SeatPhaseOk at hc
    rw [phase] at hc
    have hin := (inbox_insert commits.processed).1
    refine ⟨hi, h.accounts.commit commits hc, fun m x outcome' hx hp => ?_, fun m x hx hp => ?_⟩
    · rcases getElem?_set_cases hx with hm | hm
      · rw [hm.2] at hp ⊢
        rcases ended with rfl | rfl
        · cases hp; simp
        · cases hp
      · exact List.mem_append_left _ (h.committed m x outcome' hm.2 hp)
    · show _ ∈ inbox db.processed
      rw [hin]
      rcases getElem?_set_cases hx with hm | hm
      · rw [hm.2] at hp
        rcases ended with rfl | rfl <;> cases hp
      · exact List.mem_append_left _ (h.duplicate m x hm.2 hp)

theorem SeatLog.around (h : SeatLog s work) {db : EventDb} {w : SeatWork} (hi : SeatCallsInv { s with db })
    (ha : Accounts db (work ++ [w])) (hp : inbox db.processed = inbox s.db.processed) :
    SeatLog { s with db } (work ++ [w]) where
  inv := hi
  accounts := ha
  committed m x outcome hx hc := List.mem_append_left _ (h.committed m x outcome hx hc)
  duplicate m x hx hd := hp ▸ h.duplicate m x hx hd

theorem SeatLog.begin (h : SeatLog s work) (request : SeatRequest) :
    SeatLog { s with calls := s.calls ++ [⟨request, .insertProcessed⟩] } work where
  inv := by
    refine ⟨h.inv.processed.append rfl, h.inv.locks.append rfl, h.inv.outbox.append rfl, fun m x hx => ?_⟩
    rcases getElem?_append_cases hx with hm | hm
    · rw [hm.2]; trivial
    · exact h.inv.phase m x hm.2
  accounts := h.accounts
  committed m x outcome hx hc := by
    rcases getElem?_append_cases hx with hm | hm
    · rw [hm.2] at hc; cases hc
    · exact h.committed m x outcome hm.2 hc
  duplicate m x hx hd := by
    rcases getElem?_append_cases hx with hm | hm
    · rw [hm.2] at hd; cases hd
    · exact h.duplicate m x hm.2 hd

theorem SeatLog.createEvent (h : SeatLog s work) {input : EventInput} {draw : Draw} {row : EventRow} {db : EventDb}
    (hc : EventCreated ⟨draw.id, input.title, input.date, input.totalSeats, none⟩ draw.now s.db row db)
    (he : (SeatWork.createEvent input draw).exec s.db = some db) :
    SeatLog { s with db } (work ++ [.createEvent input draw]) := by
  have hi : SeatCallsInv { s with db } := by
    refine h.inv.around hc.processed (fun r => by rw [hc.outbox]) fun id hl => ?_
    rw [Table.find_insert hc.events, event_key]
    split
    · rename_i hid
      exact absurd (hid ▸ Table.find_before_insert hc.events) (h.inv.locked_found hl)
    · rfl
  refine h.around hi ⟨serial_append h.accounts.serial he, ?_, fun e => ?_⟩ (by rw [hc.processed])
  · rw [hc.processed, h.accounts.consumed]; simp [SeatWork.messageId]
  · obtain ⟨hsame, hzero⟩ := hc.reservedFor rfl e
    rw [List.flatMap_append, List.flatMap_singleton]
    show _ = balance (_ ++ [SeatChange.created draw.id.val]) e
    rw [balance_append]
    show _ = if draw.id.val = e then 0 else _
    split
    · rename_i hid; exact hzero hid.symm
    · rw [hsame, h.accounts.balanced]

theorem SeatLog.updateEvent (h : SeatLog s work) {id : String} {input : EventInput} {now : Date} {row : EventRow}
    {db : EventDb} (hu : updateStatement id input now s.db = .ok (some row, db)) (hl : s.locked row.id = false) :
    SeatLog { s with db } (work ++ [.updateEvent id input now]) := by
  rcases updateStatement_cases hu with hc | hc
  · cases hc.1
  obtain ⟨old, row', he, hr⟩ := hc
  cases he
  have hi : SeatCallsInv { s with db } := by
    refine h.inv.around hr.processed (fun r => by rw [hr.outbox]) fun id hlocked => ?_
    rw [hr.events.find, event_key]
    split
    · rename_i hid
      rw [hid, ← hr.row'_id, hl] at hlocked; cases hlocked
    · rfl
  have hexec : (SeatWork.updateEvent id input now).exec s.db = some db := by
    simp only [SeatWork.exec, autocommit, hu]
  exact h.around hi (h.accounts.same hexec rfl rfl (by rw [hr.processed]) hr.reservedFor) (by rw [hr.processed])

theorem SeatLog.deleteEvent (h : SeatLog s work) {id : String} {row : Uuid} {db : EventDb}
    (hd : deleteStatement id s.db = .ok (some row, db)) (hl : s.locked row = false) :
    SeatLog { s with db } (work ++ [.deleteEvent id]) := by
  rcases deleteStatement_cases hd with hc | hc
  · cases hc.1
  obtain ⟨old, he, hr⟩ := hc
  cases he
  have hi : SeatCallsInv { s with db } := by
    refine h.inv.around hr.processed (fun r => by rw [hr.outbox]) fun id hlocked => ?_
    refine Table.find_congr fun x hx => ?_
    rw [hr.events x]
    refine ⟨fun hm => hm.1, fun hm => ⟨hm, fun he => ?_⟩⟩
    rw [← hx, event_key, he, hl] at hlocked; cases hlocked
  have hexec : (SeatWork.deleteEvent id).exec s.db = some db := by
    simp only [SeatWork.exec, autocommit, hd]
  exact h.around hi (h.accounts.same hexec rfl rfl (by rw [hr.processed]) hr.reservedFor) (by rw [hr.processed])

theorem SeatLog.idle (h : SeatLog s work) {w : SeatWork} (he : w.exec s.db = some s.db) (hm : w.messageId = none)
    (hc : w.changes = []) : SeatLog s (work ++ [w]) :=
  h.around h.inv (h.accounts.same he hm hc rfl fun _ => rfl) rfl

theorem begin_cases {request : SeatRequest} (he : seatCalls.exec s (.begin request) = some s') :
    s' = s ∨ s' = { s with calls := s.calls ++ [⟨request, .insertProcessed⟩] } := by
  change s.exec (.begin request) = some s' at he
  unfold SeatCalls.exec at he
  cases hc : request.check with
  | error e =>
    simp only [hc] at he
    exact .inl (Option.some.inj he).symm
  | ok u =>
    simp only [hc] at he
    exact .inr (Option.some.inj he).symm

theorem SeatLog.step {l : SeatLabel} (h : SeatLog s work) (he : seatCalls.exec s l = some s') :
    SeatLog s' (work ++ (s.work l s').toList) := by
  cases l with
  | begin request =>
    show SeatLog _ (work ++ [])
    rw [List.append_nil]
    rcases begin_cases he with rfl | rfl
    · exact h
    · exact h.begin request
  | advance n =>
    obtain ⟨c, hn, he⟩ := Option.bind_eq_some_iff.mp he
    have := h.call hn (advance_seatStep he)
    simpa only [SeatCalls.work, hn, Option.bind_some] using this
  | fault n =>
    obtain ⟨c, hn, hs⟩ := fault_seatStep he
    exact h.call hn hs
  | loseCommit n =>
    obtain ⟨c, hn, hs⟩ := loseCommit_seatStep he
    have := h.call hn hs
    simpa only [SeatCalls.work, hn, Option.bind_some] using this
  | createEvent input draw =>
    cases hc : eventCreate ⟨draw.id, input.title, input.date, input.totalSeats, none⟩ draw.now s.db with
    | error e =>
      simp only [seatCalls, SeatCalls.exec, hc, Option.some.injEq] at he
      simp only [SeatCalls.work, hc, Option.toList_none, List.append_nil]
      exact he ▸ h
    | ok p =>
      obtain ⟨row, _, hrow⟩ := eventCreate_cases hc
      simp only [seatCalls, SeatCalls.exec, hc, Option.some.injEq] at he
      simp only [SeatCalls.work, hc, Option.toList_some]
      exact he ▸ h.createEvent hrow (by simp only [SeatWork.exec, hc])
  | updateEvent id input now =>
    show SeatLog s' (work ++ [.updateEvent id input now])
    cases hu : updateStatement id input now s.db with
    | error e =>
      simp only [seatCalls, SeatCalls.exec, hu, Option.some.injEq] at he
      exact he ▸ h.idle (by simp only [SeatWork.exec, autocommit, hu]) rfl rfl
    | ok p =>
      obtain ⟨o, db⟩ := p
      cases o with
      | none =>
        obtain ⟨_, rfl, _⟩ | ⟨_, _, hc, _⟩ := updateStatement_cases hu
        · simp only [seatCalls, SeatCalls.exec, hu, Option.some.injEq] at he
          exact he ▸ h.idle (by simp only [SeatWork.exec, autocommit, hu]) rfl rfl
        · cases hc
      | some row =>
        simp only [seatCalls, SeatCalls.exec, hu, Option.ite_none_left_eq_some, Option.some.injEq] at he
        exact he.2 ▸ h.updateEvent hu (by simpa using he.1)
  | deleteEvent id =>
    show SeatLog s' (work ++ [.deleteEvent id])
    cases hd : deleteStatement id s.db with
    | error e =>
      simp only [seatCalls, SeatCalls.exec, hd, Option.some.injEq] at he
      exact he ▸ h.idle (by simp only [SeatWork.exec, autocommit, hd]) rfl rfl
    | ok p =>
      obtain ⟨o, db⟩ := p
      cases o with
      | none =>
        obtain ⟨_, rfl, _⟩ | ⟨_, hc, _⟩ := deleteStatement_cases hd
        · simp only [seatCalls, SeatCalls.exec, hd, Option.some.injEq] at he
          exact he ▸ h.idle (by simp only [SeatWork.exec, autocommit, hd]) rfl rfl
        · cases hc
      | some row =>
        simp only [seatCalls, SeatCalls.exec, hd, Option.ite_none_left_eq_some, Option.some.injEq] at he
        exact he.2 ▸ h.deleteEvent hd (by simpa using he.1)
  | bookkeep op =>
    obtain rfl := Option.some.inj he
    have hi : SeatCallsInv { s with db := { s.db with outbox := op.apply s.db.outbox } } :=
      h.inv.around rfl (fresh_apply op s.db.outbox) fun _ _ => rfl
    exact h.around hi (h.accounts.same (w := .bookkeep op) rfl rfl rfl rfl fun _ => rfl) rfl

end

/-! ## Refusals -/

def SeatPhase.refusal : SeatPhase → Option (Option EventRow)
  | .insertOutbox (.refused event) | .commit (.refused event) | .committed (.refused event) => some event
  | _ => none

/-- In this run the UPDATE of the call met a database where its guard held of no
row, and after that its re-read found `event`. -/
def TurnedAway (ls : List SeatLabel) (n : Nat) (r : SeatRequest) (event : Option EventRow) : Prop :=
  ∃ pre mid post a b, ls = pre ++ .advance n :: (mid ++ .advance n :: post) ∧
    seatCalls.run .empty pre = some a ∧ a.calls[n]? = some ⟨r, .update⟩ ∧ r.Unmet a.db ∧
    seatCalls.run .empty (pre ++ .advance n :: mid) = some b ∧ b.calls[n]? = some ⟨r, .reread⟩ ∧
    eventFindUnique r.eventId b.db = .ok (event, b.db)

section
variable {s s' : SeatCalls} {n : Nat} {c c' : SeatCall} {l : SeatLabel} {r : SeatRequest} {event : Option EventRow}

theorem SeatStep.call {o : Option SeatOutcome} (hs : SeatStep s n c o s') :
    ∃ phase, s'.calls = s.calls.set n { c with phase } := by
  cases hs <;> exact ⟨_, rfl⟩

theorem set_self {request : SeatRequest} {phase later : SeatPhase} (hn : s'.calls[n]? = some ⟨r, later⟩)
    (hcalls : s'.calls = s.calls.set n ⟨request, phase⟩) : request = r ∧ phase = later := by
  rw [hcalls] at hn
  rcases getElem?_set_cases hn with hx | hx
  · obtain ⟨rfl, rfl⟩ := SeatCall.mk.inj hx.2; exact ⟨rfl, rfl⟩
  · exact absurd rfl hx.1

/-- How a call can be where it is after a step: it was there, it began, it failed, or it took the step. -/
theorem call_cases (he : seatCalls.exec s l = some s') (hn : s'.calls[n]? = some c') :
    s.calls[n]? = some c' ∨ c'.phase = .insertProcessed ∨ (∃ e, c'.phase = .failed e) ∨
      l = .advance n ∧ ∃ c o, s.calls[n]? = some c ∧ SeatStep s n c o s' := by
  have hsame : s'.calls = s.calls → s.calls[n]? = some c' := fun h => h ▸ hn
  cases l with
  | begin request =>
    rcases begin_cases he with rfl | rfl
    · exact .inl hn
    · rcases getElem?_append_cases hn with hm | hm
      · exact .inr (.inl (hm.2 ▸ rfl))
      · exact .inl hm.2
  | advance m =>
    obtain ⟨c, hm, he⟩ := Option.bind_eq_some_iff.mp he
    have hs := advance_seatStep he
    obtain ⟨phase, hcalls⟩ := hs.call
    rw [hcalls] at hn
    rcases getElem?_set_cases hn with hx | hx
    · obtain ⟨rfl, _⟩ := hx
      exact .inr (.inr (.inr ⟨rfl, c, _, hm, hs⟩))
    · exact .inl hx.2
  | fault m =>
    obtain ⟨c, hm, he⟩ := Option.bind_eq_some_iff.mp he
    simp only [Option.ite_none_left_eq_some, Option.some.injEq] at he
    rw [← he.2] at hn
    rcases getElem?_set_cases hn with hx | hx
    · exact .inr (.inr (.inl ⟨_, congrArg SeatCall.phase hx.2⟩))
    · exact .inl hx.2
  | loseCommit m =>
    obtain ⟨c, hm, he⟩ := Option.bind_eq_some_iff.mp he
    split at he
    · obtain ⟨db, _, rfl⟩ := Option.map_eq_some_iff.mp he
      rcases getElem?_set_cases hn with hx | hx
      · exact .inr (.inr (.inl ⟨_, congrArg SeatCall.phase hx.2⟩))
      · exact .inl hx.2
    · cases he
  | createEvent input draw =>
    refine .inl (hsame ?_)
    simp only [seatCalls, SeatCalls.exec] at he
    split at he <;> (obtain rfl := Option.some.inj he; rfl)
  | updateEvent id input now =>
    refine .inl (hsame ?_)
    simp only [seatCalls, SeatCalls.exec] at he
    split at he
    · simp only [Option.ite_none_left_eq_some, Option.some.injEq] at he
      rw [← he.2]
    · obtain rfl := Option.some.inj he; rfl
  | deleteEvent id =>
    refine .inl (hsame ?_)
    simp only [seatCalls, SeatCalls.exec] at he
    split at he
    · simp only [Option.ite_none_left_eq_some, Option.some.injEq] at he
      rw [← he.2]
    · obtain rfl := Option.some.inj he; rfl
  | bookkeep op =>
    obtain rfl := Option.some.inj he
    exact .inl hn

theorem reread_turn (he : seatCalls.exec s l = some s') (h0 : s.calls[n]? ≠ some ⟨r, .reread⟩)
    (h1 : s'.calls[n]? = some ⟨r, .reread⟩) : l = .advance n ∧ s.calls[n]? = some ⟨r, .update⟩ ∧ r.Unmet s.db := by
  rcases call_cases he h1 with h | h | h | h
  · exact absurd h h0
  · cases h
  · obtain ⟨_, h⟩ := h; cases h
  · obtain ⟨hl, ⟨request, phase⟩, o, hn, hs⟩ := h
    have hself : ∀ later, s'.calls = s.calls.set n ⟨request, later⟩ → request = r ∧ later = .reread :=
      fun _ => set_self h1
    cases hs with
    | missed phase unmet =>
      obtain ⟨rfl, _⟩ := hself _ rfl
      obtain rfl := phase
      exact ⟨hl, hn, unmet⟩
    | received =>
      have := (hself _ rfl).2
      split at this <;> cases this
    | commits phase commits ended =>
      have := (hself _ rfl).2
      rcases ended with rfl | rfl <;> cases this
    | duplicate | failed | changed | reread | queued => cases (hself _ rfl).2

def RefusedCall (n : Nat) (r : SeatRequest) (event : Option EventRow) (s : SeatCalls) : Prop :=
  ∃ phase, s.calls[n]? = some ⟨r, phase⟩ ∧ phase.refusal = some event

theorem refused_turn (he : seatCalls.exec s l = some s') (h0 : ¬ RefusedCall n r event s)
    (h1 : RefusedCall n r event s') :
    l = .advance n ∧ s.calls[n]? = some ⟨r, .reread⟩ ∧ eventFindUnique r.eventId s.db = .ok (event, s.db) := by
  obtain ⟨later, h1, href⟩ := h1
  rcases call_cases he h1 with h | h | h | h
  · exact absurd ⟨later, h, href⟩ h0
  · obtain rfl : later = _ := h
    cases href
  · obtain ⟨e, h⟩ := h
    obtain rfl : later = _ := h
    cases href
  · obtain ⟨hl, ⟨request, phase⟩, o, hn, hs⟩ := h
    have hself : ∀ later', s'.calls = s.calls.set n ⟨request, later'⟩ → request = r ∧ later' = later :=
      fun _ => set_self h1
    cases hs with
    | reread phase found =>
      obtain ⟨rfl, rfl⟩ := hself _ rfl
      obtain rfl := phase
      cases href
      exact ⟨hl, hn, found⟩
    | @queued outcome phase held =>
      -- the outcome was decided before
      obtain ⟨rfl, rfl⟩ := hself _ rfl
      obtain rfl := phase
      cases outcome with
      | refused event' => exact absurd ⟨_, hn, href⟩ h0
      | invalidQuantity | applied => cases href
    | @commits outcome db _ phase commits ended =>
      obtain ⟨rfl, rfl⟩ := hself _ rfl
      obtain rfl := phase
      rcases ended with rfl | rfl
      · cases outcome with
        | refused event' => exact absurd ⟨_, hn, href⟩ h0
        | invalidQuantity | applied => cases href
      · cases href
    | received =>
      obtain ⟨_, rfl⟩ := hself _ rfl
      split at href <;> cases href
    | duplicate | failed | missed | changed =>
      obtain ⟨_, rfl⟩ := hself _ rfl
      cases href

theorem turned_away {ls : List SeatLabel} (hr : seatCalls.run .empty ls = some s) (h : RefusedCall n r event s) :
    TurnedAway ls n r event := by
  have hempty : ∀ c, (SeatCalls.empty).calls[n]? ≠ some c := fun c hc => by cases hc
  obtain ⟨b, l, _, hb, hb0, hb1⟩ := Machine.run_turns hr (fun ⟨_, hc, _⟩ => hempty _ hc) h
  obtain ⟨before, post, rfl, hbefore, _⟩ := hb.split
  obtain ⟨rfl, hreread, hfound⟩ := refused_turn hb.exec hb0 hb1
  obtain ⟨a, l, _, ha, ha0, ha1⟩ :=
    Machine.run_turns (P := fun s => s.calls[n]? = some ⟨r, .reread⟩) hbefore (hempty _) hreread
  obtain ⟨pre, mid, rfl, hpre, _⟩ := ha.split
  obtain ⟨rfl, hupdate, hunmet⟩ := reread_turn ha.exec ha0 ha1
  exact ⟨pre, mid, post, a, b, by simp, hpre, hupdate, hunmet, hbefore, hreread, hfound⟩

end

/-! ## Every call ends -/

namespace SeatPhase

def rank : SeatPhase → Nat
  | .insertProcessed => 0
  | .update => 1
  | .reread => 2
  | .insertOutbox _ => 3
  | .commit _ => 4
  | .committed _ | .duplicate | .failed _ => 5

end SeatPhase

def SeatLabel.advances : SeatLabel → Bool
  | .advance _ => true
  | _ => false

section
variable {s s' : SeatCalls} {n : Nat} {c : SeatCall}

theorem seat_rank_le (phase : SeatPhase) : phase.rank ≤ 5 := by
  cases phase <;> simp [SeatPhase.rank]

theorem seat_ended_iff : c.ended = true ↔ c.phase.rank = 5 := by
  unfold SeatCall.ended
  cases c.phase <;> simp [SeatPhase.rank]

theorem SeatStep.rank {o : Option SeatOutcome} (hs : SeatStep s n c o s') :
    ∃ phase, s'.calls = s.calls.set n { c with phase } ∧ c.phase.rank < phase.rank := by
  cases hs with
  | failed unfinished =>
    refine ⟨_, rfl, ?_⟩
    have := seat_rank_le c.phase
    have : c.phase.rank ≠ 5 := fun h => by rw [seat_ended_iff.mpr h] at unfinished; cases unfinished
    show c.phase.rank < 5
    omega
  | received phase =>
    refine ⟨_, rfl, ?_⟩
    rw [phase]
    split <;> simp [SeatPhase.rank]
  | commits phase commits ended =>
    refine ⟨_, rfl, ?_⟩
    rw [phase]
    rcases ended with rfl | rfl <;> simp [SeatPhase.rank]
  | duplicate phase | missed phase | changed phase | reread phase | queued phase =>
    exact ⟨_, rfl, by rw [phase]; simp [SeatPhase.rank]⟩

theorem SeatCall.processed_rank {row : ProcessedRow} (h : c.processed = some row) :
    1 ≤ c.phase.rank ∧ c.phase.rank < 5 := by
  unfold SeatCall.processed at h
  cases hp : c.phase <;> simp_all [SeatPhase.rank]

theorem SeatCall.changes_rank {id : Uuid} (h : c.changes = some id) : 3 ≤ c.phase.rank ∧ c.phase.rank < 5 := by
  unfold SeatCall.changes at h
  cases hp : c.phase <;> simp_all [SeatPhase.rank]

theorem SeatCall.outbox_rank {row : OutboxRow} (h : c.outbox = some row) : 4 ≤ c.phase.rank ∧ c.phase.rank < 5 := by
  unfold SeatCall.outbox at h
  cases hp : c.phase <;> simp_all [SeatPhase.rank]

theorem SeatCallsInv.advances_or_waits (h : SeatCallsInv s) (hn : s.calls[n]? = some c) (hrank : c.phase.rank < 5) :
    (∃ s', s.advance n = some s') ∨
      ∃ (m : Nat) (x : SeatCall), s.calls[m]? = some x ∧ c.phase.rank < x.phase.rank ∧ x.phase.rank < 5 := by
  have hahead : ∀ {ρ : Type} {held : SeatCall → Option ρ} {k : Nat} {row : ρ}, c.phase.rank < k →
      (∀ (x : SeatCall) row, held x = some row → k ≤ x.phase.rank ∧ x.phase.rank < 5) →
      row ∈ heldByOthers held s.calls n →
      ∃ (m : Nat) (x : SeatCall), s.calls[m]? = some x ∧ c.phase.rank < x.phase.rank ∧ x.phase.rank < 5 := by
    intro ρ held k row hk hranks hrow
    obtain ⟨m, x, _, hx, hheld⟩ := mem_heldByOthers.mp hrow
    have := hranks x row hheld
    exact ⟨m, x, hx, by omega, this.2⟩
  have hadvance : s.advance n = s.advanceCall n c := by
    unfold SeatCalls.advance; rw [hn]; rfl
  rw [hadvance]
  unfold SeatCalls.advanceCall
  cases hp : c.phase with
  | insertProcessed =>
    simp only
    cases hi : s.db.processed.insertAmong (heldByOthers SeatCall.processed s.calls n) c.request.processedRow with
    | violation => exact .inl ⟨_, rfl⟩
    | wait =>
      obtain ⟨row, hrow, _⟩ := Table.insertAmong_wait hi
      exact .inr (hp ▸ hahead (by rw [hp]; decide) (fun _ _ => SeatCall.processed_rank) hrow)
    | held => exact .inl ⟨_, rfl⟩
  | update =>
    simp only
    cases hs : c.request.statement s.db with
    | error e => exact .inl ⟨_, rfl⟩
    | ok p =>
      obtain ⟨o, db⟩ := p
      cases o with
      | none => exact .inl ⟨_, rfl⟩
      | some row =>
        simp only
        split
        · rename_i hlocked
          exact .inr (hp ▸ hahead (by rw [hp]; decide) (fun _ _ => SeatCall.changes_rank)
            (List.contains_iff_mem.mp hlocked))
        · exact .inl ⟨_, rfl⟩
  | reread =>
    simp only
    cases eventFindUnique c.request.eventId s.db with
    | error e => exact .inl ⟨_, rfl⟩
    | ok p => exact .inl ⟨_, rfl⟩
  | insertOutbox outcome =>
    simp only
    cases hr : c.request.outboxRow outcome with
    | none => exact .inl ⟨_, rfl⟩
    | some row =>
      simp only
      cases hi : s.db.outbox.insertAmong (heldByOthers SeatCall.outbox s.calls n) row with
      | violation => exact .inl ⟨_, rfl⟩
      | wait =>
        obtain ⟨row', hrow, _⟩ := Table.insertAmong_wait hi
        exact .inr (hp ▸ hahead (by rw [hp]; simp [SeatPhase.rank]) (fun _ _ => SeatCall.outbox_rank) hrow)
      | held => exact .inl ⟨_, rfl⟩
  | commit outcome =>
    -- what it holds clashes with nothing, so the COMMIT cannot fail
    obtain ⟨processed, h1⟩ := h.processed.insertable hn
    obtain ⟨outbox, h2⟩ := h.outbox.insertable hn
    simp only [SeatCall.processed, SeatCall.outbox, hp] at h1 h2
    have hcommit : c.request.commit outcome s.db = some ⟨outcome.write s.db.events, processed, outbox⟩ :=
      seat_commit_eq_some.mpr ⟨h1, h2, rfl⟩
    simp only
    rw [hcommit]; exact .inl ⟨_, rfl⟩
  | committed | duplicate | failed => simp [hp, SeatPhase.rank] at hrank

theorem seat_calls_end (h : SeatCallsInv s) :
    ∃ ls s', (∀ l ∈ ls, l.advances = true) ∧ seatCalls.run s ls = some s' ∧ ∀ c ∈ s'.calls, c.ended = true := by
  refine Machine.finishes (fun s => (s.calls.map fun c => 5 - c.phase.rank).sum)
    (I := SeatCallsInv) (fun s hi hd => ?_) h
  have hunfinished : ∃ c ∈ s.calls, c.phase.rank < 5 := by
    by_contra hno
    refine hd fun c hc => seat_ended_iff.mpr ?_
    have := seat_rank_le c.phase
    by_contra hne
    exact hno ⟨c, hc, by omega⟩
  obtain ⟨c, hc, hrank⟩ := hunfinished
  obtain ⟨n, hn⟩ := List.getElem?_of_mem hc
  have hadvances : ∃ m s', s.advance m = some s' :=
    advances_ahead (fun n c hn hc => hi.advances_or_waits hn hc) hn hrank
  obtain ⟨m, s', hs⟩ := hadvances
  obtain ⟨x, hm, hx⟩ := Option.bind_eq_some_iff.mp hs
  have hstep := advance_seatStep hx
  obtain ⟨phase, hcalls, hlt⟩ := hstep.rank
  refine ⟨.advance m, s', rfl, hs, hi.step hm hstep, ?_⟩
  have := seat_rank_le phase
  simp only [hcalls]
  exact sum_set_lt hm (by simp only; omega)

end

/-! ## Every run -/

/-- What a run of concurrent calls left, by the work in the order of its COMMITs. -/
structure Serialized (s : SeatCalls) (ls : List SeatLabel) (work : List SeatWork) : Prop where
  serial : seatDatabase.run .empty work = some s.db
  once : (work.filterMap SeatWork.messageId).Nodup
  balanced : ∀ row ∈ s.db.events.rows,
    row.seats.total - row.seats.available = balance (work.flatMap SeatWork.changes) row.id
  not_oversold : ∀ row ∈ s.db.events.rows,
    0 ≤ balance (work.flatMap SeatWork.changes) row.id ∧
      balance (work.flatMap SeatWork.changes) row.id ≤ row.seats.total
  committed : ∀ (n : Nat) c outcome, s.calls[n]? = some c → c.phase = .committed outcome →
    outcome.work c.request ∈ work
  duplicate : ∀ (n : Nat) c, s.calls[n]? = some c → c.phase = .duplicate →
    c.request.messageId ∈ work.filterMap SeatWork.messageId
  refused : ∀ n r event, RefusedCall n r event s → TurnedAway ls n r event
  ends : ∃ ls' s', (∀ l ∈ ls', l.advances = true) ∧ seatCalls.run s ls' = some s' ∧ ∀ c ∈ s'.calls, c.ended = true

theorem seatLog_empty : SeatLog SeatCalls.empty [] where
  inv := ⟨.nil, Exclusive.nil, .nil, fun _ _ h => (by cases h)⟩
  accounts := ⟨rfl, rfl, fun _ => rfl⟩
  committed _ _ _ h := by cases h
  duplicate _ _ h := by cases h

theorem seatLog_run {s : SeatCalls} {ls : List SeatLabel} (hr : seatCalls.run .empty ls = some s) :
    SeatLog s (seatCalls.trace SeatCalls.work .empty ls) := by
  have hmeets : seatCalls.Meets (fun _ _ => True) SeatCalls.empty ls :=
    Machine.meets_of_forall (fun _ _ _ => trivial) _
  exact Machine.run_traced (I := SeatLog) (fun s l s' work _ _ he h => h.step he) (.start rfl) hmeets hr
    seatLog_empty

/-- Interleaved in any way, with faults, redeliveries and changes to the events
between any two of their statements, the seat transactions leave what they leave
one after the other. -/
theorem seat_calls_serialize {s : SeatCalls} {ls : List SeatLabel} (hr : seatCalls.run .empty ls = some s) :
    Serialized s ls (seatCalls.trace SeatCalls.work .empty ls) := by
  have h := seatLog_run hr
  have hrow : ∀ row ∈ s.db.events.rows, row.seats.reserved =
      balance ((seatCalls.trace SeatCalls.work .empty ls).flatMap SeatWork.changes) row.id := by
    intro row hrow
    rw [← h.accounts.balanced, reservedFor_of_mem hrow]
  refine ⟨h.accounts.serial, ?_, fun row hm => hrow row hm, fun row hm => ?_, h.committed, fun n c hn hd => ?_,
    fun n r event href => turned_away hr href, seat_calls_end h.inv⟩
  · rw [← h.accounts.consumed]; exact s.db.processed.key_nodup
  · rw [← hrow row hm]
    unfold Seats.reserved
    have := row.seats.available_nonnegative; have := row.seats.available_not_above_total
    omega
  · rw [← h.accounts.consumed]; exact h.duplicate n c hn hd

def reserveEight : MessageEnvelope ReserveSeatsPayload :=
  { messageId := sampleText 12, correlationId := sampleText 13, timestamp := toISOString 0, version := 1,
    payload := ⟨sampleText 13, sampleText 1, sampleText 7, 8⟩ }

def releaseThree : MessageEnvelope BookingEventQuantityPayload :=
  { messageId := sampleText 14, correlationId := sampleText 6, timestamp := toISOString 0, version := 1,
    payload := ⟨sampleText 6, sampleText 1, 3⟩ }

def refusedMeanwhile : List SeatLabel :=
  [.createEvent concert (sampleDraw 1 0 0 0 0),
    .begin (.reserveSeats (reserveThree.map fun _ => ⟨sampleText 6, sampleText 1, sampleText 7, 3⟩)
      (sampleDraw 0 8 9 10 11)),
    .begin (.reserveSeats reserveEight (sampleDraw 0 2 3 4 5)),
    .begin (.releaseSeats releaseThree (sampleDraw 0 0 0 0 0)),
    .advance 0, .advance 1, .advance 0, .advance 0, .advance 0, .advance 1, .advance 2, .advance 2,
      .advance 2, .advance 2,
    .advance 1, .advance 1, .advance 1]

def seatCallsView (s : SeatCalls) : List Int × List (Option (Option Int)) :=
  (s.db.events.rows.map (·.seats.available),
    s.calls.map fun c => c.phase.refusal.map fun event => event.map (·.seats.available))

theorem seat_calls_serialize_refused : ∃ s, seatCalls.run .empty refusedMeanwhile = some s ∧
    seatCallsView s = ([10], [none, some (some 10), none]) ∧
    Serialized s refusedMeanwhile (seatCalls.trace SeatCalls.work .empty refusedMeanwhile) := by
  have h : (seatCalls.run .empty refusedMeanwhile).map seatCallsView =
      some ([10], [none, some (some 10), none]) := by
    decide +kernel
  obtain ⟨s, hs, hview⟩ := Option.map_eq_some_iff.mp h
  exact ⟨s, hs, hview, seat_calls_serialize hs⟩

end EventBooking
