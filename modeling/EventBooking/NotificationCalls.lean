import EventBooking.Lib.Sessions
import EventBooking.NotificationStore
import EventBooking.Zod4

/-!
# Replicas of the Notification Service

Any number of calls of `appendIfUnprocessed` on one database, one awaited
statement at a time. A replica may stop at any moment, also while its COMMIT is
carried out, any statement may be refused, and the answer of a COMMIT may be
lost. Every answer is the one the in-memory store gives when it takes the calls
in the order of their answers.
-/

namespace EventBooking
open Lib

inductive AppendPhase
  | insertProcessed
  | insertNotification
  | commit
  | done (reply : Except DbError Bool)
  | stopped
  deriving DecidableEq

structure AppendCall where
  record : NotificationRecord
  id : RandomUUID
  now : Date
  phase : AppendPhase
  deriving DecidableEq

namespace AppendCall

def processed (c : AppendCall) : Option ProcessedNotificationRow :=
  match c.phase with
  | .insertNotification | .commit => (processedOf c.record c.now).toOption
  | _ => none

def notification (c : AppendCall) : Option NotificationRow :=
  match c.phase with
  | .commit => (c.record.row c.id c.now).toOption
  | _ => none

def open' (c : AppendCall) : Bool :=
  match c.phase with
  | .done _ | .stopped => false
  | _ => true

def commit (c : AppendCall) (db : NotificationDb) : Option NotificationDb := do
  let processed ← db.processed.insertOption c.processed
  let notifications ← db.notifications.insertOption c.notification
  return ⟨notifications, processed⟩

end AppendCall

structure NotificationCalls where
  db : NotificationDb
  calls : List AppendCall

inductive AppendLabel
  | appendIfUnprocessed (record : NotificationRecord) (id : RandomUUID) (now : Date)
  | advance (call : Nat)
  | fault (call : Nat)
  | stop (call : Nat)
  | stopCommitted (call : Nat)
  | loseCommit (call : Nat)
  | list (n pageSize : Nat)
  deriving DecidableEq

def AppendLabel.call : AppendLabel → Option Nat
  | .appendIfUnprocessed _ _ _ | .list _ _ => none
  | .advance n | .fault n | .stop n | .stopCommitted n | .loseCommit n => some n

namespace NotificationCalls

def empty : NotificationCalls := ⟨.empty, []⟩

def goto (s : NotificationCalls) (n : Nat) (c : AppendCall) (phase : AppendPhase) : NotificationCalls :=
  { s with calls := s.calls.set n { c with phase } }

def advance (s : NotificationCalls) (n : Nat) (c : AppendCall) : Option NotificationCalls :=
  match c.phase with
  | .insertProcessed =>
    match processedOf c.record c.now with
    | .error e => some (s.goto n c (.done (.error e)))
    | .ok row =>
      match s.db.processed.insertAmong (heldByOthers AppendCall.processed s.calls n) row with
      | .violation => some (s.goto n c (.done (.ok false)))
      | .wait => none
      | .held => some (s.goto n c .insertNotification)
  | .insertNotification =>
    match c.record.row c.id c.now with
    | .error e => some (s.goto n c (.done (.error e)))
    | .ok row =>
      match s.db.notifications.insertAmong (heldByOthers AppendCall.notification s.calls n) row with
      | .violation => some (s.goto n c (.done (.ok false)))
      | .wait => none
      | .held => some (s.goto n c .commit)
  | .commit => (c.commit s.db).map fun db => { s with db }.goto n c (.done (.ok true))
  | .done _ | .stopped => none

/-- COMMIT is carried out and nobody is told. -/
def commitUnanswered (s : NotificationCalls) (n : Nat) (c : AppendCall) (phase : AppendPhase) :
    Option NotificationCalls :=
  if c.phase = .commit then (c.commit s.db).map fun db => { s with db }.goto n c phase else none

def exec (s : NotificationCalls) : AppendLabel → Option NotificationCalls
  | .appendIfUnprocessed record id now =>
    if record.canonical then some { s with calls := s.calls ++ [⟨record, id, now, .insertProcessed⟩] } else none
  | .advance n => s.calls[n]?.bind (s.advance n)
  | .fault n =>
    s.calls[n]?.bind fun c => if c.open' then some (s.goto n c (.done (.error .unavailable))) else none
  | .stop n => s.calls[n]?.bind fun c => if c.open' then some (s.goto n c .stopped) else none
  | .stopCommitted n => s.calls[n]?.bind fun c => s.commitUnanswered n c .stopped
  | .loseCommit n => s.calls[n]?.bind fun c => s.commitUnanswered n c (.done (.error .unavailable))
  | .list n pageSize => if 1 ≤ n ∧ 1 ≤ pageSize then some s else none

end NotificationCalls

def notificationCalls : Machine NotificationCalls AppendLabel where
  start s := s = .empty
  exec := NotificationCalls.exec

/-- What is assumed of the surroundings: ids of `randomUUID` are new, and
`created_at` grows in the order of the commits. -/
def Ordered (s : NotificationCalls) (l : AppendLabel) : Prop :=
  (∀ record id now, l = .appendIfUnprocessed record id now → ∀ c ∈ s.calls, c.id ≠ id) ∧
    ∀ n c, l.call = some n → s.calls[n]? = some c → c.phase = .commit →
      ∀ row ∈ s.db.notifications.rows, row.createdAt < c.now

/-! ## One step -/

section
variable (s : NotificationCalls) (n : Nat) (c : AppendCall)

inductive AppendStep : NotificationCalls → Prop
  | held {row : ProcessedNotificationRow} (phase : c.phase = .insertProcessed)
      (row_eq : processedOf c.record c.now = .ok row)
      (held : s.db.processed.insertAmong (heldByOthers AppendCall.processed s.calls n) row = .held) :
      AppendStep (s.goto n c .insertNotification)
  | duplicate {row : ProcessedNotificationRow} (phase : c.phase = .insertProcessed)
      (row_eq : processedOf c.record c.now = .ok row) (stale : ¬ s.db.processed.Fresh row) :
      AppendStep (s.goto n c (.done (.ok false)))
  | collided {row : NotificationRow} (phase : c.phase = .insertNotification)
      (row_eq : c.record.row c.id c.now = .ok row)
      (stale : ¬ s.db.notifications.Fresh row) : AppendStep (s.goto n c (.done (.ok false)))
  | ready {row : NotificationRow} (phase : c.phase = .insertNotification)
      (row_eq : c.record.row c.id c.now = .ok row)
      (held : s.db.notifications.insertAmong (heldByOthers AppendCall.notification s.calls n) row = .held) :
      AppendStep (s.goto n c .commit)
  | thrown {e : DbError} (was : c.open' = true) : AppendStep (s.goto n c (.done (.error e)))
  | committed {db : NotificationDb} (phase : c.phase = .commit) (commits : c.commit s.db = some db) :
      AppendStep ({ s with db }.goto n c (.done (.ok true)))

variable {s n c} {s' : NotificationCalls}

theorem append_advance (h : s.advance n c = some s') : AppendStep s n c s' := by
  unfold NotificationCalls.advance at h
  cases hp : c.phase with
  | insertProcessed =>
    simp only [hp] at h
    cases hr : processedOf c.record c.now with
    | error e =>
      simp only [hr] at h
      obtain rfl := Option.some.inj h
      exact .thrown (by unfold AppendCall.open'; rw [hp])
    | ok row =>
      simp only [hr] at h
      split at h
      · rename_i hviolation
        obtain rfl := Option.some.inj h
        exact .duplicate hp hr (Table.insertAmong_violation hviolation)
      · cases h
      · rename_i hheld
        obtain rfl := Option.some.inj h
        exact .held hp hr hheld
  | insertNotification =>
    simp only [hp] at h
    cases hr : c.record.row c.id c.now with
    | error e =>
      simp only [hr] at h
      obtain rfl := Option.some.inj h
      exact .thrown (by unfold AppendCall.open'; rw [hp])
    | ok row =>
      simp only [hr] at h
      split at h
      · rename_i hviolation
        obtain rfl := Option.some.inj h
        exact .collided hp hr (Table.insertAmong_violation hviolation)
      · cases h
      · rename_i hheld
        obtain rfl := Option.some.inj h
        exact .ready hp hr hheld
  | commit =>
    simp only [hp] at h
    obtain ⟨db, hdb, rfl⟩ := Option.map_eq_some_iff.mp h
    exact .committed hp hdb
  | done reply => simp only [hp] at h; cases h
  | stopped => simp only [hp] at h; cases h

end

/-! ## The invariant -/

structure CallsOk (s : NotificationCalls) : Prop where
  db : NotificationsOk s.db
  canonical : ∀ (n : Nat) c, s.calls[n]? = some c → c.record.canonical = true
  ids : ∀ (n m : Nat) c c', s.calls[n]? = some c → s.calls[m]? = some c' → c.id = c'.id → n = m
  authors : ∀ row ∈ s.db.notifications.rows, ∃ (n : Nat) (c : AppendCall), s.calls[n]? = some c ∧
    c.id.val = row.id ∧ c.open' = false
  processed : Exclusive s.db.processed AppendCall.processed s.calls
  notifications : Exclusive s.db.notifications AppendCall.notification s.calls

section
variable {s s' : NotificationCalls} {n : Nat} {c : AppendCall}

theorem processedOf_rowOf {record : NotificationRecord} {id : RandomUUID} {now : Date} {row : NotificationRow}
    (hrow : RowOf record id now row) : processedOf record now = .ok ⟨row.messageId, now⟩ := by
  unfold processedOf
  rw [hrow.message_id]; rfl

theorem second_insert_fresh (h : CallsOk s) (hn : s.calls[n]? = some c) (hp : c.phase = .insertNotification)
    {row : NotificationRow} (hrow : RowOf c.record c.id c.now row) : s.db.notifications.Fresh row := by
  rw [notification_fresh]
  constructor
  · intro hm
    obtain ⟨r, hr, hid⟩ := List.mem_map.mp hm
    obtain ⟨m, c', hm, hcid, hstored⟩ := h.authors r hr
    have hids : c'.id = c.id := by
      cases hc' : c'.id with
      | mk v hv =>
        cases hc : c.id with
        | mk w hw =>
          have : v = w := by
            have h1 : c'.id.val = c.id.val := hcid.trans (hid.trans hrow.id_eq)
            rw [hc', hc] at h1; exact h1
          subst this; rfl
    obtain rfl := h.ids m n c' c hm hn hids
    obtain rfl := Option.some.inj (hn.symm.trans hm)
    unfold AppendCall.open' at hstored
    rw [hp] at hstored; cases hstored
  · rw [← h.db.same_ids]
    have hheld : c.processed = some ⟨row.messageId, c.now⟩ := by
      unfold AppendCall.processed
      rw [hp, processedOf_rowOf hrow]; rfl
    exact processed_notification_fresh.mp (h.processed.fresh n c _ hn hheld)

theorem moved_call {m : Nat} {x : AppendCall} {phase : AppendPhase} (hn : s.calls[n]? = some c)
    (h : (s.calls.set n { c with phase })[m]? = some x) :
    ∃ y, s.calls[m]? = some y ∧ y.record = x.record ∧ y.id = x.id := by
  rcases getElem?_set_cases h with ⟨rfl, rfl⟩ | hm
  · exact ⟨c, hn, rfl, rfl⟩
  · exact ⟨x, hm.2, rfl, rfl⟩

theorem CallsOk.other_author (h : CallsOk s) (hn : s.calls[n]? = some c) (hopen : c.open' = true)
    {call : AppendCall} {row : NotificationRow} (hr : row ∈ s.db.notifications.rows) : ∃ (m : Nat) (x : AppendCall),
      (s.calls.set n call)[m]? = some x ∧ x.id.val = row.id ∧ x.open' = false := by
  obtain ⟨m, x, hm, hid, hstored⟩ := h.authors row hr
  have hne : n ≠ m := by
    rintro rfl
    obtain rfl := Option.some.inj (hn.symm.trans hm)
    rw [hstored] at hopen; cases hopen
  exact ⟨m, x, (List.getElem?_set_ne hne).trans hm, hid, hstored⟩

theorem CallsOk.goto (h : CallsOk s) (hn : s.calls[n]? = some c) {phase : AppendPhase} (hopen : c.open' = true)
    (hp : Exclusive s.db.processed AppendCall.processed (s.calls.set n { c with phase }))
    (hnot : Exclusive s.db.notifications AppendCall.notification (s.calls.set n { c with phase })) :
    CallsOk (s.goto n c phase) := by
  refine ⟨h.db, fun m x hx => ?_, fun m m' x x' hx hx' he => ?_, fun row hr => h.other_author hn hopen hr, hp, hnot⟩
  · obtain ⟨y, hy, hrec, _⟩ := moved_call hn hx
    rw [← hrec]; exact h.canonical m y hy
  · obtain ⟨y, hy, _, hid⟩ := moved_call hn hx
    obtain ⟨y', hy', _, hid'⟩ := moved_call hn hx'
    exact h.ids m m' y y' hy hy' (hid.trans (he.trans hid'.symm))

structure AppendCommits (c : AppendCall) (row : NotificationRow) (db db' : NotificationDb) : Prop where
  row_of : RowOf c.record c.id c.now row
  processed : db.processed.insert ⟨row.messageId, c.now⟩ = some db'.processed
  notifications : db.notifications.insert row = some db'.notifications

theorem commit_cases {db db' : NotificationDb} (hc : c.record.canonical = true) (hp : c.phase = .commit)
    (h : c.commit db = some db') : ∃ row, AppendCommits c row db db' := by
  obtain ⟨row, hrow⟩ := rowOf_canonical hc c.id c.now
  unfold AppendCall.commit at h
  obtain ⟨processed, hproc, h⟩ := Option.bind_eq_some_iff.mp h
  obtain ⟨notifications, hnot, h⟩ := Option.bind_eq_some_iff.mp h
  obtain rfl := Option.some.inj h
  unfold AppendCall.processed at hproc
  unfold AppendCall.notification at hnot
  rw [hp, processedOf_rowOf hrow] at hproc
  rw [hp, hrow.row_eq] at hnot
  exact ⟨row, hrow, hproc, hnot⟩

theorem CallsOk.commit (h : CallsOk s) (hn : s.calls[n]? = some c) (hp : c.phase = .commit) {db : NotificationDb}
    (hc : c.commit s.db = some db) (hlater : ∀ row ∈ s.db.notifications.rows, row.createdAt < c.now)
    {phase' : AppendPhase} (hend : AppendCall.open' { c with phase := phase' } = false) :
    CallsOk ({ s with db }.goto n c phase') := by
  obtain ⟨row, hcommits⟩ := commit_cases (h.canonical n c hn) hp hc
  have hrow := hcommits.row_of
  have hbare : AppendCall.processed { c with phase := phase' } = none ∧
      AppendCall.notification { c with phase := phase' } = none := by
    cases phase' with
    | done reply => exact ⟨rfl, rfl⟩
    | stopped => exact ⟨rfl, rfl⟩
    | _ => cases hend
  have hheld : c.processed = some ⟨row.messageId, c.now⟩ ∧ c.notification = some row := by
    unfold AppendCall.processed AppendCall.notification
    rw [hp, processedOf_rowOf hrow, hrow.row_eq]; exact ⟨rfl, rfl⟩
  refine ⟨h.db.append hrow hcommits.processed hcommits.notifications hlater, fun m x hx => ?_,
    fun m m' x x' hx hx' he => ?_, fun r hr => ?_, ?_, ?_⟩
  · obtain ⟨y, hy, hrec, _⟩ := moved_call hn hx
    rw [← hrec]; exact h.canonical m y hy
  · obtain ⟨y, hy, _, hid⟩ := moved_call hn hx
    obtain ⟨y', hy', _, hid'⟩ := moved_call hn hx'
    exact h.ids m m' y y' hy hy' (hid.trans (he.trans hid'.symm))
  · change r ∈ db.notifications.rows at hr
    rw [Table.insert_rows hcommits.notifications, List.mem_append, List.mem_singleton] at hr
    rcases hr with hr | rfl
    · exact h.other_author hn (by unfold AppendCall.open'; rw [hp]) hr
    · exact ⟨n, _, List.getElem?_set_self (List.getElem?_eq_some_iff.mp hn).1, hrow.id_eq.symm, hend⟩
  · refine h.processed.commit hn hbare.1 ?_
    rw [hheld.1]; exact hcommits.processed
  · refine h.notifications.commit hn hbare.2 ?_
    rw [hheld.2]; exact hcommits.notifications

theorem CallsOk.begin (h : CallsOk s) {record : NotificationRecord} {id : RandomUUID} {now : Date}
    (hc : record.canonical = true) (hid : ∀ c ∈ s.calls, c.id ≠ id) :
    CallsOk { s with calls := s.calls ++ [⟨record, id, now, .insertProcessed⟩] } := by
  refine ⟨h.db, fun m x hx => ?_, fun m m' x x' hx hx' he => ?_, fun r hr => ?_, h.processed.append rfl,
    h.notifications.append rfl⟩
  · rcases getElem?_append_cases hx with ⟨_, rfl⟩ | hm
    · exact hc
    · exact h.canonical m x hm.2
  · rcases getElem?_append_cases hx with ⟨hm, rfl⟩ | hm
    · rcases getElem?_append_cases hx' with ⟨hm', rfl⟩ | hm'
      · rw [hm, hm']
      · exact absurd he.symm (hid x' (List.mem_of_getElem? hm'.2))
    · rcases getElem?_append_cases hx' with ⟨_, rfl⟩ | hm'
      · exact absurd he (hid x (List.mem_of_getElem? hm.2))
      · exact h.ids m m' x x' hm.2 hm'.2 he
  · obtain ⟨m, x, hm, hrest⟩ := h.authors r hr
    exact ⟨m, x, (List.getElem?_append_left (List.getElem?_eq_some_iff.mp hm).1).trans hm, hrest⟩

/-! ## Every answer is the store's -/

/-- The call that a step answers, or commits without an answer, with what the store answers. -/
def answered (s : NotificationCalls) (l : AppendLabel) (s' : NotificationCalls) : Option StoreCall :=
  match l with
  | .advance n =>
    match s'.calls[n]? with
    | some c =>
      match c.phase with
      | .done (.ok reply) => some (.appendIfUnprocessed c.record reply)
      | _ => none
    | none => none
  | .stopCommitted n | .loseCommit n => s'.calls[n]?.map fun c => .appendIfUnprocessed c.record true
  | .list n pageSize => some (.list n pageSize (listNotifications n pageSize s.db))
  | _ => none

theorem exclusive_bare (h : CallsOk s) {phase : AppendPhase}
    (hp : phase = .stopped ∨ ∃ reply, phase = .done reply) :
    Exclusive s.db.processed AppendCall.processed (s.calls.set n { c with phase }) ∧
      Exclusive s.db.notifications AppendCall.notification (s.calls.set n { c with phase }) := by
  rcases hp with rfl | ⟨reply, rfl⟩
  · exact ⟨h.processed.release rfl, h.notifications.release rfl⟩
  · exact ⟨h.processed.release rfl, h.notifications.release rfl⟩

theorem CallsOk.ended (h : CallsOk s) (hn : s.calls[n]? = some c) (hopen : c.open' = true) {phase : AppendPhase}
    (hp : phase = .stopped ∨ ∃ reply, phase = .done reply) : CallsOk (s.goto n c phase) :=
  h.goto hn hopen (exclusive_bare h hp).1 (exclusive_bare h hp).2

theorem calls_begin {record : NotificationRecord} {id : RandomUUID} {now : Date} (h : CallsOk s)
    (ho : Ordered s (.appendIfUnprocessed record id now))
    (he : notificationCalls.exec s (.appendIfUnprocessed record id now) = some s') : CallsOk s' ∧ s'.db = s.db := by
  obtain ⟨hc, rfl⟩ := guard_eq_some.mp he
  exact ⟨h.begin hc (ho.1 record id now rfl), rfl⟩

theorem calls_advance (h : CallsOk s) (hn : s.calls[n]? = some c) (ho : Ordered s (.advance n))
    (hs : AppendStep s n c s') : CallsOk s' ∧ ∀ store, StoredAs s.db store →
      ∃ store', inMemory.run store (answered s (.advance n) s').toList = some store' ∧ StoredAs s'.db store' := by
  have hself : ∀ phase, (s.calls.set n { c with phase })[n]? = some { c with phase } := fun phase =>
    List.getElem?_set_self (List.getElem?_eq_some_iff.mp hn).1
  obtain ⟨row, hrow⟩ := rowOf_canonical (h.canonical n c hn) c.id c.now
  unfold answered
  cases hs with
  | @held prow phase row_eq held =>
    obtain rfl := Except.ok.inj (row_eq.symm.trans (processedOf_rowOf hrow))
    refine ⟨h.goto hn (by unfold AppendCall.open'; rw [phase]) (h.processed.hold fun r hr => ?_)
      (h.notifications.release rfl), fun store hst => ⟨store, ?_, hst⟩⟩
    · unfold AppendCall.processed at hr
      simp only [row_eq] at hr
      obtain rfl := Option.some.inj hr
      exact held
    · simp only [NotificationCalls.goto, hself]; rfl
  | @duplicate prow phase row_eq stale =>
    obtain rfl := Except.ok.inj (row_eq.symm.trans (processedOf_rowOf hrow))
    refine ⟨h.ended hn (by unfold AppendCall.open'; rw [phase]) (.inr ⟨_, rfl⟩), fun store hst => ⟨store, ?_, hst⟩⟩
    have hmem : row.messageId ∈ s.db.processed.rows.map (·.messageId) := by
      by_contra hno
      exact stale (processed_notification_fresh.mpr hno)
    simp only [NotificationCalls.goto, hself, Option.toList_some]
    exact Machine.run_cons_some.mpr ⟨store, hst.duplicate hrow hmem, rfl⟩
  | @collided nrow phase row_eq stale =>
    obtain rfl := Except.ok.inj (row_eq.symm.trans hrow.row_eq)
    exact absurd (second_insert_fresh h hn phase hrow) stale
  | @ready nrow phase row_eq held =>
    obtain rfl := Except.ok.inj (row_eq.symm.trans hrow.row_eq)
    refine ⟨h.goto hn (by unfold AppendCall.open'; rw [phase]) (h.processed.keep hn ?_)
      (h.notifications.hold fun r hr => ?_), fun store hst => ⟨store, ?_, hst⟩⟩
    · unfold AppendCall.processed
      rw [phase]
    · unfold AppendCall.notification at hr
      simp only [row_eq] at hr
      obtain rfl := Option.some.inj hr
      exact held
    · simp only [NotificationCalls.goto, hself]; rfl
  | thrown was =>
    refine ⟨h.ended hn was (.inr ⟨_, rfl⟩), fun store hst => ⟨store, ?_, hst⟩⟩
    simp only [NotificationCalls.goto, hself]; rfl
  | @committed db phase commits =>
    refine ⟨h.commit hn phase commits (ho.2 n c rfl hn phase) rfl, fun store hst => ?_⟩
    obtain ⟨row, hcommits⟩ := commit_cases (h.canonical n c hn) phase commits
    obtain ⟨store', hexec, hst'⟩ := hst.append hcommits.row_of hcommits.processed hcommits.notifications
    refine ⟨store', ?_, hst'⟩
    simp only [NotificationCalls.goto, hself, Option.toList_some]
    exact Machine.run_cons_some.mpr ⟨store', hexec, rfl⟩

theorem unanswered_cases {phase : AppendPhase} (he : s.commitUnanswered n c phase = some s') :
    c.phase = .commit ∧ ∃ db, c.commit s.db = some db ∧ s' = { s with db }.goto n c phase := by
  obtain ⟨hp, he⟩ := Option.ite_none_right_eq_some.mp he
  obtain ⟨db, hdb, rfl⟩ := Option.map_eq_some_iff.mp he
  exact ⟨hp, db, hdb, rfl⟩

theorem calls_unanswered {l : AppendLabel} {phase : AppendPhase} (h : CallsOk s) (hn : s.calls[n]? = some c)
    (hlater : c.phase = .commit → ∀ row ∈ s.db.notifications.rows, row.createdAt < c.now)
    (hend : AppendCall.open' { c with phase } = false)
    (hl : answered s l s' = s'.calls[n]?.map fun c => .appendIfUnprocessed c.record true)
    (he : s.commitUnanswered n c phase = some s') : CallsOk s' ∧ ∀ store, StoredAs s.db store →
      ∃ store', inMemory.run store (answered s l s').toList = some store' ∧ StoredAs s'.db store' := by
  obtain ⟨hp, db, hdb, rfl⟩ := unanswered_cases he
  refine ⟨h.commit hn hp hdb (hlater hp) hend, fun store hst => ?_⟩
  obtain ⟨row, hcommits⟩ := commit_cases (h.canonical n c hn) hp hdb
  obtain ⟨store', hexec, hst'⟩ := hst.append hcommits.row_of hcommits.processed hcommits.notifications
  refine ⟨store', ?_, hst'⟩
  have hself : (s.calls.set n { c with phase })[n]? = some { c with phase } :=
    List.getElem?_set_self (List.getElem?_eq_some_iff.mp hn).1
  rw [hl]
  simp only [NotificationCalls.goto, hself, Option.map_some, Option.toList_some]
  exact Machine.run_cons_some.mpr ⟨store', hexec, rfl⟩

theorem calls_exec {l : AppendLabel} (h : CallsOk s) (ho : Ordered s l)
    (he : notificationCalls.exec s l = some s') :
    CallsOk s' ∧ ∀ store, StoredAs s.db store →
      ∃ store', inMemory.run store (answered s l s').toList = some store' ∧ StoredAs s'.db store' := by
  cases l with
  | appendIfUnprocessed record id now =>
    obtain ⟨hok, hdb⟩ := calls_begin h ho he
    exact ⟨hok, fun store hst => ⟨store, rfl, hdb ▸ hst⟩⟩
  | advance n =>
    obtain ⟨c, hn, he⟩ := Option.bind_eq_some_iff.mp he
    exact calls_advance h hn ho (append_advance he)
  | fault n =>
    obtain ⟨c, hn, he⟩ := Option.bind_eq_some_iff.mp he
    obtain ⟨hopen, rfl⟩ := guard_eq_some.mp he
    exact ⟨h.ended hn hopen (.inr ⟨_, rfl⟩), fun store hst => ⟨store, rfl, hst⟩⟩
  | stop n =>
    obtain ⟨c, hn, he⟩ := Option.bind_eq_some_iff.mp he
    obtain ⟨hopen, rfl⟩ := guard_eq_some.mp he
    exact ⟨h.ended hn hopen (.inl rfl), fun store hst => ⟨store, rfl, hst⟩⟩
  | stopCommitted n =>
    obtain ⟨c, hn, he⟩ := Option.bind_eq_some_iff.mp he
    exact calls_unanswered h hn (ho.2 n c rfl hn) rfl rfl he
  | loseCommit n =>
    obtain ⟨c, hn, he⟩ := Option.bind_eq_some_iff.mp he
    exact calls_unanswered h hn (ho.2 n c rfl hn) rfl rfl he
  | list n pageSize =>
    obtain ⟨⟨hn, _⟩, rfl⟩ := guard_eq_some.mp he
    refine ⟨h, fun store hst => ⟨store, Machine.run_cons_some.mpr ⟨store, ?_, rfl⟩, hst⟩⟩
    exact if_pos (hst.list_eq h.db hn pageSize).symm

/-- An answer is the one the repository's transaction gives when it runs alone at that moment. -/
theorem answer_atomic (h : CallsOk s) (hn : s.calls[n]? = some c) (hs : AppendStep s n c s')
    {c' : AppendCall} {reply : Bool} (hn' : s'.calls[n]? = some c') (hp : c'.phase = .done (.ok reply)) :
    appendIfUnprocessed c.record c.id c.now none s.db = (.ok reply, s'.db) := by
  have hphase : ∀ phase, (s.calls.set n { c with phase })[n]? = some c' → phase = .done (.ok reply) := by
    intro phase hc'
    rw [List.getElem?_set_self (List.getElem?_eq_some_iff.mp hn).1] at hc'
    obtain rfl := Option.some.inj hc'
    exact hp
  obtain ⟨row, hrow⟩ := rowOf_canonical (h.canonical n c hn) c.id c.now
  cases hs with
  | held | ready | thrown => cases hphase _ hn'
  | @duplicate prow phase row_eq stale =>
    cases hphase _ hn'
    obtain rfl := Except.ok.inj (row_eq.symm.trans (processedOf_rowOf hrow))
    refine append_duplicate hrow ?_
    by_contra hno
    exact stale (processed_notification_fresh.mpr hno)
  | @collided nrow phase row_eq stale =>
    obtain rfl := Except.ok.inj (row_eq.symm.trans hrow.row_eq)
    exact absurd (second_insert_fresh h hn phase hrow) stale
  | committed phase commits =>
    cases hphase _ hn'
    obtain ⟨row, hcommits⟩ := commit_cases (h.canonical n c hn) phase commits
    exact append_new hcommits.row_of hcommits.processed hcommits.notifications

/-! ## Calls that store nothing -/

/-- How a call ends that stores its record, and by which step. -/
inductive Stores (n : Nat) : AppendLabel → AppendPhase → Prop
  | answered : Stores n (.advance n) (.done (.ok true))
  | stopped : Stores n (.stopCommitted n) .stopped
  | lost : Stores n (.loseCommit n) (.done (.error .unavailable))

theorem Stores.closed {l : AppendLabel} {phase : AppendPhase} (h : Stores n l phase) :
    AppendCall.open' { c with phase } = false := by
  cases h <;> rfl

theorem writes_cases {l : AppendLabel} (h : CallsOk s) (hl : l.call = some n)
    (he : notificationCalls.exec s l = some s') :
    s'.db = s.db ∨ ∃ c row phase, s.calls[n]? = some c ∧ s'.calls[n]? = some { c with phase } ∧ Stores n l phase ∧
      AppendCommits c row s.db s'.db := by
  have hself : ∀ c phase, s.calls[n]? = some c → (s.calls.set n { c with phase })[n]? = some { c with phase } :=
    fun c phase hn => List.getElem?_set_self (List.getElem?_eq_some_iff.mp hn).1
  cases l with
  | appendIfUnprocessed | list => cases hl
  | advance m =>
    obtain rfl := Option.some.inj hl
    obtain ⟨c, hn, he⟩ := Option.bind_eq_some_iff.mp he
    cases append_advance he with
    | committed phase commits =>
      obtain ⟨row, hcommits⟩ := commit_cases (h.canonical _ c hn) phase commits
      exact .inr ⟨c, row, _, hn, hself c _ hn, .answered, hcommits⟩
    | _ => exact .inl rfl
  | fault m | stop m =>
    obtain rfl := Option.some.inj hl
    obtain ⟨c, hn, he⟩ := Option.bind_eq_some_iff.mp he
    obtain ⟨_, rfl⟩ := guard_eq_some.mp he
    exact .inl rfl
  | stopCommitted m =>
    obtain rfl := Option.some.inj hl
    obtain ⟨c, hn, he⟩ := Option.bind_eq_some_iff.mp he
    obtain ⟨hp, db, hdb, rfl⟩ := unanswered_cases he
    obtain ⟨row, hcommits⟩ := commit_cases (h.canonical _ c hn) hp hdb
    exact .inr ⟨c, row, _, hn, hself c _ hn, .stopped, hcommits⟩
  | loseCommit m =>
    obtain rfl := Option.some.inj hl
    obtain ⟨c, hn, he⟩ := Option.bind_eq_some_iff.mp he
    obtain ⟨hp, db, hdb, rfl⟩ := unanswered_cases he
    obtain ⟨row, hcommits⟩ := commit_cases (h.canonical _ c hn) hp hdb
    exact .inr ⟨c, row, _, hn, hself c _ hn, .lost, hcommits⟩

theorem ended_stays {l : AppendLabel} (he : notificationCalls.exec s l = some s') (hn : s.calls[n]? = some c)
    (hc : c.open' = false) : s'.calls[n]? = some c := by
  have hother : ∀ (m : Nat) x phase, s.calls[m]? = some x → x.open' = true →
      (s.calls.set m { x with phase })[n]? = some c := by
    intro m x phase hm hx
    have hne : m ≠ n := by
      rintro rfl
      obtain rfl := Option.some.inj (hn.symm.trans hm)
      rw [hc] at hx; cases hx
    rw [List.getElem?_set_ne hne]; exact hn
  cases l with
  | appendIfUnprocessed record id now =>
    obtain ⟨_, rfl⟩ := guard_eq_some.mp he
    exact (List.getElem?_append_left (List.getElem?_eq_some_iff.mp hn).1).trans hn
  | list n' pageSize =>
    obtain ⟨_, rfl⟩ := guard_eq_some.mp he
    exact hn
  | advance m =>
    obtain ⟨x, hm, he⟩ := Option.bind_eq_some_iff.mp he
    cases append_advance he with
    | held phase | duplicate phase | collided phase | ready phase | committed phase =>
      exact hother m x _ hm (by unfold AppendCall.open'; rw [phase])
    | thrown was => exact hother m x _ hm was
  | fault m | stop m =>
    obtain ⟨x, hm, he⟩ := Option.bind_eq_some_iff.mp he
    obtain ⟨hx, rfl⟩ := guard_eq_some.mp he
    exact hother m x _ hm hx
  | stopCommitted m | loseCommit m =>
    obtain ⟨x, hm, he⟩ := Option.bind_eq_some_iff.mp he
    obtain ⟨hp, db, _, rfl⟩ := unanswered_cases he
    exact hother m x _ hm (by unfold AppendCall.open'; rw [hp])

theorem run_ended {ls : List AppendLabel} (hr : notificationCalls.run s ls = some s') (hn : s.calls[n]? = some c)
    (hc : c.open' = false) : s'.calls[n]? = some c := by
  induction ls generalizing s with
  | nil => rw [← Option.some.inj hr]; exact hn
  | cons l ls ih =>
    obtain ⟨m, he, hr⟩ := Machine.run_cons_some.mp hr
    exact ih hr (ended_stays he hn hc)

theorem passes_writes {ls : List AppendLabel} {s₀ a b : NotificationCalls} {l : AppendLabel} (h : CallsOk a)
    (hp : notificationCalls.Passes s₀ ls s a l b) (hl : l.call = some n) (hn : s.calls[n]? = some c) :
    b.db = a.db ∨ Stores n l c.phase ∧ ∃ c row, a.calls[n]? = some c ∧ AppendCommits c row a.db b.db := by
  refine (writes_cases h hl hp.exec).imp_right fun ⟨c', row, phase, ha, hb, hstores, hcommits⟩ => ?_
  obtain ⟨pre, post, _, _, hpost⟩ := hp.split
  obtain rfl := Option.some.inj (hn.symm.trans (run_ended hpost hb hstores.closed))
  exact ⟨hstores, c', row, ha, hcommits⟩

/-! ## The stores agree -/

theorem callsOk_empty : CallsOk .empty := by
  refine ⟨notificationsOk_empty, fun n c hn => ?_, fun n m c c' hn => ?_, fun row hr => (by cases hr), .nil, .nil⟩
  · change ([] : List AppendCall)[n]? = _ at hn
    simp at hn
  · change ([] : List AppendCall)[n]? = _ at hn
    simp at hn

theorem callsOk_reach (h : notificationCalls.ReachBy Ordered s) : CallsOk s := by
  refine h.inv (fun s h0 => ?_) fun s l s' _ hi ho he => (calls_exec hi ho he).1
  obtain rfl := (show s = NotificationCalls.empty from h0)
  exact callsOk_empty

theorem one_notification {db : NotificationDb} (h : NotificationsOk db) {u : Uuid}
    (hu : u ∈ db.processed.rows.map (·.messageId)) :
    (db.notifications.rows.filter fun r => decide (r.messageId = u)).length = 1 := by
  rw [h.same_ids] at hu
  obtain ⟨row, hrow, rfl⟩ := List.mem_map.mp hu
  have hle := db.notifications.filter_unique_length row.messageId
  have hpos : 0 < (db.notifications.rows.filter fun r => decide (r.messageId = row.messageId)).length :=
    List.length_pos_of_mem (List.mem_filter.mpr ⟨hrow, decide_eq_true rfl⟩)
  have hsame : (db.notifications.rows.filter fun r => decide (notificationSchema.unique r = some row.messageId)) =
      db.notifications.rows.filter fun r => decide (r.messageId = row.messageId) :=
    List.filter_congr fun r _ => decide_eq_decide.mpr ⟨fun e => Option.some.inj e, fun e => congrArg some e⟩
  rw [hsame] at hle
  omega

/-- Whatever the interleaving: the calls return what the in-memory store returns for
them in turn, the two tables hold the same messages with one notification each, a
call that answers `false` writes nothing, one that throws does not either unless it
lost the answer of its COMMIT, and the pages in turn give every notification once,
in the order they were stored. -/
theorem notification_stores_agree {ls : List AppendLabel} (hm : notificationCalls.Meets Ordered .empty ls)
    (hr : notificationCalls.run .empty ls = some s) :
    (∃ store, inMemory.run .empty (notificationCalls.trace answered .empty ls) = some store ∧
      ∀ n pageSize, 1 ≤ n → 1 ≤ pageSize → listNotifications n pageSize s.db = store.list n pageSize) ∧
    (∀ u : Uuid, u ∈ s.db.notifications.rows.map (·.messageId) ↔ u ∈ s.db.processed.rows.map (·.messageId)) ∧
    (∀ u ∈ s.db.processed.rows.map (·.messageId),
      (s.db.notifications.rows.filter fun r => decide (r.messageId = u)).length = 1) ∧
    (∀ n c, s.calls[n]? = some c → c.phase = .done (.ok false) →
      ∀ a l b, notificationCalls.Passes .empty ls s a l b → l.call = some n → b.db = a.db) ∧
    (∀ n c e, s.calls[n]? = some c → c.phase = .done (.error e) →
      ∀ a l b, notificationCalls.Passes .empty ls s a l b → l.call = some n → b.db = a.db ∨
        l = .loseCommit n ∧ ∃ c row, a.calls[n]? = some c ∧ AppendCommits c row a.db b.db) ∧
    (∀ n c c' reply a b, notificationCalls.Passes .empty ls s a (.advance n) b → a.calls[n]? = some c →
      b.calls[n]? = some c' → c'.phase = .done (.ok reply) →
      appendIfUnprocessed c.record c.id c.now none a.db = (.ok reply, b.db)) ∧
    ∀ pageSize k, 1 ≤ pageSize → s.db.notifications.rows.length ≤ k * pageSize →
      ((List.range k).flatMap fun i => listNotifications (i + 1) pageSize s.db) =
        s.db.notifications.rows.map NotificationRow.record := by
  have hstart : notificationCalls.ReachBy Ordered NotificationCalls.empty := .start rfl
  have hok : CallsOk s := callsOk_reach (hstart.run hm hr)
  refine ⟨?_, fun u => ?_, fun u hu => one_notification hok.db hu, ?_, ?_, ?_, ?_⟩
  · obtain ⟨store, hrun, hst⟩ := Machine.run_simulated (N := inMemory) (R := fun s store => StoredAs s.db store)
      (fun s l s' store hs ho he hst => (calls_exec (callsOk_reach hs) ho he).2 store hst) hstart hm hr
      storedAs_empty
    exact ⟨store, hrun, fun n pageSize hn _ => hst.list_eq hok.db hn pageSize⟩
  · rw [hok.db.same_ids]
  · intro n c hn hc a l b hp hl
    refine (passes_writes (callsOk_reach (hp.reach hstart hm).1) hp hl hn).resolve_right fun h => ?_
    have hstores := h.1
    rw [hc] at hstores; cases hstores
  · intro n c e hn hc a l b hp hl
    refine (passes_writes (callsOk_reach (hp.reach hstart hm).1) hp hl hn).imp_right fun h => ⟨?_, h.2⟩
    have hstores := h.1
    rw [hc] at hstores
    cases hstores; rfl
  · intro n c c' reply a b hp hn hn' hreply
    obtain ⟨x, hx, he⟩ := Option.bind_eq_some_iff.mp hp.exec
    obtain rfl := Option.some.inj (hn.symm.trans hx)
    exact answer_atomic (callsOk_reach (hp.reach hstart hm).1) hn (append_advance he) hn' hreply
  · intro pageSize k _ hk
    have hpage : (fun i => listNotifications (i + 1) pageSize s.db) =
        fun i => page (i + 1) pageSize (s.db.notifications.rows.map NotificationRow.record) :=
      funext fun i => listNotifications_eq hok.db (Nat.le_add_left 1 i) pageSize
    rw [hpage, pages_eq]
    rw [List.length_map]; exact hk

end

/-! ## Sample calls -/

def sampleConfirmed : NotificationRecord :=
  handleBookingConfirmed (envelope (sample 5) (sampleText 2) 0 ⟨sampleText 2, sampleText 1,
    3⟩) (sampleDraw 0 0 0 0 0)

def sampleNotifications : List AppendLabel :=
  [.appendIfUnprocessed sampleConfirmed (sample 8) 1, .appendIfUnprocessed sampleConfirmed (sample 9) 2, .advance 0,
    .advance 0, .advance 0, .advance 1, .list 1 1]

def orderedStep (s : NotificationCalls) : AppendLabel → Bool
  | .appendIfUnprocessed _ id _ => s.calls.all fun c => decide (c.id ≠ id)
  | l => (l.call.bind fun n => s.calls[n]?).all fun c => s.db.notifications.rows.all fun row =>
      decide (row.createdAt < c.now)

theorem orderedStep_sound (s : NotificationCalls) (l : AppendLabel) (h : orderedStep s l = true) : Ordered s l := by
  have hlater : ∀ n c, l.call = some n → s.calls[n]? = some c → orderedStep s l = true →
      ∀ row ∈ s.db.notifications.rows, row.createdAt < c.now := by
    intro n c hl hn h row hrow
    have hall : (s.db.notifications.rows.all fun row => decide (row.createdAt < c.now)) = true := by
      cases l with
      | appendIfUnprocessed | list => cases hl
      | advance m | fault m | stop m | stopCommitted m | loseCommit m =>
        obtain rfl := Option.some.inj hl
        simpa [orderedStep, AppendLabel.call, hn] using h
    exact of_decide_eq_true (List.all_eq_true.mp hall row hrow)
  refine ⟨?_, fun n c hl hn _ => hlater n c hl hn h⟩
  rintro record id now rfl c hc
  exact of_decide_eq_true (List.all_eq_true.mp h c hc)

theorem sample_notifications_agree : ∃ s store, notificationCalls.run .empty sampleNotifications = some s ∧
    s.calls.map (·.phase) = [.done (.ok true), .done (.ok false)] ∧
    inMemory.run .empty (notificationCalls.trace answered .empty sampleNotifications) = some store ∧
    listNotifications 1 1 s.db = store.list 1 1 := by
  have h : (notificationCalls.run .empty sampleNotifications).map (fun s => s.calls.map (·.phase)) =
      some [.done (.ok true), .done (.ok false)] := by
    decide +kernel
  have hallowed : notificationCalls.allowed orderedStep .empty sampleNotifications = true := by
    decide +kernel
  have hmeets := Machine.meets_of_allowed orderedStep_sound hallowed
  obtain ⟨s, hs, hview⟩ := Option.map_eq_some_iff.mp h
  obtain ⟨store, hstore, hlist⟩ := (notification_stores_agree hmeets hs).1
  exact ⟨s, store, hs, hview, hstore, hlist 1 1 (by decide) (by decide)⟩

def sampleLost : List AppendLabel :=
  [.appendIfUnprocessed sampleConfirmed (sample 8) 1, .advance 0, .advance 0, .loseCommit 0]

/-- The only call throws, and both its rows are stored. -/
theorem thrown_after_commit : ∃ s, notificationCalls.Meets Ordered .empty sampleLost ∧
    notificationCalls.run .empty sampleLost = some s ∧ s.calls.map (·.phase) = [.done (.error .unavailable)] ∧
    s.db.notifications.rows.length = 1 ∧ s.db.processed.rows.length = 1 := by
  have h : (notificationCalls.run .empty sampleLost).map (fun s => (s.calls.map (·.phase),
      s.db.notifications.rows.length, s.db.processed.rows.length)) =
          some ([.done (.error .unavailable)], 1, 1) := by
    decide +kernel
  have hallowed : notificationCalls.allowed orderedStep .empty sampleLost = true := by
    decide +kernel
  obtain ⟨s, hs, hview⟩ := Option.map_eq_some_iff.mp h
  exact ⟨s, Machine.meets_of_allowed orderedStep_sound hallowed, hs, congrArg Prod.fst hview,
    congrArg (·.2.1) hview, congrArg (·.2.2) hview⟩

end EventBooking
