import EventBooking.BookingCalls
import EventBooking.Zod4

/-!
# One booking for an idempotency key

The two tables that carry a key, the rows that open transactions hold and the
phase of every call are tied together by one invariant. From it: a key has one
booking, its record and one request; calls with the key answer from the
record; and calls wait only for calls that are further on, so all of them end.
-/

namespace EventBooking
open Lib

theorem truthy_eq_some {o : Option String} {key : String} : truthy o = some key ↔ o = some key ∧ key ≠ "" := by
  unfold truthy
  cases o with
  | none => simp
  | some k =>
    by_cases hk : k = ""
    · simp only [hk, if_true, reduceCtorEq, Option.some.injEq, false_iff, not_and, not_not]
      exact fun e => e.symm
    · simp only [if_neg hk, Option.some.injEq]
      exact ⟨fun e => ⟨e, e ▸ hk⟩, fun e => e.1⟩

/-- What INTEGER columns hold. -/
def int4Max : Int := 2147483647

/-! ## The committed tables -/

def requests (id : Uuid) (m : StoredMessage) : Bool :=
  decide (m.topic = .reserveSeats) && decide (m.message.payload.bookingId = id.text)

structure DbOk (db : BookingDb) : Prop where
  recorded : ∀ r ∈ db.bookings.rows, ∀ key, truthy r.idempotencyKey = some key →
    ∃ record, db.idempotencyKeys.find key = some record ∧ record.bookingId = r.id
  booked : ∀ record ∈ db.idempotencyKeys.rows, record.key ≠ "" ∧
    ∃ r ∈ db.bookings.rows, r.id = record.bookingId ∧ r.idempotencyKey = some record.key
  requested : ∀ r ∈ db.bookings.rows, ((contents db.outbox).filter (requests r.id)).length = 1
  named : ∀ m ∈ contents db.outbox, m.topic = .reserveSeats → ∃ r ∈ db.bookings.rows,
    m.message.payload.bookingId = r.id.text

def KeepsRecords (db db' : BookingDb) : Prop :=
  ∀ key record, db.idempotencyKeys.find key = some record → db'.idempotencyKeys.find key = some record

structure CreateCommits (c : CreateCall) (row : BookingRow) (db db' : BookingDb) : Prop where
  bookings : db.bookings.insert row = some db'.bookings
  record : db.idempotencyKeys.insertOption (c.keyRow row) = some db'.idempotencyKeys
  outbox : db.outbox.insert c.outboxRow = some db'.outbox
  processed : db'.processed = db.processed

section
variable {db db' : BookingDb} {c : CreateCall} {row : BookingRow}

theorem commit_eq_some (h : c.commit row db = some db') : CreateCommits c row db db' := by
  unfold CreateCall.commit at h
  obtain ⟨bookings, hb, h⟩ := Option.bind_eq_some_iff.mp h
  obtain ⟨keys, hk, h⟩ := Option.bind_eq_some_iff.mp h
  obtain ⟨outbox, ho, h⟩ := Option.bind_eq_some_iff.mp h
  obtain rfl := Option.some.inj h
  exact ⟨hb, hk, ho, rfl⟩

theorem CreateCommits.find (h : CreateCommits c row db db') (k : String) :
    db'.idempotencyKeys.find k =
      if c.key = some k then c.keyRow row else db.idempotencyKeys.find k := by
  have hr := h.record
  unfold CreateCall.keyRow at hr ⊢
  cases hk : c.key with
  | none => rw [hk] at hr; rw [Table.insertOption_none hr, if_neg (by simp)]
  | some key =>
    rw [hk] at hr
    rw [Table.find_insert (Table.insertOption_some hr), idempotency_key]
    by_cases he : k = key
    · rw [if_pos he, if_pos (congrArg some he.symm)]; rfl
    · rw [if_neg he, if_neg fun e => he (Option.some.inj e).symm]

theorem CreateCommits.find_own (h : CreateCommits c row db db') {key : String}
    (hkey : c.key = some key) :
    db'.idempotencyKeys.find key = some ⟨key, row.id, c.fingerprint, row.mapRow, c.draw.now⟩ := by
  rw [h.find, if_pos hkey]
  unfold CreateCall.keyRow
  rw [hkey]; rfl

theorem CreateCommits.keeps (h : CreateCommits c row db db') : KeepsRecords db db' := by
  intro k record hk
  rw [h.find]
  split
  · rename_i he
    have hr := h.record
    unfold CreateCall.keyRow at hr
    rw [he] at hr
    have hnone := Table.find_before_insert (Table.insertOption_some hr)
    exact absurd (hnone.symm.trans hk) (by simp)
  · exact hk

theorem requests_own (id : Uuid) :
    requests id (createBookingOutbox c.input c.draw).stored = true ↔ c.draw.id.val = id := by
  unfold requests
  rw [Bool.and_eq_true, decide_eq_true_eq, decide_eq_true_eq]
  constructor
  · intro h; exact Uuid.text_inj.mp h.2
  · intro h; exact ⟨rfl, congrArg Uuid.text h⟩

theorem DbOk.create (hd : DbOk db) (h : CreateCommits c row db db')
    (hrow : (createBookingData c.input c.draw).row c.draw.now = .ok row) : DbOk db' := by
  have hs := BookingInsert.stores hrow
  have hkey : row.idempotencyKey = c.input.idempotencyKey := hs.idempotencyKey
  have hid : row.id = c.draw.id.val := hs.id
  obtain ⟨hfresh, _⟩ := Table.insert_eq_some.mp h.bookings
  have hrows := Table.insert_rows h.bookings
  have hcontents : contents db'.outbox = contents db.outbox ++ [(createBookingOutbox c.input c.draw).stored] :=
    contents_insert h.outbox
  have hnew : ∀ r ∈ db.bookings.rows, r.id ≠ row.id := fun r hr e => hfresh.1 (List.mem_map.mpr ⟨r, hr, e⟩)
  constructor
  · intro r hr key hk
    rw [hrows, List.mem_append, List.mem_singleton] at hr
    rcases hr with hr | rfl
    · obtain ⟨record, hrec, hb⟩ := hd.recorded r hr key hk
      exact ⟨record, h.keeps key record hrec, hb⟩
    · have hck : c.key = some key := by unfold CreateCall.key; rw [← hkey]; exact hk
      refine ⟨⟨key, r.id, c.fingerprint, r.mapRow, c.draw.now⟩, ?_, rfl⟩
      rw [h.find, if_pos hck]
      unfold CreateCall.keyRow; rw [hck]; rfl
  · intro record hrec
    have hold : record ∈ db.idempotencyKeys.rows → record.key ≠ "" ∧
        ∃ r ∈ db'.bookings.rows, r.id = record.bookingId ∧ r.idempotencyKey = some record.key := by
      intro hm
      obtain ⟨hne, r, hr, e⟩ := hd.booked record hm
      exact ⟨hne, r, hrows ▸ List.mem_append_left _ hr, e⟩
    have hr := h.record
    unfold CreateCall.keyRow at hr
    cases hk : c.key with
    | none => rw [hk] at hr; exact hold (Table.insertOption_none hr ▸ hrec)
    | some key =>
      rw [hk] at hr
      rw [Table.insert_rows (Table.insertOption_some hr), List.mem_append, List.mem_singleton] at hrec
      rcases hrec with hrec | rfl
      · exact hold hrec
      · obtain ⟨he, hne⟩ := truthy_eq_some.mp hk
        exact ⟨hne, row, hrows ▸ List.mem_append_right _ (List.mem_singleton.mpr rfl), rfl, hkey.trans he⟩
  · intro r hr
    rw [hrows, List.mem_append, List.mem_singleton] at hr
    rw [hcontents, List.filter_append, List.length_append]
    rcases hr with hr | rfl
    · have hno : requests r.id (createBookingOutbox c.input c.draw).stored = false := by
        rw [← Bool.not_eq_true, requests_own]
        exact fun e => hnew r hr (e.symm.trans hid.symm)
      rw [hd.requested r hr, List.filter_cons, if_neg (by rw [hno]; simp)]; rfl
    · have hold : (contents db.outbox).filter (requests r.id) = [] := by
        rw [List.filter_eq_nil_iff]
        intro m hm hreq
        unfold requests at hreq
        rw [Bool.and_eq_true, decide_eq_true_eq, decide_eq_true_eq] at hreq
        obtain ⟨x, hx, e⟩ := hd.named m hm hreq.1
        exact hnew x hx (Uuid.text_inj.mp (e.symm.trans hreq.2))
      rw [hold, List.filter_cons, if_pos ((requests_own r.id).mpr hid.symm)]; rfl
  · intro m hm ht
    rw [hcontents, List.mem_append, List.mem_singleton] at hm
    rcases hm with hm | rfl
    · obtain ⟨r, hr, e⟩ := hd.named m hm ht
      exact ⟨r, hrows ▸ List.mem_append_left _ hr, e⟩
    · refine ⟨row, hrows ▸ List.mem_append_right _ (List.mem_singleton.mpr rfl), ?_⟩
      rw [hid]; rfl

end

theorem linked_iff {db : BookingDb} (h : DbOk db) {k : String} (hk : k ≠ "") (id : Uuid) :
    (∃ record, db.idempotencyKeys.find k = some record ∧ record.bookingId = id) ↔
      ∃ r ∈ db.bookings.rows, r.idempotencyKey = some k ∧ r.id = id := by
  constructor
  · intro hr
    obtain ⟨record, hf, rfl⟩ := hr
    obtain ⟨hm, rfl⟩ := Table.find_eq_some.mp hf
    obtain ⟨_, r, hr, hid, hkey⟩ := h.booked record hm
    exact ⟨r, hr, hkey, hid⟩
  · intro hr
    obtain ⟨r, hr, hkey, rfl⟩ := hr
    exact h.recorded r hr k (truthy_eq_some.mpr ⟨hkey, hk⟩)

/-! ### Status changes and bookkeeping -/

structure ChangeCommits (c : StatusChange) (changed : Option Uuid) (queued : Bool) (db db' : BookingDb) : Prop where
  bookings : db'.bookings = changeStatus changed c.target c.now db.bookings
  processed : db.processed.insertOption c.processedRow = some db'.processed
  outbox : db.outbox.insertOption (if queued then some (c.outbox.row c.now) else none) = some db'.outbox
  idempotencyKeys : db'.idempotencyKeys = db.idempotencyKeys

section
variable {db db' : BookingDb} {c : StatusChange} {changed : Option Uuid} {queued : Bool}

theorem change_commit_eq_some (h : c.commit changed queued db = some db') :
    ChangeCommits c changed queued db db' := by
  unfold StatusChange.commit at h
  obtain ⟨processed, hp, h⟩ := Option.bind_eq_some_iff.mp h
  obtain ⟨outbox, ho, h⟩ := Option.bind_eq_some_iff.mp h
  obtain rfl := Option.some.inj h
  exact ⟨rfl, hp, ho, rfl⟩

theorem DbOk.unrequested (hd : DbOk db)
    (hb : ∃ f : BookingRow → BookingRow, db'.bookings.rows = db.bookings.rows.map f ∧
      ∀ r, (f r).id = r.id ∧ (f r).idempotencyKey = r.idempotencyKey)
    (hk : db'.idempotencyKeys = db.idempotencyKeys)
    (ho : ∃ ms, contents db'.outbox = contents db.outbox ++ ms ∧ ∀ m ∈ ms, m.topic ≠ .reserveSeats) : DbOk db' := by
  obtain ⟨f, hrows, hf⟩ := hb
  obtain ⟨ms, hcontents, hms⟩ := ho
  constructor
  · intro r hr key hkey
    rw [hrows] at hr
    obtain ⟨x, hx, rfl⟩ := List.mem_map.mp hr
    rw [hk, (hf x).1]
    exact hd.recorded x hx key ((hf x).2 ▸ hkey)
  · intro record hrec
    rw [hk] at hrec
    obtain ⟨hne, r, hr, hid, hkey⟩ := hd.booked record hrec
    refine ⟨hne, f r, hrows ▸ List.mem_map_of_mem hr, ?_, ?_⟩
    · rw [(hf r).1, hid]
    · rw [(hf r).2, hkey]
  · intro r hr
    rw [hrows] at hr
    obtain ⟨x, hx, rfl⟩ := List.mem_map.mp hr
    have hno : ms.filter (requests x.id) = [] := by
      rw [List.filter_eq_nil_iff]
      intro m hm hreq
      unfold requests at hreq
      rw [Bool.and_eq_true, decide_eq_true_eq] at hreq
      exact hms m hm hreq.1
    rw [(hf x).1, hcontents, List.filter_append, hno, List.append_nil]
    exact hd.requested x hx
  · intro m hm ht
    rw [hcontents, List.mem_append] at hm
    rcases hm with hm | hm
    · obtain ⟨r, hr, e⟩ := hd.named m hm ht
      exact ⟨f r, hrows ▸ List.mem_map_of_mem hr, by rw [(hf r).1]; exact e⟩
    · exact absurd ht (hms m hm)

theorem DbOk.change (hd : DbOk db) (h : ChangeCommits c changed queued db db')
    (ht : c.outbox.topic ≠ .reserveSeats) :
    DbOk db' := by
  refine hd.unrequested
    ⟨fun r => if decide (some r.id = changed) = true then setStatus c.target c.now r else r, ?_, ?_⟩
    h.idempotencyKeys ?_
  · rw [h.bookings]; rfl
  · intro r
    by_cases hr : some r.id = changed
    · simp [hr, setStatus]
    · simp [hr]
  · have ho := h.outbox
    cases queued with
    | false => exact ⟨[], by rw [Table.insertOption_none ho, List.append_nil], fun m hm => (by cases hm)⟩
    | true =>
      refine ⟨[c.outbox.stored], contents_insert (Table.insertOption_some ho), fun m hm => ?_⟩
      rw [List.mem_singleton] at hm
      rw [hm]; exact ht

theorem DbOk.bookkeep (hd : DbOk db) (op : Bookkeeping) : DbOk { db with outbox := op.apply db.outbox } := by
  refine hd.unrequested ⟨id, (List.map_id _).symm, fun r => ⟨rfl, rfl⟩⟩ rfl ⟨[], ?_, fun m hm => (by cases hm)⟩
  rw [List.append_nil]; exact contents_apply db.outbox op

theorem fresh_apply (op : Bookkeeping) (t : OutboxTable) (r : OutboxRow) : (op.apply t).Fresh r ↔ t.Fresh r := by
  cases op with
  | claim now input locked =>
    show (claimRows now input.workerId (claimableIds now input locked t) t).Fresh r ↔ _
    unfold claimRows; exact Table.fresh_update
  | markPublished now id workerId =>
    show (EventBooking.markOutboxPublished now id workerId t).Fresh r ↔ _
    unfold EventBooking.markOutboxPublished; exact Table.fresh_update
  | recordFailure now id workerId error maxAttempts backoff =>
    show (recordOutboxFailure now id workerId error maxAttempts backoff t).Fresh r ↔ _
    unfold recordOutboxFailure; exact Table.fresh_update

theorem dbOk_empty : DbOk .empty :=
  ⟨fun r hr => (by cases hr), fun r hr => (by cases hr), fun r hr => (by cases hr), fun m hm => (by cases hm)⟩

end

/-! ## The calls -/

theorem replay_own {record : IdempotencyRow} {fingerprint : String} (h : record.requestFingerprint = fingerprint) :
    replay record fingerprint = .ok record.response := by
  unfold replay
  rw [if_neg (not_not.mpr h)]

theorem replay_other {record : IdempotencyRow} {fingerprint : String}
    (h : record.requestFingerprint ≠ fingerprint) :
    replay record fingerprint = .error (.app BookingErrors.idempotencyKeyReused) := by
  unfold replay
  rw [if_pos h]

def PhaseOk (db : BookingDb) (c : CreateCall) : Prop :=
  match c.phase with
  | .lookup => c.missed = false
  | .insertBooking => c.key.isSome → c.missed = true
  | .insertKey row | .insertOutbox row | .commit row =>
    (createBookingData c.input c.draw).row c.draw.now = .ok row
  | .recoverKey => c.input.quantity ≤ int4Max ∧
    (c.disturbed = false → ∃ key record, c.key = some key ∧ db.idempotencyKeys.find key = some record)
  | .recoverBooking => c.disturbed = true
  | .dispatch booking => c.disturbed = false → ∀ key, c.key = some key → c.input.quantity ≤ int4Max ∧
    ∃ record, db.idempotencyKeys.find key = some record ∧ record.requestFingerprint = c.fingerprint ∧
      record.response = booking
  | .done reply => c.disturbed = false → ∀ key, c.key = some key →
    ((c.missed = false ∨ c.input.quantity ≤ int4Max) ∧
      ∃ record, db.idempotencyKeys.find key = some record ∧ reply = replay record c.fingerprint) ∨
    (c.missed = true ∧ int4Max < c.input.quantity ∧ reply = .error (.db .outOfRange))

theorem PhaseOk.mono {db db' : BookingDb} {c : CreateCall} (h : PhaseOk db c) (hk : KeepsRecords db db') :
    PhaseOk db' c := by
  unfold PhaseOk at h ⊢
  cases hp : c.phase with
  | lookup | insertBooking | insertKey | insertOutbox | commit | recoverBooking => rw [hp] at h; exact h
  | recoverKey =>
    rw [hp] at h
    refine ⟨h.1, fun hd => ?_⟩
    obtain ⟨key, record, hc, hf⟩ := h.2 hd
    exact ⟨key, record, hc, hk key record hf⟩
  | dispatch booking =>
    rw [hp] at h
    intro hd key hc
    obtain ⟨hq, record, hf, e⟩ := h hd key hc
    exact ⟨hq, record, hk key record hf, e⟩
  | done reply =>
    rw [hp] at h
    intro hd key hc
    rcases h hd key hc with h | h
    · obtain ⟨hm, record, hf, e⟩ := h
      exact Or.inl ⟨hm, record, hk key record hf, e⟩
    · exact Or.inr h

section
variable [Zod]

structure CreateOk (db : BookingDb) (c : CreateCall) : Prop where
  schema : createBookingSchema c.input = true
  phase : PhaseOk db c
  committed : c.committed = true →
    (c.input.quantity ≤ int4Max ∧ ((∃ b, c.phase = .dispatch b) ∨ ∃ r, c.phase = .done r)) ∧
    ∀ key, c.key = some key → ∃ record, db.idempotencyKeys.find key = some record ∧
      record.requestFingerprint = c.fingerprint

theorem CreateOk.mono {db db' : BookingDb} {c : CreateCall} (h : CreateOk db c) (hk : KeepsRecords db db') :
    CreateOk db' c := by
  refine ⟨h.schema, h.phase.mono hk, fun hc => ⟨(h.committed hc).1, fun key hkey => ?_⟩⟩
  obtain ⟨record, hf, e⟩ := (h.committed hc).2 key hkey
  exact ⟨record, hk key record hf, e⟩

theorem row_cases {c : CreateCall} (hs : createBookingSchema c.input = true) :
    (c.input.quantity ≤ int4Max ∧ ∃ row, (createBookingData c.input c.draw).row c.draw.now = .ok row) ∨
      (int4Max < c.input.quantity ∧
        (createBookingData c.input c.draw).row c.draw.now = .error .outOfRange) := by
  unfold createBookingSchema positiveInt at hs
  simp only [Bool.and_eq_true, decide_eq_true_eq] at hs
  obtain ⟨u, hu⟩ := uuid_cast hs.1.1
  obtain ⟨e, he⟩ := uuid_cast hs.1.2
  have hrow : (createBookingData c.input c.draw).row c.draw.now = (do
      let quantity ← int4 c.input.quantity
      if 0 < quantity then
        return ⟨c.draw.id.val, u, e, quantity, .pending, c.input.idempotencyKey, c.draw.now, c.draw.now⟩
      else throw .checkViolation) := by
    unfold BookingInsert.row createBookingData
    simp only [hu, he]; rfl
  rw [hrow]
  by_cases hq : c.input.quantity ≤ int4Max
  · have hint : int4 c.input.quantity = .ok c.input.quantity :=
      int4_eq_ok.mpr ⟨rfl, by have := hs.2.1; omega, hq⟩
    left
    refine ⟨hq, ⟨c.draw.id.val, u, e, c.input.quantity, .pending, c.input.idempotencyKey, c.draw.now,
      c.draw.now⟩, ?_⟩
    rw [hint]
    simp [bind, Except.bind, hs.2.1]; rfl
  · right
    refine ⟨by omega, ?_⟩
    have hint : int4 c.input.quantity = .error .outOfRange := by
      unfold int4
      rw [if_neg]
      unfold int4Max at hq; omega
    rw [hint]; rfl

end

/-! ## One step of a call -/

@[simp] def CreatePhase.rank : CreatePhase → Nat
  | .lookup => 0
  | .insertBooking => 1
  | .insertKey _ => 2
  | .insertOutbox _ => 3
  | .commit _ => 4
  | .recoverKey => 5
  | .recoverBooking => 6
  | .dispatch _ => 7
  | .done _ => 8

structure Bare (call : BookingCall) : Prop where
  booking : call.booking = none
  record : call.record = none
  outbox : call.outbox = none
  processed : call.processed = none

section
variable [Zod] (s : BookingCalls) (n : Nat) (c : CreateCall)

inductive CreateStep : BookingCalls → Prop
  | bare {c' : CreateCall} (input : c'.input = c.input) (committed : c'.committed = c.committed)
      (later : c.phase.rank < c'.phase.rank) (holds : Bare (.create c')) (ok : CreateOk s.db c') :
      CreateStep (s.goto n (.create c'))
  | booked {row : BookingRow} (phase : c.phase = .insertBooking)
      (row_eq : (createBookingData c.input c.draw).row c.draw.now = .ok row)
      (held : s.db.bookings.insertAmong (heldByOthers BookingCall.booking s.calls n) row = .held) :
      CreateStep (s.goto n (.create { c with phase := .insertKey row }))
  | recorded {row : BookingRow} (phase : c.phase = .insertKey row)
      (held : ∀ record, c.keyRow row = some record →
        s.db.idempotencyKeys.insertAmong (heldByOthers BookingCall.record s.calls n) record = .held) :
      CreateStep (s.goto n (.create { c with phase := .insertOutbox row }))
  | queued {row : BookingRow} (phase : c.phase = .insertOutbox row)
      (held : s.db.outbox.insertAmong (heldByOthers BookingCall.outbox s.calls n) c.outboxRow = .held) :
      CreateStep (s.goto n (.create { c with phase := .commit row }))
  | committed {row : BookingRow} {db : BookingDb} {c' : CreateCall} (phase : c.phase = .commit row)
      (commits : CreateCommits c row s.db db) (input : c'.input = c.input) (committed : c'.committed = true)
      (later : c.phase.rank < c'.phase.rank) (holds : Bare (.create c')) (ok : CreateOk db c') :
      CreateStep ({ s with db }.goto n (.create c'))

variable {s n c} {s' : BookingCalls}

theorem CreateOk.uncommitted (hc : CreateOk s.db c) (h : c.phase.rank < 7) : c.committed = false := by
  rw [← Bool.not_eq_true]
  intro he
  rcases (hc.committed he).1.2 with hb | hb
  · obtain ⟨b, hb⟩ := hb; simp [hb] at h
  · obtain ⟨r, hr⟩ := hb; simp [hr] at h

theorem step_bare (hc : CreateOk s.db c) (hrank : c.phase.rank < 7) {c' : CreateCall} (input : c'.input = c.input)
    (committed : c'.committed = c.committed) (later : c.phase.rank < c'.phase.rank) (holds : Bare (.create c'))
    (phase : PhaseOk s.db c') : CreateStep s n c (s.goto n (.create c')) := by
  refine .bare input committed later holds ⟨input ▸ hc.schema, phase, fun he => ?_⟩
  rw [committed, hc.uncommitted hrank] at he; cases he

theorem lookup_step (hc : CreateOk s.db c) (hp : c.phase = .lookup) (h : s.advanceCreate n c = some s') :
    CreateStep s n c s' := by
  have hrank : c.phase.rank < 7 := by simp [hp]
  have hok := hc.phase
  unfold PhaseOk at hok
  unfold BookingCalls.advanceCreate at h
  simp only [hp] at h hok
  split at h
  · rename_i existing hf
    obtain rfl := Option.some.inj h
    refine step_bare hc hrank rfl rfl (by simp [hp]) ⟨rfl, rfl, rfl, rfl⟩ ?_
    intro hd key hkey
    change c.key = some key at hkey
    rw [hkey, Option.bind_some] at hf
    exact Or.inl ⟨Or.inl hok, existing, hf, rfl⟩
  · obtain rfl := Option.some.inj h
    exact step_bare hc hrank rfl rfl (by simp [hp]) ⟨rfl, rfl, rfl, rfl⟩ fun _ => rfl

theorem violated_step (hc : CreateOk s.db c) (hrank : c.phase.rank < 5) (hq : c.input.quantity ≤ int4Max)
    {collided : Bool} (hcause : collided = true ∨ ∀ key, c.key = some key →
      ∃ record, s.db.idempotencyKeys.find key = some record) :
    CreateStep s n c (s.goto n (.create (c.violated collided))) := by
  unfold CreateCall.violated
  cases hk : c.key with
  | none =>
    simp only [Option.isSome_none, Bool.false_eq_true, if_false]
    refine step_bare hc (by omega) rfl rfl (by show c.phase.rank < 8; omega) ⟨rfl, rfl, rfl, rfl⟩ ?_
    intro _ key hkey
    exact absurd (hk.symm.trans hkey) (by simp)
  | some key =>
    simp only [Option.isSome_some, if_true]
    refine step_bare hc (by omega) rfl rfl hrank ⟨rfl, rfl, rfl, rfl⟩ ⟨hq, fun hd => ?_⟩
    change (c.disturbed || collided) = false at hd
    rw [Bool.or_eq_false_iff] at hd
    obtain ⟨record, hf⟩ := (hcause.resolve_left (by rw [hd.2]; simp)) key hk
    exact ⟨key, record, hk, hf⟩

theorem insertBooking_step (hd : DbOk s.db) (hc : CreateOk s.db c) (hp : c.phase = .insertBooking)
    (h : s.advanceCreate n c = some s') : CreateStep s n c s' := by
  have hrank : c.phase.rank < 7 := by simp [hp]
  have hok := hc.phase
  unfold PhaseOk at hok
  unfold BookingCalls.advanceCreate at h
  simp only [hp] at h hok
  rcases row_cases hc.schema with hrow | hrow
  · obtain ⟨hq, row, hrow⟩ := hrow
    simp only [hrow] at h
    split at h
    · obtain rfl := Option.some.inj h
      refine violated_step hc (by simp [hp]) hq ?_
      by_cases htaken : (s.db.bookings.rows.any fun r =>
          r.idempotencyKey.isSome && decide (r.idempotencyKey = row.idempotencyKey)) = true
      · right
        intro key hkey
        obtain ⟨r, hr, he⟩ := List.any_eq_true.mp htaken
        rw [Bool.and_eq_true, decide_eq_true_eq, (BookingInsert.stores hrow).idempotencyKey] at he
        have hkey' : truthy r.idempotencyKey = some key := by rw [he.2]; exact hkey
        obtain ⟨record, hf, _⟩ := hd.recorded r hr key hkey'
        exact ⟨record, hf⟩
      · left
        rw [Bool.not_eq_true] at htaken
        rw [htaken]; rfl
    · cases h
    · rename_i hheld
      obtain rfl := Option.some.inj h
      exact .booked hp hrow hheld
  · obtain ⟨hq, hrow⟩ := hrow
    simp only [hrow] at h
    obtain rfl := Option.some.inj h
    refine step_bare hc hrank rfl rfl (by simp [hp]) ⟨rfl, rfl, rfl, rfl⟩ ?_
    intro _ key hkey
    change c.key = some key at hkey
    exact Or.inr ⟨hok (by rw [hkey]; rfl), hq, rfl⟩

theorem row_fits (hc : CreateOk s.db c) {row : BookingRow}
    (hrow : (createBookingData c.input c.draw).row c.draw.now = .ok row) : c.input.quantity ≤ int4Max := by
  rcases row_cases hc.schema with h | h
  · exact h.1
  · rw [h.2] at hrow; cases hrow

theorem insertKey_step (hd : DbOk s.db) (hc : CreateOk s.db c) {row : BookingRow} (hp : c.phase = .insertKey row)
    (hfresh : s.db.bookings.Fresh row) (h : s.advanceCreate n c = some s') : CreateStep s n c s' := by
  have hok := hc.phase
  unfold PhaseOk at hok
  unfold BookingCalls.advanceCreate at h
  simp only [hp] at h hok
  split at h
  · rename_i hnone
    obtain rfl := Option.some.inj h
    exact .recorded hp fun record hr => absurd (hnone.symm.trans hr) (by simp)
  · rename_i record hrecord
    split at h
    · rename_i hviolation
      obtain rfl := Option.some.inj h
      refine violated_step hc (by simp [hp]) (row_fits hc hok) (Or.inr fun key hkey => ?_)
      -- Another record of the row's booking would have a booking with the row's id.
      have hstale := Table.insertAmong_violation hviolation
      rw [Table.fresh_iff] at hstale
      simp only [not_forall, not_not] at hstale
      obtain ⟨x, hx, hclash⟩ := hstale
      unfold CreateCall.keyRow at hrecord
      rw [hkey, Option.map_some, Option.some.injEq] at hrecord
      subst hrecord
      rcases hclash with he | he
      · exact ⟨x, Table.find_eq_some.mpr ⟨hx, he.symm⟩⟩
      · obtain ⟨u, hu, hu'⟩ := he
        obtain ⟨_, r, hr, hid, _⟩ := hd.booked x hx
        have : r.id = row.id := hid.trans ((Option.some.inj hu').trans (Option.some.inj hu).symm)
        exact absurd (List.mem_map.mpr ⟨r, hr, this⟩) hfresh.1
    · cases h
    · rename_i hheld
      obtain rfl := Option.some.inj h
      refine .recorded hp fun record' hr => ?_
      obtain rfl := Option.some.inj (hrecord.symm.trans hr)
      exact hheld

theorem insertOutbox_step (hc : CreateOk s.db c) {row : BookingRow} (hp : c.phase = .insertOutbox row)
    (h : s.advanceCreate n c = some s') : CreateStep s n c s' := by
  have hok := hc.phase
  unfold PhaseOk at hok
  unfold BookingCalls.advanceCreate at h
  simp only [hp] at h hok
  split at h
  · obtain rfl := Option.some.inj h
    exact violated_step hc (by simp [hp]) (row_fits hc hok) (Or.inl rfl)
  · cases h
  · rename_i hheld
    obtain rfl := Option.some.inj h
    exact .queued hp hheld

theorem commit_step (hc : CreateOk s.db c) {row : BookingRow} (hp : c.phase = .commit row)
    (h : s.advanceCreate n c = some s') : CreateStep s n c s' := by
  have hok := hc.phase
  unfold PhaseOk at hok
  unfold BookingCalls.advanceCreate at h
  simp only [hp] at h hok
  obtain ⟨db, hdb, rfl⟩ := Option.map_eq_some_iff.mp h
  have hcommits := commit_eq_some hdb
  have hq := row_fits hc hok
  refine .committed hp hcommits rfl rfl (by simp [hp]) ⟨rfl, rfl, rfl, rfl⟩ ⟨hc.schema, ?_,
    fun _ => ⟨⟨hq, Or.inl ⟨_, rfl⟩⟩, ?_⟩⟩
  · intro _ key hkey
    exact ⟨hq, _, hcommits.find_own hkey, rfl, rfl⟩
  · intro key hkey
    exact ⟨_, hcommits.find_own hkey, rfl⟩

theorem recoverKey_step (hc : CreateOk s.db c) (hp : c.phase = .recoverKey) (h : s.advanceCreate n c = some s') :
    CreateStep s n c s' := by
  have hrank : c.phase.rank < 7 := by simp [hp]
  have hok := hc.phase
  unfold PhaseOk at hok
  unfold BookingCalls.advanceCreate at h
  simp only [hp] at h hok
  split at h
  · rename_i existing hf
    split at h
    · rename_i booking hreplay
      obtain rfl := Option.some.inj h
      refine step_bare hc hrank rfl rfl (by simp [hp]) ⟨rfl, rfl, rfl, rfl⟩ ?_
      intro _ key hkey
      change c.key = some key at hkey
      rw [hkey, Option.bind_some] at hf
      unfold replay at hreplay
      split at hreplay
      · cases hreplay
      · rename_i hfp
        exact ⟨hok.1, existing, hf, not_not.mp hfp, Except.ok.inj hreplay⟩
    · rename_i e hreplay
      obtain rfl := Option.some.inj h
      refine step_bare hc hrank rfl rfl (by simp [hp]) ⟨rfl, rfl, rfl, rfl⟩ ?_
      intro _ key hkey
      change c.key = some key at hkey
      rw [hkey, Option.bind_some] at hf
      exact Or.inl ⟨Or.inr hok.1, existing, hf, hreplay.symm⟩
  · rename_i hnone
    obtain rfl := Option.some.inj h
    refine step_bare hc hrank rfl rfl (by simp [hp]) ⟨rfl, rfl, rfl, rfl⟩ ?_
    show c.disturbed = true
    by_contra hd
    obtain ⟨key, record, hkey, hf⟩ := hok.2 (by simpa using hd)
    rw [hkey, Option.bind_some] at hnone
    exact absurd (hnone.symm.trans hf) (by simp)

theorem recoverBooking_step (hc : CreateOk s.db c) (hp : c.phase = .recoverBooking)
    (h : s.advanceCreate n c = some s') : CreateStep s n c s' := by
  have hrank : c.phase.rank < 7 := by simp [hp]
  have hok := hc.phase
  unfold PhaseOk at hok
  unfold BookingCalls.advanceCreate at h
  simp only [hp] at h hok
  split at h
  all_goals
    obtain rfl := Option.some.inj h
    refine step_bare hc hrank rfl rfl (by simp [hp]) ⟨rfl, rfl, rfl, rfl⟩ fun hd => ?_
    exact absurd (hd.symm.trans hok) (by simp)

theorem dispatch_step (hc : CreateOk s.db c) {booking : BookingDto} (hp : c.phase = .dispatch booking)
    (h : s.advanceCreate n c = some s') : CreateStep s n c s' := by
  have hok := hc.phase
  unfold PhaseOk at hok
  unfold BookingCalls.advanceCreate at h
  simp only [hp] at h hok
  obtain rfl := Option.some.inj h
  refine .bare rfl rfl (by simp [hp]) ⟨rfl, rfl, rfl, rfl⟩ ⟨hc.schema, ?_, fun he =>
    ⟨⟨(hc.committed he).1.1, Or.inr ⟨_, rfl⟩⟩, (hc.committed he).2⟩⟩
  intro hd key hkey
  obtain ⟨hq, record, hf, hfp, hresponse⟩ := hok hd key hkey
  exact Or.inl ⟨Or.inr hq, record, hf, by rw [← hresponse]; exact (replay_own hfp).symm⟩

theorem create_step (hd : DbOk s.db) (hc : CreateOk s.db c)
    (hfresh : ∀ row, (BookingCall.create c).booking = some row → s.db.bookings.Fresh row)
    (h : s.advanceCreate n c = some s') : CreateStep s n c s' := by
  cases hp : c.phase with
  | lookup => exact lookup_step hc hp h
  | insertBooking => exact insertBooking_step hd hc hp h
  | insertKey row => exact insertKey_step hd hc hp (hfresh row (by simp [BookingCall.booking, hp])) h
  | insertOutbox row => exact insertOutbox_step hc hp h
  | commit row => exact commit_step hc hp h
  | recoverKey => exact recoverKey_step hc hp h
  | recoverBooking => exact recoverBooking_step hc hp h
  | dispatch booking => exact dispatch_step hc hp h
  | done reply =>
    unfold BookingCalls.advanceCreate at h
    rw [hp] at h; cases h

theorem fault_step (hc : CreateOk s.db c) (hp : c.phase.rank < 8) :
    CreateStep s n c (s.goto n (.create c.fault)) := by
  refine .bare rfl rfl hp ⟨rfl, rfl, rfl, rfl⟩ ⟨hc.schema, fun hd => (by cases hd), fun he =>
    ⟨⟨(hc.committed he).1.1, Or.inr ⟨_, rfl⟩⟩, ?_⟩⟩
  exact (hc.committed he).2

theorem loseCommit_step (hc : CreateOk s.db c) {row : BookingRow} {db : BookingDb} (hp : c.phase = .commit row)
    (hdb : c.commit row s.db = some db) :
    CreateStep s n c ({ s with db }.goto n (.create { c.fault with committed := true })) := by
  have hcommits := commit_eq_some hdb
  have hok := hc.phase
  unfold PhaseOk at hok
  rw [hp] at hok
  have hq := row_fits hc hok
  refine .committed hp hcommits rfl rfl (by simp [hp, CreateCall.fault]) ⟨rfl, rfl, rfl, rfl⟩
    ⟨hc.schema, fun hd => (by cases hd), fun _ => ⟨⟨hq, Or.inr ⟨_, rfl⟩⟩, fun key hkey => ?_⟩⟩
  exact ⟨_, hcommits.find_own hkey, rfl⟩

end

@[simp] def ChangePhase.rank : ChangePhase → Nat
  | .insertProcessed => 0
  | .update => 1
  | .reread _ => 2
  | .insertOutbox _ => 3
  | .commit _ _ => 4
  | .done => 8

section
variable (s : BookingCalls) (n : Nat) (c : StatusChange) (phase : ChangePhase)

inductive ChangeStep : BookingCalls → Prop
  | ended (later : phase.rank < 8) : ChangeStep (s.goto n (.change c .done))
  | claimed (phase_eq : phase = .insertProcessed)
      (held : ∀ row, c.processedRow = some row →
        s.db.processed.insertAmong (heldByOthers BookingCall.processed s.calls n) row = .held) :
      ChangeStep (s.goto n (.change c .update))
  | moved {phase' : ChangePhase} (later : phase.rank < phase'.rank)
      (processed : (BookingCall.change c phase').processed = (BookingCall.change c phase).processed)
      (outbox : (BookingCall.change c phase').outbox = none) : ChangeStep (s.goto n (.change c phase'))
  | queued {changed : Option Uuid} (phase_eq : phase = .insertOutbox changed)
      (held : s.db.outbox.insertAmong (heldByOthers BookingCall.outbox s.calls n) (c.outbox.row c.now) = .held) :
      ChangeStep (s.goto n (.change c (.commit changed true)))
  | committed {changed : Option Uuid} {queued : Bool} {db : BookingDb} (phase_eq : phase = .commit changed queued)
      (commits : ChangeCommits c changed queued s.db db) : ChangeStep ({ s with db }.goto n (.change c .done))

variable {s n c phase} {s' : BookingCalls}

theorem change_step (h : s.advanceChange n c phase = some s') : ChangeStep s n c phase s' := by
  unfold BookingCalls.advanceChange at h
  cases phase with
  | insertProcessed =>
    simp only at h
    split at h
    · rename_i hnone
      obtain rfl := Option.some.inj h
      exact .claimed rfl fun row hr => absurd (hnone.symm.trans hr) (by simp)
    · rename_i row hrow
      split at h
      · obtain rfl := Option.some.inj h; exact .ended (by simp)
      · cases h
      · rename_i hheld
        obtain rfl := Option.some.inj h
        refine .claimed rfl fun row' hr => ?_
        obtain rfl := Option.some.inj (hrow.symm.trans hr)
        exact hheld
  | update =>
    simp only at h
    split at h
    · obtain rfl := Option.some.inj h; exact .ended (by simp)
    · split at h
      · obtain rfl := Option.some.inj h; exact .moved (by simp) rfl rfl
      · split at h
        · cases h
        · obtain rfl := Option.some.inj h; exact .moved (by simp) rfl rfl
  | reread changed =>
    simp only at h
    split at h
    · obtain rfl := Option.some.inj h; exact .ended (by simp)
    · split at h
      · obtain rfl := Option.some.inj h; exact .moved (by simp) rfl rfl
      · obtain rfl := Option.some.inj h; exact .moved (by simp) rfl rfl
  | insertOutbox changed =>
    simp only at h
    split at h
    · obtain rfl := Option.some.inj h; exact .ended (by simp)
    · cases h
    · rename_i hheld
      obtain rfl := Option.some.inj h
      exact .queued rfl hheld
  | commit changed queued =>
    obtain ⟨db, hdb, rfl⟩ := Option.map_eq_some_iff.mp h
    exact .committed rfl (change_commit_eq_some hdb)
  | done => cases h

end

/-! ## The invariant -/

/-- Every record was committed by a call that asked for it. -/
def Authors (db : BookingDb) (calls : List BookingCall) : Prop :=
  ∀ record ∈ db.idempotencyKeys.rows, ∃ (n : Nat) (c : CreateCall), calls[n]? = some (.create c) ∧
    c.committed = true ∧ c.key = some record.key ∧ c.fingerprint = record.requestFingerprint

theorem Authors.set {db : BookingDb} {calls : List BookingCall} {n : Nat} {call call' : BookingCall}
    (h : Authors db calls) (hn : calls[n]? = some call)
    (hc : ∀ c, call = .create c → ∃ c', call' = .create c' ∧ c'.input = c.input ∧
      (c.committed = true → c'.committed = true)) :
    Authors db (calls.set n call') := by
  intro record hr
  obtain ⟨m, c, hm, hcommitted, hkey, hfp⟩ := h record hr
  by_cases hmn : m = n
  · subst hmn
    obtain ⟨c', rfl, hinput, hkeep⟩ := hc c (Option.some.inj (hn.symm.trans hm))
    refine ⟨m, c', ?_, hkeep hcommitted, ?_, ?_⟩
    · rw [List.getElem?_set_self (List.getElem?_eq_some_iff.mp hm).1]
    · unfold CreateCall.key; rw [hinput]; exact hkey
    · unfold CreateCall.fingerprint; rw [hinput]; exact hfp
  · exact ⟨m, c, by rw [List.getElem?_set_ne (Ne.symm hmn)]; exact hm, hcommitted, hkey, hfp⟩

section
variable [Zod]

structure CallsInv (s : BookingCalls) : Prop where
  db : DbOk s.db
  create : ∀ (n : Nat) c, s.calls[n]? = some (.create c) → CreateOk s.db c
  change : ∀ (n : Nat) c phase, s.calls[n]? = some (.change c phase) → c.outbox.topic ≠ .reserveSeats
  bookings : Exclusive s.db.bookings BookingCall.booking s.calls
  records : Exclusive s.db.idempotencyKeys BookingCall.record s.calls
  outbox : Exclusive s.db.outbox BookingCall.outbox s.calls
  processed : Exclusive s.db.processed BookingCall.processed s.calls
  authors : Authors s.db s.calls

variable {s : BookingCalls} {n : Nat}

theorem create_others {c' : CreateCall} {db : BookingDb} (h : CallsInv s) (hk : KeepsRecords s.db db)
    (hc : CreateOk db c') :
    (∀ (m : Nat) x, (s.calls.set n (.create c'))[m]? = some (.create x) → CreateOk db x) ∧
      ∀ (m : Nat) x phase, (s.calls.set n (.create c'))[m]? = some (.change x phase) →
          x.outbox.topic ≠ .reserveSeats := by
  constructor
  · intro m x hx
    rcases getElem?_set_cases hx with hm | hm
    · cases hm.2; exact hc
    · exact (h.create m x hm.2).mono hk
  · intro m x phase hx
    rcases getElem?_set_cases hx with hm | hm
    · cases hm.2
    · exact h.change m x phase hm.2

theorem CreateCommits.authors {c c' : CreateCall} {row : BookingRow} {db : BookingDb} (h : CallsInv s)
    (hn : s.calls[n]? = some (.create c)) (hcommits : CreateCommits c row s.db db) (hinput : c'.input = c.input)
    (hcommitted : c'.committed = true) : Authors db (s.calls.set n (.create c')) := by
  have hold : Authors s.db (s.calls.set n (.create c')) := by
    refine h.authors.set hn fun x hx => ?_
    cases hx; exact ⟨c', rfl, hinput, fun _ => hcommitted⟩
  intro record hr
  have hrec := hcommits.record
  cases hkr : c.keyRow row with
  | none => rw [hkr] at hrec; exact hold record (Table.insertOption_none hrec ▸ hr)
  | some own =>
    rw [hkr] at hrec
    rw [Table.insert_rows (Table.insertOption_some hrec), List.mem_append, List.mem_singleton] at hr
    rcases hr with hr | rfl
    · exact hold record hr
    · unfold CreateCall.keyRow at hkr
      obtain ⟨key, hkey, rfl⟩ := Option.map_eq_some_iff.mp hkr
      refine ⟨n, c', List.getElem?_set_self (List.getElem?_eq_some_iff.mp hn).1, hcommitted, ?_, ?_⟩
      · unfold CreateCall.key; rw [hinput]; exact hkey
      · unfold CreateCall.fingerprint; rw [hinput]

theorem inv_create {s' : BookingCalls} {c : CreateCall} (h : CallsInv s) (hn : s.calls[n]? = some (.create c))
    (hs : CreateStep s n c s') : CallsInv s' := by
  have hc := h.create n c hn
  have hsame : KeepsRecords s.db s.db := fun _ _ hf => hf
  have hauthors : ∀ c' : CreateCall, c'.input = c.input → c'.committed = c.committed →
      Authors s.db (s.calls.set n (.create c')) := by
    intro c' hinput hcommitted
    refine h.authors.set hn fun x hx => ?_
    cases hx; exact ⟨c', rfl, hinput, fun he => hcommitted.trans he⟩
  cases hs with
  | bare input committed later holds ok =>
    obtain ⟨ho, hx⟩ := create_others h hsame ok
    exact ⟨h.db, ho, hx, h.bookings.release holds.booking, h.records.release holds.record,
      h.outbox.release holds.outbox, h.processed.release holds.processed, hauthors _ input committed⟩
  | @booked row phase row_eq held =>
    have ok : CreateOk s.db { c with phase := .insertKey row } :=
      ⟨hc.schema, row_eq, fun he => absurd (hc.uncommitted (by simp [phase])) (by rw [he]; simp)⟩
    obtain ⟨ho, hx⟩ := create_others h hsame ok
    refine ⟨h.db, ho, hx, h.bookings.hold fun r hr => ?_, h.records.release rfl, h.outbox.release rfl,
      h.processed.release rfl, hauthors _ rfl rfl⟩
    obtain rfl := Option.some.inj hr
    exact held
  | @recorded row phase held =>
    have hrow := hc.phase
    unfold PhaseOk at hrow
    rw [phase] at hrow
    have ok : CreateOk s.db { c with phase := .insertOutbox row } :=
      ⟨hc.schema, hrow, fun he => absurd (hc.uncommitted (by simp [phase])) (by rw [he]; simp)⟩
    obtain ⟨ho, hx⟩ := create_others h hsame ok
    exact ⟨h.db, ho, hx, h.bookings.keep hn (by simp [BookingCall.booking, phase]), h.records.hold held,
      h.outbox.release rfl, h.processed.release rfl, hauthors _ rfl rfl⟩
  | @queued row phase held =>
    have hrow := hc.phase
    unfold PhaseOk at hrow
    rw [phase] at hrow
    have ok : CreateOk s.db { c with phase := .commit row } :=
      ⟨hc.schema, hrow, fun he => absurd (hc.uncommitted (by simp [phase])) (by rw [he]; simp)⟩
    obtain ⟨ho, hx⟩ := create_others h hsame ok
    refine ⟨h.db, ho, hx, h.bookings.keep hn (by simp [BookingCall.booking, phase]),
      h.records.keep hn (by simp [BookingCall.record, phase, CreateCall.keyRow, CreateCall.key,
        CreateCall.fingerprint]),
      h.outbox.hold fun r hr => ?_, h.processed.release rfl, hauthors _ rfl rfl⟩
    obtain rfl := Option.some.inj hr
    exact held
  | @committed row db c' phase commits input committed later holds ok =>
    have hrow := hc.phase
    unfold PhaseOk at hrow
    rw [phase] at hrow
    obtain ⟨ho, hx⟩ := create_others h commits.keeps ok
    refine ⟨h.db.create commits hrow, ho, hx, h.bookings.commit hn holds.booking ?_,
      h.records.commit hn holds.record ?_, h.outbox.commit hn holds.outbox ?_, ?_,
      CreateCommits.authors (s := s) h hn commits input committed⟩
    · simp only [BookingCall.booking, phase]; exact commits.bookings
    · simp only [BookingCall.record, phase]; exact commits.record
    · simp only [BookingCall.outbox, phase]; exact commits.outbox
    · show Exclusive db.processed _ _
      rw [commits.processed]
      exact h.processed.release holds.processed

theorem inv_change {s' : BookingCalls} {c : StatusChange} {phase : ChangePhase} (h : CallsInv s)
    (hn : s.calls[n]? = some (.change c phase)) (hs : ChangeStep s n c phase s') : CallsInv s' := by
  have htopic := h.change n c phase hn
  have hcreate : ∀ phase' (db : BookingDb), KeepsRecords s.db db → ∀ (m : Nat) x,
      (s.calls.set n (.change c phase'))[m]? = some (.create x) → CreateOk db x := by
    intro phase' db hk m x hx
    rcases getElem?_set_cases hx with hm | hm
    · cases hm.2
    · exact (h.create m x hm.2).mono hk
  have hchange : ∀ phase' (m : Nat) x p, (s.calls.set n (.change c phase'))[m]? = some (.change x p) →
      x.outbox.topic ≠ .reserveSeats := by
    intro phase' m x p hx
    rcases getElem?_set_cases hx with hm | hm
    · cases hm.2; exact htopic
    · exact h.change m x p hm.2
  have hauthors : ∀ phase', Authors s.db (s.calls.set n (.change c phase')) :=
    fun phase' => h.authors.set hn fun x hx => (by cases hx)
  have hsame : KeepsRecords s.db s.db := fun _ _ hf => hf
  cases hs with
  | ended later =>
    exact ⟨h.db, hcreate _ _ hsame, hchange _, h.bookings.release rfl, h.records.release rfl, h.outbox.release rfl,
      h.processed.release rfl, hauthors _⟩
  | claimed phase_eq held =>
    exact ⟨h.db, hcreate _ _ hsame, hchange _, h.bookings.release rfl, h.records.release rfl, h.outbox.release rfl,
      h.processed.hold held, hauthors _⟩
  | moved later processed outbox =>
    exact ⟨h.db, hcreate _ _ hsame, hchange _, h.bookings.release rfl, h.records.release rfl,
      h.outbox.release outbox, h.processed.keep hn processed, hauthors _⟩
  | queued phase_eq held =>
    refine ⟨h.db, hcreate _ _ hsame, hchange _, h.bookings.release rfl, h.records.release rfl,
      h.outbox.hold fun r hr => ?_, h.processed.keep hn (by rw [phase_eq]; rfl), hauthors _⟩
    obtain rfl := Option.some.inj hr
    exact held
  | @committed changed queued db phase_eq commits =>
    have hkeys : db.idempotencyKeys = s.db.idempotencyKeys := commits.idempotencyKeys
    refine ⟨h.db.change commits htopic, hcreate _ _ fun k r hf => (hkeys ▸ hf), hchange _, ?_, ?_,
      h.outbox.commit hn rfl ?_, h.processed.commit hn rfl ?_, ?_⟩
    · refine (h.bookings.release rfl).congr fun r => ?_
      show db.bookings.Fresh r ↔ _
      rw [commits.bookings]
      unfold changeStatus; exact Table.fresh_update
    · show Exclusive db.idempotencyKeys _ _
      rw [hkeys]; exact h.records.release rfl
    · rw [phase_eq]; exact commits.outbox
    · rw [phase_eq]; exact commits.processed
    · intro record hr
      change record ∈ db.idempotencyKeys.rows at hr
      rw [hkeys] at hr
      exact hauthors _ record hr

theorem inv_add {call : BookingCall} (h : CallsInv s) (hc : ∀ c, call = .create c → CreateOk s.db c)
    (hx : ∀ c phase, call = .change c phase → c.outbox.topic ≠ .reserveSeats) (holds : Bare call) :
    CallsInv (s.add call) := by
  refine ⟨h.db, ?_, ?_, h.bookings.append holds.booking, h.records.append holds.record,
    h.outbox.append holds.outbox, h.processed.append holds.processed, ?_⟩
  · intro m x hm
    rcases getElem?_append_cases hm with hm | hm
    · exact hc x hm.2.symm
    · exact h.create m x hm.2
  · intro m x phase hm
    rcases getElem?_append_cases hm with hm | hm
    · exact hx x phase hm.2.symm
    · exact h.change m x phase hm.2
  · intro record hr
    obtain ⟨m, c, hm, e⟩ := h.authors record hr
    refine ⟨m, c, ?_, e⟩
    show (s.calls ++ [call])[m]? = _
    rw [List.getElem?_append_left (List.getElem?_eq_some_iff.mp hm).1]; exact hm

theorem begin_ok {input : CreateBookingInput} (draw : Draw) (db : BookingDb)
    (hs : createBookingSchema input = true) :
    CreateOk db (.begin input draw) ∧ Bare (.create (.begin input draw)) := by
  cases hk : truthy input.idempotencyKey with
  | none =>
    refine ⟨⟨hs, ?_, fun he => (by cases he)⟩, ?_⟩
    · have hp : (CreateCall.begin input draw).phase = .insertBooking := by simp [CreateCall.begin, hk]
      have hkey : (CreateCall.begin input draw).key = none := hk
      unfold PhaseOk
      rw [hp]
      simp [hkey]
    · constructor <;> simp [CreateCall.begin, hk, BookingCall.booking, BookingCall.record, BookingCall.outbox,
        BookingCall.processed]
  | some key =>
    refine ⟨⟨hs, ?_, fun he => (by cases he)⟩, ?_⟩
    · have hp : (CreateCall.begin input draw).phase = .lookup := by simp [CreateCall.begin, hk]
      unfold PhaseOk
      rw [hp]; rfl
    · constructor <;> simp [CreateCall.begin, hk, BookingCall.booking, BookingCall.record, BookingCall.outbox,
        BookingCall.processed]

end

inductive CallStep [Zod] (s : BookingCalls) (n : Nat) (s' : BookingCalls) : Prop
  | create {c : CreateCall} (call : s.calls[n]? = some (.create c)) (step : CreateStep s n c s')
  | change {c : StatusChange} {phase : ChangePhase} (call : s.calls[n]? = some (.change c phase))
      (step : ChangeStep s n c phase s')

section
variable [Zod] {s s' : BookingCalls} {n : Nat}

theorem advance_call (h : CallsInv s) (hs : s.advance n = some s') : CallStep s n s' := by
  unfold BookingCalls.advance at hs
  split at hs
  · rename_i c hn
    exact .create hn (create_step h.db (h.create n c hn) (fun row hr => h.bookings.fresh n _ row hn hr) hs)
  · rename_i c phase hn
    exact .change hn (change_step hs)
  · cases hs

theorem fault_call (h : CallsInv s) (hs : s.fault n = some s') : CallStep s n s' := by
  unfold BookingCalls.fault at hs
  split at hs
  · rename_i c hn
    cases hp : c.phase with
    | done reply => simp [hp] at hs
    | _ =>
      simp only [hp, Option.some.injEq] at hs
      subst hs
      exact .create hn (fault_step (h.create n c hn) (by simp [hp]))
  · rename_i c phase hn
    cases hp : phase with
    | done => simp [hp] at hs
    | _ =>
      simp only [hp, Option.some.injEq] at hs
      subst hs
      exact .change hn (.ended (by simp [hp]))
  · cases hs

theorem loseCommit_call (h : CallsInv s) (hs : s.loseCommit n = some s') : CallStep s n s' := by
  unfold BookingCalls.loseCommit at hs
  split at hs
  · rename_i c hn
    split at hs
    · rename_i row hp
      obtain ⟨db, hdb, rfl⟩ := Option.map_eq_some_iff.mp hs
      exact .create hn (loseCommit_step (h.create n c hn) hp hdb)
    · cases hs
  · cases hs

theorem inv_call (h : CallsInv s) (hs : CallStep s n s') : CallsInv s' := by
  cases hs with
  | create hn hs => exact inv_create h hn hs
  | change hn hs => exact inv_change h hn hs

theorem inv_exec {l : CallLabel} (h : CallsInv s) (he : bookingCalls.exec s l = some s') : CallsInv s' := by
  change s.exec l = some s' at he
  have hchange : ∀ (c : StatusChange) (phase : ChangePhase), phase = .insertProcessed ∨ phase = .update →
      c.processed = none ∨ phase = .insertProcessed → c.outbox.topic ≠ .reserveSeats →
      CallsInv (s.add (.change c phase)) := by
    intro c phase hp hc ht
    refine inv_add h (fun x hx => (by cases hx)) (fun x p hx => ?_) ?_
    · cases hx; exact ht
    · rcases hp with rfl | rfl
      · exact ⟨rfl, rfl, rfl, rfl⟩
      · refine ⟨rfl, rfl, rfl, ?_⟩
        have hnone : c.processed = none := hc.resolve_right (by simp)
        simp [BookingCall.processed, StatusChange.processedRow, hnone]
  cases l with
  | createBooking input draw =>
    obtain ⟨hs, rfl⟩ := guard_eq_some.mp he
    obtain ⟨ok, holds⟩ := begin_ok draw s.db hs
    refine inv_add h (fun x hx => ?_) (fun x p hx => (by cases hx)) holds
    cases hx; exact ok
  | cancelBooking id draw =>
    change (if _ then _ else none) = some s' at he
    split at he
    · split at he
      · obtain rfl := Option.some.inj he
        exact hchange _ _ (Or.inr rfl) (Or.inl rfl) (by simp [StatusChange.cancelBooking,
          cancelBookingOutbox, outboxInsert])
      · obtain rfl := Option.some.inj he; exact h
    · cases he
  | handleSeatsReserved message draw =>
    obtain ⟨_, rfl⟩ := guard_eq_some.mp he
    exact hchange _ _ (Or.inl rfl) (Or.inr rfl) (by simp [StatusChange.handleSeatsReserved, outboxInsert])
  | handleSeatReservationFailed message draw =>
    obtain ⟨_, rfl⟩ := guard_eq_some.mp he
    exact hchange _ _ (Or.inl rfl) (Or.inr rfl) (by simp [StatusChange.handleSeatReservationFailed, outboxInsert])
  | advance n => exact inv_call h (advance_call h he)
  | fault n => exact inv_call h (fault_call h he)
  | loseCommit n => exact inv_call h (loseCommit_call h he)
  | bookkeep op =>
    obtain rfl := Option.some.inj he
    exact ⟨h.db.bookkeep op, fun m x hm => (h.create m x hm).mono fun _ _ hf => hf, h.change, h.bookings,
      h.records, h.outbox.congr (fresh_apply op s.db.outbox), h.processed, h.authors⟩

theorem inv_bookingCalls (h : bookingCalls.Reach s) : CallsInv s := by
  refine h.inv (fun s h0 => ?_) fun s l s' _ hi he => inv_exec hi he
  obtain rfl := (show s = BookingCalls.empty from h0)
  refine ⟨dbOk_empty, fun n c hn => ?_, fun n c phase hn => ?_, .nil, .nil, .nil, .nil, fun r hr => (by cases hr)⟩
  · change ([] : List BookingCall)[n]? = _ at hn
    simp at hn
  · change ([] : List BookingCall)[n]? = _ at hn
    simp at hn

end

/-! ## Every call ends -/

def BookingCall.rank : BookingCall → Nat
  | .create c => c.phase.rank
  | .change _ phase => phase.rank

theorem create_rank_le (phase : CreatePhase) : phase.rank ≤ 8 := by
  cases phase <;> simp

theorem change_rank_le (phase : ChangePhase) : phase.rank ≤ 8 := by
  cases phase <;> simp

theorem rank_le (call : BookingCall) : call.rank ≤ 8 := by
  cases call with
  | create c => exact create_rank_le c.phase
  | change c phase => exact change_rank_le phase

def BookingCall.ended : BookingCall → Bool
  | .create c =>
    match c.phase with
    | .done _ => true
    | _ => false
  | .change _ phase => decide (phase = .done)

section
variable {call : BookingCall}

theorem ended_iff : call.ended = true ↔ call.rank = 8 := by
  cases call with
  | create c =>
    unfold BookingCall.ended BookingCall.rank
    cases hp : c.phase <;> simp [hp]
  | change c phase =>
    unfold BookingCall.ended BookingCall.rank
    cases phase <;> simp

theorem booking_rank {row : BookingRow} (h : call.booking = some row) : 2 ≤ call.rank ∧ call.rank ≤ 4 := by
  cases call with
  | create c =>
    unfold BookingCall.booking at h
    unfold BookingCall.rank
    cases hp : c.phase <;> simp [hp] at h ⊢
  | change c phase => cases h

theorem record_rank {record : IdempotencyRow} (h : call.record = some record) : 3 ≤ call.rank ∧ call.rank ≤ 4 := by
  cases call with
  | create c =>
    unfold BookingCall.record at h
    unfold BookingCall.rank
    cases hp : c.phase <;> simp [hp] at h ⊢
  | change c phase => cases h

theorem outbox_rank {row : OutboxRow} (h : call.outbox = some row) : call.rank = 4 := by
  cases call with
  | create c =>
    unfold BookingCall.outbox at h
    unfold BookingCall.rank
    cases hp : c.phase <;> simp [hp] at h ⊢
  | change c phase =>
    unfold BookingCall.outbox at h
    unfold BookingCall.rank
    cases phase <;> simp at h ⊢

theorem processed_rank {row : ProcessedRow} (h : call.processed = some row) : 1 ≤ call.rank ∧ call.rank ≤ 4 := by
  cases call with
  | create c => cases h
  | change c phase =>
    unfold BookingCall.processed at h
    unfold BookingCall.rank
    cases phase <;> simp at h ⊢

theorem changes_rank {id : Uuid} (h : call.changes = some id) : 2 ≤ call.rank ∧ call.rank ≤ 4 := by
  cases call with
  | create c => cases h
  | change c phase =>
    unfold BookingCall.changes at h
    unfold BookingCall.rank
    cases phase <;> simp at h ⊢

/-- A call that waits for the rows of another waits for one that is further on. -/
theorem waits_ahead {ρ : Type} {held : BookingCall → Option ρ} {calls : List BookingCall} {n : Nat} {r : ρ}
    (hr : r ∈ heldByOthers held calls n) (hrank : ∀ x, held x = some r → call.rank < x.rank ∧ x.rank ≤ 4) :
    ∃ (m : Nat) (call' : BookingCall), calls[m]? = some call' ∧ call.rank < call'.rank ∧ call'.rank < 8 := by
  obtain ⟨m, x, _, hm, hx⟩ := mem_heldByOthers.mp hr
  have := hrank x hx
  exact ⟨m, x, hm, this.1, by omega⟩

end

section
variable [Zod] {s s' : BookingCalls} {n : Nat}

theorem call_rank (hs : CallStep s n s') : ∃ call call', s.calls[n]? = some call ∧ s'.calls = s.calls.set n call' ∧
    call.rank < call'.rank := by
  cases hs with
  | create hn hs =>
    cases hs with
    | bare input committed later holds ok => exact ⟨_, _, hn, rfl, later⟩
    | booked phase row_eq held => exact ⟨_, _, hn, rfl, by simp [BookingCall.rank, phase]⟩
    | recorded phase held => exact ⟨_, _, hn, rfl, by simp [BookingCall.rank, phase]⟩
    | queued phase held => exact ⟨_, _, hn, rfl, by simp [BookingCall.rank, phase]⟩
    | committed phase commits input committed later holds ok => exact ⟨_, _, hn, rfl, later⟩
  | change hn hs =>
    cases hs with
    | ended later => exact ⟨_, _, hn, rfl, later⟩
    | claimed phase_eq held => exact ⟨_, _, hn, rfl, by simp [BookingCall.rank, phase_eq]⟩
    | moved later processed outbox => exact ⟨_, _, hn, rfl, later⟩
    | queued phase_eq held => exact ⟨_, _, hn, rfl, by simp [BookingCall.rank, phase_eq]⟩
    | committed phase_eq commits => exact ⟨_, _, hn, rfl, by simp [BookingCall.rank, phase_eq]⟩

theorem blocked_create (h : CallsInv s) {c : CreateCall} (hn : s.calls[n]? = some (.create c))
    (hrank : c.phase.rank < 8) (hb : s.advanceCreate n c = none) :
    ∃ (m : Nat) (call' : BookingCall), s.calls[m]? = some call' ∧
      (BookingCall.create c).rank < call'.rank ∧ call'.rank < 8 := by
  have hphase : (BookingCall.create c).rank = c.phase.rank := rfl
  unfold BookingCalls.advanceCreate at hb
  cases hp : c.phase with
  | insertBooking =>
    simp only [hp] at hb
    split at hb
    · cases hb
    · split at hb
      · cases hb
      · rename_i hwait
        obtain ⟨x, hx, _⟩ := Table.insertAmong_wait hwait
        refine waits_ahead hx fun y hy => ?_
        have := booking_rank hy
        simp only [hphase, hp, CreatePhase.rank]
        omega
      · cases hb
  | insertKey row =>
    simp only [hp] at hb
    split at hb
    · cases hb
    · split at hb
      · cases hb
      · rename_i hwait
        obtain ⟨x, hx, _⟩ := Table.insertAmong_wait hwait
        refine waits_ahead hx fun y hy => ?_
        have := record_rank hy
        simp only [hphase, hp, CreatePhase.rank]
        omega
      · cases hb
  | insertOutbox row =>
    simp only [hp] at hb
    split at hb
    · cases hb
    · rename_i hwait
      obtain ⟨x, hx, _⟩ := Table.insertAmong_wait hwait
      refine waits_ahead hx fun y hy => ?_
      have := outbox_rank hy
      simp only [hphase, hp, CreatePhase.rank]
      omega
    · cases hb
  | commit row =>
    simp only [hp, Option.map_eq_none_iff] at hb
    obtain ⟨bookings, h1⟩ := h.bookings.insertable hn
    obtain ⟨records, h2⟩ := h.records.insertable hn
    obtain ⟨outbox, h3⟩ := h.outbox.insertable hn
    simp only [BookingCall.booking, BookingCall.record, BookingCall.outbox, hp] at h1 h2 h3
    have h1' : s.db.bookings.insert row = some bookings := h1
    have h3' : s.db.outbox.insert c.outboxRow = some outbox := h3
    unfold CreateCall.commit at hb
    rw [h1', h2, h3'] at hb
    cases hb
  | lookup => simp only [hp] at hb; split at hb <;> cases hb
  | recoverKey =>
    simp only [hp] at hb
    split at hb
    · split at hb <;> cases hb
    · cases hb
  | recoverBooking => simp only [hp] at hb; split at hb <;> cases hb
  | dispatch booking => simp only [hp] at hb; cases hb
  | done reply => rw [hp] at hrank; exact absurd hrank (by simp)

theorem blocked_change (h : CallsInv s) {c : StatusChange} {phase : ChangePhase}
    (hn : s.calls[n]? = some (.change c phase)) (hrank : phase.rank < 8) (hb : s.advanceChange n c phase = none) :
    ∃ (m : Nat) (call' : BookingCall), s.calls[m]? = some call' ∧
      (BookingCall.change c phase).rank < call'.rank ∧ call'.rank < 8 := by
  unfold BookingCalls.advanceChange at hb
  cases phase with
  | insertProcessed =>
    simp only at hb
    split at hb
    · cases hb
    · split at hb
      · cases hb
      · rename_i hwait
        obtain ⟨x, hx, _⟩ := Table.insertAmong_wait hwait
        refine waits_ahead hx fun y hy => ?_
        have := processed_rank hy
        simp only [BookingCall.rank, ChangePhase.rank]
        exact ⟨this.1, this.2⟩
      · cases hb
  | update =>
    simp only at hb
    split at hb
    · cases hb
    · split at hb
      · cases hb
      · split at hb
        · rename_i hlocked
          refine waits_ahead (List.contains_iff_mem.mp hlocked) fun y hy => ?_
          have := changes_rank hy
          simp only [BookingCall.rank, ChangePhase.rank]
          exact ⟨this.1, this.2⟩
        · cases hb
  | reread changed =>
    simp only at hb
    split at hb
    · cases hb
    · split at hb <;> cases hb
  | insertOutbox changed =>
    simp only at hb
    split at hb
    · cases hb
    · rename_i hwait
      obtain ⟨x, hx, _⟩ := Table.insertAmong_wait hwait
      refine waits_ahead hx fun y hy => ?_
      have := outbox_rank hy
      rw [this]
      exact ⟨by simp [BookingCall.rank], Nat.le_refl _⟩
    · cases hb
  | commit changed queued =>
    simp only [Option.map_eq_none_iff] at hb
    obtain ⟨processed, h1⟩ := h.processed.insertable hn
    obtain ⟨outbox, h2⟩ := h.outbox.insertable hn
    simp only [BookingCall.processed, BookingCall.outbox] at h1 h2
    unfold StatusChange.commit at hb
    rw [h1, h2] at hb
    cases hb
  | done => exact absurd hrank (by simp)

theorem some_call_advances (h : CallsInv s) {k : Nat} {call : BookingCall} (hn : s.calls[k]? = some call)
    (hrank : call.rank < 8) :
    ∃ m s', s.advance m = some s' := by
  cases ha : s.advance k with
  | some s' => exact ⟨k, s', ha⟩
  | none =>
    have hblocked : ∃ (m : Nat) (call' : BookingCall), s.calls[m]? = some call' ∧ call.rank < call'.rank ∧
        call'.rank < 8 := by
      unfold BookingCalls.advance at ha
      rw [hn] at ha
      cases call with
      | create c => exact blocked_create h hn hrank ha
      | change c phase => exact blocked_change h hn hrank ha
    obtain ⟨m, call', hm, hlt, hrank'⟩ := hblocked
    exact some_call_advances h hm hrank'
termination_by 8 - call.rank

def CallLabel.advances : CallLabel → Bool
  | .advance _ => true
  | _ => false

theorem all_calls_end (h : CallsInv s) : ∃ ls s', (∀ l ∈ ls, l.advances = true) ∧ bookingCalls.run s ls = some s' ∧
    ∀ call ∈ s'.calls, call.ended = true := by
  refine Machine.finishes (fun s => (s.calls.map fun call => 8 - call.rank).sum)
    (I := CallsInv) (fun s hi hd => ?_) h
  have hopen : ∃ call ∈ s.calls, call.rank < 8 := by
    by_contra hno
    refine hd fun call hc => ended_iff.mpr ?_
    by_contra hne
    have := rank_le call
    exact hno ⟨call, hc, by omega⟩
  obtain ⟨call, hc, hrank⟩ := hopen
  obtain ⟨n, hn⟩ := List.getElem?_of_mem hc
  obtain ⟨m, s', hs⟩ := some_call_advances hi hn hrank
  have hstep := advance_call hi hs
  obtain ⟨x, x', hm, hcalls, hlt⟩ := call_rank hstep
  refine ⟨.advance m, s', rfl, hs, inv_call hi hstep, ?_⟩
  have := rank_le x'
  simp only [hcalls]
  exact sum_set_lt hm (by omega)

/-! ## Exactly one booking -/

/-- The reply is the stored response for the stored request, and the refusal of any other. -/
def AnsweredFromRecord (s : BookingCalls) (k : String) (c : CreateCall)
    (reply : Except ServiceError BookingDto) : Prop :=
  ∃ record, s.db.idempotencyKeys.find k = some record ∧
    (record.requestFingerprint = c.fingerprint → reply = .ok record.response) ∧
    (record.requestFingerprint ≠ c.fingerprint →
      reply = .error (.app BookingErrors.idempotencyKeyReused) ∧ c.committed = false)

structure ExactlyOnce (s : BookingCalls) (k : String) : Prop where
  one_booking : (s.db.bookings.rows.filter fun r => decide (r.idempotencyKey = some k)).length ≤ 1
  linked : ∀ id, (∃ record, s.db.idempotencyKeys.find k = some record ∧ record.bookingId = id) ↔
    ∃ r ∈ s.db.bookings.rows, r.idempotencyKey = some k ∧ r.id = id
  one_request : ∀ r ∈ s.db.bookings.rows, r.idempotencyKey = some k →
    ((contents s.db.outbox).filter (requests r.id)).length = 1
  answered : ∀ (n : Nat) c reply, s.calls[n]? = some (.create c) → c.input.idempotencyKey = some k →
    c.phase = .done reply → c.disturbed = false →
    (AnsweredFromRecord s k c reply ↔ ¬ (c.missed = true ∧ int4Max < c.input.quantity))
  author : ∀ record, s.db.idempotencyKeys.find k = some record → ∃ (n : Nat) (c : CreateCall),
    s.calls[n]? = some (.create c) ∧ c.input.idempotencyKey = some k ∧ c.committed = true ∧
    c.fingerprint = record.requestFingerprint ∧
    ∀ reply, c.phase = .done reply → c.disturbed = false → reply = .ok record.response
  no_fallback : ∀ (n : Nat) c, s.calls[n]? = some (.create c) → c.phase = .recoverBooking → c.disturbed = true

theorem answered_iff (h : CallsInv s) {c : CreateCall} {k : String} {reply : Except ServiceError BookingDto}
    (hn : s.calls[n]? = some (.create c)) (hkey : c.key = some k) (hp : c.phase = .done reply)
    (hd : c.disturbed = false) :
    AnsweredFromRecord s k c reply ↔ ¬ (c.missed = true ∧ int4Max < c.input.quantity) := by
  have hc := h.create n c hn
  have hok := hc.phase
  unfold PhaseOk at hok
  rw [hp] at hok
  rcases hok hd k hkey with hok | hok
  · obtain ⟨hfit, record, hf, hreply⟩ := hok
    refine iff_of_true ⟨record, hf, fun hfp => ?_, fun hfp => ⟨?_, ?_⟩⟩ ?_
    · rw [hreply]; exact replay_own hfp
    · rw [hreply]; exact replay_other hfp
    · rw [← Bool.not_eq_true]
      intro he
      obtain ⟨record', hf', hfp'⟩ := (hc.committed he).2 k hkey
      obtain rfl := Option.some.inj (hf.symm.trans hf')
      exact hfp hfp'
    · intro hm
      rcases hfit with hfit | hfit
      · rw [hm.1] at hfit; cases hfit
      · omega
  · obtain ⟨hm, hq, hreply⟩ := hok
    refine iff_of_false (fun ha => ?_) (not_not.mpr ⟨hm, hq⟩)
    obtain ⟨record, _, hsame, hother⟩ := ha
    by_cases hfp : record.requestFingerprint = c.fingerprint
    · have := hsame hfp
      rw [hreply] at this; cases this
    · have := (hother hfp).1
      rw [hreply] at this; cases this

theorem exactlyOnce_of_inv (h : CallsInv s) {k : String} (hk : k ≠ "") : ExactlyOnce s k where
  one_booking := s.db.bookings.filter_unique_length k
  linked := linked_iff h.db hk
  one_request r hr _ := h.db.requested r hr
  answered n c reply hn hkey hp hd := answered_iff h hn (truthy_eq_some.mpr ⟨hkey, hk⟩) hp hd
  author record hf := by
    obtain ⟨hm, rfl⟩ := Table.find_eq_some.mp hf
    obtain ⟨n, c, hn, hcommitted, hkey, hfp⟩ := h.authors record hm
    refine ⟨n, c, hn, (truthy_eq_some.mp hkey).1, hcommitted, hfp, fun reply hp hd => ?_⟩
    have hok := (h.create n c hn).phase
    unfold PhaseOk at hok
    rw [hp] at hok
    obtain ⟨record', hf', hfp'⟩ := ((h.create n c hn).committed hcommitted).2 _ hkey
    obtain rfl := Option.some.inj (hf.symm.trans hf')
    rcases hok hd _ hkey with hok | hok
    · obtain ⟨_, record', hf', hreply⟩ := hok
      obtain rfl := Option.some.inj (hf.symm.trans hf')
      rw [hreply]; exact replay_own hfp.symm
    · have := ((h.create n c hn).committed hcommitted).1.1
      omega
  no_fallback n c hn hp := by
    have hok := (h.create n c hn).phase
    unfold PhaseOk at hok
    rw [hp] at hok
    exact hok

def CallLabel.call : CallLabel → Option Nat
  | .advance n | .fault n | .loseCommit n => some n
  | _ => none

theorem call_exec {l : CallLabel} (h : CallsInv s) (hl : l.call = some n) (he : bookingCalls.exec s l = some s') :
    CallStep s n s' := by
  change s.exec l = some s' at he
  cases l with
  | advance m => obtain rfl := Option.some.inj hl; exact advance_call h he
  | fault m => obtain rfl := Option.some.inj hl; exact fault_call h he
  | loseCommit m => obtain rfl := Option.some.inj hl; exact loseCommit_call h he
  | _ => cases hl

/-- A `createBooking` changes the database in the step that commits it, and in no other. -/
theorem uncommitted_writes_nothing (h : CallsInv s) {c c' : CreateCall} {l : CallLabel} (hl : l.call = some n)
    (hn : s.calls[n]? = some (.create c)) (he : bookingCalls.exec s l = some s')
    (hn' : s'.calls[n]? = some (.create c')) (hc' : c'.committed = false) : s'.db = s.db := by
  cases call_exec h hl he with
  | change hx hs => rw [hn] at hx; cases hx
  | create hx hs =>
    cases hs with
    | committed phase commits input committed later holds ok =>
      change (s.calls.set n _)[n]? = _ at hn'
      rw [List.getElem?_set_self (List.getElem?_eq_some_iff.mp hn).1] at hn'
      cases hn'
      rw [committed] at hc'; cases hc'
    | _ => rfl

/-- In every state that concurrent calls reach, a key has one booking, one
record and one request. A call with the key is answered from the record, unless
it found no record and asks for more than the quantity column holds. -/
theorem idempotency_key_exactly_once (h : bookingCalls.Reach s) {k : String} (hk : k ≠ "") :
    ExactlyOnce s k ∧
    (∀ (n : Nat) c c' l s', l.call = some n → s.calls[n]? = some (.create c) → bookingCalls.exec s l = some s' →
      s'.calls[n]? = some (.create c') → c'.committed = false → s'.db = s.db) ∧
    ∃ ls s', (∀ l ∈ ls, l.advances = true) ∧ bookingCalls.run s ls = some s' ∧
      ∀ call ∈ s'.calls, call.ended = true := by
  have hi := inv_bookingCalls h
  refine ⟨exactlyOnce_of_inv hi hk, ?_, all_calls_end hi⟩
  intro n c c' l s' hl hn he hn' hc'
  exact uncommitted_writes_nothing hi hl hn he hn' hc'

end

/-! ## Sample calls -/

def sampleBookingInput (quantity : Int) : CreateBookingInput := ⟨sampleText 7, sampleText 1, quantity, some "k"⟩

def sameRequestTwice : List CallLabel :=
  [.createBooking (sampleBookingInput 2) (sampleDraw 2 3 4 0 0),
    .createBooking (sampleBookingInput 2) (sampleDraw 5 6 8 0 0),
    .advance 0, .advance 1, .advance 0, .advance 0, .advance 0, .advance 0, .advance 1, .advance 1,
      .advance 0, .advance 1]

def largeRequestFirst : List CallLabel :=
  [.createBooking (sampleBookingInput 3000000000) (sampleDraw 2 3 4 0 0),
    .createBooking (sampleBookingInput 1) (sampleDraw 5 6 8 0 0),
    .advance 0, .advance 1, .advance 1, .advance 1, .advance 1, .advance 1, .advance 1, .advance 0]

def repliedBooking : BookingCall → Option String
  | .create c =>
    match c.phase with
    | .done (.ok booking) => some booking.id
    | _ => none
  | .change _ _ => none

theorem same_request_twice_booked_once :
    ∃ s, (@bookingCalls zod4).run BookingCalls.empty sameRequestTwice = some s ∧
    s.calls.map repliedBooking = [some (sampleText 2), some (sampleText 2)] ∧ ExactlyOnce s "k" := by
  have h : ((@bookingCalls zod4).run BookingCalls.empty sameRequestTwice).map (fun s =>
    s.calls.map repliedBooking) =
      some [some (sampleText 2), some (sampleText 2)] := by
    decide +kernel
  obtain ⟨s, hs, hview⟩ := Option.map_eq_some_iff.mp h
  exact ⟨s, hs, hview, (@idempotency_key_exactly_once zod4 s (Machine.Reach.run (.start rfl) hs) "k" (by decide)).1⟩

def largeRequestRefused : CreateCall :=
  ⟨sampleBookingInput 3000000000, sampleDraw 2 3 4 0 0, .done (.error (.db .outOfRange)), true, false, false⟩

/-- The key is taken by another request, yet the large request is not refused
as a reuse of it: the database rejects its quantity. -/
theorem large_request_not_refused_as_reuse : ∃ s reply,
    (@bookingCalls zod4).run BookingCalls.empty largeRequestFirst = some s ∧
    s.calls[0]? = some (.create largeRequestRefused) ∧ largeRequestRefused.phase = .done reply ∧
    (s.db.idempotencyKeys.find "k").isSome ∧ ¬ AnsweredFromRecord s "k" largeRequestRefused reply := by
  have h : ((@bookingCalls zod4).run BookingCalls.empty largeRequestFirst).map
      (fun s => (s.calls[0]?, (s.db.idempotencyKeys.find "k").isSome)) =
      some (some (.create largeRequestRefused), true) := by
    decide +kernel
  obtain ⟨s, hs, hview⟩ := Option.map_eq_some_iff.mp h
  refine ⟨s, _, hs, congrArg Prod.fst hview, rfl, congrArg Prod.snd hview, fun ha => ?_⟩
  obtain ⟨record, _, hsame, hother⟩ := ha
  by_cases hfp : record.requestFingerprint = largeRequestRefused.fingerprint
  · have := hsame hfp
    cases this
  · have := (hother hfp).1
    cases this

end EventBooking
