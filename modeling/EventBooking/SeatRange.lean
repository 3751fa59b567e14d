import EventBooking.SeatLedger
import EventBooking.Idempotency

/-!
# Quantities and the columns that hold them

The schemas admit every positive safe integer and any text, the columns hold 32
bits and text without U+0000. For each operation that binds a quantity or a
total: without a fault it ends in one of its declared results exactly when what
it binds and adds up fits the columns.
-/

namespace EventBooking

open Lib

/-- A reply the operation declares, or the collision of an identifier that was not fresh. -/
inductive Ends {α : Type} (fresh : Prop) : Except ServiceError α → Prop
  | returned (a : α) : Ends fresh (.ok a)
  | refused (e : AppError) : Ends fresh (.error (.app e))
  | collided : ¬ fresh → Ends fresh (.error (.db .uniqueViolation))

theorem ends_iff {α : Type} {r : Except ServiceError α} {fresh fits : Prop}
    (hin : fits → ∀ e, r = .error (.db e) → e = .uniqueViolation ∧ ¬ fresh)
    (hout : ¬ fits → ∃ e, r = .error (.db e) ∧ e ≠ .uniqueViolation) : Ends fresh r ↔ fits := by
  constructor
  · intro h
    by_contra hf
    obtain ⟨e, he, hne⟩ := hout hf
    rw [he] at h
    cases h with
    | collided _ => exact hne rfl
  · intro hf
    cases hr : r with
    | ok a => exact .returned a
    | error e =>
      cases e with
      | app e => exact .refused e
      | db e =>
        obtain ⟨rfl, hc⟩ := hin hf e hr
        exact .collided hc

/-- What a handler without replies of its own passes on. -/
def dbReply {α : Type} (r : Except DbError α) : Except ServiceError α := r.mapError .db

theorem dbReply_error {α : Type} {r : Except DbError α} {e : DbError} :
    dbReply r = .error (.db e) ↔ r = .error e := by
  cases r with
  | ok a => exact ⟨fun h => (by cases h), fun h => (by cases h)⟩
  | error e' =>
    constructor
    · intro h; cases h; rfl
    · intro h; cases h; rfl

/-! ## The statements -/

theorem int4_error {n : Int} (hn : 0 < n) {e : DbError} : int4 n = .error e ↔ e = .outOfRange ∧ int4Max < n := by
  unfold int4 int4Max
  split
  · rename_i h
    exact ⟨fun h' => (by cases h'), fun h' => by omega⟩
  · rename_i h
    constructor
    · intro h'; exact ⟨(Except.error.inj h').symm, by omega⟩
    · intro h'; rw [h'.1]

theorem findUnique_ok {δ ρ υ : Type} {S : Schema ρ Uuid υ} {table : δ → Table S} {id : String} {u : Uuid}
    (hid : Uuid.cast id = .ok u) (d : δ) : findUnique table id d = .ok ((table d).find u, d) := by
  unfold findUnique
  rw [hid]; rfl

theorem eventUpdate_error {id : String} {u : Uuid} (hid : Uuid.cast id = .ok u)
    {set : EventRow → Except DbError (Option EventRow)} {db : EventDb} {e : DbError} :
    eventUpdate id set db = .error e ↔ ∃ row ∈ db.events.rows, row.id = u ∧ set row = .error e := by
  unfold eventUpdate
  rw [except_bind_error]
  constructor
  · intro hx
    rcases hx with h | ⟨v, hv, h⟩
    · rw [hid] at h; cases h
    · obtain rfl := Except.ok.inj (hid.symm.trans hv)
      split at h
      · cases h
      · rename_i row hf
        obtain ⟨hrow, hu⟩ := Table.find_eq_some.mp hf
        rcases except_bind_error.mp h with h | ⟨o, _, h⟩
        · exact ⟨row, hrow, hu, h⟩
        · cases o <;> cases h
  · intro hx
    obtain ⟨row, hrow, hu, h⟩ := hx
    refine .inr ⟨u, hid, ?_⟩
    rw [Table.find_eq_some.mpr ⟨hrow, hu⟩]
    exact except_bind_error.mpr (.inl h)

theorem reseat_error {seats : Seats → Except DbError (Option Seats)} {now : Date} {row : EventRow} {e : DbError} :
    reseat seats now row = .error e ↔ seats row.seats = .error e := by
  unfold reseat
  rw [except_bind_error]
  exact ⟨fun h => h.elim id fun ⟨_, _, h⟩ => (by cases h), fun h => .inl h⟩

section
variable {s : Seats} {q : Int} {e : DbError}

theorem reserve_no_error (hq : 0 < q) : s.reserve q ≠ .error e := by
  have := s.available_not_above_total
  by_cases h : q ≤ s.available
  · have hok := reserve_eq_ok.mpr (.inl ⟨h,
      ⟨s.total, s.available - q, s.total_int4, s.total_positive, by omega, by omega⟩, rfl, rfl, rfl⟩)
    rw [hok]; exact fun h => by cases h
  · rw [reserve_eq_ok.mpr (.inr ⟨by omega, rfl⟩)]; exact fun h => by cases h

theorem release_error (hq : 0 < q) : s.release q = .error e ↔ e = .outOfRange ∧ int4Max < s.available + q := by
  have h0 := s.available_nonnegative
  unfold Seats.release
  rw [except_bind_error, int4_error (by omega)]
  constructor
  · intro hx
    rcases hx with h | ⟨a, ha, h⟩
    · exact h
    · obtain ⟨rfl, _, _⟩ := int4_eq_ok.mp ha
      have hok : s.release q ≠ .error e := by
        by_cases hle : s.available + q ≤ s.total
        · rw [release_eq_ok.mpr (.inl ⟨hle,
            ⟨s.total, s.available + q, s.total_int4, s.total_positive, by omega, hle⟩, rfl, rfl, rfl⟩)]
          exact fun h => by cases h
        · rw [release_eq_ok.mpr (.inr ⟨by omega, by omega, rfl⟩)]; exact fun h => by cases h
      unfold Seats.release at hok
      rw [ha] at hok
      exact absurd h hok
  · intro h; exact .inl h

theorem rebase_no_error (hq : 0 < q) (hfit : q ≤ int4Max) : s.rebase q ≠ .error e := by
  have h0 : 0 ≤ s.reserved := by unfold Seats.reserved; have := s.available_not_above_total; omega
  by_cases h : s.reserved ≤ q
  · rw [rebase_eq_ok.mpr (.inl ⟨h, ⟨q, q - s.reserved, hfit, hq, by omega, by omega⟩, rfl, rfl, by
      show q - (q - s.reserved) = s.reserved; omega⟩)]
    exact fun h => by cases h
  · rw [rebase_eq_ok.mpr (.inr ⟨by omega, rfl⟩)]; exact fun h => by cases h

end

section
variable {id : String} {u : Uuid} (hid : Uuid.cast id = .ok u) {q : Int} (hq : 0 < q) {now : Date}
    {db : EventDb} {e : DbError}
include hid hq

theorem reserveStatement_error : reserveStatement id q now db = .error e ↔ e = .outOfRange ∧ int4Max < q := by
  unfold reserveStatement
  rw [except_bind_error, int4_error hq]
  constructor
  · intro hx
    rcases hx with h | ⟨q', hq', h⟩
    · exact h
    · obtain ⟨rfl, _, _⟩ := int4_eq_ok.mp hq'
      obtain ⟨row, _, _, h⟩ := (eventUpdate_error hid).mp h
      exact absurd (reseat_error.mp h) (reserve_no_error hq)
  · intro h; exact .inl h

theorem releaseStatement_error : releaseStatement id q now db = .error e ↔ e = .outOfRange ∧
    (int4Max < q ∨ ∃ row ∈ db.events.rows, row.id = u ∧ int4Max < row.seats.available + q) := by
  unfold releaseStatement
  rw [except_bind_error, int4_error hq]
  constructor
  · intro hx
    rcases hx with h | ⟨q', hq', h⟩
    · exact ⟨h.1, .inl h.2⟩
    · obtain ⟨rfl, _, _⟩ := int4_eq_ok.mp hq'
      obtain ⟨row, hrow, hu, h⟩ := (eventUpdate_error hid).mp h
      obtain ⟨he, hov⟩ := (release_error hq).mp (reseat_error.mp h)
      exact ⟨he, .inr ⟨row, hrow, hu, hov⟩⟩
  · intro hx
    obtain ⟨rfl, h⟩ := hx
    by_cases hfit : int4Max < q
    · exact .inl ⟨rfl, hfit⟩
    · rcases h with h | ⟨row, hrow, hu, hov⟩
      · exact absurd h hfit
      · refine .inr ⟨q, int4_eq_ok.mpr ⟨rfl, by omega, Int.not_lt.mp hfit⟩, ?_⟩
        exact (eventUpdate_error hid).mpr ⟨row, hrow, hu, reseat_error.mpr ((release_error hq).mpr ⟨rfl, hov⟩)⟩

end

theorem updateStatement_error {id : String} {u : Uuid} (hid : Uuid.cast id = .ok u) {input : EventInput}
    (hq : 0 < input.totalSeats) {now : Date} {db : EventDb} {e : DbError} :
    updateStatement id input now db = .error e ↔ e = .invalidByteSequence ∧ storableText input.title = false ∨
      e = .outOfRange ∧ storableText input.title = true ∧ int4Max < input.totalSeats := by
  unfold updateStatement
  rw [except_bind_error, text_error]
  refine or_congr_right ?_
  constructor
  · intro h
    obtain ⟨title, htitle, h⟩ := h
    rcases except_bind_error.mp h with h | ⟨q, hq', h⟩
    · obtain ⟨he, hov⟩ := (int4_error hq).mp h
      exact ⟨he, (text_eq_ok.mp htitle).2, hov⟩
    · obtain ⟨rfl, _, hfit⟩ := int4_eq_ok.mp hq'
      obtain ⟨row, _, _, h⟩ := (eventUpdate_error hid).mp h
      rcases except_bind_error.mp h with h | ⟨_, _, h⟩
      · exact absurd (reseat_error.mp h) (rebase_no_error hq hfit)
      · cases h
  · intro h
    obtain ⟨rfl, htitle, hov⟩ := h
    exact ⟨input.title, text_eq_ok.mpr ⟨rfl, htitle⟩, except_bind_error.mpr (.inl ((int4_error hq).mpr ⟨rfl, hov⟩))⟩

theorem check_fits {q : Int} (hq : 0 < q) :
    (q ≤ int4Max ∧ ∃ s, Seats.check q q = .ok s) ∨ (int4Max < q ∧ Seats.check q q = .error .outOfRange) := by
  by_cases h : q ≤ int4Max
  · exact .inl ⟨h, ⟨q, q, h, hq, Int.le_of_lt hq, Int.le_refl q⟩, check_eq_ok.mpr ⟨rfl, rfl⟩⟩
  · refine .inr ⟨Int.not_le.mp h, ?_⟩
    unfold Seats.check
    exact dif_neg fun hc => h hc.1

theorem autocommit_error {δ α : Type} {f : δ → Except DbError (α × δ)} {d : δ} {e : DbError} :
    (autocommit f d).1 = .error e ↔ f d = .error e := by
  unfold autocommit
  cases f d with
  | ok p => exact ⟨fun h => (by cases h), fun h => (by cases h)⟩
  | error e' => exact ⟨fun h => congrArg _ (Except.error.inj h), fun h => congrArg _ (Except.error.inj h)⟩

theorem inboxed_fails {δ ρ κ υ β : Type} {S : Schema ρ κ υ} [DecidableEq κ] [DecidableEq υ] {table : δ → Table S}
    {set : δ → Table S → δ} {r : ρ} {dup : β} {k : Unit → Tx δ β} (hk : ∀ a, Tx.Regular (k a)) {d : δ}
    {e : DbError} :
    dbReply (Tx.transact (Tx.tryInsert (Tx.stmt (insertInto table set r ())) dup k) none d).1 = .error (.db e) ↔
      ∃ t, (table d).insert r = some t ∧ Tx.Fails (k ()) (set d t) e := by
  rw [dbReply_error, Tx.transact_tryInsert_fails hk, Tx.fails_tryInsert, insertInto_error]
  constructor
  · intro h
    rcases h with ⟨⟨he, _⟩, hne⟩ | ⟨a, m, hm, hf⟩
    · exact absurd he hne
    · obtain ⟨_, t, ht, rfl⟩ := insertInto_eq_ok.mp hm
      exact ⟨t, ht, hf⟩
  · intro h
    obtain ⟨t, ht, hf⟩ := h
    exact .inr ⟨(), _, insertInto_eq_ok.mpr ⟨rfl, t, ht, rfl⟩, hf⟩

theorem bookingUpdateMany_error {id eventId : String} {b u : Uuid} (hb : Uuid.cast id = .ok b)
    (hu : Uuid.cast eventId = .ok u) {q : Int} (hq : 0 < q) {source target : BookingStatus} {now : Date}
    {d : BookingDb} {e : DbError} :
    bookingUpdateMany id (some eventId) (some q) source target now d = .error e ↔ e = .outOfRange ∧
      int4Max < q := by
  unfold bookingUpdateMany
  rw [← int4_error hq, hb]
  simp only [Option.mapM, hu]
  cases int4 q with
  | ok q' => exact ⟨fun h => (by cases h), fun h => (by cases h)⟩
  | error e' => exact ⟨fun h => congrArg Except.error (Except.error.inj h),
      fun h => congrArg Except.error (Except.error.inj h)⟩

/-! ## The operations -/

theorem updateEvent_none {id : String} {u : Uuid} (hu : Uuid.cast id = .ok u) (later : EventDb) :
    ∃ e, updateEvent id (.ok none) later = .error (.app e) := by
  have hread : updateResult id none later =
      .ok (if (later.events.find u).isSome then .capacityBelowReserved else .notFound) := by
    unfold updateResult eventFindUnique
    rw [findUnique_ok hu]; rfl
  unfold updateEvent
  simp only [bind, Except.bind, hread]
  cases (later.events.find u).isSome with
  | true => exact ⟨_, rfl⟩
  | false => exact ⟨_, rfl⟩

def OutboxFresh (draw : Draw) (t : OutboxTable) : Prop :=
  draw.rowId.val ∉ t.rows.map (·.id) ∧ draw.messageId.text ∉ t.rows.map (·.messageId)

theorem outbox_fresh {o : OutboxInsert} {now : Date} {t : OutboxTable} (hid : o.id.val ∉ t.rows.map (·.id))
    (hmessage : o.messageId ∉ t.rows.map (·.messageId)) : t.Fresh (o.row now) := by
  refine ⟨hid, fun u hu => ?_⟩
  cases hu
  intro hmem
  obtain ⟨r, hr, he⟩ := List.mem_filterMap.mp hmem
  exact hmessage (List.mem_map.mpr ⟨r, hr, Option.some.inj he⟩)

theorem createOutboxRow_fails {o : OutboxInsert} {now : Date} {d : EventDb} {e : DbError} :
    Tx.Fails (createOutboxRow (some o) now) d e ↔ e = .uniqueViolation ∧ ¬ d.outbox.Fresh (o.row now) := by
  unfold createOutboxRow
  rw [Tx.fails_bind (Tx.regular_stmt _), Tx.fails_stmt]
  unfold eventOutboxEventCreate
  rw [insertInto_error]
  exact ⟨fun h => h.elim id fun ⟨_, _, _, h⟩ => absurd h Tx.fails_pure, .inl⟩

theorem inbox_insert_of_new {t : Table processedSchema} {messageId : String} (h : messageId ∉ inbox t)
    (now : Date) :
    ∃ t', t.insert ⟨messageId, now⟩ = some t' :=
  ⟨_, Table.insert_eq_some.mpr ⟨processed_fresh.mpr h, rfl⟩⟩

def createEvent (input : EventInput) (draw : Draw) (d : EventDb) : Except DbError (EventDto × EventDb) :=
  eventCreate ⟨draw.id, input.title, input.date, input.totalSeats, none⟩ draw.now d

theorem createEvent_ends {input : EventInput} (hs : eventSchema input = true) (draw : Draw) (d : EventDb) :
    Ends (draw.id.val ∉ d.events.rows.map (·.id)) (dbReply (createEvent input draw d)) ↔ Storable input := by
  have hq : 0 < input.totalSeats := positiveInt_pos (Bool.and_eq_true_iff.mp hs).2
  have hcheck := check_fits hq
  refine ends_iff (fun hfit e he => ?_) fun hnot => ?_
  · rcases except_bind_error.mp (dbReply_error.mp he) with h | ⟨title, _, h⟩
    · exact absurd (hfit.2.symm.trans (text_error.mp h).2) (by decide)
    · rcases except_bind_error.mp h with h | ⟨seats, _, h⟩
      · obtain ⟨_, seats, hc⟩ := hcheck.resolve_right fun hc => absurd hfit.1 (Int.not_le.mpr hc.1)
        rw [Option.getD_none, hc] at h; cases h
      · obtain ⟨rfl, hf⟩ := insertInto_error.mp h
        exact ⟨rfl, fun hfresh => hf ⟨hfresh, fun u hu => by cases hu⟩⟩
  · cases htitle : storableText input.title with
    | false =>
      refine ⟨.invalidByteSequence, dbReply_error.mpr (except_bind_error.mpr (.inl ?_)), by decide⟩
      exact text_error.mpr ⟨rfl, htitle⟩
    | true =>
      have hc := (hcheck.resolve_left fun hc => hnot ⟨hc.1, htitle⟩).2
      refine ⟨.outOfRange, dbReply_error.mpr (except_bind_error.mpr (.inr ⟨input.title, ?_, ?_⟩)), by decide⟩
      · exact text_eq_ok.mpr ⟨rfl, htitle⟩
      · exact except_bind_error.mpr (.inl hc)

/-- The identifiers of a call, and an empty key, are not stored yet. -/
structure CreateFresh (input : CreateBookingInput) (draw : Draw) (d : BookingDb) : Prop where
  id : draw.id.val ∉ d.bookings.rows.map (·.id)
  record : draw.id.val ∉ d.idempotencyKeys.rows.map (·.bookingId)
  outbox : OutboxFresh draw d.outbox
  emptyKey : input.idempotencyKey = some "" → ∀ r ∈ d.bookings.rows, r.idempotencyKey ≠ some ""

def createBookingRecord (input : CreateBookingInput) (d : BookingDb) : Option IdempotencyRow :=
  (truthy input.idempotencyKey).bind fun key => findIdempotencyRecord key d

/-- A call of `createBooking` that nothing overlaps, up to its dispatch. An entry of
the unique indexes takes at most a third of a page once compressed: `indexed`
tells the keys whose entries do. -/
def createBookingReply (indexed : String → Bool) (input : CreateBookingInput) (draw : Draw) (d : BookingDb) :
    Except ServiceError BookingDto :=
  match createBookingRecord input d with
  | some existing => replay existing (createBookingRequestFingerprint input)
  | none =>
    if input.idempotencyKey.all indexed then
      match (Tx.transact (createBooking input draw) none d).1 with
      | .ok booking => .ok booking
      | .error e => recoverCreate (createBookingData input draw) e d d
    else recoverCreate (createBookingData input draw) .programLimitExceeded d d

theorem createBooking_fails {input : CreateBookingInput} {draw : Draw} {d : BookingDb} {row : BookingRow}
    {e : DbError} (hrow : (createBookingData input draw).row draw.now = .ok row)
    (hmiss : createBookingRecord input d = none)
    (h : Tx.Fails (createBooking input draw) d e) : e = .uniqueViolation ∧
      (CreateFresh input draw d → ∃ r ∈ d.bookings.rows, r.idempotencyKey = truthy input.idempotencyKey ∧
        (truthy input.idempotencyKey).isSome) := by
  have hs := BookingInsert.stores hrow
  have hid : row.id = draw.id.val := hs.id
  have hkey : row.idempotencyKey = input.idempotencyKey := hs.idempotencyKey
  unfold createBooking createBookingTx at h
  rw [Tx.fails_bind (Tx.regular_stmt _), Tx.fails_stmt] at h
  obtain h | ⟨row', d1, h1, h⟩ := h
  · rcases except_bind_error.mp h with h | ⟨row', hrow', h⟩
    · rw [hrow] at h; cases h
    · cases hrow.symm.trans hrow'
      obtain ⟨rfl, hc⟩ := insertInto_error.mp h
      refine ⟨rfl, fun hfresh => ?_⟩
      by_contra hno
      refine hc ⟨fun hm => hfresh.id (hid ▸ hm), fun u hu hm => ?_⟩
      obtain ⟨r, hr, hru⟩ := List.mem_filterMap.mp hm
      have hin : input.idempotencyKey = some u := hkey.symm.trans hu
      by_cases hempty : u = ""
      · exact hfresh.emptyKey (hempty ▸ hin) r hr (hempty ▸ hru)
      · have ht := truthy_eq_some.mpr ⟨hin, hempty⟩
        exact hno ⟨r, hr, hru.trans ht.symm, by rw [ht]; rfl⟩
  · obtain ⟨row'', hrow', h1⟩ := except_bind_ok.mp (Tx.ok_stmt.mp h1)
    obtain ⟨rfl, bookings, _, rfl⟩ := insertInto_eq_ok.mp h1
    cases hrow.symm.trans hrow'
    rw [Tx.fails_bind (regular_createIdempotencyKey _ _ _)] at h
    have hrecord : ∀ key, truthy input.idempotencyKey = some key → d.idempotencyKeys.find key = none := by
      intro key hk
      unfold createBookingRecord at hmiss
      rw [hk] at hmiss; exact hmiss
    obtain h | ⟨_, d2, h2, h⟩ := h
    · unfold createIdempotencyKey at h
      cases hk : truthy (createBookingData input draw).idempotencyKey with
      | none => rw [hk] at h; exact absurd h Tx.fails_pure
      | some key =>
        rw [hk] at h
        obtain ⟨rfl, hc⟩ := insertInto_error.mp (Tx.fails_stmt.mp h)
        refine ⟨rfl, fun hfresh => absurd ⟨fun hm => ?_, fun u hu hm => ?_⟩ hc⟩
        · obtain ⟨r, hr, hrk⟩ := List.mem_map.mp hm
          exact Table.find_eq_none.mp (hrecord key hk) r hr hrk
        · obtain ⟨r, hr, hru⟩ := List.mem_filterMap.mp hm
          refine hfresh.record (List.mem_map.mpr ⟨r, hr, ?_⟩)
          exact (Option.some.inj (hru.trans hu.symm)).trans hid
    · have hout : d2.outbox = d.outbox := by
        unfold createIdempotencyKey at h2
        cases hk : truthy (createBookingData input draw).idempotencyKey with
        | none => rw [hk] at h2; obtain ⟨_, rfl⟩ := Tx.ok_pure.mp h2; rfl
        | some key =>
          rw [hk] at h2
          obtain ⟨_, _, _, rfl⟩ := insertInto_eq_ok.mp (Tx.ok_stmt.mp h2); rfl
      rw [Tx.fails_bind (Tx.regular_stmt _), Tx.fails_stmt] at h
      obtain h | ⟨_, _, _, h⟩ := h
      · obtain ⟨rfl, hc⟩ := insertInto_error.mp h
        exact ⟨rfl, fun hfresh => absurd (hout ▸ outbox_fresh hfresh.outbox.1 hfresh.outbox.2) hc⟩
      · exact absurd h Tx.fails_pure

section
variable [Zod]

theorem updateEvent_ends {id : String} {input : EventInput} (hid : eventIdParamSchema id = true)
    (hs : eventSchema input = true) (now : Date) (d later : EventDb) :
    Ends True (updateEvent id (autocommit (updateStatement id input now) d).1 later) ↔ Storable input := by
  have hq : 0 < input.totalSeats := positiveInt_pos (Bool.and_eq_true_iff.mp hs).2
  obtain ⟨u, hu⟩ := uuid_cast hid
  have herror : ∀ e, (autocommit (updateStatement id input now) d).1 = .error e ↔
      e = .invalidByteSequence ∧ storableText input.title = false ∨
        e = .outOfRange ∧ storableText input.title = true ∧ int4Max < input.totalSeats :=
    fun e => autocommit_error.trans (updateStatement_error hu hq)
  refine ends_iff (fun hfit e he => ?_) fun hnot => ?_
  · cases hr : (autocommit (updateStatement id input now) d).1 with
    | error e' =>
      rcases (herror e').mp hr with h | h
      · exact absurd (hfit.2.symm.trans h.2) (by decide)
      · exact absurd hfit.1 (Int.not_le.mpr h.2.2)
    | ok o =>
      rw [hr] at he
      cases o with
      | some row => cases he
      | none =>
        obtain ⟨e', he'⟩ := updateEvent_none hu later
        rw [he'] at he; cases he
  · cases htitle : storableText input.title with
    | false =>
      refine ⟨.invalidByteSequence, ?_, by decide⟩
      rw [(herror _).mpr (.inl ⟨rfl, htitle⟩)]; rfl
    | true =>
      refine ⟨.outOfRange, ?_, by decide⟩
      rw [(herror _).mpr (.inr ⟨rfl, htitle, Int.not_le.mp fun h => hnot ⟨h, htitle⟩⟩)]; rfl

/-! ### Inventory messages -/

def ReserveFresh (draw : Draw) (d : EventDb) : Prop :=
  OutboxFresh draw d.outbox ∧
    draw.otherRowId.val ∉ d.outbox.rows.map (·.id) ∧ draw.otherMessageId.text ∉ d.outbox.rows.map (·.messageId)

theorem reserveSeats_ends {message : MessageEnvelope ReserveSeatsPayload}
    (hs : messageEnvelopeSchema .reserveSeats (message.map .reserveSeats) = true) (draw : Draw) (d : EventDb) :
    Ends (ReserveFresh draw d) (dbReply (Tx.transact (reserveSeats message draw) none d).1) ↔
      message.messageId ∈ inbox d.processed ∨ message.payload.quantity ≤ int4Max := by
  obtain ⟨⟨u, hu⟩, hq⟩ := reserveSchema_parts hs
  have hid : Uuid.cast (processReserveSeatsInput message draw).eventId = .ok u := hu
  have hq' : 0 < (processReserveSeatsInput message draw).quantity := hq
  have hpos : ¬ (processReserveSeatsInput message draw).quantity ≤ 0 := Int.not_le.mpr hq
  refine ends_iff (fun hfit e he => ?_) fun hnot => ?_
  · obtain ⟨t, ht, hf⟩ := (inboxed_fails fun _ => regular_reserve _ _ _).mp he
    have hfit : message.payload.quantity ≤ int4Max := hfit.resolve_left (inbox_insert ht).2
    unfold reserveRecorded at hf
    rw [if_neg hpos, Tx.fails_bind (Tx.regular_stmt _), Tx.fails_stmt, reserveStatement_error hid hq'] at hf
    obtain ⟨_, hov⟩ | ⟨o, m, hm, hf⟩ := hf
    · exact absurd hfit (Int.not_le.mpr hov)
    · have hout : m.outbox = d.outbox := by
        rcases reserveStatement_cases (Tx.ok_stmt.mp hm) with hc | ⟨row, row', _, hc⟩
        · rw [hc.2.1]
        · exact hc.outbox
      cases o with
      | some row =>
        rw [Tx.fails_bind (regular_createOutboxRow _ _)] at hf
        obtain hf | ⟨_, _, _, hf⟩ := hf
        · obtain ⟨rfl, hc⟩ := createOutboxRow_fails.mp hf
          exact ⟨rfl, fun hfresh => hc (hout ▸ outbox_fresh hfresh.1.1 hfresh.1.2)⟩
        · exact absurd hf Tx.fails_pure
      | none =>
        rw [Tx.fails_bind (Tx.regular_stmt _), Tx.fails_stmt] at hf
        obtain hf | ⟨event, m', hm', hf⟩ := hf
        · unfold eventFindUnique at hf; rw [findUnique_ok hid] at hf; cases hf
        · obtain ⟨_, _, _, rfl⟩ := findUnique_eq_ok.mp (Tx.ok_stmt.mp hm')
          rw [Tx.fails_bind (regular_createOutboxRow _ _)] at hf
          obtain hf | ⟨_, _, _, hf⟩ := hf
          · obtain ⟨rfl, hc⟩ := createOutboxRow_fails.mp hf
            exact ⟨rfl, fun hfresh => hc (hout ▸ outbox_fresh hfresh.2.1 hfresh.2.2)⟩
          · exact absurd hf Tx.fails_pure
  · obtain ⟨t, ht⟩ := inbox_insert_of_new (fun h => hnot (.inl h)) draw.now
    refine ⟨.outOfRange, (inboxed_fails fun _ => regular_reserve _ _ _).mpr ⟨t, ht, ?_⟩, by decide⟩
    unfold reserveRecorded
    rw [if_neg hpos, Tx.fails_bind (Tx.regular_stmt _), Tx.fails_stmt, reserveStatement_error hid hq']
    exact .inl ⟨rfl, Int.not_le.mp fun h => hnot (.inr h)⟩

/-- A release also adds the quantity to what the row has. -/
def ReleaseFits (d : EventDb) (eventId : String) (quantity : Int) : Prop :=
  quantity ≤ int4Max ∧
    ∀ row ∈ d.events.rows, Uuid.cast eventId = .ok row.id → row.seats.available + quantity ≤ int4Max

theorem releaseSeats_ends {message : MessageEnvelope BookingEventQuantityPayload}
    (hs : messageEnvelopeSchema .bookingCancelled (message.map .bookingEventQuantity) = true) (draw : Draw)
    (d : EventDb) :
    Ends True (dbReply (Tx.transact (releaseSeats message draw) none d).1) ↔
      message.messageId ∈ inbox d.processed ∨ ReleaseFits d message.payload.eventId message.payload.quantity := by
  obtain ⟨⟨b, hb⟩, ⟨u, hu⟩, hq⟩ := bookingEventQuantity_parts hs
  refine ends_iff (fun hfit e he => ?_) fun hnot => ?_
  · obtain ⟨t, ht, hf⟩ := (inboxed_fails fun _ => regular_release _ _).mp he
    have hfit := hfit.resolve_left (inbox_insert ht).2
    unfold releaseRecorded at hf
    rw [if_neg (Int.not_le.mpr hq), Tx.fails_bind (Tx.regular_stmt _), Tx.fails_stmt,
      releaseStatement_error hu hq] at hf
    obtain ⟨_, hov⟩ | ⟨o, m, hm, hf⟩ := hf
    · rcases hov with hov | ⟨row, hrow, hrid, hov⟩
      · exact absurd hfit.1 (Int.not_le.mpr hov)
      · exact absurd (hfit.2 row hrow (hrid ▸ hu)) (Int.not_le.mpr hov)
    · cases o with
      | some row => exact absurd hf Tx.fails_pure
      | none =>
        rw [Tx.fails_bind (Tx.regular_stmt _), Tx.fails_stmt] at hf
        obtain hf | ⟨_, _, _, hf⟩ := hf
        · unfold eventFindUnique at hf; rw [findUnique_ok hu] at hf; cases hf
        · exact absurd hf Tx.fails_pure
  · obtain ⟨t, ht⟩ := inbox_insert_of_new (fun h => hnot (.inl h)) draw.now
    refine ⟨.outOfRange, (inboxed_fails fun _ => regular_release _ _).mpr ⟨t, ht, ?_⟩, by decide⟩
    unfold releaseRecorded
    rw [if_neg (Int.not_le.mpr hq), Tx.fails_bind (Tx.regular_stmt _), Tx.fails_stmt, releaseStatement_error hu hq]
    refine .inl ⟨rfl, ?_⟩
    by_contra hov
    rw [not_or] at hov
    refine hnot (.inr ⟨Int.not_lt.mp hov.1, fun row hrow hid => ?_⟩)
    exact Int.not_lt.mp fun h => hov.2 ⟨row, hrow, Except.ok.inj (hid.symm.trans hu), h⟩

/-! ### Bookings -/

theorem handleSeatsReserved_ends {message : MessageEnvelope BookingEventQuantityPayload}
    (hs : messageEnvelopeSchema .seatsReserved (message.map .bookingEventQuantity) = true) (draw : Draw)
    (d : BookingDb) :
    Ends (OutboxFresh draw d.outbox) (dbReply (Tx.transact (handleSeatsReserved message draw) none d).1) ↔
      message.messageId ∈ inbox d.processed ∨ message.payload.quantity ≤ int4Max := by
  obtain ⟨⟨b, hb⟩, ⟨u, hu⟩, hq⟩ := bookingEventQuantity_parts hs
  refine ends_iff (fun hfit e he => ?_) fun hnot => ?_
  · obtain ⟨t, ht, hf⟩ := (inboxed_fails fun _ => regular_settle _ _ _ _ _ _).mp he
    have hfit := hfit.resolve_left (inbox_insert ht).2
    unfold settleRecorded at hf
    rw [Tx.fails_bind (Tx.regular_stmt _), Tx.fails_stmt, bookingUpdateMany_error hb hu hq] at hf
    obtain ⟨_, hov⟩ | ⟨count, m, hm, hf⟩ := hf
    · exact absurd hfit (Int.not_le.mpr hov)
    · have hout : m.outbox = d.outbox := by
        rcases bookingUpdateMany_cases (Tx.ok_stmt.mp hm) with hc | ⟨row, bookings, _, _, _, rfl⟩
        · rw [hc.2.1]
        · rfl
      rw [Tx.fails_bind (Tx.regular_stmt _), Tx.fails_stmt] at hf
      obtain hf | ⟨o, m', hm', hf⟩ := hf
      · unfold bookingFindUnique at hf; rw [findUnique_ok hb] at hf; cases hf
      · obtain ⟨_, _, _, rfl⟩ := findUnique_eq_ok.mp (Tx.ok_stmt.mp hm')
        cases o with
        | none => exact absurd hf Tx.fails_pure
        | some booking =>
          simp only at hf
          split at hf
          · exact absurd hf Tx.fails_pure
          · rw [Tx.fails_bind (Tx.regular_stmt _), Tx.fails_stmt] at hf
            obtain hf | ⟨_, _, _, hf⟩ := hf
            · obtain ⟨rfl, hc⟩ := insertInto_error.mp hf
              exact ⟨rfl, fun hfresh => hc (hout ▸ outbox_fresh hfresh.1 hfresh.2)⟩
            · exact absurd hf Tx.fails_pure
  · obtain ⟨t, ht⟩ := inbox_insert_of_new (fun h => hnot (.inl h)) draw.now
    refine ⟨.outOfRange, (inboxed_fails fun _ => regular_settle _ _ _ _ _ _).mpr ⟨t, ht, ?_⟩, by decide⟩
    unfold settleRecorded
    rw [Tx.fails_bind (Tx.regular_stmt _), Tx.fails_stmt, bookingUpdateMany_error hb hu hq]
    exact .inl ⟨rfl, Int.not_le.mp fun h => hnot (.inr h)⟩

theorem createBooking_ends {indexed : String → Bool} {input : CreateBookingInput}
    (hs : createBookingSchema input = true) (draw : Draw) (d : BookingDb) :
    Ends (CreateFresh input draw d) (createBookingReply indexed input draw d) ↔
      (createBookingRecord input d).isSome ∨ input.quantity ≤ int4Max ∧
          input.idempotencyKey.all indexed = true := by
  have hrow : (input.quantity ≤ int4Max ∧ ∃ row, (createBookingData input draw).row draw.now = .ok row) ∨
      (int4Max < input.quantity ∧ (createBookingData input draw).row draw.now = .error .outOfRange) :=
    row_cases (c := .begin input draw) hs
  unfold createBookingReply
  cases hrecord : createBookingRecord input d with
  | some existing =>
    refine iff_of_true ?_ (.inl rfl)
    show Ends _ (replay existing _)
    unfold replay
    split
    · exact .refused _
    · exact .returned _
  | none =>
    have htx : ∀ e, (Tx.transact (createBooking input draw) none d).1 = .error e ↔
        Tx.Fails (createBooking input draw) d e :=
      fun e => Tx.transact_fails (regular_createBookingTx _ _ _)
    refine ends_iff (fun hfit e he => ?_) fun hnot => ?_
    · have hfit := hfit.resolve_left Bool.false_ne_true
      simp only [hfit.2, if_true] at he
      obtain ⟨_, row, hrow⟩ := hrow.resolve_right fun hc => absurd hc.1 (Int.not_lt.mpr hfit.1)
      cases hr : (Tx.transact (createBooking input draw) none d).1 with
      | ok booking => rw [hr] at he; cases he
      | error e' =>
        obtain ⟨rfl, hc⟩ := createBooking_fails hrow hrecord ((htx e').mp hr)
        have hrecover : recoverCreate (createBookingData input draw) .uniqueViolation d d = .error (.db e) := by
          rw [hr] at he; exact he
        unfold recoverCreate at hrecover
        cases hk : truthy input.idempotencyKey with
        | none =>
          rw [show truthy (createBookingData input draw).idempotencyKey = none from hk] at hrecover
          refine ⟨(ServiceError.db.inj (Except.error.inj hrecover)).symm, fun hfresh => ?_⟩
          obtain ⟨_, _, _, hsome⟩ := hc hfresh
          rw [hk] at hsome; cases hsome
        | some key =>
          rw [show truthy (createBookingData input draw).idempotencyKey = some key from hk] at hrecover
          have hmiss : findIdempotencyRecord key d = none := by
            unfold createBookingRecord at hrecord
            rw [hk] at hrecord; exact hrecord
          simp only [hmiss] at hrecover
          cases hb : findByIdempotencyKey key d with
          | some booking => rw [hb] at hrecover; cases hrecover
          | none =>
            rw [hb] at hrecover
            refine ⟨(ServiceError.db.inj (Except.error.inj hrecover)).symm, fun hfresh => ?_⟩
            obtain ⟨r, hr, hrk, _⟩ := hc hfresh
            have hnone := List.find?_eq_none.mp (Option.map_eq_none_iff.mp hb) r hr
            rw [hk] at hrk
            exact hnone (decide_eq_true hrk)
    · by_cases hkey : input.idempotencyKey.all indexed = true
      · have hq : int4Max < input.quantity := Int.not_le.mp fun h => hnot (.inr ⟨h, hkey⟩)
        have herror := (hrow.resolve_left fun hc => absurd hc.1 (Int.not_le.mpr hq)).2
        have hfail : Tx.Fails (createBooking input draw) d .outOfRange := by
          unfold createBooking createBookingTx
          rw [Tx.fails_bind (Tx.regular_stmt _), Tx.fails_stmt]
          exact .inl (except_bind_error.mpr (.inl herror))
        refine ⟨.outOfRange, ?_, by decide⟩
        simp only [hkey, if_true]
        rw [(htx _).mpr hfail]; rfl
      · exact ⟨.programLimitExceeded, if_neg hkey, by decide⟩

/-! ## All operations -/

end

def bookingOf (quantity : Int) : CreateBookingInput := ⟨sampleText 7, sampleText 1, quantity, none⟩

def requestOf (quantity : Int) : MessageEnvelope ReserveSeatsPayload :=
  reserveSeatsMessage (bookingOf quantity) (sampleDraw 2 3 4 0 0)

def sampleNames : Draw := sampleDraw 1 8 9 10 11

def seatsOfThree : MessageEnvelope BookingEventQuantityPayload := successMessage (requestOf 3) sampleNames

end EventBooking
