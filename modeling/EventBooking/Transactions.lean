import EventBooking.BookingRepository
import EventBooking.InventoryRepository

/-!
# What the transactions can do

One inversion lemma for each transaction and statement of the two services:
whatever the database, the input and the lost connections, it left no trace or
did one of the things its structures name. Later modules use these lemmas and
never unfold a transaction.
-/

namespace EventBooking
open Lib

/-! ## The inboxes -/

def inbox (t : Table processedSchema) : List String := t.rows.map (·.messageId)

theorem processed_fresh {t : Table processedSchema} {messageId : String} {now : Date} :
    t.Fresh ⟨messageId, now⟩ ↔ messageId ∉ inbox t := by
  unfold Table.Fresh inbox processedSchema
  simp

theorem inbox_insert {t t' : Table processedSchema} {messageId : String} {now : Date}
    (h : t.insert ⟨messageId, now⟩ = some t') : inbox t' = inbox t ++ [messageId] ∧ messageId ∉ inbox t := by
  obtain ⟨hf, rfl⟩ := Table.insert_eq_some.mp h
  refine ⟨?_, processed_fresh.mp hf⟩
  unfold inbox; rw [Table.add_rows]; simp

/-! ## Creating a booking -/

structure Created (input : CreateBookingData) (outbox : OutboxInsert) (now : Date) (d : BookingDb)
    (row : BookingRow) (d' : BookingDb) : Prop where
  row_eq : input.toBookingInsert.row now = .ok row
  bookings : d.bookings.insert row = some d'.bookings
  idempotencyKeys : match truthy input.idempotencyKey with
    | some key =>
      d.idempotencyKeys.insert ⟨key, row.id, input.requestFingerprint, row.mapRow, now⟩ = some d'.idempotencyKeys
    | none => d'.idempotencyKeys = d.idempotencyKeys
  processed : d'.processed = d.processed
  outbox : d.outbox.insert (outbox.row now) = some d'.outbox

theorem createBookingTx_cases {input : CreateBookingData} {outbox : OutboxInsert} {now : Date} {budget : Option Nat}
    {d d' : BookingDb} {r : Except DbError BookingDto}
    (h : Tx.transact (createBookingTx input outbox now) budget d = (r, d')) :
    (d' = d ∧ ∃ e, r = .error e) ∨ ∃ row, r = .ok row.mapRow ∧ Created input outbox now d row d' := by
  rcases Tx.transact_regular (regular_createBookingTx input outbox now) h with h | h
  · exact Or.inl h
  · obtain ⟨dto, hr, hok⟩ := h
    right
    unfold createBookingTx at hok
    rw [Tx.ok_bind (Tx.regular_stmt _)] at hok
    obtain ⟨row, d1, h1, hok⟩ := hok
    rw [Tx.ok_bind (regular_createIdempotencyKey input row now)] at hok
    obtain ⟨u, d2, h2, hok⟩ := hok
    rw [Tx.ok_bind (Tx.regular_stmt _)] at hok
    obtain ⟨id, d3, h3, hok⟩ := hok
    obtain ⟨rfl, rfl⟩ := Tx.ok_pure.mp hok
    rw [Tx.ok_stmt] at h1 h3
    unfold bookingCreate at h1
    obtain ⟨row', hrow, h1⟩ := except_bind_ok.mp h1
    obtain ⟨rfl, bookings, hb, rfl⟩ := insertInto_eq_ok.mp h1
    obtain ⟨_, outbox', ho, rfl⟩ := insertInto_eq_ok.mp h3
    refine ⟨row, hr, ?_⟩
    unfold createIdempotencyKey at h2
    cases hk : truthy input.idempotencyKey with
    | none =>
      rw [hk] at h2
      obtain ⟨_, rfl⟩ := Tx.ok_pure.mp h2
      exact ⟨hrow, hb, by rw [hk], rfl, ho⟩
    | some key =>
      rw [hk] at h2
      obtain ⟨_, keys, hkeys, rfl⟩ := insertInto_eq_ok.mp (Tx.ok_stmt.mp h2)
      exact ⟨hrow, hb, by rw [hk]; exact hkeys, rfl, ho⟩

/-! ## Moving a booking -/

/-- The row meets the `where` of an `updateMany` given these texts. -/
structure Matches (id : String) (eventId : Option String) (quantity : Option Int) (source : BookingStatus)
    (row : BookingRow) : Prop where
  id : Uuid.cast id = .ok row.id
  eventId : ∀ e, eventId = some e → Uuid.cast e = .ok row.eventId
  quantity : ∀ q, quantity = some q → row.quantity = q
  status : row.status = source

theorem bookingUpdateMany_cases {id : String} {eventId : Option String} {quantity : Option Int}
    {source target : BookingStatus} {now : Date} {d d' : BookingDb} {count : Nat}
    (h : bookingUpdateMany id eventId quantity source target now d = .ok (count, d')) :
    (count = 0 ∧ d' = d ∧ ∀ row ∈ d.bookings.rows, ¬ Matches id eventId quantity source row) ∨
      ∃ row bookings, count ≠ 0 ∧ Matches id eventId quantity source row ∧
        d.bookings.Replaced row (setStatus target now row) bookings ∧ d' = { d with bookings } := by
  unfold bookingUpdateMany at h
  obtain ⟨u, hu, h⟩ := except_bind_ok.mp h
  obtain ⟨e, he, h⟩ := except_bind_ok.mp h
  obtain ⟨q, hq, h⟩ := except_bind_ok.mp h
  obtain ⟨rfl, rfl⟩ := Prod.mk.inj (Except.ok.inj h)
  have hholds : ∀ row, BookingWhere.holds ⟨u, e, q, source⟩ row = true ↔
      Matches id eventId quantity source row := by
    intro row
    have hid : row.id = u ↔ Uuid.cast id = .ok row.id := by
      rw [hu, Except.ok.injEq]; exact eq_comm
    have hev : e.all (fun x => decide (row.eventId = x)) = true ↔ ∀ x, eventId = some x →
        Uuid.cast x = .ok row.eventId := by
      cases eventId with
      | none => cases he; simp
      | some x =>
        obtain ⟨v, hv, he⟩ := except_bind_ok.mp he
        cases he; simp [hv, eq_comm]
    have hqu : q.all (fun x => decide (row.quantity = x)) = true ↔ ∀ x, quantity = some x → row.quantity = x := by
      cases quantity with
      | none => cases hq; simp
      | some x =>
        obtain ⟨v, hv, hq⟩ := except_bind_ok.mp hq
        cases hq
        obtain ⟨rfl, _⟩ := int4_eq_ok.mp hv
        simp
    unfold BookingWhere.holds
    simp only [Bool.and_eq_true, decide_eq_true_eq, hid, hev, hqu]
    exact ⟨fun ⟨⟨⟨a, b⟩, c⟩, d⟩ => ⟨a, b, c, d⟩, fun ⟨a, b, c, d⟩ => ⟨⟨⟨a, b⟩, c⟩, d⟩⟩
  by_cases hm : ∃ row ∈ d.bookings.rows, Matches id eventId quantity source row
  · right
    obtain ⟨row, hr, hm⟩ := hm
    refine ⟨row, _, ?_, hm, ?_, rfl⟩
    · have := List.countP_pos_iff.mpr ⟨row, hr, (hholds row).mpr hm⟩
      omega
    · unfold updateBookings
      apply Table.replaced_update hr ((hholds row).mpr hm)
      intro x hx hpx
      exact Except.ok.inj (((hholds x).mp hpx).id.symm.trans hm.id)
  · left
    have hno : ∀ row ∈ d.bookings.rows, BookingWhere.holds ⟨u, e, q, source⟩ row = false := by
      intro row hr
      by_contra hp
      exact hm ⟨row, hr, (hholds row).mp (by simpa using hp)⟩
    refine ⟨?_, ?_, fun row hr hmatch => hm ⟨row, hr, hmatch⟩⟩
    · rw [List.countP_eq_zero]; intro row hr; simp [hno row hr]
    · have : updateBookings ⟨u, e, q, source⟩ target now d.bookings = d.bookings := Table.update_eq_self hno
      rw [this]

/-! ## Cancelling a booking -/

structure Cancelled (id : String) (outbox : OutboxInsert) (now : Date) (d : BookingDb) (row : BookingRow)
    (d' : BookingDb) : Prop where
  row_id : Uuid.cast id = .ok row.id
  status : row.status = .confirmed
  bookings : d.bookings.Replaced row (setStatus .cancelled now row) d'.bookings
  idempotencyKeys : d'.idempotencyKeys = d.idempotencyKeys
  processed : d'.processed = d.processed
  outbox : d.outbox.insert (outbox.row now) = some d'.outbox

theorem cancelBookingWithOutbox_cases {id : String} {outbox : OutboxInsert} {now : Date} {budget : Option Nat}
    {d d' : BookingDb} {r : Except DbError CancelBookingResult}
    (h : Tx.transact (cancelBookingWithOutbox id outbox now) budget d = (r, d')) :
    (d' = d ∧ ((∃ e, r = .error e) ∨ (∃ reason, r = .ok (.rejected reason)) ∧
        ∀ row ∈ d.bookings.rows, Uuid.cast id = .ok row.id → row.status ≠ .confirmed)) ∨
      ∃ row, r = .ok (.cancelled (setStatus .cancelled now row).mapRow outbox.id) ∧
          Cancelled id outbox now d row d' := by
  have hreg : Tx.Regular (cancelBookingWithOutbox id outbox now) := by
    refine Tx.regular_bind (Tx.regular_stmt _) fun _ => Tx.regular_ite ?_ ?_
    · refine Tx.regular_bind (Tx.regular_stmt _) fun o => ?_
      cases o <;> exact Tx.regular_pure _
    · refine Tx.regular_bind (Tx.regular_stmt _) fun o => ?_
      cases o with
      | none => exact Tx.regular_pure _
      | some booking => exact Tx.regular_bind (Tx.regular_stmt _) fun _ => Tx.regular_pure _
  rcases Tx.transact_regular hreg h with h | h
  · exact Or.inl ⟨h.1, Or.inl h.2⟩
  · obtain ⟨result, hr, hok⟩ := h
    unfold cancelBookingWithOutbox at hok
    rw [Tx.ok_bind (Tx.regular_stmt _)] at hok
    obtain ⟨count, d1, h1, hok⟩ := hok
    rcases bookingUpdateMany_cases (Tx.ok_stmt.mp h1) with hu | hu
    · obtain ⟨rfl, rfl, hno⟩ := hu
      rw [if_pos rfl, Tx.ok_bind (Tx.regular_stmt _)] at hok
      obtain ⟨o, d2, h2, hok⟩ := hok
      obtain ⟨u, hu, rfl, rfl⟩ := findUnique_eq_ok.mp (Tx.ok_stmt.mp h2)
      left
      have hst : ∀ row ∈ d2.bookings.rows, Uuid.cast id = .ok row.id → row.status ≠ .confirmed :=
        fun row hrow hid hst => hno row hrow ⟨hid, fun e he => (by cases he), fun q hq => (by cases hq), hst⟩
      cases ho : d2.bookings.find u with
      | none =>
        rw [ho] at hok
        obtain ⟨rfl, rfl⟩ := Tx.ok_pure.mp hok
        exact ⟨rfl, Or.inr ⟨⟨_, hr⟩, hst⟩⟩
      | some row =>
        rw [ho] at hok
        obtain ⟨rfl, rfl⟩ := Tx.ok_pure.mp hok
        exact ⟨rfl, Or.inr ⟨⟨_, hr⟩, hst⟩⟩
    · obtain ⟨row, bookings, hc, hm, hrep, rfl⟩ := hu
      right
      rw [if_neg hc, Tx.ok_bind (Tx.regular_stmt _)] at hok
      obtain ⟨o, d2, h2, hok⟩ := hok
      obtain ⟨u, hu, rfl, rfl⟩ := findUnique_eq_ok.mp (Tx.ok_stmt.mp h2)
      have hfind : bookings.find u = some (setStatus .cancelled now row) := by
        rw [Table.find_eq_some]
        exact ⟨hrep.mem_iff.mpr (Or.inl rfl), Except.ok.inj (hm.id.symm.trans hu)⟩
      rw [hfind, Tx.ok_bind (Tx.regular_stmt _)] at hok
      obtain ⟨oid, d3, h3, hok⟩ := hok
      obtain ⟨rfl, outbox', ho, rfl⟩ := insertInto_eq_ok.mp (Tx.ok_stmt.mp h3)
      obtain ⟨rfl, rfl⟩ := Tx.ok_pure.mp hok
      exact ⟨row, hr, hm.id, hm.status, hrep, rfl, rfl, ho⟩

/-! ## Settling a booking -/

/-- The status changed; the outbox row is only written when the text of the
message is the text the database returns for the same event. -/
structure Settled (messageId bookingId eventId : String) (quantity : Option Int) (status : BookingStatus)
    (outbox : OutboxInsert) (now : Date) (d : BookingDb) (row : BookingRow) (d' : BookingDb) : Prop where
  pending : Matches bookingId (some eventId) quantity .pending row
  processed : d.processed.insert ⟨messageId, now⟩ = some d'.processed
  bookings : d.bookings.Replaced row (setStatus status now row) d'.bookings
  idempotencyKeys : d'.idempotencyKeys = d.idempotencyKeys
  outbox : if row.eventId.text = eventId then d.outbox.insert (outbox.row now) = some d'.outbox
    else d'.outbox = d.outbox

structure Unsettled (messageId bookingId eventId : String) (quantity : Option Int) (now : Date) (d d' : BookingDb) :
    Prop where
  no_pending : ∀ row ∈ d.bookings.rows, ¬ Matches bookingId (some eventId) quantity .pending row
  processed : d.processed.insert ⟨messageId, now⟩ = some d'.processed
  bookings : d'.bookings = d.bookings
  idempotencyKeys : d'.idempotencyKeys = d.idempotencyKeys
  outbox : d'.outbox = d.outbox

theorem settleBooking_cases {messageId bookingId eventId : String} {quantity : Option Int} {status : BookingStatus}
    {outbox : OutboxInsert} {now : Date} {budget : Option Nat} {d d' : BookingDb} {r : Except DbError SettleResult}
    (h : Tx.transact (settleBooking messageId bookingId eventId quantity status outbox now) budget d = (r, d')) :
    (d' = d ∧ ((r = .ok .duplicate ∧ messageId ∈ inbox d.processed) ∨ ∃ e, r = .error e)) ∨
      (∃ row, Settled messageId bookingId eventId quantity status outbox now d row d' ∧
        r = .ok (if row.eventId.text = eventId then .settled (setStatus status now row).mapRow outbox.id
          else .rejected .eventMismatch)) ∨
      ((∃ reason, r = .ok (.rejected reason)) ∧ Unsettled messageId bookingId eventId quantity now d d') := by
  unfold settleBooking at h
  rcases Tx.transact_tryInsert (fun _ => regular_settle bookingId eventId quantity status outbox now) h with h | h
  · left
    refine ⟨h.1, ?_⟩
    rcases h.2 with h | h
    · refine Or.inl ⟨h.1, ?_⟩
      by_contra hn
      exact insertInto_eq_error h.2 (processed_fresh.mpr hn)
    · exact Or.inr h
  · right
    obtain ⟨u, d1, result, h1, hok, hr⟩ := h
    obtain ⟨_, processed, hp, rfl⟩ := insertInto_eq_ok.mp h1
    unfold settleRecorded at hok
    rw [Tx.ok_bind (Tx.regular_stmt _)] at hok
    obtain ⟨count, d2, h2, hok⟩ := hok
    rw [Tx.ok_bind (Tx.regular_stmt _)] at hok
    obtain ⟨o, d3, h3, hok⟩ := hok
    obtain ⟨u, hu, ho, rfl⟩ := findUnique_eq_ok.mp (Tx.ok_stmt.mp h3)
    rcases bookingUpdateMany_cases (Tx.ok_stmt.mp h2) with hm | hm
    · obtain ⟨rfl, rfl, hno⟩ := hm
      right
      have hok' : (∃ reason, result = .rejected reason) ∧ d' = { d with processed } := by
        cases o with
        | none =>
          obtain ⟨rfl, rfl⟩ := Tx.ok_pure.mp hok
          exact ⟨⟨_, rfl⟩, rfl⟩
        | some booking =>
          simp only [true_or, if_true] at hok
          obtain ⟨rfl, rfl⟩ := Tx.ok_pure.mp hok
          exact ⟨⟨_, rfl⟩, rfl⟩
      obtain ⟨⟨reason, rfl⟩, rfl⟩ := hok'
      exact ⟨⟨reason, hr⟩, hno, hp, rfl, rfl, rfl⟩
    · obtain ⟨row, bookings, hc, hm, hrep, rfl⟩ := hm
      left
      have hfind : bookings.find u = some (setStatus status now row) := by
        rw [Table.find_eq_some]
        exact ⟨hrep.mem_iff.mpr (Or.inl rfl), Except.ok.inj (hm.id.symm.trans hu)⟩
      have ho : o = some (setStatus status now row) := ho.trans hfind
      subst ho
      have hq : quantity.any (fun q => decide ((setStatus status now row).quantity ≠ q)) = false := by
        cases hquant : quantity with
        | none => rfl
        | some q => have := hm.quantity q hquant; simp [setStatus, this]
      have hcond : (count = 0 ∨ (setStatus status now row).eventId.text ≠ eventId ∨
          quantity.any (fun q => decide ((setStatus status now row).quantity ≠ q))) ↔
              row.eventId.text ≠ eventId := by
        rw [hq]; simp [hc, setStatus]
      simp only [hcond] at hok
      refine ⟨row, ?_⟩
      by_cases he : row.eventId.text = eventId
      · rw [if_neg (fun hne => hne he), Tx.ok_bind (Tx.regular_stmt _)] at hok
        obtain ⟨oid, d4, h4, hok⟩ := hok
        obtain ⟨rfl, outbox', hob, rfl⟩ := insertInto_eq_ok.mp (Tx.ok_stmt.mp h4)
        obtain ⟨rfl, rfl⟩ := Tx.ok_pure.mp hok
        refine ⟨⟨hm, hp, hrep, rfl, ?_⟩, ?_⟩
        · rw [if_pos he]; exact hob
        · rw [if_pos he]; exact hr
      · rw [if_pos he] at hok
        obtain ⟨rfl, rfl⟩ := Tx.ok_pure.mp hok
        refine ⟨⟨hm, hp, hrep, rfl, ?_⟩, ?_⟩
        · rw [if_neg he]
        · rw [if_neg he, hr]
          unfold classifyBookingFailure
          exact congrArg _ (congrArg _ (if_pos he))

/-! ## Statements on `events` -/

theorem eventUpdate_cases {id : String} {set : EventRow → Except DbError (Option EventRow)} {d d' : EventDb}
    {o : Option EventRow} (hset : ∀ row row', set row = .ok (some row') → row'.id = row.id)
    (h : eventUpdate id set d = .ok (o, d')) :
    (o = none ∧ d' = d ∧ ∀ row ∈ d.events.rows, Uuid.cast id = .ok row.id → set row = .ok none) ∨
      ∃ row row' events, o = some row' ∧ Uuid.cast id = .ok row.id ∧ set row = .ok (some row') ∧
        d.events.Replaced row row' events ∧ d' = { d with events } := by
  unfold eventUpdate at h
  obtain ⟨u, hu, h⟩ := except_bind_ok.mp h
  cases hf : d.events.find u with
  | none =>
    rw [hf] at h
    cases h
    left
    refine ⟨rfl, rfl, fun row hrow hid => absurd ?_ (Table.find_eq_none.mp hf row hrow)⟩
    exact Except.ok.inj (hid.symm.trans hu)
  | some row =>
    obtain ⟨hrow, hid⟩ := Table.find_eq_some.mp hf
    rw [hf] at h
    obtain ⟨o', ho, h⟩ := except_bind_ok.mp h
    cases o' with
    | none =>
      cases h
      left
      refine ⟨rfl, rfl, fun row' hrow' hid' => ?_⟩
      have : row' = row := Table.key_inj hrow' hrow ((Except.ok.inj (hid'.symm.trans hu)).trans hid.symm)
      rw [this]; exact ho
    | some row' =>
      cases h
      right
      refine ⟨row, row', _, rfl, hu.trans (congrArg _ hid.symm), ho, ?_, rfl⟩
      exact Table.replaced_replace hrow (hset row row' ho)

/-- What one successful write of the seat columns does to `events`. -/
structure Reseated (id : String) (seats : Seats → Except DbError (Option Seats)) (now : Date) (d : EventDb)
    (row row' : EventRow) (d' : EventDb) : Prop where
  row_id : Uuid.cast id = .ok row.id
  seats : seats row.seats = .ok (some row'.seats)
  row_eq : row' = row.setSeats now row'.seats
  events : d.events.Replaced row row' d'.events
  processed : d'.processed = d.processed
  outbox : d'.outbox = d.outbox

theorem reseat_eq_ok {seats : Seats → Except DbError (Option Seats)} {now : Date} {row : EventRow}
    {o : Option EventRow} :
    reseat seats now row = .ok o ↔ ∃ s, seats row.seats = .ok s ∧ o = s.map (row.setSeats now) := by
  unfold reseat
  rw [except_bind_ok]
  constructor
  · intro e; obtain ⟨s, hs, e⟩ := e; exact ⟨s, hs, (Except.ok.inj e).symm⟩
  · intro e; obtain ⟨s, hs, rfl⟩ := e; exact ⟨s, hs, rfl⟩

theorem reseat_eq_none {seats : Seats → Except DbError (Option Seats)} {now : Date} {row : EventRow} :
    reseat seats now row = .ok none ↔ seats row.seats = .ok none := by
  rw [reseat_eq_ok]
  constructor
  · intro h
    obtain ⟨s, hs, e⟩ := h
    cases s with
    | none => exact hs
    | some s => cases e
  · intro h; exact ⟨none, h, rfl⟩

theorem reseat_eq_some {seats : Seats → Except DbError (Option Seats)} {now : Date} {row row' : EventRow} :
    reseat seats now row = .ok (some row') ↔
      seats row.seats = .ok (some row'.seats) ∧ row' = row.setSeats now row'.seats := by
  rw [reseat_eq_ok]
  constructor
  · intro h
    obtain ⟨s, hs, e⟩ := h
    cases s with
    | none => cases e
    | some s => cases e; exact ⟨hs, rfl⟩
  · intro h; exact ⟨some row'.seats, h.1, congrArg some h.2⟩

theorem reseat_cases {id : String} {seats : Seats → Except DbError (Option Seats)} {now : Date} {d d' : EventDb}
    {o : Option EventRow} (h : eventUpdate id (reseat seats now) d = .ok (o, d')) :
    (o = none ∧ d' = d ∧ ∀ row ∈ d.events.rows, Uuid.cast id = .ok row.id → seats row.seats = .ok none) ∨
      ∃ row row', o = some row' ∧ Reseated id seats now d row row' d' := by
  rcases eventUpdate_cases (fun row row' e => by rw [(reseat_eq_some.mp e).2]; rfl) h with h | h
  · exact Or.inl ⟨h.1, h.2.1, fun row hrow hid => reseat_eq_none.mp (h.2.2 row hrow hid)⟩
  · right
    obtain ⟨row, row', events, ho, hid, hs, hrep, rfl⟩ := h
    obtain ⟨hs, he⟩ := reseat_eq_some.mp hs
    exact ⟨row, row', ho, hid, hs, he, hrep, rfl, rfl⟩

theorem reserveStatement_cases {eventId : String} {quantity : Int} {now : Date} {d d' : EventDb}
    {o : Option EventRow} (h : reserveStatement eventId quantity now d = .ok (o, d')) :
    (o = none ∧ d' = d ∧ ∀ row ∈ d.events.rows, Uuid.cast eventId = .ok row.id → row.seats.available < quantity) ∨
      ∃ row row', o = some row' ∧ Reseated eventId (Seats.reserve quantity) now d row row' d' := by
  obtain ⟨q, hq, h'⟩ := except_bind_ok.mp h
  rw [(int4_eq_ok.mp hq).1] at h'
  rcases reseat_cases h' with hs | hs
  · refine Or.inl ⟨hs.1, hs.2.1, fun row hrow hid => ?_⟩
    rcases reserve_eq_ok.mp (hs.2.2 row hrow hid) with hs | hs
    · obtain ⟨_, s', hs, _⟩ := hs; cases hs
    · exact hs.1
  · exact Or.inr hs

theorem releaseStatement_cases {eventId : String} {quantity : Int} {now : Date} {d d' : EventDb}
    {o : Option EventRow} (h : releaseStatement eventId quantity now d = .ok (o, d')) :
    (o = none ∧ d' = d ∧ ∀ row ∈ d.events.rows, Uuid.cast eventId = .ok row.id →
        row.seats.total < row.seats.available + quantity) ∨
      ∃ row row', o = some row' ∧ Reseated eventId (Seats.release quantity) now d row row' d' := by
  obtain ⟨q, hq, h'⟩ := except_bind_ok.mp h
  rw [(int4_eq_ok.mp hq).1] at h'
  rcases reseat_cases h' with hs | hs
  · refine Or.inl ⟨hs.1, hs.2.1, fun row hrow hid => ?_⟩
    rcases release_eq_ok.mp (hs.2.2 row hrow hid) with hs | hs
    · obtain ⟨_, s', hs, _⟩ := hs; cases hs
    · exact hs.1
  · exact Or.inr hs

/-! ## Changing and deleting an event -/

/-- The row keeps what is reserved under its new capacity. -/
structure Rebased (id : String) (input : EventInput) (d : EventDb) (row row' : EventRow) (d' : EventDb) : Prop where
  row_id : Uuid.cast id = .ok row.id
  allowed : row.seats.reserved ≤ input.totalSeats
  total : row'.seats.total = input.totalSeats
  reserved : row'.seats.reserved = row.seats.reserved
  row'_id : row'.id = row.id
  title : row'.title = input.title
  date : row'.date = input.date
  createdAt : row'.createdAt = row.createdAt
  events : d.events.Replaced row row' d'.events
  processed : d'.processed = d.processed
  outbox : d'.outbox = d.outbox

theorem updateStatement_cases {id : String} {input : EventInput} {now : Date} {d d' : EventDb} {o : Option EventRow}
    (h : updateStatement id input now d = .ok (o, d')) :
    (o = none ∧ d' = d ∧ ∀ row ∈ d.events.rows, Uuid.cast id = .ok row.id → input.totalSeats < row.seats.reserved) ∨
      ∃ row row', o = some row' ∧ Rebased id input d row row' d' := by
  obtain ⟨title, htitle, h'⟩ := except_bind_ok.mp h
  obtain ⟨rfl, _⟩ := text_eq_ok.mp htitle
  obtain ⟨t, ht, h'⟩ := except_bind_ok.mp h'
  obtain ⟨rfl, _⟩ := int4_eq_ok.mp ht
  have hset : ∀ row row', (do
      let row ← reseat (Seats.rebase input.totalSeats) now row
      return row.map (EventRow.describe input.title input.date)) =
        (.ok (some row') : Except DbError (Option EventRow)) →
      row'.id = row.id ∧ (row'.title = input.title ∧ row'.date = input.date ∧ row'.createdAt = row.createdAt) ∧
        row.seats.rebase input.totalSeats = .ok (some row'.seats) := by
    intro row row' e
    obtain ⟨o, ho, e⟩ := except_bind_ok.mp e
    cases o with
    | none => cases e
    | some r =>
      cases e
      obtain ⟨hs, he⟩ := reseat_eq_some.mp ho
      refine ⟨?_, ⟨rfl, rfl, ?_⟩, hs⟩
      · show r.id = row.id
        rw [he]; rfl
      · show r.createdAt = row.createdAt
        rw [he]; rfl
  rcases eventUpdate_cases (fun row row' e => (hset row row' e).1) h' with hu | hu
  · refine Or.inl ⟨hu.1, hu.2.1, fun row hrow hid => ?_⟩
    obtain ⟨o, ho, e⟩ := except_bind_ok.mp (hu.2.2 row hrow hid)
    cases o with
    | some r => cases e
    | none =>
      rcases rebase_eq_ok.mp (reseat_eq_none.mp ho) with hs | hs
      · obtain ⟨_, s', hs, _⟩ := hs; cases hs
      · exact hs.1
  · right
    obtain ⟨row, row', events, rfl, hid, hs, hrep, rfl⟩ := hu
    obtain ⟨hid', ⟨htitle, hdate, hcreated⟩, hs⟩ := hset row row' hs
    rcases rebase_eq_ok.mp hs with hs | hs
    · obtain ⟨hle, s', hs, htotal, hres⟩ := hs
      cases hs
      exact ⟨row, row', rfl, hid, hle, htotal, hres, hid', htitle, hdate, hcreated, hrep, rfl, rfl⟩
    · cases hs.2

structure Deleted (id : String) (d : EventDb) (row : EventRow) (d' : EventDb) : Prop where
  row_id : Uuid.cast id = .ok row.id
  mem : row ∈ d.events.rows
  unreserved : row.seats.reserved = 0
  events : ∀ x, x ∈ d'.events.rows ↔ x ∈ d.events.rows ∧ x.id ≠ row.id
  processed : d'.processed = d.processed
  outbox : d'.outbox = d.outbox

theorem deleteStatement_cases {id : String} {d d' : EventDb} {o : Option Uuid}
    (h : deleteStatement id d = .ok (o, d')) :
    (o = none ∧ d' = d ∧ ∀ row ∈ d.events.rows, Uuid.cast id = .ok row.id → row.seats.reserved ≠ 0) ∨
      ∃ row, o = some row.id ∧ Deleted id d row d' := by
  obtain ⟨u, hu, h'⟩ := except_bind_ok.mp h
  obtain ⟨rfl, rfl⟩ := Prod.mk.inj (Except.ok.inj h')
  have hm : ∀ r : EventRow, deletable u r = true ↔ Uuid.cast id = .ok r.id ∧ r.seats.reserved = 0 := by
    intro r
    unfold deletable Seats.reserved
    rw [hu, Except.ok.injEq, Bool.and_eq_true, decide_eq_true_eq, decide_eq_true_eq]
    exact ⟨fun e => ⟨e.1.symm, by omega⟩, fun e => ⟨e.1.symm, by omega⟩⟩
  cases hf : d.events.rows.find? (deletable u) with
  | none =>
    left
    have hno : ∀ r ∈ d.events.rows, deletable u r = false := by
      intro r hr
      have := List.find?_eq_none.mp hf r hr
      simpa using this
    refine ⟨rfl, ?_, fun row hrow hid hz => ?_⟩
    · have : d.events.delete (deletable u) = d.events := by
        apply Table.ext
        rw [Table.delete_rows, List.filter_eq_self]
        intro r hr; rw [hno r hr]; rfl
      rw [this]
    · have := (hm row).mpr ⟨hid, hz⟩
      rw [hno row hrow] at this; cases this
  | some row =>
    right
    have hrow := List.mem_of_find?_eq_some hf
    have hdel : deletable u row = true := List.find?_some hf
    obtain ⟨hid, hz⟩ := (hm row).mp hdel
    refine ⟨row, rfl, hid, hrow, hz, fun x => ?_, rfl, rfl⟩
    rw [Table.mem_delete, ← Bool.not_eq_true, hm x]
    constructor
    · intro hx
      refine ⟨hx.1, fun e => hx.2 ⟨e ▸ hid, ?_⟩⟩
      rw [Table.key_inj hx.1 hrow e]; exact hz
    · intro hx
      exact ⟨hx.1, fun e => hx.2 (Except.ok.inj (e.1.symm.trans hid))⟩

structure EventCreated (input : EventCreate) (now : Date) (d : EventDb) (row : EventRow) (d' : EventDb) : Prop where
  row_id : row.id = input.id.val
  total : row.seats.total = input.totalSeats
  available : row.seats.available = input.availableSeats.getD input.totalSeats
  createdAt : row.createdAt = now
  events : d.events.insert row = some d'.events
  processed : d'.processed = d.processed
  outbox : d'.outbox = d.outbox

theorem eventCreate_cases {input : EventCreate} {now : Date} {d d' : EventDb} {dto : EventDto}
    (h : eventCreate input now d = .ok (dto, d')) : ∃ row, dto = row.mapRow ∧ EventCreated input now d row d' := by
  obtain ⟨title, _, h'⟩ := except_bind_ok.mp h
  obtain ⟨seats, hs, h'⟩ := except_bind_ok.mp h'
  obtain ⟨rfl, events, he, rfl⟩ := insertInto_eq_ok.mp h'
  obtain ⟨ht, ha⟩ := check_eq_ok.mp hs
  exact ⟨_, rfl, rfl, ht, ha, rfl, he, rfl, rfl⟩

/-! ## Reserving seats -/

def OutboxAdded (o : Option OutboxInsert) (now : Date) (t t' : OutboxTable) : Prop :=
  match o with
  | none => t' = t
  | some o => t.insert (o.row now) = some t'

theorem ok_createOutboxRow {o : Option OutboxInsert} {now : Date} {d d' : EventDb} {id : Option RandomUUID}
    (h : Tx.Ok (createOutboxRow o now) d id d') :
    id = o.map (·.id) ∧ ∃ outbox, OutboxAdded o now d.outbox outbox ∧ d' = { d with outbox } := by
  unfold createOutboxRow at h
  cases o with
  | none =>
    obtain ⟨rfl, rfl⟩ := Tx.ok_pure.mp h
    exact ⟨rfl, _, rfl, rfl⟩
  | some o =>
    rw [Tx.ok_bind (Tx.regular_stmt _)] at h
    obtain ⟨oid, d1, h1, h⟩ := h
    obtain ⟨rfl, outbox, ho, rfl⟩ := insertInto_eq_ok.mp (Tx.ok_stmt.mp h1)
    obtain ⟨rfl, rfl⟩ := Tx.ok_pure.mp h
    exact ⟨rfl, outbox, ho, rfl⟩

structure Reserved (input : ProcessReserveSeatsInput) (now : Date) (d : EventDb) (row row' : EventRow)
    (d' : EventDb) :
    Prop where
  quantity : 0 < input.quantity
  row_id : Uuid.cast input.eventId = .ok row.id
  enough : input.quantity ≤ row.seats.available
  total : row'.seats.total = row.seats.total
  available : row'.seats.available = row.seats.available - input.quantity
  row_eq : row' = row.setSeats now row'.seats
  events : d.events.Replaced row row' d'.events
  processed : d.processed.insert ⟨input.messageId, now⟩ = some d'.processed
  outbox : OutboxAdded input.outboxOnSuccess now d.outbox d'.outbox

structure Refused (input : ProcessReserveSeatsInput) (reason : FailureReason) (sent now : Date) (d d' : EventDb) :
    Prop where
  quantity : 0 < input.quantity
  not_enough : ∀ row ∈ d.events.rows, Uuid.cast input.eventId = .ok row.id → row.seats.available < input.quantity
  found : reason = .insufficientSeats ↔ ∃ row ∈ d.events.rows, Uuid.cast input.eventId = .ok row.id
  events : d'.events = d.events
  processed : d.processed.insert ⟨input.messageId, now⟩ = some d'.processed
  outbox : OutboxAdded (input.outboxOnFailure.map fun o =>
    o.outbox input.eventId reason sent) now d.outbox d'.outbox

/-- Only the inbox row: the message is consumed without an outcome. -/
structure Ignored (messageId : String) (now : Date) (d d' : EventDb) : Prop where
  events : d'.events = d.events
  processed : d.processed.insert ⟨messageId, now⟩ = some d'.processed
  outbox : d'.outbox = d.outbox

theorem processReserveSeatsMessage_cases {input : ProcessReserveSeatsInput} {sent now : Date} {budget : Option Nat}
    {d d' : EventDb} {r : Except DbError ReserveSeatsResult}
    (h : Tx.transact (processReserveSeatsMessage input sent now) budget d = (r, d')) :
    (d' = d ∧ ((r = .ok .duplicate ∧ input.messageId ∈ inbox d.processed) ∨ ∃ e, r = .error e)) ∨
      (input.quantity ≤ 0 ∧ r = .ok (.rejected .invalidQuantity none) ∧ Ignored input.messageId now d d') ∨
      (∃ row row', r = .ok (.reserved row'.mapRow (input.outboxOnSuccess.map (·.id))) ∧
        Reserved input now d row row' d') ∨
      ∃ reason, r = .ok (.rejected (.failure reason) (input.outboxOnFailure.map (·.id))) ∧
        Refused input reason sent now d d' := by
  unfold processReserveSeatsMessage at h
  rcases Tx.transact_tryInsert (fun _ => regular_reserve input sent now) h with h | h
  · left
    refine ⟨h.1, ?_⟩
    rcases h.2 with h | h
    · refine Or.inl ⟨h.1, ?_⟩
      by_contra hn
      exact insertInto_eq_error h.2 (processed_fresh.mpr hn)
    · exact Or.inr h
  · right
    obtain ⟨u, d1, result, h1, hok, hr⟩ := h
    obtain ⟨_, processed, hp, rfl⟩ := insertInto_eq_ok.mp h1
    unfold reserveRecorded at hok
    by_cases hq : input.quantity ≤ 0
    · rw [if_pos hq] at hok
      obtain ⟨rfl, rfl⟩ := Tx.ok_pure.mp hok
      exact Or.inl ⟨hq, hr, rfl, hp, rfl⟩
    · rw [if_neg hq, Tx.ok_bind (Tx.regular_stmt _)] at hok
      obtain ⟨o, d2, h2, hok⟩ := hok
      right
      rcases reserveStatement_cases (Tx.ok_stmt.mp h2) with hs | hs
      · obtain ⟨rfl, rfl, hno⟩ := hs
        right
        rw [Tx.ok_bind (Tx.regular_stmt _)] at hok
        obtain ⟨event, d3, h3, hok⟩ := hok
        obtain ⟨v, hv, rfl, rfl⟩ := findUnique_eq_ok.mp (Tx.ok_stmt.mp h3)
        rw [Tx.ok_bind (regular_createOutboxRow _ _)] at hok
        obtain ⟨oid, d4, h4, hok⟩ := hok
        obtain ⟨rfl, outbox, ho, rfl⟩ := ok_createOutboxRow h4
        obtain ⟨rfl, rfl⟩ := Tx.ok_pure.mp hok
        refine ⟨failureReason (d.events.find v), ?_, by omega, hno, ?_, rfl, hp, ho⟩
        · rw [hr, Option.map_map]; rfl
        · unfold failureReason
          cases hfind : d.events.find v with
          | none =>
            simp only [Option.isSome_none, Bool.false_eq_true, if_false, reduceCtorEq, false_iff,
              not_exists, not_and]
            intro row hrow hid
            exact Table.find_eq_none.mp hfind row hrow (Except.ok.inj (hid.symm.trans hv))
          | some row =>
            obtain ⟨hrow, hid⟩ := Table.find_eq_some.mp hfind
            simp only [Option.isSome_some, if_true, true_iff]
            exact ⟨row, hrow, hv.trans (congrArg _ hid.symm)⟩
      · obtain ⟨row, row', rfl, hs⟩ := hs
        left
        rw [Tx.ok_bind (regular_createOutboxRow _ _)] at hok
        obtain ⟨oid, d4, h4, hok⟩ := hok
        obtain ⟨rfl, outbox, ho, rfl⟩ := ok_createOutboxRow h4
        obtain ⟨rfl, rfl⟩ := Tx.ok_pure.mp hok
        obtain ⟨hle, s', hs', htotal, havail⟩ | ⟨_, hs'⟩ := reserve_eq_ok.mp hs.seats
        · cases hs'
          have hp' := hs.processed; have ho' := hs.outbox
          simp only at hp' ho'
          exact ⟨row, row', hr, by omega, hs.row_id, hle, htotal, havail, hs.row_eq, hs.events, hp' ▸ hp, ho' ▸ ho⟩
        · cases hs'

/-! ## Releasing seats -/

structure Released (input : ProcessReleaseSeatsInput) (now : Date) (d : EventDb) (row row' : EventRow)
    (d' : EventDb) :
    Prop where
  quantity : 0 < input.quantity
  row_id : Uuid.cast input.eventId = .ok row.id
  total : row'.seats.total = row.seats.total
  available : row'.seats.available = row.seats.available + input.quantity
  row_eq : row' = row.setSeats now row'.seats
  events : d.events.Replaced row row' d'.events
  processed : d.processed.insert ⟨input.messageId, now⟩ = some d'.processed
  outbox : d'.outbox = d.outbox

theorem processReleaseSeatsMessage_cases {input : ProcessReleaseSeatsInput} {now : Date} {budget : Option Nat}
    {d d' : EventDb} {r : Except DbError ReleaseSeatsResult}
    (h : Tx.transact (processReleaseSeatsMessage input now) budget d = (r, d')) :
    (d' = d ∧ ((r = .ok .duplicate ∧ input.messageId ∈ inbox d.processed) ∨ ∃ e, r = .error e)) ∨
      ((∃ reason, r = .ok (.rejected reason)) ∧ Ignored input.messageId now d d' ∧
        (0 < input.quantity → ∀ row ∈ d.events.rows, Uuid.cast input.eventId = .ok row.id →
          row.seats.total < row.seats.available + input.quantity)) ∨
      ∃ row row', r = .ok (.released row'.mapRow) ∧ Released input now d row row' d' := by
  unfold processReleaseSeatsMessage at h
  rcases Tx.transact_tryInsert (fun _ => regular_release input now) h with h | h
  · left
    refine ⟨h.1, ?_⟩
    rcases h.2 with h | h
    · refine Or.inl ⟨h.1, ?_⟩
      by_contra hn
      exact insertInto_eq_error h.2 (processed_fresh.mpr hn)
    · exact Or.inr h
  · right
    obtain ⟨u, d1, result, h1, hok, hr⟩ := h
    obtain ⟨_, processed, hp, rfl⟩ := insertInto_eq_ok.mp h1
    unfold releaseRecorded at hok
    by_cases hq : input.quantity ≤ 0
    · rw [if_pos hq] at hok
      obtain ⟨rfl, rfl⟩ := Tx.ok_pure.mp hok
      exact Or.inl ⟨⟨_, hr⟩, ⟨rfl, hp, rfl⟩, fun h0 => absurd h0 (by omega)⟩
    · rw [if_neg hq, Tx.ok_bind (Tx.regular_stmt _)] at hok
      obtain ⟨o, d2, h2, hok⟩ := hok
      rcases releaseStatement_cases (Tx.ok_stmt.mp h2) with hs | hs
      · obtain ⟨rfl, rfl, hno⟩ := hs
        left
        rw [Tx.ok_bind (Tx.regular_stmt _)] at hok
        obtain ⟨event, d3, h3, hok⟩ := hok
        obtain ⟨v, _, rfl, rfl⟩ := findUnique_eq_ok.mp (Tx.ok_stmt.mp h3)
        obtain ⟨rfl, rfl⟩ := Tx.ok_pure.mp hok
        exact ⟨⟨_, hr⟩, ⟨rfl, hp, rfl⟩, fun _ => hno⟩
      · obtain ⟨row, row', rfl, hs⟩ := hs
        right
        obtain ⟨rfl, rfl⟩ := Tx.ok_pure.mp hok
        obtain ⟨_, s', hs', htotal, havail⟩ | ⟨_, _, hs'⟩ := release_eq_ok.mp hs.seats
        · cases hs'
          have hp' := hs.processed
          simp only at hp'
          exact ⟨row, row', hr, by omega, hs.row_id, htotal, havail, hs.row_eq, hs.events, hp' ▸ hp, hs.outbox⟩
        · cases hs'

end EventBooking
