import EventBooking.SeatRange
import EventBooking.Lib.Delimited

/-!
# The request fingerprint

`createBookingRequestFingerprint` of the service and the SQL expression that the
migration backfills old records with. On accepted requests both write the
canonical identifiers and the quantity, delimited by colons that none of them
contains, so a fingerprint is the identity of the request.
-/

namespace EventBooking
open Lib

/-! ## The encoder of the service -/

/-- The users, the events and the quantities are the same, however they are spelled. -/
structure SameRequest (a b : CreateBookingInput) : Prop where
  userId : Uuid.cast a.userId = Uuid.cast b.userId
  eventId : Uuid.cast a.eventId = Uuid.cast b.eventId
  quantity : a.quantity = b.quantity

theorem uuidText_char {s : String} (h : isUuidText s = true) : ∀ c ∈ s.toList, c ∈ hexDigits ∨ c = '-' := by
  refine fits_all (fun p hp c hc => ?_) h
  rcases uuidPattern_class p hp with rfl | rfl
  · exact .inl hc
  · exact .inr (List.mem_singleton.mp hc)

theorem not_whiteSpace {c : Char} (h : c ∈ hexDigits ∨ c = '-') : ¬ whiteSpace.contains c = true := by
  have hall : (whiteSpace.all fun w => !('-' :: hexDigits).contains w) = true := by decide
  intro hw
  have hc := List.all_eq_true.mp hall c (List.contains_iff_mem.mp hw)
  rw [List.contains_iff_mem.mpr (List.mem_cons.mpr h.symm)] at hc
  cases hc

theorem trim_uuidText {s : String} (h : isUuidText s = true) : trim s = s := by
  have hdrop : ∀ l : List Char, (∀ c ∈ l, c ∈ hexDigits ∨ c = '-') → l.dropWhile whiteSpace.contains = l := by
    intro l hl
    cases l with
    | nil => rfl
    | cons c l => exact List.dropWhile_cons_of_neg (not_whiteSpace (hl c List.mem_cons_self))
  have hchar := uuidText_char h
  unfold trim
  simp only [hdrop _ hchar]
  rw [hdrop _ fun c hc => hchar c (List.mem_reverse.mp hc), List.reverse_reverse, String.ofList_toList]

theorem Uuid.colon_not_mem (u : Uuid) : ':' ∉ u.text.toList := by
  intro h
  rcases uuidText_char u.isText _ h with h | h
  · exact absurd h (by decide)
  · cases h

def fingerprintText (userId eventId : Uuid) (quantity : Int) : String :=
  String.intercalate ":" ["v1", userId.text, eventId.text, toString quantity]

theorem createBookingRequestFingerprint_eq {input : CreateBookingInput} {u e : Uuid}
    (hu : Uuid.cast input.userId = .ok u) (he : Uuid.cast input.eventId = .ok e) :
    createBookingRequestFingerprint input = fingerprintText u e input.quantity := by
  obtain ⟨hut, hu⟩ := Uuid.cast_eq_ok.mp hu
  obtain ⟨het, he⟩ := Uuid.cast_eq_ok.mp he
  unfold createBookingRequestFingerprint fingerprintText
  rw [trim_uuidText hut, trim_uuidText het, ← hu, ← he]

theorem fingerprintText_inj {u e u' e' : Uuid} {q q' : Int} :
    fingerprintText u e q = fingerprintText u' e' q' ↔ u = u' ∧ e = e' ∧ q = q' := by
  have hfields : ∀ (u e : Uuid) (q : Int),
      ∀ x ∈ (["v1", u.text, e.text, toString q].map String.toList).dropLast, ':' ∉ x := by
    intro u e q x hx
    simp only [List.map_cons, List.map_nil, List.dropLast_cons_cons, List.dropLast_singleton, List.mem_cons,
      List.not_mem_nil, or_false] at hx
    rcases hx with rfl | rfl | rfl
    · decide
    · exact u.colon_not_mem
    · exact e.colon_not_mem
  unfold fingerprintText
  rw [← String.toList_inj, String.toList_intercalate, String.toList_intercalate,
    show (":" : String).toList = [':'] from rfl,
    intercalate_delimiter_inj (by rfl) (hfields u e q) (hfields u' e' q')]
  simp only [List.map_cons, List.map_nil, List.cons.injEq, and_true, true_and, String.toList_inj, Uuid.text_inj]
  exact and_congr_right fun _ => and_congr_right fun _ => Int.repr_inj

section
variable [Zod]

theorem request_casts {input : CreateBookingInput} (hs : createBookingSchema input = true) :
    ∃ u e, Uuid.cast input.userId = .ok u ∧ Uuid.cast input.eventId = .ok e := by
  unfold createBookingSchema at hs
  rw [Bool.and_eq_true, Bool.and_eq_true] at hs
  obtain ⟨u, hu⟩ := uuid_cast hs.1.1
  obtain ⟨e, he⟩ := uuid_cast hs.1.2
  exact ⟨u, e, hu, he⟩

theorem fingerprint_eq_iff {a b : CreateBookingInput} (ha : createBookingSchema a = true)
    (hb : createBookingSchema b = true) :
    createBookingRequestFingerprint a = createBookingRequestFingerprint b ↔ SameRequest a b := by
  obtain ⟨u, e, hu, he⟩ := request_casts ha
  obtain ⟨u', e', hu', he'⟩ := request_casts hb
  rw [createBookingRequestFingerprint_eq hu he, createBookingRequestFingerprint_eq hu' he', fingerprintText_inj]
  constructor
  · intro hx
    obtain ⟨rfl, rfl, hq⟩ := hx
    exact ⟨hu.trans hu'.symm, he.trans he'.symm, hq⟩
  · intro h
    exact ⟨Except.ok.inj (hu.symm.trans (h.userId.trans hu')), Except.ok.inj (he.symm.trans (h.eventId.trans he')),
      h.quantity⟩

end

/-! ## The backfill -/

/-- The row holds what the request asked for, whatever has become of the booking. -/
structure StoredFor (input : CreateBookingInput) (row : BookingRow) : Prop where
  userId : Uuid.cast input.userId = .ok row.userId
  eventId : Uuid.cast input.eventId = .ok row.eventId
  quantity : row.quantity = input.quantity

theorem storedFor_insert {input : CreateBookingInput} {draw : Draw} {row : BookingRow}
    (h : (createBookingData input draw).row draw.now = .ok row) : StoredFor input row := by
  have hs := BookingInsert.stores h
  exact ⟨hs.userId, hs.eventId, hs.quantity⟩

theorem StoredFor.setStatus {input : CreateBookingInput} {row : BookingRow} (h : StoredFor input row)
    (status : BookingStatus) (now : Date) : StoredFor input (setStatus status now row) :=
  ⟨h.userId, h.eventId, h.quantity⟩

/-- `concat('v1:', lower("user_id"::text), ':', lower("event_id"::text), ':', "quantity"::text)`. -/
def backfilledFingerprint (booking : BookingRow) : String :=
  String.join
    ["v1:", toLowerCase booking.userId.text, ":", toLowerCase booking.eventId.text, ":", toString booking.quantity]

theorem backfilledFingerprint_eq (booking : BookingRow) :
    backfilledFingerprint booking = fingerprintText booking.userId booking.eventId booking.quantity := by
  unfold backfilledFingerprint fingerprintText
  rw [booking.userId.lower, booking.eventId.lower, ← String.toList_inj]
  simp

theorem fingerprint_backfilled {input : CreateBookingInput} {row : BookingRow} (h : StoredFor input row) :
    backfilledFingerprint row = createBookingRequestFingerprint input := by
  rw [backfilledFingerprint_eq, createBookingRequestFingerprint_eq h.userId h.eventId, h.quantity]

/-! ## The migration -/

/-- `booking_idempotency_keys` before the migration. -/
structure LegacyIdempotencyRow where
  key : String
  bookingId : Uuid
  response : BookingDto
  createdAt : Date
  deriving DecidableEq

def legacyIdempotencySchema : Schema LegacyIdempotencyRow String Uuid := ⟨(·.key), fun r => some r.bookingId⟩

structure LegacyBookingDb where
  bookings : Table bookingSchema
  idempotencyKeys : Table legacyIdempotencySchema
  processed : Table processedSchema
  outbox : OutboxTable

/-- The `UPDATE … FROM "bookings"`; the column of a record without a booking stays NULL. -/
def backfill (bookings : Table bookingSchema) (r : LegacyIdempotencyRow) : Option IdempotencyRow :=
  (bookings.find r.bookingId).map fun booking =>
    ⟨r.key, r.bookingId, backfilledFingerprint booking, r.response, r.createdAt⟩

theorem backfill_eq_some {bookings : Table bookingSchema} {r : LegacyIdempotencyRow} {r' : IdempotencyRow} :
    backfill bookings r = some r' ↔ ∃ booking, bookings.find r.bookingId = some booking ∧
      r' = ⟨r.key, r.bookingId, backfilledFingerprint booking, r.response, r.createdAt⟩ := by
  unfold backfill
  rw [Option.map_eq_some_iff]
  exact exists_congr fun _ => and_congr_right fun _ => eq_comm

theorem backfill_key (bookings : Table bookingSchema) (r : LegacyIdempotencyRow) (r' : IdempotencyRow)
    (h : backfill bookings r = some r') : idempotencySchema.key r' = legacyIdempotencySchema.key r := by
  obtain ⟨_, _, rfl⟩ := backfill_eq_some.mp h
  rfl

theorem backfill_unique (bookings : Table bookingSchema) (r : LegacyIdempotencyRow) (r' : IdempotencyRow)
    (h : backfill bookings r = some r') : idempotencySchema.unique r' = legacyIdempotencySchema.unique r := by
  obtain ⟨_, _, rfl⟩ := backfill_eq_some.mp h
  rfl

/-- The migration fails on a record without a booking (`SET NOT NULL`) and on a booking of no seats (the CHECK). -/
def migrate (d : LegacyBookingDb) : Option BookingDb :=
  if (∀ r ∈ d.idempotencyKeys.rows, (backfill d.bookings r).isSome) ∧
    ∀ booking ∈ d.bookings.rows, 0 < booking.quantity then
    some
      { bookings := d.bookings
        idempotencyKeys := d.idempotencyKeys.filterMap (backfill d.bookings) (backfill_key _) (backfill_unique _)
        processed := d.processed
        outbox := d.outbox }
  else none

/-- A migrated record answers the accepted requests with its key: the stored one is replayed, any other refused. -/
theorem migrated_replay [Zod] {d : LegacyBookingDb} {d' : BookingDb} {record : LegacyIdempotencyRow}
    {row : BookingRow} {input again : CreateBookingInput} (hm : migrate d = some d')
    (hr : record ∈ d.idempotencyKeys.rows)
    (hrow : row ∈ d.bookings.rows) (hid : row.id = record.bookingId) (hs : createBookingSchema input = true)
    (hstored : StoredFor input row) (ha : createBookingSchema again = true)
    (hkey : truthy again.idempotencyKey = some record.key) (indexed : String → Bool) (draw : Draw) :
    (SameRequest again input → createBookingReply indexed again draw d' = .ok record.response) ∧
    (¬ SameRequest again input →
      createBookingReply indexed again draw d' = .error (.app BookingErrors.idempotencyKeyReused)) := by
  obtain ⟨_, rfl⟩ := guard_eq_some.mp hm
  have hfind : d.bookings.find record.bookingId = some row := Table.find_eq_some.mpr ⟨hrow, hid⟩
  have hlegacy : d.idempotencyKeys.find record.key = some record := Table.find_eq_some.mpr ⟨hr, rfl⟩
  have hrecord := Table.find_filterMap (backfill_key d.bookings) (backfill_unique d.bookings) hlegacy
    (backfill_eq_some.mpr ⟨row, hfind, rfl⟩)
  have hreply : ∀ d0 : BookingDb, d0.idempotencyKeys =
      d.idempotencyKeys.filterMap (backfill d.bookings) (backfill_key _) (backfill_unique _) →
      createBookingReply indexed again draw d0 = replay ⟨record.key, record.bookingId, backfilledFingerprint row,
        record.response, record.createdAt⟩ (createBookingRequestFingerprint again) := by
    intro d0 h0
    have hlookup : createBookingRecord again d0 = some ⟨record.key, record.bookingId, backfilledFingerprint row,
        record.response, record.createdAt⟩ := by
      unfold createBookingRecord findIdempotencyRecord
      rw [hkey, Option.bind_some, h0]; exact hrecord
    unfold createBookingReply
    rw [hlookup]
  rw [hreply _ rfl, fingerprint_backfilled hstored]
  have hsame := fingerprint_eq_iff hs ha
  constructor
  · intro h
    exact replay_own (hsame.mpr ⟨h.userId.symm, h.eventId.symm, h.quantity.symm⟩)
  · intro h
    refine replay_other fun e => h ?_
    have hback := hsame.mp e
    exact ⟨hback.userId.symm, hback.eventId.symm, hback.quantity.symm⟩

/-! ## The records of the service -/

/-- Every record carries the fingerprint the migration would compute for it. -/
structure Fingerprinted (d : BookingDb) : Prop where
  quantity : ∀ booking ∈ d.bookings.rows, 0 < booking.quantity
  record : ∀ r ∈ d.idempotencyKeys.rows, ∃ booking, d.bookings.find r.bookingId = some booking ∧
    r.requestFingerprint = backfilledFingerprint booking

section
variable {d d' : BookingDb}

theorem Fingerprinted.created {input : CreateBookingInput} {draw : Draw} {row : BookingRow} (h : Fingerprinted d)
    (hc : Created (createBookingData input draw) (createBookingOutbox input draw) draw.now d row d') :
    Fingerprinted d' := by
  have hrows := Table.insert_rows hc.bookings
  have hfind := Table.find_insert hc.bookings
  have hkept : ∀ id booking, d.bookings.find id = some booking → d'.bookings.find id = some booking := by
    intro id booking hb
    rw [hfind]
    by_cases hid : id = row.id
    · have hnone := Table.find_before_insert hc.bookings
      rw [booking_key, ← hid, hb] at hnone; cases hnone
    · rw [booking_key, if_neg hid]; exact hb
  have hold : ∀ r ∈ d.idempotencyKeys.rows, ∃ booking, d'.bookings.find r.bookingId = some booking ∧
      r.requestFingerprint = backfilledFingerprint booking := by
    intro r hr
    obtain ⟨booking, hb, he⟩ := h.record r hr
    exact ⟨booking, hkept _ _ hb, he⟩
  refine ⟨fun booking hb => ?_, fun r hr => ?_⟩
  · rw [hrows, List.mem_append, List.mem_singleton] at hb
    rcases hb with hb | rfl
    · exact h.quantity booking hb
    · exact (BookingInsert.stores hc.row_eq).positive
  · have hkeys := hc.idempotencyKeys
    cases hk : truthy (createBookingData input draw).idempotencyKey with
    | none =>
      rw [hk] at hkeys
      exact hold r (hkeys ▸ hr)
    | some key =>
      rw [hk] at hkeys
      rw [Table.insert_rows hkeys, List.mem_append, List.mem_singleton] at hr
      rcases hr with hr | rfl
      · exact hold r hr
      · refine ⟨row, ?_, (fingerprint_backfilled (storedFor_insert hc.row_eq)).symm⟩
        rw [hfind, booking_key, if_pos rfl]

theorem Fingerprinted.moved {row : BookingRow} {status : BookingStatus} {now : Date} (h : Fingerprinted d)
    (hb : d.bookings.Replaced row (setStatus status now row) d'.bookings)
    (hk : d'.idempotencyKeys = d.idempotencyKeys) : Fingerprinted d' := by
  refine ⟨fun booking hm => ?_, fun r hr => ?_⟩
  · rcases hb.mem_iff.mp hm with rfl | hm
    · exact h.quantity row hb.mem
    · exact h.quantity booking hm.1
  · rw [hk] at hr
    obtain ⟨booking, hf, he⟩ := h.record r hr
    by_cases hid : r.bookingId = row.id
    · have hrow : d.bookings.find r.bookingId = some row := Table.find_eq_some.mpr ⟨hb.mem, hid.symm⟩
      obtain rfl := Option.some.inj (hf.symm.trans hrow)
      refine ⟨setStatus status now booking, ?_, he⟩
      rw [hb.find, booking_key, if_pos hid]
    · refine ⟨booking, ?_, he⟩
      rw [hb.find, booking_key, if_neg hid]; exact hf

theorem Fingerprinted.same (h : Fingerprinted d) (hb : d'.bookings = d.bookings)
    (hk : d'.idempotencyKeys = d.idempotencyKeys) : Fingerprinted d' := by
  refine ⟨fun booking hm => h.quantity booking (hb ▸ hm), fun r hr => ?_⟩
  rw [hb]
  exact h.record r (hk ▸ hr)

end

theorem fingerprinted_step [Zod] {deliverable : System → Topic → Message → Bool} {s s' : System} {l : Label}
    (h : Fingerprinted s.booking) (hs : Step deliverable s l s') : Fingerprinted s'.booking := by
  cases hs with
  | book schema created => exact h.created created
  | cancel reading cancelled => exact h.moved cancelled.bookings cancelled.idempotencyKeys
  | settle outcome delivered settled => exact h.moved settled.bookings settled.idempotencyKeys
  | unsettled outcome delivered unsettled => exact h.same unsettled.bookings unsettled.idempotencyKeys
  | bookkeep service op =>
    cases service with
    | booking => exact h.same rfl rfl
    | event => exact h
  | idle | read | reserve | refuse | invalid | release | unreleased | create | rebase | delete | notify
  | publishDirect | dispatch => exact h

def BookingDb.legacy (d : BookingDb) : LegacyBookingDb where
  bookings := d.bookings
  idempotencyKeys := d.idempotencyKeys.filterMap
    (fun r => some (LegacyIdempotencyRow.mk r.key r.bookingId r.response r.createdAt))
    (fun _ _ h => by cases h; rfl) fun _ _ h => by cases h; rfl
  processed := d.processed
  outbox := d.outbox

/-- Migrating what the previous version stored gives the records this version writes. -/
theorem migrate_legacy {d : BookingDb} (h : Fingerprinted d) : migrate d.legacy = some d := by
  have hback : ∀ r ∈ d.idempotencyKeys.rows,
      backfill d.bookings ⟨r.key, r.bookingId, r.response, r.createdAt⟩ = some r := by
    intro r hr
    obtain ⟨booking, hf, he⟩ := h.record r hr
    refine backfill_eq_some.mpr ⟨booking, hf, ?_⟩
    rw [← he]
  have hrows : d.legacy.idempotencyKeys.rows =
      d.idempotencyKeys.rows.map fun r => LegacyIdempotencyRow.mk r.key r.bookingId r.response r.createdAt := by
    show d.idempotencyKeys.rows.filterMap _ = _
    rw [← List.filterMap_eq_map]; rfl
  refine guard_eq_some.mpr ⟨⟨fun r hr => ?_, h.quantity⟩, ?_⟩
  · rw [hrows] at hr
    obtain ⟨r', hr', rfl⟩ := List.mem_map.mp hr
    show (backfill d.bookings _).isSome = true
    rw [hback r' hr']; rfl
  · have hkeys : d.legacy.idempotencyKeys.filterMap (backfill d.bookings) (backfill_key _) (backfill_unique _) =
        d.idempotencyKeys := by
      apply Table.ext
      show d.legacy.idempotencyKeys.rows.filterMap (backfill d.bookings) = d.idempotencyKeys.rows
      rw [hrows, List.filterMap_map]
      exact (List.filterMap_congr hback).trans List.filterMap_some
    exact congrArg (fun idempotencyKeys => { d with idempotencyKeys }) hkeys

theorem migration_restores_records [Zod] {s : System} (h : opened.Reach s) :
    migrate s.booking.legacy = some s.booking := by
  refine migrate_legacy (Machine.Reach.inv (I := fun s => Fingerprinted s.booking) ?_ ?_ h)
  · intro s0 h0
    obtain rfl := (show s0 = System.empty from h0)
    exact ⟨fun _ hb => (by cases hb), fun _ hr => (by cases hr)⟩
  · intro s0 l s1 _ hi he
    exact fingerprinted_step hi (opened_step he)

/-- A fingerprint is the identity of the request, at run time and in the migration,
so a migrated record answers as one of this version does. -/
theorem fingerprint_is_request_identity [Zod] :
    (∀ a b, createBookingSchema a = true → createBookingSchema b = true →
      (createBookingRequestFingerprint a = createBookingRequestFingerprint b ↔ SameRequest a b)) ∧
    (∀ input draw row, (createBookingData input draw).row draw.now = .ok row →
      StoredFor input row ∧ ∀ status now, StoredFor input (setStatus status now row)) ∧
    (∀ input row, createBookingSchema input = true → StoredFor input row →
      backfilledFingerprint row = createBookingRequestFingerprint input) ∧
    ∀ d d' record row input again indexed draw, migrate d = some d' → record ∈ d.idempotencyKeys.rows →
      row ∈ d.bookings.rows → row.id = record.bookingId → createBookingSchema input = true → StoredFor input row →
      createBookingSchema again = true → truthy again.idempotencyKey = some record.key →
      (SameRequest again input → createBookingReply indexed again draw d' = .ok record.response) ∧
      (¬ SameRequest again input →
        createBookingReply indexed again draw d' = .error (.app BookingErrors.idempotencyKeyReused)) := by
  refine ⟨fun a b ha hb => fingerprint_eq_iff ha hb, fun input draw row h => ?_, fun input row _ h => ?_, ?_⟩
  · have hstored := storedFor_insert h
    exact ⟨hstored, fun status now => hstored.setStatus status now⟩
  · exact fingerprint_backfilled h
  · intro d d' record row input again indexed draw hm hr hrow hid hs hstored ha hkey
    exact migrated_replay hm hr hrow hid hs hstored ha hkey indexed draw

/-! ## An upgrade -/

def upgradeRequest (userId : String) (quantity : Int) : CreateBookingInput :=
  ⟨userId, sampleText 1, quantity, some "upgrade-key"⟩

def upgradeBooking : BookingRow :=
  ⟨(sample 2).val, (sample 10).val, (sample 1).val, 2, .pending, some "upgrade-key", 0, 0⟩

def upgradeRecord : LegacyIdempotencyRow := ⟨"upgrade-key", (sample 2).val, upgradeBooking.mapRow, 0⟩

def beforeUpgrade : LegacyBookingDb where
  bookings := ⟨[upgradeBooking], List.nodup_singleton _, List.nodup_singleton _⟩
  idempotencyKeys := ⟨[upgradeRecord], List.nodup_singleton _, List.nodup_singleton _⟩
  processed := .empty
  outbox := .empty

theorem replayed_after_upgrade : ∃ d, migrate beforeUpgrade = some d ∧
    createBookingReply (fun _ => true) (upgradeRequest sampleUpperText 2) (sampleDraw 3 4 5 0 0) d =
      .ok upgradeBooking.mapRow ∧
    createBookingReply (fun _ => true) (upgradeRequest sampleUpperText 3) (sampleDraw 3 4 5 0 0) d =
      .error (.app BookingErrors.idempotencyKeyReused) := by
  have hsome : (migrate beforeUpgrade).isSome = true := by decide
  obtain ⟨d, hd⟩ := Option.isSome_iff_exists.mp hsome
  have hlower : Uuid.cast (sampleText 10) = .ok (sample 10).val := Uuid.cast_text (sample 10).val
  have hupper : Uuid.cast sampleUpperText = .ok (sample 10).val := Uuid.cast_eq_ok.mpr ⟨by decide, by decide⟩
  have hstored : StoredFor (upgradeRequest (sampleText 10) 2) upgradeBooking :=
    ⟨hlower, Uuid.cast_text (sample 1).val, rfl⟩
  obtain ⟨_, _, _, hreplay⟩ := @fingerprint_is_request_identity zod4
  have hanswer := fun q hq => hreplay beforeUpgrade d upgradeRecord upgradeBooking
    (upgradeRequest (sampleText 10) 2) (upgradeRequest sampleUpperText q) (fun _ => true) (sampleDraw 3 4 5 0 0)
    hd List.mem_cons_self List.mem_cons_self rfl (by decide) hstored hq rfl
  refine ⟨d, hd, (hanswer 2 (by decide)).1 ⟨hupper.trans hlower.symm, rfl, rfl⟩,
    (hanswer 3 (by decide)).2 fun h => ?_⟩
  exact absurd h.quantity (by decide)

end EventBooking
