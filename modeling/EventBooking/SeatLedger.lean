import EventBooking.Steps
import EventBooking.Zod4

/-!
# The seat ledger of the Event Service

`reservedFor` reads the reserved count of an event, `balance` computes it from
the history of applied messages. Five operations write the two seat columns;
each is shown once to move `reservedFor` as it moves the history.
-/

namespace EventBooking
open Lib

def reservedFor (d : EventDb) (e : Uuid) : Int := (d.events.find e).elim 0 fun row => row.seats.reserved

def SeatChange.apply (e : Uuid) (n : Int) : SeatChange → Int
  | .created e' => if e' = e then 0 else n
  | .reserved _ p => if Uuid.cast p.eventId = .ok e then n + p.quantity else n
  | .released _ p => if Uuid.cast p.eventId = .ok e then n - p.quantity else n

def SeatChange.sign : SeatChange → Int
  | .created _ => 0
  | .reserved _ _ => 1
  | .released _ _ => -1

/-- The reserve messages applied to the event minus the release messages, since its row was created. -/
def balance (changes : List SeatChange) (e : Uuid) : Int := changes.foldl (SeatChange.apply e) 0

def SeatChange.messageId : SeatChange → Option String
  | .created _ => none
  | .reserved messageId _ => some messageId
  | .released messageId _ => some messageId

def appliedIds (changes : List SeatChange) : List String := changes.filterMap SeatChange.messageId

theorem balance_append (changes : List SeatChange) (c : SeatChange) (e : Uuid) :
    balance (changes ++ [c]) e = c.apply e (balance changes e) := by
  unfold balance; rw [List.foldl_append]; rfl

theorem appliedIds_append (changes : List SeatChange) (c : SeatChange) :
    appliedIds (changes ++ [c]) = appliedIds changes ++ c.messageId.toList := by
  unfold appliedIds
  rw [List.filterMap_append]
  cases c <;> rfl

/-! ## The five writers -/

section
variable {d d' : EventDb}

theorem reservedFor_congr (h : d'.events = d.events) (e : Uuid) : reservedFor d' e = reservedFor d e := by
  unfold reservedFor; rw [h]

theorem reservedFor_of_mem {row : EventRow} (h : row ∈ d.events.rows) :
    reservedFor d row.id = row.seats.reserved := by
  unfold reservedFor
  have : d.events.find row.id = some row := Table.find_eq_some.mpr ⟨h, rfl⟩
  rw [this, Option.elim_some]

theorem reservedFor_replaced {row row' : EventRow} (h : d.events.Replaced row row' d'.events) (e : Uuid) :
    reservedFor d' e = if e = row.id then row'.seats.reserved else reservedFor d e := by
  unfold reservedFor
  rw [h.find, event_key]
  by_cases he : e = row.id
  · rw [if_pos he, if_pos he, Option.elim_some]
  · rw [if_neg he, if_neg he]

theorem Reserved.reservedFor {input : ProcessReserveSeatsInput} {now : Date} {row row' : EventRow}
    (h : Reserved input now d row row' d') (e : Uuid) :
    reservedFor d' e =
      if Uuid.cast input.eventId = .ok e then EventBooking.reservedFor d e + input.quantity
      else EventBooking.reservedFor d e := by
  rw [reservedFor_replaced h.events e, h.row_id]
  by_cases he : e = row.id
  · subst he
    rw [if_pos rfl, if_pos rfl, reservedFor_of_mem h.events.mem]
    unfold Seats.reserved
    rw [h.total, h.available]; omega
  · rw [if_neg he, if_neg fun e' => he (Except.ok.inj e').symm]

theorem Released.reservedFor {input : ProcessReleaseSeatsInput} {now : Date} {row row' : EventRow}
    (h : Released input now d row row' d') (e : Uuid) :
    reservedFor d' e =
      if Uuid.cast input.eventId = .ok e then EventBooking.reservedFor d e - input.quantity
      else EventBooking.reservedFor d e := by
  rw [reservedFor_replaced h.events e, h.row_id]
  by_cases he : e = row.id
  · subst he
    rw [if_pos rfl, if_pos rfl, reservedFor_of_mem h.events.mem]
    unfold Seats.reserved
    rw [h.total, h.available]; omega
  · rw [if_neg he, if_neg fun e' => he (Except.ok.inj e').symm]

theorem Rebased.reservedFor {id : String} {input : EventInput} {row row' : EventRow}
    (h : Rebased id input d row row' d') (e : Uuid) : reservedFor d' e = EventBooking.reservedFor d e := by
  rw [reservedFor_replaced h.events e]
  split
  · rename_i he
    rw [he, reservedFor_of_mem h.events.mem, h.reserved]
  · rfl

theorem Deleted.reservedFor {id : String} {row : EventRow} (h : Deleted id d row d') (e : Uuid) :
    reservedFor d' e = EventBooking.reservedFor d e := by
  by_cases he : e = row.id
  · subst he
    rw [reservedFor_of_mem h.mem, h.unreserved]
    unfold EventBooking.reservedFor
    rw [Table.find_eq_none.mpr fun x hx => ((h.events x).mp hx).2, Option.elim_none]
  · unfold EventBooking.reservedFor
    rw [Table.find_congr fun x hx => ?_]
    rw [h.events x]
    exact ⟨fun hm => hm.1, fun hm => ⟨hm, fun e' => he (hx.symm.trans e')⟩⟩

theorem EventCreated.reservedFor {input : EventCreate} {now : Date} {row : EventRow}
    (h : EventCreated input now d row d') (ha : input.availableSeats = none) (e : Uuid) :
    reservedFor d' e = EventBooking.reservedFor d e ∧ (e = input.id.val → EventBooking.reservedFor d' e = 0) := by
  have hz : row.seats.reserved = 0 := by
    unfold Seats.reserved
    rw [h.total, h.available, ha]; simp
  have hf : d.events.find row.id = none := Table.find_before_insert h.events
  unfold EventBooking.reservedFor
  rw [Table.find_insert h.events, event_key]
  by_cases he : e = row.id
  · rw [if_pos he, he, hf, Option.elim_some, Option.elim_none]; exact ⟨hz, fun _ => hz⟩
  · rw [if_neg he]; exact ⟨rfl, fun e' => absurd (e'.trans h.row_id.symm) he⟩

end

/-! ## The ledger -/

structure Ledger (s : System) : Prop where
  balanced : ∀ e, reservedFor s.event e = balance s.changes e
  once : (appliedIds s.changes).Nodup
  consumed : ∀ id ∈ appliedIds s.changes, id ∈ inbox s.event.processed

theorem ledger_empty : Ledger System.empty :=
  ⟨fun _ => rfl, List.nodup_nil, fun _ h => absurd h List.not_mem_nil⟩

section
variable {s s' : System} {l : Label} (h : Ledger s)
include h

theorem Ledger.same (he : ∀ e, reservedFor s'.event e = reservedFor s.event e) (hc : s'.changes = s.changes)
    (hi : ∀ id ∈ inbox s.event.processed, id ∈ inbox s'.event.processed) : Ledger s' where
  balanced e := by rw [he, h.balanced, hc]
  once := hc ▸ h.once
  consumed id hid := hi id (h.consumed id (hc ▸ hid))

theorem Ledger.applied {c : SeatChange} {id : String} {now : Date}
    (hc : s'.changes = s.changes ++ [c]) (hid : c.messageId = some id)
    (he : ∀ e, reservedFor s'.event e = c.apply e (reservedFor s.event e))
    (hp : s.event.processed.insert ⟨id, now⟩ = some s'.event.processed) : Ledger s' := by
  obtain ⟨hin, hnew⟩ := inbox_insert hp
  refine ⟨fun e => ?_, ?_, fun x hx => ?_⟩
  · rw [he, h.balanced, hc, balance_append]
  · rw [hc, appliedIds_append, hid, Option.toList_some, List.nodup_append]
    refine ⟨h.once, List.nodup_singleton _, fun a ha b hb => ?_⟩
    rw [List.mem_singleton] at hb
    exact fun e => hnew (h.consumed id (hb ▸ e ▸ ha))
  · rw [hc, appliedIds_append, hid, Option.toList_some, List.mem_append, List.mem_singleton] at hx
    rw [hin, List.mem_append, List.mem_singleton]
    exact hx.imp (h.consumed x) fun e => e

theorem ledger_step [Zod] {deliverable : System → Topic → Message → Bool} (hs : Step deliverable s l s') :
    Ledger s' := by
  cases hs with
  | idle => exact h
  | book | read | cancel | settle | unsettled | notify | publishDirect | dispatch =>
    exact h.same (fun _ => rfl) rfl fun _ hid => hid
  | reserve delivered payload reserved =>
    exact h.applied rfl rfl (fun e => reserved.reservedFor e) reserved.processed
  | refuse delivered payload refused =>
    refine h.same (reservedFor_congr refused.events) rfl fun id hid => ?_
    rw [(inbox_insert refused.processed).1]; exact List.mem_append_left _ hid
  | invalid delivered payload quantity ignored =>
    refine h.same (reservedFor_congr ignored.events) rfl fun id hid => ?_
    rw [(inbox_insert ignored.processed).1]; exact List.mem_append_left _ hid
  | release delivered payload released =>
    exact h.applied rfl rfl (fun e => released.reservedFor e) released.processed
  | unreleased delivered payload ignored =>
    refine h.same (reservedFor_congr ignored.events) rfl fun id hid => ?_
    rw [(inbox_insert ignored.processed).1]; exact List.mem_append_left _ hid
  | create created =>
    rename_i input draw row event
    refine ⟨fun e => ?_, ?_, fun id hid => ?_⟩
    · rw [balance_append]
      obtain ⟨hsame, hzero⟩ := created.reservedFor rfl e
      show _ = if draw.id.val = e then 0 else balance s.changes e
      split
      · rename_i he; exact hzero he.symm
      · rw [hsame, h.balanced]
    · rw [appliedIds_append]; simpa [SeatChange.messageId] using h.once
    · rw [appliedIds_append] at hid
      show id ∈ inbox event.processed
      rw [created.processed]
      exact h.consumed id (by simpa [SeatChange.messageId] using hid)
  | rebase rebased =>
    refine h.same rebased.reservedFor rfl fun id hid => ?_
    show id ∈ inbox _; rw [rebased.processed]; exact hid
  | delete deleted =>
    refine h.same deleted.reservedFor rfl fun id hid => ?_
    show id ∈ inbox _; rw [deleted.processed]; exact hid
  | bookkeep service op =>
    cases service with
    | booking => exact h.same (fun _ => rfl) rfl fun _ hid => hid
    | event => exact h.same (fun _ => rfl) rfl fun _ hid => hid

end

theorem ledger_opened [Zod] {s : System} (h : opened.Reach s) : Ledger s := by
  refine Machine.Reach.inv ?_ ?_ h
  · intro s0 h0
    rw [show s0 = System.empty from h0]; exact ledger_empty
  · intro s0 l s1 _ hi he
    exact ledger_step hi (opened_step he)

/-! ## The replies -/

section
variable {d d' later : EventDb} {id : String} {input : EventInput} {now : Date}

/-- Whatever a later re-read sees, only an UPDATE that returned a row is answered with an event. -/
theorem updateEvent_ok {row : Except DbError (Option EventRow)} :
    (∃ dto, updateEvent id row later = .ok dto) ↔ ∃ row', row = .ok (some row') := by
  have hnone : ∀ dto, updateEvent id (.ok none) later ≠ .ok dto := by
    intro dto h
    unfold updateEvent updateResult at h
    cases hf : eventFindUnique id later with
    | error e => simp [hf, bind, Except.bind] at h
    | ok p => cases hp : p.1.isSome <;> simp [hf, hp, bind, Except.bind, pure, Except.pure] at h
  cases row with
  | error e => exact ⟨fun ⟨_, h⟩ => (by cases h), fun ⟨_, h⟩ => (by cases h)⟩
  | ok o =>
    cases o with
    | some row' => exact ⟨fun _ => ⟨row', rfl⟩, fun _ => ⟨row'.mapRow, rfl⟩⟩
    | none => exact ⟨fun ⟨dto, h⟩ => absurd h (hnone dto), fun ⟨_, h⟩ => (by cases h)⟩

theorem error_iff_not_ok {ε α : Type} {x : Except ε α} : (∃ e, x = .error e) ↔ ¬ ∃ a, x = .ok a := by
  cases x with
  | error e => exact ⟨fun _ ⟨a, h⟩ => (by cases h), fun _ => ⟨e, rfl⟩⟩
  | ok a => exact ⟨fun ⟨e, h⟩ => (by cases h), fun h => absurd ⟨a, rfl⟩ h⟩

/-- The total and the title of a request are values of their columns. -/
def Storable (input : EventInput) : Prop := input.totalSeats ≤ 2147483647 ∧ storableText input.title = true

/-- The UPDATE of an existing event returns a row exactly when the capacity covers what is reserved
and the columns hold the request. -/
theorem updateStatement_some {row : EventRow} (hrow : row ∈ d.events.rows) (hid : Uuid.cast id = .ok row.id)
    (ht : 0 < input.totalSeats) : (∃ row', (autocommit (updateStatement id input now) d).1 = .ok (some row')) ↔
      row.seats.reserved ≤ input.totalSeats ∧ Storable input := by
  constructor
  · intro h
    obtain ⟨row', h⟩ := h
    rcases autocommit_cases (Prod.mk.eta (p := autocommit (updateStatement id input now) d)).symm with hc | hc
    · obtain ⟨_, e, _, he⟩ := hc
      rw [h] at he; cases he
    · obtain ⟨o, ho, he⟩ := hc
      have he := Except.ok.inj (h.symm.trans he)
      subst he
      have hfit : Storable input := by
        obtain ⟨title, htitle, hrest⟩ := except_bind_ok.mp ho
        obtain ⟨t, ht, _⟩ := except_bind_ok.mp hrest
        exact ⟨(int4_eq_ok.mp ht).2.2, (text_eq_ok.mp htitle).2⟩
      rcases updateStatement_cases ho with hc | hc
      · cases hc.1
      · obtain ⟨r, r', _, hr⟩ := hc
        have : r = row := Table.key_inj hr.events.mem hrow (Except.ok.inj (hr.row_id.symm.trans hid))
        exact ⟨this ▸ hr.allowed, hfit⟩
  · intro h
    obtain ⟨hle, hfit, htitle⟩ := h
    have h0 : 0 ≤ row.seats.reserved := by
      unfold Seats.reserved; have := row.seats.available_not_above_total; omega
    let s' : Seats := ⟨input.totalSeats, input.totalSeats - row.seats.reserved, hfit, ht, by omega, by omega⟩
    have hs : row.seats.rebase input.totalSeats = .ok (some s') := by
      rw [rebase_eq_ok]
      refine Or.inl ⟨hle, s', rfl, rfl, ?_⟩
      show input.totalSeats - (input.totalSeats - row.seats.reserved) = _; omega
    have hre : reseat (Seats.rebase input.totalSeats) now row = .ok (some (row.setSeats now s')) :=
      reseat_eq_some.mpr ⟨hs, rfl⟩
    have htext : text input.title = .ok input.title := text_eq_ok.mpr ⟨rfl, htitle⟩
    have hint : int4 input.totalSeats = .ok input.totalSeats := int4_eq_ok.mpr ⟨rfl, by omega, hfit⟩
    have hfind : d.events.find row.id = some row := Table.find_eq_some.mpr ⟨hrow, rfl⟩
    refine ⟨EventRow.describe input.title input.date (row.setSeats now s'), ?_⟩
    unfold autocommit updateStatement eventUpdate
    simp [htext, hint, hid, hfind, hre, bind, Except.bind, pure, Except.pure]

end

/-! ## Arbitrary traffic -/

/-- `updateEvent` sets the requested total and keeps what is reserved, or leaves
the rows alone. It refuses an existing event exactly below what is reserved, for
the requests below it and those that the columns hold. -/
structure UpdateMeets (d : EventDb) (id : String) (input : EventInput) (now : Date) (later : EventDb) : Prop where
  accepted : (∃ dto, updateEvent id (autocommit (updateStatement id input now) d).1 later = .ok dto) →
    ∃ row row', Rebased id input d row row' (autocommit (updateStatement id input now) d).2
  refused : (∃ e, updateEvent id (autocommit (updateStatement id input now) d).1 later = .error e) →
    (autocommit (updateStatement id input now) d).2 = d
  exactly : ∀ row ∈ d.events.rows, Uuid.cast id = .ok row.id →
    (((∃ e, updateEvent id (autocommit (updateStatement id input now) d).1 later = .error e) ↔
        input.totalSeats < row.seats.reserved) ↔
      input.totalSeats < row.seats.reserved ∨ Storable input)

section
variable {d later : EventDb} {id : String} {input : EventInput} {now : Date} (ht : 0 < input.totalSeats)
include ht

theorem updateEvent_refused {row : EventRow} (hrow : row ∈ d.events.rows) (hid : Uuid.cast id = .ok row.id) :
    (∃ e, updateEvent id (autocommit (updateStatement id input now) d).1 later = .error e) ↔
      input.totalSeats < row.seats.reserved ∨ ¬ Storable input := by
  rw [error_iff_not_ok, updateEvent_ok, updateStatement_some hrow hid ht, not_and_or, Int.not_le]

theorem update_meets : UpdateMeets d id input now later := by
  have hcases := autocommit_cases (Prod.mk.eta (p := autocommit (updateStatement id input now) d)).symm
  refine ⟨fun h => ?_, fun h => ?_, fun row hrow hid => ?_⟩
  · obtain ⟨row', hr⟩ := updateEvent_ok.mp h
    rcases hcases with hc | hc
    · obtain ⟨_, e, _, he⟩ := hc
      rw [hr] at he; cases he
    · obtain ⟨o, ho, he⟩ := hc
      rcases updateStatement_cases ho with hc | hc
      · rw [hr, hc.1] at he; cases he
      · obtain ⟨row, row', _, hc⟩ := hc; exact ⟨row, row', hc⟩
  · rw [error_iff_not_ok, updateEvent_ok] at h
    rcases hcases with hc | hc
    · exact hc.1
    · obtain ⟨o, ho, he⟩ := hc
      rcases updateStatement_cases ho with hc | hc
      · exact hc.2.1
      · obtain ⟨row, row', rfl, _⟩ := hc; exact absurd ⟨row', he⟩ h
  · rw [updateEvent_refused ht hrow hid]
    by_cases hb : input.totalSeats < row.seats.reserved
    · simp [hb]
    · simp [hb]

end

theorem reserve_unless_reserved {message : MessageEnvelope ReserveSeatsPayload} {draw : Draw} {d d' : EventDb}
    {r : Except DbError ReserveSeatsResult} (h : Tx.transact (reserveSeats message draw) draw.budget d = (r, d'))
    (hr : ∀ dto id, r ≠ .ok (.reserved dto id)) : d'.events = d.events := by
  rcases processReserveSeatsMessage_cases h with hc | hc | hc | hc
  · rw [hc.1]
  · exact hc.2.2.events
  · obtain ⟨row, row', rfl, _⟩ := hc; exact absurd rfl (hr _ _)
  · obtain ⟨reason, _, hc⟩ := hc; exact hc.events

theorem release_unless_released {message : MessageEnvelope BookingEventQuantityPayload} {draw : Draw}
    {d d' : EventDb} {r : Except DbError ReleaseSeatsResult}
    (h : Tx.transact (releaseSeats message draw) draw.budget d = (r, d'))
    (hr : ∀ dto, r ≠ .ok (.released dto)) : d'.events = d.events := by
  rcases processReleaseSeatsMessage_cases h with hc | hc | hc
  · rw [hc.1]
  · exact hc.2.1.events
  · obtain ⟨row, row', rfl, _⟩ := hc; exact absurd rfl (hr _)

theorem delete_unreserved {d : EventDb} {id : String} {row : EventRow} (hrow : row ∈ d.events.rows)
    (h : row ∉ (autocommit (deleteStatement id) d).2.events.rows) : row.seats.reserved = 0 := by
  rcases autocommit_cases (Prod.mk.eta (p := autocommit (deleteStatement id) d)).symm with hc | hc
  · rw [hc.1] at h; exact absurd hrow h
  · obtain ⟨o, ho, _⟩ := hc
    rcases deleteStatement_cases ho with hc | hc
    · rw [hc.2.1] at h; exact absurd hrow h
    · obtain ⟨r, _, hr⟩ := hc
      have : row.id = r.id := by
        by_contra hne; exact h ((hr.events row).mpr ⟨hrow, hne⟩)
      rw [Table.key_inj hrow hr.mem this]; exact hr.unreserved

structure SeatLedger (s : System) : Prop where
  bounded : ∀ row ∈ s.event.events.rows,
    0 ≤ row.seats.available ∧ row.seats.available ≤ row.seats.total ∧ 0 < row.seats.total
  balanced : ∀ row ∈ s.event.events.rows, row.seats.total - row.seats.available = balance s.changes row.id
  once : (appliedIds s.changes).Nodup
  updated : ∀ id input now later, eventSchema input = true → UpdateMeets s.event id input now later
  deleted : ∀ id row, row ∈ s.event.events.rows → row ∉ (autocommit (deleteStatement id) s.event).2.events.rows →
    row.seats.reserved = 0
  not_reserved : ∀ message draw r event, Tx.transact (reserveSeats message draw) draw.budget s.event = (r, event) →
    (∀ dto id, r ≠ .ok (.reserved dto id)) → event.events = s.event.events
  not_released : ∀ message draw r event, Tx.transact (releaseSeats message draw) draw.budget s.event = (r, event) →
    (∀ dto, r ≠ .ok (.released dto)) → event.events = s.event.events

/-- Whatever schema-valid messages arrive, the seat columns keep their bounds
and are the balance of the messages applied, each at most once. -/
theorem seat_ledger [Zod] {s : System} (h : opened.Reach s) : SeatLedger s where
  bounded row _ :=
    ⟨row.seats.available_nonnegative, row.seats.available_not_above_total, row.seats.total_positive⟩
  balanced row hrow := by rw [← (ledger_opened h).balanced, reservedFor_of_mem hrow]; rfl
  once := (ledger_opened h).once
  updated id input now later hs := by
    unfold eventSchema positiveInt at hs
    simp only [Bool.and_eq_true, decide_eq_true_eq] at hs
    exact update_meets hs.2.1
  deleted id row := delete_unreserved
  not_reserved message draw r event := reserve_unless_reserved
  not_released message draw r event := release_unless_released

/-! ## Sample traffic -/

def concert : EventInput := ⟨"Concert", 0, 10⟩

def reserveThree : Message where
  messageId := sampleText 5
  correlationId := sampleText 6
  timestamp := toISOString 0
  version := 1
  payload := .reserveSeats ⟨sampleText 6, sampleText 1, sampleText 7, 3⟩

def sampleTraffic : List Label :=
  [.createEvent concert (sampleDraw 1 0 0 0 0), .deliver .reserveSeats reserveThree (sampleDraw 0 8 9 10 11)]

def seatColumns (s : System) : List (Uuid × Int × Int) :=
  s.event.events.rows.map fun r => (r.id, r.seats.total, r.seats.available)

theorem seat_ledger_after_reservation : ∃ s, (@opened zod4).run System.empty sampleTraffic = some s ∧
    seatColumns s = [((sample 1).val, 10, 7)] ∧ SeatLedger s := by
  have h : ((@opened zod4).run System.empty sampleTraffic).map seatColumns = some [((sample 1).val, 10, 7)] := by
    decide +kernel
  obtain ⟨s, hs, hseats⟩ := Option.map_eq_some_iff.mp h
  exact ⟨s, hs, hseats, @seat_ledger zod4 s (Machine.Reach.run (.start rfl) hs)⟩

/-- A capacity the schema admits and the column does not hold: nothing is
reserved above it, yet the existing event is refused. -/
theorem update_above_column_refused : ∃ s row, (@opened zod4).Reach s ∧ row ∈ s.event.events.rows ∧
    eventSchema ⟨"Concert", 0, 3000000000⟩ = true ∧ ¬ 3000000000 < row.seats.reserved ∧
    ∃ e, updateEvent row.id.text
      (autocommit (updateStatement row.id.text ⟨"Concert", 0, 3000000000⟩ 0) s.event).1 s.event = .error e := by
  have h : ((@opened zod4).run System.empty sampleTraffic).map seatColumns = some [((sample 1).val, 10, 7)] := by
    decide +kernel
  obtain ⟨s, hs, hseats⟩ := Option.map_eq_some_iff.mp h
  have hmem : ((sample 1).val, (10 : Int), (7 : Int)) ∈ seatColumns s := by
    rw [hseats]; exact List.mem_singleton.mpr rfl
  obtain ⟨row, hrow, he⟩ := List.mem_map.mp hmem
  have htotal : row.seats.total = 10 := congrArg (fun x => x.2.1) he
  have havail : row.seats.available = 7 := congrArg (fun x => x.2.2) he
  refine ⟨s, row, Machine.Reach.run (.start rfl) hs, hrow, by decide, ?_, ?_⟩
  · unfold Seats.reserved; omega
  · have hwide : ¬ Storable ⟨"Concert", 0, 3000000000⟩ := by
      intro h
      exact absurd h.1 (by decide)
    exact (updateEvent_refused (by decide) hrow (Uuid.cast_text row.id)).mpr (Or.inr hwide)

end EventBooking
