import EventBooking.Idempotency

/-!
# Calls without a key

Absence of a key is decided by truthiness in the service and in the
transaction, but the column stores what nullish coalescing leaves: an empty key
is stored, under a unique index. Key-less calls are independent of each other
as long as no stored booking has an empty key, and the quantity fits.
-/

namespace EventBooking
open Lib

/-! ## What a resolved call has stored -/

/-- The reply is the call's own booking, which is stored with one request for seats, the call's own. -/
def ResolvedNew (db : BookingDb) (c : CreateCall) (reply : Except ServiceError BookingDto) : Prop :=
  ∃ row, (createBookingData c.input c.draw).row c.draw.now = .ok row ∧ reply = .ok row.mapRow ∧ c.committed = true ∧
    (∃ r ∈ db.bookings.rows, r.id = c.draw.id.val) ∧
    (contents db.outbox).filter (requests c.draw.id.val) = [(createBookingOutbox c.input c.draw).stored]

structure KeepsBookings (db db' : BookingDb) : Prop where
  bookings : ∀ r ∈ db.bookings.rows, ∃ r' ∈ db'.bookings.rows, r'.id = r.id
  contents : ∀ m ∈ contents db.outbox, m ∈ EventBooking.contents db'.outbox

theorem KeepsBookings.refl (db : BookingDb) : KeepsBookings db db := ⟨fun r hr => ⟨r, hr, rfl⟩, fun _ hm => hm⟩

section
variable {db db' : BookingDb} {c : CreateCall}

theorem own_request (hd : DbOk db) (hb : ∃ r ∈ db.bookings.rows, r.id = c.draw.id.val)
    (hm : (createBookingOutbox c.input c.draw).stored ∈ contents db.outbox) :
    (contents db.outbox).filter (requests c.draw.id.val) = [(createBookingOutbox c.input c.draw).stored] := by
  obtain ⟨r, hr, hid⟩ := hb
  obtain ⟨m, hlist⟩ := List.length_eq_one_iff.mp (hd.requested r hr)
  rw [hid] at hlist
  have hown := List.mem_filter.mpr ⟨hm, (requests_own c.draw.id.val).mpr rfl⟩
  rw [hlist, List.mem_singleton] at hown
  rw [hlist, hown]

theorem ResolvedNew.mono {reply : Except ServiceError BookingDto} (h : ResolvedNew db c reply) (hd : DbOk db')
    (hk : KeepsBookings db db') : ResolvedNew db' c reply := by
  obtain ⟨row, hrow, hreply, hcommitted, ⟨r, hr, hid⟩, hlist⟩ := h
  obtain ⟨r', hr', hid'⟩ := hk.bookings r hr
  have hb : ∃ r ∈ db'.bookings.rows, r.id = c.draw.id.val := ⟨r', hr', hid'.trans hid⟩
  refine ⟨row, hrow, hreply, hcommitted, hb, own_request hd hb (hk.contents _ ?_)⟩
  exact (List.mem_filter.mp (hlist ▸ List.mem_singleton_self _)).1

theorem CreateCommits.keepsBookings {row : BookingRow} (h : CreateCommits c row db db') : KeepsBookings db db' := by
  constructor
  · intro r hr
    exact ⟨r, Table.insert_rows h.bookings ▸ List.mem_append_left _ hr, rfl⟩
  · intro m hm
    rw [contents_insert h.outbox]; exact List.mem_append_left _ hm

theorem ChangeCommits.keepsBookings {c : StatusChange} {changed : Option Uuid} {queued : Bool}
    (h : ChangeCommits c changed queued db db') : KeepsBookings db db' := by
  constructor
  · intro r hr
    refine ⟨if decide (some r.id = changed) = true then setStatus c.target c.now r else r, ?_, ?_⟩
    · rw [h.bookings]
      exact List.mem_map_of_mem hr
    · split
      · rfl
      · rfl
  · intro m hm
    have ho := h.outbox
    cases queued with
    | false => rw [Table.insertOption_none ho]; exact hm
    | true => rw [contents_insert (Table.insertOption_some ho)]; exact List.mem_append_left _ hm

theorem CreateCommits.resolved {c' : CreateCall} {row : BookingRow} (hd : DbOk db)
    (hrow : (createBookingData c.input c.draw).row c.draw.now = .ok row) (h : CreateCommits c row db db')
    (hc' : c' = { c with phase := c'.phase, committed := true }) : ResolvedNew db' c' (.ok row.mapRow) := by
  have hb : ∃ r ∈ db'.bookings.rows, r.id = c.draw.id.val :=
    ⟨row, Table.insert_rows h.bookings ▸ List.mem_append_right _ (List.mem_singleton_self _),
      (BookingInsert.stores hrow).id⟩
  have hm : (createBookingOutbox c.input c.draw).stored ∈ contents db'.outbox := by
    rw [contents_insert h.outbox]
    exact List.mem_append_right _ (List.mem_singleton_self _)
  rw [hc']
  exact ⟨row, hrow, rfl, rfl, hb, own_request (hd.create h hrow) hb hm⟩

end

/-! ## One step of a key-less call -/

/-- What a key-less request needs: a quantity that fits its column, and no other empty key. -/
def Admits (db : BookingDb) (input : CreateBookingInput) : Prop :=
  input.quantity ≤ int4Max ∧ (input.idempotencyKey = some "" → ∀ r ∈ db.bookings.rows, r.idempotencyKey ≠ some "")

def KeylessOk (db : BookingDb) (c : CreateCall) : Prop :=
  match c.phase with
  | .lookup | .recoverKey | .recoverBooking => False
  | .insertBooking | .insertKey _ | .insertOutbox _ | .commit _ => c.disturbed = false
  | .dispatch booking => ResolvedNew db c (.ok booking)
  | .done reply => ∀ booking, reply = .ok booking → ResolvedNew db c reply

theorem KeylessOk.mono {db db' : BookingDb} {c : CreateCall} (h : KeylessOk db c) (hd : DbOk db')
    (hk : KeepsBookings db db') : KeylessOk db' c := by
  unfold KeylessOk at h ⊢
  cases hp : c.phase with
  | lookup | insertBooking | insertKey | insertOutbox | commit | recoverKey | recoverBooking =>
    rw [hp] at h; exact h
  | dispatch booking => rw [hp] at h; exact h.mono hd hk
  | done reply => rw [hp] at h; exact fun booking hb => (h booking hb).mono hd hk

theorem keyless_iff {input : CreateBookingInput} :
    truthy input.idempotencyKey = none ↔ input.idempotencyKey = none ∨ input.idempotencyKey = some "" := by
  unfold truthy
  cases input.idempotencyKey with
  | none => simp
  | some key => simp

section
variable [Zod] (s : BookingCalls) (n : Nat) (c : CreateCall)

inductive KeylessStep : BookingCalls → Prop
  | refused {e : DbError} (phase : c.phase = .insertBooking) (unfit : ¬ Admits s.db c.input) :
      KeylessStep (s.goto n (.create { c with phase := .done (.error (.db e)) }))
  | collided {e : DbError} (fit : c.phase = .insertBooking → Admits s.db c.input) :
      KeylessStep (s.goto n (.create { c with phase := .done (.error (.db e)), disturbed := true }))
  | moved {phase : CreatePhase} (fit : c.phase = .insertBooking → Admits s.db c.input)
      (ok : KeylessOk s.db { c with phase }) (open' : ∀ reply, phase ≠ .done reply) :
      KeylessStep (s.goto n (.create { c with phase }))
  | committed {row : BookingRow} {db : BookingDb} (phase : c.phase = .commit row)
      (commits : CreateCommits c row s.db db) :
      KeylessStep ({ s with db }.goto n (.create { c with phase := .dispatch row.mapRow, committed := true }))
  | replied {booking : BookingDto} (phase : c.phase = .dispatch booking) :
      KeylessStep (s.goto n (.create { c with phase := .done (.ok booking) }))

variable {s n c} {s' : BookingCalls}

theorem insertBooking_keyless (hs : createBookingSchema c.input = true) (hkey : c.key = none)
    (hp : c.phase = .insertBooking) (hu : c.disturbed = false) (h : s.advanceCreate n c = some s') :
    KeylessStep s n c s' := by
  unfold BookingCalls.advanceCreate at h
  simp only [hp] at h
  rcases row_cases hs with ⟨hq, row, hrow⟩ | ⟨hq, hrow⟩
  · have hstored := (BookingInsert.stores hrow).idempotencyKey
    simp only [hrow] at h
    split at h
    · rename_i hviolation
      obtain rfl := Option.some.inj h
      unfold CreateCall.violated
      rw [hkey]
      simp only [Option.isSome_none, Bool.false_eq_true, if_false]
      by_cases htaken : (s.db.bookings.rows.any fun r =>
          r.idempotencyKey.isSome && decide (r.idempotencyKey = row.idempotencyKey)) = true
      · rw [htaken, show (c.disturbed || !true) = c.disturbed by rw [Bool.not_true, Bool.or_false]]
        obtain ⟨r, hr, he⟩ := List.any_eq_true.mp htaken
        rw [Bool.and_eq_true, decide_eq_true_eq, hstored] at he
        have hempty : r.idempotencyKey = some "" := by
          rcases keyless_iff.mp hkey with hk | hk
          · rw [show (createBookingData c.input c.draw).toBookingInsert.idempotencyKey = none from hk] at he
            rw [he.2] at he; cases he.1
          · exact he.2.trans hk
        refine .refused hp fun ha => ha.2 ?_ r hr hempty
        exact he.2.symm.trans hempty
      · rw [Bool.not_eq_true] at htaken
        rw [htaken, hu]
        refine .collided fun _ => ⟨hq, fun hk r hr hempty => ?_⟩
        have hfalse := List.any_eq_false.mp htaken r hr
        have hinsert : (createBookingData c.input c.draw).toBookingInsert.idempotencyKey = some "" := hk
        rw [hempty, hstored, hinsert] at hfalse
        exact hfalse rfl
    · cases h
    · rename_i hheld
      obtain rfl := Option.some.inj h
      refine .moved (fun _ => ⟨hq, fun hk r hr hempty => ?_⟩) hu fun reply => by simp
      have hfresh := Table.fresh_iff.mp (Table.insertAmong_held hheld).1 r hr
      exact hfresh (.inr ⟨"", hstored.trans hk, hempty⟩)
  · simp only [hrow] at h
    obtain rfl := Option.some.inj h
    exact .refused hp fun ha => absurd ha.1 (Int.not_le.mpr hq)

theorem keyless_step (hs : createBookingSchema c.input = true) (hkey : c.key = none) (hok : KeylessOk s.db c)
    (h : s.advanceCreate n c = some s') : KeylessStep s n c s' := by
  unfold KeylessOk at hok
  cases hp : c.phase with
  | lookup | recoverKey | recoverBooking => rw [hp] at hok; exact hok.elim
  | insertBooking => rw [hp] at hok; exact insertBooking_keyless hs hkey hp hok h
  | insertKey row =>
    rw [hp] at hok
    have hnone : c.keyRow row = none := by unfold CreateCall.keyRow; rw [hkey]; rfl
    unfold BookingCalls.advanceCreate at h
    simp only [hp, hnone] at h
    obtain rfl := Option.some.inj h
    exact .moved (fun hq => by rw [hp] at hq; cases hq) hok fun reply => by simp
  | insertOutbox row =>
    rw [hp] at hok
    unfold BookingCalls.advanceCreate at h
    simp only [hp] at h
    split at h
    · obtain rfl := Option.some.inj h
      unfold CreateCall.violated
      rw [hkey, Bool.or_true]
      exact .collided fun hq => by rw [hp] at hq; cases hq
    · cases h
    · obtain rfl := Option.some.inj h
      exact .moved (fun hq => by rw [hp] at hq; cases hq) hok fun reply => by simp
  | commit row =>
    unfold BookingCalls.advanceCreate at h
    simp only [hp] at h
    obtain ⟨db, hdb, rfl⟩ := Option.map_eq_some_iff.mp h
    exact .committed hp (commit_eq_some hdb)
  | dispatch booking =>
    unfold BookingCalls.advanceCreate at h
    simp only [hp] at h
    obtain rfl := Option.some.inj h
    exact .replied hp
  | done reply =>
    unfold BookingCalls.advanceCreate at h
    simp only [hp] at h
    cases h

end

/-! ## Runs -/

section
variable {s s' : BookingCalls} {n : Nat}

def KeylessInv (s : BookingCalls) : Prop :=
  ∀ (n : Nat) c, s.calls[n]? = some (.create c) → c.key = none → KeylessOk s.db c

theorem KeylessInv.set (h : KeylessInv s) {call : BookingCall} (hcalls : s'.calls = s.calls.set n call)
    (hd : DbOk s'.db) (hk : KeepsBookings s.db s'.db)
    (hc : ∀ c, call = .create c → c.key = none → KeylessOk s'.db c) : KeylessInv s' := by
  intro m x hm hx
  rw [hcalls] at hm
  rcases getElem?_set_cases hm with hm | hm
  · exact hc x hm.2.symm hx
  · exact (h m x hm.2 hx).mono hd hk

def Rejected (call : BookingCall) : Prop :=
  ∃ c e, call = .create c ∧ c.key = none ∧ c.disturbed = false ∧ c.phase = .done (.error e)

def Rejects (first : Nat) (s : BookingCalls) : Prop := ∃ n call, first ≤ n ∧ s.calls[n]? = some call ∧ Rejected call

/-- The step does not try to store what a key-less call cannot store. -/
def Independent (first : Nat) (s : BookingCalls) (l : CallLabel) : Prop :=
  ∀ n c, l = .advance n → first ≤ n → s.calls[n]? = some (.create c) → c.key = none → c.phase = .insertBooking →
    Admits s.db c.input

theorem rejects_set (first : Nat) {call call' : BookingCall} (hn : s.calls[n]? = some call) (hc : ¬ Rejected call)
    (hcalls : s'.calls = s.calls.set n call') :
    Rejects first s' ↔ Rejects first s ∨ (first ≤ n ∧ Rejected call') := by
  have hself : (s.calls.set n call')[n]? = some call' :=
    List.getElem?_set_self (List.getElem?_eq_some_iff.mp hn).1
  constructor
  · intro h
    obtain ⟨m, x, hle, hm, hx⟩ := h
    rw [hcalls] at hm
    rcases getElem?_set_cases hm with ⟨rfl, rfl⟩ | hm
    · exact .inr ⟨hle, hx⟩
    · exact .inl ⟨m, x, hle, hm.2, hx⟩
  · intro h
    rcases h with ⟨m, x, hle, hm, hx⟩ | ⟨hle, hx⟩
    · have hne : n ≠ m := fun e => hc (Option.some.inj (hn.symm.trans (e ▸ hm)) ▸ hx)
      exact ⟨m, x, hle, by rw [hcalls, List.getElem?_set_ne hne]; exact hm, hx⟩
    · exact ⟨n, call', hle, by rw [hcalls]; exact hself, hx⟩

theorem rejects_add {first : Nat} {call : BookingCall} (hc : ¬ Rejected call) :
    Rejects first (s.add call) ↔ Rejects first s := by
  constructor
  · intro h
    obtain ⟨m, x, hle, hm, hx⟩ := h
    rcases getElem?_append_cases hm with ⟨_, rfl⟩ | hm
    · exact absurd hx hc
    · exact ⟨m, x, hle, hm.2, hx⟩
  · intro h
    obtain ⟨m, x, hle, hm, hx⟩ := h
    refine ⟨m, x, hle, ?_, hx⟩
    rw [show (s.add call).calls = s.calls ++ [call] from rfl,
      List.getElem?_append_left (List.getElem?_eq_some_iff.mp hm).1]
    exact hm

theorem advance_open {c : CreateCall} (h : s.advanceCreate n c = some s') : ¬ Rejected (.create c) := by
  intro hex
  obtain ⟨x, e, hx, _, _, hp⟩ := hex
  cases hx
  unfold BookingCalls.advanceCreate at h
  simp only [hp] at h
  cases h

theorem not_rejected {c : CreateCall} (h : ∀ e, c.phase ≠ .done (.error e)) : ¬ Rejected (.create c) := by
  intro hex
  obtain ⟨x, e, hx, _, _, hp⟩ := hex
  cases hx; exact h e hp

theorem disturbed_not_rejected {c : CreateCall} (h : c.disturbed = true) : ¬ Rejected (.create c) := by
  intro hex
  obtain ⟨x, e, hx, _, hd, _⟩ := hex
  cases hx; rw [h] at hd; cases hd

theorem keyless_other (first : Nat) {call call' : BookingCall} (hk : KeylessInv s) (hn : s.calls[n]? = some call)
    (hcalls : s'.calls = s.calls.set n call') (hopen : ¬ Rejected call) (hd : DbOk s'.db)
    (hkeep : KeepsBookings s.db s'.db) (hc : ∀ c, call' = .create c → c.key = none → KeylessOk s'.db c)
    (hr : ¬ Rejected call') : KeylessInv s' ∧ (Rejects first s' ↔ Rejects first s) := by
  refine ⟨hk.set hcalls hd hkeep hc, ?_⟩
  rw [rejects_set first hn hopen hcalls]
  exact or_iff_left fun h => hr h.2

theorem keyless_faulted (first : Nat) {c : CreateCall} {committed : Bool} (hk : KeylessInv s)
    (hn : s.calls[n]? = some (.create c)) (hopen : ∀ reply, c.phase ≠ .done reply)
    (hcalls : s'.calls = s.calls.set n (.create { c.fault with committed })) (hd : DbOk s'.db)
    (hkeep : KeepsBookings s.db s'.db) : KeylessInv s' ∧ (Rejects first s' ↔ Rejects first s) := by
  refine keyless_other first hk hn hcalls (not_rejected fun e => hopen _) hd hkeep (fun x hx _ => ?_)
    (disturbed_not_rejected rfl)
  cases hx
  exact fun booking hb => by cases hb

theorem change_not_rejected {c : StatusChange} {phase : ChangePhase} : ¬ Rejected (.change c phase) := by
  intro h
  obtain ⟨x, e, hx, _⟩ := h
  cases hx

theorem keyless_add {first : Nat} {call : BookingCall} (hk : KeylessInv s)
    (hc : ∀ c, call = .create c → c.key = none → KeylessOk s.db c) (hr : ¬ Rejected call) :
    KeylessInv (s.add call) ∧ (Rejects first (s.add call) ↔ Rejects first s) := by
  refine ⟨fun m x hm hx => ?_, rejects_add hr⟩
  rcases getElem?_append_cases hm with hm | hm
  · exact hc x hm.2.symm hx
  · exact hk m x hm.2 hx

theorem change_calls {c : StatusChange} {phase : ChangePhase} (hs : ChangeStep s n c phase s') :
    ∃ phase', s'.calls = s.calls.set n (.change c phase') := by
  cases hs with
  | ended => exact ⟨_, rfl⟩
  | claimed => exact ⟨_, rfl⟩
  | moved => exact ⟨_, rfl⟩
  | queued => exact ⟨_, rfl⟩
  | committed => exact ⟨_, rfl⟩

section
variable [Zod]

theorem create_calls {c : CreateCall} (hs : CreateStep s n c s') :
    ∃ c' : CreateCall, s'.calls = s.calls.set n (.create c') ∧ c'.input = c.input := by
  cases hs with
  | bare input => exact ⟨_, rfl, input⟩
  | booked => exact ⟨_, rfl, rfl⟩
  | recorded => exact ⟨_, rfl, rfl⟩
  | queued => exact ⟨_, rfl, rfl⟩
  | committed phase commits input => exact ⟨_, rfl, input⟩

theorem callStep_keeps (hs : CallStep s n s') : KeepsBookings s.db s'.db := by
  cases hs with
  | create hn hs =>
    cases hs with
    | committed phase commits => exact commits.keepsBookings
    | _ => exact .refl _
  | change hn hs =>
    cases hs with
    | committed phase commits => exact commits.keepsBookings
    | _ => exact .refl _

theorem keyless_advance (first : Nat) {c : CreateCall} (h : CallsInv s) (hk : KeylessInv s)
    (hn : s.calls[n]? = some (.create c)) (hkey : c.key = none) (hs : s.advanceCreate n c = some s')
    (hd : DbOk s'.db) (hkeep : KeepsBookings s.db s'.db) : KeylessInv s' ∧ (Rejects first s' ↔ Rejects first s ∨
      (first ≤ n ∧ ¬ (c.phase = .insertBooking → Admits s.db c.input))) := by
  have hok := hk n c hn hkey
  have hset : ∀ call', s'.calls = s.calls.set n call' →
      (Rejects first s' ↔ Rejects first s ∨ (first ≤ n ∧ Rejected call')) :=
    fun call' hcalls => rejects_set first hn (advance_open hs) hcalls
  have hstep := keyless_step (h.create n c hn).schema hkey hok hs
  unfold KeylessOk at hok
  cases hstep with
  | @refused e phase unfit =>
    rw [phase] at hok
    refine ⟨hk.set rfl hd hkeep fun x hx _ => ?_, ?_⟩
    · cases hx; exact fun booking hb => by cases hb
    · rw [hset _ rfl]
      refine or_congr_right (and_congr_right fun _ => iff_of_true ?_ fun hf => unfit (hf phase))
      exact ⟨_, _, rfl, hkey, hok, rfl⟩
  | collided fit =>
    refine ⟨hk.set rfl hd hkeep fun x hx _ => ?_, ?_⟩
    · cases hx; exact fun booking hb => by cases hb
    · rw [hset _ rfl]
      exact or_congr_right (and_congr_right fun _ => iff_of_false (disturbed_not_rejected rfl) fun hf => hf fit)
  | moved fit ok open' =>
    refine ⟨hk.set rfl hd hkeep fun x hx _ => ?_, ?_⟩
    · cases hx; exact ok
    · rw [hset _ rfl]
      exact or_congr_right (and_congr_right fun _ => iff_of_false (not_rejected fun e => open' _) fun hf => hf fit)
  | @committed row db phase commits =>
    have hrow := (h.create n c hn).phase
    unfold PhaseOk at hrow
    rw [phase] at hrow
    refine ⟨hk.set rfl hd hkeep fun x hx _ => ?_, ?_⟩
    · cases hx
      exact CreateCommits.resolved (c := c) h.db hrow commits rfl
    · rw [hset _ rfl]
      refine or_congr_right (and_congr_right fun _ =>
        iff_of_false (not_rejected fun e => by simp) fun hf => hf fun hp => ?_)
      rw [phase] at hp; cases hp
  | @replied booking phase =>
    rw [phase] at hok
    refine ⟨hk.set rfl hd hkeep fun x hx _ => ?_, ?_⟩
    · cases hx
      exact fun _ _ => hok
    · rw [hset _ rfl]
      refine or_congr_right (and_congr_right fun _ =>
        iff_of_false (not_rejected fun e => by simp) fun hf => hf fun hp => ?_)
      rw [phase] at hp; cases hp

theorem keyless_advances (first : Nat) (h : CallsInv s) (hk : KeylessInv s) (he : s.advance n = some s')
    (hd : DbOk s'.db) :
    KeylessInv s' ∧ (Rejects first s' ↔ Rejects first s ∨ ¬ Independent first s (.advance n)) := by
  have hcall := advance_call h he
  have hkeep := callStep_keeps hcall
  have hind : Independent first s (.advance n) ↔ ∀ c, first ≤ n → s.calls[n]? = some (.create c) → c.key = none →
      c.phase = .insertBooking → Admits s.db c.input :=
    ⟨fun hi c => hi n c rfl, fun hi m c e => by cases e; exact hi c⟩
  unfold BookingCalls.advance at he
  cases hcall with
  | @create c hn hs =>
    rw [hn] at he
    by_cases hkey : c.key = none
    · obtain ⟨hinv, hrej⟩ := keyless_advance first h hk hn hkey he hd hkeep
      refine ⟨hinv, hrej.trans (or_congr_right ?_)⟩
      refine ⟨fun hf hi => hf.2 fun hp => hind.mp hi c hf.1 hn hkey hp, fun hi => ?_⟩
      by_contra hf
      refine hi (hind.mpr fun c' hle hn' _ hp => ?_)
      obtain rfl : c = c' := BookingCall.create.inj (Option.some.inj (hn.symm.trans hn'))
      by_contra hadmits
      exact hf ⟨hle, fun hall => hadmits (hall hp)⟩
    · obtain ⟨c', hcalls, hinput⟩ := create_calls hs
      have hkey' : c'.key ≠ none := by unfold CreateCall.key; rw [hinput]; exact hkey
      have hother := keyless_other first hk hn hcalls (advance_open he) hd hkeep
        (fun x hx hxk => absurd (by cases hx; exact hxk) hkey')
        (by rintro ⟨x, e, hx, hxk, _⟩; cases hx; exact hkey' hxk)
      refine ⟨hother.1, hother.2.trans (or_iff_left (not_not.mpr (hind.mpr fun x _ hx hxk => ?_))).symm⟩
      obtain rfl : c = x := BookingCall.create.inj (Option.some.inj (hn.symm.trans hx))
      exact absurd hxk hkey
  | change hn hs =>
    obtain ⟨phase', hcalls⟩ := change_calls hs
    have hother := keyless_other first hk hn hcalls change_not_rejected hd hkeep
      (fun x hx => by cases hx) change_not_rejected
    refine ⟨hother.1, hother.2.trans (or_iff_left (not_not.mpr (hind.mpr fun x _ hx => ?_))).symm⟩
    rw [hn] at hx; cases hx

theorem keyless_exec (first : Nat) {l : CallLabel} (h : CallsInv s) (hk : KeylessInv s)
    (he : bookingCalls.exec s l = some s') :
    KeylessInv s' ∧ (Rejects first s' ↔ Rejects first s ∨ ¬ Independent first s l) := by
  have hd : DbOk s'.db := (inv_exec h he).db
  have hfree : (∀ n, l ≠ .advance n) → Independent first s l := fun hl n c e => absurd e (hl n)
  have hrest : (∀ n, l ≠ .advance n) → KeylessInv s' ∧ (Rejects first s' ↔ Rejects first s) →
      KeylessInv s' ∧ (Rejects first s' ↔ Rejects first s ∨ ¬ Independent first s l) :=
    fun hl hs => ⟨hs.1, hs.2.trans (or_iff_left (not_not.mpr (hfree hl))).symm⟩
  change s.exec l = some s' at he
  cases l with
  | advance n => exact keyless_advances first h hk he hd
  | createBooking input draw =>
    refine hrest (fun n => by simp) ?_
    obtain ⟨hs, rfl⟩ := guard_eq_some.mp he
    refine keyless_add hk (fun c hc hkey => ?_) (not_rejected fun e => ?_)
    · cases hc
      have hnone : (truthy input.idempotencyKey).isSome = false := by
        rw [show truthy input.idempotencyKey = none from hkey]; rfl
      unfold KeylessOk CreateCall.begin
      simp only [hnone, Bool.false_eq_true, if_false]
    · unfold CreateCall.begin
      show (if _ then CreatePhase.lookup else .insertBooking) ≠ _
      split
      · simp
      · simp
  | cancelBooking id draw =>
    refine hrest (fun n => by simp) ?_
    change (if _ then _ else none) = some s' at he
    split at he
    · split at he
      · obtain rfl := Option.some.inj he
        exact keyless_add hk (fun c hc => by cases hc) change_not_rejected
      · obtain rfl := Option.some.inj he; exact ⟨hk, Iff.rfl⟩
    · cases he
  | handleSeatsReserved message draw =>
    refine hrest (fun n => by simp) ?_
    obtain ⟨_, rfl⟩ := guard_eq_some.mp he
    exact keyless_add hk (fun c hc => by cases hc) change_not_rejected
  | handleSeatReservationFailed message draw =>
    refine hrest (fun n => by simp) ?_
    obtain ⟨_, rfl⟩ := guard_eq_some.mp he
    exact keyless_add hk (fun c hc => by cases hc) change_not_rejected
  | fault n =>
    refine hrest (fun n => by simp) ?_
    have hkeep := callStep_keeps (fault_call h he)
    change s.fault n = some s' at he
    unfold BookingCalls.fault at he
    split at he
    · rename_i c hn
      split at he
      · cases he
      · rename_i hopen
        obtain rfl := Option.some.inj he
        exact keyless_faulted first hk hn hopen rfl hd hkeep
    · rename_i c phase hn
      split at he
      · cases he
      · obtain rfl := Option.some.inj he
        exact keyless_other first hk hn rfl change_not_rejected hd hkeep
          (fun x hx => by cases hx) change_not_rejected
    · cases he
  | loseCommit n =>
    refine hrest (fun n => by simp) ?_
    have hkeep := callStep_keeps (loseCommit_call h he)
    change s.loseCommit n = some s' at he
    unfold BookingCalls.loseCommit at he
    split at he
    · rename_i c hn
      split at he
      · rename_i row hp
        obtain ⟨db, _, rfl⟩ := Option.map_eq_some_iff.mp he
        exact keyless_faulted first hk hn (fun reply => by rw [hp]; simp) rfl hd hkeep
      · cases he
    · cases he
  | bookkeep op =>
    refine hrest (fun n => by simp) ?_
    obtain rfl := Option.some.inj he
    refine ⟨fun m x hm hx => (hk m x hm hx).mono hd ⟨fun r hr => ⟨r, hr, rfl⟩, fun m hm => ?_⟩, Iff.rfl⟩
    rw [contents_apply]; exact hm

theorem keyless_reach (h : bookingCalls.Reach s) : KeylessInv s := by
  have hboth : CallsInv s ∧ KeylessInv s := by
    refine Machine.Reach.inv (I := fun s => CallsInv s ∧ KeylessInv s)
      (fun s h0 => ⟨inv_bookingCalls (.start h0), ?_⟩)
      (fun s l s' _ hi he => ⟨inv_exec hi.1 he, (keyless_exec 0 hi.1 hi.2 he).1⟩) h
    obtain rfl := (show s = BookingCalls.empty from h0)
    intro n c hn
    change ([] : List BookingCall)[n]? = _ at hn
    simp at hn
  exact hboth.2

theorem create_writes_once (h : CallsInv s) {c c' : CreateCall} {l : CallLabel} (hl : l.call = some n)
    (hn : s.calls[n]? = some (.create c)) (he : bookingCalls.exec s l = some s')
    (hn' : s'.calls[n]? = some (.create c')) : (c'.committed = c.committed ∧ s'.db = s.db) ∨
      (c.committed = false ∧ c'.committed = true ∧ ∃ row, CreateCommits c row s.db s'.db) := by
  cases call_exec h hl he with
  | change hx hs => rw [hn] at hx; cases hx
  | @create x hx hs =>
    obtain rfl : c = x := BookingCall.create.inj (Option.some.inj (hn.symm.trans hx))
    have hself : ∀ call, (s.calls.set n call)[n]? = some call := fun call =>
      List.getElem?_set_self (List.getElem?_eq_some_iff.mp hn).1
    cases hs with
    | @bare c'' input committed =>
      obtain rfl : c'' = c' := BookingCall.create.inj (Option.some.inj ((hself _).symm.trans hn'))
      exact .inl ⟨committed, rfl⟩
    | booked phase | recorded phase | queued phase =>
      have hc' := BookingCall.create.inj (Option.some.inj ((hself _).symm.trans hn'))
      exact .inl ⟨by rw [← hc'], rfl⟩
    | @committed row db c'' phase commits input committed =>
      obtain rfl : c'' = c' := BookingCall.create.inj (Option.some.inj ((hself _).symm.trans hn'))
      exact .inr ⟨(h.create n c hn).uncommitted (by simp [phase]), committed, row, commits⟩

/-- In a run from any reached state, every key-less call that starts in it, that no fault
hits and that ends is resolved with its own new booking, exactly when the run is one of
independent steps. A call writes in one step, which adds its booking and its request. -/
theorem keyless_calls_independent {ls : List CallLabel} (h : bookingCalls.Reach s)
    (hr : bookingCalls.run s ls = some s') :
    ((∀ n c reply, s.calls.length ≤ n → s'.calls[n]? = some (.create c) → c.key = none → c.disturbed = false →
        c.phase = .done reply → ResolvedNew s'.db c reply) ↔ bookingCalls.Meets (Independent s.calls.length) s ls) ∧
    (∀ a l b n c c', bookingCalls.Passes s ls s' a l b → l.call = some n → a.calls[n]? = some (.create c) →
      b.calls[n]? = some (.create c') → (c'.committed = c.committed ∧ b.db = a.db) ∨
        (c.committed = false ∧ c'.committed = true ∧ ∃ row, CreateCommits c row a.db b.db)) ∧
    ∃ more s'', (∀ l ∈ more, l.advances = true) ∧ bookingCalls.run s' more = some s'' ∧
      ∀ call ∈ s''.calls, call.ended = true := by
  refine ⟨?_, fun a l b n c c' hp hl ha hb => ?_, all_calls_end (inv_bookingCalls (h.run hr))⟩
  · have hrej := Machine.run_violates (P := Rejects s.calls.length) (fun s l s' hs he =>
      (keyless_exec _ (inv_bookingCalls hs) (keyless_reach hs) he).2) h hr
    have hstart : ¬ Rejects s.calls.length s := by
      intro hx
      obtain ⟨n, call, hle, hn, _⟩ := hx
      exact absurd (List.getElem?_eq_some_iff.mp hn).1 (Nat.not_lt.mpr hle)
    rw [← not_iff_not, ← (hrej.trans (or_iff_right hstart))]
    constructor
    · intro hno
      by_contra hrejects
      refine hno fun n c reply hle hn hkey hd hp => ?_
      cases reply with
      | error e => exact absurd ⟨n, _, hle, hn, c, e, rfl, hkey, hd, hp⟩ hrejects
      | ok booking =>
        have hok := keyless_reach (h.run hr) n c hn hkey
        unfold KeylessOk at hok
        rw [hp] at hok
        exact hok booking rfl
    · intro hx hall
      obtain ⟨n, call, hle, hn, c, e, rfl, hkey, hd, hp⟩ := hx
      obtain ⟨row, _, hreply, _⟩ := hall n c _ hle hn hkey hd hp
      cases hreply
  · obtain ⟨pre, post, rfl, hpre, _⟩ := hp.split
    exact create_writes_once (inv_bookingCalls (h.run hpre)) hl ha hp.exec hb

end

end

/-! ## Sample calls -/

def keylessInput (idempotencyKey : Option String) : CreateBookingInput :=
  ⟨sampleText 7, sampleText 1, 2, idempotencyKey⟩

def independentStep (s : BookingCalls) : CallLabel → Bool
  | .advance n =>
    match s.calls[n]? with
    | some (.create c) =>
      decide (c.input.quantity ≤ int4Max) && s.db.bookings.rows.all fun r => decide (r.idempotencyKey ≠ some "")
    | _ => true
  | _ => true

theorem independentStep_sound (s : BookingCalls) (l : CallLabel) (h : independentStep s l = true) :
    Independent 0 s l := by
  rintro n c rfl _ hn _ _
  unfold independentStep at h
  simp only [hn, Bool.and_eq_true, decide_eq_true_eq, List.all_eq_true] at h
  exact ⟨h.1, fun _ => h.2⟩

def keylessTwice : List CallLabel :=
  [.createBooking (keylessInput none) (sampleDraw 2 3 4 0 0),
    .createBooking (keylessInput none) (sampleDraw 5 6 8 0 0),
    .advance 0, .advance 1, .advance 1, .advance 0, .advance 1, .advance 0, .advance 0, .advance 1,
      .advance 1, .advance 0]

theorem keyless_request_twice_booked_twice :
    ∃ s, (@bookingCalls zod4).run BookingCalls.empty keylessTwice = some s ∧
    s.calls.map repliedBooking = [some (sampleText 2), some (sampleText 5)] ∧
    ∀ n c reply, 0 ≤ n → s.calls[n]? = some (.create c) → c.key = none → c.disturbed = false →
      c.phase = .done reply → ResolvedNew s.db c reply := by
  have h : ((@bookingCalls zod4).run BookingCalls.empty keylessTwice).map (fun s => s.calls.map repliedBooking) =
      some [some (sampleText 2), some (sampleText 5)] := by
    decide +kernel
  have hmeets : (@bookingCalls zod4).Meets (Independent 0) BookingCalls.empty keylessTwice :=
    Machine.meets_of_allowed independentStep_sound (by decide +kernel)
  obtain ⟨s, hs, hview⟩ := Option.map_eq_some_iff.mp h
  exact ⟨s, hs, hview,
    (@keyless_calls_independent BookingCalls.empty s zod4 keylessTwice (.start rfl) hs).1.mpr hmeets⟩

def emptyKeyTwice : List CallLabel :=
  [.createBooking (keylessInput (some "")) (sampleDraw 2 3 4 0 0), .advance 0, .advance 0, .advance 0,
    .advance 0, .advance 0, .createBooking (keylessInput (some "")) (sampleDraw 5 6 8 0 0), .advance 1]

def emptyKeyRejected : CreateCall :=
  ⟨keylessInput (some ""), sampleDraw 5 6 8 0 0, .done (.error (.db .uniqueViolation)), false, false, false⟩

theorem empty_key_rejected : ∃ s reply, (@bookingCalls zod4).run BookingCalls.empty emptyKeyTwice = some s ∧
    s.calls[1]? = some (.create emptyKeyRejected) ∧ emptyKeyRejected.key = none ∧
    emptyKeyRejected.phase = .done reply ∧ ¬ ResolvedNew s.db emptyKeyRejected reply := by
  have h : ((@bookingCalls zod4).run BookingCalls.empty emptyKeyTwice).map (fun s => s.calls[1]?) =
      some (some (.create emptyKeyRejected)) := by
    decide +kernel
  obtain ⟨s, hs, hview⟩ := Option.map_eq_some_iff.mp h
  refine ⟨s, _, hs, hview, by decide, rfl, fun hr => ?_⟩
  obtain ⟨_, _, hreply, _⟩ := hr
  cases hreply

end EventBooking
