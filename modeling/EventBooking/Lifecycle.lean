import EventBooking.Continuation

/-!
# Status and news

A booking's status only moves forward. Its rows in `booking_outbox_events`
agree with its status exactly when its request wrote the event's id as the
database returns it: the status is changed under the database's comparison of
uuids, the news is stored under a comparison of texts.
-/

namespace EventBooking
open Lib

/-! ## The ways of a status -/

inductive Move : BookingStatus → BookingStatus → Prop
  | confirm : Move .pending .confirmed
  | fail : Move .pending .failed
  | cancel : Move .confirmed .cancelled

/-- Every booking is still there, further on its way; the new ones came from `pending`. -/
structure Progress (s s' : System) : Prop where
  kept : ∀ b ∈ s.booking.bookings.rows, ∃ b' ∈ s'.booking.bookings.rows, b'.id = b.id ∧
    Relation.ReflTransGen Move b.status b'.status
  started : ∀ b' ∈ s'.booking.bookings.rows, (∀ b ∈ s.booking.bookings.rows, b.id ≠ b'.id) →
    Relation.ReflTransGen Move .pending b'.status

theorem Progress.refl (s : System) : Progress s s :=
  ⟨fun b hb => ⟨b, hb, rfl, .refl⟩, fun b hb h => absurd rfl (h b hb)⟩

theorem Progress.same {s s' : System} (h : s'.booking.bookings = s.booking.bookings) : Progress s s' := by
  refine ⟨fun b hb => ⟨b, by rw [h]; exact hb, rfl, .refl⟩, fun b hb hn => ?_⟩
  rw [h] at hb
  exact absurd rfl (hn b hb)

theorem Progress.trans {a b c : System} (h : Progress a b) (h' : Progress b c) : Progress a c := by
  refine ⟨fun x hx => ?_, fun z hz hn => ?_⟩
  · obtain ⟨y, hy, e, p⟩ := h.kept x hx
    obtain ⟨z, hz, e', p'⟩ := h'.kept y hy
    exact ⟨z, hz, e'.trans e, p.trans p'⟩
  · by_cases hy : ∃ y ∈ b.booking.bookings.rows, y.id = z.id
    · obtain ⟨y, hy, e⟩ := hy
      obtain ⟨z', hz', e', p⟩ := h'.kept y hy
      have : z' = z := Table.key_inj hz' hz (e'.trans e)
      subst this
      exact (h.started y hy fun x hx e'' => hn x hx (e''.trans e)).trans p
    · exact h'.started z hz fun y hy' e => hy ⟨y, hy', e⟩

theorem Phase.Next.move {p p' : Phase} (h : p.Next p') : Relation.ReflGen Move p.status p'.status := by
  cases h with
  | reserve | refuse | release => exact .refl
  | confirm => exact .single .confirm
  | fail => exact .single .fail
  | cancel => exact .single .cancel

theorem Moved.progress {s s' : System} (h : Moved s.saga s'.saga) : Progress s s' := by
  cases h with
  | opened opens =>
    have hrows := Table.insert_rows opens.bookings
    refine ⟨fun x hx => ⟨x, ?_, rfl, .refl⟩, fun x hx hn => ?_⟩
    · rw [show s'.booking.bookings.rows = _ from hrows]; exact List.mem_append_left _ hx
    · rw [show s'.booking.bookings.rows = _ from hrows, List.mem_append, List.mem_singleton] at hx
      rcases hx with hx | rfl
      · exact absurd rfl (hn x hx)
      · rw [opens.status]
  | advanced advance requests before next after =>
    rename_i b b' _ _ _ _ _ _ _ _
    have hmove : Relation.ReflGen Move b.status b'.status := by
      rw [before.status, after.status]; exact next.move
    have hb' : b' ∈ s'.booking.bookings.rows := advance.bookings.mem_iff.mpr (Or.inl rfl)
    refine ⟨fun x hx => ?_, fun x hx hn => ?_⟩
    · by_cases e : x.id = b.id
      · have : x = b := Table.key_inj hx advance.bookings.mem e
        subst this
        exact ⟨b', hb', advance.id_eq, hmove.to_reflTransGen⟩
      · exact ⟨x, advance.bookings.mem_iff.mpr (Or.inr ⟨hx, e⟩), rfl, .refl⟩
    · rcases advance.bookings.mem_iff.mp hx with rfl | hx
      · exact absurd advance.id_eq.symm (hn b advance.bookings.mem)
      · exact absurd rfl (hn x hx.1)

theorem run_progress [Zod] {s s' : System} {ls : List Label} (h : closed.Reach s) (hr : closed.run s ls = some s') :
    Progress s s' := by
  refine Machine.run_rel Progress.refl (fun _ _ _ => Progress.trans) ?_ h hr
  intro s l s' h he
  cases step_simulates (inv_closed h) (closed_step he) with
  | moved h => exact h.progress
  | same h => exact .same (congrArg Saga.bookings h)
  | created new h => exact .same (congrArg Saga.bookings h)

/-! ## The rows of a booking -/

def expected : BookingStatus → Topic → Nat
  | _, .reserveSeats => 1
  | .confirmed, .bookingConfirmed | .cancelled, .bookingConfirmed => 1
  | .failed, .bookingFailed => 1
  | .cancelled, .bookingCancelled => 1
  | _, _ => 0

def Corresponds (s : System) (b : BookingRow) : Prop :=
  ∀ t, (about (contents s.booking.outbox) t b.id.text).length = expected b.status t

theorem Phase.sent_expected (canonical : Bool) (p : Phase) :
    (∀ t, ((p.sent canonical).filter fun x => decide (x.1 = t)).length = expected p.status t) ↔
      canonical = true ∨ p.status = .pending := by
  cases canonical with
  | true => exact ⟨fun _ => Or.inl rfl, fun _ t => by cases p <;> cases t <;> rfl⟩
  | false =>
    cases p with
    | requested | held | refused => exact ⟨fun _ => Or.inr rfl, fun _ t => by cases t <;> rfl⟩
    | failed =>
      exact ⟨fun h => absurd (h .bookingFailed) (by decide), fun h => by rcases h with h | h <;> cases h⟩
    | confirmed | cancelling | released =>
      exact ⟨fun h => absurd (h .bookingConfirmed) (by decide), fun h => by rcases h with h | h <;> cases h⟩

theorem Journey.corresponds {s : System} {b : BookingRow} {canonical : Bool} {p : Phase}
    (h : Journey s.saga b canonical p) : Corresponds s b ↔ canonical = true ∨ b.status = .pending := by
  rw [h.status, ← p.sent_expected canonical]
  unfold Corresponds
  apply forall_congr'; intro t
  rw [about_length _ s.saga.taken, show tokens (contents s.booking.outbox) _ _ = _ from h.sent, h.status]

/-! ## Requests in canonical text -/

/-- A request for a booking writes its event as the database would. -/
def CanonicalRequest (_ : System) : Label → Prop
  | .createBooking input _ => isCanonical input.eventId = true
  | _ => True

section
variable [Zod]

theorem step_requests {deliverable : System → Topic → Message → Bool} {s s' : System} {l : Label}
    (hs : Step deliverable s l s') {m : StoredMessage} (hm : m ∈ contents s'.booking.outbox)
    (ht : m.topic = .reserveSeats) : m ∈ contents s.booking.outbox ∨
      ∃ input draw, l = .createBooking input draw ∧ m.message.payload.eventId = input.eventId := by
  have hnew : ∀ {t t' : OutboxTable} {o : OutboxInsert} {now : Date}, t.insert (o.row now) = some t' →
      m ∈ contents t' → m ∈ contents t ∨ m = o.stored := by
    intro t t' o now h hm
    rw [(outbox_insert h).1, List.mem_append, List.mem_singleton] at hm; exact hm
  cases hs with
  | book schema created =>
    rename_i input draw row booking
    refine (hnew created.outbox hm).imp_right fun e => ⟨input, draw, rfl, ?_⟩
    rw [e]; rfl
  | cancel reading cancelled =>
    refine (hnew cancelled.outbox hm).imp_right fun e => ?_
    rw [e] at ht; cases ht
  | settle outcome delivered settled =>
    rename_i consumer status topic message draw row booking
    have hout := settled.outbox
    split at hout
    · refine (hnew hout hm).imp_right fun e => ?_
      have htopic : topic = .reserveSeats := by rw [e] at ht; exact ht
      rw [htopic] at outcome
      cases consumer <;> cases outcome
    · exact Or.inl (hout ▸ hm)
  | unsettled outcome delivered unsettled => exact Or.inl (unsettled.outbox ▸ hm)
  | bookkeep service op =>
    cases service with
    | booking => exact Or.inl (contents_apply s.booking.outbox op ▸ hm)
    | event => exact Or.inl hm
  | _ => exact Or.inl hm

def RequestsCanonical (s : System) : Prop :=
  ∀ m ∈ contents s.booking.outbox, m.topic = .reserveSeats → isCanonical m.message.payload.eventId = true

theorem requests_canonical {s : System} (h : closed.ReachBy CanonicalRequest s) : RequestsCanonical s := by
  refine Machine.ReachBy.inv ?_ ?_ h
  · intro s0 h0 m hm
    rw [show s0 = System.empty from h0] at hm; cases hm
  · intro s l s' _ hi hc he m hm ht
    rcases step_requests (closed_step he) hm ht with hm | hm
    · exact hi m hm ht
    · obtain ⟨input, draw, rfl, e⟩ := hm
      rw [e]; exact hc

/-- Bookings only move forward; the rows of each agree with its status exactly
while it is pending or when its request named the event in canonical text, and
so they all do in a run whose requests do. -/
theorem booking_lifecycle {s s' : System} {ls : List Label} (h : closed.Reach s) (hr : closed.run s ls = some s') :
    Progress s s' ∧
    (∀ b ∈ s'.booking.bookings.rows, ∃ r, requestsOf s' b = [r] ∧
      (Corresponds s' b ↔ isCanonical r.message.payload.eventId = true ∨ b.status = .pending)) ∧
    (closed.ReachBy CanonicalRequest s' → ∀ b ∈ s'.booking.bookings.rows, Corresponds s' b) := by
  have hi := inv_closed (h.run hr)
  refine ⟨run_progress h hr, fun b hb => ?_, fun hc b hb => ?_⟩
  · obtain ⟨r, p, hreq, hj⟩ := hi.sound.journeys b hb
    obtain ⟨r', hr', _⟩ := hj.request
    have hmem : r ∈ requestsOf s' b := by
      unfold requestsOf about
      rw [List.mem_filter, List.mem_filter]
      exact ⟨⟨hreq.mem, decide_eq_true hreq.names.bookingId⟩, decide_eq_true hreq.topic⟩
    rw [show requestsOf s' b = [r'] from hr', List.mem_singleton] at hmem
    subst hmem
    exact ⟨r, hr', hj.corresponds⟩
  · obtain ⟨r, p, hreq, hj⟩ := hi.sound.journeys b hb
    exact hj.corresponds.mpr (Or.inl (requests_canonical hc r hreq.mem hreq.topic))

end

theorem booking_lifecycle_of_confirmation : ∃ s, (@closed zod4).run System.empty sampleConfirmation = some s ∧
    sampleView s = ([((sample 1).val, 10, 7)], [((sample 2).val, .confirmed)]) ∧ Progress System.empty s ∧
    ∀ b ∈ s.booking.bookings.rows, Corresponds s b := by
  have h : ((@closed zod4).run System.empty sampleConfirmation).map sampleView =
      some ([((sample 1).val, 10, 7)], [((sample 2).val, .confirmed)]) := by
    decide +kernel
  obtain ⟨s, hs, hview⟩ := Option.map_eq_some_iff.mp h
  have hmeets : (@closed zod4).Meets CanonicalRequest System.empty sampleConfirmation := by
    apply Machine.meets_of_forall; intro l hl s
    simp only [sampleConfirmation, sampleReservation, List.cons_append, List.nil_append, List.mem_cons,
      List.not_mem_nil, or_false] at hl
    rcases hl with rfl | rfl | rfl | rfl | rfl | rfl
    · trivial
    · show isCanonical sampleBooking.eventId = true; decide
    · trivial
    · trivial
    · trivial
    · trivial
  obtain ⟨hp, _, hc⟩ := @booking_lifecycle zod4 _ _ _ (.start rfl) hs
  exact ⟨s, hs, hview, hp, hc (Machine.ReachBy.run (.start rfl) hmeets hs)⟩

/-! ## A request in upper case -/

def capitalText : String := "00000000-0000-4000-8000-00000000000A"

def capitalBooking : CreateBookingInput := ⟨sampleText 7, capitalText, 3, none⟩

def capitalRequest : MessageEnvelope ReserveSeatsPayload :=
  reserveSeatsMessage capitalBooking (sampleDraw 2 3 4 0 0)

def capitalReserved : Message := (successMessage capitalRequest (sampleDraw 0 8 9 10 11)).map .bookingEventQuantity

def capitalRun : List Label :=
  [.createEvent concert (sampleDraw 10 0 0 0 0),
   .createBooking capitalBooking (sampleDraw 2 3 4 0 0),
   .dispatch .booking .reserveSeats (capitalRequest.map .reserveSeats),
   .deliver .reserveSeats (capitalRequest.map .reserveSeats) (sampleDraw 0 8 9 10 11),
   .publishDirect ⟨.seatsReserved, capitalReserved, some (sample 8)⟩,
   .deliver .handleSeatsReserved capitalReserved (sampleDraw 0 5 6 0 0)]

def newsView (s : System) : List (BookingStatus × Nat) :=
  s.booking.bookings.rows.map fun b =>
    (b.status, (about (contents s.booking.outbox) .bookingConfirmed b.id.text).length)

/-- The booking is confirmed in the database and no news of it is stored. -/
theorem confirmed_without_news : ∃ s b, (@closed zod4).run System.empty capitalRun = some s ∧
    b ∈ s.booking.bookings.rows ∧ b.status = .confirmed ∧ ¬ Corresponds s b := by
  have h : ((@closed zod4).run System.empty capitalRun).map newsView = some [(.confirmed, 0)] := by
    decide +kernel
  obtain ⟨s, hs, hview⟩ := Option.map_eq_some_iff.mp h
  obtain ⟨b, hb, he⟩ := List.map_eq_singleton_iff.mp hview
  have hstatus : b.status = .confirmed := congrArg Prod.fst he
  refine ⟨s, b, hs, by rw [hb]; exact List.mem_singleton.mpr rfl, hstatus, fun hc => ?_⟩
  have hnone : (about (contents s.booking.outbox) .bookingConfirmed b.id.text).length = 0 := congrArg Prod.snd he
  have := hc .bookingConfirmed
  rw [hnone, hstatus] at this
  exact absurd this (by decide)

end EventBooking
