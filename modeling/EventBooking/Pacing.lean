import EventBooking.Lib.Spacing
import EventBooking.OutboxSafety

/-!
# The pace of retries

A row is claimed again only after the back-off of its last failure or after the
time a claim may go unanswered. The gaps add up, so a row is given up no sooner
than two minutes after its first claim.
-/

namespace EventBooking
open Lib

def claimTime (id : Uuid) (s : Desk) (_ : DeskLabel) (s' : Desk) : Option Date :=
  if (claimsOf s id).length < (claimsOf s' id).length then some s.now else none

/-- What lies at least between a claim with so many attempts and the next. -/
def retryGap (attempts : Nat) : Nat := min claimTimeoutSeconds (backoffSeconds attempts) * second

/-! ## What a step makes of a row -/

inductive RowMoves (now : Date) (row : OutboxRow) : OutboxRow → Prop
  | same : RowMoves now row row
  | claim {workerId : String} {limit : Nat} (claimable : claimable now (claimInput workerId limit) row = true) :
      RowMoves now row (row.claim now workerId)
  | publish : RowMoves now row (row.publish now)
  | retry {error : String} (processing : row.status = .processing) :
      RowMoves now row (row.retry now error maxAttempts (backoffSeconds row.attempts))

theorem RowMoves.id {now : Date} {row row' : OutboxRow} (h : RowMoves now row row') : row'.id = row.id := by
  cases h <;> rfl

section
variable {direct : Bool} {s s' : Desk} {l : DeskLabel} {row' : OutboxRow}

theorem moves_of_mem (h : row' ∈ s.table.rows) : ∃ row ∈ s.table.rows, RowMoves s.now row row' := ⟨row', h, .same⟩

theorem moves_mark {id : Uuid} {workerId : Option String}
    (h : row' ∈ (markOutboxPublished s.now id workerId s.table).rows) :
    ∃ row ∈ s.table.rows, RowMoves s.now row row' := by
  obtain ⟨row, hrow, rfl⟩ := mem_markOutboxPublished.mp h
  refine ⟨row, hrow, ?_⟩
  split
  · exact .publish
  · exact .same

/-- A worker that records a failure backs off by the attempts of the row it still holds. -/
theorem moves_record (h : DeskOk s) {w error : String} {b : Batch} (hb : s.workers w = .busy b)
    (hrow' : row' ∈ (recordOutboxFailure s.now b.current.id w error maxAttempts (backoffSeconds b.current.attempts)
      s.table).rows) : ∃ row ∈ s.table.rows, RowMoves s.now row row' := by
  obtain ⟨row, hrow, rfl⟩ := mem_recordOutboxFailure.mp hrow'
  refine ⟨row, hrow, ?_⟩
  split
  · rename_i hc
    obtain ⟨hid, hprocessing, hclaimed⟩ := hc
    obtain ⟨row0, h0, he, _, hattempts⟩ := ((h.workers w b hb).records _ b.current_mem).row
    obtain rfl : row0 = row := Table.key_inj h0 hrow ((content_eq he).1.trans hid.symm)
    rw [← hattempts hclaimed]
    exact .retry hprocessing
  · exact .same

theorem row_moves (h : DeskOk s) (hs : DeskStep direct s l s') (hrow' : row' ∈ s'.table.rows) :
    (∃ row ∈ s.table.rows, RowMoves s.now row row') ∨
      ∃ o : OutboxInsert, row' = o.row s.now ∧ ∀ row ∈ s.table.rows, row.id ≠ row'.id := by
  cases hs with
  | tick | join | unclaimed | publish | crash | publishDirect => exact .inl (moves_of_mem hrow')
  | commit enveloped sends insert =>
    rename_i o publish table
    rw [show table.rows = _ from Table.insert_rows insert, List.mem_append, List.mem_singleton] at hrow'
    rcases hrow' with hrow' | rfl
    · exact .inl (moves_of_mem hrow')
    · exact .inr ⟨o, rfl, Table.find_eq_none.mp (Table.find_before_insert insert)⟩
  | claim idle applied claimed =>
    obtain ⟨ids, hids, hrows, _⟩ := claim_spec claimed
    obtain ⟨row, hrow, rfl⟩ := (hrows row').mp hrow'
    refine .inl ⟨row, hrow, ?_⟩
    split
    · rename_i hid
      exact .claim (hids row hrow hid)
    · exact .same
  | markPublished busy stage =>
    rename_i w reply b
    replace hrow' : row' ∈ (if reply.applied then markOutboxPublished s.now b.current.id
        (some w) s.table else s.table).rows :=
      hrow'
    split at hrow'
    · exact .inl (moves_mark hrow')
    · exact .inl (moves_of_mem hrow')
  | recordFailure busy stage =>
    rename_i w error reply b
    replace hrow' : row' ∈ (if reply.applied then recordOutboxFailure s.now b.current.id w error maxAttempts
      (backoffSeconds b.current.attempts) s.table else s.table).rows := hrow'
    split at hrow'
    · exact .inl (moves_record h busy hrow')
    · exact .inl (moves_of_mem hrow')
  | markDirect mem =>
    rename_i id reply
    replace hrow' : row' ∈
      (if reply.applied then markOutboxPublished s.now id.val none s.table else s.table).rows := hrow'
    split at hrow'
    · exact .inl (moves_mark hrow')
    · exact .inl (moves_of_mem hrow')

theorem now_mono (hs : DeskStep direct s l s') : s.now ≤ s'.now := by
  cases hs with
  | tick => exact Nat.le_add_right _ _
  | _ => exact Nat.le_refl _

/-! ## Claims and attempts -/

theorem DeskOk.claims_length (h : DeskOk s) {row : OutboxRow} (hrow : row ∈ s.table.rows) :
    (claimsOf s row.id).length = row.attempts := by
  have := congrArg List.length (h.rows row hrow).claimed
  rwa [List.length_map, List.length_range'] at this

theorem DeskOk.no_claims (h : DeskOk s) {id : Uuid} (hno : ∀ row ∈ s.table.rows, row.id ≠ id) :
    claimsOf s id = [] := by
  unfold claimsOf
  rw [List.filter_eq_nil_iff]
  intro c hc e
  obtain ⟨row, hrow, hid⟩ := h.claims c hc
  exact hno row hrow (hid.trans (of_decide_eq_true e))

end

/-! ## The invariant -/

structure RowPaced (times : List Date) (row : OutboxRow) : Prop where
  length : times.length = row.attempts
  held : row.status = .processing → row.claimedAt = times.getLast?
  waits : row.status = .pending → ∀ t, times.getLast? = some t →
    t + backoffSeconds row.attempts * second ≤ row.nextAttemptAt

structure Paced (id : Uuid) (s : Desk) (times : List Date) : Prop where
  spaced : Spaced retryGap times
  past : ∀ t ∈ times, t ≤ s.now
  rows : ∀ row ∈ s.table.rows, row.id = id → RowPaced times row
  absent : (∀ row ∈ s.table.rows, row.id ≠ id) → times = []

theorem paced_start (id : Uuid) : Paced id Desk.start [] :=
  ⟨.nil, fun _ ht => (by cases ht), fun _ hrow => (by cases hrow), fun _ => rfl⟩

theorem RowPaced.due {now : Date} {workerId : String} {limit : Nat} {times : List Date} {row : OutboxRow}
    (h : RowPaced times row) (hc : claimable now (claimInput workerId limit) row = true) {last : Date}
    (hlast : times.getLast? = some last) : last + retryGap row.attempts ≤ now := by
  have hmin : retryGap row.attempts ≤ claimTimeoutSeconds * second ∧
      retryGap row.attempts ≤ backoffSeconds row.attempts * second :=
    ⟨Nat.mul_le_mul_right _ (Nat.min_le_left _ _), Nat.mul_le_mul_right _ (Nat.min_le_right _ _)⟩
  unfold claimable at hc
  simp only [Bool.and_eq_true, Bool.or_eq_true, decide_eq_true_eq] at hc
  rcases hc.2 with ⟨hpending, hdue⟩ | ⟨hprocessing, hexpired⟩
  · have hwaits := h.waits hpending last hlast
    exact Nat.le_trans (Nat.add_le_add_left hmin.2 last) (Nat.le_trans hwaits hdue)
  · rw [h.held hprocessing, hlast, Option.any_some, decide_eq_true_eq] at hexpired
    exact Nat.le_trans (Nat.add_le_add_left hmin.1 last) (Nat.le_of_lt hexpired)

theorem RowMoves.paced {now : Date} {times : List Date} {row row' : OutboxRow} (h : RowMoves now row row')
    (hp : RowPaced times row) (hpast : ∀ t ∈ times, t ≤ now) :
    (row'.attempts = row.attempts ∧ RowPaced times row') ∨
      (row'.attempts = row.attempts + 1 ∧ RowPaced (times ++ [now]) row' ∧
        ∀ last, times.getLast? = some last → last + retryGap times.length ≤ now) := by
  cases h with
  | same => exact .inl ⟨rfl, hp⟩
  | claim claimable =>
    refine .inr ⟨rfl, ⟨?_, fun _ => ?_, fun hpending => (by cases hpending)⟩, fun last hlast => ?_⟩
    · rw [List.length_append, hp.length]; rfl
    · rw [List.getLast?_append]; rfl
    · rw [hp.length]; exact hp.due claimable hlast
  | publish => exact .inl ⟨rfl, hp.length, fun hs => (by cases hs), fun hs => (by cases hs)⟩
  | retry processing =>
    refine .inl ⟨rfl, hp.length, fun hs => ?_, fun _ t ht => ?_⟩
    · have hstatus := hs
      unfold OutboxRow.retry at hstatus
      split at hstatus <;> cases hstatus
    · exact Nat.add_le_add_right (hpast t (List.mem_of_getLast? ht)) _

theorem paced_step {direct : Bool} {id : Uuid} {s s' : Desk} {l : DeskLabel} {times : List Date}
    (h : (desk direct).Reach s) (he : (desk direct).exec s l = some s') (hp : Paced id s times) :
    Paced id s' (times ++ (claimTime id s l s').toList) := by
  have hok := desk_ok h
  have hok' := desk_ok (h.step he)
  have hs := desk_step he
  have hnow := now_mono hs
  -- without a new claim the times stay
  have hkeep : (claimsOf s id).length = (claimsOf s' id).length →
      times ++ (claimTime id s l s').toList = times := by
    intro hlength
    unfold claimTime
    rw [if_neg (by omega)]
    exact List.append_nil _
  have hpast : ∀ t ∈ times, t ≤ s'.now := fun t ht => Nat.le_trans (hp.past t ht) hnow
  by_cases hrow' : ∃ row' ∈ s'.table.rows, row'.id = id
  · obtain ⟨row', hrow', rfl⟩ := hrow'
    have honly : ∀ x ∈ s'.table.rows, x.id = row'.id → x = row' := fun x hx hid => Table.key_inj hx hrow' hid
    have hlength' := hok'.claims_length hrow'
    have habsent : (∀ x ∈ s'.table.rows, x.id ≠ row'.id) → ∀ {ts : List Date}, ts = [] :=
      fun hno => absurd rfl (hno row' hrow')
    rcases row_moves hok hs hrow' with ⟨row, hrow, hmoves⟩ | ⟨o, rfl, hnew⟩
    · have hid := hmoves.id
      have hlength := hok.claims_length hrow
      rw [← hid] at hlength
      rcases hmoves.paced (hp.rows row hrow hid.symm) hp.past with ⟨hattempts, hpaced⟩ | ⟨hattempts, hpaced, hgap⟩
      · rw [hkeep (by omega)]
        refine ⟨hp.spaced, hpast, fun x hx hxid => ?_, fun hno => habsent hno⟩
        rw [honly x hx hxid]; exact hpaced
      · have hclaimed : (claimTime row'.id s l s').toList = [s.now] := by
          unfold claimTime
          rw [if_pos (by omega)]; rfl
        rw [hclaimed]
        refine ⟨hp.spaced.snoc hgap, fun t ht => ?_, fun x hx hxid => ?_, fun hno => habsent hno⟩
        · rcases List.mem_append.mp ht with ht | ht
          · exact hpast t ht
          · rw [List.mem_singleton.mp ht]; exact hnow
        · rw [honly x hx hxid]; exact hpaced
    · have hzero := hok.no_claims hnew
      rw [hkeep (by rw [hlength', hzero]; rfl), hp.absent hnew]
      refine ⟨.nil, fun _ ht => (by cases ht), fun x hx hxid => ?_, fun _ => rfl⟩
      rw [honly x hx hxid]
      exact ⟨rfl, fun hs => (by cases hs), fun _ t ht => (by cases ht)⟩
  · have hno' : ∀ x ∈ s'.table.rows, x.id ≠ id := fun x hx hid => hrow' ⟨x, hx, hid⟩
    have hno : ∀ x ∈ s.table.rows, x.id ≠ id := by
      intro x hx hid
      obtain ⟨x', hx', hl, _⟩ := (acts hs hok).onward x hx
      exact hno' x' hx' ((content_eq hl.content).1.trans hid)
    rw [hkeep (by rw [hok.no_claims hno, hok'.no_claims hno']), hp.absent hno]
    exact ⟨.nil, fun _ ht => (by cases ht), fun x hx hid => absurd hid (hno' x hx), fun _ => rfl⟩

/-! ## Every run -/

def claimTimes (direct : Bool) (id : Uuid) (ls : List DeskLabel) : List Date :=
  (desk direct).trace (claimTime id) Desk.start ls

def patience : Nat := ((List.range (maxAttempts - 1)).map fun i => retryGap (i + 1)).sum

example : patience = 123 * second := by decide

structure RetriesPaced (direct : Bool) (ls : List DeskLabel) (s : Desk) (id : Uuid) : Prop where
  bounded : (claimTimes direct id ls).length ≤ maxAttempts
  attempts : ∀ row ∈ s.table.rows, row.id = id → row.attempts = (claimTimes direct id ls).length
  spaced : Spaced retryGap (claimTimes direct id ls)
  backed_off : ∀ row ∈ s.table.rows, row.id = id → row.status = .pending →
    ∀ t, (claimTimes direct id ls).getLast? = some t →
    t + backoffSeconds row.attempts * second ≤ row.nextAttemptAt
  retired : ∀ row ∈ s.table.rows, row.id = id → row.status = .failed →
    ∃ first, (claimTimes direct id ls)[0]? = some first ∧ first + patience ≤ s.now

/-- Whatever the workers, their timeouts and the direct path do to the row. -/
theorem retries_paced {direct : Bool} {ls : List DeskLabel} {s : Desk}
    (hr : (desk direct).run Desk.start ls = some s) (id : Uuid) : RetriesPaced direct ls s id := by
  have hstart : (desk direct).Reach Desk.start := .start rfl
  have hp : Paced id s (claimTimes direct id ls) := by
    have := Machine.run_traced (I := Paced id) (C := fun _ _ => True)
      (fun s l s' times h _ he hi => paced_step h he hi) hstart
        (Machine.meets_of_forall (fun _ _ _ => trivial) _) hr
      (paced_start id)
    rwa [List.nil_append] at this
  have hok := desk_ok (Machine.Reach.run hstart hr)
  have hbounded : (claimTimes direct id ls).length ≤ maxAttempts := by
    by_cases hrow : ∃ row ∈ s.table.rows, row.id = id
    · obtain ⟨row, hrow, hid⟩ := hrow
      rw [(hp.rows row hrow hid).length]; exact (hok.rows row hrow).bounded
    · rw [hp.absent fun row h hid => hrow ⟨row, h, hid⟩]; exact Nat.zero_le _
  refine ⟨hbounded, fun row hrow hid => (hp.rows row hrow hid).length.symm, hp.spaced,
    fun row hrow hid => (hp.rows row hrow hid).waits, fun row hrow hid hfailed => ?_⟩
  have hall : maxAttempts ≤ row.attempts := (hok.rows row hrow).failed hfailed
  rw [← (hp.rows row hrow hid).length] at hall
  have hpositive : 0 < maxAttempts := by decide
  have hfirst := List.getElem?_eq_getElem (l := claimTimes direct id ls) (i := 0) (by omega)
  have hlast := List.getElem?_eq_getElem (l := claimTimes direct id ls) (i := maxAttempts - 1) (by omega)
  have hsum := hp.spaced.sum_le hfirst hlast
  exact ⟨_, hfirst, Nat.le_trans hsum (hp.past _ (List.getElem_mem _))⟩

def sampleOutage : List DeskLabel :=
  .commit sampleRow none :: .join "first" :: (List.range maxAttempts).flatMap fun n =>
    [.tick (backoffSeconds n * second), .claim "first" 25 [] .resolved,
      .publish "first" (.rejected "no broker" false), .recordFailure "first" .resolved]

theorem retries_paced_outage :
    ∃ s, (desk false).run Desk.start sampleOutage = some s ∧ deskView s = [(.failed, 8)] ∧
    (claimTimes false sampleRow.id.val sampleOutage).map (· / second) = [1, 2, 4, 8, 16, 32, 64, 128] ∧
    RetriesPaced false sampleOutage s sampleRow.id.val := by
  have h : ((desk false).run Desk.start sampleOutage).map deskView = some [(.failed, 8)] := by decide +kernel
  have htimes : (claimTimes false sampleRow.id.val sampleOutage).map (· / second) =
      [1, 2, 4, 8, 16, 32, 64, 128] := by
    decide +kernel
  obtain ⟨s, hs, hview⟩ := Option.map_eq_some_iff.mp h
  exact ⟨s, hs, hview, htimes, retries_paced hs sampleRow.id.val⟩

end EventBooking
