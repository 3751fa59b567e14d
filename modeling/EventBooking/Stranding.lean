import EventBooking.OutboxSafety

/-!
# Rows that nobody will finish

A claim counts as an attempt and only a row with attempts left can be claimed
again. A row on its last attempt is therefore closed by the worker that holds
it or by nobody: it is stranded when that worker crashes, loses the reply of
its claim, or fails to record the failure.
-/

namespace EventBooking
open Lib

/-! ## Stranded rows -/

def Held (s : Desk) (row : OutboxRow) : Prop :=
  ∃ w b, s.workers w = .busy b ∧ row.claimedBy = some w ∧ ∃ r ∈ b.records, r.id = row.id ∧ r.attempts = row.attempts

def Reclaimable (s : Desk) (row : OutboxRow) : Prop :=
  ∃ t, s.now ≤ t ∧ ∀ workerId limit, s.table.rows.length ≤ limit →
    row.id ∈ claimableIds t (claimInput workerId limit) [] s.table

def NotStranded (s : Desk) (row : OutboxRow) : Prop :=
  row.status = .published ∨ row.status = .failed ∨ Held s row ∨ Reclaimable s row

def Batch.open (b : Batch) : List OutboxRow := b.current :: b.rest

structure LastAttempt (w : String) (b : Batch) (row : OutboxRow) : Prop where
  claimedBy : row.claimedBy = some w
  attempts : maxAttempts ≤ row.attempts
  mem : row.id ∈ b.open.map (·.id)

/-- Every row whose last attempt is used up is closed or has a worker that will close it. -/
def Attended (s : Desk) : Prop :=
  ∀ row ∈ s.table.rows, row.status = .processing → maxAttempts ≤ row.attempts →
    ∃ w b, s.workers w = .busy b ∧ LastAttempt w b row

/-- No crash, lost claim or lost record of a failure hits a row on its last attempt. -/
def Careful (s : Desk) : DeskLabel → Prop
  | .crash w => ∀ b, s.workers w = .busy b → ∀ row ∈ s.table.rows, ¬ LastAttempt w b row
  | .recordFailure w reply => reply.applied = false → ∀ b, s.workers w = .busy b → ∀ row ∈ s.table.rows,
    row.id = b.current.id → ¬ LastAttempt w b row
  | .claim w limit locked reply => reply.applied = true → reply.ok = false →
    ∀ r ∈ (claimOutboxMessages s.now (claimInput w limit) locked s.table).1, r.attempts < maxAttempts
  | _ => True

theorem mem_claimableIds {now : Date} {input : ClaimInput} {t : OutboxTable} {row : OutboxRow} (hrow : row ∈ t.rows)
    (hc : claimable now input row = true) (hl : t.rows.length ≤ input.limit) :
    row.id ∈ claimableIds now input [] t := by
  unfold claimableIds
  apply List.mem_map_of_mem
  rw [List.take_of_length_le]
  · rw [List.mem_insertionSort, List.mem_filter]
    exact ⟨hrow, by simp [hc]⟩
  · rw [List.length_insertionSort]
    exact Nat.le_trans (List.length_filter_le _ _) hl

section
variable {s s' : Desk} {direct : Bool}

theorem DeskOk.reclaimable (h : DeskOk s) {row : OutboxRow} (hrow : row ∈ s.table.rows)
    (ha : row.attempts < maxAttempts) (hs : row.status = .pending ∨ row.status = .processing) :
    Reclaimable s row := by
  rcases hs with hs | hs
  · refine ⟨max s.now row.nextAttemptAt, le_max_left _ _, fun w limit hl => mem_claimableIds hrow ?_ hl⟩
    unfold claimable claimInput
    simp [ha, hs]
  · obtain ⟨claimedAt, hc⟩ := Option.isSome_iff_exists.mp ((h.rows row hrow).processing hs).2
    refine ⟨max s.now (claimedAt + claimTimeoutSeconds * second + 1), le_max_left _ _, fun w limit hl =>
      mem_claimableIds hrow ?_ hl⟩
    have hlt : claimedAt + claimTimeoutSeconds * second <
        max s.now (claimedAt + claimTimeoutSeconds * second + 1) :=
      Nat.lt_of_lt_of_le (Nat.lt_succ_self _) (le_max_right _ _)
    unfold claimable claimInput
    simp only [ha, hs, hc, Option.any_some, decide_true, Bool.true_and, Bool.or_eq_true, decide_eq_true_eq]
    exact Or.inr hlt

theorem Attended.not_stranded (ha : Attended s) (h : DeskOk s) {row : OutboxRow} (hrow : row ∈ s.table.rows) :
    NotStranded s row := by
  cases hs : row.status with
  | published => exact Or.inl hs
  | failed => exact Or.inr (Or.inl hs)
  | pending => exact Or.inr (Or.inr (Or.inr (h.reclaimable hrow ((h.rows row hrow).pending hs) (Or.inl hs))))
  | processing =>
    by_cases hlt : row.attempts < maxAttempts
    · exact Or.inr (Or.inr (Or.inr (h.reclaimable hrow hlt (Or.inr hs))))
    · obtain ⟨w, b, hb, hl⟩ := ha row hrow hs (Nat.le_of_not_lt hlt)
      obtain ⟨r, hr, hid⟩ := List.mem_map.mp hl.mem
      have hmem : r ∈ b.records := List.mem_append_right _ hr
      obtain ⟨row0, h0, he, _, ho⟩ := ((h.workers w b hb).records r hmem).row
      have : row0 = row := Table.key_inj h0 hrow ((content_eq he).1.trans hid)
      subst this
      exact Or.inr (Or.inr (Or.inl ⟨w, b, hb, hl.claimedBy, r, hmem, hid, (ho hl.claimedBy).symm⟩))

/-! ## One step -/

theorem Attended.step (ha : Attended s)
    (hrows : ∀ row ∈ s'.table.rows, row.status = .processing → maxAttempts ≤ row.attempts →
      row ∈ s.table.rows ∨ ∃ w b, s'.workers w = .busy b ∧ LastAttempt w b row)
    (hworkers : ∀ w b row, s.workers w = .busy b → row ∈ s'.table.rows → row.status = .processing →
      LastAttempt w b row → ∃ b', s'.workers w = .busy b' ∧ LastAttempt w b' row) : Attended s' := by
  intro row hrow hs hlast
  rcases hrows row hrow hs hlast with hold | hnew
  · obtain ⟨w, b, hb, hl⟩ := ha row hold hs hlast
    obtain ⟨b', hb', hl'⟩ := hworkers w b row hb hrow hs hl
    exact ⟨w, b', hb', hl'⟩
  · exact hnew

theorem workers_set {w w' : String} {x : Worker} (h : w' ≠ w) : (s.set w x).workers w' = s.workers w' := by
  show Function.update s.workers w x w' = _
  rw [Function.update_of_ne h]

theorem workers_set_self {w : String} {x : Worker} : (s.set w x).workers w = x := by
  show Function.update s.workers w x w = x
  rw [Function.update_self]

theorem workers_step {w : String} {x : Worker} {table : OutboxTable} {b : Batch} (hb : s.workers w = .busy b)
    (hx : ∀ row ∈ table.rows, row.status = .processing → LastAttempt w b row →
      ∃ b', x = .busy b' ∧ LastAttempt w b' row) :
    ∀ w' b' row, s.workers w' = .busy b' → row ∈ table.rows → row.status = .processing → LastAttempt w' b' row →
      ∃ b'', ({ s with table }.set w x).workers w' = .busy b'' ∧ LastAttempt w' b'' row := by
  intro w' b' row hb' hrow hs hl
  by_cases e : w' = w
  · subst e
    cases hb.symm.trans hb'
    obtain ⟨b'', hx, hl'⟩ := hx row hrow hs hl
    exact ⟨b'', by rw [workers_set_self, hx], hl'⟩
  · exact ⟨b', by rw [workers_set e]; exact hb', hl⟩

theorem LastAttempt.finish {w : String} {b : Batch} {row : OutboxRow} (hl : LastAttempt w b row)
    (hne : row.id ≠ b.current.id) : ∃ b', b.finish = .busy b' ∧ LastAttempt w b' row := by
  have hmem := hl.mem
  unfold Batch.open at hmem
  rw [List.map_cons, List.mem_cons] at hmem
  have hrest := hmem.resolve_left hne
  unfold Batch.finish Worker.take
  cases hr : b.rest with
  | nil => rw [hr] at hrest; cases hrest
  | cons r rest =>
    rw [hr] at hrest
    exact ⟨_, rfl, hl.claimedBy, hl.attempts, hrest⟩

theorem mem_of_mark {id : Uuid} {workerId : Option String} {now : Date} {row : OutboxRow} {t : OutboxTable}
    (hrow : row ∈ (markOutboxPublished now id workerId t).rows) (hs : row.status = .processing) :
    row ∈ t.rows ∧ ¬ (row.id = id ∧ (workerId = none ∨ row.claimedBy = workerId)) := by
  obtain ⟨row0, h0, rfl⟩ := mem_markOutboxPublished.mp hrow
  by_cases hc : row0.id = id ∧ (workerId = none ∨ row0.claimedBy = workerId)
  · rw [if_pos hc] at hs; cases hs
  · rw [if_neg hc]; exact ⟨h0, hc⟩

theorem mem_of_record {id : Uuid} {workerId error : String} {now : Date} {backoff : Nat} {row : OutboxRow}
    {t : OutboxTable} (hrow : row ∈ (recordOutboxFailure now id workerId error maxAttempts backoff t).rows)
    (hs : row.status = .processing) : row ∈ t.rows ∧ ¬ (row.id = id ∧ row.claimedBy = some workerId) := by
  obtain ⟨row0, h0, rfl⟩ := mem_recordOutboxFailure.mp hrow
  by_cases hc : row0.id = id ∧ row0.status = .processing ∧ row0.claimedBy = some workerId
  · rw [if_pos hc] at hs
    change (if maxAttempts ≤ row0.attempts then OutboxStatus.failed else .pending) = _ at hs
    split at hs <;> cases hs
  · rw [if_neg hc] at hs ⊢
    exact ⟨h0, fun h => hc ⟨h.1, hs, h.2⟩⟩

theorem attended_claim {w : String} {limit : Nat} {locked : List Uuid} {reply : Reply} {records : List OutboxRow}
    {table : OutboxTable} (ha : Attended s) (hidle : s.workers w = .idle)
    (hc : claimOutboxMessages s.now (claimInput w limit) locked s.table = (records, table))
    (hcareful : reply.ok = false → ∀ r ∈ records, r.attempts < maxAttempts) :
    Attended ({ s with table, claims := s.claims ++ records.map (OutboxRow.attempt w) }.set w
      (if reply.ok then .take [] records else .idle)) := by
  obtain ⟨ids, _, hrows, hrecords⟩ := claim_spec hc
  refine ha.step (fun row hrow hs hlast => ?_) fun w' b row hb hrow hs hl => ⟨b, ?_, hl⟩
  · obtain ⟨row0, h0, e⟩ := (hrows row).mp hrow
    by_cases hid : row0.id ∈ ids
    · right
      rw [if_pos hid] at e
      have hmem : row ∈ records := by
        rw [hrecords, e]
        exact List.mem_map_of_mem (List.mem_filter.mpr ⟨h0, decide_eq_true hid⟩)
      by_cases hok : reply.ok = true
      · have hbusy : ∃ b, Worker.take [] records = .busy b ∧ b.open = records := by
          cases records with
          | nil => cases hmem
          | cons r rest => exact ⟨_, rfl, rfl⟩
        obtain ⟨b, hb, hopen⟩ := hbusy
        refine ⟨w, b, by rw [workers_set_self, if_pos hok, hb], by rw [e]; rfl, hlast, ?_⟩
        rw [hopen]; exact List.mem_map_of_mem hmem
      · exact absurd hlast (Nat.not_le_of_lt (hcareful (by simpa using hok) row hmem))
    · rw [if_neg hid] at e
      exact Or.inl (e ▸ h0)
  · have hne : w' ≠ w := fun e => by rw [e, hidle] at hb; cases hb
    rw [workers_set hne]; exact hb

theorem attended_step {l : DeskLabel} (hs : DeskStep direct s l s') (ha : Attended s) (hc : Careful s l) :
    Attended s' := by
  cases hs with
  | tick | publishDirect => exact ha
  | unclaimed => exact ha
  | join absent =>
    rename_i w
    refine ha.step (fun row hrow _ _ => Or.inl hrow) fun w' b row hb _ _ hl => ⟨b, ?_, hl⟩
    have hne : w' ≠ w := fun e => by rw [e, absent] at hb; cases hb
    rw [workers_set hne]; exact hb
  | commit enveloped sends insert =>
    refine ha.step (fun row hrow hs _ => ?_) fun w b row hb _ _ hl => ⟨b, hb, hl⟩
    rw [show _ = _ from Table.insert_rows insert, List.mem_append, List.mem_singleton] at hrow
    rcases hrow with hrow | rfl
    · exact Or.inl hrow
    · cases hs
  | claim idle applied claimed =>
    refine attended_claim ha idle claimed fun hok r hr => ?_
    exact hc applied hok r (by rw [claimed]; exact hr)
  | publish busy stage =>
    rename_i w reply b
    refine ha.step (fun row hrow _ _ => Or.inl hrow) ?_
    exact workers_step busy fun row _ _ hl => ⟨_, rfl, hl.claimedBy, hl.attempts, hl.mem⟩
  | markPublished busy stage =>
    rename_i w reply b
    refine ha.step (fun row hrow hs _ => ?_) (workers_step busy fun row hrow hs hl => ?_)
    · change row ∈ (if reply.applied then _ else _ : OutboxTable).rows at hrow
      split at hrow
      · exact Or.inl (mem_of_mark hrow hs).1
      · exact Or.inl hrow
    · cases reply with
      | rejected error applied => exact ⟨_, rfl, hl.claimedBy, hl.attempts, hl.mem⟩
      | resolved => exact hl.finish fun e => (mem_of_mark hrow hs).2 ⟨e, Or.inr hl.claimedBy⟩
  | recordFailure busy stage =>
    rename_i w error reply b
    refine ha.step (fun row hrow hs _ => ?_) (workers_step busy fun row hrow hs hl => hl.finish fun e => ?_)
    · change row ∈ (if reply.applied then _ else _ : OutboxTable).rows at hrow
      split at hrow
      · exact Or.inl (mem_of_record hrow hs).1
      · exact Or.inl hrow
    · change row ∈ (if reply.applied then _ else _ : OutboxTable).rows at hrow
      by_cases happlied : reply.applied = true
      · rw [if_pos happlied] at hrow
        exact (mem_of_record hrow hs).2 ⟨e, hl.claimedBy⟩
      · rw [if_neg happlied] at hrow
        exact hc (by simpa using happlied) b busy row hrow e hl
  | crash =>
    rename_i w
    refine ha.step (fun row hrow _ _ => Or.inl hrow) fun w' b row hb hrow _ hl => ⟨b, ?_, hl⟩
    have hne : w' ≠ w := by
      intro e
      subst e
      exact hc b hb row hrow hl
    rw [workers_set hne]; exact hb
  | markDirect mem =>
    rename_i id reply
    refine ha.step (fun row hrow hs _ => ?_) fun w b row hb _ _ hl => ⟨b, hb, hl⟩
    change row ∈ (if reply.applied then _ else _ : OutboxTable).rows at hrow
    split at hrow
    · exact Or.inl (mem_of_mark hrow hs).1
    · exact Or.inl hrow

theorem not_idle {w w' : String} {b b' : Batch} {row : OutboxRow} (h : LastAttempt w b row)
    (h' : LastAttempt w' b' row) :
    w' = w := Option.some.inj (h'.claimedBy.symm.trans h.claimedBy)

theorem careful_step {l : DeskLabel} (hs : DeskStep direct s l s') (h : DeskOk s) (ha : Attended s') :
    Careful s l := by
  cases hs with
  | crash =>
    rename_i w
    intro b hb row hrow hl
    obtain ⟨w', b', hb', hl'⟩ := ha row hrow ((h.rows row hrow).owned w hl.claimedBy).1 hl.attempts
    rw [not_idle hl hl', workers_set_self] at hb'
    cases hb'
  | recordFailure busy stage =>
    rename_i w error reply b
    intro hlost b0 hb0 row hrow hid hl
    cases busy.symm.trans hb0
    have hrow' : row ∈ (s.recordFailure w error b reply).table.rows := by
      show row ∈ (if reply.applied then _ else _ : OutboxTable).rows
      rw [if_neg (by simp [hlost])]; exact hrow
    obtain ⟨w', b', hb', hl'⟩ := ha row hrow' ((h.rows row hrow).owned w hl.claimedBy).1 hl.attempts
    rw [not_idle hl hl'] at hb'
    have hfinish : b.finish = .busy b' := workers_set_self.symm.trans hb'
    have hrest : b'.open = b.rest := by
      unfold Batch.finish Worker.take at hfinish
      cases hr : b.rest with
      | nil => rw [hr] at hfinish; cases hfinish
      | cons r rest => rw [hr] at hfinish; cases hfinish; rfl
    have hmem := hl'.mem
    rw [hrest] at hmem
    obtain ⟨r, hr, e⟩ := List.mem_map.mp hmem
    exact (h.workers w b busy).not_rest hr (e.trans hid)
  | claim idle applied claimed =>
    rename_i w limit locked reply records table
    intro _ hok r hr
    rw [claimed] at hr
    by_contra hn
    obtain ⟨ids, _, hrows, hrecords⟩ := claim_spec claimed
    rw [hrecords] at hr
    obtain ⟨row, hrow, rfl⟩ := List.mem_map.mp hr
    obtain ⟨hrow, hid⟩ := List.mem_filter.mp hrow
    have hmem : row.claim s.now w ∈ table.rows := (hrows _).mpr ⟨row, hrow, (if_pos (of_decide_eq_true hid)).symm⟩
    obtain ⟨w', b', hb', hl'⟩ := ha _ hmem rfl (Nat.le_of_not_lt hn)
    have hw : w' = w := (Option.some.inj hl'.claimedBy).symm
    rw [hw, workers_set_self, hok] at hb'
    cases hb'
  | unclaimed lost =>
    intro happlied
    rw [lost] at happlied
    cases happlied
  | _ => trivial

theorem attended {s : Desk} (h : (desk direct).ReachBy Careful s) : Attended s := by
  refine Machine.ReachBy.inv ?_ ?_ h
  · intro s0 h0
    rw [show s0 = Desk.start from h0]
    intro row hrow; cases hrow
  · intro s l s' _ ha hc he
    exact attended_step (desk_step he) ha hc

/-- In a careful run no row is stranded, and the first step that is not careful
leaves a row on its last attempt with nobody to close it. -/
theorem rows_not_stranded (h : (desk direct).ReachBy Careful s) : (∀ row ∈ s.table.rows, NotStranded s row) ∧
    ∀ l s', (desk direct).exec s l = some s' → (Attended s' ↔ Careful s l) := by
  have hok := desk_ok h.reach
  refine ⟨fun row hrow => (attended h).not_stranded hok hrow, fun l s' he => ⟨fun ha => ?_, fun hc => ?_⟩⟩
  · exact careful_step (desk_step he) hok ha
  · exact attended_step (desk_step he) (attended h) hc

end

/-! ## The last attempt -/

def sampleFailure : List DeskLabel :=
  [.claim "worker" 25 [] .resolved, .publish "worker" (.rejected "unavailable" false),
   .recordFailure "worker" .resolved, .tick 300000]

def sampleAttempts (last : DeskLabel) : List DeskLabel :=
  [.commit sampleRow none, .join "worker"] ++ (List.replicate 7 sampleFailure).flatten ++
    [.claim "worker" 25 [] .resolved, .publish "worker" (.rejected "unavailable" false), last]

theorem rows_not_stranded_after_failures : ∃ s,
    (desk false).run Desk.start (sampleAttempts (.recordFailure "worker" .resolved)) = some s ∧
    deskView s = [(.failed, 8)] ∧ ∀ row ∈ s.table.rows, NotStranded s row := by
  have h : ((desk false).run Desk.start (sampleAttempts (.recordFailure "worker" .resolved))).map deskView =
      some [(.failed, 8)] := by
    decide +kernel
  obtain ⟨s, hs, hview⟩ := Option.map_eq_some_iff.mp h
  have hmeets : (desk false).Meets Careful Desk.start (sampleAttempts (.recordFailure "worker" .resolved)) := by
    apply Machine.meets_of_forall; intro l hl s
    have hcases : l = .commit sampleRow none ∨ l = .join "worker" ∨ l ∈ sampleFailure := by
      simp only [sampleAttempts, sampleFailure, List.mem_append, List.mem_flatten, List.mem_replicate,
        List.mem_cons, List.not_mem_nil, or_false] at hl ⊢
      rcases hl with ((hl | hl) | ⟨_, ⟨_, rfl⟩, hl⟩) | hl | hl | hl
      · exact Or.inl hl
      · exact Or.inr (Or.inl hl)
      · simpa using Or.inr (Or.inr hl)
      · exact Or.inr (Or.inr (Or.inl hl))
      · exact Or.inr (Or.inr (Or.inr (Or.inl hl)))
      · exact Or.inr (Or.inr (Or.inr (Or.inr (Or.inl hl))))
    rcases hcases with rfl | rfl | hl
    · trivial
    · trivial
    · simp only [sampleFailure, List.mem_cons, List.not_mem_nil, or_false] at hl
      rcases hl with rfl | rfl | rfl | rfl
      · exact fun _ hok => by cases hok
      · trivial
      · exact fun hlost => by cases hlost
      · trivial
  exact ⟨s, hs, hview, (rows_not_stranded (Machine.ReachBy.run (.start rfl) hmeets hs)).1⟩

def strandedView (s : Desk) : List (OutboxStatus × Nat × Option String) × Worker :=
  (s.table.rows.map fun r => (r.status, r.attempts, r.claimedBy), s.workers "worker")

/-- The worker crashes on the eighth attempt: the row stays as it is for ever. -/
theorem stranded_by_crash : ∃ s row, (desk false).run Desk.start (sampleAttempts (.crash "worker")) = some s ∧
    row ∈ s.table.rows ∧ ¬ NotStranded s row := by
  have h : ((desk false).run Desk.start (sampleAttempts (.crash "worker"))).map strandedView =
      some ([(.processing, 8, some "worker")], .dead) := by
    decide +kernel
  obtain ⟨s, hs, hview⟩ := Option.map_eq_some_iff.mp h
  obtain ⟨row, hrow, he⟩ := List.map_eq_singleton_iff.mp (congrArg Prod.fst hview)
  have hdead : s.workers "worker" = .dead := congrArg Prod.snd hview
  have hstatus : row.status = .processing := congrArg Prod.fst he
  have hattempts : row.attempts = 8 := congrArg (fun x => x.2.1) he
  have howner : row.claimedBy = some "worker" := congrArg (fun x => x.2.2) he
  have hmem : row ∈ s.table.rows := by rw [hrow]; exact List.mem_singleton.mpr rfl
  refine ⟨s, row, hs, hmem, fun hn => ?_⟩
  rcases hn with hp | hf | hheld | hagain
  · rw [hstatus] at hp; cases hp
  · rw [hstatus] at hf; cases hf
  · obtain ⟨w, b, hb, hw, _⟩ := hheld
    rw [howner, Option.some.injEq] at hw
    rw [← hw, hdead] at hb
    cases hb
  · obtain ⟨t, _, hclaim⟩ := hagain
    obtain ⟨row0, h0, e⟩ := List.mem_map.mp (hclaim "" s.table.rows.length (Nat.le_refl _))
    obtain ⟨h0, hc⟩ := List.mem_filter.mp ((List.mem_insertionSort _).mp (List.mem_of_mem_take h0))
    rw [Table.key_inj h0 hmem e] at hc
    have := (claimable_status (Bool.and_eq_true_iff.mp hc).1).1
    rw [hattempts] at this
    exact Nat.lt_irrefl 8 this

end EventBooking
