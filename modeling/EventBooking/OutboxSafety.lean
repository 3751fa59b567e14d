import EventBooking.Dispatcher
import EventBooking.Zod4

/-!
# Outbox delivery safety

What several workers, their timeouts and the direct path can do to a row: it is
closed only after its message was published, retired only after its last
attempt, and changed only by the worker whose claim it carries.
-/

namespace EventBooking
open Lib

/-! ## What the statements do to a row -/

theorem mem_map_eq {f : OutboxRow → OutboxRow} {l : List OutboxRow} {x : OutboxRow} :
    x ∈ l.map f ↔ ∃ r ∈ l, x = f r := by
  rw [List.mem_map]
  exact exists_congr fun r => and_congr_right fun _ => eq_comm

theorem claimRows_rows (now : Date) (workerId : String) (ids : List Uuid) (t : OutboxTable) :
    (claimRows now workerId ids t).rows = t.rows.map fun r =>
      if ids.contains r.id then r.claim now workerId else r := rfl

theorem claim_spec {now : Date} {input : ClaimInput} {locked : List Uuid} {t t' : OutboxTable}
    {records : List OutboxRow} (h : claimOutboxMessages now input locked t = (records, t')) : ∃ ids : List Uuid,
      (∀ row ∈ t.rows, row.id ∈ ids → claimable now input row = true) ∧
      (∀ x, x ∈ t'.rows ↔ ∃ row ∈ t.rows, x = if row.id ∈ ids then row.claim now input.workerId else row) ∧
      records = (t.rows.filter fun row => decide (row.id ∈ ids)).map (OutboxRow.claim now input.workerId) := by
  obtain ⟨rfl, rfl⟩ := Prod.mk.inj h
  refine ⟨claimableIds now input locked t, fun row hrow hid => ?_, fun x => ?_, ?_⟩
  · unfold claimableIds at hid
    obtain ⟨row0, h0, e⟩ := List.mem_map.mp hid
    obtain ⟨hmem, hc⟩ := List.mem_filter.mp ((List.mem_insertionSort _).mp (List.mem_of_mem_take h0))
    rw [Table.key_inj hmem hrow e] at hc
    exact (Bool.and_eq_true_iff.mp hc).1
  · rw [claimRows_rows, mem_map_eq]
    simp only [List.contains_eq_mem, decide_eq_true_eq]
  · rw [claimRows_rows, List.filter_map]
    simp only [List.contains_eq_mem, decide_eq_true_eq]
    have hp : ((fun r : OutboxRow => decide (r.id ∈ claimableIds now input locked t)) ∘ fun r =>
        if r.id ∈ claimableIds now input locked t then r.claim now input.workerId else r) =
        fun r => decide (r.id ∈ claimableIds now input locked t) := by
      funext r
      simp only [Function.comp]
      split <;> rfl
    rw [hp]
    apply List.map_congr_left; intro r hr
    rw [if_pos (of_decide_eq_true (List.mem_filter.mp hr).2)]

theorem mem_markOutboxPublished {now : Date} {id : Uuid} {workerId : Option String} {t : OutboxTable}
    {x : OutboxRow} :
    x ∈ (markOutboxPublished now id workerId t).rows ↔ ∃ row ∈ t.rows,
      x = if row.id = id ∧ (workerId = none ∨ row.claimedBy = workerId) then row.publish now else row := by
  have : (markOutboxPublished now id workerId t).rows = t.rows.map fun r =>
      if decide (r.id = id) && (workerId.isNone || decide (r.claimedBy = workerId)) then r.publish now else r := rfl
  rw [this, mem_map_eq]
  simp

theorem mem_recordOutboxFailure {now : Date} {id : Uuid} {workerId error : String}
    {maxAttempts backoffSeconds : Nat} {t : OutboxTable} {x : OutboxRow} :
    x ∈ (recordOutboxFailure now id workerId error maxAttempts backoffSeconds t).rows ↔ ∃ row ∈ t.rows,
      x = if row.id = id ∧ row.status = .processing ∧ row.claimedBy = some workerId then
        row.retry now error maxAttempts backoffSeconds else row := by
  have : (recordOutboxFailure now id workerId error maxAttempts backoffSeconds t).rows = t.rows.map fun r =>
      if decide (r.id = id) && decide (r.status = .processing) && decide (r.claimedBy = some workerId) then
        r.retry now error maxAttempts backoffSeconds else r := rfl
  rw [this, mem_map_eq]
  simp [and_assoc]

/-! ## A row over time -/

/-- The same message, never further from its end. -/
structure Later (row row' : OutboxRow) : Prop where
  content : row'.content = row.content
  attempts : row.attempts ≤ row'.attempts
  published : row.status = .published → row'.status = .published

def NotClaimedBy (workerId : String) (row row' : OutboxRow) : Prop :=
  row'.claimedBy = some workerId → row.claimedBy = some workerId ∧ row'.attempts = row.attempts

theorem Later.refl (row : OutboxRow) : Later row row := ⟨rfl, Nat.le_refl _, fun h => h⟩

theorem Later.trans {a b c : OutboxRow} (h : Later a b) (h' : Later b c) : Later a c :=
  ⟨h'.content.trans h.content, Nat.le_trans h.attempts h'.attempts, fun hp => h'.published (h.published hp)⟩

theorem claimable_status {now : Date} {input : ClaimInput} {row : OutboxRow} (h : claimable now input row = true) :
    row.attempts < input.maxAttempts ∧ (row.status = .pending ∨ row.status = .processing) := by
  unfold claimable at h
  simp only [Bool.and_eq_true, Bool.or_eq_true, decide_eq_true_eq] at h
  exact ⟨h.1, h.2.imp (·.1) (·.1)⟩

theorem later_claim {now : Date} {input : ClaimInput} {row : OutboxRow} (h : claimable now input row = true) :
    Later row (row.claim now input.workerId) := by
  refine ⟨rfl, Nat.le_succ _, fun hp => ?_⟩
  rcases (claimable_status h).2 with hs | hs <;> rw [hs] at hp <;> cases hp

theorem later_publish (now : Date) (row : OutboxRow) : Later row (row.publish now) :=
  ⟨rfl, Nat.le_refl _, fun _ => rfl⟩

theorem later_retry {now : Date} {error : String} {limit backoff : Nat} {row : OutboxRow}
    (h : row.status = .processing) :
    Later row (row.retry now error limit backoff) := by
  refine ⟨rfl, Nat.le_refl _, fun hp => ?_⟩
  rw [h] at hp; cases hp

def Onward (t t' : OutboxTable) (R : OutboxRow → OutboxRow → Prop) : Prop :=
  ∀ row ∈ t.rows, ∃ row' ∈ t'.rows, R row row'

section
variable {t t' : OutboxTable} {now : Date} {id : Uuid}

theorem onward_claim {input : ClaimInput} {locked : List Uuid} {records : List OutboxRow}
    (h : claimOutboxMessages now input locked t = (records, t')) :
    Onward t t' fun row row' => Later row row' ∧ ∀ w, w ≠ input.workerId → NotClaimedBy w row row' := by
  obtain ⟨ids, hc, hrows, _⟩ := claim_spec h
  intro row hrow
  refine ⟨_, (hrows _).mpr ⟨row, hrow, rfl⟩, ?_⟩
  split
  · rename_i hid
    exact ⟨later_claim (hc row hrow hid), fun w hw e => absurd (Option.some.inj e).symm hw⟩
  · exact ⟨.refl row, fun w _ e => ⟨e, rfl⟩⟩

theorem onward_mark {workerId : Option String} :
    Onward t (markOutboxPublished now id workerId t) fun row row' => Later row row' ∧
      ∀ w, NotClaimedBy w row row' := by
  intro row hrow
  refine ⟨_, mem_markOutboxPublished.mpr ⟨row, hrow, rfl⟩, ?_⟩
  split
  · exact ⟨later_publish now row, fun w e => by cases e⟩
  · exact ⟨.refl row, fun w e => ⟨e, rfl⟩⟩

theorem onward_record {workerId error : String} {limit backoff : Nat} :
    Onward t (recordOutboxFailure now id workerId error limit backoff t) fun row row' =>
      Later row row' ∧ ∀ w, NotClaimedBy w row row' := by
  intro row hrow
  refine ⟨_, mem_recordOutboxFailure.mpr ⟨row, hrow, rfl⟩, ?_⟩
  split
  · rename_i h
    exact ⟨later_retry h.2.1, fun w e => by cases e⟩
  · exact ⟨.refl row, fun w e => ⟨e, rfl⟩⟩

theorem onward_refl : Onward t t fun row row' => Later row row' ∧ ∀ w, NotClaimedBy w row row' :=
  fun row hrow => ⟨row, hrow, .refl row, fun _ e => ⟨e, rfl⟩⟩

theorem onward_insert {row : OutboxRow} (h : t.insert row = some t') :
    Onward t t' fun row row' => Later row row' ∧ ∀ w, NotClaimedBy w row row' := by
  intro x hx
  refine ⟨x, ?_, .refl x, fun _ e => ⟨e, rfl⟩⟩
  rw [Table.insert_rows h]; exact List.mem_append_left _ hx

end

/-! ## The invariant -/

/-- The row agrees with the claims made of it and the publishes that succeeded. -/
structure RowOk (claims : List Attempt) (succeeded : List (Topic × String)) (row : OutboxRow) : Prop where
  claimed : (claims.filter fun c => decide (c.id = row.id)).map (·.attempts) = List.range' 1 row.attempts
  bounded : row.attempts ≤ maxAttempts
  enveloped : row.message.messageId = row.messageId
  pending : row.status = .pending → row.attempts < maxAttempts
  processing : row.status = .processing → row.claimedBy.isSome = true ∧ row.claimedAt.isSome = true
  owned : ∀ w, row.claimedBy = some w → row.status = .processing ∧ ⟨w, row.id, row.attempts⟩ ∈ claims
  published : row.status = .published → (row.topic, row.messageId) ∈ succeeded
  failed : row.status = .failed → maxAttempts ≤ row.attempts

structure RecordOk (s : Desk) (workerId : String) (r : OutboxRow) : Prop where
  row : ∃ row ∈ s.table.rows, row.content = r.content ∧ r.attempts ≤ row.attempts ∧
    (row.claimedBy = some workerId → row.attempts = r.attempts)
  claimed : r.attempt workerId ∈ s.claims

structure BatchOk (s : Desk) (workerId : String) (b : Batch) : Prop where
  records : ∀ r ∈ b.records, RecordOk s workerId r
  distinct : (b.records.map (·.id)).Nodup
  current : b.stage = .publishing → b.current.attempt workerId ∉ s.calls
  rest : ∀ r ∈ b.rest, r.attempt workerId ∉ s.calls
  marking : b.stage = .marking → (b.current.topic, b.current.messageId) ∈ s.succeeded

structure DeskOk (s : Desk) : Prop where
  rows : ∀ row ∈ s.table.rows, RowOk s.claims s.succeeded row
  claims : ∀ c ∈ s.claims, ∃ row ∈ s.table.rows, row.id = c.id
  calls : ∀ c ∈ s.calls, c ∈ s.claims
  calls_once : s.calls.Nodup
  workers : ∀ w b, s.workers w = .busy b → BatchOk s w b
  publishing : ∀ p ∈ s.publishing, ∀ o, p.outboxRowId = some o → ∃ row ∈ s.table.rows, row.id = o.val ∧
    row.topic = p.topic ∧ row.messageId = p.message.messageId
  marking : ∀ o ∈ s.marking, ∃ row ∈ s.table.rows, row.id = o.val ∧ (row.topic, row.messageId) ∈ s.succeeded

theorem desk_ok_start : DeskOk Desk.start := by
  refine ⟨?_, ?_, ?_, List.nodup_nil, ?_, ?_, ?_⟩
  · intro row h; cases h
  · intro c h; cases h
  · intro c h; cases h
  · intro w b h; cases h
  · intro p h; cases h
  · intro o h; cases h

/-! ## Rows -/

section
variable {claims : List Attempt} {succeeded : List (Topic × String)} {row : OutboxRow} {now : Date}

theorem RowOk.mono {succeeded' : List (Topic × String)} (h : RowOk claims succeeded row)
    (hs : ∀ x ∈ succeeded, x ∈ succeeded') : RowOk claims succeeded' row :=
  { h with published := fun hp => hs _ (h.published hp) }

theorem RowOk.publish (h : RowOk claims succeeded row) (hs : (row.topic, row.messageId) ∈ succeeded) :
    RowOk claims succeeded (row.publish now) where
  claimed := h.claimed
  bounded := h.bounded
  enveloped := h.enveloped
  pending hp := by cases hp
  processing hp := by cases hp
  owned w hw := by cases hw
  published _ := hs
  failed hp := by cases hp

theorem RowOk.retry {error : String} {backoff : Nat} (h : RowOk claims succeeded row) :
    RowOk claims succeeded (row.retry now error maxAttempts backoff) := by
  have hstatus : (row.retry now error maxAttempts backoff).status =
      if maxAttempts ≤ row.attempts then .failed else .pending := rfl
  refine ⟨h.claimed, h.bounded, h.enveloped, fun hp => ?_, fun hp => ?_, fun w hw => (by cases hw),
    fun hp => ?_, fun hp => ?_⟩
  · rw [hstatus] at hp
    split at hp
    · cases hp
    · rename_i hn
      exact Nat.lt_of_not_le hn
  · rw [hstatus] at hp
    split at hp <;> cases hp
  · rw [hstatus] at hp
    split at hp <;> cases hp
  · rw [hstatus] at hp
    split at hp
    · assumption
    · cases hp

theorem RowOk.unclaimed {claims' : List Attempt} (h : RowOk claims succeeded row)
    (hn : ∀ c ∈ claims', c.id ≠ row.id) :
    RowOk (claims ++ claims') succeeded row where
  claimed := by
    have : (claims'.filter fun c => decide (c.id = row.id)) = [] := by
      rw [List.filter_eq_nil_iff]
      intro c hc e
      exact hn c hc (of_decide_eq_true e)
    rw [List.filter_append, this, List.append_nil]; exact h.claimed
  bounded := h.bounded
  enveloped := h.enveloped
  pending := h.pending
  processing := h.processing
  owned w hw := ⟨(h.owned w hw).1, List.mem_append_left _ (h.owned w hw).2⟩
  published := h.published
  failed := h.failed

theorem RowOk.claim {claims' : List Attempt} {input : ClaimInput} (h : RowOk claims succeeded row)
    (hc : claimable now input row = true) (hi : input.maxAttempts = maxAttempts)
    (hn : (claims'.filter fun c => decide (c.id = row.id)) = [⟨input.workerId, row.id, row.attempts + 1⟩]) :
    RowOk (claims ++ claims') succeeded (row.claim now input.workerId) := by
  have hlt := (claimable_status hc).1
  rw [hi] at hlt
  have hmem : (⟨input.workerId, row.id, row.attempts + 1⟩ : Attempt) ∈ claims' := by
    have : (⟨input.workerId, row.id, row.attempts + 1⟩ : Attempt) ∈ claims'.filter fun c =>
        decide (c.id = row.id) := by
      rw [hn]; exact List.mem_singleton.mpr rfl
    exact (List.mem_filter.mp this).1
  refine ⟨?_, hlt, h.enveloped, fun hp => (by cases hp), fun _ => ⟨rfl, rfl⟩, fun w hw => ?_,
    fun hp => (by cases hp), fun hp => (by cases hp)⟩
  · show ((claims ++ claims').filter fun c => decide (c.id = row.id)).map (·.attempts) =
      List.range' 1 (row.attempts + 1)
    rw [List.filter_append, List.map_append, h.claimed, hn, List.range'_1_concat, Nat.add_comm 1]
    rfl
  · cases hw
    exact ⟨rfl, List.mem_append_right _ hmem⟩

theorem RowOk.insert {o : OutboxInsert} (he : o.message.messageId = o.messageId)
    (hn : ∀ c ∈ claims, c.id ≠ o.id.val) : RowOk claims succeeded (o.row now) where
  claimed := by
    have : (claims.filter fun c => decide (c.id = (o.row now).id)) = [] := by
      rw [List.filter_eq_nil_iff]
      intro c hc e
      exact hn c hc (of_decide_eq_true e)
    rw [this]; rfl
  bounded := Nat.zero_le _
  enveloped := he
  pending _ := show 0 < maxAttempts by decide
  processing hp := by cases hp
  owned w hw := by cases hw
  published hp := by cases hp
  failed hp := by cases hp

theorem RowOk.claims_inj (h : RowOk claims succeeded row) {c c' : Attempt} (hc : c ∈ claims) (hc' : c' ∈ claims)
    (hid : c.id = row.id) (hid' : c'.id = row.id) (e : c.attempts = c'.attempts) : c = c' := by
  have hn : ((claims.filter fun c => decide (c.id = row.id)).map (·.attempts)).Nodup := by
    rw [h.claimed]; exact List.nodup_range'
  exact List.inj_on_of_nodup_map hn (List.mem_filter.mpr ⟨hc, decide_eq_true hid⟩)
    (List.mem_filter.mpr ⟨hc', decide_eq_true hid'⟩) e

theorem RowOk.attempts_le (h : RowOk claims succeeded row) {c : Attempt} (hc : c ∈ claims) (hid : c.id = row.id) :
    1 ≤ c.attempts ∧ c.attempts ≤ row.attempts := by
  have : c.attempts ∈ List.range' 1 row.attempts := by
    rw [← h.claimed]
    exact List.mem_map_of_mem (List.mem_filter.mpr ⟨hc, decide_eq_true hid⟩)
  rw [List.mem_range'_1] at this
  omega

end

/-! ## Batches -/

section
variable {s s' : Desk} {workerId : String} {b : Batch} {r : OutboxRow}

theorem RecordOk.onward (h : RecordOk s workerId r)
    (ho : Onward s.table s'.table fun row row' => Later row row' ∧ NotClaimedBy workerId row row')
    (hc : ∀ c ∈ s.claims, c ∈ s'.claims) : RecordOk s' workerId r := by
  obtain ⟨row, hrow, he, ha, ho'⟩ := h.row
  obtain ⟨row', hrow', hl, hn⟩ := ho row hrow
  refine ⟨⟨row', hrow', hl.content.trans he, Nat.le_trans ha hl.attempts, fun hw => ?_⟩, hc _ h.claimed⟩
  obtain ⟨hw, e⟩ := hn hw
  exact e.trans (ho' hw)

theorem BatchOk.onward (h : BatchOk s workerId b)
    (ho : Onward s.table s'.table fun row row' => Later row row' ∧ NotClaimedBy workerId row row')
    (hc : ∀ c ∈ s.claims, c ∈ s'.claims) (hs : ∀ x ∈ s.succeeded, x ∈ s'.succeeded)
    (hcalls : ∀ c ∈ s'.calls, c ∈ s.calls ∨ c.workerId ≠ workerId) : BatchOk s' workerId b where
  records r hr := (h.records r hr).onward ho hc
  distinct := h.distinct
  current hst hm := (hcalls _ hm).elim (h.current hst) fun hne => hne rfl
  rest r hr hm := (hcalls _ hm).elim (h.rest r hr) fun hne => hne rfl
  marking hst := hs _ (h.marking hst)

theorem Batch.current_mem (b : Batch) : b.current ∈ b.records := by
  unfold Batch.records; simp

theorem BatchOk.finish (h : BatchOk s workerId b) {b' : Batch} (hb : b.finish = .busy b') :
    BatchOk s workerId b' := by
  unfold Batch.finish Worker.take at hb
  cases hr : b.rest with
  | nil => rw [hr] at hb; cases hb
  | cons x rest =>
    rw [hr] at hb
    cases hb
    have he : (⟨b.handled ++ [b.current], x, rest, .publishing⟩ : Batch).records = b.records := by
      unfold Batch.records; rw [hr]; simp
    refine ⟨fun r hr' => h.records r (he ▸ hr'), he ▸ h.distinct, fun _ => ?_, fun r hr' => ?_,
      fun hst => (by cases hst)⟩
    · exact h.rest x (by rw [hr]; exact List.mem_cons_self)
    · exact h.rest r (by rw [hr]; exact List.mem_cons_of_mem _ hr')

theorem BatchOk.recording (h : BatchOk s workerId b) (error : String) :
    BatchOk s workerId { b with stage := .recording error } where
  records := h.records
  distinct := h.distinct
  current hst := by cases hst
  rest := h.rest
  marking hst := by cases hst

theorem BatchOk.not_rest (h : BatchOk s workerId b) (hr : r ∈ b.rest) : r.id ≠ b.current.id := by
  have hn := h.distinct
  unfold Batch.records at hn
  rw [List.map_append, List.map_cons, List.nodup_append] at hn
  intro e
  exact (List.nodup_cons.mp hn.2.1).1 (e ▸ List.mem_map_of_mem hr)

theorem BatchOk.published (h : BatchOk s workerId b) {stage : Stage} (ht : s'.table = s.table)
    (hc : s'.claims = s.claims) (hs : stage ≠ .publishing)
    (hcalls : ∀ c ∈ s'.calls, c ∈ s.calls ∨ c = b.current.attempt workerId)
    (hm : stage = .marking → (b.current.topic, b.current.messageId) ∈ s'.succeeded) :
    BatchOk s' workerId { b with stage } where
  records r hr := ⟨ht ▸ (h.records r hr).row, hc ▸ (h.records r hr).claimed⟩
  distinct := h.distinct
  current hst := absurd hst hs
  rest r hr hc := by
    rcases hcalls _ hc with hc | hc
    · exact h.rest r hr hc
    · exact h.not_rest hr (congrArg Attempt.id hc)
  marking := hm

end

/-! ## Every step -/

section
variable {s s' : Desk} {v : Option String}

/-- What a step of worker `v` has to show; everything else is carried along. -/
structure Acts (s s' : Desk) (v : Option String) : Prop where
  onward : Onward s.table s'.table fun row row' => Later row row' ∧ ∀ w, some w ≠ v → NotClaimedBy w row row'
  rows : ∀ row ∈ s'.table.rows, RowOk s'.claims s'.succeeded row
  claims : ∀ c ∈ s.claims, c ∈ s'.claims
  new_claims : ∀ c ∈ s'.claims, c ∈ s.claims ∨ ∃ row ∈ s'.table.rows, row.id = c.id
  succeeded : ∀ x ∈ s.succeeded, x ∈ s'.succeeded
  calls : s'.calls = s.calls ∨ ∃ c ∈ s.claims, c ∉ s.calls ∧ s'.calls = s.calls ++ [c] ∧ some c.workerId = v
  workers : ∀ w b, s'.workers w = .busy b → (s.workers w = .busy b ∧ some w ≠ v) ∨ BatchOk s' w b
  publishing : ∀ p ∈ s'.publishing, p ∈ s.publishing ∨ ∀ o, p.outboxRowId = some o → ∃ row ∈ s'.table.rows,
    row.id = o.val ∧ row.topic = p.topic ∧ row.messageId = p.message.messageId
  marking : ∀ o ∈ s'.marking, o ∈ s.marking ∨
    ∃ row ∈ s'.table.rows, row.id = o.val ∧ (row.topic, row.messageId) ∈ s'.succeeded

theorem content_eq {row row' : OutboxRow} (h : row'.content = row.content) :
    row'.id = row.id ∧ row'.topic = row.topic ∧ row'.messageId = row.messageId ∧ row'.message = row.message := by
  unfold OutboxRow.content at h
  simpa using h

theorem Acts.ok (a : Acts s s' v) (h : DeskOk s) : DeskOk s' := by
  have hrow : ∀ row ∈ s.table.rows, ∃ row' ∈ s'.table.rows, row'.id = row.id ∧ row'.topic = row.topic ∧
      row'.messageId = row.messageId := by
    intro row hrow
    obtain ⟨row', hrow', hl, _⟩ := a.onward row hrow
    obtain ⟨h1, h2, h3, _⟩ := content_eq hl.content
    exact ⟨row', hrow', h1, h2, h3⟩
  have hcalls : ∀ c ∈ s'.calls, c ∈ s.calls ∨ c ∈ s.claims ∧ some c.workerId = v := by
    intro c hc
    rcases a.calls with e | ⟨c', hc', _, e, hv⟩
    · exact Or.inl (e ▸ hc)
    · rw [e, List.mem_append, List.mem_singleton] at hc
      rcases hc with hc | rfl
      · exact Or.inl hc
      · exact Or.inr ⟨hc', hv⟩
  refine ⟨a.rows, fun c hc => ?_, fun c hc => ?_, ?_, fun w b hb => ?_, fun p hp o ho => ?_, fun o ho => ?_⟩
  · rcases a.new_claims c hc with hc | hc
    · obtain ⟨row, hrow0, e⟩ := h.claims c hc
      obtain ⟨row', hrow', e', _⟩ := hrow row hrow0
      exact ⟨row', hrow', e'.trans e⟩
    · exact hc
  · rcases hcalls c hc with hc | hc
    · exact a.claims c (h.calls c hc)
    · exact a.claims c hc.1
  · rcases a.calls with e | ⟨c, _, hn, e, _⟩
    · rw [e]; exact h.calls_once
    · rw [e]; exact List.nodup_append.mpr ⟨h.calls_once, List.nodup_singleton c, fun x hx y hy => by
        rw [List.mem_singleton] at hy
        exact fun e' => hn (hy ▸ e' ▸ hx)⟩
  · rcases a.workers w b hb with hb | hb
    · refine (h.workers w b hb.1).onward (fun row hrow => ?_) a.claims a.succeeded fun c hc => ?_
      · obtain ⟨row', hrow', hl, hn⟩ := a.onward row hrow
        exact ⟨row', hrow', hl, hn w hb.2⟩
      · exact (hcalls c hc).imp_right fun hc e => hb.2 (e ▸ hc.2)
    · exact hb
  · rcases a.publishing p hp with hp | hp
    · obtain ⟨row, hrow0, e1, e2, e3⟩ := h.publishing p hp o ho
      obtain ⟨row', hrow', f1, f2, f3⟩ := hrow row hrow0
      exact ⟨row', hrow', f1.trans e1, f2.trans e2, f3.trans e3⟩
    · exact hp o ho
  · rcases a.marking o ho with ho | ho
    · obtain ⟨row, hrow0, e1, e2⟩ := h.marking o ho
      obtain ⟨row', hrow', f1, f2, f3⟩ := hrow row hrow0
      exact ⟨row', hrow', f1.trans e1, by rw [f2, f3]; exact a.succeeded _ e2⟩
    · exact ho

theorem Acts.quiet (h : DeskOk s) (ht : s'.table = s.table) (hc : s'.claims = s.claims)
    (hcalls : s'.calls = s.calls) (hs : ∀ x ∈ s.succeeded, x ∈ s'.succeeded)
    (workers : ∀ w b, s'.workers w = .busy b → (s.workers w = .busy b ∧ some w ≠ v) ∨ BatchOk s' w b)
    (publishing : ∀ p ∈ s'.publishing, p ∈ s.publishing)
    (marking : ∀ o ∈ s'.marking, o ∈ s.marking ∨
      ∃ row ∈ s'.table.rows, row.id = o.val ∧ (row.topic, row.messageId) ∈ s'.succeeded) : Acts s s' v where
  onward := by
    rw [ht]; exact fun row hrow => ⟨row, hrow, .refl row, fun _ _ e => ⟨e, rfl⟩⟩
  rows := by
    rw [ht, hc]; exact fun row hrow => (h.rows row hrow).mono hs
  claims := by rw [hc]; exact fun c hc => hc
  new_claims := by rw [hc]; exact fun c hc => Or.inl hc
  succeeded := hs
  calls := Or.inl hcalls
  workers := workers
  publishing p hp := Or.inl (publishing p hp)
  marking := marking

theorem set_workers {w w' : String} {x : Worker} {b : Batch} (h : (s.set w x).workers w' = .busy b) :
    (w' = w ∧ x = .busy b) ∨ (s.workers w' = .busy b ∧ w' ≠ w) := by
  change Function.update s.workers w x w' = .busy b at h
  by_cases e : w' = w
  · subst e
    rw [Function.update_self] at h
    exact Or.inl ⟨rfl, h⟩
  · rw [Function.update_of_ne e] at h
    exact Or.inr ⟨h, e⟩

theorem Acts.bookkeep {w : String} {x : Worker} {b : Batch} {table : OutboxTable} (h : DeskOk s)
    (hb : s.workers w = .busy b) (ho : Onward s.table table fun row row' => Later row row' ∧
      ∀ w, NotClaimedBy w row row')
    (hrows : ∀ row ∈ table.rows, RowOk s.claims s.succeeded row)
    (hx : ∀ b', x = .busy b' → ∀ s0 : Desk, BatchOk s0 w b → BatchOk s0 w b') :
    Acts s ({ s with table }.set w x) (some w) where
  onward row hrow := by
    obtain ⟨row', hrow', hl, hn⟩ := ho row hrow
    exact ⟨row', hrow', hl, fun w _ => hn w⟩
  rows := hrows
  claims _ hc := hc
  new_claims _ hc := Or.inl hc
  succeeded _ hx := hx
  calls := Or.inl rfl
  workers w' b' hb' := by
    rcases set_workers hb' with ⟨rfl, e⟩ | ⟨hb', hne⟩
    · refine Or.inr (hx b' e _ ((h.workers _ b hb).onward (fun row hrow => ?_) (fun _ hc => hc) (fun _ hx => hx)
        fun c hc => Or.inl hc))
      obtain ⟨row', hrow', hl, hn⟩ := ho row hrow
      exact ⟨row', hrow', hl, hn w'⟩
    · exact Or.inl ⟨hb', fun e => hne (Option.some.inj e)⟩
  publishing _ hp := Or.inl hp
  marking _ ho := Or.inl ho

theorem rows_mark {id : Uuid} {workerId : Option String} {now : Date} (h : DeskOk s)
    (hs : ∃ row ∈ s.table.rows, row.id = id ∧ (row.topic, row.messageId) ∈ s.succeeded) :
    ∀ row ∈ (markOutboxPublished now id workerId s.table).rows, RowOk s.claims s.succeeded row := by
  intro row' hrow'
  obtain ⟨row, hrow, rfl⟩ := mem_markOutboxPublished.mp hrow'
  split
  · rename_i hc
    obtain ⟨row0, h0, hid, hs⟩ := hs
    have : row0 = row := Table.key_inj h0 hrow (hid.trans hc.1.symm)
    exact (h.rows row hrow).publish (this ▸ hs)
  · exact h.rows row hrow

theorem rows_record {id : Uuid} {workerId error : String} {now : Date} {backoff : Nat} (h : DeskOk s) :
    ∀ row ∈ (recordOutboxFailure now id workerId error maxAttempts backoff s.table).rows,
      RowOk s.claims s.succeeded row := by
  intro row' hrow'
  obtain ⟨row, hrow, rfl⟩ := mem_recordOutboxFailure.mp hrow'
  split
  · exact (h.rows row hrow).retry
  · exact h.rows row hrow

theorem claimed_once {input : ClaimInput} {ids : List Uuid} {now : Date} {row : OutboxRow}
    (hrow : row ∈ s.table.rows) :
    ((((s.table.rows.filter fun row => decide (row.id ∈ ids)).map (OutboxRow.claim now input.workerId)).map
      (OutboxRow.attempt input.workerId)).filter fun c => decide (c.id = row.id)) =
      if row.id ∈ ids then [⟨input.workerId, row.id, row.attempts + 1⟩] else [] := by
  have hone : (s.table.rows.filter fun r => decide (r.id = row.id)) = [row] := Table.filter_key hrow
  have hswap : ((s.table.rows.filter fun r => decide (r.id ∈ ids)).filter fun r => decide (r.id = row.id)) =
      if row.id ∈ ids then [row] else [] := by
    rw [List.filter_comm, hone, List.filter_singleton]
    simp
  rw [List.filter_map, List.filter_map]
  show ((((s.table.rows.filter fun r => decide (r.id ∈ ids)).filter fun r => decide (r.id = row.id)).map _).map _)
    = _
  rw [hswap]
  split <;> rfl

theorem take_busy {handled records : List OutboxRow} {b : Batch} (h : Worker.take handled records = .busy b) :
    b.records = handled ++ records ∧ b.stage = .publishing ∧ ∀ r ∈ b.rest, r ∈ records := by
  cases records with
  | nil => cases h
  | cons r rest => cases h; exact ⟨rfl, rfl, fun x hx => List.mem_cons_of_mem _ hx⟩

theorem Acts.claim {w : String} {limit : Nat} {locked : List Uuid} {reply : Reply} {records : List OutboxRow}
    {table : OutboxTable} (h : DeskOk s)
    (hc : claimOutboxMessages s.now (claimInput w limit) locked s.table = (records, table)) :
    Acts s ({ s with table, claims := s.claims ++ records.map (OutboxRow.attempt w) }.set w
      (if reply.ok then .take [] records else .idle)) (some w) := by
  have honward := onward_claim hc
  obtain ⟨ids, hids, hrows, hrecords⟩ := claim_spec hc
  have hrecord : ∀ r ∈ records, r ∈ table.rows ∧ r.attempt w ∉ s.calls := by
    intro r hr
    rw [hrecords] at hr
    obtain ⟨row, hrow, rfl⟩ := List.mem_map.mp hr
    obtain ⟨hrow, hid⟩ := List.mem_filter.mp hrow
    refine ⟨(hrows _).mpr ⟨row, hrow, (if_pos (of_decide_eq_true hid)).symm⟩, fun hcall => ?_⟩
    have hle : row.attempts + 1 ≤ row.attempts := ((h.rows row hrow).attempts_le (h.calls _ hcall) rfl).2
    omega
  refine ⟨fun row hrow => ?_, fun row' hrow' => ?_, fun c hc => List.mem_append_left _ hc, fun c hc => ?_,
    fun x hx => hx, Or.inl rfl, fun w' b hb => ?_, fun p hp => Or.inl hp, fun o ho => Or.inl ho⟩
  · obtain ⟨row', hrow', hl, hn⟩ := honward row hrow
    exact ⟨row', hrow', hl, fun w' hw => hn w' fun e => hw (congrArg some e)⟩
  · obtain ⟨row, hrow, rfl⟩ := (hrows row').mp hrow'
    have hnames := @claimed_once s (claimInput w limit) ids s.now row hrow
    rw [← hrecords] at hnames
    by_cases hid : row.id ∈ ids
    · rw [if_pos hid] at hnames ⊢
      exact (h.rows row hrow).claim (hids row hrow hid) rfl hnames
    · rw [if_neg hid] at hnames ⊢
      refine (h.rows row hrow).unclaimed fun c hc e => ?_
      exact List.filter_eq_nil_iff.mp hnames c hc (decide_eq_true e)
  · refine (List.mem_append.mp hc).imp_right fun hc => ?_
    obtain ⟨r, hr, rfl⟩ := List.mem_map.mp hc
    exact ⟨r, (hrecord r hr).1, rfl⟩
  · rcases set_workers hb with ⟨rfl, e⟩ | ⟨hb, hne⟩
    · right
      split at e
      · obtain ⟨hb, hstage, hrest⟩ := take_busy e
        have hcurrent := b.current_mem
        rw [List.nil_append] at hb
        rw [hb] at hcurrent
        refine ⟨fun r hr => ?_, ?_, fun _ => (hrecord _ hcurrent).2, fun r hr => (hrecord r (hrest r hr)).2,
          fun hst => (by rw [hstage] at hst; cases hst)⟩
        · rw [hb] at hr
          refine ⟨⟨r, (hrecord r hr).1, rfl, Nat.le_refl _, fun _ => rfl⟩, ?_⟩
          exact List.mem_append_right _ (List.mem_map_of_mem hr)
        · rw [hb, hrecords, List.map_map]
          exact (List.filter_sublist.map OutboxRow.id).nodup s.table.key_nodup
      · cases e
    · exact Or.inl ⟨hb, fun e => hne (Option.some.inj e)⟩

def DeskLabel.actor : DeskLabel → Option String
  | .claim w _ _ _ | .publish w _ | .markPublished w _ | .recordFailure w _ | .crash w => some w
  | _ => none

theorem RecordOk.enveloped {w : String} {r : OutboxRow} (hr : RecordOk s w r) (h : DeskOk s) :
    r.message.messageId = r.messageId := by
  obtain ⟨row, hrow, he, _⟩ := hr.row
  obtain ⟨_, _, h1, h2⟩ := content_eq he
  rw [← h1, ← h2]; exact (h.rows row hrow).enveloped

theorem Acts.publish {w : String} {reply : Reply} {b : Batch} (h : DeskOk s) (hb : s.workers w = .busy b)
    (hstage : b.stage = .publishing) : Acts s (s.publish w b reply) (some w) := by
  have hbatch := h.workers w b hb
  have hcurrent := hbatch.records _ b.current_mem
  have hsucc : ∀ x ∈ s.succeeded, x ∈ (s.publish w b reply).succeeded := by
    intro x hx
    show x ∈ if reply.ok then _ else _
    split
    · exact List.mem_append_left _ hx
    · exact hx
  refine ⟨fun row hrow => ⟨row, hrow, .refl row, fun _ _ e => ⟨e, rfl⟩⟩,
    fun row hrow => (h.rows row hrow).mono hsucc,
    fun _ hc => hc, fun _ hc => Or.inl hc, hsucc, Or.inr ⟨_, hcurrent.claimed, hbatch.current hstage, rfl, rfl⟩,
    fun w' b' hb' => ?_, fun _ hp => Or.inl hp, fun _ ho => Or.inl ho⟩
  rcases set_workers hb' with ⟨rfl, e⟩ | ⟨hb', hne⟩
  · right
    cases e
    refine hbatch.published rfl rfl ?_ (fun c hc => ?_) fun hm => ?_
    · cases reply <;> exact fun e => by cases e
    · rw [show (s.publish w' b reply).calls = s.calls ++ [_] from rfl, List.mem_append, List.mem_singleton] at hc
      exact hc
    · cases reply with
      | resolved =>
        show _ ∈ s.succeeded ++ [_]
        rw [hcurrent.enveloped h]; simp
      | rejected error applied => cases hm
  · exact Or.inl ⟨hb', fun e => hne (Option.some.inj e)⟩

theorem acts {direct : Bool} {l : DeskLabel} (hs : DeskStep direct s l s') (h : DeskOk s) : Acts s s' l.actor := by
  cases hs with
  | tick =>
    exact .quiet h rfl rfl rfl (fun _ hx => hx)
      (fun w b hb => Or.inl ⟨hb, by simp [DeskLabel.actor]⟩) (fun _ hp => hp)
      fun _ ho => Or.inl ho
  | unclaimed =>
    exact .quiet h rfl rfl rfl (fun _ hx => hx) (fun w b hb => Or.inr (h.workers w b hb)) (fun _ hp => hp)
      fun _ ho => Or.inl ho
  | join absent =>
    refine .quiet h rfl rfl rfl (fun _ hx => hx) (fun w b hb => ?_) (fun _ hp => hp) fun _ ho => Or.inl ho
    rcases set_workers hb with ⟨rfl, e⟩ | ⟨hb, _⟩
    · cases e
    · exact Or.inl ⟨hb, by simp [DeskLabel.actor]⟩
  | crash =>
    refine .quiet h rfl rfl rfl (fun _ hx => hx) (fun w b hb => ?_) (fun _ hp => hp) fun _ ho => Or.inl ho
    rcases set_workers hb with ⟨rfl, e⟩ | ⟨hb, hne⟩
    · cases e
    · exact Or.inl ⟨hb, fun e => hne (Option.some.inj e)⟩
  | claim idle applied claimed => exact .claim h claimed
  | publish busy stage => exact .publish h busy stage
  | commit enveloped sends insert =>
    rename_i o publish table
    have hnew : ∀ c ∈ s.claims, c.id ≠ o.id.val := by
      intro c hc e
      obtain ⟨row, hrow, he⟩ := h.claims c hc
      exact Table.find_eq_none.mp (Table.find_before_insert insert) row hrow (he.trans e)
    have hrows := Table.insert_rows insert
    refine ⟨fun row hrow => ?_, fun row hrow => ?_, fun _ hc => hc, fun _ hc => Or.inl hc, fun _ hx => hx,
      Or.inl rfl, fun w b hb => Or.inl ⟨hb, by simp [DeskLabel.actor]⟩, fun p hp => ?_, fun _ ho => Or.inl ho⟩
    · obtain ⟨row', hrow', hl, hn⟩ := onward_insert insert row hrow
      exact ⟨row', hrow', hl, fun w _ => hn w⟩
    · rw [show table.rows = _ from hrows, List.mem_append, List.mem_singleton] at hrow
      rcases hrow with hrow | rfl
      · exact h.rows row hrow
      · exact .insert enveloped hnew
    · rcases List.mem_append.mp hp with hp | hp
      · exact Or.inl hp
      · right
        intro id hid
        obtain ⟨h1, h2, h3⟩ := sends p (Option.mem_toList.mp hp)
        rw [h1] at hid
        cases hid
        exact ⟨o.row s.now, by rw [show table.rows = _ from hrows]; simp, rfl, h2.symm, h3.symm⟩
  | markPublished busy stage =>
    rename_i w reply b
    have hbatch := h.workers w b busy
    obtain ⟨row, hrow, he, _⟩ := (hbatch.records _ b.current_mem).row
    obtain ⟨h1, h2, h3, _⟩ := content_eq he
    have hs : ∃ row ∈ s.table.rows, row.id = b.current.id ∧ (row.topic, row.messageId) ∈ s.succeeded :=
      ⟨row, hrow, h1, by rw [h2, h3]; exact hbatch.marking stage⟩
    have hx : ∀ b', b.marked reply = .busy b' → ∀ s0 : Desk, BatchOk s0 w b → BatchOk s0 w b' := by
      intro b' hb' s0 hok
      cases reply with
      | resolved => exact hok.finish hb'
      | rejected error applied => cases hb'; exact hok.recording error
    unfold Desk.markPublished
    by_cases ha : reply.applied = true
    · simp only [if_pos ha]
      exact .bookkeep h busy onward_mark (rows_mark h hs) hx
    · simp only [if_neg ha]
      exact .bookkeep h busy onward_refl h.rows hx
  | recordFailure busy stage =>
    rename_i w error reply b
    unfold Desk.recordFailure
    by_cases ha : reply.applied = true
    · simp only [if_pos ha]
      exact .bookkeep h busy onward_record (rows_record h) fun b' hb' s0 hok => hok.finish hb'
    · simp only [if_neg ha]
      exact .bookkeep h busy onward_refl h.rows fun b' hb' s0 hok => hok.finish hb'
  | publishDirect mem =>
    rename_i p reply
    have hsucc : ∀ x ∈ s.succeeded,
        x ∈ if reply.ok then s.succeeded ++ [(p.topic, p.message.messageId)] else s.succeeded := by
      intro x hx
      split
      · exact List.mem_append_left _ hx
      · exact hx
    refine ⟨fun row hrow => ⟨row, hrow, .refl row, fun _ _ e => ⟨e, rfl⟩⟩,
      fun row hrow => (h.rows row hrow).mono hsucc,
      fun _ hc => hc, fun _ hc => Or.inl hc, hsucc, Or.inl rfl,
        fun w b hb => Or.inl ⟨hb, by simp [DeskLabel.actor]⟩,
      fun p hp => Or.inl (List.mem_of_mem_erase hp), fun o ho => ?_⟩
    cases reply with
    | rejected error applied => exact Or.inl ho
    | resolved =>
      refine (List.mem_append.mp ho).imp_right fun ho => ?_
      obtain ⟨row, hrow, h1, h2, h3⟩ := h.publishing p mem o (Option.mem_toList.mp ho)
      refine ⟨row, hrow, h1, ?_⟩
      rw [h2, h3]
      exact List.mem_append_right _ (List.mem_singleton.mpr rfl)
  | markDirect mem =>
    rename_i id reply
    have hrows : ∀ row ∈ (if reply.applied then markOutboxPublished s.now id.val none s.table else s.table).rows,
        RowOk s.claims s.succeeded row := by
      split
      · exact rows_mark h (h.marking id mem)
      · exact h.rows
    refine ⟨fun row hrow => ?_, hrows, fun _ hc => hc, fun _ hc => Or.inl hc, fun _ hx => hx, Or.inl rfl,
      fun w b hb => Or.inl ⟨hb, by simp [DeskLabel.actor]⟩, fun _ hp => Or.inl hp,
      fun o ho => Or.inl (List.mem_of_mem_erase ho)⟩
    have honward : Onward s.table (if reply.applied then markOutboxPublished s.now id.val none s.table else s.table)
        fun row row' => Later row row' ∧ ∀ w, NotClaimedBy w row row' := by
      split
      · exact onward_mark
      · exact onward_refl
    obtain ⟨row', hrow', hl, hn⟩ := honward row hrow
    exact ⟨row', hrow', hl, fun w _ => hn w⟩

end

theorem desk_ok {direct : Bool} {s : Desk} (h : (desk direct).Reach s) : DeskOk s := by
  refine Machine.Reach.inv ?_ ?_ h
  · intro s0 h0
    rw [show s0 = Desk.start from h0]; exact desk_ok_start
  · intro s0 l s1 _ hi he
    exact (acts (desk_step he) hi).ok hi

/-! ## Delivery safety -/

def callsOf (s : Desk) (id : Uuid) : List Attempt := s.calls.filter fun c => decide (c.id = id)

def claimsOf (s : Desk) (id : Uuid) : List Attempt := s.claims.filter fun c => decide (c.id = id)

structure Owns (workerId : String) (b : Batch) (row : OutboxRow) : Prop where
  id : row.id = b.current.id
  claimedBy : row.claimedBy = some workerId
  attempts : row.attempts = b.current.attempts

structure DeliverySafe (direct : Bool) (s : Desk) : Prop where
  published : ∀ row ∈ s.table.rows, row.status = .published → (row.topic, row.messageId) ∈ s.succeeded
  final : ∀ ls s', (desk direct).run s ls = some s' → ∀ row ∈ s.table.rows, row.status = .published →
    ∃ row' ∈ s'.table.rows, row'.id = row.id ∧ row'.status = .published
  failed : ∀ row ∈ s.table.rows, row.status = .failed → maxAttempts ≤ (claimsOf s row.id).length
  calls : ∀ id, (callsOf s id).length ≤ maxAttempts ∧ ((callsOf s id).map (·.attempts)).Nodup
  claimed : ∀ c ∈ s.calls, c ∈ s.claims ∧
    ∀ c' ∈ s.claims, c'.id = c.id → c'.attempts = c.attempts → c'.workerId = c.workerId
  stale : ∀ w b reply s', s.workers w = .busy b → (desk direct).exec s (.markPublished w reply) = some s' ∨
    (desk direct).exec s (.recordFailure w reply) = some s' →
    ∀ row ∈ s.table.rows, ¬ Owns w b row → row ∈ s'.table.rows

section
variable {direct : Bool} {s s' : Desk}

theorem run_published {ls : List DeskLabel} (h : (desk direct).Reach s) (hr : (desk direct).run s ls = some s') :
    Onward s.table s'.table Later := by
  refine Machine.run_rel (R := fun s s' => Onward s.table s'.table Later) ?_ ?_ ?_ h hr
  · exact fun s row hrow => ⟨row, hrow, .refl row⟩
  · intro a b c hab hbc row hrow
    obtain ⟨row', hrow', hl⟩ := hab row hrow
    obtain ⟨row'', hrow'', hl'⟩ := hbc row' hrow'
    exact ⟨row'', hrow'', hl.trans hl'⟩
  · intro s l s' hr he row hrow
    obtain ⟨row', hrow', hl, _⟩ := (acts (desk_step he) (desk_ok hr)).onward row hrow
    exact ⟨row', hrow', hl⟩

theorem DeskOk.claims_inj (h : DeskOk s) {c c' : Attempt} (hc : c ∈ s.claims) (hc' : c' ∈ s.claims)
    (hid : c.id = c'.id) (e : c.attempts = c'.attempts) : c = c' := by
  obtain ⟨row, hrow, hrid⟩ := h.claims c hc
  exact (h.rows row hrow).claims_inj hc hc' hrid.symm (hid.symm.trans hrid.symm) e

theorem DeskOk.calls_attempts (h : DeskOk s) (id : Uuid) : ((callsOf s id).map (·.attempts)).Nodup := by
  refine List.Nodup.map_on (fun c hc c' hc' e => ?_) (h.calls_once.filter _)
  obtain ⟨hc, hid⟩ := List.mem_filter.mp hc
  obtain ⟨hc', hid'⟩ := List.mem_filter.mp hc'
  exact h.claims_inj (h.calls c hc) (h.calls c' hc') ((of_decide_eq_true hid).trans (of_decide_eq_true hid').symm) e

theorem DeskOk.calls_length (h : DeskOk s) (id : Uuid) : (callsOf s id).length ≤ maxAttempts := by
  have hsub : ∀ a ∈ (callsOf s id).map (·.attempts), a ∈ List.range' 1 maxAttempts := by
    intro a ha
    obtain ⟨c, hc, rfl⟩ := List.mem_map.mp ha
    have hclaim := h.calls c (List.mem_filter.mp hc).1
    obtain ⟨row, hrow, hid⟩ := h.claims c hclaim
    have hle := (h.rows row hrow).attempts_le hclaim hid.symm
    have := (h.rows row hrow).bounded
    rw [List.mem_range'_1]
    omega
  have := (List.subperm_of_subset (h.calls_attempts id) hsub).length_le
  rwa [List.length_map, List.length_range'] at this

theorem DeskOk.stale (h : DeskOk s) {w : String} {b : Batch} {row : OutboxRow} (hb : s.workers w = .busy b)
    (hrow : row ∈ s.table.rows) (hn : ¬ Owns w b row) : ¬ (row.id = b.current.id ∧ row.claimedBy = some w) := by
  intro hc
  obtain ⟨row0, h0, he, _, ho⟩ := ((h.workers w b hb).records _ b.current_mem).row
  have : row0 = row := Table.key_inj h0 hrow ((content_eq he).1.trans hc.1.symm)
  subst this
  exact hn ⟨hc.1, hc.2, ho hc.2⟩

theorem stale_untouched (h : DeskOk s) {w : String} {b : Batch} {reply : Reply} (hb : s.workers w = .busy b)
    (he : (desk direct).exec s (.markPublished w reply) = some s' ∨
      (desk direct).exec s (.recordFailure w reply) = some s')
    {row : OutboxRow} (hrow : row ∈ s.table.rows) (hn : ¬ Owns w b row) : row ∈ s'.table.rows := by
  have hstale := h.stale hb hrow hn
  rcases he with he | he
  · cases desk_step he with
    | markPublished busy stage =>
      cases hb.symm.trans busy
      show row ∈ (if reply.applied then _ else _ : OutboxTable).rows
      split
      · refine mem_markOutboxPublished.mpr ⟨row, hrow, (if_neg fun hc => hstale ⟨hc.1, ?_⟩).symm⟩
        exact hc.2.elim (fun e => by cases e) id
      · exact hrow
  · cases desk_step he with
    | recordFailure busy stage =>
      cases hb.symm.trans busy
      show row ∈ (if reply.applied then _ else _ : OutboxTable).rows
      split
      · exact mem_recordOutboxFailure.mpr ⟨row, hrow, (if_neg fun hc => hstale ⟨hc.1, hc.2.2⟩).symm⟩
      · exact hrow

/-- Whatever the workers, their timeouts and the direct path do, a row is closed
after a publish of it, retired after its last claim, published once for each
claim, and out of reach of a worker whose claim was taken over. -/
theorem outbox_delivery_safe (h : (desk direct).Reach s) : DeliverySafe direct s := by
  have hok := desk_ok h
  refine ⟨fun row hrow hp => (hok.rows row hrow).published hp, fun ls s' hr row hrow hp => ?_,
    fun row hrow hf => ?_, fun id => ⟨hok.calls_length id, hok.calls_attempts id⟩,
    fun c hc => ⟨hok.calls c hc, fun c' hc' hid ha => ?_⟩,
    fun w b reply s' hb he row hrow hn => stale_untouched hok hb he hrow hn⟩
  · obtain ⟨row', hrow', hl⟩ := run_published h hr row hrow
    exact ⟨row', hrow', (content_eq hl.content).1, hl.published hp⟩
  · have := congrArg List.length (hok.rows row hrow).claimed
    rw [List.length_map, List.length_range'] at this
    unfold claimsOf
    rw [this]
    exact (hok.rows row hrow).failed hf
  · rw [hok.claims_inj hc' (hok.calls c hc) hid ha]

end

/-! ## A sample schedule -/

def sampleRow : OutboxInsert := createBookingOutbox ⟨sampleText 7, sampleText 1, 3, none⟩ (sampleDraw 2 3 4 0 0)

def sampleTakeover : List DeskLabel :=
  [.commit sampleRow none, .join "first", .join "second", .claim "first" 25 [] .resolved, .tick 61000,
   .claim "second" 25 [] .resolved, .publish "second" .resolved, .markPublished "second" .resolved,
   .publish "first" (.rejected "timeout" false), .recordFailure "first" .resolved]

def deskView (s : Desk) : List (OutboxStatus × Nat) := s.table.rows.map fun r => (r.status, r.attempts)

theorem outbox_delivery_safe_takeover : ∃ s, (desk false).run Desk.start sampleTakeover = some s ∧
    deskView s = [(.published, 2)] ∧ DeliverySafe false s := by
  have h : ((desk false).run Desk.start sampleTakeover).map deskView = some [(.published, 2)] := by decide +kernel
  obtain ⟨s, hs, hview⟩ := Option.map_eq_some_iff.mp h
  exact ⟨s, hs, hview, outbox_delivery_safe (Machine.Reach.run (.start rfl) hs)⟩

end EventBooking
