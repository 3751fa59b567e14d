import EventBooking.Deliveries

/-!
# The saga can always be brought to rest

Whatever crashed before, one dispatcher for each service and the deliveries of
what they publish are enough: a claim, a publish, a mark and a delivery each
leave less to do. At the end no booking is pending and the seats taken are
those of the confirmed bookings.
-/

namespace EventBooking
open Lib

/-! ## What is left to deliver -/

def owed (c : List StoredMessage) (consumed : List String) : Nat :=
  (c.map fun m => if m.messageId ∈ consumed then 0 else m.topic.causes).sum

def System.owed (s : System) (service : Service) : Nat :=
  EventBooking.owed (contents (s.outbox service.peer)) (s.inbox service)

def System.work (s : System) : Nat := s.owed .booking + s.owed .event

theorem System.work_eq (s : System) (service : Service) : s.work = s.owed service + s.owed service.peer := by
  cases service with
  | booking => rfl
  | event => exact Nat.add_comm _ _

theorem owed_append (c : List StoredMessage) (consumed : List String) (m : StoredMessage) :
    owed (c ++ [m]) consumed ≤ owed c consumed + m.topic.causes := by
  unfold owed
  rw [List.map_append, List.sum_append, List.map_singleton, List.sum_singleton]
  split <;> omega

theorem owed_consume {c : List StoredMessage} {consumed : List String} {m : StoredMessage} (hm : m ∈ c)
    (hnew : m.messageId ∉ consumed) : owed c (consumed ++ [m.messageId]) + m.topic.causes ≤ owed c consumed := by
  have hle : ∀ x : StoredMessage, (if x.messageId ∈ consumed ++ [m.messageId] then 0 else x.topic.causes) ≤
      if x.messageId ∈ consumed then 0 else x.topic.causes := by
    intro x
    by_cases hx : x.messageId ∈ consumed
    · rw [if_pos (List.mem_append_left _ hx), if_pos hx]
    · rw [if_neg hx]
      split <;> omega
  unfold owed
  obtain ⟨pre, post, rfl⟩ := List.append_of_mem hm
  have hpre := List.sum_le_sum (l := pre) fun x _ => hle x
  have hpost := List.sum_le_sum (l := post) fun x _ => hle x
  have hself : m.messageId ∈ consumed ++ [m.messageId] := List.mem_append_right _ List.mem_cons_self
  simp only [List.map_append, List.map_cons, List.sum_append, List.sum_cons, if_pos hself, if_neg hnew]
  omega

theorem exists_owed {s : System} (h : s.work ≠ 0) : ∃ service, ∃ m ∈ contents (s.outbox (Service.peer service)),
    m.messageId ∉ s.inbox service ∧ 0 < m.topic.causes := by
  by_contra hno
  have hzero : ∀ service, s.owed service = 0 := by
    intro service
    unfold System.owed owed
    apply List.sum_eq_zero
    intro n hn
    obtain ⟨m, hm, rfl⟩ := List.mem_map.mp hn
    split
    · rfl
    · rename_i hnew
      by_contra hpos
      exact hno ⟨service, m, hm, hnew, Nat.pos_of_ne_zero hpos⟩
  apply h
  unfold System.work
  rw [hzero, hzero]

theorem received {s : System} (h : s.work = 0) {service : Service} {m : StoredMessage}
    (hm : m ∈ contents (s.outbox service.peer)) (hw : 0 < m.topic.causes) : m.messageId ∈ s.inbox service := by
  have hzero : s.owed service = 0 := by rw [s.work_eq service] at h; omega
  unfold System.owed owed at hzero
  by_contra hnew
  have := List.single_le_sum (fun _ _ => Nat.zero_le _) _ (List.mem_map_of_mem (f := fun m : StoredMessage =>
    if m.messageId ∈ s.inbox service then 0 else m.topic.causes) hm)
  rw [if_neg hnew] at this
  omega

/-! ## What is left to dispatch -/

def OutboxRow.held (workerId : String) (r : OutboxRow) : Bool :=
  decide (r.status = .processing) && decide (r.claimedBy = some workerId)

/-- How many steps of the worker the row may still take. -/
def OutboxRow.toll (workerId : String) (published : List (Topic × Message)) (r : OutboxRow) : Nat :=
  if r.held workerId then if published.contains (r.topic, r.message) then 1 else 2 else if r.awaiting then 3 else 0

def System.toll (s : System) (workerId : String) (service : Service) : Nat :=
  ((s.outbox service).rows.map (OutboxRow.toll workerId s.published)).sum

def System.effort (s : System) (worker : Service → String) : Nat :=
  4 * s.work + (s.toll (worker .booking) .booking + s.toll (worker .event) .event)

theorem System.effort_eq (s : System) (worker : Service → String) (service : Service) : s.effort worker =
    4 * s.work + (s.toll (worker service) service + s.toll (worker service.peer) service.peer) := by
  cases service with
  | booking => rfl
  | event => exact congrArg _ (Nat.add_comm _ _)

theorem toll_le (workerId : String) (published : List (Topic × Message)) (r : OutboxRow) :
    r.toll workerId published ≤ 3 := by
  unfold OutboxRow.toll
  split
  · split <;> omega
  · split <;> omega

@[simp] theorem Service.peer_peer (service : Service) : service.peer.peer = service := by
  cases service <;> rfl

theorem Service.eq_peer {v service : Service} (h : v ≠ service) : v = service.peer := by
  cases v <;> cases service <;> first | rfl | exact absurd rfl h

section
variable {s s' : System} {service : Service} {m : StoredMessage} {draw : Draw} {answer : Option OutboxRow}
  (h : Handled s s' service m draw answer)
include h

theorem Handled.contents : contents (s'.outbox service) =
    EventBooking.contents (s.outbox service) ++ answer.toList.map OutboxRow.content := by
  unfold EventBooking.contents
  rw [h.rows, List.map_append]

theorem Handled.toll (worker : Service → String) :
    s'.toll (worker service) service ≤ s.toll (worker service) service + 3 * answer.toList.length ∧
      s'.toll (worker service.peer) service.peer = s.toll (worker service.peer) service.peer := by
  unfold System.toll
  rw [h.published, h.rows, h.other_outbox, List.map_append, List.sum_append]
  refine ⟨?_, rfl⟩
  cases answer with
  | none => exact Nat.le_refl _
  | some r =>
    have := toll_le (worker service) s.published r
    simp only [Option.toList_some, List.map_singleton, List.sum_singleton, List.length_singleton]
    omega

theorem Handled.work (hm : m ∈ EventBooking.contents (s.outbox service.peer))
    (hnew : m.messageId ∉ s.inbox service) :
    s'.work + m.topic.causes ≤ s.work + (answer.map fun r => r.topic.causes).getD 0 := by
  have hown : s'.owed service + m.topic.causes ≤ s.owed service := by
    unfold System.owed
    rw [h.other_outbox, h.inbox]
    exact owed_consume hm hnew
  have hother : s'.owed service.peer ≤ s.owed service.peer + (answer.map fun r => r.topic.causes).getD 0 := by
    unfold System.owed
    rw [Service.peer_peer, h.other_inbox, h.contents]
    cases answer with
    | none => exact (congrArg (fun c => EventBooking.owed c _) (List.append_nil _)).le
    | some r => exact owed_append _ _ r.content
  rw [s.work_eq service, s'.work_eq service]
  omega

theorem Handled.effort (hm : m ∈ EventBooking.contents (s.outbox service.peer)) (hw : 0 < m.topic.causes)
    (hnew : m.messageId ∉ s.inbox service) : s'.work < s.work ∧ ∀ worker, s'.effort worker < s.effort worker := by
  have hwork := h.work hm hnew
  have hlt : (answer.map fun r => r.topic.causes).getD 0 < m.topic.causes := by
    cases ha : answer with
    | none => exact hw
    | some r => exact h.causes r ha
  refine ⟨by omega, fun worker => ?_⟩
  obtain ⟨hown, hother⟩ := h.toll worker
  rw [s.effort_eq worker service, s'.effort_eq worker service]
  have hlength : answer.toList.length ≤ 1 := by cases answer <;> simp
  omega

end

/-! ## The steps of a worker -/

/-- Every row was published, waits for a dispatcher or is in the hands of this one. -/
def Recoverable (worker : Service → String) (s : System) : Prop :=
  ∀ service, ∀ r ∈ (s.outbox service).rows,
    (r.topic, r.message) ∈ s.published ∨ r.awaiting = true ∨ r.held (worker service) = true

theorem toll_antitone {workerId : String} {published published' : List (Topic × Message)}
    (h : published ⊆ published') (r : OutboxRow) : r.toll workerId published' ≤ r.toll workerId published := by
  unfold OutboxRow.toll
  split
  · by_cases hp : (r.topic, r.message) ∈ published
    · rw [if_pos (List.contains_iff_mem.mpr hp), if_pos (List.contains_iff_mem.mpr (h hp))]
    · rw [if_neg (mt List.contains_iff_mem.mp hp)]
      split <;> omega
  · exact Nat.le_refl _

section
variable [Zod] {worker : Service → String} {s : System}

theorem dispatch_effort {service : Service} {r : OutboxRow} (hr : r ∈ (s.outbox service).rows)
    (hheld : r.held (worker service) = true) (hp : (r.topic, r.message) ∉ s.published)
    (hrec : Recoverable worker s) :
    ∃ s', closed.exec s (.dispatch service r.topic r.message) = some s' ∧ Recoverable worker s' ∧
      s'.effort worker < s.effort worker := by
  have hstored : stored (s.outbox service) r.topic r.message = true := by
    unfold stored
    refine List.any_eq_true.mpr ⟨r, hr, ?_⟩
    rw [Bool.and_eq_true]
    exact ⟨decide_eq_true rfl, decide_eq_true rfl⟩
  have hsub : s.published ⊆ s.published ++ [(r.topic, r.message)] := List.subset_append_left _ _
  refine ⟨{ s with published := s.published ++ [(r.topic, r.message)] }, if_pos hstored, fun v x hx => ?_, ?_⟩
  · exact (hrec v x hx).imp_left fun h => hsub h
  · have hown : System.toll { s with published := s.published ++ [(r.topic, r.message)] } (worker service) service <
        s.toll (worker service) service := by
      refine List.sum_lt_sum _ _ (fun x _ => toll_antitone hsub x) ⟨r, hr, ?_⟩
      unfold OutboxRow.toll
      rw [if_pos hheld, if_pos hheld, if_neg (mt List.contains_iff_mem.mp hp),
        if_pos (List.contains_iff_mem.mpr (List.mem_append_right _ List.mem_cons_self))]
      exact Nat.lt_succ_self 1
    have hother : System.toll { s with published := s.published ++ [(r.topic, r.message)] } (worker service.peer)
        service.peer ≤ s.toll (worker service.peer) service.peer :=
      List.sum_le_sum fun x _ => toll_antitone hsub x
    have hwork : System.work { s with published := s.published ++ [(r.topic, r.message)] } = s.work := rfl
    rw [s.effort_eq worker service, System.effort_eq _ worker service, hwork]
    omega

omit [Zod] in
theorem bookkeep_outbox (s : System) (op : Bookkeeping) (service : Service) :
    (s.bookkeep op service).outbox service = op.apply (s.outbox service) ∧
      (s.bookkeep op service).outbox service.peer = s.outbox service.peer ∧
      (s.bookkeep op service).published = s.published := by
  cases service <;> exact ⟨rfl, rfl, rfl⟩

omit [Zod] in
theorem bookkeep_contents (s : System) (op : Bookkeeping) (service v : Service) :
    contents ((s.bookkeep op service).outbox v) = contents (s.outbox v) := by
  cases service <;> cases v <;> first | rfl | exact contents_apply _ op

omit [Zod] in
theorem bookkeep_work (s : System) (op : Bookkeeping) (service : Service) :
    (s.bookkeep op service).work = s.work ∧ (s.bookkeep op service).identifiers = s.identifiers := by
  have hinbox : ∀ v, (s.bookkeep op service).inbox v = s.inbox v := by
    intro v
    cases service <;> rfl
  constructor
  · unfold System.work System.owed
    simp only [bookkeep_contents, hinbox]
  · have hb := bookkeep_contents s op service .booking
    have he := bookkeep_contents s op service .event
    exact congrArg₂ (fun b e => (b ++ e).flatMap StoredMessage.identifiers) hb he

omit [Zod] in
/-- A statement on one outbox leaves less to do when it takes a step off one row and adds none. -/
theorem bookkeep_effort {service : Service} {op : Bookkeeping} {f : OutboxRow → OutboxRow}
    (hrows : (op.apply (s.outbox service)).rows = (s.outbox service).rows.map f)
    (hle : ∀ r ∈ (s.outbox service).rows,
      (f r).toll (worker service) s.published ≤ r.toll (worker service) s.published)
    (hlt : ∃ r ∈ (s.outbox service).rows,
      (f r).toll (worker service) s.published < r.toll (worker service) s.published)
    (hkeep : ∀ r ∈ (s.outbox service).rows,
      (r.topic, r.message) ∈ s.published ∨ r.awaiting = true ∨ r.held (worker service) = true →
        ((f r).topic, (f r).message) ∈ s.published ∨ (f r).awaiting = true ∨ (f r).held (worker service) = true)
    (hrec : Recoverable worker s) :
    Recoverable worker (s.bookkeep op service) ∧ (s.bookkeep op service).effort worker < s.effort worker := by
  obtain ⟨hown, hother, hpublished⟩ := bookkeep_outbox s op service
  constructor
  · intro v r hr
    rw [hpublished]
    by_cases hv : v = service
    · subst hv
      rw [hown, hrows] at hr
      obtain ⟨x, hx, rfl⟩ := List.mem_map.mp hr
      exact hkeep x hx (hrec v x hx)
    · obtain rfl := Service.eq_peer hv
      rw [hother] at hr
      exact hrec _ r hr
  · have hlower : (s.bookkeep op service).toll (worker service) service < s.toll (worker service) service := by
      unfold System.toll
      rw [hown, hrows, hpublished, List.map_map]
      exact List.sum_lt_sum _ _ hle hlt
    have hsame : (s.bookkeep op service).toll (worker service.peer) service.peer =
        s.toll (worker service.peer) service.peer := by
      unfold System.toll
      rw [hother, hpublished]
    rw [s.effort_eq worker service, System.effort_eq _ worker service, (bookkeep_work s op service).1]
    omega

omit [Zod] in
theorem mark_effort {service : Service} {r : OutboxRow} (hr : r ∈ (s.outbox service).rows)
    (hheld : r.held (worker service) = true) (hp : (r.topic, r.message) ∈ s.published) (now : Date)
    (hrec : Recoverable worker s) :
    Recoverable worker (s.bookkeep (.markPublished now r.id (some (worker service))) service) ∧
      (s.bookkeep (.markPublished now r.id (some (worker service))) service).effort worker < s.effort worker := by
  have hzero : ∀ x : OutboxRow, (x.publish now).toll (worker service) s.published = 0 := by
    intro x
    unfold OutboxRow.toll OutboxRow.held OutboxRow.awaiting OutboxRow.publish
    simp
  refine bookkeep_effort (f := fun x => if decide (x.id = r.id) && ((some (worker service)).isNone ||
    decide (x.claimedBy = some (worker service))) then x.publish now else x) rfl (fun x hx => ?_) ⟨r, hr, ?_⟩
    (fun x hx hk => ?_) hrec
  · split
    · rw [hzero]; exact Nat.zero_le _
    · exact Nat.le_refl _
  · have hclaimed : r.claimedBy = some (worker service) := of_decide_eq_true (Bool.and_eq_true_iff.mp hheld).2
    rw [if_pos (by simp [hclaimed]), hzero]
    unfold OutboxRow.toll
    rw [if_pos hheld, if_pos (List.contains_iff_mem.mpr hp)]
    exact Nat.lt_succ_self 0
  · split
    · rename_i hmatch
      have hid : x.id = r.id := of_decide_eq_true (Bool.and_eq_true_iff.mp hmatch).1
      obtain rfl : x = r := Table.key_inj hx hr hid
      exact .inl hp
    · exact hk

omit [Zod] in
theorem claimable_awaiting {now : Date} {workerId : String} {limit : Nat} {r : OutboxRow}
    (h : claimable now (claimInput workerId limit) r = true) : r.awaiting = true := by
  unfold claimable at h
  unfold OutboxRow.awaiting
  obtain ⟨hattempts, h⟩ := Bool.and_eq_true_iff.mp h
  refine Bool.and_eq_true_iff.mpr ⟨hattempts, ?_⟩
  rcases Bool.or_eq_true_iff.mp h with h | h
  · exact Bool.or_eq_true_iff.mpr (.inl (Bool.and_eq_true_iff.mp h).1)
  · obtain ⟨hstatus, hclaimed⟩ := Bool.and_eq_true_iff.mp h
    refine Bool.or_eq_true_iff.mpr (.inr (Bool.and_eq_true_iff.mpr ⟨hstatus, ?_⟩))
    cases hc : r.claimedAt with
    | none => rw [hc] at hclaimed; cases hclaimed
    | some t => rfl

omit [Zod] in
theorem awaiting_claimable {r : OutboxRow} (h : r.awaiting = true) (workerId : String) (limit : Nat) :
    claimable (r.nextAttemptAt + r.claimedAt.getD 0 + claimTimeoutSeconds * second + 1)
      (claimInput workerId limit) r =
      true := by
  unfold OutboxRow.awaiting at h
  unfold claimable
  obtain ⟨hattempts, h⟩ := Bool.and_eq_true_iff.mp h
  refine Bool.and_eq_true_iff.mpr ⟨hattempts, ?_⟩
  rcases Bool.or_eq_true_iff.mp h with h | h
  · refine Bool.or_eq_true_iff.mpr (.inl (Bool.and_eq_true_iff.mpr ⟨h, decide_eq_true ?_⟩))
    have hle : ∀ a b n : Nat, a ≤ a + b + n + 1 := fun a b n => by omega
    exact hle _ _ _
  · obtain ⟨hstatus, hclaimed⟩ := Bool.and_eq_true_iff.mp h
    obtain ⟨t, ht⟩ := Option.isSome_iff_exists.mp hclaimed
    refine Bool.or_eq_true_iff.mpr (.inr (Bool.and_eq_true_iff.mpr ⟨hstatus, ?_⟩))
    rw [ht, Option.any_some, Option.getD_some]
    have hlt : ∀ a t n : Nat, t + n < a + t + n + 1 := fun a t n => by omega
    exact decide_eq_true (hlt r.nextAttemptAt t (claimTimeoutSeconds * second))

omit [Zod] in
theorem awaiting_of_claimed {now : Date} {workerId : String} {limit : Nat} {t : OutboxTable}
    {r : OutboxRow} (hr : r ∈ t.rows) (h : r.id ∈ claimableIds now (claimInput workerId limit) [] t) :
    r.awaiting = true := by
  unfold claimableIds at h
  obtain ⟨x, hx, hid⟩ := List.mem_map.mp h
  have hx := (List.perm_insertionSort _ _).mem_iff.mp (List.mem_of_mem_take hx)
  obtain ⟨hx, hc⟩ := List.mem_filter.mp hx
  obtain rfl : x = r := Table.key_inj hx hr hid
  exact claimable_awaiting (Bool.and_eq_true_iff.mp hc).1

omit [Zod] in
theorem exists_claimed {now : Date} {workerId : String} {limit : Nat} (hlimit : 0 < limit)
    {t : OutboxTable} {r : OutboxRow} (hr : r ∈ t.rows) (hc : claimable now (claimInput workerId limit) r = true) :
    ∃ x ∈ t.rows, x.id ∈ claimableIds now (claimInput workerId limit) [] t := by
  unfold claimableIds
  generalize hdue : (t.rows.filter fun r =>
    claimable now (claimInput workerId limit) r && !([] : List Uuid).contains r.id) = due
  have hmem : r ∈ due := by
    rw [← hdue]
    exact List.mem_filter.mpr ⟨hr, by rw [hc]; rfl⟩
  have hsorted := (List.mem_insertionSort fun a b : OutboxRow => a.createdAt ≤ b.createdAt).mpr hmem
  cases hlist : due.insertionSort fun a b => a.createdAt ≤ b.createdAt with
  | nil => rw [hlist] at hsorted; cases hsorted
  | cons x xs =>
    have hx : x ∈ due := by
      rw [← List.mem_insertionSort fun a b : OutboxRow => a.createdAt ≤ b.createdAt, hlist]
      exact List.mem_cons_self
    rw [← hdue] at hx
    refine ⟨x, (List.mem_filter.mp hx).1, List.mem_map_of_mem ?_⟩
    obtain ⟨n, rfl⟩ := Nat.exists_eq_succ_of_ne_zero hlimit.ne'
    rw [hlist]
    exact List.mem_cons_self

omit [Zod] in
theorem claim_effort {service : Service} {limit : Nat} (hlimit : 0 < limit) {r : OutboxRow}
    (hr : r ∈ (s.outbox service).rows) {now : Date}
    (hc : claimable now (claimInput (worker service) limit) r = true)
    (hidle : ∀ x ∈ (s.outbox service).rows, x.held (worker service) = false) (hrec : Recoverable worker s) :
    Recoverable worker (s.bookkeep (.claim now (claimInput (worker service) limit) []) service) ∧
      (s.bookkeep (.claim now (claimInput (worker service) limit) []) service).effort worker < s.effort worker := by
  have hheld : ∀ x : OutboxRow, (x.claim now (worker service)).held (worker service) = true := by
    intro x
    unfold OutboxRow.held OutboxRow.claim
    simp
  have hless : ∀ x ∈ (s.outbox service).rows,
      x.id ∈ claimableIds now (claimInput (worker service) limit) [] (s.outbox service) →
        (x.claim now (worker service)).toll (worker service) s.published < x.toll (worker service) s.published := by
    intro x hx hid
    unfold OutboxRow.toll
    rw [if_pos (hheld x), hidle x hx, if_neg Bool.false_ne_true, if_pos (awaiting_of_claimed hx hid)]
    split <;> omega
  refine bookkeep_effort (f := fun x =>
    if (claimableIds now (claimInput (worker service) limit) [] (s.outbox service)).contains x.id
    then x.claim now (worker service) else x) rfl (fun x hx => ?_) ?_ (fun x hx hk => ?_) hrec
  · split
    · rename_i hid
      exact (hless x hx (List.contains_iff_mem.mp hid)).le
    · exact Nat.le_refl _
  · obtain ⟨x, hx, hid⟩ := exists_claimed hlimit hr hc
    refine ⟨x, hx, ?_⟩
    rw [if_pos (List.contains_iff_mem.mpr hid)]
    exact hless x hx hid
  · split
    · exact .inr (.inr (hheld x))
    · exact hk

end

/-! ## A supply of identifiers -/

structure Supply (s : System) (draws : List Draw) : Prop where
  undisturbed : ∀ draw ∈ draws, Undisturbed s draw
  apart : draws.Pairwise fun a b => ∀ id ∈ a.identifiers, id ∉ b.identifiers

theorem mem_identifiers {s : System} {id : String} :
    id ∈ s.identifiers ↔ ∃ service, ∃ m ∈ contents (s.outbox service), id ∈ m.identifiers := by
  unfold System.identifiers
  rw [List.mem_flatMap]
  constructor
  · intro h
    obtain ⟨m, hm, hid⟩ := h
    rcases List.mem_append.mp hm with hm | hm
    · exact ⟨.booking, m, hm, hid⟩
    · exact ⟨.event, m, hm, hid⟩
  · intro h
    obtain ⟨service, m, hm, hid⟩ := h
    cases service with
    | booking => exact ⟨m, List.mem_append_left _ hm, hid⟩
    | event => exact ⟨m, List.mem_append_right _ hm, hid⟩

theorem Supply.congr {s s' : System} (h : s'.identifiers = s.identifiers) {draws : List Draw}
    (hs : Supply s draws) :
    Supply s' draws :=
  ⟨fun draw hd => ⟨(hs.undisturbed draw hd).budget, h ▸ (hs.undisturbed draw hd).unused⟩, hs.apart⟩

theorem Supply.handled {s s' : System} {service : Service} {m : StoredMessage} {draw : Draw}
    {answer : Option OutboxRow} {draws : List Draw} (hs : Supply s (draw :: draws))
    (h : Handled s s' service m draw answer) : Supply s' draws := by
  obtain ⟨happart, hrest⟩ := List.pairwise_cons.mp hs.apart
  refine ⟨fun d hd => ⟨(hs.undisturbed d (List.mem_cons_of_mem _ hd)).budget, fun id hid hused => ?_⟩, hrest⟩
  have hunused := (hs.undisturbed d (List.mem_cons_of_mem _ hd)).unused id hid
  obtain ⟨v, x, hx, hxid⟩ := mem_identifiers.mp hused
  by_cases hv : v = service
  · subst hv
    rw [h.contents, List.mem_append] at hx
    rcases hx with hx | hx
    · exact hunused (mem_identifiers.mpr ⟨v, x, hx, hxid⟩)
    · obtain ⟨r, hr, rfl⟩ := List.mem_map.mp hx
      exact happart d hd id (h.identifiers r (Option.mem_toList.mp hr) id hxid) hid
  · obtain rfl := Service.eq_peer hv
    rw [h.other_outbox] at hx
    exact hunused (mem_identifiers.mpr ⟨_, x, hx, hxid⟩)

/-! ## The recovery -/

/-- Only the deliveries of what was published and one dispatcher for each
service, which claims when it holds nothing and marks what it has published. -/
def Recovering (worker : Service → String) (s : System) : Label → Prop
  | .deliver _ _ draw => draw.budget = none
  | .dispatch service topic message =>
    ∃ r ∈ (s.outbox service).rows, r.topic = topic ∧ r.message = message ∧ r.held (worker service) = true
  | .bookkeep service (.claim _ input locked) =>
    input = claimInput (worker service) 25 ∧ locked = [] ∧
      ∀ r ∈ (s.outbox service).rows, r.held (worker service) = false
  | .bookkeep service (.markPublished _ id workerId) =>
    workerId = some (worker service) ∧ ∃ r ∈ (s.outbox service).rows, r.id = id ∧ (r.topic, r.message) ∈ s.published
  | _ => False

theorem handled_recoverable {worker : Service → String} {s s' : System} {service : Service} {m : StoredMessage}
    {draw : Draw} {answer : Option OutboxRow} (h : Handled s s' service m draw answer)
    (hrec : Recoverable worker s) :
    Recoverable worker s' := by
  intro v r hr
  rw [h.published]
  by_cases hv : v = service
  · subst hv
    rw [h.rows, List.mem_append] at hr
    rcases hr with hr | hr
    · exact hrec v r hr
    · exact .inr (.inl (h.awaiting r (Option.mem_toList.mp hr)))
  · obtain rfl := Service.eq_peer hv
    rw [h.other_outbox] at hr
    exact hrec _ r hr

structure Dispatched [Zod] (worker : Service → String) (s : System) (l : Label) (s' : System) : Prop where
  allowed : Recovering worker s l
  undelivered : ∀ consumer message draw, l ≠ .deliver consumer message draw
  exec : closed.exec s l = some s'
  recoverable : Recoverable worker s'
  effort : s'.effort worker < s.effort worker
  work : s'.work = s.work
  identifiers : s'.identifiers = s.identifiers
  contents : contents s'.booking.outbox = contents s.booking.outbox
  notification : s'.notification = s.notification

section
variable [Zod] {worker : Service → String} {s : System} (hrec : Recoverable worker s)
include hrec

theorem held_dispatched {v : Service} {r : OutboxRow} (hr : r ∈ (s.outbox v).rows)
    (hheld : r.held (worker v) = true) :
    ∃ l s', Dispatched worker s l s' := by
  by_cases hp : (r.topic, r.message) ∈ s.published
  · let op := Bookkeeping.markPublished 0 r.id (some (worker v))
    obtain ⟨hrec', heffort⟩ := mark_effort hr hheld hp 0 hrec
    obtain ⟨hwork, hids⟩ := bookkeep_work s op v
    refine ⟨.bookkeep v op, s.bookkeep op v, ⟨rfl, r, hr, rfl, hp⟩, fun _ _ _ e => (by cases e), rfl,
      hrec', heffort, hwork, hids, bookkeep_contents s op v .booking, ?_⟩
    cases v <;> rfl
  · obtain ⟨s', he, hrec', heffort⟩ := dispatch_effort hr hheld hp hrec
    obtain ⟨_, rfl⟩ := guard_eq_some.mp he
    exact ⟨.dispatch v r.topic r.message, _, ⟨r, hr, rfl, rfl, hheld⟩, fun _ _ _ e => (by cases e), he,
      hrec', heffort, rfl, rfl, rfl, rfl⟩

theorem claim_dispatched {v : Service} (hidle : ∀ x ∈ (s.outbox v).rows, x.held (worker v) = false) {r : OutboxRow}
    (hr : r ∈ (s.outbox v).rows) (hwaits : r.awaiting = true) : ∃ l s', Dispatched worker s l s' := by
  let now := r.nextAttemptAt + r.claimedAt.getD 0 + claimTimeoutSeconds * second + 1
  let op := Bookkeeping.claim now (claimInput (worker v) 25) []
  have hdue : claimable now (claimInput (worker v) 25) r = true := awaiting_claimable hwaits (worker v) 25
  obtain ⟨hrec', heffort⟩ := claim_effort (by decide) hr hdue hidle hrec
  obtain ⟨hwork, hids⟩ := bookkeep_work s op v
  refine ⟨.bookkeep v op, s.bookkeep op v, ⟨rfl, rfl, hidle⟩, fun _ _ _ e => (by cases e), rfl, hrec',
    heffort, hwork, hids, bookkeep_contents s op v .booking, ?_⟩
  cases v <;> rfl

/-- A stored row that was not published gives its dispatcher something to do. -/
theorem unsent_dispatched {v : Service} {m : StoredMessage} (hm : m ∈ contents (s.outbox v))
    (hp : (m.topic, m.message) ∉ s.published) : ∃ l s', Dispatched worker s l s' := by
  obtain ⟨r, hr, rfl⟩ := List.mem_map.mp hm
  by_cases hbusy : ∃ x ∈ (s.outbox v).rows, x.held (worker v) = true
  · obtain ⟨x, hx, hheld⟩ := hbusy
    exact held_dispatched hrec hx hheld
  · have hidle : ∀ x ∈ (s.outbox v).rows, x.held (worker v) = false := by
      intro x hx
      by_contra hx'
      exact hbusy ⟨x, hx, by simpa using hx'⟩
    rcases hrec v r hr with hc | hc | hc
    · exact absurd hc hp
    · exact claim_dispatched hrec hidle hr hc
    · rw [hidle r hr] at hc; cases hc

end

structure Resumable [Zod] (worker : Service → String) (s : System) : Prop where
  reached : closed.Reach s
  recoverable : Recoverable worker s
  supply : ∃ draws, Supply s draws ∧ s.work ≤ draws.length

section
variable [Zod] {worker : Service → String} {s : System}

theorem Resumable.dispatched {s' : System} {l : Label} (h : Resumable worker s) (hd : Dispatched worker s l s') :
    Resumable worker s' := by
  obtain ⟨draws, hsupply, hlength⟩ := h.supply
  exact ⟨h.reached.step hd.exec, hd.recoverable, draws, hsupply.congr hd.identifiers, hd.work ▸ hlength⟩

theorem deliver_step (h : Resumable worker s) {service : Service} {m : StoredMessage}
    (hm : m ∈ contents (s.outbox service.peer)) (hcauses : 0 < m.topic.causes)
    (hp : (m.topic, m.message) ∈ s.published)
    (hnew : m.messageId ∉ s.inbox service) : ∃ l s', Recovering worker s l ∧ closed.exec s l = some s' ∧
      Resumable worker s' ∧ s'.effort worker < s.effort worker := by
  obtain ⟨draws, hsupply, hlength⟩ := h.supply
  cases draws with
  | nil =>
    have hzero := received (Nat.le_zero.mp hlength) hm hcauses
    exact absurd hzero hnew
  | cons draw draws =>
    have hd := hsupply.undisturbed draw List.mem_cons_self
    obtain ⟨consumer, s', he, answer, hhandled⟩ := deliver_handled (inv_closed h.reached)
      (conforming_opened (opened_of_closed h.reached)) (fits_closed h.reached) hd hm hcauses hp hnew
    obtain ⟨hless, heffort⟩ := hhandled.effort hm hcauses hnew
    rw [List.length_cons] at hlength
    have hrec := handled_recoverable hhandled h.recoverable
    exact ⟨.deliver consumer m.message draw, s', hd.budget, he,
      ⟨h.reached.step he, hrec, draws, hsupply.handled hhandled, by omega⟩, heffort worker⟩

/-- While a delivery is owed, some step of the recovery leaves less to do. -/
theorem resumable_step (h : Resumable worker s) (hw : s.work ≠ 0) : ∃ l s', Recovering worker s l ∧
    closed.exec s l = some s' ∧ Resumable worker s' ∧ s'.effort worker < s.effort worker := by
  obtain ⟨service, m, hm, hnew, hcauses⟩ := exists_owed hw
  by_cases hp : (m.topic, m.message) ∈ s.published
  · exact deliver_step h hm hcauses hp hnew
  · obtain ⟨l, s', hd⟩ := unsent_dispatched h.recoverable hm hp
    exact ⟨l, s', hd.allowed, hd.exec, h.dispatched hd, hd.effort⟩

end

/-! ## At rest -/

structure AtRest (s : System) : Prop where
  quiet : Quiet s
  settled : ∀ b ∈ s.booking.bookings.rows, b.status ≠ .pending
  seats : ∀ row ∈ s.event.events.rows, row.seats.total - row.seats.available = seatsOf s row.id confirmed

theorem at_rest_of_quiet {s : System} (hi : Inv s) (hquiet : Quiet s) : AtRest s := by
  refine ⟨hquiet, fun b hb hpending => ?_, fun row hrow => ?_⟩
  · obtain ⟨c, p, hj⟩ := hi.phase hb
    obtain ⟨r, hr, hwaits, _⟩ := hj.continues.request
    rcases hwaits hpending with ha | ha
    · have hmem : r ∈ requestsOf s b := by rw [hr]; exact List.mem_singleton.mpr rfl
      obtain ⟨hmem, ht⟩ := List.mem_filter.mp hmem
      exact ha.waiting (hquiet.requests r (List.mem_filter.mp hmem).1 (.inl (of_decide_eq_true ht)))
    · obtain ⟨m, hm, _, hopen⟩ := ha.outcome
      have hmem : m ∈ outcomesOf s b := by rw [hm]; exact List.mem_singleton.mpr rfl
      exact hopen (hquiet.outcomes m (List.mem_filter.mp hmem).1)
  · rw [hi.reserved_eq hrow]
    apply Table.sum_congr; intro b hb
    rw [hi.quiet_unreleased hquiet hb]

theorem quiet_of_work {s : System} (hi : Inv s) (hw : s.work = 0) : Quiet s := by
  refine ⟨fun m hm ht => ?_, fun m hm => ?_⟩
  · refine @received s hw .event m hm ?_
    rcases ht with ht | ht <;> rw [ht] <;> decide
  · refine @received s hw .booking m hm ?_
    have htopic := (hi.sound.answered m hm).1
    cases ht : m.topic <;> rw [ht] at htopic <;> first | decide | cases htopic

def abandonedRequest : List Label :=
  [.createEvent concert (sampleDraw 1 0 0 0 0),
   .createBooking sampleBooking (sampleDraw 2 3 4 0 0),
   .bookkeep .booking (.claim 0 (claimInput "lost" 25) [])]

def sampleDraws : List Draw := [sampleDraw 0 5 6 7 8, sampleDraw 0 9 10 11 12]

def settlingView (s : System) : Nat × Bool × Bool × Bool :=
  (s.work, s.booking.outbox.rows.all OutboxRow.awaiting, s.event.outbox.rows.all OutboxRow.awaiting,
    (sampleDraws.flatMap Draw.identifiers).all fun id => !s.identifiers.contains id)

end EventBooking
