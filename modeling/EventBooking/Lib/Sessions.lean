import EventBooking.Lib.Table

/-!
# Rows of open transactions

Concurrent sessions insert into one table. A row that clashes with a committed
one is refused at once; a row that clashes with one another session has
inserted and not yet committed waits for that session to end. `Exclusive` is
what these two rules keep: a held row clashes with nothing, so its commit
cannot fail.
-/

namespace Lib

namespace Table

variable {ρ κ υ : Type} {S : Schema ρ κ υ}

def Clash (S : Schema ρ κ υ) (r r' : ρ) : Prop :=
  S.key r = S.key r' ∨ ∃ u, S.unique r = some u ∧ S.unique r' = some u

theorem clash_comm {r r' : ρ} : Clash S r r' ↔ Clash S r' r := by
  unfold Clash
  constructor
  · intro h
    exact h.imp Eq.symm fun ⟨u, h, h'⟩ => ⟨u, h', h⟩
  · intro h
    exact h.imp Eq.symm fun ⟨u, h, h'⟩ => ⟨u, h', h⟩

theorem fresh_iff {t : Table S} {r : ρ} : t.Fresh r ↔ ∀ x ∈ t.rows, ¬ Clash S r x := by
  unfold Fresh Clash
  simp only [List.mem_map, List.mem_filterMap, not_exists, not_and, not_or]
  constructor
  · intro h x hx
    exact ⟨fun e => h.1 x hx e.symm, fun u hr hu => h.2 u hr x hx hu⟩
  · intro h
    exact ⟨fun x hx e => (h x hx).1 e.symm, fun u hr x hx hu => (h x hx).2 u hr hu⟩

theorem fresh_add {t : Table S} {r r' : ρ} (hr : t.Fresh r) :
    (t.add r hr).Fresh r' ↔ t.Fresh r' ∧ ¬ Clash S r' r := by
  rw [fresh_iff, fresh_iff, add_rows]
  constructor
  · intro h
    exact ⟨fun x hx => h x (List.mem_append_left _ hx), h r (by simp)⟩
  · intro h x hx
    rcases List.mem_append.mp hx with hx | hx
    · exact h.1 x hx
    · rw [List.mem_singleton] at hx
      rw [hx]; exact h.2

theorem fresh_update {t : Table S} {p : ρ → Bool} {f : ρ → ρ} {hk : ∀ r, S.key (f r) = S.key r}
    {hu : ∀ r, S.unique (f r) = S.unique r} {r : ρ} : (t.update p f hk hu).Fresh r ↔ t.Fresh r := by
  have hclash : ∀ x, Clash S r (if p x then f x else x) ↔ Clash S r x := by
    intro x
    split
    · unfold Clash; rw [hk, hu]
    · rfl
  simp only [fresh_iff, update_rows, List.mem_map, forall_exists_index, and_imp, forall_apply_eq_imp_iff₂, hclash]

section
variable [DecidableEq κ] [DecidableEq υ]

instance (r r' : ρ) : Decidable (Clash S r r') :=
  decidable_of_iff (S.key r = S.key r' ∨ (S.unique r).isSome ∧ S.unique r = S.unique r') (by
    unfold Clash
    refine or_congr_right ⟨fun h => ?_, fun h => ?_⟩
    · obtain ⟨u, hu⟩ := Option.isSome_iff_exists.mp h.1
      exact ⟨u, hu, h.2 ▸ hu⟩
    · obtain ⟨u, hu, hu'⟩ := h
      rw [hu, hu']; exact ⟨rfl, rfl⟩)

inductive Inserted
  | violation
  | wait
  | held
  deriving DecidableEq

def insertAmong (t : Table S) (others : List ρ) (r : ρ) : Inserted :=
  if ¬ t.Fresh r then .violation else if others.any fun x => decide (Clash S r x) then .wait else .held

def insertOption (t : Table S) : Option ρ → Option (Table S)
  | some r => t.insert r
  | none => some t

section
variable {t t' : Table S} {others : List ρ} {r : ρ}

theorem insertOption_some (h : t.insertOption (some r) = some t') : t.insert r = some t' := h

theorem insertOption_none (h : t.insertOption none = some t') : t' = t := (Option.some.inj h).symm

theorem insertAmong_violation (h : t.insertAmong others r = .violation) : ¬ t.Fresh r := by
  unfold insertAmong at h
  by_cases hf : t.Fresh r
  · rw [if_neg (not_not.mpr hf)] at h
    split at h <;> cases h
  · exact hf

theorem insertAmong_wait (h : t.insertAmong others r = .wait) : ∃ x ∈ others, Clash S r x := by
  unfold insertAmong at h
  split at h
  · cases h
  · split at h
    · rename_i hany
      simpa using hany
    · cases h

theorem insertAmong_held (h : t.insertAmong others r = .held) : t.Fresh r ∧ ∀ x ∈ others, ¬ Clash S r x := by
  unfold insertAmong at h
  split at h
  · cases h
  · rename_i hf
    split at h
    · cases h
    · rename_i hany
      refine ⟨not_not.mp hf, fun x hx hc => hany ?_⟩
      rw [List.any_eq_true]
      exact ⟨x, hx, decide_eq_true hc⟩

end

end

end Table

/-! ## Sessions -/

def heldByOthers {γ ρ : Type} (held : γ → Option ρ) (sessions : List γ) (n : Nat) : List ρ :=
  (sessions.eraseIdx n).filterMap held

theorem mem_heldByOthers {γ ρ : Type} {held : γ → Option ρ} {sessions : List γ} {n : Nat} {r : ρ} :
    r ∈ heldByOthers held sessions n ↔ ∃ (m : Nat) (c : γ), m ≠ n ∧ sessions[m]? = some c ∧ held c = some r := by
  unfold heldByOthers
  simp only [List.mem_filterMap, List.mem_eraseIdx_iff_getElem?]
  constructor
  · intro h
    obtain ⟨c, ⟨m, hm, hc⟩, hr⟩ := h
    exact ⟨m, c, hm, hc, hr⟩
  · intro h
    obtain ⟨m, c, hm, hc, hr⟩ := h
    exact ⟨c, ⟨m, hm, hc⟩, hr⟩

/-- Held rows clash with no committed row and not with each other. -/
structure Exclusive {γ ρ κ υ : Type} {S : Schema ρ κ υ} (t : Table S) (held : γ → Option ρ) (sessions : List γ) :
    Prop where
  fresh : ∀ (n : Nat) c r, sessions[n]? = some c → held c = some r → t.Fresh r
  apart : ∀ (n m : Nat) c c' r r', n ≠ m → sessions[n]? = some c → sessions[m]? = some c' → held c = some r →
    held c' = some r' → ¬ Table.Clash S r r'

theorem getElem?_set_cases {γ : Type} {sessions : List γ} {n m : Nat} {c x : γ}
    (h : (sessions.set n c)[m]? = some x) :
    (m = n ∧ x = c) ∨ (m ≠ n ∧ sessions[m]? = some x) := by
  by_cases hm : m = n
  · subst hm
    rw [List.getElem?_set_self'] at h
    obtain ⟨_, _, rfl⟩ := Option.map_eq_some_iff.mp h
    exact Or.inl ⟨rfl, rfl⟩
  · rw [List.getElem?_set_ne (Ne.symm hm)] at h
    exact Or.inr ⟨hm, h⟩

theorem getElem?_append_cases {γ : Type} {sessions : List γ} {m : Nat} {c x : γ}
    (h : (sessions ++ [c])[m]? = some x) :
    (m = sessions.length ∧ x = c) ∨ (m ≠ sessions.length ∧ sessions[m]? = some x) := by
  by_cases hm : m = sessions.length
  · subst hm
    rw [List.getElem?_append_right (Nat.le_refl _), Nat.sub_self] at h
    exact Or.inl ⟨rfl, (Option.some.inj h).symm⟩
  · refine Or.inr ⟨hm, ?_⟩
    have hlt : m < sessions.length := by
      have := (List.getElem?_eq_some_iff.mp h).1
      rw [List.length_append, List.length_singleton] at this
      omega
    rwa [List.getElem?_append_left hlt] at h

theorem sum_set_lt {γ : Type} {f : γ → Nat} {sessions : List γ} {n : Nat} {c c' : γ} (hn : sessions[n]? = some c)
    (h : f c' < f c) : ((sessions.set n c').map f).sum < (sessions.map f).sum := by
  induction sessions generalizing n with
  | nil => simp at hn
  | cons x xs ih =>
    cases n with
    | zero =>
      simp only [List.getElem?_cons_zero, Option.some.injEq] at hn
      subst hn
      simpa using h
    | succ n =>
      have := ih (n := n) (by simpa using hn)
      simp only [List.set_cons_succ, List.map_cons, List.sum_cons]
      omega

/-- Sessions that wait for none but sessions further on: one of them is not waiting. -/
theorem advances_ahead {γ : Type} {sessions : List γ} {rank : γ → Nat} {last : Nat} {advances : Nat → Prop}
    (h : ∀ (n : Nat) c, sessions[n]? = some c → rank c < last →
      advances n ∨ ∃ (m : Nat) (c' : γ), sessions[m]? = some c' ∧ rank c < rank c' ∧ rank c' < last)
    {n : Nat} {c : γ} (hn : sessions[n]? = some c) (hc : rank c < last) : ∃ m, advances m := by
  rcases h n c hn hc with ha | ha
  · exact ⟨n, ha⟩
  · obtain ⟨m, c', hm, hlt, hc'⟩ := ha
    exact advances_ahead h hm hc'
termination_by last - rank c

namespace Exclusive

variable {γ ρ κ υ : Type} {S : Schema ρ κ υ} {t t' : Table S} {held : γ → Option ρ} {sessions : List γ} {n : Nat}
  {c c' : γ} {r : ρ}

theorem nil : Exclusive t held [] :=
  ⟨fun _ _ _ h => (by simp at h), fun _ _ _ _ _ _ _ h => (by simp at h)⟩

theorem append (h : Exclusive t held sessions) (hc : held c = none) : Exclusive t held (sessions ++ [c]) := by
  constructor
  · intro m x r hx hr
    rcases getElem?_append_cases hx with hm | hm
    · rw [hm.2, hc] at hr; cases hr
    · exact h.fresh m x r hm.2 hr
  · intro m m' x x' r r' hne hx hx' hr hr'
    rcases getElem?_append_cases hx with hm | hm
    · rw [hm.2, hc] at hr; cases hr
    · rcases getElem?_append_cases hx' with hm' | hm'
      · rw [hm'.2, hc] at hr'; cases hr'
      · exact h.apart m m' x x' r r' hne hm.2 hm'.2 hr hr'

theorem set (h : Exclusive t held sessions) (hf : ∀ r, held c = some r → t.Fresh r)
    (ha : ∀ r, held c = some r → ∀ (m : Nat) x r', m ≠ n → sessions[m]? = some x → held x = some r' →
      ¬ Table.Clash S r r') : Exclusive t held (sessions.set n c) := by
  constructor
  · intro m x r hx hr
    rcases getElem?_set_cases hx with hm | hm
    · exact hf r (hm.2 ▸ hr)
    · exact h.fresh m x r hm.2 hr
  · intro m m' x x' r r' hne hx hx' hr hr'
    rcases getElem?_set_cases hx with hm | hm <;> rcases getElem?_set_cases hx' with hm' | hm'
    · exact absurd (hm.1.trans hm'.1.symm) hne
    · exact ha r (hm.2 ▸ hr) m' x' r' hm'.1 hm'.2 hr'
    · exact fun hcl => ha r' (hm'.2 ▸ hr') m x r hm.1 hm.2 hr (Table.clash_comm.mp hcl)
    · exact h.apart m m' x x' r r' hne hm.2 hm'.2 hr hr'

theorem keep (h : Exclusive t held sessions) (hn : sessions[n]? = some c) (hc : held c' = held c) :
    Exclusive t held (sessions.set n c') :=
  h.set (fun r hr => h.fresh n c r hn (hc ▸ hr))
    fun r hr m x r' hm hx hr' => h.apart n m c x r r' (Ne.symm hm) hn hx (hc ▸ hr) hr'

theorem release (h : Exclusive t held sessions) (hc : held c' = none) : Exclusive t held (sessions.set n c') :=
  h.set (fun r hr => (by rw [hc] at hr; cases hr)) fun r hr => (by rw [hc] at hr; cases hr)

theorem congr (h : Exclusive t held sessions) (ht : ∀ r, t'.Fresh r ↔ t.Fresh r) : Exclusive t' held sessions :=
  ⟨fun m x r hx hr => (ht r).mpr (h.fresh m x r hx hr), h.apart⟩

variable [DecidableEq κ] [DecidableEq υ]

theorem hold (h : Exclusive t held sessions)
    (hi : ∀ r, held c' = some r → t.insertAmong (heldByOthers held sessions n) r = .held) :
    Exclusive t held (sessions.set n c') := by
  refine h.set (fun r hr => (Table.insertAmong_held (hi r hr)).1) fun r hr m x r' hm hx hr' => ?_
  exact (Table.insertAmong_held (hi r hr)).2 r' (mem_heldByOthers.mpr ⟨m, x, hm, hx, hr'⟩)

theorem insertable (h : Exclusive t held sessions) (hn : sessions[n]? = some c) :
    ∃ t', t.insertOption (held c) = some t' := by
  cases hr : held c with
  | none => exact ⟨t, rfl⟩
  | some r => exact ⟨_, Table.insert_eq_some.mpr ⟨h.fresh n c r hn hr, rfl⟩⟩

theorem commit (h : Exclusive t held sessions) (hn : sessions[n]? = some c) (hc : held c' = none)
    (ht : t.insertOption (held c) = some t') : Exclusive t' held (sessions.set n c') := by
  cases hr : held c with
  | none =>
    rw [hr] at ht
    rw [Table.insertOption_none ht]; exact h.release hc
  | some r =>
  rw [hr] at ht
  obtain ⟨hf, rfl⟩ := Table.insert_eq_some.mp (Table.insertOption_some ht)
  constructor
  · intro m x r' hx hr'
    rcases getElem?_set_cases hx with hm | hm
    · rw [hm.2, hc] at hr'; cases hr'
    · exact (Table.fresh_add hf).mpr ⟨h.fresh m x r' hm.2 hr', h.apart m n x c r' r hm.1 hm.2 hn hr' hr⟩
  · exact (h.release hc).apart

end Exclusive

/-! ## Locked rows -/

def lockSchema (κ : Type) : Schema κ κ Unit := ⟨id, fun _ => none⟩

def Locks {γ κ : Type} (locks : γ → Option κ) (sessions : List γ) : Prop :=
  Exclusive (Table.empty : Table (lockSchema κ)) locks sessions

section
variable {γ κ : Type} {locks : γ → Option κ} {sessions : List γ} {n m : Nat} {c c' : γ} {k : κ}

theorem clash_lock {a b : κ} : Table.Clash (lockSchema κ) a b ↔ a = b := by
  simp [Table.Clash, lockSchema]

theorem Locks.apart (h : Locks locks sessions) (hne : n ≠ m) (hn : sessions[n]? = some c)
    (hm : sessions[m]? = some c') (hk : locks c = some k) : locks c' ≠ some k :=
  fun hk' => Exclusive.apart h n m c c' k k hne hn hm hk hk' (clash_lock.mpr rfl)

theorem Locks.lock (h : Locks locks sessions) (hk : ∀ k, locks c = some k → k ∉ heldByOthers locks sessions n) :
    Locks locks (sessions.set n c) := by
  refine Exclusive.set h (fun k _ => Table.fresh_iff.mpr fun x hx => (by cases hx))
    fun k hl m x k' hm hx hk' hclash => ?_
  rw [clash_lock] at hclash
  exact hk k hl (mem_heldByOthers.mpr ⟨m, x, hm, hx, hclash ▸ hk'⟩)

end

end Lib
