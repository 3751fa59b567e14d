import EventBooking.Lib.Table

/-!
# Database transactions

A transaction is a program of awaited statements over a database. A statement
that fails poisons the transaction: the server refuses every further statement,
also when the program caught the error, and its COMMIT is a rollback. The
connection may be lost before any statement or before the COMMIT; `budget`
says how many of them it survives, `none` that it is never lost.
-/

namespace Lib

inductive DbError
  | uniqueViolation | checkViolation | outOfRange | invalidText | invalidByteSequence | programLimitExceeded
  | inFailedTransaction | unavailable
  deriving DecidableEq, Repr

structure TxState (δ : Type) where
  db : δ
  failed : Bool
  budget : Option Nat

def Tx (δ α : Type) := TxState δ → Except DbError α × TxState δ

/-- `INSERT`, with the constraint violation the server reports. -/
def Table.create {ρ κ υ : Type} {S : Schema ρ κ υ} [DecidableEq κ] [DecidableEq υ] (r : ρ) (t : Table S) :
    Except DbError (Table S) :=
  match t.insert r with
  | some t' => .ok t'
  | none => .error .uniqueViolation

theorem Table.create_eq_ok {ρ κ υ : Type} {S : Schema ρ κ υ} [DecidableEq κ] [DecidableEq υ] {r : ρ}
    {t t' : Table S} :
    Table.create r t = .ok t' ↔ t.insert r = some t' := by
  unfold Table.create; split <;> simp_all

theorem except_bind_ok {ε α β : Type} {x : Except ε α} {f : α → Except ε β} {b : β} :
    x >>= f = .ok b ↔ ∃ a, x = .ok a ∧ f a = .ok b := by
  cases x with
  | error e => exact ⟨fun h => (by cases h), fun ⟨a, h, _⟩ => (by cases h)⟩
  | ok a => exact ⟨fun h => ⟨a, rfl, h⟩, fun ⟨a', h, h'⟩ => by cases h; exact h'⟩

theorem except_bind_error {ε α β : Type} {x : Except ε α} {f : α → Except ε β} {e : ε} :
    x >>= f = .error e ↔ x = .error e ∨ ∃ a, x = .ok a ∧ f a = .error e := by
  cases x with
  | error e' =>
    constructor
    · intro h; exact .inl (congrArg Except.error (Except.error.inj h))
    · intro hx
      rcases hx with h | ⟨_, h, _⟩
      · rw [h]; rfl
      · cases h
  | ok a =>
    constructor
    · intro h; exact .inr ⟨a, rfl, h⟩
    · intro hx
      rcases hx with h | ⟨a', h, h'⟩
      · cases h
      · cases h; exact h'

/-- `table.create`: the statement that inserts into one table of the database and returns `a`. -/
def insertInto {δ α ρ κ υ : Type} {S : Schema ρ κ υ} [DecidableEq κ] [DecidableEq υ] (table : δ → Table S)
    (set : δ → Table S → δ) (r : ρ) (a : α) (d : δ) : Except DbError (α × δ) := do
  let t ← Table.create r (table d)
  return (a, set d t)

section
variable {δ α ρ κ υ : Type} {S : Schema ρ κ υ} [DecidableEq κ] [DecidableEq υ] {table : δ → Table S}
  {set : δ → Table S → δ} {r : ρ} {a b : α} {d d' : δ}

theorem insertInto_eq_ok :
    insertInto table set r a d = .ok (b, d') ↔ b = a ∧ ∃ t, (table d).insert r = some t ∧ d' = set d t := by
  unfold insertInto
  rw [except_bind_ok]
  constructor
  · intro h
    obtain ⟨t, ht, h⟩ := h
    cases h; exact ⟨rfl, t, Table.create_eq_ok.mp ht, rfl⟩
  · intro h
    obtain ⟨rfl, t, ht, rfl⟩ := h
    exact ⟨t, Table.create_eq_ok.mpr ht, rfl⟩

theorem insertInto_eq_error {e : DbError} (h : insertInto table set r a d = .error e) : ¬ (table d).Fresh r := by
  intro hf
  have : insertInto table set r a d = .ok (a, set d ((table d).add r hf)) :=
    insertInto_eq_ok.mpr ⟨rfl, _, Table.insert_eq_some.mpr ⟨hf, rfl⟩, rfl⟩
  rw [this] at h; cases h

end

theorem insertInto_error {δ α ρ κ υ : Type} {S : Schema ρ κ υ} [DecidableEq κ] [DecidableEq υ] {table : δ → Table S}
    {set : δ → Table S → δ} {r : ρ} {a : α} {d : δ} {e : DbError} :
    insertInto table set r a d = .error e ↔ e = .uniqueViolation ∧ ¬ (table d).Fresh r := by
  unfold insertInto Table.create
  cases h : (table d).insert r with
  | none =>
    have hf := Table.insert_eq_none.mp h
    constructor
    · intro h'; exact ⟨(Except.error.inj h').symm, hf⟩
    · intro h'; rw [h'.1]; rfl
  | some t =>
    obtain ⟨hf, _⟩ := Table.insert_eq_some.mp h
    constructor
    · intro h'; cases h'
    · intro h'; exact absurd hf h'.2

/-- A statement outside a transaction commits by itself. -/
def autocommit {δ α : Type} (f : δ → Except DbError (α × δ)) (d : δ) : Except DbError α × δ :=
  match f d with
  | .ok (a, d') => (.ok a, d')
  | .error e => (.error e, d)

theorem autocommit_cases {δ α : Type} {f : δ → Except DbError (α × δ)} {d d' : δ} {r : Except DbError α}
    (h : autocommit f d = (r, d')) :
    (d' = d ∧ ∃ e, f d = .error e ∧ r = .error e) ∨ ∃ a, f d = .ok (a, d') ∧ r = .ok a := by
  unfold autocommit at h
  split at h
  · rename_i a m hf
    obtain ⟨rfl, rfl⟩ := Prod.mk.inj h
    exact Or.inr ⟨a, hf, rfl⟩
  · rename_i e hf
    obtain ⟨rfl, rfl⟩ := Prod.mk.inj h
    exact Or.inl ⟨rfl, e, hf, rfl⟩

namespace Tx

variable {δ α β : Type}

instance : Monad (Tx δ) where
  pure a := fun s => (.ok a, s)
  bind t k := fun s =>
    match t s with
    | (.ok a, s') => k a s'
    | (.error e, s') => (.error e, s')

def stmt (f : δ → Except DbError (α × δ)) : Tx δ α := fun s =>
  if s.failed then (.error .inFailedTransaction, s)
  else if s.budget = some 0 then (.error .unavailable, { s with failed := true })
  else
    match f s.db with
    | .ok (a, d) => (.ok a, { s with db := d, budget := s.budget.map (· - 1) })
    | .error e => (.error e, { s with failed := true, budget := s.budget.map (· - 1) })

/-- `try { a = await t } catch (e) { if (isUnique(e)) return dup; throw e }`, then `k a`. -/
def tryInsert (t : Tx δ α) (dup : β) (k : α → Tx δ β) : Tx δ β := fun s =>
  match t s with
  | (.ok a, s') => k a s'
  | (.error .uniqueViolation, s') => (.ok dup, s')
  | (.error e, s') => (.error e, s')

/-- `BEGIN`, the program, then `COMMIT` when it returns and `ROLLBACK` when it throws. -/
def transact (t : Tx δ α) (budget : Option Nat) (d : δ) : Except DbError α × δ :=
  match t ⟨d, false, budget⟩ with
  | (.ok a, s) =>
    if s.failed then (.ok a, d)
    else if s.budget = some 0 then (.error .unavailable, d)
    else (.ok a, s.db)
  | (.error e, _) => (.error e, d)

/-! ## Programs of statements

`Regular t`: started in a healthy transaction, `t` returns a value with the
transaction still healthy or throws, and a limited budget only adds throws.
`Ok t d a d'`: without a fault, `t` takes `d` to `d'` and returns `a`. -/

def Regular (t : Tx δ α) : Prop := ∀ d,
  (∀ a s, t ⟨d, false, none⟩ = (.ok a, s) → s.failed = false ∧ s.budget = none) ∧
    ∀ n, (∃ e s, t ⟨d, false, some n⟩ = (.error e, s)) ∨
      ∃ a d' m, t ⟨d, false, none⟩ = (.ok a, ⟨d', false, none⟩) ∧
        t ⟨d, false, some n⟩ = (.ok a, ⟨d', false, some m⟩)

def Ok (t : Tx δ α) (d : δ) (a : α) (d' : δ) : Prop := t ⟨d, false, none⟩ = (.ok a, ⟨d', false, none⟩)

theorem pure_apply (a : α) (s : TxState δ) : (pure a : Tx δ α) s = (.ok a, s) := rfl

theorem bind_apply (t : Tx δ α) (k : α → Tx δ β) (s : TxState δ) :
    (t >>= k) s = match t s with
      | (.ok a, s') => k a s'
      | (.error e, s') => (.error e, s') := rfl

theorem stmt_none (f : δ → Except DbError (α × δ)) (d : δ) :
    stmt f ⟨d, false, none⟩ = match f d with
      | .ok (a, d') => (.ok a, ⟨d', false, none⟩)
      | .error e => (.error e, ⟨d, true, none⟩) := by
  simp [stmt]

theorem stmt_zero (f : δ → Except DbError (α × δ)) (d : δ) :
    stmt f ⟨d, false, some 0⟩ = (.error .unavailable, ⟨d, true, some 0⟩) := by
  simp [stmt]

theorem stmt_succ (f : δ → Except DbError (α × δ)) (d : δ) (n : Nat) :
    stmt f ⟨d, false, some (n + 1)⟩ = match f d with
      | .ok (a, d') => (.ok a, ⟨d', false, some n⟩)
      | .error e => (.error e, ⟨d, true, some n⟩) := by
  simp [stmt]

/-! ### Inversion -/

@[simp] theorem ok_pure {a b : α} {d d' : δ} : Ok (pure a) d b d' ↔ b = a ∧ d' = d := by
  unfold Ok
  rw [pure_apply]
  simp only [Prod.mk.injEq, Except.ok.injEq, TxState.mk.injEq, and_true]
  exact ⟨fun h => ⟨h.1.symm, h.2.symm⟩, fun h => ⟨h.1.symm, h.2.symm⟩⟩

@[simp] theorem ok_stmt {f : δ → Except DbError (α × δ)} {d d' : δ} {a : α} :
    Ok (stmt f) d a d' ↔ f d = .ok (a, d') := by
  unfold Ok
  rw [stmt_none]
  split
  · rename_i b m hf
    simp [hf]
  · rename_i e hf
    simp [hf]

theorem ok_bind {t : Tx δ α} {k : α → Tx δ β} (ht : Regular t) {d d' : δ} {b : β} :
    Ok (t >>= k) d b d' ↔ ∃ a m, Ok t d a m ∧ Ok (k a) m b d' := by
  unfold Ok
  rw [bind_apply]
  constructor
  · intro h
    split at h
    · rename_i a s ha
      obtain ⟨m, f, b'⟩ := s
      obtain ⟨hf, hb⟩ := (ht d).1 a _ ha
      simp only at hf hb
      subst hf hb
      exact ⟨a, m, ha, h⟩
    · simp at h
  · intro h
    obtain ⟨a, m, ha, hk⟩ := h
    simp only [ha, hk]

/-! ### Rules -/

theorem regular_pure (a : α) : Regular (pure a : Tx δ α) := by
  intro d
  refine ⟨fun b s h => ?_, fun n => Or.inr ⟨a, d, n, rfl, rfl⟩⟩
  rw [pure_apply] at h
  rw [← (Prod.mk.inj h).2]
  exact ⟨rfl, rfl⟩

theorem regular_stmt (f : δ → Except DbError (α × δ)) : Regular (stmt f) := by
  intro d
  constructor
  · intro a s h
    rw [stmt_none] at h
    split at h
    · rw [← (Prod.mk.inj h).2]; exact ⟨rfl, rfl⟩
    · simp at h
  · intro n
    cases n with
    | zero => exact Or.inl ⟨_, _, stmt_zero f d⟩
    | succ n =>
      cases hf : f d with
      | ok p => exact Or.inr ⟨p.1, p.2, n, by rw [stmt_none, hf], by rw [stmt_succ, hf]⟩
      | error e => exact Or.inl ⟨e, ⟨d, true, some n⟩, by rw [stmt_succ, hf]⟩

theorem regular_bind {t : Tx δ α} {k : α → Tx δ β} (ht : Regular t) (hk : ∀ a, Regular (k a)) :
    Regular (t >>= k) := by
  intro d
  constructor
  · intro b s h
    rw [bind_apply] at h
    split at h
    · rename_i a s' ha
      obtain ⟨m, f, b'⟩ := s'
      obtain ⟨hf, hb⟩ := (ht d).1 a _ ha
      simp only at hf hb
      subst hf hb
      exact (hk a m).1 b s h
    · simp at h
  · intro n
    rcases (ht d).2 n with h | h
    · obtain ⟨e, s, h⟩ := h
      exact Or.inl ⟨e, s, by rw [bind_apply, h]⟩
    · obtain ⟨a, m, n', h, h'⟩ := h
      simp only [bind_apply, h, h']
      exact (hk a m).2 n'

theorem regular_ite {c : Prop} [Decidable c] {t t' : Tx δ α} (ht : Regular t) (ht' : Regular t') :
    Regular (if c then t else t') := by
  split
  · exact ht
  · exact ht'

/-! ## What a transaction can do -/

/-- A transaction of statements commits what it does without a fault, or throws and leaves no trace. -/
theorem transact_regular {t : Tx δ α} (ht : Regular t) {budget : Option Nat} {d d' : δ} {r : Except DbError α}
    (h : transact t budget d = (r, d')) : (d' = d ∧ ∃ e, r = .error e) ∨ ∃ a, r = .ok a ∧ Ok t d a d' := by
  have key : ∀ b, (∃ e s, t ⟨d, false, b⟩ = (.error e, s)) ∨
      ∃ a m b', t ⟨d, false, none⟩ = (.ok a, ⟨m, false, none⟩) ∧ t ⟨d, false, b⟩ = (.ok a, ⟨m, false, b'⟩) := by
    intro b
    cases b with
    | none =>
      cases ht0 : t ⟨d, false, none⟩ with
      | mk r s =>
        cases r with
        | error e => exact Or.inl ⟨e, s, rfl⟩
        | ok a =>
          obtain ⟨m, f, b⟩ := s
          obtain ⟨hf, hb⟩ := (ht d).1 a _ ht0
          simp only at hf hb
          subst hf hb
          exact Or.inr ⟨a, m, none, rfl, rfl⟩
    | some n =>
      rcases (ht d).2 n with h | h
      · exact Or.inl h
      · obtain ⟨a, m, n', h, h'⟩ := h
        exact Or.inr ⟨a, m, some n', h, h'⟩
  unfold transact at h
  rcases key budget with hb | hb
  · obtain ⟨e, s, hb⟩ := hb
    rw [hb] at h
    obtain ⟨rfl, rfl⟩ := Prod.mk.inj h
    exact Or.inl ⟨rfl, e, rfl⟩
  · obtain ⟨a, m, b', h0, hb⟩ := hb
    rw [hb] at h
    simp only [Bool.false_eq_true, if_false] at h
    split at h
    · obtain ⟨rfl, rfl⟩ := Prod.mk.inj h
      exact Or.inl ⟨rfl, _, rfl⟩
    · obtain ⟨rfl, rfl⟩ := Prod.mk.inj h
      exact Or.inr ⟨a, rfl, h0⟩

/-- A transaction that starts with an insert whose violation it catches: no trace
when the insert is refused or a statement throws, else the insert and the rest together. -/
theorem transact_tryInsert {f : δ → Except DbError (α × δ)} {dup : β} {k : α → Tx δ β} (hk : ∀ a, Regular (k a))
    {budget : Option Nat} {d d' : δ} {r : Except DbError β}
    (h : transact (tryInsert (stmt f) dup k) budget d = (r, d')) :
    (d' = d ∧ ((r = .ok dup ∧ f d = .error .uniqueViolation) ∨ ∃ e, r = .error e)) ∨
      ∃ a m b, f d = .ok (a, m) ∧ Ok (k a) m b d' ∧ r = .ok b := by
  have hreg : Regular (stmt f >>= k) := regular_bind (regular_stmt f) hk
  by_cases hdup : ∃ s, stmt f ⟨d, false, budget⟩ = (.error .uniqueViolation, s)
  · obtain ⟨s, hs⟩ := hdup
    left
    have hs' : s.failed = true ∧ f d = .error .uniqueViolation := by
      unfold stmt at hs
      simp only [Bool.false_eq_true, if_false] at hs
      split at hs
      · simp at hs
      · split at hs
        · simp at hs
        · rename_i e he
          obtain ⟨h1, h2⟩ := Prod.mk.inj hs
          rw [Except.error.injEq] at h1
          exact ⟨h2 ▸ rfl, h1 ▸ he⟩
    unfold transact tryInsert at h
    rw [hs] at h
    simp only [hs'.1, if_true] at h
    obtain ⟨rfl, rfl⟩ := Prod.mk.inj h
    exact ⟨rfl, Or.inl ⟨rfl, hs'.2⟩⟩
  · have heq : transact (tryInsert (stmt f) dup k) budget d = transact (stmt f >>= k) budget d := by
      have : tryInsert (stmt f) dup k ⟨d, false, budget⟩ = (stmt f >>= k) ⟨d, false, budget⟩ := by
        rw [bind_apply]
        unfold tryInsert
        split
        · rename_i a s' hs; rw [hs]
        · rename_i s' hs; exact absurd ⟨s', hs⟩ hdup
        · rename_i e s' hs; rw [hs]
      unfold transact
      rw [this]
    rw [heq] at h
    rcases transact_regular hreg h with h | h
    · exact Or.inl ⟨h.1, Or.inr h.2⟩
    · obtain ⟨b, hb, hok⟩ := h
      obtain ⟨a, m, h1, h2⟩ := (ok_bind (regular_stmt f)).mp hok
      exact Or.inr ⟨a, m, b, ok_stmt.mp h1, h2, hb⟩

/-! ## How a program throws

`Fails t d e`: without a fault of the connection, `t` throws `e`. -/

def Fails (t : Tx δ α) (d : δ) (e : DbError) : Prop := ∃ s, t ⟨d, false, none⟩ = (.error e, s)

theorem fails_pure {a : α} {d : δ} {e : DbError} : ¬ Fails (pure a) d e := by
  intro hx
  obtain ⟨s, h⟩ := hx
  cases h

theorem fails_stmt {f : δ → Except DbError (α × δ)} {d : δ} {e : DbError} :
    Fails (stmt f) d e ↔ f d = .error e := by
  unfold Fails
  rw [stmt_none]
  cases f d with
  | ok p => exact ⟨fun ⟨s, h⟩ => (by cases h), fun h => (by cases h)⟩
  | error e' =>
    constructor
    · intro hx
      obtain ⟨s, h⟩ := hx
      rw [(Except.error.inj (Prod.mk.inj h).1)]
    · intro h; rw [Except.error.inj h]; exact ⟨_, rfl⟩

theorem fails_bind {t : Tx δ α} {k : α → Tx δ β} (ht : Regular t) {d : δ} {e : DbError} :
    Fails (t >>= k) d e ↔ Fails t d e ∨ ∃ a m, Ok t d a m ∧ Fails (k a) m e := by
  unfold Fails Ok
  rw [bind_apply]
  cases h : t ⟨d, false, none⟩ with
  | mk r s =>
    cases r with
    | error e' =>
      constructor
      · rintro ⟨s', h'⟩; exact .inl ⟨s, by rw [Except.error.inj (Prod.mk.inj h').1]⟩
      · intro hx
        rcases hx with ⟨s', h'⟩ | ⟨a, m, h', _⟩
        · exact ⟨s, by rw [Except.error.inj (Prod.mk.inj h').1]⟩
        · cases h'
    | ok a =>
      obtain ⟨m, f, b⟩ := s
      obtain ⟨hf, hb⟩ := (ht d).1 a _ h
      simp only at hf hb
      subst hf hb
      constructor
      · rintro ⟨s', h'⟩; exact .inr ⟨a, m, rfl, s', h'⟩
      · intro hx
        rcases hx with ⟨s', h'⟩ | ⟨a', m', h', s', hs⟩
        · cases h'
        · cases h'; exact ⟨s', hs⟩

theorem fails_tryInsert {f : δ → Except DbError (α × δ)} {dup : β} {k : α → Tx δ β} {d : δ} {e : DbError} :
    Fails (tryInsert (stmt f) dup k) d e ↔
      (f d = .error e ∧ e ≠ .uniqueViolation) ∨ ∃ a m, f d = .ok (a, m) ∧ Fails (k a) m e := by
  unfold Fails tryInsert
  rw [stmt_none]
  cases h : f d with
  | ok p =>
    constructor
    · rintro ⟨s, hs⟩; exact .inr ⟨p.1, p.2, rfl, s, hs⟩
    · intro hx
      rcases hx with ⟨h', _⟩ | ⟨a, m, h', s, hs⟩
      · cases h'
      · cases h'; exact ⟨s, hs⟩
  | error e' =>
    by_cases hu : e' = .uniqueViolation
    · subst hu
      constructor
      · intro hx
        obtain ⟨s, hs⟩ := hx
        cases hs
      · intro hx
        rcases hx with ⟨h', hne⟩ | ⟨a, m, h', _⟩
        · exact absurd (Except.error.inj h').symm hne
        · cases h'
    · constructor
      · intro hx
        obtain ⟨s, hs⟩ := hx
        cases e' <;> first | exact absurd rfl hu | (cases hs; exact .inl ⟨rfl, hu⟩)
      · intro hx
        rcases hx with ⟨h', _⟩ | ⟨a, m, h', _⟩
        · cases h'
          cases e <;> first | exact absurd rfl hu | exact ⟨_, rfl⟩
        · cases h'

/-- Without a fault a program of statements is rejected for what it throws. -/
theorem transact_fails {t : Tx δ α} (ht : Regular t) {d : δ} {e : DbError} :
    (transact t none d).1 = .error e ↔ Fails t d e := by
  unfold Fails transact
  cases h : t ⟨d, false, none⟩ with
  | mk r s =>
    cases r with
    | error e' =>
      constructor
      · intro h'; exact ⟨s, by rw [Except.error.inj h']⟩
      · intro hx
        obtain ⟨s', h'⟩ := hx
        rw [Except.error.inj (Prod.mk.inj h').1]
    | ok a =>
      obtain ⟨hf, hb⟩ := (ht d).1 a _ h
      simp only [hf, hb, Bool.false_eq_true, if_false, reduceCtorEq]
      constructor
      · intro h'; cases h'
      · intro hx
        obtain ⟨s', h'⟩ := hx
        cases h'

/-- A refused insert that the program catches: the transaction is poisoned, and its COMMIT a rollback. -/
theorem tryInsert_refused {f : δ → Except DbError (α × δ)} {dup : β} {k : α → Tx δ β} {d : δ}
    (h : f d = .error .uniqueViolation) :
    tryInsert (stmt f) dup k ⟨d, false, none⟩ = (.ok dup, ⟨d, true, none⟩) := by
  unfold tryInsert; rw [stmt_none, h]

theorem transact_refused {f : δ → Except DbError (α × δ)} {dup : β} {k : α → Tx δ β} {d : δ}
    (h : f d = .error .uniqueViolation) : transact (tryInsert (stmt f) dup k) none d = (.ok dup, d) := by
  unfold transact
  rw [tryInsert_refused h]; rfl

theorem transact_tryInsert_fails {f : δ → Except DbError (α × δ)} {dup : β} {k : α → Tx δ β}
    (hk : ∀ a, Regular (k a)) {d : δ} {e : DbError} :
    (transact (tryInsert (stmt f) dup k) none d).1 = .error e ↔ Fails (tryInsert (stmt f) dup k) d e := by
  by_cases hdup : f d = .error .uniqueViolation
  · unfold Fails transact
    rw [tryInsert_refused hdup]
    constructor
    · intro h; cases h
    · intro hx
      obtain ⟨s, h⟩ := hx
      cases h
  · -- the insert's violation is not caught, so this is a plain sequence of statements
    have heq : tryInsert (stmt f) dup k ⟨d, false, none⟩ = (stmt f >>= k) ⟨d, false, none⟩ := by
      unfold tryInsert
      rw [bind_apply, stmt_none]
      cases h : f d with
      | ok p => rfl
      | error e' => cases e' <;> first | exact absurd h hdup | rfl
    have htransact : transact (tryInsert (stmt f) dup k) none d = transact (stmt f >>= k) none d := by
      unfold transact; rw [heq]
    rw [htransact, transact_fails (regular_bind (regular_stmt f) hk)]
    unfold Fails
    rw [heq]

/-- An insert that is not refused, and the rest of the program, without a fault. -/
theorem transact_inserted {f : δ → Except DbError (α × δ)} {dup : β} {k : α → Tx δ β} {d m d' : δ} {a : α} {b : β}
    (hf : f d = .ok (a, m)) (hk : Ok (k a) m b d') : transact (tryInsert (stmt f) dup k) none d = (.ok b, d') := by
  unfold Ok at hk
  unfold transact tryInsert
  rw [stmt_none, hf]
  simp only [hk, Bool.false_eq_true, if_false, reduceCtorEq]

/-- Without a fault a program of statements commits what it does. -/
theorem transact_eq_ok {t : Tx δ α} (ht : Regular t) {d d' : δ} {a : α} :
    transact t none d = (.ok a, d') ↔ Ok t d a d' := by
  constructor
  · intro h
    rcases transact_regular ht h with ⟨_, e, he⟩ | ⟨b, hb, hok⟩
    · cases he
    · cases hb; exact hok
  · intro h
    unfold Ok at h
    unfold transact
    rw [h]; rfl

theorem transact_error {t : Tx δ α} {budget : Option Nat} {d d' : δ} {e : DbError}
    (h : transact t budget d = (.error e, d')) : d' = d := by
  unfold transact at h
  split at h
  · split at h
    · simp at h
    · split at h
      · exact (Prod.mk.inj h).2.symm
      · simp at h
  · exact (Prod.mk.inj h).2.symm

theorem stmt_cases (f : δ → Except DbError (α × δ)) (d : δ) (budget : Option Nat) :
    (∃ s, stmt f ⟨d, false, budget⟩ = (.error .unavailable, s)) ∨
      (∃ e s, f d = .error e ∧ stmt f ⟨d, false, budget⟩ = (.error e, s)) ∨
      ∃ a m budget', f d = .ok (a, m) ∧ stmt f ⟨d, false, budget⟩ = (.ok a, ⟨m, false, budget'⟩) := by
  unfold stmt
  simp only [Bool.false_eq_true, if_false]
  by_cases hb : budget = some 0
  · rw [if_pos hb]; exact .inl ⟨_, rfl⟩
  · rw [if_neg hb]
    cases f d with
    | ok p => exact .inr (.inr ⟨p.1, p.2, _, rfl, rfl⟩)
    | error e => exact .inr (.inl ⟨e, _, rfl, rfl⟩)

theorem transact_two_error {f : δ → Except DbError (α × δ)} {g : α → δ → Except DbError (β × δ)}
    {budget : Option Nat} {d d' : δ} {e : DbError} (he : e ≠ .unavailable)
    (h : transact (stmt f >>= fun a => stmt (g a)) budget d = (.error e, d')) :
    f d = .error e ∨ ∃ a m, f d = .ok (a, m) ∧ g a m = .error e := by
  unfold transact at h
  rw [bind_apply] at h
  rcases stmt_cases f d budget with hf | hf | hf
  · obtain ⟨s, hs⟩ := hf
    rw [hs] at h
    exact absurd (Except.error.inj (Prod.mk.inj h).1).symm he
  · obtain ⟨e', s, hfd, hs⟩ := hf
    rw [hs] at h
    rw [hfd, Except.error.inj (Prod.mk.inj h).1]; exact .inl rfl
  · obtain ⟨a, m, budget', hfd, hs⟩ := hf
    simp only [hs] at h
    rcases stmt_cases (g a) m budget' with hg | hg | hg
    · obtain ⟨s, hs⟩ := hg
      rw [hs] at h
      exact absurd (Except.error.inj (Prod.mk.inj h).1).symm he
    · obtain ⟨e', s, hgm, hs⟩ := hg
      rw [hs] at h
      exact .inr ⟨a, m, hfd, by rw [hgm, Except.error.inj (Prod.mk.inj h).1]⟩
    · obtain ⟨b, m', budget'', _, hs⟩ := hg
      simp only [hs, Bool.false_eq_true, if_false] at h
      split at h
      · exact absurd (Except.error.inj (Prod.mk.inj h).1).symm he
      · cases (Prod.mk.inj h).1

end Tx

end Lib
