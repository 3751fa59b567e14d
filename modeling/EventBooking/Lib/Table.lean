import Mathlib

/-!
# Tables with a primary key and a unique column

A table is a list of rows in insertion order. Its primary key and one further
column, which may be null, are unique; both facts are fields, so a table that
breaks them cannot be built and every operation returns one that keeps them.
-/

namespace Lib

structure Schema (ρ κ υ : Type) where
  key : ρ → κ
  unique : ρ → Option υ

structure Table {ρ κ υ : Type} (S : Schema ρ κ υ) where
  rows : List ρ
  key_nodup : (rows.map S.key).Nodup
  unique_nodup : (rows.filterMap S.unique).Nodup

namespace Table

variable {ρ κ υ : Type} {S : Schema ρ κ υ}

@[ext] theorem ext {t t' : Table S} (h : t.rows = t'.rows) : t = t' := by
  cases t; cases t'; cases h; rfl

def empty : Table S := ⟨[], List.nodup_nil, List.nodup_nil⟩

@[simp] theorem empty_rows : (empty : Table S).rows = [] := rfl

/-- The row violates no unique constraint of the table. -/
def Fresh (t : Table S) (r : ρ) : Prop :=
  S.key r ∉ t.rows.map S.key ∧ ∀ u, S.unique r = some u → u ∉ t.rows.filterMap S.unique

instance [DecidableEq κ] [DecidableEq υ] (t : Table S) (r : ρ) : Decidable (t.Fresh r) :=
  inferInstanceAs (Decidable (_ ∧ _))

theorem nodup_insert {t : Table S} {r : ρ} (h : t.Fresh r) :
    ((t.rows ++ [r]).map S.key).Nodup ∧ ((t.rows ++ [r]).filterMap S.unique).Nodup := by
  constructor
  · rw [List.map_append, List.map_singleton, List.nodup_append]
    refine ⟨t.key_nodup, List.nodup_singleton _, fun a ha b hb => ?_⟩
    rw [List.mem_singleton] at hb
    rintro rfl; exact h.1 (hb ▸ ha)
  · rw [List.filterMap_append]
    cases hu : S.unique r with
    | none => simpa [hu] using t.unique_nodup
    | some u =>
      simp only [List.filterMap_cons, hu, List.filterMap_nil, List.nodup_append]
      refine ⟨t.unique_nodup, List.nodup_singleton _, fun a ha b hb => ?_⟩
      rw [List.mem_singleton] at hb
      rintro rfl; exact h.2 u hu (hb ▸ ha)

def add (t : Table S) (r : ρ) (h : t.Fresh r) : Table S :=
  ⟨t.rows ++ [r], (nodup_insert h).1, (nodup_insert h).2⟩

@[simp] theorem add_rows (t : Table S) (r : ρ) (h : t.Fresh r) : (t.add r h).rows = t.rows ++ [r] := rfl

section
variable [DecidableEq κ] [DecidableEq υ]

/-- `INSERT`: nothing when a unique constraint is violated. -/
def insert (t : Table S) (r : ρ) : Option (Table S) :=
  if h : t.Fresh r then some (t.add r h) else none

theorem insert_eq_some {t t' : Table S} {r : ρ} :
    t.insert r = some t' ↔ ∃ h : t.Fresh r, t' = t.add r h := by
  unfold insert
  split
  · rename_i h
    constructor
    · intro e; exact ⟨h, (Option.some.inj e).symm⟩
    · intro hx
      obtain ⟨_, rfl⟩ := hx
      rfl
  · rename_i h
    constructor
    · intro e; cases e
    · intro hx
      obtain ⟨h', _⟩ := hx
      exact absurd h' h

theorem insert_rows {t t' : Table S} {r : ρ} (h : t.insert r = some t') : t'.rows = t.rows ++ [r] := by
  obtain ⟨_, rfl⟩ := insert_eq_some.mp h; rfl

theorem insert_ne {t t' : Table S} {r : ρ} (h : t.insert r = some t') : t' ≠ t := by
  rintro rfl
  have hlength := congrArg List.length (insert_rows h)
  simp at hlength

theorem insert_eq_none {t : Table S} {r : ρ} : t.insert r = none ↔ ¬ t.Fresh r := by
  unfold insert; split <;> simp_all

end

theorem key_inj {t : Table S} {r r' : ρ} (h : r ∈ t.rows) (h' : r' ∈ t.rows) (e : S.key r = S.key r') :
    r = r' := List.inj_on_of_nodup_map t.key_nodup h h' e

section
variable [DecidableEq κ]

def find (t : Table S) (k : κ) : Option ρ := t.rows.find? fun r => S.key r = k

theorem find_eq_some {t : Table S} {k : κ} {r : ρ} : t.find k = some r ↔ r ∈ t.rows ∧ S.key r = k := by
  unfold find
  constructor
  · intro h
    exact ⟨List.mem_of_find?_eq_some h, by simpa using List.find?_some h⟩
  · intro hx
    obtain ⟨hr, rfl⟩ := hx
    cases hf : t.rows.find? fun r' => S.key r' = S.key r with
    | none => simpa using List.find?_eq_none.mp hf r hr
    | some r' =>
      have hk : S.key r' = S.key r := by simpa using List.find?_some hf
      rw [key_inj (List.mem_of_find?_eq_some hf) hr hk]

theorem find_eq_none {t : Table S} {k : κ} : t.find k = none ↔ ∀ r ∈ t.rows, S.key r ≠ k := by
  unfold find; simp [List.find?_eq_none]

end

theorem unique_inj {t : Table S} {r r' : ρ} {u : υ} (h : r ∈ t.rows) (h' : r' ∈ t.rows)
    (e : S.unique r = some u) (e' : S.unique r' = some u) : r = r' := by
  have hn := t.unique_nodup
  revert h h' hn
  induction t.rows with
  | nil => intro h; cases h
  | cons x xs ih =>
    intro h h' hn
    have hsub : (xs.filterMap S.unique).Nodup := by
      rw [List.filterMap_cons] at hn
      split at hn
      · exact hn
      · exact (List.nodup_cons.mp hn).2
    have hmem : ∀ y, y ∈ xs → S.unique y = some u → S.unique x ≠ some u := by
      intro y hy hyu hxu
      rw [List.filterMap_cons_some hxu] at hn
      exact (List.nodup_cons.mp hn).1 (List.mem_filterMap.mpr ⟨y, hy, hyu⟩)
    rcases List.mem_cons.mp h with hx | hx <;> rcases List.mem_cons.mp h' with hx' | hx'
    · exact hx.trans hx'.symm
    · exact absurd (hx ▸ e) (hmem r' hx' e')
    · exact absurd (hx' ▸ e') (hmem r hx e)
    · exact ih hx hx' hsub

theorem filter_unique_length [DecidableEq υ] (t : Table S) (u : υ) :
    (t.rows.filter fun r => decide (S.unique r = some u)).length ≤ 1 := by
  have hn : (t.rows.filter fun r => decide (S.unique r = some u)).Nodup := t.key_nodup.of_map.filter _
  have hm : ∀ x ∈ t.rows.filter fun r => decide (S.unique r = some u), x ∈ t.rows ∧ S.unique x = some u := by
    intro x hx
    simpa using List.mem_filter.mp hx
  match hf : t.rows.filter fun r => decide (S.unique r = some u), hn, hm with
  | [], _, _ => simp
  | [_], _, _ => simp
  | x :: y :: _, hn, hm =>
    obtain ⟨hx, hxu⟩ := hm x (by simp)
    obtain ⟨hy, hyu⟩ := hm y (by simp)
    rw [unique_inj hx hy hxu hyu] at hn
    simp at hn

theorem filter_key [DecidableEq κ] {t : Table S} {r : ρ} (hr : r ∈ t.rows) :
    (t.rows.filter fun x => decide (S.key x = S.key r)) = [r] := by
  classical
  have hp : (t.rows.filter fun x => decide (S.key x = S.key r)) = t.rows.filter (· = r) := by
    apply List.filter_congr; intro x hx
    rw [decide_eq_decide]
    exact ⟨key_inj hx hr, fun e => congrArg S.key e⟩
  have hn : t.rows.Nodup := t.key_nodup.of_map
  rw [hp, List.filter_eq, List.count_eq_one_of_mem hn hr]; rfl

/-! ## Updates and deletions -/

/-- `UPDATE … SET … WHERE`, for an assignment that leaves the unique columns alone. -/
def update (t : Table S) (p : ρ → Bool) (f : ρ → ρ) (hk : ∀ r, S.key (f r) = S.key r)
    (hu : ∀ r, S.unique (f r) = S.unique r) : Table S where
  rows := t.rows.map fun r => if p r then f r else r
  key_nodup := by
    have : (S.key ∘ fun r => if p r then f r else r) = S.key := by
      funext r; simp only [Function.comp]; split <;> simp [hk]
    rw [List.map_map, this]; exact t.key_nodup
  unique_nodup := by
    have : (S.unique ∘ fun r => if p r then f r else r) = S.unique := by
      funext r; simp only [Function.comp]; split <;> simp [hu]
    rw [List.filterMap_map, this]; exact t.unique_nodup

def delete (t : Table S) (p : ρ → Bool) : Table S where
  rows := t.rows.filter fun r => !p r
  key_nodup := (List.filter_sublist.map S.key).nodup t.key_nodup
  unique_nodup := (List.filter_sublist.filterMap S.unique).nodup t.unique_nodup

section
variable {p : ρ → Bool} {f : ρ → ρ} {hk : ∀ r, S.key (f r) = S.key r} {hu : ∀ r, S.unique (f r) = S.unique r}

@[simp] theorem update_rows (t : Table S) :
    (t.update p f hk hu).rows = t.rows.map fun r => if p r then f r else r := rfl

@[simp] theorem delete_rows (t : Table S) : (t.delete p).rows = t.rows.filter fun r => !p r := rfl

theorem mem_delete {t : Table S} {x : ρ} : x ∈ (t.delete p).rows ↔ x ∈ t.rows ∧ p x = false := by
  simp [List.mem_filter]

theorem update_eq_self {t : Table S} (h : ∀ r ∈ t.rows, p r = false) : t.update p f hk hu = t := by
  apply ext
  rw [update_rows]
  conv_rhs => rw [← List.map_id t.rows]
  exact List.map_congr_left fun r hr => by simp [h r hr]

end

section
variable [DecidableEq κ]

/-- `UPDATE … WHERE key = k` on the one row that has the key, to a row that keeps the unique columns. -/
def replace (t : Table S) (r' : ρ) (hu : ∀ r ∈ t.rows, S.key r = S.key r' → S.unique r' = S.unique r) :
    Table S where
  rows := t.rows.map fun r => if S.key r = S.key r' then r' else r
  key_nodup := by
    have : (S.key ∘ fun r => if S.key r = S.key r' then r' else r) = S.key := by
      funext r; simp only [Function.comp]; split <;> simp_all
    rw [List.map_map, this]; exact t.key_nodup
  unique_nodup := by
    rw [List.filterMap_map]
    have : t.rows.filterMap (S.unique ∘ fun r => if S.key r = S.key r' then r' else r) =
        t.rows.filterMap S.unique := by
      apply List.filterMap_congr; intro r hr
      simp only [Function.comp]
      split
      · rename_i h; exact hu r hr h
      · rfl
    rw [this]; exact t.unique_nodup

/-- `t'` is `t` with the row `r` turned into `r'` in place. -/
structure Replaced (t : Table S) (r r' : ρ) (t' : Table S) : Prop where
  mem : r ∈ t.rows
  key : S.key r' = S.key r
  rows : t'.rows = t.rows.map fun x => if S.key x = S.key r then r' else x

theorem replaced_replace {t : Table S} {r r' : ρ} {hu : ∀ r ∈ t.rows, S.key r = S.key r' → S.unique r' = S.unique r}
    (hr : r ∈ t.rows) (hk : S.key r' = S.key r) : t.Replaced r r' (t.replace r' hu) := by
  refine ⟨hr, hk, ?_⟩
  show t.rows.map _ = _
  rw [hk]

theorem replaced_self {t : Table S} {r : ρ} (hr : r ∈ t.rows) : t.Replaced r r t := by
  refine ⟨hr, rfl, ?_⟩
  conv_lhs => rw [← List.map_id t.rows]
  apply List.map_congr_left; intro x hx
  split
  · rename_i h; exact key_inj hx hr h
  · rfl

/-- An update whose condition holds of one row only replaces that row. -/
theorem replaced_update {t : Table S} {r : ρ} {p : ρ → Bool} {f : ρ → ρ} {hk : ∀ r, S.key (f r) = S.key r}
    {hu : ∀ r, S.unique (f r) = S.unique r} (hr : r ∈ t.rows) (hp : p r = true)
    (ho : ∀ x ∈ t.rows, p x = true → S.key x = S.key r) : t.Replaced r (f r) (t.update p f hk hu) := by
  refine ⟨hr, hk r, ?_⟩
  rw [update_rows]
  apply List.map_congr_left; intro x hx
  by_cases h : S.key x = S.key r
  · have := key_inj hx hr h; subst this
    rw [if_pos hp, if_pos rfl]
  · rw [if_neg (fun e => h (ho x hx e)), if_neg h]

section
variable {t t' : Table S} {r r' x : ρ} (h : t.Replaced r r' t')
include h

theorem Replaced.mem_iff : x ∈ t'.rows ↔ x = r' ∨ x ∈ t.rows ∧ S.key x ≠ S.key r := by
  rw [h.rows, List.mem_map]
  constructor
  · intro hx
    obtain ⟨y, hy, e⟩ := hx
    split at e
    · exact Or.inl e.symm
    · rename_i hne; exact Or.inr ⟨e ▸ hy, e ▸ hne⟩
  · intro hx
    rcases hx with rfl | hx
    · exact ⟨r, h.mem, if_pos rfl⟩
    · exact ⟨x, hx.1, if_neg hx.2⟩

theorem Replaced.keys : t'.rows.map S.key = t.rows.map S.key := by
  rw [h.rows, List.map_map]
  apply List.map_congr_left; intro y _
  simp only [Function.comp]
  split
  · rename_i e; rw [h.key, e]
  · rfl

end

end

/-! ## Reading a row by its key -/

section
variable [DecidableEq κ]

theorem find_congr {t t' : Table S} {k : κ} (h : ∀ x, S.key x = k → (x ∈ t.rows ↔ x ∈ t'.rows)) :
    t.find k = t'.find k := by
  cases hf : t.find k with
  | some r =>
    obtain ⟨hr, hk⟩ := find_eq_some.mp hf
    exact (find_eq_some.mpr ⟨(h r hk).mp hr, hk⟩).symm
  | none =>
    refine (find_eq_none.mpr fun r hr hk => ?_).symm
    exact find_eq_none.mp hf r ((h r hk).mpr hr) hk

theorem find_insert [DecidableEq υ] {t t' : Table S} {r : ρ} (h : t.insert r = some t') (k : κ) :
    t'.find k = if k = S.key r then some r else t.find k := by
  have hrows := insert_rows h
  split
  · rename_i e
    rw [find_eq_some, hrows]
    exact ⟨by simp, e.symm⟩
  · rename_i hne
    refine (find_congr fun x hx => ?_).symm
    rw [hrows, List.mem_append, List.mem_singleton]
    exact ⟨Or.inl, fun hm => hm.elim id fun e => absurd (e ▸ hx.symm) hne⟩

theorem find_before_insert [DecidableEq υ] {t t' : Table S} {r : ρ} (h : t.insert r = some t') :
    t.find (S.key r) = none := by
  obtain ⟨hf, _⟩ := insert_eq_some.mp h
  rw [find_eq_none]
  intro x hx e
  exact hf.1 (e ▸ List.mem_map_of_mem hx)

theorem Replaced.find {t t' : Table S} {r r' : ρ} (h : t.Replaced r r' t') (k : κ) :
    t'.find k = if k = S.key r then some r' else t.find k := by
  split
  · rename_i e
    rw [find_eq_some]
    exact ⟨h.mem_iff.mpr (Or.inl rfl), h.key.trans e.symm⟩
  · rename_i hne
    refine (find_congr fun x hx => ?_).symm
    rw [h.mem_iff]
    constructor
    · intro hm; exact Or.inr ⟨hm, fun e => hne (hx ▸ e)⟩
    · intro hm
      rcases hm with rfl | hm
      · exact absurd (hx.symm.trans h.key) hne
      · exact hm.1

end

/-! ## Another row type -/

section
variable {ρ' : Type} {S' : Schema ρ' κ υ}

theorem filterMap_key_sublist {f : ρ → Option ρ'} (hk : ∀ r r', f r = some r' → S'.key r' = S.key r) (l : List ρ) :
    ((l.filterMap f).map S'.key).Sublist (l.map S.key) := by
  induction l with
  | nil => exact .slnil
  | cons r l ih =>
    cases hf : f r with
    | none => rw [List.filterMap_cons_none hf]; exact ih.cons _
    | some r' => rw [List.filterMap_cons_some hf, List.map_cons, List.map_cons, hk r r' hf]; exact ih.cons_cons _

theorem filterMap_unique_sublist {f : ρ → Option ρ'} (hu : ∀ r r', f r = some r' → S'.unique r' = S.unique r)
    (l : List ρ) : ((l.filterMap f).filterMap S'.unique).Sublist (l.filterMap S.unique) := by
  induction l with
  | nil => exact .slnil
  | cons r l ih =>
    cases hf : f r with
    | none =>
      rw [List.filterMap_cons_none hf]
      exact ih.trans ((List.sublist_cons_self r l).filterMap _)
    | some r' =>
      rw [List.filterMap_cons_some hf, List.filterMap_cons, List.filterMap_cons, hu r r' hf]
      cases S.unique r with
      | none => exact ih
      | some u => exact ih.cons_cons _

/-- The table with another row type, without the rows `f` refuses. -/
def filterMap (t : Table S) (f : ρ → Option ρ') (hk : ∀ r r', f r = some r' → S'.key r' = S.key r)
    (hu : ∀ r r', f r = some r' → S'.unique r' = S.unique r) : Table S' :=
  ⟨t.rows.filterMap f, t.key_nodup.sublist (filterMap_key_sublist hk t.rows),
    t.unique_nodup.sublist (filterMap_unique_sublist hu t.rows)⟩

theorem find_filterMap [DecidableEq κ] {t : Table S} {f : ρ → Option ρ'}
    (hk : ∀ r r', f r = some r' → S'.key r' = S.key r) (hu : ∀ r r', f r = some r' → S'.unique r' = S.unique r)
    {k : κ} {r : ρ} {r' : ρ'} (h : t.find k = some r) (hf : f r = some r') :
    (t.filterMap f hk hu).find k = some r' := by
  obtain ⟨hr, hrk⟩ := find_eq_some.mp h
  exact find_eq_some.mpr ⟨List.mem_filterMap.mpr ⟨r, hr, hf⟩, (hk r r' hf).trans hrk⟩

end

/-! ## Sums over a column -/

def sum (t : Table S) (f : ρ → Int) : Int := (t.rows.map f).sum

theorem sum_congr {t : Table S} {f g : ρ → Int} (h : ∀ r ∈ t.rows, f r = g r) : t.sum f = t.sum g := by
  unfold sum; rw [List.map_congr_left h]

theorem sum_insert [DecidableEq κ] [DecidableEq υ] {t t' : Table S} {r : ρ} (h : t.insert r = some t')
    (f : ρ → Int) :
    t'.sum f = t.sum f + f r := by
  unfold sum; rw [insert_rows h]; simp

theorem sum_le {t : Table S} {f g : ρ → Int} (h : ∀ r ∈ t.rows, f r ≤ g r) : t.sum f ≤ t.sum g := by
  unfold sum
  revert h
  induction t.rows with
  | nil => intro _; simp
  | cons x xs ih =>
    intro h
    have h1 := h x List.mem_cons_self
    have h2 := ih fun r hr => h r (List.mem_cons_of_mem _ hr)
    simp only [List.map_cons, List.sum_cons]
    omega

theorem le_sum {t : Table S} {r : ρ} (hr : r ∈ t.rows) {f : ρ → Int} (h : ∀ x ∈ t.rows, 0 ≤ f x) :
    f r ≤ t.sum f := by
  unfold sum
  revert hr h
  induction t.rows with
  | nil => intro hr; cases hr
  | cons x xs ih =>
    intro hr h
    have h1 := h x List.mem_cons_self
    have hxs : ∀ y ∈ xs, 0 ≤ f y := fun y hy => h y (List.mem_cons_of_mem _ hy)
    have h0 : 0 ≤ (xs.map f).sum := List.sum_nonneg fun z hz => by
      obtain ⟨y, hy, rfl⟩ := List.mem_map.mp hz
      exact hxs y hy
    simp only [List.map_cons, List.sum_cons]
    rcases List.mem_cons.mp hr with rfl | hr
    · omega
    · have h2 := ih hr hxs
      omega

theorem sum_change {t : Table S} {r : ρ} (hr : r ∈ t.rows) {f g : ρ → Int}
    (h : ∀ x ∈ t.rows, x ≠ r → f x = g x) : t.sum g = t.sum f - f r + g r := by
  have hn : t.rows.Nodup := t.key_nodup.of_map
  unfold sum
  revert hr h hn
  induction t.rows with
  | nil => intro hr; cases hr
  | cons x xs ih =>
    intro hr h hn
    obtain ⟨hx, hn⟩ := List.nodup_cons.mp hn
    simp only [List.map_cons, List.sum_cons]
    rcases List.mem_cons.mp hr with hr | hr
    · subst hr
      have : xs.map f = xs.map g := by
        apply List.map_congr_left; intro y hy
        exact h y (List.mem_cons_of_mem _ hy) fun e => hx (e ▸ hy)
      rw [this]; omega
    · have h1 := h x List.mem_cons_self fun e => hx (e ▸ hr)
      have h2 := ih hr (fun y hy => h y (List.mem_cons_of_mem _ hy)) hn
      rw [h2, h1]; omega

theorem Replaced.sum [DecidableEq κ] {t t' : Table S} {r r' : ρ} (h : t.Replaced r r' t') (f : ρ → Int) :
    t'.sum f = t.sum f - f r + f r' := by
  have hs : t'.sum f = t.sum fun x => f (if S.key x = S.key r then r' else x) := by
    unfold Table.sum; rw [h.rows, List.map_map]; rfl
  rw [hs, sum_change h.mem (f := f)]
  · rw [if_pos rfl]
  · intro x hx hne
    rw [if_neg fun e => hne (key_inj hx h.mem e)]

end Table

end Lib
