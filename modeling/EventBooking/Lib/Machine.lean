import Mathlib

/-!
# Labelled machines and their runs

A machine says which labels can happen in a state and what state each leaves.
Everything a run does by choice (which message is delivered, which identifier
is drawn, what the clock reads) is in its labels, so a run is a list of labels
and deleting a step is deleting a label.
-/

namespace Lib

theorem guard_eq_some {α : Type} {c : Prop} [Decidable c] {a b : α} :
    (if c then some a else none) = some b ↔ c ∧ a = b := by
  rw [Option.ite_none_right_eq_some, Option.some.injEq]

structure Machine (σ ℓ : Type) where
  start : σ → Prop
  exec : σ → ℓ → Option σ

namespace Machine

variable {σ ℓ : Type}

def run (M : Machine σ ℓ) : σ → List ℓ → Option σ
  | s, [] => some s
  | s, l :: ls => (M.exec s l).bind fun s' => M.run s' ls

/-- Every step of the run meets `C` in the state it is taken in. -/
def Meets (M : Machine σ ℓ) (C : σ → ℓ → Prop) : σ → List ℓ → Prop
  | _, [] => True
  | s, l :: ls => C s l ∧ ∀ s', M.exec s l = some s' → M.Meets C s' ls

inductive ReachBy (M : Machine σ ℓ) (C : σ → ℓ → Prop) : σ → Prop
  | start {s : σ} : M.start s → ReachBy M C s
  | step {s s' : σ} {l : ℓ} : ReachBy M C s → C s l → M.exec s l = some s' → ReachBy M C s'

def Reach (M : Machine σ ℓ) : σ → Prop := M.ReachBy fun _ _ => True

variable {M : Machine σ ℓ} {C : σ → ℓ → Prop}

@[simp] theorem run_nil (s : σ) : M.run s [] = some s := rfl

theorem run_cons_some {s s' : σ} {l : ℓ} {ls : List ℓ} :
    M.run s (l :: ls) = some s' ↔ ∃ m, M.exec s l = some m ∧ M.run m ls = some s' := by
  simp [run, Option.bind_eq_some_iff]

theorem run_append {s : σ} {ls ls' : List ℓ} :
    M.run s (ls ++ ls') = (M.run s ls).bind fun s' => M.run s' ls' := by
  induction ls generalizing s with
  | nil => rfl
  | cons l ls ih =>
    simp only [List.cons_append, run, Option.bind_assoc]
    congr 1; funext s'; exact ih

/-! ## Invariants -/

/-- A property of the first states that every allowed step keeps holds in
every reached state; a step may use that its source is itself reached. -/
theorem ReachBy.inv {I : σ → Prop} (h0 : ∀ s, M.start s → I s)
    (hs : ∀ s l s', M.ReachBy C s → I s → C s l → M.exec s l = some s' → I s')
    {s : σ} (h : M.ReachBy C s) : I s := by
  induction h with
  | start h => exact h0 _ h
  | step hr hc he ih => exact hs _ _ _ hr ih hc he

theorem Reach.inv {I : σ → Prop} (h0 : ∀ s, M.start s → I s)
    (hs : ∀ s l s', M.Reach s → I s → M.exec s l = some s' → I s') {s : σ} (h : M.Reach s) : I s :=
  ReachBy.inv h0 (fun s l s' hr hi _ he => hs s l s' hr hi he) h

theorem Reach.step {s s' : σ} {l : ℓ} (h : M.Reach s) (he : M.exec s l = some s') : M.Reach s' :=
  ReachBy.step h trivial he

theorem ReachBy.reach {s : σ} (h : M.ReachBy C s) : M.Reach s := by
  induction h with
  | start h => exact .start h
  | step _ _ he ih => exact ih.step he

theorem meets_of_forall {ls : List ℓ} (h : ∀ l ∈ ls, ∀ s, C s l) (s : σ) : M.Meets C s ls := by
  induction ls generalizing s with
  | nil => trivial
  | cons l ls ih =>
    exact ⟨h l List.mem_cons_self s, fun s' _ => ih (fun x hx => h x (List.mem_cons_of_mem _ hx)) s'⟩

theorem meets_cons {s s' : σ} {l : ℓ} {ls : List ℓ} (he : M.exec s l = some s') :
    M.Meets C s (l :: ls) ↔ C s l ∧ M.Meets C s' ls :=
  and_congr_right fun _ => ⟨fun hm => hm s' he, fun hm _ he' => Option.some.inj (he.symm.trans he') ▸ hm⟩

theorem meets_append {s m : σ} {ls ls' : List ℓ} (hr : M.run s ls = some m) :
    M.Meets C s (ls ++ ls') ↔ M.Meets C s ls ∧ M.Meets C m ls' := by
  induction ls generalizing s with
  | nil =>
    simp only [run_nil, Option.some.injEq] at hr
    subst hr
    exact ⟨fun h => ⟨trivial, h⟩, fun h => h.2⟩
  | cons l ls ih =>
    obtain ⟨u, he, hr⟩ := run_cons_some.mp hr
    rw [List.cons_append, meets_cons he, meets_cons he, ih hr, and_assoc]

def allowed (M : Machine σ ℓ) (test : σ → ℓ → Bool) : σ → List ℓ → Bool
  | _, [] => true
  | s, l :: ls => test s l && (M.exec s l).all fun s' => M.allowed test s' ls

/-- `meets_of_allowed`, where the test says all there is to say in the states that have `I`. -/
theorem meets_of_allowed_inv {I : σ → Prop} {test : σ → ℓ → Bool} (ht : ∀ s l, I s → test s l = true → C s l)
    (hi : ∀ s l s', I s → test s l = true → M.exec s l = some s' → I s') {s : σ} {ls : List ℓ} (h0 : I s)
    (h : M.allowed test s ls = true) : M.Meets C s ls := by
  induction ls generalizing s with
  | nil => trivial
  | cons l ls ih =>
    obtain ⟨hl, hrest⟩ := Bool.and_eq_true_iff.mp h
    refine ⟨ht s l h0 hl, fun s' he => ih (hi s l s' h0 hl he) ?_⟩
    rw [he] at hrest; exact hrest

theorem meets_of_allowed {test : σ → ℓ → Bool} (ht : ∀ s l, test s l = true → C s l) {s : σ} {ls : List ℓ}
    (h : M.allowed test s ls = true) : M.Meets C s ls :=
  meets_of_allowed_inv (I := fun _ => True) (fun s l _ => ht s l) (fun _ _ _ _ _ _ => trivial) trivial h

theorem ReachBy.run {s s' : σ} {ls : List ℓ} (h : M.ReachBy C s) (hm : M.Meets C s ls)
    (hr : M.run s ls = some s') : M.ReachBy C s' := by
  induction ls generalizing s with
  | nil => simp only [run_nil, Option.some.injEq] at hr; exact hr ▸ h
  | cons l ls ih =>
    obtain ⟨m, he, hr⟩ := run_cons_some.mp hr
    exact ih (.step h hm.1 he) (hm.2 m he) hr

theorem Reach.run {s s' : σ} {ls : List ℓ} (h : M.Reach s) (hr : M.run s ls = some s') : M.Reach s' := by
  induction ls generalizing s with
  | nil => simp only [run_nil, Option.some.injEq] at hr; exact hr ▸ h
  | cons l ls ih =>
    obtain ⟨m, he, hr⟩ := run_cons_some.mp hr
    exact ih (h.step he) hr

/-- A relation between the first and the last state of a run, from a relation
that is reflexive, transitive and kept by single steps from reached states. -/
theorem run_rel {R : σ → σ → Prop} (hrefl : ∀ s, R s s) (htrans : ∀ a b c, R a b → R b c → R a c)
    (hstep : ∀ s l s', M.Reach s → M.exec s l = some s' → R s s')
    {s s' : σ} {ls : List ℓ} (h : M.Reach s) (hr : M.run s ls = some s') : R s s' := by
  induction ls generalizing s with
  | nil => simp only [run_nil, Option.some.injEq] at hr; exact hr ▸ hrefl s
  | cons l ls ih =>
    obtain ⟨m, he, hr⟩ := run_cons_some.mp hr
    exact htrans _ _ _ (hstep _ _ _ h he) (ih (h.step he) hr)

/-- What each step leaves alone while it meets `C`, and brings about when it does not,
holds at the end of a run exactly when it held before or a step did not meet `C`. -/
theorem run_violates {P : σ → Prop}
    (hstep : ∀ s l s', M.Reach s → M.exec s l = some s' → (P s' ↔ P s ∨ ¬ C s l)) {s s' : σ} {ls : List ℓ}
    (h : M.Reach s) (hr : M.run s ls = some s') : P s' ↔ P s ∨ ¬ M.Meets C s ls := by
  induction ls generalizing s with
  | nil =>
    simp only [run_nil, Option.some.injEq] at hr
    subst hr
    exact ⟨.inl, fun h => h.resolve_right fun hn => hn trivial⟩
  | cons l ls ih =>
    obtain ⟨m, he, hr⟩ := run_cons_some.mp hr
    rw [ih (h.step he) hr, hstep s l m h he, meets_cons he, or_assoc, not_and_or]

/-- What a step keeps exactly when it meets `C` holds all along a run exactly when all its steps meet `C`. -/
theorem prefixes_iff_meets {P : σ → Prop}
    (hstep : ∀ s l s', M.Reach s → P s → M.exec s l = some s' → (P s' ↔ C s l)) {s s' : σ} {ls : List ℓ}
    (h : M.Reach s) (hr : M.run s ls = some s') (hs : P s) :
    (∀ pre m, pre <+: ls → M.run s pre = some m → P m) ↔ M.Meets C s ls := by
  induction ls generalizing s with
  | nil =>
    refine iff_of_true (fun pre m hp hm => ?_) trivial
    obtain rfl := List.prefix_nil.mp hp
    simp only [run_nil, Option.some.injEq] at hm
    exact hm ▸ hs
  | cons l ls ih =>
    obtain ⟨u, he, hrest⟩ := run_cons_some.mp hr
    rw [meets_cons he]
    constructor
    · intro hall
      have hu : P u :=
        hall [l] u (List.cons_prefix_cons.mpr ⟨rfl, List.nil_prefix⟩) (run_cons_some.mpr ⟨u, he, rfl⟩)
      refine ⟨(hstep s l u h hs he).mp hu, (ih (h.step he) hrest hu).mp fun pre m hp hm => ?_⟩
      exact hall (l :: pre) m (List.cons_prefix_cons.mpr ⟨rfl, hp⟩) (run_cons_some.mpr ⟨u, he, hm⟩)
    · intro hx pre m hp hm
      obtain ⟨hl, hls⟩ := hx
      have hu := (hstep s l u h hs he).mpr hl
      cases pre with
      | nil =>
        simp only [run_nil, Option.some.injEq] at hm
        exact hm ▸ hs
      | cons l' pre =>
        obtain ⟨rfl, hpre⟩ := List.cons_prefix_cons.mp hp
        obtain ⟨u', he', hm'⟩ := run_cons_some.mp hm
        obtain rfl := Option.some.inj (he.symm.trans he')
        exact (ih (h.step he) hrest hu).mpr hls pre m hpre hm'

/-- A machine that can always take one of its `P` steps until it is done, each
of which lowers a measure, reaches a state where it is done. -/
theorem finishes {I done : σ → Prop} {P : ℓ → Prop} (measure : σ → Nat)
    (h : ∀ s, I s → ¬ done s → ∃ l s', P l ∧ M.exec s l = some s' ∧ I s' ∧ measure s' < measure s) {s : σ}
    (hi : I s) :
    ∃ ls s', (∀ l ∈ ls, P l) ∧ M.run s ls = some s' ∧ done s' := by
  by_cases hd : done s
  · exact ⟨[], s, fun l hl => (by cases hl), rfl, hd⟩
  · obtain ⟨l, m, hl, he, hm, hlt⟩ := h s hi hd
    obtain ⟨ls, s', hls, hr, hdone⟩ := finishes measure h hm
    refine ⟨l :: ls, s', fun x hx => ?_, run_cons_some.mpr ⟨m, he, hr⟩, hdone⟩
    rcases List.mem_cons.mp hx with rfl | hx
    · exact hl
    · exact hls x hx
termination_by measure s

/-- `finishes`, where which steps are allowed depends on the state they are taken in. -/
theorem completes {I done : σ → Prop} (measure : σ → Nat)
    (h : ∀ s, I s → ¬ done s → ∃ l s', C s l ∧ M.exec s l = some s' ∧ I s' ∧ measure s' < measure s)
    {s : σ} (hi : I s) :
    ∃ ls s', M.Meets C s ls ∧ M.run s ls = some s' ∧ I s' ∧ done s' := by
  by_cases hd : done s
  · exact ⟨[], s, trivial, rfl, hi, hd⟩
  · obtain ⟨l, m, hl, he, hm, hlt⟩ := h s hi hd
    obtain ⟨ls, s', hls, hr, hi', hdone⟩ := completes measure h hm
    exact ⟨l :: ls, s', (meets_cons he).mpr ⟨hl, hls⟩, run_cons_some.mpr ⟨m, he, hr⟩, hi', hdone⟩
termination_by measure s

/-! ## Simulation -/

def trace {α : Type} (M : Machine σ ℓ) (obs : σ → ℓ → σ → Option α) : σ → List ℓ → List α
  | _, [] => []
  | s, l :: ls => (M.exec s l).elim [] fun s' => (obs s l s').toList ++ M.trace obs s' ls

/-- An invariant of the state and of what the run has shown so far. -/
theorem run_traced {α : Type} {obs : σ → ℓ → σ → Option α} {I : σ → List α → Prop}
    (hstep : ∀ s l s' log, M.ReachBy C s → C s l → M.exec s l = some s' → I s log →
      I s' (log ++ (obs s l s').toList))
    {s s' : σ} {ls : List ℓ} {log : List α} (h : M.ReachBy C s) (hm : M.Meets C s ls) (hr : M.run s ls = some s')
    (hi : I s log) : I s' (log ++ M.trace obs s ls) := by
  induction ls generalizing s log with
  | nil =>
    simp only [run_nil, Option.some.injEq] at hr
    unfold trace
    rw [List.append_nil, ← hr]; exact hi
  | cons l ls ih =>
    obtain ⟨m, he, hr⟩ := run_cons_some.mp hr
    have := ih (.step h hm.1 he) (hm.2 m he) hr (hstep s l m log h hm.1 he hi)
    unfold trace
    rw [he, Option.elim_some, ← List.append_assoc]; exact this

/-- Each step is matched by what it shows, or by nothing; so is each run. -/
theorem run_simulated {τ α : Type} {N : Machine τ α} {obs : σ → ℓ → σ → Option α} {R : σ → τ → Prop}
    (hstep : ∀ s l s' t, M.ReachBy C s → C s l → M.exec s l = some s' → R s t →
      ∃ t', N.run t (obs s l s').toList = some t' ∧ R s' t')
    {s s' : σ} {t : τ} {ls : List ℓ} (h : M.ReachBy C s) (hm : M.Meets C s ls) (hr : M.run s ls = some s')
    (ht : R s t) :
    ∃ t', N.run t (M.trace obs s ls) = some t' ∧ R s' t' := by
  have hnil : ∃ t', N.run t ([] : List α) = some t' ∧ R s t' := ⟨t, rfl, ht⟩
  refine run_traced (I := fun s log => ∃ t', N.run t log = some t' ∧ R s t') ?_ h hm hr hnil
  rintro s l s' log hs hc he ⟨u, hu, hR⟩
  obtain ⟨t', ht', hR'⟩ := hstep s l s' u hs hc he hR
  refine ⟨t', ?_, hR'⟩
  rw [run_append, hu]; exact ht'

/-! ## Steps that change nothing -/

/-- The run without the steps that `redundant` marks in the state they are taken in. -/
def prune (M : Machine σ ℓ) (redundant : σ → ℓ → Bool) : σ → List ℓ → List ℓ
  | _, [] => []
  | s, l :: ls =>
    let rest := (M.exec s l).elim ls fun s' => M.prune redundant s' ls
    if redundant s l then rest else l :: rest

theorem run_prune {redundant : σ → ℓ → Bool}
    (h : ∀ s l s', redundant s l = true → M.exec s l = some s' → s' = s) {s s' : σ} {ls : List ℓ}
    (hr : M.run s ls = some s') : M.run s (M.prune redundant s ls) = some s' := by
  induction ls generalizing s with
  | nil => exact hr
  | cons l ls ih =>
    obtain ⟨m, he, hr⟩ := run_cons_some.mp hr
    have hrest := ih hr
    unfold prune
    rw [he, Option.elim_some]
    by_cases hl : redundant s l = true
    · rw [if_pos hl, ← h s l m hl he]; exact hrest
    · rw [if_neg hl]; exact run_cons_some.mpr ⟨m, he, hrest⟩

/-! ## The step that makes a difference -/

structure Passes (M : Machine σ ℓ) (s : σ) (ls : List ℓ) (s' : σ) (a : σ) (l : ℓ) (b : σ) : Prop where
  split : ∃ pre post, ls = pre ++ l :: post ∧ M.run s pre = some a ∧ M.run b post = some s'
  exec : M.exec a l = some b

theorem Passes.reach {s s' a b : σ} {l : ℓ} {ls : List ℓ} (h : M.Passes s ls s' a l b) (hr : M.ReachBy C s)
    (hm : M.Meets C s ls) : M.ReachBy C a ∧ C a l := by
  obtain ⟨pre, post, rfl, hpre, hpost⟩ := h.split
  obtain ⟨hbefore, hafter⟩ := (meets_append hpre).mp hm
  exact ⟨hr.run hbefore hpre, hafter.1⟩

/-- What does not hold at the start of a run and holds at its end is established by one of its steps. -/
theorem run_turns {P : σ → Prop} {s s' : σ} {ls : List ℓ} (hr : M.run s ls = some s') (h0 : ¬ P s) (h1 : P s') :
    ∃ a l b, M.Passes s ls s' a l b ∧ ¬ P a ∧ P b := by
  induction ls generalizing s with
  | nil => simp only [run_nil, Option.some.injEq] at hr; exact absurd (hr ▸ h1) h0
  | cons l ls ih =>
    obtain ⟨m, he, hr⟩ := run_cons_some.mp hr
    by_cases hm : P m
    · exact ⟨s, l, m, ⟨⟨[], ls, rfl, rfl, hr⟩, he⟩, h0, hm⟩
    · obtain ⟨a, l', b, hp, ha, hb⟩ := ih hr hm
      obtain ⟨pre, post, rfl, hpre, hpost⟩ := hp.split
      exact ⟨a, l', b, ⟨⟨l :: pre, post, rfl, run_cons_some.mpr ⟨m, he, hpre⟩, hpost⟩, hp.exec⟩, ha, hb⟩

/-! ## States met one after another -/

def Tour (M : Machine σ ℓ) (C : σ → ℓ → Prop) : σ → List σ → Prop
  | _, [] => True
  | s, s' :: states => (∃ ls, M.Meets C s ls ∧ M.run s ls = some s') ∧ M.Tour C s' states

theorem meets_rel {R : σ → σ → Prop} (hrefl : ∀ s, R s s) (htrans : ∀ a b c, R a b → R b c → R a c)
    (hstep : ∀ s l s', M.ReachBy C s → C s l → M.exec s l = some s' → R s s') {s s' : σ} {ls : List ℓ}
    (h : M.ReachBy C s) (hm : M.Meets C s ls) (hr : M.run s ls = some s') : R s s' := by
  induction ls generalizing s with
  | nil =>
    simp only [run_nil, Option.some.injEq] at hr
    rw [← hr]; exact hrefl s
  | cons l ls ih =>
    obtain ⟨m, he, hr⟩ := run_cons_some.mp hr
    exact htrans s m s' (hstep s l m h hm.1 he) (ih (.step h hm.1 he) (hm.2 m he) hr)

/-- What every step keeps between two states holds between any two that are met. -/
theorem Tour.rel {R : σ → σ → Prop} (hrefl : ∀ s, R s s) (htrans : ∀ a b c, R a b → R b c → R a c)
    (hstep : ∀ s l s', M.ReachBy C s → C s l → M.exec s l = some s' → R s s') {s : σ} {states : List σ}
    (h : M.ReachBy C s) (ht : M.Tour C s states) : states.Pairwise R ∧ ∀ s' ∈ states, M.ReachBy C s' ∧ R s s' := by
  induction states generalizing s with
  | nil => exact ⟨.nil, fun _ hs => (by cases hs)⟩
  | cons m states ih =>
    obtain ⟨⟨ls, hm, hr⟩, ht⟩ := ht
    have hreach := h.run hm hr
    have hrel := meets_rel hrefl htrans hstep h hm hr
    obtain ⟨hpair, hall⟩ := ih hreach ht
    refine ⟨List.pairwise_cons.mpr ⟨fun s' hs => (hall s' hs).2, hpair⟩, fun s' hs => ?_⟩
    rcases List.mem_cons.mp hs with rfl | hs
    · exact ⟨hreach, hrel⟩
    · exact ⟨(hall s' hs).1, htrans s m s' hrel (hall s' hs).2⟩

end Machine

end Lib
