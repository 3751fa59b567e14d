import Mathlib

/-!
# Counting in fixed windows

A slot counts hits until its window ends; the first hit from then on opens a new
window of W time units. The bounds hold for every list of times that does not go back.
-/

namespace Lib

namespace FixedWindow

structure Slot where
  count : Nat
  resetAt : Int
deriving DecidableEq, Repr

def live (now : Int) (s : Option Slot) : Option Slot := s.filter fun s => now < s.resetAt

def hit (W now : Int) (s : Option Slot) : Slot :=
  match live now s with
  | none => ⟨1, now + W⟩
  | some s => ⟨s.count + 1, s.resetAt⟩

structure Hit where
  time : Int
  slot : Slot
deriving DecidableEq, Repr

def hits (W : Int) : Option Slot → List Int → List Hit
  | _, [] => []
  | s, t :: ts => ⟨t, hit W t s⟩ :: hits W (some (hit W t s)) ts

theorem live_eq_some {now : Int} {s : Option Slot} {x : Slot} :
    live now s = some x ↔ s = some x ∧ now < x.resetAt := by
  unfold live; rw [Option.filter_eq_some_iff, decide_eq_true_eq]

theorem live_some_of_lt {now : Int} {x : Slot} (h : now < x.resetAt) : live now (some x) = some x :=
  live_eq_some.mpr ⟨rfl, h⟩

theorem live_some_of_le {now : Int} {x : Slot} (h : x.resetAt ≤ now) : live now (some x) = none := by
  unfold live; rw [Option.filter_some_neg]; simpa using h

theorem live_live {now later : Int} (h : now ≤ later) (s : Option Slot) :
    live later (live now s) = live later s := by
  apply Option.ext; intro x
  rw [live_eq_some, live_eq_some, live_eq_some]
  constructor
  · rintro ⟨⟨hs, _⟩, hl⟩; exact ⟨hs, hl⟩
  · rintro ⟨hs, hl⟩; exact ⟨⟨hs, by omega⟩, hl⟩

theorem live_mono {now later : Int} (h : now ≤ later) {s s' : Option Slot} (e : live now s = live now s') :
    live later s = live later s' := by
  rw [← live_live h s, e, live_live h s']

theorem hit_congr {W now : Int} {s s' : Option Slot} (h : live now s = live now s') :
    hit W now s = hit W now s' := by
  unfold hit; rw [h]

theorem hit_cases (W now : Int) (s : Option Slot) :
    (live now s = none ∧ hit W now s = ⟨1, now + W⟩) ∨
      ∃ x, s = some x ∧ now < x.resetAt ∧ hit W now s = ⟨x.count + 1, x.resetAt⟩ := by
  cases hl : live now s with
  | none => exact .inl ⟨rfl, by unfold hit; rw [hl]⟩
  | some x =>
    obtain ⟨hs, hx⟩ := live_eq_some.mp hl
    exact .inr ⟨x, hs, hx, by unfold hit; rw [hl]⟩

theorem hit_pos (W now : Int) (s : Option Slot) : 1 ≤ (hit W now s).count := by
  rcases hit_cases W now s with ⟨_, h⟩ | ⟨x, _, _, h⟩
  · rw [h]
  · rw [h]; exact Nat.succ_pos _

def Fits (W now : Int) (s : Option Slot) : Prop := ∀ x, s = some x → x.resetAt ≤ now + W

theorem hit_inside {W now : Int} (hW : 1 ≤ W) {s : Option Slot} (hs : Fits W now s) :
    now < (hit W now s).resetAt ∧ (hit W now s).resetAt ≤ now + W := by
  rcases hit_cases W now s with ⟨_, h⟩ | ⟨x, hx, hlt, h⟩
  · rw [h]
    show now < now + W ∧ now + W ≤ now + W
    omega
  · rw [h]; exact ⟨hlt, hs x hx⟩

theorem hits_inside {W : Int} (hW : 1 ≤ W) {ts : List Int} (hts : ts.Pairwise (· ≤ ·)) {s : Option Slot}
    (hs : ∀ t ∈ ts, Fits W t s) {h : Hit} (hh : h ∈ hits W s ts) :
    h.time < h.slot.resetAt ∧ h.slot.resetAt ≤ h.time + W := by
  induction ts generalizing s with
  | nil => cases hh
  | cons t ts ih =>
    obtain ⟨ht, hts⟩ := List.pairwise_cons.mp hts
    have hin := hit_inside hW (hs t List.mem_cons_self)
    rcases List.mem_cons.mp hh with rfl | hh
    · exact hin
    · refine ih hts (fun t' ht' x hx => ?_) hh
      have := ht t' ht'
      cases hx
      omega

theorem hits_pos {W : Int} {ts : List Int} {s : Option Slot} {h : Hit} (hh : h ∈ hits W s ts) :
    1 ≤ h.slot.count := by
  induction ts generalizing s with
  | nil => cases hh
  | cons t ts ih =>
    rcases List.mem_cons.mp hh with rfl | hh
    · exact hit_pos W t s
    · exact ih hh

/-- Two hits, the first before the second: in one window, or in windows that do not overlap. -/
def Later (W : Int) (a b : Slot) : Prop :=
  (b.resetAt = a.resetAt ∧ a.count < b.count) ∨ a.resetAt + W ≤ b.resetAt

theorem Later.trans {W : Int} (hW : 1 ≤ W) {a b c : Slot} (h : Later W a b) (h' : Later W b c) : Later W a c := by
  unfold Later at *
  omega

theorem hit_later (W now : Int) (x : Slot) : Later W x (hit W now (some x)) := by
  rcases hit_cases W now (some x) with ⟨hl, h⟩ | ⟨y, hy, _, h⟩
  · rw [h]
    refine .inr ?_
    by_cases hlt : now < x.resetAt
    · rw [live_some_of_lt hlt] at hl; cases hl
    · show x.resetAt + W ≤ now + W
      omega
  · cases hy
    rw [h]; exact .inl ⟨rfl, Nat.lt_succ_self _⟩

theorem hits_later {W : Int} (hW : 1 ≤ W) {ts : List Int} {x : Slot} {h : Hit} (hh : h ∈ hits W (some x) ts) :
    Later W x h.slot := by
  induction ts generalizing x with
  | nil => cases hh
  | cons t ts ih =>
    rcases List.mem_cons.mp hh with rfl | hh
    · exact hit_later W t x
    · exact (hit_later W t x).trans hW (ih hh)

theorem hits_pairwise {W : Int} (hW : 1 ≤ W) (s : Option Slot) (ts : List Int) :
    (hits W s ts).Pairwise fun a b => Later W a.slot b.slot := by
  induction ts generalizing s with
  | nil => exact List.Pairwise.nil
  | cons t ts ih => exact List.pairwise_cons.mpr ⟨fun h hh => hits_later hW hh, ih _⟩

/-- Two windows are the same or do not overlap. -/
def Apart (W : Int) (a b : Hit) : Prop :=
  a.slot.resetAt = b.slot.resetAt ∨ a.slot.resetAt + W ≤ b.slot.resetAt ∨ b.slot.resetAt + W ≤ a.slot.resetAt

theorem Later.apart {W : Int} {a b : Hit} (h : Later W a.slot b.slot) : Apart W a b :=
  h.elim (fun e => .inl e.1.symm) fun e => .inr (.inl e)

theorem Apart.symm {W : Int} {a b : Hit} (h : Apart W a b) : Apart W b a := by
  unfold Apart at *
  omega

theorem hits_apart {W : Int} (hW : 1 ≤ W) (s : Option Slot) (ts : List Int) {a b : Hit} (ha : a ∈ hits W s ts)
    (hb : b ∈ hits W s ts) : Apart W a b := by
  have hp := (hits_pairwise hW s ts).imp fun {x y} h => Later.apart (a := x) (b := y) h
  have hflip : (hits W s ts).Pairwise (flip (Apart W)) := hp.imp Apart.symm
  exact hp.forall_of_forall_of_flip (fun _ _ => .inl rfl) hflip ha hb

/-! ## How many hits a window lets through -/

/-- Of the hits in windows that end within W units, at most M have a count up to M. -/
theorem admitted_band {W : Int} (hW : 1 ≤ W) (s : Option Slot) (ts : List Int) (M : Nat) (x : Int) :
    ((hits W s ts).countP fun h => h.slot.count ≤ M ∧ x < h.slot.resetAt ∧ h.slot.resetAt ≤ x + W) ≤ M := by
  rw [List.countP_eq_length_filter]
  set l := (hits W s ts).filter fun h => h.slot.count ≤ M ∧ x < h.slot.resetAt ∧ h.slot.resetAt ≤ x + W with hl
  have hmem : ∀ h ∈ l, (1 ≤ h.slot.count ∧ h.slot.count ≤ M) ∧ x < h.slot.resetAt ∧ h.slot.resetAt ≤ x + W := by
    intro h hh
    obtain ⟨hh, hp⟩ := List.mem_filter.mp (hl ▸ hh)
    have hp := of_decide_eq_true hp
    exact ⟨⟨hits_pos hh, hp.1⟩, hp.2⟩
  have hlt : (l.map fun h => h.slot.count).Pairwise (· < ·) := by
    rw [List.pairwise_map]
    refine List.Pairwise.imp_of_mem (fun {a b} ha hb hab => ?_) ((hits_pairwise hW s ts).filter _)
    have ha := (hmem a (hl ▸ ha)).2
    have hb := (hmem b (hl ▸ hb)).2
    rcases hab with hab | hab
    · exact hab.2
    · omega
  have hn : (l.map fun h => h.slot.count).Nodup := hlt.imp Nat.ne_of_lt
  have hsub : (l.map fun h => h.slot.count).toFinset ⊆ Finset.Icc 1 M := by
    intro c hc
    obtain ⟨h, hh, rfl⟩ := List.mem_map.mp (List.mem_toFinset.mp hc)
    exact Finset.mem_Icc.mpr (hmem h hh).1
  calc l.length = (l.map fun h => h.slot.count).length := (List.length_map _).symm
    _ = (l.map fun h => h.slot.count).toFinset.card := (List.toFinset_card_of_nodup hn).symm
    _ ≤ (Finset.Icc 1 M).card := Finset.card_le_card hsub
    _ = M := by rw [Nat.card_Icc]; omega

theorem admitted_window {W : Int} (hW : 1 ≤ W) {ts : List Int} (hts : ts.Pairwise (· ≤ ·)) (M : Nat) {a : Hit}
    (ha : a ∈ hits W none ts) : ((hits W none ts).countP fun h =>
      h.slot.count ≤ M ∧ a.slot.resetAt - W ≤ h.time ∧ h.time < a.slot.resetAt) ≤ M := by
  refine (List.countP_mono_left fun h hh hp => ?_).trans (admitted_band hW none ts M (a.slot.resetAt - W))
  have hp := of_decide_eq_true hp
  have hin := hits_inside hW hts (fun _ _ x hx => by cases hx) hh
  rcases hits_apart hW none ts ha hh with e | e | e
  · exact decide_eq_true ⟨hp.1, by omega, by omega⟩
  · omega
  · exact decide_eq_true ⟨hp.1, by omega, by omega⟩

theorem countP_le_add {α : Type} {p q r : α → Bool} (l : List α)
    (h : ∀ a ∈ l, p a = true → q a = true ∨ r a = true) :
    l.countP p ≤ l.countP q + l.countP r := by
  induction l with
  | nil => exact Nat.zero_le _
  | cons a l ih =>
    have hl := ih fun b hb => h b (List.mem_cons_of_mem _ hb)
    have ha := h a List.mem_cons_self
    simp only [List.countP_cons]
    by_cases hp : p a = true
    · rcases ha hp with e | e
      · rw [if_pos hp, if_pos e]; omega
      · rw [if_pos hp, if_pos e]; omega
    · rw [if_neg hp]; omega

/-- An interval of W units meets two windows at most. -/
theorem admitted_interval {W : Int} (hW : 1 ≤ W) {ts : List Int} (hts : ts.Pairwise (· ≤ ·)) (M : Nat) (t : Int) :
    ((hits W none ts).countP fun h => h.slot.count ≤ M ∧ t ≤ h.time ∧ h.time < t + W) ≤ 2 * M := by
  have hcover : ((hits W none ts).countP fun h => h.slot.count ≤ M ∧ t ≤ h.time ∧ h.time < t + W) ≤
      ((hits W none ts).countP fun h => h.slot.count ≤ M ∧ t < h.slot.resetAt ∧ h.slot.resetAt ≤ t + W) +
      ((hits W none ts).countP fun h => h.slot.count ≤ M ∧ t + W < h.slot.resetAt ∧
          h.slot.resetAt ≤ t + W + W) := by
    refine countP_le_add _ fun h hh hp => ?_
    have hp := of_decide_eq_true hp
    have hin := hits_inside hW hts (fun _ _ x hx => by cases hx) hh
    by_cases hle : h.slot.resetAt ≤ t + W
    · exact .inl (decide_eq_true ⟨hp.1, by omega, hle⟩)
    · exact .inr (decide_eq_true ⟨hp.1, by omega, by omega⟩)
  have h1 := admitted_band hW none ts M t
  have h2 := admitted_band hW none ts M (t + W)
  omega

/-! ## What follows a hit -/

theorem hits_split {W : Int} {ts : List Int} {s : Option Slot} {pre post : List Hit} {h : Hit}
    (e : hits W s ts = pre ++ h :: post) : ∃ us, post = hits W (some h.slot) us ∧ (h.time :: us).Sublist ts := by
  induction ts generalizing s pre with
  | nil => cases pre <;> cases e
  | cons t ts ih =>
    cases pre with
    | nil =>
      obtain ⟨rfl, rfl⟩ := List.cons.inj e
      exact ⟨ts, rfl, List.Sublist.refl _⟩
    | cons y pre =>
      obtain ⟨us, hu, hs⟩ := ih (List.cons.inj e).2
      exact ⟨us, hu, hs.cons _⟩

/-- Before the window of a slot ends its count only grows. -/
theorem hits_until {W : Int} (hW : 1 ≤ W) {ts : List Int} (hts : ts.Pairwise (· ≤ ·)) {x : Slot}
    (hx : ∀ t ∈ ts, x.resetAt ≤ t + W) {h : Hit} (hh : h ∈ hits W (some x) ts) (hlt : h.time < x.resetAt) :
    h.slot.resetAt = x.resetAt ∧ x.count < h.slot.count := by
  have hin := hits_inside hW hts (fun t ht y hy => by cases hy; exact hx t ht) hh
  rcases hits_later hW hh with hl | hl
  · exact hl
  · omega

/-- The first hit from the end of a window on opens a new one. -/
theorem hits_renew {W : Int} {ts : List Int} {x : Slot} {mid rest : List Hit} {h : Hit}
    (e : hits W (some x) ts = mid ++ h :: rest) (hmid : ∀ y ∈ mid, y.time < x.resetAt) (hle : x.resetAt ≤ h.time) :
    h.slot.count = 1 := by
  induction ts generalizing x mid with
  | nil => cases mid <;> cases e
  | cons t ts ih =>
    cases mid with
    | nil =>
      obtain ⟨rfl, _⟩ := List.cons.inj e
      show (hit W t (some x)).count = 1
      unfold hit
      rw [live_some_of_le hle]
    | cons y mid =>
      obtain ⟨rfl, e'⟩ := List.cons.inj e
      have hy : t < x.resetAt := hmid _ List.mem_cons_self
      have hh : hit W t (some x) = ⟨x.count + 1, x.resetAt⟩ := by
        unfold hit; rw [live_some_of_lt hy]
      rw [hh] at e'
      exact ih e' (fun z hz => hmid z (List.mem_cons_of_mem _ hz)) hle

end FixedWindow

end Lib
