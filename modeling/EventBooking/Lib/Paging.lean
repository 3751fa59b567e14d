import Mathlib

/-!
# Pages of a list

`slice` takes the elements between two positions and page `n` of size `size`
holds the positions from `(n - 1) * size` on. The pages in turn give the list,
and a query that sorts and skips gives them of a list that is in order already.
While they are read the list may grow at its end, and lose elements: none is met
twice, and no more are passed over than were lost.
-/

namespace Lib

variable {α : Type}

def slice (first last : Nat) (xs : List α) : List α := (xs.drop first).take (last - first)

def page (n size : Nat) (xs : List α) : List α := slice ((n - 1) * size) (n * size) xs

theorem page_eq {n size : Nat} (hn : 1 ≤ n) (xs : List α) :
    page n size xs = (xs.drop ((n - 1) * size)).take size := by
  have hwidth : n * size - (n - 1) * size = size := by
    rw [← Nat.sub_mul]
    have : n - (n - 1) = 1 := by omega
    rw [this, Nat.one_mul]
  unfold page slice
  rw [hwidth]

theorem pages_eq_take (size : Nat) (xs : List α) (k : Nat) :
    ((List.range k).flatMap fun i => page (i + 1) size xs) = xs.take (k * size) := by
  induction k with
  | zero => simp
  | succ k ih =>
    rw [List.range_succ, List.flatMap_append, ih, List.flatMap_singleton, page_eq (Nat.le_add_left 1 k),
      Nat.add_sub_cancel, Nat.succ_mul, List.take_add]

theorem pages_eq {size : Nat} {xs : List α} {k : Nat} (h : xs.length ≤ k * size) :
    ((List.range k).flatMap fun i => page (i + 1) size xs) = xs := by
  rw [pages_eq_take, List.take_of_length_le h]

/-! ## A sorted query -/

/-- The order of a time and, where two times are equal, of a text. -/
def byTime (time : α → Nat) (text : α → String) (x y : α) : Bool :=
  decide (time x < time y) || (decide (time x = time y) && decide (text x ≤ text y))

theorem page_sorted {time : α → Nat} {text : α → String} {xs : List α} (h : xs.Pairwise fun x y => time x < time y)
    {n : Nat} (hn : 1 ≤ n) (size : Nat) :
    ((xs.mergeSort (byTime time text)).drop ((n - 1) * size)).take size = page n size xs := by
  have hsorted : xs.Pairwise fun x y => byTime time text x y = true := by
    refine h.imp fun hlt => ?_
    unfold byTime
    rw [decide_eq_true hlt, Bool.true_or]
  rw [List.mergeSort_of_pairwise hsorted, page_eq hn]

/-! ## A list that grows -/

theorem page_grows {xs ys : List α} (h : xs <+: ys) (n size : Nat) : page n size xs <+: page n size ys :=
  (h.drop _).take _

/-- Page `n` of the first list, page `n + 1` of the next, and so on. -/
def pagesRead (size : Nat) : Nat → List (List α) → List α
  | _, [] => []
  | n, xs :: lists => page n size xs ++ pagesRead size (n + 1) lists

theorem page_map {β : Type} (f : α → β) (n size : Nat) (xs : List α) :
    page n size (xs.map f) = (page n size xs).map f := by
  unfold page slice
  rw [← List.map_drop, ← List.map_take]

theorem pagesRead_map {β : Type} (f : α → β) (size n : Nat) (lists : List (List α)) :
    pagesRead size n (lists.map (List.map f)) = (pagesRead size n lists).map f := by
  induction lists generalizing n with
  | nil => rfl
  | cons xs lists ih =>
    show page n size (xs.map f) ++ pagesRead size (n + 1) (lists.map (List.map f)) = _
    rw [page_map, ih, ← List.map_append]; rfl

theorem drop_page {n size : Nat} (hn : 1 ≤ n) (xs : List α) :
    (xs.drop ((n - 1) * size)).drop size = xs.drop ((n + 1 - 1) * size) := by
  rw [List.drop_drop, ← Nat.succ_mul, Nat.add_sub_cancel, Nat.succ_eq_add_one, Nat.sub_add_cancel hn]

theorem pagesRead_sublist (size : Nat) {lists : List (List α)} {last : List α}
    (h : ∀ xs ∈ lists, xs <+: last) {n : Nat}
    (hn : 1 ≤ n) : (pagesRead size n lists).Sublist (last.drop ((n - 1) * size)) := by
  induction lists generalizing n with
  | nil => exact List.nil_sublist _
  | cons xs lists ih =>
    have hrest := ih (fun ys hys => h ys (List.mem_cons_of_mem _ hys)) (Nat.le_add_left 1 n)
    have hpage := (page_grows (h xs List.mem_cons_self) n size).sublist
    rw [page_eq hn last] at hpage
    rw [← drop_page hn] at hrest
    have happend := hpage.append hrest
    rwa [List.take_append_drop] at happend

theorem sublist_pagesRead (size : Nat) {lists : List (List α)} {first : List α}
    (h : ∀ xs ∈ lists, first <+: xs) {n : Nat}
    (hn : 1 ≤ n) : ((first.drop ((n - 1) * size)).take (lists.length * size)).Sublist (pagesRead size n lists) := by
  induction lists generalizing n with
  | nil => rw [List.length_nil, Nat.zero_mul, List.take_zero]; exact List.nil_sublist _
  | cons xs lists ih =>
    have hrest := ih (fun ys hys => h ys (List.mem_cons_of_mem _ hys)) (Nat.le_add_left 1 n)
    have hpage := (page_grows (h xs List.mem_cons_self) n size).sublist
    rw [page_eq hn first] at hpage
    rw [← drop_page hn] at hrest
    rw [List.length_cons, Nat.succ_mul, Nat.add_comm, List.take_add]
    exact hpage.append hrest

/-! ## A list that loses elements too -/

/-- Some elements of the list are left, and the new ones come after all it had. -/
def Shifted (r : α → α → Prop) (xs ys : List α) : Prop :=
  ∃ kept added, ys = kept ++ added ∧ kept.Sublist xs ∧ ∀ x ∈ xs, ∀ a ∈ added, r x a

theorem Shifted.page {r : α → α → Prop} {xs ys : List α} (h : Shifted r xs ys) (hs : xs.Pairwise r)
    {m : Nat} {x y : α} (hx : x ∈ xs.take m) (hy : y ∈ ys.drop m) : r x y := by
  obtain ⟨kept, added, rfl, hkept, hadded⟩ := h
  rw [List.drop_append, List.mem_append] at hy
  rcases hy with hy | hy
  · have hlater := (hkept.drop m).subset hy
    rw [← List.take_append_drop m xs] at hs
    exact (List.pairwise_append.mp hs).2.2 x hx y hlater
  · exact hadded x (List.mem_of_mem_take hx) y (List.mem_of_mem_drop hy)

theorem mem_pagesRead {size : Nat} {lists : List (List α)} {y : α} {n : Nat} (hn : 1 ≤ n)
    (h : y ∈ pagesRead size n lists) :
    ∃ ys ∈ lists, y ∈ ys.drop ((n - 1) * size) := by
  induction lists generalizing n with
  | nil => cases h
  | cons xs lists ih =>
    rcases List.mem_append.mp h with h | h
    · rw [page_eq hn] at h
      exact ⟨xs, List.mem_cons_self, List.mem_of_mem_take h⟩
    · obtain ⟨ys, hys, hy⟩ := ih (Nat.le_add_left 1 n) h
      rw [← drop_page hn] at hy
      exact ⟨ys, List.mem_cons_of_mem _ hys, List.mem_of_mem_drop hy⟩

theorem pagesRead_pairwise {r : α → α → Prop} (size : Nat) {lists : List (List α)}
    (hs : ∀ xs ∈ lists, xs.Pairwise r) (h : lists.Pairwise (Shifted r)) {n : Nat} (hn : 1 ≤ n) :
    (pagesRead size n lists).Pairwise r := by
  induction lists generalizing n with
  | nil => exact List.Pairwise.nil
  | cons xs lists ih =>
    obtain ⟨hshifted, hrest⟩ := List.pairwise_cons.mp h
    have hxs := hs xs List.mem_cons_self
    refine List.pairwise_append.mpr ⟨?_,
      ih (fun ys hys => hs ys (List.mem_cons_of_mem _ hys)) hrest (Nat.le_add_left 1 n), fun x hx y hy => ?_⟩
    · exact hxs.sublist ((List.take_sublist _ _).trans (List.drop_sublist _ _))
    · have hbefore : x ∈ xs.take (n * size) := by
        have hpages := pages_eq_take size xs n
        have hmem : x ∈ (List.range n).flatMap fun i => page (i + 1) size xs :=
          List.mem_flatMap.mpr ⟨n - 1, List.mem_range.mpr (by omega), by rw [Nat.sub_add_cancel hn]; exact hx⟩
        rw [hpages] at hmem; exact hmem
      obtain ⟨ys, hys, hy⟩ := mem_pagesRead (Nat.le_add_left 1 n) hy
      rw [Nat.add_sub_cancel] at hy
      exact (hshifted ys hys).page hxs hbefore hy

theorem pagesRead_kept (size : Nat) {kept lists : List (List α)} (h : List.Forall₂ (· <+: ·) kept lists) (n : Nat) :
    (pagesRead size n kept).Sublist (pagesRead size n lists) := by
  induction h generalizing n with
  | nil => exact List.Sublist.refl _
  | cons hxs _ ih => exact (page_grows hxs n size).sublist.append (ih (n + 1))

/-- A deletion moves what follows up by one, so that the next page passes over one element at most. -/
theorem pagesRead_shrinks (size : Nat) {xs last : List α} {lists : List (List α)}
    (h : (xs :: lists).IsChain fun xs ys => ys.Sublist xs) (hlast : (xs :: lists).getLast? = some last)
    {n : Nat} (hn : 1 ≤ n) (hlength : xs.length ≤ (n + lists.length) * size) :
    (xs.drop ((n - 1) * size)).length + last.length ≤ (pagesRead size n (xs :: lists)).length + xs.length := by
  have hpage : ∀ (xs : List α) {n : Nat}, 1 ≤ n →
      (xs.drop ((n - 1) * size)).length = (page n size xs).length + (xs.drop (n * size)).length := by
    intro xs n hn
    have hnext : xs.drop (n * size) = (xs.drop ((n - 1) * size)).drop size := by
      rw [drop_page hn, Nat.add_sub_cancel]
    rw [page_eq hn, hnext, ← List.length_append, List.take_append_drop]
  induction lists generalizing xs n with
  | nil =>
    obtain rfl : xs = last := by simpa using hlast
    rw [List.length_nil, Nat.add_zero] at hlength
    have hnone : (xs.drop (n * size)).length = 0 := by rw [List.length_drop]; omega
    have hread : pagesRead size n [xs] = page n size xs := List.append_nil _
    rw [hpage xs hn, hnone, hread, Nat.add_zero]
  | cons ys lists ih =>
    obtain ⟨hsub, hchain⟩ := List.isChain_cons_cons.mp h
    have hle := hsub.length_le
    have hwidth : n + (lists.length + 1) = n + 1 + lists.length := by omega
    rw [List.length_cons, hwidth] at hlength
    have hrest := ih hchain (by simpa using hlast) (Nat.le_add_left 1 n) (Nat.le_trans hle hlength)
    rw [Nat.add_sub_cancel] at hrest
    have hread : (pagesRead size n (xs :: ys :: lists)).length =
        (page n size xs).length + (pagesRead size (n + 1) (ys :: lists)).length := List.length_append
    have hmoved : (xs.drop (n * size)).length + ys.length ≤ (ys.drop (n * size)).length + xs.length := by
      rw [List.length_drop, List.length_drop]
      omega
    rw [hpage xs hn, hread]
    omega

/-- Of what was in the list at first, no more is missed than was deleted before the last page. -/
theorem pages_missed [DecidableEq α] {size : Nat} {first last : List α} {lists : List (List α)}
    (hnodup : first.Nodup) (hlast : lists.getLast? = some last) (old : α → Bool)
    (hfirst : ∀ x ∈ first, old x = true)
    (hold : ∀ xs ∈ lists, xs.filter old <+: xs)
    (h : (first :: lists).Pairwise fun xs ys => (ys.filter old).Sublist (xs.filter old))
    (hlength : first.length ≤ lists.length * size) :
    (first.filter fun x => x ∉ pagesRead size 1 lists).length ≤ (first.filter fun x => x ∉ last).length := by
  have hall : first.filter old = first := List.filter_eq_self.mpr hfirst
  obtain ⟨hsub, hpair⟩ := List.pairwise_cons.mp h
  rw [hall] at hsub
  set kept := lists.map fun xs => xs.filter old with hkept
  have hkeptlast : kept.getLast? = some (last.filter old) := by rw [hkept, List.getLast?_map, hlast]; rfl
  have hkeptpair : kept.Pairwise fun xs ys => ys.Sublist xs := List.pairwise_map.mpr hpair
  have hkeptsub : ∀ xs ∈ kept, xs.Sublist first := by
    intro xs hxs
    obtain ⟨ys, hys, rfl⟩ := List.mem_map.mp hxs
    exact hsub ys hys
  -- the pages of the old elements alone are part of what is read, and miss no more than is lost
  have hnever : (pagesRead size 1 kept).Nodup := by
    refine pagesRead_pairwise size (fun xs hxs => (hkeptsub xs hxs).nodup hnodup) ?_ (Nat.le_refl 1)
    exact hkeptpair.imp fun {xs ys} hys => ⟨ys, [], (List.append_nil ys).symm, hys, fun _ _ a ha => (by cases ha)⟩
  have hread : (pagesRead size 1 kept).Sublist (pagesRead size 1 lists) :=
    pagesRead_kept size (List.forall₂_map_left_iff.mpr (List.forall₂_same.mpr hold)) 1
  have hmem : ∀ x ∈ pagesRead size 1 kept, x ∈ first := by
    intro x hx
    obtain ⟨xs, hxs, hx⟩ := mem_pagesRead (Nat.le_refl 1) hx
    exact (hkeptsub xs hxs).subset (List.mem_of_mem_drop hx)
  have hlong : (last.filter old).length ≤ (pagesRead size 1 kept).length := by
    cases hk : kept with
    | nil => rw [hk] at hkeptlast; cases hkeptlast
    | cons xs rest =>
      rw [hk] at hkeptlast hkeptpair hkeptsub
      have hcount : rest.length + 1 = lists.length := by
        rw [← List.length_cons (a := xs), ← hk, hkept, List.length_map]
      have hshort := (hkeptsub xs List.mem_cons_self).length_le
      have := pagesRead_shrinks size hkeptpair.isChain hkeptlast (Nat.le_refl 1)
        (by rw [Nat.add_comm, hcount]; exact Nat.le_trans hshort hlength)
      rw [Nat.sub_self, Nat.zero_mul, List.drop_zero] at this
      omega
  have hseen : (pagesRead size 1 kept).length ≤ (first.filter fun x => x ∈ pagesRead size 1 lists).length :=
    hnever.length_le_of_subset fun x hx => List.mem_filter.mpr ⟨hmem x hx, decide_eq_true (hread.subset hx)⟩
  have hleft : (first.filter fun x => x ∈ last).length ≤ (last.filter old).length :=
    (hnodup.filter _).length_le_of_subset fun x hx =>
      List.mem_filter.mpr ⟨of_decide_eq_true (List.mem_filter.mp hx).2, hfirst x (List.mem_filter.mp hx).1⟩
  have hsplit : ∀ p : α → Prop, [DecidablePred p] →
      first.length = (first.filter fun x => p x).length + (first.filter fun x => ¬ p x).length := by
    intro p _
    have := List.length_eq_length_filter_add (l := first) fun x => decide (p x)
    simpa using this
  have h1 := hsplit (· ∈ pagesRead size 1 lists)
  have h2 := hsplit (· ∈ last)
  omega

end Lib
