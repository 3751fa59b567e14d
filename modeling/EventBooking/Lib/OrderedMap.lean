import Mathlib

/-!
# Maps that remember the order of insertion

Entries stand in the order in which their keys were inserted. Setting a key
that is present keeps its place, and a deleted key is inserted at the end again.
-/

namespace Lib

structure OrderedMap (κ ν : Type) where
  entries : List (κ × ν)
  nodup : (entries.map Prod.fst).Nodup

namespace OrderedMap

variable {κ ν : Type}

@[ext] theorem ext {m m' : OrderedMap κ ν} (h : m.entries = m'.entries) : m = m' := by
  cases m; cases m'; cases h; rfl

def empty : OrderedMap κ ν := ⟨[], List.nodup_nil⟩

def size (m : OrderedMap κ ν) : Nat := m.entries.length

def firstKey (m : OrderedMap κ ν) : Option κ := m.entries.head?.map Prod.fst

def filter (m : OrderedMap κ ν) (p : κ × ν → Bool) : OrderedMap κ ν :=
  ⟨m.entries.filter p, (List.filter_sublist.map Prod.fst).nodup m.nodup⟩

@[simp] theorem filter_entries (m : OrderedMap κ ν) (p : κ × ν → Bool) :
    (m.filter p).entries = m.entries.filter p := rfl

variable [DecidableEq κ]

def get (m : OrderedMap κ ν) (k : κ) : Option ν := (m.entries.find? fun e => e.1 = k).map Prod.snd

def delete (m : OrderedMap κ ν) (k : κ) : OrderedMap κ ν := m.filter fun e => e.1 ≠ k

theorem get_eq_some {m : OrderedMap κ ν} {k : κ} {v : ν} : m.get k = some v ↔ (k, v) ∈ m.entries := by
  unfold get
  rw [Option.map_eq_some_iff]
  constructor
  · intro h
    obtain ⟨e, he, rfl⟩ := h
    have hk : e.1 = k := by simpa using List.find?_some he
    exact hk ▸ List.mem_of_find?_eq_some he
  · intro hm
    cases hf : m.entries.find? fun e => e.1 = k with
    | none =>
      have hne : ¬ (k, v).1 = k := by simpa only [decide_eq_true_eq] using List.find?_eq_none.mp hf (k, v) hm
      exact absurd rfl hne
    | some e =>
      have hk : e.1 = k := by simpa using List.find?_some hf
      have he := List.inj_on_of_nodup_map m.nodup (List.mem_of_find?_eq_some hf) hm hk
      exact ⟨e, rfl, by rw [he]⟩

theorem get_eq_none {m : OrderedMap κ ν} {k : κ} : m.get k = none ↔ ∀ e ∈ m.entries, e.1 ≠ k := by
  unfold get; simp [List.find?_eq_none]

theorem get_congr {m m' : OrderedMap κ ν} {k : κ} (h : ∀ v, (k, v) ∈ m.entries ↔ (k, v) ∈ m'.entries) :
    m.get k = m'.get k := by
  apply Option.ext; intro v
  rw [get_eq_some, get_eq_some, h v]

theorem get_filter (m : OrderedMap κ ν) (p : κ × ν → Bool) (k : κ) :
    (m.filter p).get k = (m.get k).filter fun v => p (k, v) := by
  apply Option.ext; intro v
  rw [get_eq_some, filter_entries, List.mem_filter, Option.filter_eq_some_iff, get_eq_some]

theorem get_delete (m : OrderedMap κ ν) (k x : κ) : (m.delete k).get x = if x = k then none else m.get x := by
  unfold delete
  rw [get_filter]
  by_cases h : x = k
  · simp [h]
  · cases m.get x <;> simp [h]

theorem nodup_set {m : OrderedMap κ ν} {k : κ} (h : m.get k = none) (v : ν) :
    ((m.entries ++ [(k, v)]).map Prod.fst).Nodup := by
  rw [List.map_append, List.map_singleton, List.nodup_append]
  refine ⟨m.nodup, List.nodup_singleton _, fun a ha b hb => ?_⟩
  obtain ⟨e, he, rfl⟩ := List.mem_map.mp ha
  rw [List.mem_singleton] at hb
  exact hb ▸ get_eq_none.mp h e he

theorem nodup_replace (m : OrderedMap κ ν) (k : κ) (v : ν) :
    ((m.entries.map fun e => if e.1 = k then (k, v) else e).map Prod.fst).Nodup := by
  have : (Prod.fst ∘ fun e : κ × ν => if e.1 = k then (k, v) else e) = Prod.fst := by
    funext e
    by_cases h : e.1 = k
    · simp [h]
    · simp [h]
  rw [List.map_map, this]; exact m.nodup

def set (m : OrderedMap κ ν) (k : κ) (v : ν) : OrderedMap κ ν :=
  if h : m.get k = none then ⟨m.entries ++ [(k, v)], nodup_set h v⟩
  else ⟨m.entries.map fun e => if e.1 = k then (k, v) else e, nodup_replace m k v⟩

theorem set_absent {m : OrderedMap κ ν} {k : κ} (h : m.get k = none) (v : ν) :
    (m.set k v).entries = m.entries ++ [(k, v)] := by
  unfold set; rw [dif_pos h]

theorem set_present {m : OrderedMap κ ν} {k : κ} (h : m.get k ≠ none) (v : ν) :
    (m.set k v).entries = m.entries.map fun e => if e.1 = k then (k, v) else e := by
  unfold set; rw [dif_neg h]

theorem get_set (m : OrderedMap κ ν) (k x : κ) (v : ν) :
    (m.set k v).get x = if x = k then some v else m.get x := by
  by_cases h : m.get k = none
  · by_cases hx : x = k
    · subst hx
      rw [if_pos rfl, get_eq_some, set_absent h]; simp
    · rw [if_neg hx]
      apply get_congr; intro w
      rw [set_absent h]; simp [hx]
  · obtain ⟨u, hu⟩ := Option.ne_none_iff_exists'.mp h
    by_cases hx : x = k
    · subst hx
      rw [if_pos rfl, get_eq_some, set_present h, List.mem_map]
      exact ⟨(x, u), get_eq_some.mp hu, if_pos rfl⟩
    · rw [if_neg hx]
      apply get_congr; intro w
      rw [set_present h, List.mem_map]
      constructor
      · intro hex
        obtain ⟨e, he, hw⟩ := hex
        by_cases hk : e.1 = k
        · rw [if_pos hk, Prod.mk.injEq] at hw; exact absurd hw.1.symm hx
        · rw [if_neg hk] at hw; exact hw ▸ he
      · intro hm; exact ⟨(x, w), hm, if_neg hx⟩

theorem size_set_present {m : OrderedMap κ ν} {k : κ} (h : m.get k ≠ none) (v : ν) : (m.set k v).size = m.size := by
  unfold size; rw [set_present h, List.length_map]

theorem size_set_absent {m : OrderedMap κ ν} {k : κ} (h : m.get k = none) (v : ν) :
    (m.set k v).size = m.size + 1 := by
  unfold size; rw [set_absent h, List.length_append, List.length_singleton]

theorem set_set (m : OrderedMap κ ν) (k : κ) (v w : ν) : (m.set k v).set k w = m.set k w := by
  have hpresent : (m.set k v).get k ≠ none := by rw [get_set, if_pos rfl]; exact Option.some_ne_none v
  apply ext
  rw [set_present hpresent]
  by_cases h : m.get k = none
  · have hid : (m.entries.map fun e => if e.1 = k then (k, w) else e) = m.entries.map id :=
      List.map_congr_left fun e he => if_neg (get_eq_none.mp h e he)
    rw [set_absent h, set_absent h, List.map_append, List.map_singleton, if_pos rfl, hid, List.map_id]
  · rw [set_present h, set_present h, List.map_map]
    apply List.map_congr_left; intro e _
    simp only [Function.comp]
    by_cases hk : e.1 = k
    · rw [if_pos hk, if_pos rfl, if_pos hk]
    · rw [if_neg hk, if_neg hk]

theorem delete_first {m : OrderedMap κ ν} {e : κ × ν} {es : List (κ × ν)} (h : m.entries = e :: es) :
    (m.delete e.1).entries = es := by
  have hn := m.nodup
  rw [h, List.map_cons, List.nodup_cons] at hn
  show m.entries.filter _ = es
  rw [h, List.filter_cons_of_neg (by simp)]
  apply List.filter_eq_self.mpr
  intro x hx
  simp only [ne_eq, decide_not, Bool.not_eq_true', decide_eq_false_iff_not]
  exact fun hk => hn.1 (hk ▸ List.mem_map_of_mem hx)

theorem foldl_delete (p : κ × ν → Bool) (es : List (κ × ν)) (m : OrderedMap κ ν) :
    (es.foldl (fun a e => if p e then a.delete e.1 else a) m).entries =
      m.entries.filter fun e => !(es.any fun x => p x && decide (x.1 = e.1)) := by
  induction es generalizing m with
  | nil => simp
  | cons x es ih =>
    rw [List.foldl_cons, ih]
    by_cases hx : p x = true
    · rw [if_pos hx]
      show (m.entries.filter _).filter _ = _
      rw [List.filter_filter]
      apply List.filter_congr; intro e _
      rw [List.any_cons, hx, Bool.true_and, Bool.not_or, Bool.and_comm]
      simp [eq_comm]
    · rw [if_neg hx]
      apply List.filter_congr; intro e _
      rw [List.any_cons, Bool.eq_false_iff.mpr hx, Bool.false_and, Bool.false_or]

/-- A loop over a map that deletes the entries that pass a test. -/
theorem delete_loop (m : OrderedMap κ ν) (p : κ × ν → Bool) :
    m.entries.foldl (fun a e => if p e then a.delete e.1 else a) m = m.filter fun e => !p e := by
  apply ext
  rw [foldl_delete, filter_entries]
  apply List.filter_congr; intro e he
  congr 1
  rw [Bool.eq_iff_iff, List.any_eq_true]
  constructor
  · intro h
    obtain ⟨x, hx, hp⟩ := h
    rw [Bool.and_eq_true, decide_eq_true_eq] at hp
    exact List.inj_on_of_nodup_map m.nodup hx he hp.2 ▸ hp.1
  · intro hp; exact ⟨e, he, by simp [hp]⟩

end OrderedMap

end Lib
