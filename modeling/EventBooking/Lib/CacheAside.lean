import Mathlib

/-!
# Cache-aside coherence

A cache in front of a store, filled by readers and emptied by writers. Between
a writer's change of the store and its deletion of the entry the entry may be
old, so an entry counts as coherent when it is current or `doomed`: some writer
is about to delete it.
-/

namespace Lib

def Coherent {κ υ : Type} (truth cached : κ → Option υ) (doomed : κ → Prop) : Prop :=
  ∀ k v, cached k = some v → truth k = some v ∨ doomed k

namespace Coherent

variable {κ υ : Type} {truth truth' cached : κ → Option υ} {doomed doomed' : κ → Prop}

theorem empty : Coherent truth (fun _ => none) doomed := by
  intro k v h; cases h

theorem mono (h : Coherent truth cached doomed) (hd : ∀ k, doomed k → doomed' k) :
    Coherent truth cached doomed' := by
  intro k v hk
  exact (h k v hk).imp_right (hd k)

/-- A writer may change what it will delete. -/
theorem write (h : Coherent truth cached doomed) (hd : ∀ k, doomed k → doomed' k)
    (ht : ∀ k, truth' k = truth k ∨ doomed' k) : Coherent truth' cached doomed' := by
  intro k v hk
  rcases ht k with ht | ht
  · rw [ht]; exact (h k v hk).imp_right (hd k)
  · exact Or.inr ht

/-- A writer that deletes nothing keeps coherence exactly when the one key it
may change has no entry, or is doomed by another, or keeps its value. -/
theorem lose_iff (h : Coherent truth cached doomed) {k : κ} (ht : ∀ j, j ≠ k → truth' j = truth j) :
    Coherent truth' cached doomed ↔ cached k = none ∨ doomed k ∨ truth' k = truth k := by
  constructor
  · intro h'
    cases hc : cached k with
    | none => exact Or.inl rfl
    | some v =>
      rcases h k v hc with hv | hv
      · exact Or.inr ((h' k v hc).symm.imp_right fun hv' => hv'.trans hv.symm)
      · exact Or.inr (Or.inl hv)
  · intro hk j v hj
    by_cases hjk : j = k
    · subst hjk
      rcases hk with hn | hd | he
      · rw [hn] at hj; cases hj
      · exact Or.inr hd
      · rw [he]; exact h j v hj
    · rw [ht j hjk]; exact h j v hj

theorem appear (h : Coherent truth cached doomed) (ht : ∀ k, truth' k = truth k ∨ truth k = none) :
    Coherent truth' cached doomed := by
  intro k v hk
  rcases ht k with ht | ht
  · rw [ht]; exact h k v hk
  · rcases h k v hk with h | h
    · rw [ht] at h; cases h
    · exact Or.inr h

theorem exact (h : Coherent truth cached doomed) (hd : ∀ k, ¬ doomed k) (k : κ) :
    cached k = none ∨ cached k = truth k := by
  cases hc : cached k with
  | none => exact Or.inl rfl
  | some v => exact Or.inr ((h k v hc).resolve_right (hd k)).symm

theorem evict (h : Coherent truth cached doomed) {cached' : κ → Option υ}
    (hc : ∀ k, cached' k = cached k ∨ cached' k = none) : Coherent truth cached' doomed := by
  intro k v hk
  rcases hc k with hc | hc
  · exact h k v (hc ▸ hk)
  · rw [hc] at hk; cases hk

variable [DecidableEq κ]

/-- A reader keeps coherence exactly when it fills in a current or doomed entry. -/
theorem fill_iff (h : Coherent truth cached doomed) {k : κ} {v : υ} :
    Coherent truth (Function.update cached k (some v)) doomed ↔ truth k = some v ∨ doomed k := by
  constructor
  · intro h'; exact h' k v (by rw [Function.update_self])
  · intro hk j w hj
    by_cases hjk : j = k
    · subst hjk
      rw [Function.update_self, Option.some.injEq] at hj
      exact hj ▸ hk
    · rw [Function.update_of_ne hjk] at hj
      exact h j w hj

theorem drop (h : Coherent truth cached doomed) {k : κ} (hd : ∀ j, j ≠ k → doomed j → doomed' j) :
    Coherent truth (Function.update cached k none) doomed' := by
  intro j w hj
  by_cases hjk : j = k
  · rw [hjk, Function.update_self] at hj; cases hj
  · rw [Function.update_of_ne hjk] at hj
    exact (h j w hj).imp_right (hd j hjk)

end Coherent

end Lib
