import Mathlib

/-!
# Times at a distance

The times of a list are `Spaced` when the gap after the `n`-th is at least
`gap n`. A time that comes late enough may be added, and the gaps add up.
-/

namespace Lib

def Spaced (gap : Nat → Nat) (times : List Nat) : Prop :=
  ∀ n t t', times[n]? = some t → times[n + 1]? = some t' → t + gap (n + 1) ≤ t'

namespace Spaced

variable {gap : Nat → Nat} {times : List Nat}

theorem nil : Spaced gap [] := by
  intro n t t' ht _
  cases ht

theorem snoc (h : Spaced gap times) {t : Nat}
    (ht : ∀ last, times.getLast? = some last → last + gap times.length ≤ t) :
    Spaced gap (times ++ [t]) := by
  intro n a b ha hb
  by_cases hn : n + 1 < times.length
  · rw [List.getElem?_append_left (by omega)] at ha
    rw [List.getElem?_append_left hn] at hb
    exact h n a b ha hb
  · -- the second of the two is the time added
    have hlt : n + 1 < (times ++ [t]).length := (List.getElem?_eq_some_iff.mp hb).1
    rw [List.length_append, List.length_singleton] at hlt
    have hlength : n + 1 = times.length := by omega
    rw [List.getElem?_append_right (by omega), hlength, Nat.sub_self] at hb
    obtain rfl := Option.some.inj hb
    rw [List.getElem?_append_left (by omega)] at ha
    have hlast : times.getLast? = some a := by
      rw [List.getLast?_eq_getElem?, ← hlength]; exact ha
    rw [hlength]; exact ht a hlast

theorem sum_le (h : Spaced gap times) {first : Nat} (h0 : times[0]? = some first) {n t : Nat}
    (hn : times[n]? = some t) :
    first + ((List.range n).map fun i => gap (i + 1)).sum ≤ t := by
  induction n generalizing t with
  | zero =>
    rw [hn] at h0
    exact Nat.le_of_eq (Option.some.inj h0).symm
  | succ n ih =>
    have hlt : n + 1 < times.length := (List.getElem?_eq_some_iff.mp hn).1
    have hget : times[n]? = some (times.get ⟨n, by omega⟩) := List.getElem?_eq_getElem (by omega)
    have hbefore := ih hget
    have hgap := h n _ t hget hn
    rw [List.range_succ, List.map_append, List.sum_append, List.map_singleton, List.sum_singleton]
    omega

end Spaced

end Lib
