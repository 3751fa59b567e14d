import Mathlib

/-!
# Delimited records

A record written as its fields with a delimiter between them. When no field but
the last contains the delimiter, the text says what the fields were.
-/

namespace Lib

variable {α : Type} {sep : α}

theorem append_delimiter_inj (r r' : List α) {x x' : List α} (hx : sep ∉ x) (hx' : sep ∉ x') :
    x ++ sep :: r = x' ++ sep :: r' ↔ x = x' ∧ r = r' := by
  induction x generalizing x' with
  | nil =>
    cases x' with
    | nil => simp
    | cons a x' =>
      have hne : sep ≠ a := fun e => hx' (e ▸ List.mem_cons_self)
      simp [hne]
  | cons b x ih =>
    rw [List.mem_cons, not_or] at hx
    cases x' with
    | nil => simp [Ne.symm hx.1]
    | cons a x' =>
      rw [List.mem_cons, not_or] at hx'
      have htail := ih hx.2 hx'.2
      simp [htail, and_assoc]

theorem intercalate_delimiter_inj {xs ys : List (List α)} (hlen : xs.length = ys.length)
    (hx : ∀ x ∈ xs.dropLast, sep ∉ x) (hy : ∀ y ∈ ys.dropLast, sep ∉ y) :
    [sep].intercalate xs = [sep].intercalate ys ↔ xs = ys := by
  induction xs generalizing ys with
  | nil =>
    obtain rfl := List.length_eq_zero_iff.mp hlen.symm
    exact iff_of_true rfl rfl
  | cons x xs ih =>
    cases ys with
    | nil => cases hlen
    | cons y ys =>
      have hlen' : xs.length = ys.length := Nat.succ.inj hlen
      cases xs with
      | nil => rw [List.length_eq_zero_iff.mp hlen'.symm]; simp
      | cons x' xs =>
        cases ys with
        | nil => cases hlen'
        | cons y' ys =>
          rw [List.dropLast_cons_cons] at hx hy
          have hhead := append_delimiter_inj ([sep].intercalate (x' :: xs)) ([sep].intercalate (y' :: ys))
            (hx x List.mem_cons_self) (hy y List.mem_cons_self)
          have htail := ih hlen' (fun z hz => hx z (List.mem_cons_of_mem _ hz)) fun z hz =>
            hy z (List.mem_cons_of_mem _ hz)
          rw [List.intercalate_cons_cons, List.intercalate_cons_cons, List.append_assoc, List.append_assoc,
            List.singleton_append, List.singleton_append, hhead, htail, List.cons.injEq x]

end Lib
