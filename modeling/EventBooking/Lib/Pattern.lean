import Mathlib

/-!
# Fixed-length character patterns

A pattern lists the characters allowed at each position of a text. It is the
part of a regular expression that fixed formats (identifiers, timestamps) need.
-/

namespace Lib

def fits : List (List Char) → List Char → Bool
  | [], [] => true
  | p :: ps, c :: cs => p.contains c && fits ps cs
  | _, _ => false

@[simp] theorem fits_cons (p : List Char) (ps : List (List Char)) (c : Char) (cs : List Char) :
    fits (p :: ps) (c :: cs) = (p.contains c && fits ps cs) := rfl

theorem fits_mono {ps qs : List (List Char)} (h : List.Forall₂ (· ⊆ ·) ps qs) :
    ∀ {cs : List Char}, fits ps cs = true → fits qs cs = true := by
  induction h with
  | nil => intro cs h; exact h
  | cons hp _ ih =>
    intro cs h
    cases cs with
    | nil => simp [fits] at h
    | cons c cs =>
      simp only [fits_cons, Bool.and_eq_true, List.contains_iff_mem] at h ⊢
      exact ⟨hp h.1, ih h.2⟩

/-- A pattern whose classes are closed under `f` accepts the image of an accepted text. -/
theorem fits_map {f : Char → Char} {ps : List (List Char)} (h : ∀ p ∈ ps, ∀ c ∈ p, f c ∈ p) :
    ∀ {cs : List Char}, fits ps cs = true → fits ps (cs.map f) = true := by
  induction ps with
  | nil => intro cs hf; cases cs <;> simp_all [fits]
  | cons p ps ih =>
    intro cs hf
    cases cs with
    | nil => simp [fits] at hf
    | cons c cs =>
      simp only [List.map_cons, fits_cons, Bool.and_eq_true, List.contains_iff_mem] at hf ⊢
      exact ⟨h p (by simp) c hf.1, ih (fun q hq => h q (by simp [hq])) hf.2⟩

/-- What holds of every character a pattern allows holds of an accepted text. -/
theorem fits_all {P : Char → Prop} {ps : List (List Char)} (h : ∀ p ∈ ps, ∀ c ∈ p, P c) :
    ∀ {cs : List Char}, fits ps cs = true → ∀ c ∈ cs, P c := by
  induction ps with
  | nil => intro cs hf; cases cs <;> simp_all [fits]
  | cons p ps ih =>
    intro cs hf
    cases cs with
    | nil => simp [fits] at hf
    | cons c cs =>
      simp only [fits_cons, Bool.and_eq_true, List.contains_iff_mem] at hf
      intro d hd
      rcases List.mem_cons.mp hd with rfl | hd
      · exact h p (by simp) d hf.1
      · exact ih (fun q hq => h q (by simp [hq])) hf.2 d hd

theorem fits_append {ps qs : List (List Char)} {cs ds : List Char} (h : fits ps cs = true)
    (h' : fits qs ds = true) : fits (ps ++ qs) (cs ++ ds) = true := by
  induction ps generalizing cs with
  | nil => cases cs <;> simp_all [fits]
  | cons p ps ih =>
    cases cs with
    | nil => simp [fits] at h
    | cons c cs =>
      simp only [fits_cons, Bool.and_eq_true] at h
      simp only [List.cons_append, fits_cons, Bool.and_eq_true]
      exact ⟨h.1, ih h.2⟩

end Lib
