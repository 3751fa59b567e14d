import EventBooking.Lib.Pattern
import EventBooking.Lib.Tx

/-!
# Columns and timestamps

A `uuid` column compares by value and returns canonical lower-case text, while
requests and JSON columns carry whatever spelling they were given. A `Uuid` is
the column's value, kept as its canonical text; `Uuid.cast` is `$1::uuid`.
-/

namespace EventBooking
open Lib

def hexDigits : List Char := "0123456789abcdefABCDEF".toList

def groups (a b c d e : List (List Char)) : List (List Char) :=
  a ++ ['-'] :: b ++ ['-'] :: c ++ ['-'] :: d ++ ['-'] :: e

def hex (n : Nat) : List (List Char) := List.replicate n hexDigits

def uuidPattern : List (List Char) := groups (hex 8) (hex 4) (hex 4) (hex 4) (hex 12)

def isUuidText (s : String) : Bool := fits uuidPattern s.toList

/-- `toLowerCase` on ASCII text. -/
def toLowerCase (s : String) : String := String.ofList (s.toList.map Char.toLower)

theorem hexDigits_toLower : ∀ c ∈ hexDigits, c.toLower ∈ hexDigits ∧ c.toLower.toLower = c.toLower := by
  have h : (hexDigits.all fun c => hexDigits.contains c.toLower && c.toLower.toLower == c.toLower) = true := by
    decide
  intro c hc
  have hlower := List.all_eq_true.mp h c hc
  rw [Bool.and_eq_true, List.contains_iff_mem, beq_iff_eq] at hlower
  exact hlower

theorem uuidPattern_class : ∀ p ∈ uuidPattern, p = hexDigits ∨ p = ['-'] := by decide

theorem uuidPattern_toLower : ∀ p ∈ uuidPattern, ∀ c ∈ p, c.toLower ∈ p ∧ c.toLower.toLower = c.toLower := by
  intro p hp c hc
  rcases uuidPattern_class p hp with rfl | rfl
  · exact hexDigits_toLower c hc
  · rw [List.mem_singleton] at hc; subst hc; decide

theorem isUuidText_toLowerCase {s : String} (h : isUuidText s = true) : isUuidText (toLowerCase s) = true := by
  unfold isUuidText toLowerCase
  rw [String.toList_ofList]
  exact fits_map (fun p hp c hc => (uuidPattern_toLower p hp c hc).1) h

theorem toLowerCase_idem {s : String} (h : isUuidText s = true) :
    toLowerCase (toLowerCase s) = toLowerCase s := by
  unfold toLowerCase
  rw [String.toList_ofList, List.map_map]
  congr 1
  refine List.map_congr_left fun c hc => ?_
  exact fits_all (P := fun c => c.toLower.toLower = c.toLower)
    (fun p hp c hc => (uuidPattern_toLower p hp c hc).2) h c hc

structure Uuid where
  text : String
  isText : isUuidText text = true
  lower : toLowerCase text = text
  deriving DecidableEq

@[ext] theorem Uuid.ext {u v : Uuid} (h : u.text = v.text) : u = v := by
  cases u; cases v; cases h; rfl

theorem Uuid.text_inj {u v : Uuid} : u.text = v.text ↔ u = v := ⟨Uuid.ext, fun h => h ▸ rfl⟩

/-- The text is the one a `uuid` column returns for its value. -/
def isCanonical (s : String) : Bool := isUuidText s && toLowerCase s == s

def Uuid.cast (s : String) : Except DbError Uuid :=
  if h : isUuidText s then .ok ⟨toLowerCase s, isUuidText_toLowerCase h, toLowerCase_idem h⟩
  else .error .invalidText

@[simp] theorem Uuid.cast_text (u : Uuid) : Uuid.cast u.text = .ok u := by
  unfold Uuid.cast
  rw [dif_pos u.isText]
  exact congrArg _ (Uuid.ext u.lower)

theorem Uuid.cast_eq_ok {s : String} {u : Uuid} :
    Uuid.cast s = .ok u ↔ isUuidText s = true ∧ u.text = toLowerCase s := by
  unfold Uuid.cast
  split
  · rename_i h
    rw [Except.ok.injEq]
    constructor
    · rintro rfl; exact ⟨h, rfl⟩
    · intro hx
      obtain ⟨_, he⟩ := hx
      exact Uuid.ext he.symm
  · rename_i h
    constructor
    · intro e; cases e
    · intro hx
      obtain ⟨h', _⟩ := hx
      exact absurd h' h

theorem Uuid.cast_ok_of_isText {s : String} (h : isUuidText s = true) : ∃ u, Uuid.cast s = .ok u :=
  ⟨_, dif_pos h⟩

/-- A spelling is canonical exactly when it is the text of the value it denotes. -/
theorem isCanonical_iff {s : String} {u : Uuid} (h : Uuid.cast s = .ok u) : isCanonical s = true ↔ u.text = s := by
  obtain ⟨ht, hu⟩ := Uuid.cast_eq_ok.mp h
  unfold isCanonical
  rw [hu, ht]
  simp

/-- `findUnique({ where: { id } })` on a table keyed by a `uuid` column. -/
def findUnique {δ ρ υ : Type} {S : Schema ρ Uuid υ} (table : δ → Table S) (id : String) (d : δ) :
    Except DbError (Option ρ × δ) := do
  let id ← Uuid.cast id
  return ((table d).find id, d)

theorem findUnique_eq_ok {δ ρ υ : Type} {S : Schema ρ Uuid υ} {table : δ → Table S} {id : String} {d d' : δ}
    {o : Option ρ} :
    findUnique table id d = .ok (o, d') ↔ ∃ u, Uuid.cast id = .ok u ∧ o = (table d).find u ∧ d' = d := by
  unfold findUnique
  rw [except_bind_ok]
  constructor
  · intro h
    obtain ⟨u, hu, h⟩ := h
    cases h; exact ⟨u, hu, rfl, rfl⟩
  · intro h
    obtain ⟨u, hu, rfl, rfl⟩ := h
    exact ⟨u, hu, rfl⟩

/-! ## Text columns -/

/-- The server's encoding has every character but U+0000. -/
def storableText (s : String) : Bool := !s.toList.contains (Char.ofNat 0)

/-- Text bound to a `TEXT` column or parameter. -/
def text (s : String) : Except DbError String :=
  if storableText s then .ok s else .error .invalidByteSequence

theorem text_eq_ok {s t : String} : text s = .ok t ↔ t = s ∧ storableText s = true := by
  unfold text
  split
  · rename_i h; simp only [Except.ok.injEq]; exact ⟨fun e => ⟨e.symm, h⟩, fun e => e.1.symm⟩
  · rename_i h; simp only [reduceCtorEq, false_iff]; exact fun e => h e.2

theorem text_error {s : String} {e : DbError} :
    text s = .error e ↔ e = .invalidByteSequence ∧ storableText s = false := by
  unfold text
  cases storableText s with
  | true => exact ⟨fun h => (by cases h), fun h => (by cases h.2)⟩
  | false => exact ⟨fun h => ⟨(Except.error.inj h).symm, rfl⟩, fun h => h.1 ▸ rfl⟩

/-! ## Integer columns -/

/-- `Number` bound to an `INTEGER` column or parameter. -/
def int4 (n : Int) : Except DbError Int :=
  if -2147483648 ≤ n ∧ n ≤ 2147483647 then .ok n else .error .outOfRange

theorem int4_eq_ok {n m : Int} : int4 n = .ok m ↔ m = n ∧ -2147483648 ≤ n ∧ n ≤ 2147483647 := by
  unfold int4
  split
  · rename_i h; simp only [Except.ok.injEq]; exact ⟨fun e => ⟨e.symm, h⟩, fun e => e.1.symm⟩
  · rename_i h; simp only [reduceCtorEq, false_iff]; exact fun e => h e.2

/-! ## `randomUUID` -/

/-- The texts of RFC 4122 version 4. -/
def v4Pattern : List (List Char) :=
  groups (hex 8) (hex 4) (['4'] :: hex 3) (['8', '9', 'a', 'b'] :: hex 3) (hex 12)

structure RandomUUID where
  val : Uuid
  v4 : fits v4Pattern val.text.toList = true
  deriving DecidableEq

def RandomUUID.text (r : RandomUUID) : String := r.val.text

@[simp] theorem RandomUUID.cast_text (r : RandomUUID) : Uuid.cast r.text = .ok r.val := Uuid.cast_text r.val

/-! ## Dates -/

/-- Milliseconds since the start of the year 0, for years of four digits. -/
abbrev Date := Nat

def digit (n : Nat) : Char := Char.ofNat (48 + n % 10)

def pad2 (n : Nat) : List Char := [digit (n / 10), digit n]

def pad3 (n : Nat) : List Char := digit (n / 100) :: pad2 n

def pad4 (n : Nat) : List Char := digit (n / 1000) :: pad3 n

/-- Year, month and day of a day number, counting in eras of 400 years that
start in March; the first of them starts in the year -400. -/
def civil (days : Nat) : Nat × Nat × Nat :=
  let z := days + 146037
  let era := z / 146097
  let doe := z % 146097
  let yoe := (doe - doe / 1460 + doe / 36524 - doe / 146096) / 365
  let doy := doe - (365 * yoe + yoe / 4 - yoe / 100)
  let mp := (5 * doy + 2) / 153
  let m := if mp < 10 then mp + 3 else mp - 9
  (yoe + era * 400 + (if m ≤ 2 then 1 else 0) - 400, m, doy - (153 * mp + 2) / 5 + 1)

def toISOString (d : Date) : String :=
  let (y, m, day) := civil (d / 86400000)
  let s := d / 1000
  String.ofList (pad4 y ++ '-' :: pad2 m ++ '-' :: pad2 day ++ 'T' :: pad2 (s / 3600 % 24) ++ ':' ::
    pad2 (s / 60 % 60) ++ ':' :: pad2 (s % 60) ++ '.' :: pad3 (d % 1000) ++ ['Z'])

example : toISOString 63876429296007 = "2024-02-29T12:34:56.007Z" := by decide

example : toISOString 0 = "0000-01-01T00:00:00.000Z" := by decide

end EventBooking
