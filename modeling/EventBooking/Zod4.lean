import EventBooking.Services

/-!
# A schema library and sample draws

The recognizers of the schema library on the texts the services write: its
UUID expression in full, and of its timestamp expression the shape that
`toISOString` produces. The sample draws are for runs on given inputs.
-/

namespace EventBooking
open Lib

def versionDigits : List Char := "12345678".toList

def variantDigits : List Char := "89abAB".toList

/-- Versions 1 to 8 of the RFC variant. -/
def zodUuidPattern : List (List Char) :=
  groups (hex 8) (hex 4) (versionDigits :: hex 3) (variantDigits :: hex 3) (hex 12)

def nilUuid : String := "00000000-0000-0000-0000-000000000000"

def maxUuid : String := "ffffffff-ffff-ffff-ffff-ffffffffffff"

def zodUuid (s : String) : Bool := fits zodUuidPattern s.toList || s == nilUuid || s == maxUuid

def decimal : List Char := "0123456789".toList

def datetimePattern : List (List Char) :=
  let d (n : Nat) : List (List Char) := List.replicate n decimal
  d 4 ++ ['-'] :: d 2 ++ ['-'] :: d 2 ++ ['T'] :: d 2 ++ [':'] :: d 2 ++ [':'] :: d 2 ++ ['.'] :: d 3 ++ [['Z']]

def zodDatetime (s : String) : Bool := fits datetimePattern s.toList

theorem zodUuid_isUuidText {s : String} (h : zodUuid s = true) : isUuidText s = true := by
  unfold zodUuid at h
  rw [Bool.or_eq_true, Bool.or_eq_true, beq_iff_eq, beq_iff_eq] at h
  rcases h with (h | rfl) | rfl
  · exact fits_mono (by decide) h
  · decide
  · decide

theorem zodUuidPattern_toLower : ∀ p ∈ zodUuidPattern, ∀ c ∈ p, c.toLower ∈ p := by
  have h : (zodUuidPattern.all fun p => p.all fun c => p.contains c.toLower) = true := by decide
  intro p hp c hc
  exact List.contains_iff_mem.mp (List.all_eq_true.mp (List.all_eq_true.mp h p hp) c hc)

theorem zodUuid_toLowerCase {s : String} (h : zodUuid s = true) : zodUuid (toLowerCase s) = true := by
  unfold zodUuid at h
  rw [Bool.or_eq_true, Bool.or_eq_true, beq_iff_eq, beq_iff_eq] at h
  rcases h with (h | rfl) | rfl
  · unfold zodUuid toLowerCase
    rw [String.toList_ofList, Bool.or_eq_true, Bool.or_eq_true]
    exact Or.inl (Or.inl (fits_map zodUuidPattern_toLower h))
  · decide
  · decide

theorem zodUuid_randomUUID (r : RandomUUID) : zodUuid r.text = true := by
  unfold zodUuid
  rw [Bool.or_eq_true, Bool.or_eq_true]
  exact Or.inl (Or.inl (fits_mono (by decide) r.v4))

theorem digit_mem (n : Nat) : digit n ∈ decimal := by
  have : ∀ k < 10, Char.ofNat (48 + k) ∈ decimal := by decide
  exact this (n % 10) (Nat.mod_lt n (by decide))

theorem zodDatetime_toISOString (d : Date) : zodDatetime (toISOString d) = true := by
  unfold zodDatetime toISOString
  simp only [String.toList_ofList]
  simp [datetimePattern, pad4, pad3, pad2, List.replicate, fits, digit_mem]

@[reducible] def zod4 : Zod where
  uuid := zodUuid
  datetime := zodDatetime
  uuid_isUuidText _ := zodUuid_isUuidText
  uuid_toLowerCase _ := zodUuid_toLowerCase
  uuid_randomUUID := zodUuid_randomUUID
  datetime_toISOString := zodDatetime_toISOString

/-! ## Samples -/

instance neZeroSixteen : NeZero 16 := ⟨by decide⟩

def samplePrefix : List Char := "00000000-0000-4000-8000-00000000000".toList

def sampleDigit (n : Fin 16) : Char := "0123456789abcdef".toList.getD n '0'

def sampleText (n : Fin 16) : String := String.ofList (samplePrefix ++ [sampleDigit n])

def sampleUpperText : String := String.ofList (samplePrefix ++ ['A'])

theorem sampleDigit_spec : ∀ n, sampleDigit n ∈ hexDigits ∧ (sampleDigit n).toLower = sampleDigit n := by decide

theorem fits_sampleText {ps : List (List Char)} (h : fits ps samplePrefix = true) (n : Fin 16) :
    fits (ps ++ [hexDigits]) (sampleText n).toList = true := by
  unfold sampleText
  rw [String.toList_ofList]
  apply fits_append h
  simp [fits, (sampleDigit_spec n).1]

def sample (n : Fin 16) : RandomUUID where
  val :=
    { text := sampleText n
      isText := fits_sampleText (show fits (uuidPattern.take 35) samplePrefix = true by decide) n
      lower := by
        unfold toLowerCase sampleText
        rw [String.toList_ofList, List.map_append, List.map_singleton, (sampleDigit_spec n).2]
        rfl }
  v4 := fits_sampleText (show fits (v4Pattern.take 35) samplePrefix = true by decide) n

def sampleDraw (id rowId messageId otherRowId otherMessageId : Fin 16) : Draw where
  id := sample id
  rowId := sample rowId
  messageId := sample messageId
  otherRowId := sample otherRowId
  otherMessageId := sample otherMessageId
  sent := 0
  now := 0
  later := 0
  budget := none

end EventBooking
