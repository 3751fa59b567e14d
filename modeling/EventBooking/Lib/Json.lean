import Mathlib

/-!
# JSON texts

Values, the text `stringify` writes without white space, and the full grammar
that `parse` reads. `parse` inverts `stringify`. A number is kept as the
decimal it is written as, and an object keeps its members in order with every
duplicate; what a program makes of either is its own affair.
-/

namespace Lib

inductive Json
  | null
  | bool (b : Bool)
  | num (mantissa exponent : Int)
  | str (s : String)
  | arr (items : List Json)
  | obj (members : List (String × Json))

namespace Json

def int (n : Int) : Json := .num n 0

/-- Of members with one name the last counts. -/
def get? (key : String) : Json → Option Json
  | .obj members => members.reverse.lookup key
  | _ => none

/-! ## Writing -/

def natText (n : Nat) : List Char := Nat.toDigits 10 n

def intText (n : Int) : List Char := if n < 0 then '-' :: natText n.natAbs else natText n.natAbs

def numText (mantissa exponent : Int) : List Char :=
  if exponent = 0 then intText mantissa else intText mantissa ++ 'e' :: intText exponent

def hexDigit (n : Nat) : Char := Nat.digitChar n

def escape (c : Char) : List Char :=
  if c = '"' then ['\\', '"']
  else if c = '\\' then ['\\', '\\']
  else if c.toNat = 8 then ['\\', 'b']
  else if c.toNat = 9 then ['\\', 't']
  else if c.toNat = 10 then ['\\', 'n']
  else if c.toNat = 12 then ['\\', 'f']
  else if c.toNat = 13 then ['\\', 'r']
  else if c.toNat < 32 then ['\\', 'u', '0', '0', hexDigit (c.toNat / 16), hexDigit (c.toNat % 16)]
  else [c]

def strText (s : String) : List Char := '"' :: s.toList.flatMap escape ++ ['"']

mutual

def text : Json → List Char
  | .null => ['n', 'u', 'l', 'l']
  | .bool true => ['t', 'r', 'u', 'e']
  | .bool false => ['f', 'a', 'l', 's', 'e']
  | .num mantissa exponent => numText mantissa exponent
  | .str s => strText s
  | .arr [] => ['[', ']']
  | .arr (j :: js) => '[' :: text j ++ itemsText js
  | .obj [] => ['{', '}']
  | .obj ((k, j) :: ms) => '{' :: strText k ++ ':' :: text j ++ membersText ms

def itemsText : List Json → List Char
  | [] => [']']
  | j :: js => ',' :: text j ++ itemsText js

def membersText : List (String × Json) → List Char
  | [] => ['}']
  | (k, j) :: ms => ',' :: strText k ++ ':' :: text j ++ membersText ms

end

def stringify (j : Json) : String := String.ofList (text j)

/-! ## Reading -/

def isBlank (c : Char) : Bool := c = ' ' || c = '\t' || c = '\n' || c = '\r'

def skip (cs : List Char) : List Char := cs.dropWhile isBlank

def readInteger : List Char → Option (Nat × List Char)
  | [] => none
  | c :: cs =>
    if c = '0' then some (0, cs)
    else if c.isDigit then
      some (Nat.ofDigitChars 10 ((c :: cs).takeWhile Char.isDigit) 0, (c :: cs).dropWhile Char.isDigit)
    else none

/-- Digits of which there must be one, appended to `n`, with their number. -/
def readDigits (n : Nat) (cs : List Char) : Option (Nat × Nat × List Char) :=
  let ds := cs.takeWhile Char.isDigit
  if ds = [] then none else some (Nat.ofDigitChars 10 ds n, ds.length, cs.dropWhile Char.isDigit)

def readFraction (n : Nat) : List Char → Option (Nat × Nat × List Char)
  | '.' :: cs => readDigits n cs
  | cs => some (n, 0, cs)

def signed (negative : Bool) (n : Nat) : Int := if negative then -n else n

def readMinus : List Char → Bool × List Char
  | '-' :: cs => (true, cs)
  | cs => (false, cs)

def readSign : List Char → Bool × List Char
  | '+' :: cs => (false, cs)
  | cs => readMinus cs

def readExponent : List Char → Option (Int × List Char)
  | [] => some (0, [])
  | c :: cs =>
    if c = 'e' ∨ c = 'E' then
      (readDigits 0 (readSign cs).2).map fun (n, _, rest) => (signed (readSign cs).1 n, rest)
    else some (0, c :: cs)

def readNumber (cs : List Char) : Option (Json × List Char) := do
  let (n, rest) ← readInteger (readMinus cs).2
  let (n, places, rest) ← readFraction n rest
  let (exponent, rest) ← readExponent rest
  return (.num (signed (readMinus cs).1 n) (exponent - places), rest)

def hexValue (c : Char) : Option Nat :=
  if c.isDigit then some (c.toNat - 48)
  else if 'a' ≤ c ∧ c ≤ 'f' then some (c.toNat - 87)
  else if 'A' ≤ c ∧ c ≤ 'F' then some (c.toNat - 55)
  else none

def unescape (c : Char) : Option Nat :=
  if c = '"' ∨ c = '\\' ∨ c = '/' then some c.toNat
  else if c = 'b' then some 8
  else if c = 't' then some 9
  else if c = 'n' then some 10
  else if c = 'f' then some 12
  else if c = 'r' then some 13
  else none

def readHex (a b c d : Char) : Option Nat := do
  let a ← hexValue a
  let b ← hexValue b
  let c ← hexValue c
  let d ← hexValue d
  return a * 4096 + b * 256 + c * 16 + d

/-- The UTF-16 units up to the closing quote. A character that stands for itself is one unit here. -/
def readUnits : List Char → Option (List Nat × List Char)
  | [] => none
  | '"' :: cs => some ([], cs)
  | '\\' :: 'u' :: a :: b :: c :: d :: cs =>
    (readHex a b c d).bind fun u => (readUnits cs).map fun (us, rest) => (u :: us, rest)
  | '\\' :: c :: cs => (unescape c).bind fun u => (readUnits cs).map fun (us, rest) => (u :: us, rest)
  | c :: cs => if c.toNat < 32 then none else (readUnits cs).map fun (us, rest) => (c.toNat :: us, rest)

def isSurrogate (u : Nat) : Bool := 55296 ≤ u && u < 57344

/-- A surrogate without its other half has no character of its own. -/
def scalar (u : Nat) : Char := if isSurrogate u then Char.ofNat 65533 else Char.ofNat u

def scalars : List Nat → List Char
  | [] => []
  | [u] => [scalar u]
  | high :: low :: us =>
    if 55296 ≤ high ∧ high < 56320 ∧ 56320 ≤ low ∧ low < 57344 then
      Char.ofNat (65536 + (high - 55296) * 1024 + (low - 56320)) :: scalars us
    else scalar high :: scalars (low :: us)

def readString (cs : List Char) : Option (String × List Char) :=
  (readUnits cs).map fun (us, rest) => (String.ofList (scalars us), rest)

def readWord (word : List Char) (j : Json) (cs : List Char) : Option (Json × List Char) :=
  if word.isPrefixOf cs then some (j, cs.drop word.length) else none

mutual

def parseValue : Nat → List Char → Option (Json × List Char)
  | 0, _ => none
  | fuel + 1, cs =>
    match skip cs with
    | [] => none
    | 'n' :: cs => readWord ['u', 'l', 'l'] .null cs
    | 't' :: cs => readWord ['r', 'u', 'e'] (.bool true) cs
    | 'f' :: cs => readWord ['a', 'l', 's', 'e'] (.bool false) cs
    | '"' :: cs => (readString cs).map fun (s, rest) => (.str s, rest)
    | '[' :: cs =>
      match skip cs with
      | ']' :: rest => some (.arr [], rest)
      | _ => (parseItems fuel cs).map fun (js, rest) => (.arr js, rest)
    | '{' :: cs =>
      match skip cs with
      | '}' :: rest => some (.obj [], rest)
      | _ => (parseMembers fuel cs).map fun (ms, rest) => (.obj ms, rest)
    | c :: cs => readNumber (c :: cs)

def parseItems : Nat → List Char → Option (List Json × List Char)
  | 0, _ => none
  | fuel + 1, cs => do
    let (j, rest) ← parseValue fuel cs
    match skip rest with
    | ',' :: rest => (parseItems fuel rest).map fun (js, rest) => (j :: js, rest)
    | ']' :: rest => some ([j], rest)
    | _ => none

def parseMembers : Nat → List Char → Option (List (String × Json) × List Char)
  | 0, _ => none
  | fuel + 1, cs =>
    match skip cs with
    | '"' :: cs => do
      let (k, rest) ← readString cs
      match skip rest with
      | ':' :: rest => do
        let (j, rest) ← parseValue fuel rest
        match skip rest with
        | ',' :: rest => (parseMembers fuel rest).map fun (ms, rest) => ((k, j) :: ms, rest)
        | '}' :: rest => some ([(k, j)], rest)
        | _ => none
      | _ => none
    | _ => none

end

/-- No text nests deeper than it is long. -/
def parse (s : String) : Option Json := do
  let (j, rest) ← parseValue (s.toList.length + 1) s.toList
  if skip rest = [] then some j else none

/-! ## Numbers read back -/

/-- What may follow a number: none of the characters that would continue it. -/
def Ends (rest : List Char) : Prop :=
  ∀ c, rest.head? = some c → c.isDigit = false ∧ c ≠ '.' ∧ c ≠ 'e' ∧ c ≠ 'E'

def NoDigit (rest : List Char) : Prop := ∀ c, rest.head? = some c → c.isDigit = false

theorem Ends.noDigit {rest : List Char} (h : Ends rest) : NoDigit rest := fun c hc => (h c hc).1

theorem noDigit_cons {c : Char} {rest : List Char} (h : c.isDigit = false) : NoDigit (c :: rest) := by
  intro d hd
  cases hd
  exact h

theorem natText_isDigit {n : Nat} {c : Char} (h : c ∈ natText n) : c.isDigit = true :=
  Nat.isDigit_of_mem_toDigits (by decide) (by decide) h

theorem natText_value (n : Nat) : Nat.ofDigitChars 10 (natText n) 0 = n := Nat.ofDigitChars_ten_toDigits

theorem natText_ne_nil (n : Nat) : natText n ≠ [] := Nat.toDigits_ne_nil

theorem natText_cons (n : Nat) : ∃ d ds, natText n = d :: ds ∧ d.isDigit = true ∧ (d = '0' → n = 0 ∧ ds = []) := by
  induction n using Nat.base_induction 10 (by decide) with
  | single m hm =>
    refine ⟨m.digitChar, [], Nat.toDigits_of_lt_base hm, ?_, fun h => ⟨Nat.digitChar_eq_zero.mp h, rfl⟩⟩
    rw [Nat.isDigit_digitChar]; exact decide_eq_true hm
  | digit m k hk hm ih =>
    obtain ⟨d, ds, hd, hdigit, hzero⟩ := ih
    refine ⟨d, ds ++ [k.digitChar], ?_, hdigit, fun h => absurd (hzero h).1 (by omega)⟩
    unfold natText at hd ⊢
    rw [← Nat.toDigits_append_toDigits (by decide) hm hk, hd, Nat.toDigits_of_lt_base hk]
    rfl

theorem takeWhile_natText (n : Nat) {rest : List Char} (h : NoDigit rest) :
    (natText n ++ rest).takeWhile Char.isDigit = natText n ∧
      (natText n ++ rest).dropWhile Char.isDigit = rest := by
  have hrest : rest.takeWhile Char.isDigit = [] ∧ rest.dropWhile Char.isDigit = rest := by
    cases rest with
    | nil => exact ⟨rfl, rfl⟩
    | cons c cs => simp [h c rfl]
  rw [List.takeWhile_append_of_pos fun c hc => natText_isDigit hc,
    List.dropWhile_append_of_pos fun c hc => natText_isDigit hc, hrest.1, hrest.2, List.append_nil]
  exact ⟨rfl, rfl⟩

theorem readInteger_natText (n : Nat) {rest : List Char} (h : NoDigit rest) :
    readInteger (natText n ++ rest) = some (n, rest) := by
  obtain ⟨d, ds, hd, hdigit, hzero⟩ := natText_cons n
  have htake := takeWhile_natText n h
  rw [hd] at htake ⊢
  by_cases h0 : d = '0'
  · obtain ⟨rfl, rfl⟩ := hzero h0
    simp [readInteger, h0]
  · have hvalue := natText_value n
    rw [hd] at hvalue
    rw [List.cons_append] at htake ⊢
    simp only [readInteger, if_neg h0, if_pos hdigit, htake.1, htake.2, hvalue]

theorem readDigits_natText (n : Nat) {rest : List Char} (h : NoDigit rest) :
    readDigits 0 (natText n ++ rest) = some (n, (natText n).length, rest) := by
  obtain ⟨ht, hd⟩ := takeWhile_natText n h
  simp only [readDigits, ht, hd, if_neg (natText_ne_nil n), natText_value]

theorem readFraction_none (n : Nat) {rest : List Char} (h : ∀ cs, rest ≠ '.' :: cs) :
    readFraction n rest = some (n, 0, rest) := by
  unfold readFraction
  split
  · rename_i cs; exact absurd rfl (h cs)
  · rfl

theorem readExponent_none {rest : List Char} (h : Ends rest) : readExponent rest = some (0, rest) := by
  unfold readExponent
  split
  · rfl
  · rename_i c cs
    obtain ⟨_, _, h1, h2⟩ := h c rfl
    rw [if_neg (by simp [h1, h2])]

theorem signed_natAbs (n : Int) : signed (decide (n < 0)) n.natAbs = n := by
  unfold signed
  by_cases h : n < 0
  · rw [decide_eq_true h, if_pos rfl]; omega
  · rw [decide_eq_false h, if_neg Bool.false_ne_true]; omega

theorem digit_ne {d : Char} (h : d.isDigit = true) :
    d ≠ '-' ∧ d ≠ '+' ∧ d ≠ '.' ∧ d ≠ 'e' ∧ d ≠ 'n' ∧ d ≠ 't' ∧ d ≠ 'f' ∧ d ≠ '"' ∧ d ≠ '[' ∧ d ≠ '{' := by
  refine ⟨?_, ?_, ?_, ?_, ?_, ?_, ?_, ?_, ?_, ?_⟩
  all_goals rintro rfl; exact absurd h (by decide)

theorem readMinus_intText (n : Int) (rest : List Char) :
    readMinus (intText n ++ rest) = (decide (n < 0), natText n.natAbs ++ rest) := by
  unfold intText
  by_cases h : n < 0
  · simp [h, readMinus]
  · obtain ⟨d, ds, hd, hdigit, _⟩ := natText_cons n.natAbs
    rw [if_neg h, hd, List.cons_append]
    unfold readMinus
    split
    · rename_i he
      exact absurd (List.cons.inj he).1 (digit_ne hdigit).1
    · simp [h]

theorem readSign_intText (n : Int) (rest : List Char) :
    readSign (intText n ++ rest) = (decide (n < 0), natText n.natAbs ++ rest) := by
  rw [← readMinus_intText]
  unfold readSign
  split
  · rename_i cs he
    exfalso
    unfold intText at he
    obtain ⟨d, ds, hd, hdigit, _⟩ := natText_cons n.natAbs
    split at he
    · exact absurd (List.cons.inj he).1 (by decide)
    · rw [hd] at he
      exact absurd (List.cons.inj he).1 (digit_ne hdigit).2.1
  · rfl

theorem readExponent_text (n : Int) {rest : List Char} (h : NoDigit rest) :
    readExponent ('e' :: (intText n ++ rest)) = some (n, rest) := by
  simp [readExponent, readSign_intText, readDigits_natText _ h, signed_natAbs]

theorem readNumber_text (m e : Int) {rest : List Char} (h : Ends rest) :
    readNumber (numText m e ++ rest) = some (.num m e, rest) := by
  unfold numText
  by_cases he : e = 0
  · have hdot : ∀ cs, rest ≠ '.' :: cs := by
      intro cs hr; subst hr; exact (h '.' rfl).2.1 rfl
    simp [he, readNumber, readMinus_intText, readInteger_natText _ h.noDigit, readFraction_none _ hdot,
      readExponent_none h, signed_natAbs]
  · have hdigit : NoDigit ('e' :: (intText e ++ rest)) := noDigit_cons (by decide)
    simp [he, readNumber, readMinus_intText, readInteger_natText _ hdigit,
      readFraction_none _ (show ∀ cs, 'e' :: (intText e ++ rest) ≠ '.' :: cs from fun cs hc => by simp at hc),
      readExponent_text e h.noDigit, signed_natAbs]

/-! ## Strings read back -/

theorem hexValue_hexDigit : ∀ n < 16, hexValue (hexDigit n) = some n := by decide

theorem readUnits_cons {c : Char} (h : c ≠ '"') (h' : c ≠ '\\') (h32 : ¬ c.toNat < 32) (rest : List Char) :
    readUnits (c :: rest) = (readUnits rest).map fun (us, r) => (c.toNat :: us, r) := by
  conv_lhs => unfold readUnits
  split
  · contradiction
  · rename_i he; exact absurd (List.cons.inj he).1 h
  · rename_i he; exact absurd (List.cons.inj he).1 h'
  · rename_i he; exact absurd (List.cons.inj he).1 h'
  · rename_i he
    cases he
    rw [if_neg h32]

theorem readUnits_unescape {c : Char} {u : Nat} (h : unescape c = some u) (rest : List Char) :
    readUnits ('\\' :: c :: rest) = (readUnits rest).map fun (us, r) => (u :: us, r) := by
  have hu : c ≠ 'u' := by rintro rfl; rw [show unescape 'u' = none from rfl] at h; cases h
  conv_lhs => unfold readUnits
  split
  · contradiction
  · rename_i he; exact absurd (List.cons.inj he).1 (by decide)
  · rename_i he; exact absurd (List.cons.inj (List.cons.inj he).2).1 hu
  · rename_i he
    cases he
    rw [h]; rfl
  · rename_i hne he
    cases he
    exact (hne c rest rfl rfl).elim

theorem readUnits_escape (c : Char) (rest : List Char) :
    readUnits (escape c ++ rest) = (readUnits rest).map fun (us, r) => (c.toNat :: us, r) := by
  unfold escape
  split
  · rename_i h; subst h; exact readUnits_unescape (by decide) rest
  split
  · rename_i h; subst h; exact readUnits_unescape (by decide) rest
  split
  · rename_i h; rw [h]; exact readUnits_unescape (by decide) rest
  split
  · rename_i h; rw [h]; exact readUnits_unescape (by decide) rest
  split
  · rename_i h; rw [h]; exact readUnits_unescape (by decide) rest
  split
  · rename_i h; rw [h]; exact readUnits_unescape (by decide) rest
  split
  · rename_i h; rw [h]; exact readUnits_unescape (by decide) rest
  split
  · rename_i h
    have hhigh := hexValue_hexDigit (c.toNat / 16) (by omega)
    have hlow := hexValue_hexDigit (c.toNat % 16) (by omega)
    have hzero : hexValue '0' = some 0 := by decide
    have hunit : readHex '0' '0' (hexDigit (c.toNat / 16)) (hexDigit (c.toNat % 16)) = some c.toNat := by
      simp only [readHex, hhigh, hlow, hzero, Option.bind_eq_bind, Option.bind_some, Option.pure_def,
        Option.some.injEq]
      omega
    simp only [List.cons_append, List.nil_append, readUnits, hunit, Option.bind_some]
  · exact readUnits_cons ‹_› ‹_› ‹_› rest

theorem readUnits_text (cs rest : List Char) :
    readUnits (cs.flatMap escape ++ '"' :: rest) = some (cs.map Char.toNat, rest) := by
  induction cs with
  | nil => simp [readUnits]
  | cons c cs ih => rw [List.flatMap_cons, List.append_assoc, readUnits_escape, ih]; rfl

theorem scalar_toNat (c : Char) : ¬ (55296 ≤ c.toNat ∧ c.toNat < 57344) ∧ scalar c.toNat = c := by
  have hs : ¬ (55296 ≤ c.toNat ∧ c.toNat < 57344) := by
    rcases c.valid with h | h
    · have : c.toNat < 55296 := h
      omega
    · have : 57343 < c.toNat := h.1
      omega
  refine ⟨hs, ?_⟩
  unfold scalar isSurrogate
  rw [if_neg (by simpa using hs), Char.ofNat_toNat]

theorem scalars_toNat (cs : List Char) : scalars (cs.map Char.toNat) = cs := by
  induction cs with
  | nil => rfl
  | cons c cs ih =>
    obtain ⟨hc, he⟩ := scalar_toNat c
    cases cs with
    | nil => simp [scalars, he]
    | cons d ds =>
      simp only [List.map_cons] at ih ⊢
      rw [scalars, if_neg (by omega), he, ih]

theorem readString_text (s : String) (rest : List Char) :
    readString (s.toList.flatMap escape ++ '"' :: rest) = some (s, rest) := by
  simp [readString, readUnits_text, scalars_toNat]


/-! ## Values read back -/

theorem skip_cons {c : Char} (h : isBlank c = false) (cs : List Char) : skip (c :: cs) = c :: cs := by
  simp [skip, h]

theorem ends_cons {c : Char} (h : c.isDigit = false ∧ c ≠ '.' ∧ c ≠ 'e' ∧ c ≠ 'E') (rest : List Char) :
    Ends (c :: rest) := by
  intro d hd
  cases hd
  exact h

theorem ends_itemsText (js : List Json) (rest : List Char) : Ends (itemsText js ++ rest) := by
  cases js with
  | nil => exact ends_cons (by decide) _
  | cons j js => exact ends_cons (by decide) _

theorem ends_membersText (ms : List (String × Json)) (rest : List Char) : Ends (membersText ms ++ rest) := by
  cases ms with
  | nil => exact ends_cons (by decide) _
  | cons m ms => exact ends_cons (by decide) _

theorem numText_cons (m e : Int) : ∃ c cs, numText m e = c :: cs ∧ (c = '-' ∨ c.isDigit = true) := by
  have hint : ∃ c cs, intText m = c :: cs ∧ (c = '-' ∨ c.isDigit = true) := by
    unfold intText
    split
    · exact ⟨_, _, rfl, Or.inl rfl⟩
    · obtain ⟨d, ds, hd, hdigit, _⟩ := natText_cons m.natAbs
      exact ⟨d, ds, hd, Or.inr hdigit⟩
  obtain ⟨c, cs, hc, h⟩ := hint
  unfold numText
  split
  · exact ⟨c, cs, hc, h⟩
  · exact ⟨c, cs ++ 'e' :: intText e, by rw [hc]; rfl, h⟩

theorem not_blank_of_digit {c : Char} (h : c.isDigit = true) : isBlank c = false := by
  have : c ≠ ' ' ∧ c ≠ '\t' ∧ c ≠ '\n' ∧ c ≠ '\r' := by
    refine ⟨?_, ?_, ?_, ?_⟩
    all_goals rintro rfl; exact absurd h (by decide)
  simp [isBlank, this]

theorem parseValue_number {c : Char} {fuel : Nat} (h : c = '-' ∨ c.isDigit = true) (cs : List Char) :
    parseValue (fuel + 1) (c :: cs) = readNumber (c :: cs) := by
  rcases h with rfl | h
  · rw [parseValue, skip_cons (by decide)]
    rfl
  · obtain ⟨-, -, -, -, hn, ht, hf, hs, ha, ho⟩ := digit_ne h
    rw [parseValue, skip_cons (not_blank_of_digit h)]
    split
    · contradiction
    · rename_i he; exact absurd (List.cons.inj he).1 hn
    · rename_i he; exact absurd (List.cons.inj he).1 ht
    · rename_i he; exact absurd (List.cons.inj he).1 hf
    · rename_i he; exact absurd (List.cons.inj he).1 hs
    · rename_i he; exact absurd (List.cons.inj he).1 ha
    · rename_i he; exact absurd (List.cons.inj he).1 ho
    · rename_i he; rw [he]

theorem text_cons (j : Json) : ∃ c cs, text j = c :: cs ∧ isBlank c = false ∧ c ≠ ']' := by
  cases j with
  | null => exact ⟨_, _, rfl, by decide, by decide⟩
  | bool b => cases b <;> exact ⟨_, _, rfl, by decide, by decide⟩
  | num m e =>
    obtain ⟨c, cs, hc, h⟩ := numText_cons m e
    refine ⟨c, cs, hc, ?_, ?_⟩
    · rcases h with rfl | h
      · decide
      · exact not_blank_of_digit h
    · rcases h with rfl | h
      · decide
      · rintro rfl; exact absurd h (by decide)
  | str s => exact ⟨_, _, rfl, by decide, by decide⟩
  | arr js => cases js <;> exact ⟨_, _, rfl, by decide, by decide⟩
  | obj ms =>
    rcases ms with _ | ⟨⟨k, j⟩, ms⟩
    · exact ⟨_, _, rfl, by decide, by decide⟩
    · exact ⟨_, _, rfl, by decide, by decide⟩

theorem strText_append (s : String) (rest : List Char) :
    strText s ++ rest = '"' :: (s.toList.flatMap escape ++ '"' :: rest) := by
  simp [strText]

theorem parseValue_str (fuel : Nat) (s : String) (rest : List Char) :
    parseValue (fuel + 1) (strText s ++ rest) = some (.str s, rest) := by
  rw [strText_append, parseValue, skip_cons (by decide)]
  simp only [readString_text, Option.map_some]

theorem parseValue_arr {c : Char} {cs rest : List Char} {fuel : Nat} {js : List Json} (hb : isBlank c = false)
    (hc : c ≠ ']') (h : parseItems fuel (c :: cs) = some (js, rest)) :
    parseValue (fuel + 1) ('[' :: c :: cs) = some (.arr js, rest) := by
  rw [parseValue, skip_cons (by decide)]
  simp only [skip_cons hb, h]
  split
  · rename_i he; exact absurd (List.cons.inj he).1 hc
  · rfl

theorem parseValue_obj {c : Char} {cs rest : List Char} {fuel : Nat} {ms : List (String × Json)}
    (hb : isBlank c = false) (hc : c ≠ '}') (h : parseMembers fuel (c :: cs) = some (ms, rest)) :
    parseValue (fuel + 1) ('{' :: c :: cs) = some (.obj ms, rest) := by
  rw [parseValue, skip_cons (by decide)]
  simp only [skip_cons hb, h]
  split
  · rename_i he; exact absurd (List.cons.inj he).1 hc
  · rfl

mutual

/-- Fuel for the length of the text is enough, since an array or object closes what it opens. -/
theorem parseValue_text : ∀ (j : Json) (fuel : Nat) (rest : List Char), (text j).length ≤ fuel → Ends rest →
    parseValue fuel (text j ++ rest) = some (j, rest)
  | j, 0, rest, hf, _ => by
    obtain ⟨c, cs, hc, _⟩ := text_cons j
    simp [hc] at hf
  | .null, fuel + 1, rest, _, _ => by simp [text, parseValue, skip, isBlank, readWord]
  | .bool true, fuel + 1, rest, _, _ => by simp [text, parseValue, skip, isBlank, readWord]
  | .bool false, fuel + 1, rest, _, _ => by simp [text, parseValue, skip, isBlank, readWord]
  | .num m e, fuel + 1, rest, _, hr => by
    obtain ⟨c, cs, hc, h⟩ := numText_cons m e
    rw [text, hc, List.cons_append, parseValue_number h, ← List.cons_append, ← hc]
    exact readNumber_text m e hr
  | .str s, fuel + 1, rest, _, _ => parseValue_str fuel s rest
  | .arr [], fuel + 1, rest, _, _ => by simp [text, parseValue, skip, isBlank]
  | .arr (j :: js), fuel + 1, rest, hf, _ => by
    have hitems := parseItems_text j js fuel rest (by
      simp only [text, List.cons_append, List.length_cons, List.length_append] at hf; omega)
    obtain ⟨c, cs, hc, hb, hne⟩ := text_cons j
    simp only [text, hc, List.cons_append, List.append_assoc] at hitems ⊢
    exact parseValue_arr hb hne hitems
  | .obj [], fuel + 1, rest, _, _ => by simp [text, parseValue, skip, isBlank]
  | .obj ((k, j) :: ms), fuel + 1, rest, hf, _ => by
    have hmembers := parseMembers_text k j ms fuel rest (by
      simp only [text, strText, List.cons_append, List.length_cons, List.length_append] at hf; omega)
    simp only [text, strText_append, List.cons_append, List.append_assoc] at hmembers ⊢
    exact parseValue_obj (by decide) (by decide) hmembers

theorem parseItems_text : ∀ (j : Json) (js : List Json) (fuel : Nat) (rest : List Char),
    (text j).length + (itemsText js).length ≤ fuel →
    parseItems fuel (text j ++ (itemsText js ++ rest)) = some (j :: js, rest)
  | j, js, 0, rest, hf => by
    obtain ⟨c, cs, hc, _⟩ := text_cons j
    simp [hc] at hf
  | j, [], fuel + 1, rest, hf => by
    have hj := parseValue_text j fuel (itemsText [] ++ rest) (by
      simp only [itemsText, List.length_singleton] at hf; omega) (ends_itemsText _ _)
    rw [parseItems, hj]
    simp [itemsText, skip, isBlank]
  | j, j' :: js, fuel + 1, rest, hf => by
    simp only [itemsText, List.cons_append, List.length_cons, List.length_append] at hf
    have hj := parseValue_text j fuel (itemsText (j' :: js) ++ rest) (by omega) (ends_itemsText _ _)
    have hitems := parseItems_text j' js fuel rest (by omega)
    rw [parseItems, hj]
    simp [itemsText, skip, isBlank, hitems]

theorem parseMembers_text : ∀ (k : String) (j : Json) (ms : List (String × Json)) (fuel : Nat) (rest : List Char),
    (text j).length + (membersText ms).length < fuel →
    parseMembers fuel (strText k ++ (':' :: (text j ++ (membersText ms ++ rest)))) = some ((k, j) :: ms, rest)
  | k, j, ms, 0, rest, hf => by omega
  | k, j, [], fuel + 1, rest, hf => by
    have hj := parseValue_text j fuel (membersText [] ++ rest) (by omega) (ends_membersText _ _)
    rw [strText_append, parseMembers, skip_cons (by decide)]
    simp only [readString_text, skip_cons (show isBlank ':' = false by decide), Option.bind_eq_bind,
      Option.bind_some, hj]
    simp [membersText, skip, isBlank]
  | k, j, (k', j') :: ms, fuel + 1, rest, hf => by
    simp only [membersText, strText, List.cons_append, List.length_cons, List.length_append] at hf
    have hj := parseValue_text j fuel (membersText ((k', j') :: ms) ++ rest) (by omega) (ends_membersText _ _)
    have hmembers := parseMembers_text k' j' ms fuel rest (by omega)
    rw [strText_append, parseMembers, skip_cons (by decide)]
    simp only [readString_text, skip_cons (show isBlank ':' = false by decide), Option.bind_eq_bind,
      Option.bind_some, hj]
    simp [membersText, skip, isBlank, hmembers]

end

theorem parse_stringify (j : Json) : parse (stringify j) = some j := by
  have h := parseValue_text j ((text j).length + 1) [] (Nat.le_succ _) (fun c hc => by cases hc)
  rw [List.append_nil] at h
  unfold parse stringify
  rw [String.toList_ofList, h]
  rfl

end Json

end Lib
