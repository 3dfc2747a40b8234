import Mathlib.Data.List.Basic
import Mathlib.Data.Nat.Digits.Defs
import ScopeFrames.Json

/-!
Texts of JSON read back: what is written is read as the value it was written for, whatever its
strings hold.  The reader allows what the grammar allows, blanks between tokens and every escape.
-/

namespace ScopeFrames.Json

def isBlank (c : Char) : Bool := c = ' ' || c = '\t' || c = '\n' || c = '\r'

def skip (cs : List Char) : List Char := cs.dropWhile isBlank

def expect (token : Char) (cs : List Char) : Option (List Char) :=
  match skip cs with
  | c :: rest => if c = token then some rest else none
  | [] => none

def hexValue? (c : Char) : Option Nat :=
  if '0' ≤ c ∧ c ≤ '9' then some (c.toNat - '0'.toNat)
  else if 'a' ≤ c ∧ c ≤ 'f' then some (c.toNat - 'a'.toNat + 10)
  else if 'A' ≤ c ∧ c ≤ 'F' then some (c.toNat - 'A'.toNat + 10)
  else none

def readUnit : List Char → Option (Nat × List Char)
  | a :: b :: c :: d :: rest => do
    let a ← hexValue? a
    let b ← hexValue? b
    let c ← hexValue? c
    let d ← hexValue? d
    some (((a * 16 + b) * 16 + c) * 16 + d, rest)
  | _ => none

def readUnits (cs : List Char) : Option (Char × List Char) := do
  let (unit, rest) ← readUnit cs
  if unit < 0xd800 ∨ 0xe000 ≤ unit then some (Char.ofNat unit, rest)
  else if 0xdc00 ≤ unit then none
  else match rest with
    | '\\' :: 'u' :: rest => do
      let (low, rest) ← readUnit rest
      if 0xdc00 ≤ low ∧ low < 0xe000 then
        some (Char.ofNat (0x10000 + (unit - 0xd800) * 0x400 + (low - 0xdc00)), rest)
      else none
    | _ => none

def unescape? : Char → Option Char
  | '"' => some '"'
  | '\\' => some '\\'
  | '/' => some '/'
  | 'b' => some '\x08'
  | 'f' => some '\x0c'
  | 'n' => some '\n'
  | 'r' => some '\r'
  | 't' => some '\t'
  | _ => none

def readChar : List Char → Option (Char × List Char)
  | '\\' :: 'u' :: rest => readUnits rest
  | '\\' :: c :: rest => (unescape? c).map (·, rest)
  | c :: rest => if c = '"' ∨ c = '\\' ∨ c.toNat < 0x20 then none else some (c, rest)
  | [] => none

def closing? : List Char → Option (List Char)
  | '"' :: rest => some rest
  | _ => none

def readChars : Nat → List Char → Option (List Char × List Char)
  | 0, _ => none
  | fuel + 1, cs =>
    match readChar cs with
    | some (c, rest) => (readChars fuel rest).map fun (s, rest) => (c :: s, rest)
    | none => (closing? cs).map ([], ·)

def readQuoted (fuel : Nat) (cs : List Char) : Option (String × List Char) :=
  (readChars fuel cs).map fun (s, rest) => (String.ofList s, rest)

def readNumber (cs : List Char) : Option (Nat × List Char) :=
  let digits := cs.takeWhile (·.isDigit)
  if digits = [] ∨ (digits.head? = some '0' ∧ digits ≠ ['0']) then none
  else some (Nat.ofDigitChars 10 digits 0, cs.dropWhile (·.isDigit))

mutual

def readValue : Nat → List Char → Option (Json × List Char)
  | 0, _ => none
  | fuel + 1, cs =>
    match skip cs with
    | '"' :: rest => (readQuoted fuel rest).map fun (s, rest) => (.string s, rest)
    | '\x7b' :: rest =>
      match skip rest with
      | '\x7d' :: rest => some (.object [], rest)
      | rest => (readFields fuel rest).map fun (fields, rest) => (.object fields, rest)
    | cs => (readNumber cs).map fun (n, rest) => (.number n, rest)

def readFields : Nat → List Char → Option (List (String × Json) × List Char)
  | 0, _ => none
  | fuel + 1, cs => do
    let rest ← expect '"' cs
    let (key, rest) ← readQuoted fuel rest
    let rest ← expect ':' rest
    let (value, rest) ← readValue fuel rest
    match skip rest with
    | ',' :: rest => (readFields fuel rest).map fun (fields, rest) => ((key, value) :: fields, rest)
    | '\x7d' :: rest => some ([(key, value)], rest)
    | _ => none

end

def read (text : String) : Option Json := do
  let (j, rest) ← readValue (text.length + 1) text.toList
  if skip rest = [] then some j else none

section Strings

variable {c : Char} {cs rest : List Char} {fuel : Nat}

theorem hexValue?_hexDigit (n : Nat) : hexValue? (hexDigit n) = some (n % 16) := by
  have all : ∀ d < 16, hexValue? (Nat.digitChar d) = some d := by decide
  exact all _ (Nat.mod_lt n (by decide))

theorem readUnits_control (control : c.toNat < 0x20) : readUnits
    ('0' :: '0' :: hexDigit (c.toNat / 16) :: hexDigit c.toNat :: rest) = some (c, rest) := by
  have unit : ((0 * 16 + 0) * 16 + c.toNat / 16 % 16) * 16 + c.toNat % 16 = c.toNat := by omega
  have zero : hexValue? '0' = some 0 := by decide
  have basic : c.toNat < 0xd800 ∨ 0xe000 ≤ c.toNat := by omega
  simp only [readUnits, readUnit, zero, hexValue?_hexDigit, Option.bind_eq_bind, Option.bind_some,
    unit, if_pos basic, Char.ofNat_toNat]

theorem readChar_escape (c : Char) (rest : List Char) :
    readChar (escape c ++ rest) = some (c, rest) := by
  unfold escape
  split
  -- The eighth case is that of a character without a short escape.
  case h_8 =>
    split
    case isTrue control => exact readUnits_control control
    case isFalse visible =>
      rw [List.singleton_append]
      unfold readChar
      split <;> simp_all
  all_goals rfl

example : readChar ("\\uD83D\\uDE00!".toList) = some ('😀', ['!']) := by decide +kernel

theorem readChars_escape (enough : cs.length < fuel) :
    readChars fuel (cs.flatMap escape ++ '"' :: rest) = some (cs, rest) := by
  induction cs generalizing fuel with
  | nil =>
    cases fuel with
    | zero => cases enough
    | succ fuel => rfl
  | cons c cs ih =>
    cases fuel with
    | zero => cases enough
    | succ fuel =>
      rw [List.flatMap_cons, List.append_assoc, readChars, readChar_escape]
      simp only [ih (Nat.lt_of_succ_lt_succ enough), Option.map_some]

theorem readQuoted_escape {s : String} (enough : s.length < fuel) :
    readQuoted fuel (s.toList.flatMap escape ++ '"' :: rest) = some (s, rest) := by
  have within : s.toList.length < fuel := s.length_toList ▸ enough
  simp [readQuoted, readChars_escape within]

theorem quote_append (s : String) (rest : List Char) :
    quote s ++ rest = '"' :: (s.toList.flatMap escape ++ '"' :: rest) := by
  simp [quote]

end Strings

section Numbers

variable {rest : List Char} {n : Nat}

def Stops (rest : List Char) : Prop := ∀ c ∈ rest.head?, c.isDigit = false

theorem head_toDigits (positive : 0 < n) : (Nat.toDigits 10 n).head? ≠ some '0' := by
  induction n using Nat.strongRecOn with
  | ind n ih =>
    rcases Nat.lt_or_ge n 10 with one | more
    · have all : ∀ d < 10, 0 < d → Nat.digitChar d ≠ '0' := by decide
      rw [Nat.toDigits_of_lt_base one]
      simpa using all n one positive
    · have digits := ih (n / 10) (by omega) (by omega)
      rw [Nat.toDigits_of_base_le (by decide) more,
        List.head?_append_of_ne_nil _ Nat.toDigits_ne_nil]
      exact digits

theorem toList_toString (n : Nat) : (toString n).toList = Nat.toDigits 10 n := by
  rw [Nat.toString_eq_repr, Nat.repr_eq_ofList_toDigits, String.toList_ofList]

theorem isDigit_of_mem_toDigits {c : Char} (member : c ∈ Nat.toDigits 10 n) : c.isDigit = true :=
  Nat.isDigit_of_mem_toDigits (by decide) (by decide) member

theorem readNumber_toDigits (n : Nat) (stops : Stops rest) :
    readNumber (Nat.toDigits 10 n ++ rest) = some (n, rest) := by
  have none : rest.takeWhile (·.isDigit) = [] := by
    cases rest <;> simp_all [Stops]
  have kept : rest.dropWhile (·.isDigit) = rest := by
    cases rest <;> simp_all [Stops]
  have well : ¬ (Nat.toDigits 10 n = [] ∨
      ((Nat.toDigits 10 n).head? = some '0' ∧ Nat.toDigits 10 n ≠ ['0'])) := by
    rcases Nat.eq_zero_or_pos n with rfl | positive
    · decide
    · exact not_or.2 ⟨Nat.toDigits_ne_nil, fun zero => head_toDigits positive zero.1⟩
  rw [readNumber, List.takeWhile_append_of_pos fun _ => isDigit_of_mem_toDigits,
    List.dropWhile_append_of_pos fun _ => isDigit_of_mem_toDigits, none, kept, List.append_nil,
    if_neg well, Nat.ofDigitChars_toDigits (by decide) (by decide)]

end Numbers

section Values

variable {rest cs : List Char} {fuel : Nat} {d : Char}

theorem skip_of_digit (digit : d.isDigit = true) : skip (d :: cs) = d :: cs := by
  have visible : isBlank d = false := by
    refine Bool.eq_false_iff.2 fun blank => ?_
    simp only [isBlank, Bool.or_eq_true, decide_eq_true_eq] at blank
    rcases blank with ((rfl | rfl) | rfl) | rfl <;> exact absurd digit (by decide)
  simp [skip, visible]

theorem readValue_of_digit (digit : d.isDigit = true) : readValue (fuel + 1) (d :: cs) =
    (readNumber (d :: cs)).map fun (n, rest) => (.number n, rest) := by
  rw [readValue, skip_of_digit digit]
  split
  · next same =>
    obtain ⟨rfl, -⟩ := List.cons.inj same
    exact absurd digit (by decide)
  · next same =>
    obtain ⟨rfl, -⟩ := List.cons.inj same
    exact absurd digit (by decide)
  · rfl

theorem readValue_toString (n : Nat) (stops : Stops rest) :
    readValue (fuel + 1) ((toString n).toList ++ rest) = some (.number n, rest) := by
  have number := readNumber_toDigits n stops
  rw [toList_toString]
  cases digits : Nat.toDigits 10 n with
  | nil => exact absurd digits Nat.toDigits_ne_nil
  | cons d ds =>
    have digit : d.isDigit = true := isDigit_of_mem_toDigits (digits ▸ List.mem_cons_self)
    rw [digits] at number
    rw [List.cons_append, readValue_of_digit digit, ← List.cons_append, number, Option.map_some]

theorem length_lt_quote (s : String) : s.length < (quote s).length := by
  have nonempty (c : Char) : 1 ≤ (escape c).length := by
    unfold escape
    split
    case h_8 => split <;> exact Nat.succ_pos _
    all_goals exact Nat.succ_pos _
  have longer (cs : List Char) : cs.length ≤ (cs.flatMap escape).length := by
    induction cs with
    | nil => exact Nat.le_refl 0
    | cons c cs ih =>
      rw [List.flatMap_cons, List.length_append, List.length_cons]
      have one := nonempty c
      omega
  have body := longer s.toList
  rw [s.length_toList] at body
  simp only [quote, List.cons_append, List.length_cons, List.length_append]
  omega

theorem readValue_object {fields : List (String × Json)}
    (within : readFields fuel ('"' :: cs) = some (fields, rest)) :
    readValue (fuel + 1) ('\x7b' :: '"' :: cs) = some (.object fields, rest) := by
  simp [readValue, skip, isBlank, within]

theorem readFields_field {key : String} {value : Json} (enough : key.length < fuel)
    (within : readValue fuel (value.chars ++ cs) = some (value, cs)) :
    readFields (fuel + 1) (quote key ++ ':' :: value.chars ++ cs) =
      match skip cs with
      | ',' :: cs => (readFields fuel cs).map fun (fields, rest) => ((key, value) :: fields, rest)
      | '\x7d' :: cs => some ([(key, value)], cs)
      | _ => none := by
  rw [List.append_assoc, quote_append, readFields]
  simp [expect, skip, isBlank, readQuoted_escape enough, within]

theorem fieldChars_cons_cons (key : String) (value : Json) (field : String × Json)
    (fields : List (String × Json)) : fieldChars ((key, value) :: field :: fields) =
      quote key ++ ':' :: value.chars ++ ',' :: fieldChars (field :: fields) :=
  rfl

theorem fieldChars_cons (field : String × Json) (fields : List (String × Json)) :
    ∃ cs, fieldChars (field :: fields) = '"' :: cs := by
  cases fields <;> exact ⟨_, rfl⟩

end Values

mutual

/-- What is written for a value is read as the value.  A step takes a character at least, so there
are enough steps for every text that is shorter than their number. -/
theorem readValue_chars : (j : Json) → (fuel : Nat) → (rest : List Char) → j.chars.length < fuel →
    Stops rest → readValue fuel (j.chars ++ rest) = some (j, rest)
  | .string s, fuel, rest, enough, _ => by
    cases fuel with
    | zero => cases enough
    | succ fuel =>
      rw [chars] at enough ⊢
      have short := length_lt_quote s
      rw [quote_append, readValue]
      simp [skip, isBlank, readQuoted_escape (show s.length < fuel by omega)]
  | .number n, fuel, rest, enough, stops => by
    cases fuel with
    | zero => cases enough
    | succ fuel => exact readValue_toString n stops
  | .object fields, fuel, rest, enough, _ => by
    cases fuel with
    | zero => cases enough
    | succ fuel =>
      rw [chars] at enough ⊢
      cases fields with
      | nil => rfl
      | cons field fields =>
        simp only [List.cons_append, List.length_cons, List.length_append] at enough
        have within := readFields_fieldChars (field :: fields) fuel rest (by omega)
          (List.cons_ne_nil _ _)
        obtain ⟨cs, opened⟩ := fieldChars_cons field fields
        rw [opened] at within ⊢
        simpa using readValue_object within

theorem readFields_fieldChars : (fields : List (String × Json)) → (fuel : Nat) →
    (rest : List Char) → (fieldChars fields).length < fuel → fields ≠ [] →
    readFields fuel (fieldChars fields ++ '\x7d' :: rest) = some (fields, rest)
  | [], _, _, _, nonempty => absurd rfl nonempty
  | [(key, value)], fuel, rest, enough, _ => by
    cases fuel with
    | zero => cases enough
    | succ fuel =>
      rw [fieldChars] at enough ⊢
      simp only [List.length_append, List.length_cons] at enough
      have short := length_lt_quote key
      have within := readValue_chars value fuel ('\x7d' :: rest) (by omega) (by simp [Stops])
      rw [readFields_field (by omega) within]
      rfl
  | (key, value) :: next :: fields, fuel, rest, enough, _ => by
    cases fuel with
    | zero => cases enough
    | succ fuel =>
      rw [fieldChars_cons_cons] at enough ⊢
      simp only [List.length_append, List.length_cons] at enough
      have short := length_lt_quote key
      have within := readValue_chars value fuel
        (',' :: (fieldChars (next :: fields) ++ '\x7d' :: rest)) (by omega) (by simp [Stops])
      have others := readFields_fieldChars (next :: fields) fuel rest (by omega)
        (List.cons_ne_nil _ _)
      rw [List.append_assoc, List.cons_append, readFields_field (by omega) within]
      simp [skip, isBlank, others]

end

theorem read_render (j : Json) : read j.render = some j := by
  have whole := readValue_chars j (j.chars.length + 1) [] (Nat.lt_succ_self _) (by simp [Stops])
  have text : j.render.toList = j.chars := String.toList_ofList
  rw [List.append_nil] at whole
  rw [read, ← String.length_toList, text, whole]
  rfl

section Bytes

variable {c d : Char}

theorem visible_of_isDigit (digit : c.isDigit = true) : 0x20 ≤ c.toNat := by
  simp only [Char.isDigit, ge_iff_le, Bool.and_eq_true, decide_eq_true_eq,
    UInt32.le_iff_toNat_le] at digit
  have least : '0'.val.toNat = 48 := rfl
  have same : c.toNat = c.val.toNat := rfl
  omega

theorem visible_of_mem_escape (member : d ∈ escape c) : 0x20 ≤ d.toNat := by
  have hex (n : Nat) : 0x20 ≤ (hexDigit n).toNat := by
    have all : ∀ d < 16, 0x20 ≤ (Nat.digitChar d).toNat := by decide
    exact all _ (Nat.mod_lt n (by decide))
  unfold escape at member
  split at member
  case h_8 =>
    split at member
    case isTrue =>
      simp only [List.mem_cons, List.not_mem_nil, or_false] at member
      rcases member with rfl | rfl | rfl | rfl | rfl | rfl
      case inr.inr.inr.inr.inl | inr.inr.inr.inr.inr => exact hex _
      all_goals decide
    case isFalse visible =>
      obtain rfl := List.mem_singleton.1 member
      exact Nat.le_of_not_lt visible
  all_goals
    rcases List.mem_pair.1 member with rfl | rfl <;> decide

theorem visible_of_mem_quote (s : String) : ∀ c ∈ quote s, 0x20 ≤ c.toNat := by
  have mark : 0x20 ≤ '"'.toNat := by decide
  simp only [quote, List.cons_append, List.forall_mem_cons, List.forall_mem_append,
    List.not_mem_nil, false_implies, implies_true, and_true]
  refine ⟨mark, fun c member => ?_, mark⟩
  obtain ⟨_, -, escaped⟩ := List.mem_flatMap.1 member
  exact visible_of_mem_escape escaped

theorem le_of_mem_utf8EncodeChar {b : UInt8} (visible : 0x20 ≤ c.toNat)
    (member : b ∈ String.utf8EncodeChar c) : 0x20 ≤ b := by
  have byte {n : Nat} (large : 0x20 ≤ n % 2 ^ 8) : 0x20 ≤ UInt8.ofNat n := by
    rwa [UInt8.le_iff_toNat_le, UInt8.toNat_ofNat']
  have same : c.toNat = c.val.toNat := rfl
  simp only [String.utf8EncodeChar] at member
  split at member
  · obtain rfl := List.mem_singleton.1 member
    exact byte (by omega)
  · split at member
    · rcases List.mem_pair.1 member with rfl | rfl <;> exact byte (by omega)
    · split at member <;>
        simp only [List.mem_cons, List.not_mem_nil, or_false] at member
      · rcases member with rfl | rfl | rfl <;> exact byte (by omega)
      · rcases member with rfl | rfl | rfl | rfl <;> exact byte (by omega)

mutual

theorem visible_of_mem_chars : (j : Json) → ∀ c ∈ j.chars, 0x20 ≤ c.toNat
  | .string s => visible_of_mem_quote s
  | .number n => fun c member => by
    rw [chars, toList_toString] at member
    exact visible_of_isDigit (isDigit_of_mem_toDigits member)
  | .object fields => by
    have within := visible_of_mem_fieldChars fields
    simp only [chars, List.forall_mem_append, List.forall_mem_cons]
    exact ⟨⟨by decide, within⟩, by decide, List.forall_mem_nil _⟩

theorem visible_of_mem_fieldChars : (fields : List (String × Json)) →
    ∀ c ∈ fieldChars fields, 0x20 ≤ c.toNat
  | [] => List.forall_mem_nil _
  | [(key, value)] => by
    have within := visible_of_mem_chars value
    simp only [fieldChars, List.forall_mem_append, List.forall_mem_cons]
    exact ⟨visible_of_mem_quote key, by decide, within⟩
  | (key, value) :: field :: fields => by
    have within := visible_of_mem_chars value
    have others := visible_of_mem_fieldChars (field :: fields)
    simp only [fieldChars_cons_cons, List.forall_mem_append, List.forall_mem_cons]
    exact ⟨⟨visible_of_mem_quote key, by decide, within⟩, by decide, others⟩

end

theorem le_of_mem_render {j : Json} {b : UInt8} (member : b ∈ j.render.toUTF8.data) : 0x20 ≤ b := by
  have encoded : ∃ c ∈ j.chars, b ∈ String.utf8EncodeChar c := by
    simpa [render, String.toUTF8, String.toByteArray_ofList, List.utf8Encode] using member
  obtain ⟨c, among, part⟩ := encoded
  exact le_of_mem_utf8EncodeChar (visible_of_mem_chars j c among) part

end Bytes

end ScopeFrames.Json
