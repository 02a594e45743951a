import Mathlib.Data.List.TakeWhile
import Mathlib.Data.Nat.Digits.Defs
import Mathlib.Tactic.IntervalCases

namespace Numeral

abbrev Text := List Char

-- Integer conversions of the C library, on the text before the terminating
-- NUL. One `Char` stands for one byte; the locale is "C".
def isSpace (c : Char) : Bool :=
  c = ' ' || c = '\t' || c = '\n' || c = '\x0b' || c = '\x0c' || c = '\r'

def digitValue (c : Char) : Option Nat :=
  if '0' ≤ c ∧ c ≤ '9' then some (c.toNat - 48)
  else if 'a' ≤ c ∧ c ≤ 'z' then some (c.toNat - 87)
  else if 'A' ≤ c ∧ c ≤ 'Z' then some (c.toNat - 55)
  else none

def isDigit (base : Nat) (c : Char) : Bool :=
  match digitValue c with
  | some d => decide (d < base)
  | none => false

def magnitude (base : Nat) (digits : Text) : Nat :=
  digits.foldl (fun value c => value * base + (digitValue c).getD 0) 0

-- A converted numeral: its sign, the unbounded magnitude of its digits and the
-- text where the conversion stopped.
structure Subject where
  negative : Bool
  magnitude : Nat
  rest : Text
  deriving DecidableEq, Repr

def sign : Text → Bool × Text
  | '-' :: rest => (true,rest)
  | '+' :: rest => (false,rest)
  | text => (false,text)

-- "0x" counts as a prefix only when a hexadecimal digit follows it.
def hexPrefix : Text → Option Text
  | '0' :: x :: c :: rest =>
    if (x = 'x' ∨ x = 'X') ∧ isDigit 16 c = true then some (c :: rest) else none
  | _ => none

-- The effective base and the text of the digits, for a requested base.
def radix (base : Nat) (text : Text) : Nat × Text :=
  if base = 0 ∨ base = 16 then
    match hexPrefix text with
    | some digits => (16,digits)
    | none => if base = 16 then (16,text) else if text.head? = some '0' then (8,text) else (10,text)
  else (base,text)

-- The subject sequence; `none` when no digit can be converted.
def subject (base : Nat) (text : Text) : Option Subject :=
  let signed := sign (text.dropWhile isSpace)
  let based := radix base signed.2
  let digits := based.2.takeWhile (isDigit based.1)
  if digits = [] then none
  else some ⟨signed.1,magnitude based.1 digits,based.2.dropWhile (isDigit based.1)⟩

-- `strtoul` for an unsigned type of `bits` bits: value and end pointer. Without
-- a conversion the end pointer is the start; overflow saturates; a minus sign
-- negates in the unsigned type.
def strtoul (bits base : Nat) (text : Text) : Nat × Text :=
  match subject base text with
  | none => (0,text)
  | some found =>
    if 2 ^ bits ≤ found.magnitude then (2 ^ bits - 1,found.rest)
    else if found.negative then ((2 ^ bits - found.magnitude) % 2 ^ bits,found.rest)
    else (found.magnitude,found.rest)

-- `strtol` for a signed type of `bits` bits, clamped at both ends.
def strtol (bits base : Nat) (text : Text) : Int × Text :=
  match subject base text with
  | none => (0,text)
  | some found =>
    let value : Int := if found.negative then -(found.magnitude : Int) else found.magnitude
    (max (-(2 ^ (bits - 1) : Int)) (min value (2 ^ (bits - 1) - 1)),found.rest)

-- `printf` conversions: `%x`, `%X` and `%d` with zero padding to a width.
def padded (width : Nat) (digits : Text) : Text :=
  List.replicate (width - digits.length) '0' ++ digits

def hexLower (width value : Nat) : Text := padded width (Nat.toDigits 16 value)
def hexUpper (width value : Nat) : Text := padded width ((Nat.toDigits 16 value).map Char.toUpper)

def decimal (value : Int) : Text :=
  if value < 0 then '-' :: Nat.toDigits 10 value.natAbs else Nat.toDigits 10 value.natAbs

theorem strtoul_lt (bits base : Nat) (text : Text) : (strtoul bits base text).1 < 2 ^ bits := by
  have positive := Nat.two_pow_pos bits
  unfold strtoul
  split
  · exact positive
  · split
    · simp only; omega
    · split
      · exact Nat.mod_lt _ positive
      · simp only; omega

theorem magnitude_append (base : Nat) (left right : Text) :
    magnitude base (left ++ right) =
      right.foldl (fun value c => value * base + (digitValue c).getD 0) (magnitude base left) := by
  simp [magnitude,List.foldl_append]

theorem magnitude_concat (base : Nat) (digits : Text) (c : Char) :
    magnitude base (digits ++ [c]) = magnitude base digits * base + (digitValue c).getD 0 := by
  simp [magnitude_append]

theorem digitValue_upper (small : d < 16) : digitValue (Nat.digitChar d).toUpper = some d := by
  interval_cases d <;> decide

theorem digitValue_lower (small : d < 16) : digitValue (id (Nat.digitChar d)) = some d := by
  interval_cases d <;> decide

section Print
-- Printing goes through a letter case: any map of the digit characters that
-- keeps their value.
variable {letter : Char → Char} (keeps : ∀ d < 16, digitValue (letter (Nat.digitChar d)) = some d)

include keeps

theorem magnitude_toDigits (wide : 1 < base) (narrow : base ≤ 16) (value : Nat) :
    magnitude base ((Nat.toDigits base value).map letter) = value := by
  induction value using Nat.strongRecOn with
  | ind value ih =>
    rw [Nat.toDigits_eq_if wide]
    split
    · rename_i small
      simp [magnitude,keeps value (by omega)]
    · rename_i large
      have smaller : value / base < value := Nat.div_lt_self (by omega) wide
      have digit : value % base < base := Nat.mod_lt _ (by omega)
      rw [List.map_append,List.map_cons,List.map_nil,magnitude_concat,ih _ smaller,
        keeps _ (by omega)]
      simpa using Nat.div_add_mod' value base

theorem toDigits_isDigit (wide : 1 < base) (narrow : base ≤ 16) (value : Nat) :
    ∀ c ∈ (Nat.toDigits base value).map letter, isDigit base c = true := by
  induction value using Nat.strongRecOn with
  | ind value ih =>
    rw [Nat.toDigits_eq_if wide]
    split
    · rename_i small
      simp [isDigit,keeps value (by omega),small]
    · rename_i large
      have smaller : value / base < value := Nat.div_lt_self (by omega) wide
      have digit : value % base < base := Nat.mod_lt _ (by omega)
      intro c member
      rw [List.map_append] at member
      rcases List.mem_append.mp member with early | last
      · exact ih _ smaller c early
      · simp only [List.map_cons,List.map_nil,List.mem_singleton] at last
        subst last
        simp [isDigit,keeps _ (show value % base < 16 by omega),digit]

end Print

theorem magnitude_padded (base width : Nat) (digits : Text) :
    magnitude base (padded width digits) = magnitude base digits := by
  unfold padded
  induction width - digits.length with
  | zero => rfl
  | succ count ih =>
    have zeroDigit : (digitValue '0').getD 0 = 0 := by decide
    have step : magnitude base ('0' :: (List.replicate count '0' ++ digits)) =
        magnitude base (List.replicate count '0' ++ digits) := by
      simp [magnitude,zeroDigit]
    rw [List.replicate_succ,List.cons_append,step,ih]

theorem padded_isDigit (positive : 0 < base) (all : ∀ c ∈ digits, isDigit base c = true) :
    ∀ c ∈ padded width digits, isDigit base c = true := by
  intro c member
  rcases List.mem_append.mp member with zero | digit
  · have zeroValue : digitValue '0' = some 0 := by decide
    have equal := List.eq_of_mem_replicate zero
    subst equal
    simp [isDigit,zeroValue,positive]
  · exact all c digit

theorem padded_length (fits : digits.length ≤ width) : (padded width digits).length = width := by
  simp only [padded,List.length_append,List.length_replicate]
  omega

theorem isDigit_plain (digit : isDigit base c = true) : isSpace c = false ∧ c ≠ '-' ∧ c ≠ '+' := by
  refine ⟨?_,?_,?_⟩
  · by_contra space
    simp only [Bool.not_eq_false,isSpace,Bool.or_eq_true,decide_eq_true_eq] at space
    rcases space with ((((rfl | rfl) | rfl) | rfl) | rfl) | rfl <;> simp [isDigit,digitValue] at digit
  · rintro rfl
    simp [isDigit,digitValue] at digit
  · rintro rfl
    simp [isDigit,digitValue] at digit

theorem takeWhile_digits {digits rest : Text} (all : ∀ c ∈ digits, isDigit base c = true)
    (stops : ∀ c ∈ rest.head?, isDigit base c = false) :
    (digits ++ rest).takeWhile (isDigit base) = digits ∧ (digits ++ rest).dropWhile (isDigit base) = rest := by
  rw [List.takeWhile_append_of_pos all,List.dropWhile_append_of_pos all]
  cases rest with
  | nil => simp
  | cons c rest =>
    have last : isDigit base c = false := stops c rfl
    simp [last]

theorem subject_hex_before (digits : Text) (nonempty : digits ≠ []) (all : ∀ c ∈ digits, isDigit 16 c = true)
    (zero : base = 0 ∨ base = 16) (letter : x = 'x' ∨ x = 'X') {after : Text}
    (stops : ∀ c ∈ after.head?, isDigit 16 c = false) :
    subject base ('0' :: x :: (digits ++ after)) = some ⟨false,magnitude 16 digits,after⟩ := by
  obtain ⟨taken,left⟩ := takeWhile_digits all stops
  obtain ⟨c,rest,rfl⟩ := List.exists_cons_of_ne_nil nonempty
  rw [List.cons_append] at taken left ⊢
  have first : isDigit 16 c = true := all c (by simp)
  have space : isSpace '0' = false := by decide
  have opened : ('0' :: x :: c :: (rest ++ after)).dropWhile isSpace = '0' :: x :: c :: (rest ++ after) := by
    simp [space]
  have signed : sign ('0' :: x :: c :: (rest ++ after)) = (false,'0' :: x :: c :: (rest ++ after)) := rfl
  have based : radix base ('0' :: x :: c :: (rest ++ after)) = (16,c :: (rest ++ after)) := by
    simp [radix,zero,hexPrefix,letter,first]
  simp [subject,opened,signed,based,taken,left]

theorem subject_hex (digits : Text) (nonempty : digits ≠ []) (all : ∀ c ∈ digits, isDigit 16 c = true)
    (zero : base = 0 ∨ base = 16) (letter : x = 'x' ∨ x = 'X') :
    subject base ('0' :: x :: digits) = some ⟨false,magnitude 16 digits,[]⟩ := by
  have found := subject_hex_before digits nonempty all zero letter (show ∀ c ∈ ([] : Text).head?, _ by simp)
  rwa [List.append_nil] at found

theorem subject_digits_before (digits : Text) (nonempty : digits ≠ []) (all : ∀ c ∈ digits, isDigit used c = true)
    {after : Text} (stops : ∀ c ∈ after.head?, isDigit used c = false)
    (based : radix base (digits ++ after) = (used,digits ++ after)) :
    subject base (digits ++ after) = some ⟨false,magnitude used digits,after⟩ := by
  obtain ⟨taken,left⟩ := takeWhile_digits all stops
  obtain ⟨c,rest,rfl⟩ := List.exists_cons_of_ne_nil nonempty
  rw [List.cons_append] at taken left based ⊢
  obtain ⟨space,minus,plus⟩ := isDigit_plain (all c (by simp))
  have opened : (c :: (rest ++ after)).dropWhile isSpace = c :: (rest ++ after) := by simp [space]
  have signed : sign (c :: (rest ++ after)) = (false,c :: (rest ++ after)) := by
    unfold sign
    split <;> simp_all
  simp [subject,opened,signed,based,taken,left]

theorem subject_digits (digits : Text) (nonempty : digits ≠ []) (all : ∀ c ∈ digits, isDigit used c = true)
    (based : radix base digits = (used,digits)) :
    subject base digits = some ⟨false,magnitude used digits,[]⟩ := by
  have found := subject_digits_before digits nonempty all (show ∀ c ∈ ([] : Text).head?, _ by simp)
    (by rwa [List.append_nil])
  rwa [List.append_nil] at found

theorem strtoul_of_subject (found : subject base text = some ⟨false,value,rest⟩) (small : value < 2 ^ bits) :
    strtoul bits base text = (value,rest) := by
  have fits : ¬ 2 ^ bits ≤ value := by omega
  simp [strtoul,found,fits]

def Subject.value (found : Subject) : Int := if found.negative then -(found.magnitude : Int) else found.magnitude

def wholeValue (base : Nat) (text : Text) : Option Int :=
  (subject base text).bind (fun found => if found.rest = [] then some found.value else none)

-- What becomes of a number in an unsigned type of `bits` bits.
def wrapped (bits : Nat) (value : Int) : Nat :=
  if 2 ^ bits ≤ value.natAbs then 2 ^ bits - 1 else (value % 2 ^ bits).toNat

@[simp] theorem subject_nil (base : Nat) : subject base [] = none := by
  unfold subject radix
  simp only [List.dropWhile_nil,sign,hexPrefix]
  split
  · split <;> rfl
  · rfl

theorem wholeValue_some : wholeValue base text = some value ↔
    ∃ found, subject base text = some found ∧ found.rest = [] ∧ found.value = value := by
  simp [wholeValue,Option.bind_eq_some_iff]

theorem strtoul_whole (whole : wholeValue base text = some value) (bits : Nat) :
    strtoul bits base text = (wrapped bits value,[]) := by
  obtain ⟨⟨negative,magnitude,rest⟩,found,ended,rfl⟩ := wholeValue_some.mp whole
  cases ended
  have power : (2 : Int) ^ bits = (2 ^ bits : Nat) := (Int.natCast_pow 2 bits).symm
  cases negative with
  | false =>
    simp only [strtoul,found,wrapped,Subject.value,Bool.false_eq_true,if_false,Int.natAbs_natCast,power]
    split
    · rfl
    · rename_i small
      rw [← Int.natCast_emod,Int.toNat_natCast,Nat.mod_eq_of_lt (by omega)]
  | true =>
    simp only [strtoul,found,wrapped,Subject.value,if_true,Int.natAbs_neg,Int.natAbs_natCast,power]
    split
    · rfl
    · rename_i small
      have shifted : -(magnitude : Int) + (2 ^ bits : Nat) = (2 ^ bits - magnitude : Nat) := by omega
      rw [← Int.add_emod_right,shifted,← Int.natCast_emod,Int.toNat_natCast]

theorem strtol_whole (whole : wholeValue base text = some value) (bits : Nat) :
    (strtol bits base text).1 = max (-(2 ^ (bits - 1) : Int)) (min value (2 ^ (bits - 1) - 1)) := by
  obtain ⟨found,converted,_,rfl⟩ := wholeValue_some.mp whole
  simp only [strtol,converted,Subject.value]

-- The end pointer is at the end when there is nothing, or nothing else.
theorem strtoul_consumes (bits base : Nat) (text : Text) :
    (strtoul bits base text).2 = [] ↔ text = [] ∨ ∃ value, wholeValue base text = some value := by
  constructor
  · intro ended
    cases found : subject base text with
    | none => exact .inl (by simpa [strtoul,found] using ended)
    | some numeral =>
      have rest : numeral.rest = [] := by
        rw [← ended]
        simp only [strtoul,found]
        split
        · rfl
        · split <;> rfl
      exact .inr ⟨numeral.value,wholeValue_some.mpr ⟨numeral,found,rest,rfl⟩⟩
  · intro either
    rcases either with rfl | ⟨value,whole⟩
    · simp [strtoul]
    · rw [strtoul_whole whole]

theorem separated_inj {left right rest rest' : Text} {separator : Char} (absent : separator ∉ left)
    (absent' : separator ∉ right) :
    left ++ separator :: rest = right ++ separator :: rest' ↔ left = right ∧ rest = rest' := by
  induction left generalizing right with
  | nil =>
    cases right with
    | nil => simp
    | cons c right =>
      have other : separator ≠ c := fun same => absent' (by simp [same])
      simp [other]
  | cons c left ih =>
    cases right with
    | nil =>
      have other : c ≠ separator := fun same => absent (by simp [same])
      simp [other]
    | cons c' right =>
      have tails := ih (fun member => absent (List.mem_cons_of_mem c member))
        (fun member => absent' (List.mem_cons_of_mem c' member))
      simp [tails,and_assoc]

-- Unsigned literals as a user writes them. A decimal one has no leading zero,
-- which would make it octal.
inductive Literal : Text → Nat → Prop where
  | hex (x : Char) (digits : Text) : x = 'x' ∨ x = 'X' → digits ≠ [] → (∀ c ∈ digits, isDigit 16 c = true) →
      Literal ('0' :: x :: digits) (magnitude 16 digits)
  | decimal (digits : Text) : digits ≠ [] → (∀ c ∈ digits, isDigit 10 c = true) → digits.head? ≠ some '0' →
      Literal digits (magnitude 10 digits)
  | zero : Literal ['0'] 0

theorem Literal.subject (literal : Literal text value) : subject 0 text = some ⟨false,value,[]⟩ := by
  cases literal with
  | hex x digits letter nonempty all => exact subject_hex digits nonempty all (.inl rfl) letter
  | decimal _ nonempty all head =>
    have plain : hexPrefix text = none := by
      unfold hexPrefix
      split
      · simp at head
      · rfl
    exact subject_digits text nonempty all (by simp [radix,plain,head])
  | zero => decide

theorem Literal.strtoul (literal : Literal text value) (small : value < 2 ^ bits) : strtoul bits 0 text = (value,[]) :=
  strtoul_of_subject literal.subject small

theorem Literal.strtoul_saturates (literal : Literal text value) (large : 2 ^ bits ≤ value) :
    Numeral.strtoul bits 0 text = (2 ^ bits - 1,[]) := by
  simp [Numeral.strtoul,literal.subject,large]

theorem magnitude_hexUpper (width value : Nat) : magnitude 16 (hexUpper width value) = value := by
  rw [hexUpper,magnitude_padded,magnitude_toDigits (fun _ => digitValue_upper) (by decide) (by decide)]

theorem hexUpper_inj : hexUpper width left = hexUpper width right ↔ left = right := by
  refine ⟨fun same => ?_,fun same => by rw [same]⟩
  rw [← magnitude_hexUpper width left,same,magnitude_hexUpper]

theorem hexLower_isDigit (width value : Nat) : ∀ c ∈ hexLower width value, isDigit 16 c = true := by
  have digits := toDigits_isDigit (fun _ => digitValue_lower) (by decide : 1 < 16) (le_refl 16) value
  rw [List.map_id] at digits
  exact padded_isDigit (by decide) digits

theorem magnitude_hexLower (width value : Nat) : magnitude 16 (hexLower width value) = value := by
  have digits := magnitude_toDigits (fun _ => digitValue_lower) (by decide : 1 < 16) (le_refl 16) value
  rw [List.map_id] at digits
  rw [hexLower,magnitude_padded,digits]

theorem hexLower_ne_nil (width value : Nat) : hexLower width value ≠ [] := by
  simp [hexLower,padded]

theorem hexLower_notMem (plain : isDigit 16 c = false) : c ∉ hexLower width value := by
  intro member
  rw [hexLower_isDigit width value c member] at plain
  cases plain

theorem decimal_plain (value : Int) (plain : isDigit 10 c = false) (minus : c ≠ '-') : c ∉ decimal value := by
  have digits := toDigits_isDigit (fun _ => digitValue_lower) (by decide : 1 < 10) (by decide) value.natAbs
  rw [List.map_id] at digits
  have absent : c ∉ Nat.toDigits 10 value.natAbs := by
    intro member
    rw [digits c member] at plain
    cases plain
  unfold decimal
  split
  · simp [absent,minus]
  · exact absent

theorem hexLower_inj : hexLower width left = hexLower width right ↔ left = right := by
  constructor
  · intro same
    rw [← magnitude_hexLower width left,same,magnitude_hexLower]
  · intro same
    rw [same]

theorem hexLower_length (positive : 0 < width) (small : value < 16 ^ width) : (hexLower width value).length = width :=
  padded_length (Nat.toDigits_length 16 value width positive small)

theorem subject_hexLower (zero : base = 0 ∨ base = 16) (width value : Nat) {rest : Text}
    (stops : ∀ c ∈ rest.head?, isDigit 16 c = false) :
    subject base ('0' :: 'x' :: (hexLower width value ++ rest)) = some ⟨false,value,rest⟩ := by
  have nonempty := hexLower_ne_nil width value
  have found := subject_hex_before _ nonempty (hexLower_isDigit width value) zero (Or.inl rfl) stops
  rwa [magnitude_hexLower] at found

theorem toDigits_head (wide : 1 < base) (narrow : base ≤ 16) (positive : 0 < value) :
    (Nat.toDigits base value).head? ≠ some '0' := by
  induction value using Nat.strongRecOn with
  | ind value ih =>
    rw [Nat.toDigits_eq_if wide]
    split
    · have small : value < 16 := by omega
      interval_cases value <;> decide
    · have smaller : value / base < value := Nat.div_lt_self positive wide
      have above : 0 < value / base := Nat.div_pos (by omega) (by omega)
      obtain ⟨c,rest,digits⟩ := List.exists_cons_of_ne_nil (Nat.toDigits_ne_nil : Nat.toDigits base (value / base) ≠ [])
      have head := ih _ smaller above
      rw [digits] at head ⊢
      exact head

theorem decimal_literal (value : Nat) : Literal (decimal value) value := by
  have text : decimal value = (Nat.toDigits 10 value).map id := by simp [decimal]
  have digits := toDigits_isDigit (fun _ => digitValue_lower) (by decide : 1 < 10) (by decide) value
  have number := magnitude_toDigits (fun _ => digitValue_lower) (by decide : 1 < 10) (by decide) value
  rw [← text] at digits number
  cases value with
  | zero => exact Literal.zero
  | succ below =>
    have head := toDigits_head (by decide : 1 < 10) (by decide) (Nat.succ_pos below)
    rw [← List.map_id (Nat.toDigits 10 _),← text] at head
    have written := Literal.decimal _ (by rw [text]; simp) digits head
    rwa [number] at written

theorem radix_sixteen (text : Text) : radix 16 text = (16,(hexPrefix text).getD text) := by
  unfold radix
  cases hexPrefix text <;> rfl

-- The conversion with base 16 behind the white space and the sign: the magnitude
-- and the text where it stopped.
def hexDigits (text : Text) : Option (Nat × Text) :=
  let digits := (hexPrefix text).getD text
  if digits.takeWhile (isDigit 16) = [] then none
  else some (magnitude 16 (digits.takeWhile (isDigit 16)),digits.dropWhile (isDigit 16))

theorem subject_hexDigits (text : Text) :
    subject 16 text = (hexDigits (sign (text.dropWhile isSpace)).2).map (fun found =>
      ⟨(sign (text.dropWhile isSpace)).1,found.1,found.2⟩) := by
  simp only [subject,radix_sixteen,hexDigits]
  split <;> rfl

-- The conversion has ended inside a text when a further digit is not taken.
def EndsInside (text : Text) : Prop := wholeValue 16 (text ++ ['0']) = none

theorem wholeValue_hexDigits (text : Text) :
    wholeValue 16 text = none ↔ ∀ found, hexDigits (sign (text.dropWhile isSpace)).2 = some found → found.2 ≠ [] := by
  rw [wholeValue,subject_hexDigits]
  cases hexDigits (sign (text.dropWhile isSpace)).2 with
  | none => simp
  | some found => by_cases ended : found.2 = [] <;> simp [ended]

theorem EndsInside.signed (ends : EndsInside text) (tail : Text) :
    (sign (text.dropWhile isSpace)).2 ≠ [] ∧
    sign ((text ++ tail).dropWhile isSpace) = ((sign (text.dropWhile isSpace)).1,(sign (text.dropWhile isSpace)).2 ++ tail) := by
  have taken := (wholeValue_hexDigits _).mp ends
  rw [List.dropWhile_append] at taken ⊢
  cases opened : text.dropWhile isSpace with
  | nil =>
    rw [opened] at taken
    exact absurd rfl (taken (0,[]) (by decide))
  | cons c rest =>
    rw [opened] at taken
    simp only [List.isEmpty_cons,Bool.false_eq_true,if_false,List.cons_append] at taken ⊢
    unfold sign at taken ⊢
    split
    · rename_i same
      cases same
      refine ⟨?_,rfl⟩
      rintro rfl
      exact absurd rfl (taken (0,[]) (by decide))
    · rename_i same
      cases same
      refine ⟨?_,rfl⟩
      rintro rfl
      exact absurd rfl (taken (0,[]) (by decide))
    · rename_i minus plus
      refine ⟨by simp,?_⟩
      split
      · rename_i same
        cases same
        exact absurd rfl (minus rest)
      · rename_i same
        cases same
        exact absurd rfl (plus rest)
      · rfl

theorem hexPrefix_append {text : Text} (nonempty : text ≠ [])
    (ends : ∀ found, hexDigits (text ++ ['0']) = some found → found.2 ≠ []) (tail : Text) :
    hexPrefix (text ++ tail) = (hexPrefix text).map (fun digits => digits ++ tail) := by
  have other {c : Char} (plain : c ≠ '0') (rest : Text) : hexPrefix (c :: rest) = none := by
    unfold hexPrefix
    split
    · rename_i same
      cases same
      exact absurd rfl plain
    · rfl
  cases text with
  | nil => exact absurd rfl nonempty
  | cons c rest =>
    by_cases zero : c = '0'
    · subst zero
      cases rest with
      | nil => exact absurd rfl (ends (0,[]) (by decide))
      | cons x rest =>
        cases rest with
        | nil =>
          have letter : ¬ (x = 'x' ∨ x = 'X') := by
            rintro (rfl | rfl)
            · exact absurd rfl (ends (0,[]) (by decide))
            · exact absurd rfl (ends (0,[]) (by decide))
          cases tail with
          | nil => rfl
          | cons d tail => simp [hexPrefix,letter]
        | cons d rest =>
          simp only [List.cons_append,hexPrefix]
          split <;> rfl
    · rw [List.cons_append,other zero,other zero]
      rfl

theorem hexDigits_append {text : Text} (nonempty : text ≠ [])
    (ends : ∀ found, hexDigits (text ++ ['0']) = some found → found.2 ≠ []) (tail : Text) :
    hexDigits (text ++ tail) = (hexDigits text).map (fun found => (found.1,found.2 ++ tail)) ∧
    ∀ found, hexDigits text = some found → found.2 ≠ [] := by
  have digits (tail : Text) : (hexPrefix (text ++ tail)).getD (text ++ tail) = (hexPrefix text).getD text ++ tail := by
    rw [hexPrefix_append nonempty ends]
    cases hexPrefix text <;> rfl
  unfold hexDigits at ends ⊢
  simp only [digits] at ends ⊢
  generalize (hexPrefix text).getD text = taken at ends
  have stops : taken.dropWhile (isDigit 16) ≠ [] := by
    intro all
    have whole : taken.takeWhile (isDigit 16) = taken := by
      have parts := List.takeWhile_append_dropWhile (p := isDigit 16) (l := taken)
      rwa [all,List.append_nil] at parts
    have longer : (taken ++ ['0']).takeWhile (isDigit 16) = taken ++ ['0'] := by
      rw [List.takeWhile_append,whole,if_pos rfl]
      rfl
    have none_ : (taken ++ ['0']).dropWhile (isDigit 16) = [] := by
      rw [List.dropWhile_append,all]
      rfl
    rw [longer,none_,if_neg (by simp)] at ends
    exact absurd rfl (ends _ rfl)
  have left : (taken ++ tail).dropWhile (isDigit 16) = taken.dropWhile (isDigit 16) ++ tail := by
    rw [List.dropWhile_append,if_neg (by simpa using stops)]
  have kept : (taken ++ tail).takeWhile (isDigit 16) = taken.takeWhile (isDigit 16) := by
    have both := List.takeWhile_append_dropWhile (p := isDigit 16) (l := taken ++ tail)
    have parts := List.takeWhile_append_dropWhile (p := isDigit 16) (l := taken)
    rw [left,← List.append_assoc] at both
    exact List.append_cancel_right ((List.append_cancel_right both).trans parts.symm)
  rw [left,kept]
  split
  · exact ⟨rfl,by simp⟩
  · refine ⟨rfl,?_⟩
    rintro _ ⟨⟩
    exact stops

-- What follows a text in which the conversion has ended does not matter.
theorem EndsInside.subject_append (ends : EndsInside text) (tail : Text) :
    subject 16 (text ++ tail) = (subject 16 text).map (fun found => {found with rest := found.rest ++ tail}) := by
  have taken := (wholeValue_hexDigits _).mp ends
  rw [(ends.signed ['0']).2] at taken
  have numeral := (hexDigits_append (ends.signed []).1 taken tail).1
  rw [subject_hexDigits,subject_hexDigits,(ends.signed tail).2,numeral]
  simp [Function.comp_def]

theorem EndsInside.wholeValue (ends : EndsInside text) : wholeValue 16 text = none := by
  have taken := (wholeValue_hexDigits _).mp ends
  rw [(ends.signed ['0']).2] at taken
  exact (wholeValue_hexDigits text).mpr (hexDigits_append (ends.signed []).1 taken []).2

theorem EndsInside.append (ends : EndsInside text) (tail : Text) : EndsInside (text ++ tail) := by
  have stopped := ends.wholeValue
  unfold EndsInside
  rw [List.append_assoc]
  unfold Numeral.wholeValue at stopped ⊢
  rw [ends.subject_append]
  cases found : subject 16 text with
  | none => rfl
  | some numeral =>
    have rest : numeral.rest ≠ [] := by
      intro ended
      simp [found,ended] at stopped
    simp [rest]

theorem EndsInside.strtoul_append (ends : EndsInside text) (bits : Nat) (tail : Text) :
    (strtoul bits 16 (text ++ tail)).1 = (strtoul bits 16 text).1 := by
  unfold strtoul
  rw [ends.subject_append]
  cases subject 16 text with
  | none => rfl
  | some found =>
    simp only [Option.map_some]
    split
    · rfl
    · split <;> rfl

-- A digit that is taken makes a numeral that takes the next one as well.
theorem endsInside_zeros (text : Text) (open_ : ¬ EndsInside text) (count : Nat) :
    ¬ EndsInside (text ++ List.replicate count '0') := by
  induction count with
  | zero => simpa using open_
  | succ count ih =>
    intro ends
    apply ih
    unfold EndsInside
    rw [List.append_assoc,← List.replicate_succ']
    exact ends.wholeValue

-- A text has no prefix unless its second character is the letter.
theorem hexPrefix_second (plain : ∀ c ∈ text[1]?, c ≠ 'x' ∧ c ≠ 'X') : hexPrefix text = none := by
  unfold hexPrefix
  split
  · rename_i x c rest
    have letter := plain x rfl
    exact if_neg (fun both => both.1.elim letter.1 letter.2)
  · rfl

theorem isDigit_letter (digit : isDigit 16 c = true) : c ≠ 'x' ∧ c ≠ 'X' := by
  constructor
  · rintro rfl
    cases digit
  · rintro rfl
    cases digit

theorem hexPrefix_digits {digits : Text} (all : ∀ c ∈ digits, isDigit 16 c = true) : hexPrefix digits = none :=
  hexPrefix_second (fun c second => isDigit_letter (all c (List.mem_of_getElem? second)))

theorem hexPrefix_line {digits : Text} (nonempty : digits ≠ []) (all : ∀ c ∈ digits, isDigit 16 c = true) (rest : Text) :
    hexPrefix (digits ++ '\n' :: rest) = none := by
  apply hexPrefix_second
  intro c second
  cases digits with
  | nil => exact absurd rfl nonempty
  | cons first more =>
    cases more with
    | nil =>
      cases second
      decide
    | cons c' more =>
      cases second
      exact isDigit_letter (all c (by simp))

theorem subject_hexLine (width value : Nat) (rest : Text) :
    subject 16 (hexLower width value ++ '\n' :: rest) = some ⟨false,value,'\n' :: rest⟩ := by
  have digits := hexLower_isDigit width value
  have based : radix 16 (hexLower width value ++ '\n' :: rest) = (16,hexLower width value ++ '\n' :: rest) := by
    rw [radix_sixteen,hexPrefix_line (hexLower_ne_nil width value) digits]
    rfl
  have stops : ∀ c ∈ ('\n' :: rest).head?, isDigit 16 c = false := by
    rintro _ ⟨⟩
    rfl
  have found := subject_digits_before _ (hexLower_ne_nil width value) digits stops based
  rwa [magnitude_hexLower] at found

theorem endsInside_hexLine (width value : Nat) : EndsInside (hexLower width value ++ ['\n']) := by
  unfold EndsInside wholeValue
  rw [List.append_assoc,List.singleton_append,subject_hexLine]
  rfl

end Numeral
