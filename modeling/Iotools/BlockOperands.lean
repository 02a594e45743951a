import Iotools.NumericOperands

namespace Iotools
open Bytes Numeral Interaction

theorem subject_one (c : Char) : subject 16 [c] = if isDigit 16 c = true then some ⟨false,magnitude 16 [c],[]⟩ else none := by
  have based (text : Text) (short : text.length ≤ 1) : radix 16 text = (16,text) := by
    match text,short with
    | [],_ => rfl
    | [_],_ => simp [radix,hexPrefix]
  by_cases digit : isDigit 16 c = true
  · rw [if_pos digit]
    exact subject_digits [c] (by simp) (by simp [digit]) (based [c] (by simp))
  · rw [if_neg digit]
    by_cases space : isSpace c = true
    · simp [subject,space,sign,based]
    · by_cases minus : c = '-'
      · subst minus
        decide
      · by_cases plus : c = '+'
        · subst plus
          decide
        · have signed : sign [c] = (false,[c]) := by
            unfold sign
            split <;> simp_all
          simp [subject,space,signed,based,digit]

theorem radix_two (first second : Char) : radix 16 [first,second] = (16,[first,second]) := by simp [radix,hexPrefix]

theorem subject_two_digit (digit : isDigit 16 first = true) (second : Char) :
    subject 16 [first,second] = if isDigit 16 second = true then some ⟨false,magnitude 16 [first,second],[]⟩
      else some ⟨false,magnitude 16 [first],[second]⟩ := by
  obtain ⟨space,minus,plus⟩ := isDigit_plain digit
  have signed : sign [first,second] = (false,[first,second]) := by
    unfold sign
    split <;> simp_all
  by_cases more : isDigit 16 second = true
  · simp [subject,space,signed,radix_two,digit,more]
  · simp [subject,space,signed,radix_two,digit,more]

theorem subject_two_space (space : isSpace first = true) (second : Char) : subject 16 [first,second] = subject 16 [second] := by
  simp [subject,space]

theorem subject_two_signed (negative : Bool) (second : Char) :
    subject 16 [if negative then '-' else '+',second] =
      if isDigit 16 second = true then some ⟨negative,magnitude 16 [second],[]⟩ else none := by
  have based : radix 16 [second] = (16,[second]) := by simp [radix,hexPrefix]
  have minus : isSpace '-' = false := by decide
  have plus : isSpace '+' = false := by decide
  cases negative <;> by_cases digit : isDigit 16 second = true <;> simp [subject,sign,minus,plus,based,digit]

theorem subject_two_other (digit : isDigit 16 first = false) (space : isSpace first = false) (minus : first ≠ '-')
    (plus : first ≠ '+') (second : Char) : subject 16 [first,second] = none := by
  have signed : sign [first,second] = (false,[first,second]) := by
    unfold sign
    split <;> simp_all
  simp [subject,space,signed,radix_two,digit]

def hexPair (first second : Char) : Bool := isDigit 16 first && isDigit 16 second

def loosePair (first second : Char) : Bool :=
  ((isSpace first || first = '+') && isDigit 16 second) || (first = '-' && second = '0')

def pairValue (first second : Char) : Nat :=
  if hexPair first second then magnitude 16 [first,second] else magnitude 16 [second]

theorem digit_small (digit : isDigit 16 c = true) : ∃ d, digitValue c = some d ∧ d < 16 := by
  unfold isDigit at digit
  cases found : digitValue c with
  | none => simp [found] at digit
  | some d => exact ⟨d,rfl,by simpa [found] using digit⟩

theorem toNat_le {c c' : Char} (below : c ≤ c') : c.toNat ≤ c'.toNat := UInt32.le_iff_toNat_le.mp below

theorem digitValue_zero (zero : digitValue c = some 0) : c = '0' := by
  have code : '0'.toNat = 48 := rfl
  have lower : 'a'.toNat = 97 := rfl
  have upper : 'A'.toNat = 65 := rfl
  unfold digitValue at zero
  split at zero
  · rename_i range
    have low := toNat_le range.1
    have above := Option.some.inj zero
    exact Char.toNat_inj.mp (by omega)
  · split at zero
    · rename_i range
      have low := toNat_le range.1
      have above := Option.some.inj zero
      omega
    · split at zero
      · rename_i range
        have low := toNat_le range.1
        have above := Option.some.inj zero
        omega
      · cases zero

theorem magnitude_one (found : digitValue c = some d) : magnitude 16 [c] = d := by simp [magnitude,found]

theorem magnitude_two (found : digitValue c = some d) (found' : digitValue c' = some d') :
    magnitude 16 [c,c'] = d * 16 + d' := by simp [magnitude,found,found']

theorem parseUint8Hex_whole (b : Build) (first second : Char) (byte : UInt8) :
    parseUint8Hex b [first,second] = .ok byte ↔
      ∃ value, wholeValue 16 [first,second] = some value ∧ wrapped b.long.bits value = byte.toNat := by
  rw [parseUint8Hex,parseUint8Base_whole]
  simp

theorem wrapped_byte_value (b : Build) (small : value < 256) : wrapped b.long.bits (value : Nat) = value := by
  have inside : (0 : Int) ≤ (value : Nat) ∧ ((value : Nat) : Int) < 2 ^ b.long.bits := by
    rcases long_bits b with wide | wide <;> rw [wide] <;> omega
  have kept := wrapped_inside inside
  omega

theorem parseUint8Hex_digits (b : Build) (digit : isDigit 16 first = true) (second : Char) (byte : UInt8) :
    parseUint8Hex b [first,second] = .ok byte ↔ isDigit 16 second = true ∧ byte.toNat = magnitude 16 [first,second] := by
  rw [parseUint8Hex_whole]
  by_cases more : isDigit 16 second = true
  · obtain ⟨d,found,small⟩ := digit_small digit
    obtain ⟨d',found',small'⟩ := digit_small more
    have both := magnitude_two found found'
    have kept := wrapped_byte_value b (show d * 16 + d' < 256 by omega)
    have whole : wholeValue 16 [first,second] = some ((d * 16 + d' : Nat) : Int) := by
      simp [wholeValue,subject_two_digit digit,more,Subject.value,both]
    rw [whole,both]
    simp only [Option.some_inj,exists_eq_left',kept,more]
    simp [eq_comm]
  · simp [wholeValue,subject_two_digit digit,more]

theorem parseUint8Hex_skipped (b : Build) (second : Char)
    (taken : subject 16 [first,second] = if isDigit 16 second = true then some ⟨false,magnitude 16 [second],[]⟩ else none)
    (byte : UInt8) :
    parseUint8Hex b [first,second] = .ok byte ↔ isDigit 16 second = true ∧ byte.toNat = magnitude 16 [second] := by
  rw [parseUint8Hex_whole]
  by_cases digit : isDigit 16 second = true
  · obtain ⟨d,found,small⟩ := digit_small digit
    have one := magnitude_one found
    have kept := wrapped_byte_value b (show d < 256 by omega)
    have whole : wholeValue 16 [first,second] = some (d : Int) := by
      simp [wholeValue,taken,digit,Subject.value,one]
    rw [whole,one]
    simp only [Option.some_inj,exists_eq_left',kept,digit]
    simp [eq_comm]
  · simp [wholeValue,taken,digit]

theorem parseUint8Hex_negated (b : Build) (second : Char) (byte : UInt8) :
    parseUint8Hex b ['-',second] = .ok byte ↔ second = '0' ∧ byte.toNat = magnitude 16 [second] := by
  have taken := subject_two_signed true second
  rw [if_pos rfl] at taken
  rw [parseUint8Hex_whole]
  have bounded := byte.toNat_lt
  constructor
  · rintro ⟨value,whole,same⟩
    by_cases digit : isDigit 16 second = true
    · obtain ⟨d,found,small⟩ := digit_small digit
      have one := magnitude_one found
      have negated : wholeValue 16 ['-',second] = some (-(d : Int)) := by
        simp [wholeValue,taken,digit,Subject.value,one]
      rw [negated,Option.some_inj] at whole
      have zero : d = 0 := by
        rcases (wrapped_byte b value).mp (by omega) with inside | slip
        · omega
        · rcases long_bits b with wide | wide <;> rw [wide] at slip <;> omega
      subst zero
      rw [← whole] at same
      refine ⟨digitValue_zero found,?_⟩
      rw [one,← same]
      exact wrapped_byte_value b (show (0 : Nat) < 256 by decide)
    · simp [wholeValue,taken,digit] at whole
  · rintro ⟨rfl,same⟩
    refine ⟨0,by decide,?_⟩
    rw [same]
    exact wrapped_byte_value b (show (0 : Nat) < 256 by decide)

theorem parseUint8Hex_ok (b : Build) (first second : Char) (byte : UInt8) :
    parseUint8Hex b [first,second] = .ok byte ↔
      (hexPair first second || loosePair first second) = true ∧ byte.toNat = pairValue first second := by
  by_cases digit : isDigit 16 first = true
  · obtain ⟨space,minus,plus⟩ := isDigit_plain digit
    rw [parseUint8Hex_digits b digit]
    by_cases more : isDigit 16 second = true
    · simp [hexPair,pairValue,digit,more]
    · simp [hexPair,loosePair,more,space,minus,plus]
  · by_cases space : isSpace first = true
    · have minus : first ≠ '-' := by
        rintro rfl
        cases space
      rw [parseUint8Hex_skipped b second ((subject_two_space space second).trans (subject_one second))]
      simp [hexPair,loosePair,pairValue,digit,space,minus]
    · by_cases plus : first = '+'
      · subst plus
        have taken := subject_two_signed false second
        rw [if_neg Bool.false_ne_true] at taken
        rw [parseUint8Hex_skipped b second taken]
        simp [hexPair,loosePair,pairValue,digit]
      · by_cases minus : first = '-'
        · subst minus
          rw [parseUint8Hex_negated]
          simp [hexPair,loosePair,pairValue,digit,space]
        · have none_ := subject_two_other (by simpa using digit) (by simpa using space) minus plus second
          rw [parseUint8Hex_whole]
          simp [wholeValue,none_,hexPair,loosePair,digit,space,minus,plus]

def everyPair (p : Char → Char → Bool) : Text → Bool
  | [] => true
  | [_] => false
  | first :: second :: rest => p first second && everyPair p rest

def somePair (p : Char → Char → Bool) : Text → Bool
  | first :: second :: rest => p first second || somePair p rest
  | _ => false

def takenPair (first second : Char) : Bool := hexPair first second || loosePair first second

def pairValues (value : Char → Char → Nat) : Text → List Nat
  | first :: second :: rest => value first second :: pairValues value rest
  | _ => []

theorem pairValue_lt (taken : takenPair first second = true) : pairValue first second < 256 := by
  unfold pairValue
  split
  · rename_i digits
    obtain ⟨digit,digit'⟩ := Bool.and_eq_true_iff.mp digits
    obtain ⟨d,found,small⟩ := digit_small digit
    obtain ⟨d',found',small'⟩ := digit_small digit'
    rw [magnitude_two found found']
    omega
  · rename_i other
    have loose : loosePair first second = true := by simpa [takenPair,other] using taken
    have digit : isDigit 16 second = true := by
      rcases Bool.or_eq_true_iff.mp loose with skipped | zero
      · exact (Bool.and_eq_true_iff.mp skipped).2
      · have same : second = '0' := by simpa using (Bool.and_eq_true_iff.mp zero).2
        subst same
        decide
    obtain ⟨d,found,small⟩ := digit_small digit
    rw [magnitude_one found]
    omega

theorem everyPair_even (every : everyPair p src = true) : src.length % 2 = 0 := by
  fun_induction everyPair p src with
  | case1 => rfl
  | case2 => cases every
  | case3 first second rest ih =>
    have tail := ih (Bool.and_eq_true_iff.mp every).2
    simp only [List.length_cons]
    omega

theorem pairValues_length (value : Char → Char → Nat) (src : Text) : (pairValues value src).length = src.length / 2 := by
  fun_induction pairValues value src with
  | case1 first second rest ih =>
    simp only [List.length_cons,ih]
    omega
  | case2 src short =>
    match src,short with
    | [],_ => rfl
    | [_],_ => simp
    | first :: second :: rest,short => exact (short first second rest rfl).elim

theorem parsePairs_ok (b : Build) (src : Text) (dest : Nat) (array result : SmbusDtype) (room : dest + src.length / 2 ≤ 34) :
    parsePairs b src dest array = .ok result ↔
      everyPair takenPair src = true ∧ result = array.patch dest ((pairValues pairValue src).map UInt8.ofNat) := by
  fun_induction parsePairs b src dest array with
  | case1 dest array =>
    have same : array.patch dest [] = array := funext (fun i => Buffer.patch_outside _ _ _ (by simp; omega))
    simp [everyPair,pairValues,same,eq_comm]
  | case2 c dest array =>
    simp only [everyPair,Bool.false_eq_true,false_and,iff_false]
    intro accepted
    obtain ⟨_,_,fault⟩ := parse_bind_ok.mp accepted
    cases fault
  | case3 first second src dest array ih =>
    simp only [List.length_cons] at room
    have inside : dest < 34 := by omega
    have step (byte : UInt8) := ih byte (by omega)
    simp only [everyPair,pairValues,List.map_cons,Bool.and_eq_true]
    constructor
    · intro accepted
      obtain ⟨byte,read,rest⟩ := parse_bind_ok.mp accepted
      rw [if_pos inside] at rest
      obtain ⟨taken,value⟩ := (parseUint8Hex_ok b first second byte).mp read
      obtain ⟨every,rfl⟩ := (step byte).mp rest
      refine ⟨⟨taken,every⟩,?_⟩
      rw [Buffer.patch_cons,← value,UInt8.ofNat_toNat]
    · rintro ⟨⟨taken,every⟩,rfl⟩
      have value : (UInt8.ofNat (pairValue first second)).toNat = pairValue first second := by
        rw [UInt8.toNat_ofNat',Nat.mod_eq_of_lt (pairValue_lt taken)]
      apply parse_bind_ok.mpr
      refine ⟨_,(parseUint8Hex_ok b first second _).mpr ⟨taken,value⟩,?_⟩
      rw [if_pos inside]
      exact (step _).mpr ⟨every,(Buffer.patch_cons ..).symm⟩

theorem pairs_cases (arg : Text) : arg = pairs arg ∨ arg = '0' :: 'x' :: pairs arg ∨ arg = '0' :: 'X' :: pairs arg := by
  unfold pairs stripPrefix
  split
  · split
    · rename_i letter
      rcases letter with rfl | rfl
      · exact .inr (.inl rfl)
      · exact .inr (.inr rfl)
    · exact .inl rfl
  · exact .inl rfl

theorem pairs_prefixed (letter : x = 'x' ∨ x = 'X') (digits : Text) : pairs ('0' :: x :: digits) = digits := by
  simp [pairs,stripPrefix,letter]

theorem pairs_plain (every : everyPair hexPair digits = true) : pairs digits = digits := by
  unfold pairs stripPrefix
  split
  · rename_i x src
    have digit : isDigit 16 x = true := by
      have first := (Bool.and_eq_true_iff.mp every).1
      exact (Bool.and_eq_true_iff.mp first).2
    have letter : ¬ (x = 'x' ∨ x = 'X') := by
      rintro (rfl | rfl)
      · cases digit
      · cases digit
    rw [if_neg letter]
  · rfl

theorem pairs_parity (arg : Text) : arg.length % 2 = (pairs arg).length % 2 := by
  rcases pairs_cases arg with same | same | same
  · rw [← same]
  · rw [same,pairs_prefixed (.inl rfl)]
    simp only [List.length_cons]
    omega
  · rw [same,pairs_prefixed (.inr rfl)]
    simp only [List.length_cons]
    omega

theorem parseBlock_ok (b : Build) (params stored : SmbusOpParams) (short : arg.length ≤ intMax) :
    parseBlock b arg params = .ok stored ↔
      arg ≠ [] ∧ (pairs arg).length / 2 ≤ blockMax ∧ everyPair takenPair (pairs arg) = true ∧
      stored = {params with data := params.data.patch 0 ((pairValues pairValue (pairs arg)).map UInt8.ofNat),
                            len := ((pairs arg).length / 2 : Nat)} := by
  have whole := toInt_of_small short
  have lengths := stripPrefix_length arg arg.length
  have left : (stripPrefix arg arg.length).2 = (pairs arg).length := by
    unfold pairs
    omega
  have parity := pairs_parity arg
  have empty : arg.length = 0 ↔ arg = [] := List.length_eq_zero_iff
  simp only [parseBlock,whole,left]
  split
  · rename_i odd
    constructor
    · intro accepted
      cases accepted
    · rintro ⟨nonempty,_,every,_⟩
      have even := everyPair_even every
      have positive : arg.length ≠ 0 := fun zero => nonempty (empty.mp zero)
      omega
  · rename_i even
    have nonempty : arg ≠ [] := by
      intro none_
      have zero := empty.mpr none_
      omega
    split
    · rename_i long
      constructor
      · intro accepted
        cases accepted
      · rintro ⟨_,small,_⟩
        omega
    · rename_i room
      have small : (pairs arg).length / 2 ≤ blockMax := by omega
      have loop (result : SmbusDtype) := parsePairs_ok b (pairs arg) 0 params.data result (by unfold blockMax at small; omega)
      have half : ((pairs arg).length : Int) / 2 = ((pairs arg).length / 2 : Nat) := by omega
      constructor
      · intro accepted
        obtain ⟨array,read,stores⟩ := parse_bind_ok.mp accepted
        obtain ⟨every,rfl⟩ := (loop array).mp read
        cases stores
        exact ⟨nonempty,small,every,by rw [half]⟩
      · rintro ⟨_,_,every,rfl⟩
        apply parse_bind_ok.mpr
        exact ⟨_,(loop _).mpr ⟨every,rfl⟩,by rw [half]⟩

-- The grammar of a block operand, by its digits behind the optional prefix.
def BlockOperand (arg digits : Text) : Prop :=
  (arg = digits ∨ arg = '0' :: 'x' :: digits ∨ arg = '0' :: 'X' :: digits) ∧
  everyPair hexPair digits = true ∧ 1 ≤ digits.length / 2 ∧ digits.length / 2 ≤ blockMax

-- parse_io_width as it is meant for a block: the grammar decides, and the pairs
-- are stored as their values.
def BlockLaw (b : Build) (arg : Text) (params : SmbusOpParams) (size : SmbusSize) : Prop :=
  ((∃ stored, parseIoWidth b arg params size = .ok stored) ↔ ∃ digits, BlockOperand arg digits) ∧
  ∀ stored digits, parseIoWidth b arg params size = .ok stored → BlockOperand arg digits →
    stored.len = (digits.length / 2 : Nat) ∧
    (stored.data.slice 0 (digits.length / 2)).map UInt8.toNat = pairValues (fun first second => magnitude 16 [first,second]) digits

-- The texts beyond the grammar that are let through: the prefix alone, and pairs
-- with white space or a sign in front of a digit.
def BlockSlips (arg : Text) : Prop :=
  arg = ['0','x'] ∨ arg = ['0','X'] ∨
  ((pairs arg).length / 2 ≤ blockMax ∧ everyPair takenPair (pairs arg) = true ∧ somePair loosePair (pairs arg) = true)

theorem blockOperand_pairs (operand : BlockOperand arg digits) : pairs arg = digits := by
  obtain ⟨shape,every,_⟩ := operand
  rcases shape with rfl | rfl | rfl
  · exact pairs_plain every
  · exact pairs_prefixed (.inl rfl) digits
  · exact pairs_prefixed (.inr rfl) digits

theorem everyPair_mono (every : everyPair p src = true) (implies : ∀ first second, p first second = true → q first second = true) :
    everyPair q src = true := by
  fun_induction everyPair p src with
  | case1 => rfl
  | case2 => cases every
  | case3 first second rest ih =>
    obtain ⟨head,tail⟩ := Bool.and_eq_true_iff.mp every
    exact Bool.and_eq_true_iff.mpr ⟨implies first second head,ih tail⟩

theorem taken_hex_or_loose (every : everyPair takenPair src = true) :
    somePair loosePair src = true ∨ everyPair hexPair src = true := by
  fun_induction everyPair takenPair src with
  | case1 => exact .inr rfl
  | case2 => cases every
  | case3 first second rest ih =>
    obtain ⟨taken,tail⟩ := Bool.and_eq_true_iff.mp every
    simp only [somePair,everyPair,Bool.or_eq_true,Bool.and_eq_true]
    rcases ih tail with loose | hex
    · exact .inl (.inr loose)
    · rcases Bool.or_eq_true_iff.mp taken with digits | loose
      · exact .inr ⟨digits,hex⟩
      · exact .inl (.inl loose)

theorem loosePair_not_hex (loose : loosePair first second = true) : hexPair first second = false := by
  by_contra hex
  have digits := Bool.and_eq_true_iff.mp ((Bool.not_eq_false _).mp hex)
  obtain ⟨space,minus,plus⟩ := isDigit_plain digits.1
  simp [loosePair,space,minus,plus] at loose

theorem somePair_loose (some_ : somePair loosePair src = true) : everyPair hexPair src = false := by
  fun_induction somePair loosePair src with
  | case1 first second rest ih =>
    rcases Bool.or_eq_true_iff.mp some_ with loose | later
    · simp [everyPair,loosePair_not_hex loose]
    · simp [everyPair,ih later]
  | case2 src short => cases some_

theorem pairValues_hex (every : everyPair hexPair src = true) :
    pairValues pairValue src = pairValues (fun first second => magnitude 16 [first,second]) src := by
  fun_induction everyPair hexPair src with
  | case1 => rfl
  | case2 => cases every
  | case3 first second rest ih =>
    obtain ⟨digits,tail⟩ := Bool.and_eq_true_iff.mp every
    simp only [pairValues,ih tail,pairValue,digits,if_true]

theorem pairValues_stored (every : everyPair takenPair src = true) :
    ((pairValues pairValue src).map UInt8.ofNat).map UInt8.toNat = pairValues pairValue src := by
  fun_induction everyPair takenPair src with
  | case1 => rfl
  | case2 => cases every
  | case3 first second rest ih =>
    obtain ⟨taken,tail⟩ := Bool.and_eq_true_iff.mp every
    simp only [pairValues,List.map_cons,ih tail,UInt8.toNat_ofNat',Nat.mod_eq_of_lt (pairValue_lt taken)]

theorem pairs_nil (none_ : pairs arg = []) : arg = [] ∨ arg = ['0','x'] ∨ arg = ['0','X'] := by
  have shape := pairs_cases arg
  rwa [none_] at shape

theorem blockSlips_accepted (b : Build) (params : SmbusOpParams) (short : arg.length ≤ intMax) (slips : BlockSlips arg) :
    ∃ stored, parseBlock b arg params = .ok stored := by
  have accepts (stored : SmbusOpParams) := parseBlock_ok b params stored short
  rcases slips with rfl | rfl | ⟨small,every,loose⟩
  · exact ⟨_,(accepts _).mpr ⟨by simp,by decide,rfl,rfl⟩⟩
  · exact ⟨_,(accepts _).mpr ⟨by simp,by decide,rfl,rfl⟩⟩
  · have nonempty : arg ≠ [] := by
      rintro rfl
      cases loose
    exact ⟨_,(accepts _).mpr ⟨nonempty,small,every,rfl⟩⟩

theorem blockSlips_beyond (slips : BlockSlips arg) : ¬ BlockOperand arg digits := by
  intro operand
  have same := blockOperand_pairs operand
  obtain ⟨_,every,some_,_⟩ := operand
  rcases slips with rfl | rfl | ⟨_,_,loose⟩
  · cases same
    cases some_
  · cases same
    cases some_
  · rw [same] at loose
    rw [somePair_loose loose] at every
    cases every

theorem blockSlips_unlawful (b : Build) (params : SmbusOpParams) (short : arg.length ≤ intMax) (block : size.isBlock = true)
    (slips : BlockSlips arg) : ¬ BlockLaw b arg params size := by
  unfold BlockLaw
  rw [parseIoWidth_block block]
  rintro ⟨grammar,_⟩
  obtain ⟨digits,operand⟩ := grammar.mp (blockSlips_accepted b _ short slips)
  exact blockSlips_beyond slips operand

theorem accepted_blockOperand (b : Build) (params : SmbusOpParams) (short : arg.length ≤ intMax) (plain : ¬ BlockSlips arg)
    (accepted : parseBlock b arg params = .ok stored) : BlockOperand arg (pairs arg) := by
  obtain ⟨nonempty,small,every,_⟩ := (parseBlock_ok b params stored short).mp accepted
  have hex : everyPair hexPair (pairs arg) = true := by
    rcases taken_hex_or_loose every with loose | hex
    · exact absurd (.inr (.inr ⟨small,every,loose⟩)) plain
    · exact hex
  have some_ : pairs arg ≠ [] := by
    intro none_
    rcases pairs_nil none_ with empty | lower | upper
    · exact nonempty empty
    · exact plain (.inl lower)
    · exact plain (.inr (.inl upper))
  have even := everyPair_even hex
  have positive := List.length_pos_iff.mpr some_
  exact ⟨pairs_cases arg,hex,by omega,small⟩

theorem blockOperand_accepted (b : Build) (params : SmbusOpParams) (short : arg.length ≤ intMax)
    (operand : BlockOperand arg digits) : ∃ stored, parseBlock b arg params = .ok stored := by
  have same := blockOperand_pairs operand
  obtain ⟨shape,every,some_,small⟩ := operand
  have nonempty : arg ≠ [] := by
    rintro rfl
    cases same
    cases some_
  have taken : everyPair takenPair digits = true :=
    everyPair_mono every (fun _ _ digit => Bool.or_eq_true_iff.mpr (.inl digit))
  rw [← same] at small taken
  exact ⟨_,(parseBlock_ok b params _ short).mpr ⟨nonempty,small,taken,rfl⟩⟩

theorem blockOperand_stored (b : Build) (params : SmbusOpParams) (short : arg.length ≤ intMax)
    (accepted : parseBlock b arg {params with data := Buffer.zero} = .ok stored) (operand : BlockOperand arg digits) :
    stored.len = (digits.length / 2 : Nat) ∧
    (stored.data.slice 0 (digits.length / 2)).map UInt8.toNat =
      pairValues (fun first second => magnitude 16 [first,second]) digits := by
  have same := blockOperand_pairs operand
  obtain ⟨_,every,_,small⟩ := operand
  obtain ⟨_,_,taken,rfl⟩ := (parseBlock_ok b _ stored short).mp accepted
  rw [same] at taken ⊢
  have count : ((pairValues pairValue digits).map UInt8.ofNat).length = digits.length / 2 := by
    rw [List.length_map,pairValues_length]
  have back := Buffer.slice_patch (Buffer.zero : SmbusDtype) ((pairValues pairValue digits).map UInt8.ofNat)
    (show 0 + _ ≤ 34 by unfold blockMax at small; omega)
  rw [count] at back
  refine ⟨rfl,?_⟩
  rw [back,pairValues_stored taken,pairValues_hex every]

-- Where the block operands are what the grammar says, and that it is nowhere
-- else.
theorem block_grammar_iff (b : Build) (arg : Text) (short : arg.length ≤ intMax) (params : SmbusOpParams) (size : SmbusSize)
    (block : size.isBlock = true) : BlockLaw b arg params size ↔ ¬ BlockSlips arg := by
  constructor
  · intro law slips
    exact blockSlips_unlawful b params short block slips law
  · intro plain
    unfold BlockLaw
    rw [parseIoWidth_block block]
    refine ⟨⟨?_,?_⟩,?_⟩
    · rintro ⟨stored,accepted⟩
      exact ⟨pairs arg,accepted_blockOperand b _ short plain accepted⟩
    · rintro ⟨digits,operand⟩
      exact blockOperand_accepted b _ short operand
    · intro stored digits accepted operand
      exact blockOperand_stored b params short accepted operand

theorem block_grammar_slips :
    ((parseIoWidth .x86_64 ['0','x'] .zero .block).toOption.map SmbusOpParams.len = some 0 ∧
      ¬ BlockLaw .x86_64 ['0','x'] .zero .block) ∧
    ((parseIoWidth .x86_64 "12 3-0".toList .zero .writeRead).toOption.map (fun stored => stored.data.slice 0 3) =
      some [0x12,3,0] ∧ ¬ BlockLaw .x86_64 "12 3-0".toList .zero .writeRead) := by
  refine ⟨⟨by decide +kernel,?_⟩,⟨by decide +kernel,?_⟩⟩
  · exact blockSlips_unlawful .x86_64 .zero (by decide) rfl (.inl rfl)
  · exact blockSlips_unlawful .x86_64 .zero (by decide) rfl (.inr (.inr ⟨by decide,by decide +kernel,by decide +kernel⟩))

theorem block_grammar_iff_call :
    BlockLaw .ppc64 "0xA5fe".toList .zero .blockProcCall ∧ ∃ digits, BlockOperand "0xA5fe".toList digits := by
  constructor
  · apply (block_grammar_iff .ppc64 "0xA5fe".toList (by decide) .zero .blockProcCall rfl).mpr
    rintro (lower | upper | ⟨_,_,loose⟩)
    · exact absurd lower (by decide)
    · exact absurd upper (by decide)
    · exact absurd loose (by decide +kernel)
  · exact ⟨"A5fe".toList,.inr (.inl rfl),by decide +kernel,by decide,by decide⟩

end Iotools
