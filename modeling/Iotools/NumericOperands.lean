import Iotools.SmbusRoundTrip

namespace Iotools
open Bytes Numeral Interaction

theorem isTrailingJunk_ok : isTrailingJunk arg rest = .ok () ↔ rest = [] := by
  unfold isTrailingJunk
  by_cases ended : rest = [] <;> simp [ended]

theorem isMaxOrTrailingJunk_ok :
    isMaxOrTrailingJunk b arg rest ldata = .ok () ↔ ldata % 2 ^ b.long.bits ≠ longMax b ∧ rest = [] := by
  unfold isMaxOrTrailingJunk
  by_cases max : ldata % 2 ^ b.long.bits = longMax b
  · simp [max]
  · simp [max,isTrailingJunk_ok]

-- A byte is far below LONG_MAX, so only the end pointer and the range decide.
theorem parseUint8Base_ok : parseUint8Base b arg base = .ok byte ↔ strtoulLong b base arg = (byte.toNat,[]) := by
  have bounded := byte.toNat_lt
  constructor
  · intro accepted
    obtain ⟨_,plain,rest⟩ := parse_bind_ok.mp accepted
    split at rest
    · cases rest
    · rename_i small
      cases rest
      apply Prod.ext
      · rw [UInt8.toNat_ofNat']
        omega
      · exact (isMaxOrTrailingJunk_ok.mp plain).2
  · intro converted
    have fits : ¬ 0xff < byte.toNat := by omega
    apply parse_bind_ok.mpr
    refine ⟨(),?_,?_⟩
    · rw [converted]
      exact isMaxOrTrailingJunk_small b arg (by omega)
    · simp [converted,fits]

theorem parseUint8Base_whole : parseUint8Base b arg base = .ok byte ↔
    (arg = [] ∧ byte = 0) ∨ ∃ value, wholeValue base arg = some value ∧ wrapped b.long.bits value = byte.toNat := by
  rw [parseUint8Base_ok]
  constructor
  · intro converted
    have consumed : (strtoulLong b base arg).2 = [] := by rw [converted]
    rcases (strtoul_consumes _ _ _).mp consumed with rfl | ⟨value,whole⟩
    · left
      refine ⟨rfl,?_⟩
      have zero : (0 : Nat) = byte.toNat := by simpa [strtoulLong,strtoul] using converted
      exact UInt8.toNat_inj.mp zero.symm
    · right
      rw [strtoulLong,strtoul_whole whole] at converted
      exact ⟨value,whole,congrArg Prod.fst converted⟩
  · rintro (⟨rfl,rfl⟩ | ⟨value,whole,same⟩)
    · simp [strtoulLong,strtoul]
    · rw [strtoulLong,strtoul_whole whole,same]

-- parse_uint8 as it is meant: exactly the literals of a byte, as their value.
def ByteLaw (b : Build) (arg : Text) : Prop :=
  ((∃ byte, parseUint8 b arg = .ok byte) ↔ ∃ value : Int, wholeValue 0 arg = some value ∧ 0 ≤ value ∧ value ≤ 0xff) ∧
  ∀ byte, parseUint8 b arg = .ok byte → wholeValue 0 arg = some (byte.toNat : Int)

-- The texts it lets through: nothing at all, and negative numbers that come out
-- as a byte.
def ByteSlips (b : Build) (arg : Text) : Prop :=
  arg = [] ∨ ∃ value : Int, wholeValue 0 arg = some value ∧ -(2 ^ b.long.bits : Int) < value ∧
    value ≤ 0xff - (2 ^ b.long.bits : Int)

theorem wholeValue_nil (base : Nat) : wholeValue base [] = none := by simp [wholeValue]

theorem long_bits (b : Build) : b.long.bits = 32 ∨ b.long.bits = 64 := by
  cases b.long
  · exact .inl rfl
  · exact .inr rfl

theorem wrapped_byte (b : Build) (value : Int) : wrapped b.long.bits value < 256 ↔
    (0 ≤ value ∧ value ≤ 0xff) ∨ (-(2 ^ b.long.bits : Int) < value ∧ value ≤ 0xff - (2 ^ b.long.bits : Int)) := by
  unfold wrapped
  rcases long_bits b with wide | wide
  · rw [wide]
    split <;> omega
  · rw [wide]
    split <;> omega

theorem wrapped_inside (inside : 0 ≤ value ∧ value < 2 ^ bits) : (wrapped bits value : Int) = value := by
  have power : (2 : Int) ^ bits = (2 ^ bits : Nat) := (Int.natCast_pow 2 bits).symm
  have small : ¬ 2 ^ bits ≤ value.natAbs := by
    rw [power] at inside
    omega
  rw [wrapped,if_neg small,Int.emod_eq_of_lt inside.1 inside.2]
  omega

theorem byteLaw_iff (b : Build) (arg : Text) : ByteLaw b arg ↔ ¬ ByteSlips b arg := by
  have power : (2 : Int) ^ 32 ≤ 2 ^ b.long.bits := by
    rcases long_bits b with wide | wide
    · rw [wide]
    · rw [wide]
      decide
  constructor
  · rintro ⟨_,stores⟩ (rfl | ⟨value,whole,above,below⟩)
    · have stored := stores 0 (parseUint8Base_whole.mpr (.inl ⟨rfl,rfl⟩))
      rw [wholeValue_nil] at stored
      cases stored
    · have small := (wrapped_byte b value).mpr (.inr ⟨above,below⟩)
      have accepted : parseUint8 b arg = .ok (UInt8.ofNat (wrapped b.long.bits value)) := by
        refine parseUint8Base_whole.mpr (.inr ⟨value,whole,?_⟩)
        rw [UInt8.toNat_ofNat',Nat.mod_eq_of_lt small]
      have stored := stores _ accepted
      rw [whole,Option.some_inj] at stored
      omega
  · intro plain
    have nonempty : arg ≠ [] := fun empty => plain (.inl empty)
    have given : ∀ byte, parseUint8 b arg = .ok byte → ∃ value : Int, wholeValue 0 arg = some value ∧ value = byte.toNat := by
      intro byte accepted
      rcases parseUint8Base_whole.mp accepted with ⟨empty,_⟩ | ⟨value,whole,same⟩
      · exact absurd empty nonempty
      · have bounded := byte.toNat_lt
        rcases (wrapped_byte b value).mp (by omega) with inside | slip
        · have exact_ : (wrapped b.long.bits value : Int) = value := wrapped_inside ⟨inside.1,by omega⟩
          exact ⟨value,whole,by omega⟩
        · exact absurd (.inr ⟨value,whole,slip⟩) plain
    refine ⟨⟨?_,?_⟩,?_⟩
    · rintro ⟨byte,accepted⟩
      obtain ⟨value,whole,same⟩ := given byte accepted
      have bounded := byte.toNat_lt
      exact ⟨value,whole,by omega,by omega⟩
    · rintro ⟨value,whole,inside⟩
      have exact_ : (wrapped b.long.bits value : Int) = value := wrapped_inside ⟨inside.1,by omega⟩
      refine ⟨UInt8.ofNat (wrapped b.long.bits value),parseUint8Base_whole.mpr (.inr ⟨value,whole,?_⟩)⟩
      rw [UInt8.toNat_ofNat',Nat.mod_eq_of_lt (by omega)]
    · intro byte accepted
      obtain ⟨value,whole,same⟩ := given byte accepted
      rw [whole,same]

def SmbusSize.operandBits (b : Build) (size : SmbusSize) : Nat := if size = .size64 then 64 else b.long.bits

def SmbusSize.passes (b : Build) (size : SmbusSize) (ldata : Nat) : Prop :=
  match size with
  | .quick => ldata = 0 ∨ ldata = 1
  | .byte | .size8 | .size16 | .procCall => ldata ≠ longMax b
  | _ => True

theorem operandValue_eq (b : Build) (size : SmbusSize) (arg : Text) :
    operandValue b size arg = (strtoul (size.operandBits b) 0 arg).1 := by
  unfold operandValue SmbusSize.operandBits
  split
  · rfl
  · rfl

theorem guard_ok : isMaxOrTrailingJunk b arg (strtoulLong b 0 arg).2 (strtoulLong b 0 arg).1 = .ok () ↔
    (strtoulLong b 0 arg).2 = [] ∧ (strtoulLong b 0 arg).1 ≠ longMax b := by
  have bounded : (strtoulLong b 0 arg).1 < 2 ^ b.long.bits := strtoul_lt _ _ _
  rw [isMaxOrTrailingJunk_ok,Nat.mod_eq_of_lt bounded]
  exact and_comm

theorem guard_then (guard : Parse Unit) (value : α) :
    (∃ stored, (guard >>= fun _ => (.ok value : Parse α)) = .ok stored) ↔ guard = .ok () := by
  cases guard with
  | ok _ => simp [bind,Except.bind]
  | error stop => simp [bind,Except.bind]

theorem parseIoWidth_accepts (b : Build) (arg : Text) (params : SmbusOpParams) (fixed : size.fixedBytes = some count) :
    (∃ stored, parseIoWidth b arg params size = .ok stored) ↔
      (strtoul (size.operandBits b) 0 arg).2 = [] ∧ size.passes b (operandValue b size arg) := by
  cases size with
  | block | blockProcCall | writeRead => cases fixed
  | size32 | size64 => exact (guard_then _ _).trans (isTrailingJunk_ok.trans (and_iff_left trivial).symm)
  | byte | size8 | size16 | procCall => exact (guard_then _ _).trans guard_ok
  | quick =>
    have below : ∀ ldata : Nat, ldata = 0 ∨ ldata = 1 → ldata ≠ longMax b := by
      intro ldata small
      unfold longMax
      rcases long_bits b with wide | wide <;> rw [wide] <;> omega
    constructor
    · rintro ⟨stored,accepted⟩
      obtain ⟨_,plain,rest⟩ := parse_bind_ok.mp accepted
      refine ⟨(guard_ok.mp plain).1,?_⟩
      split at rest
      · cases rest
      · rename_i small
        show (strtoulLong b 0 arg).1 = 0 ∨ (strtoulLong b 0 arg).1 = 1
        omega
    · rintro ⟨ended,small⟩
      have bit : (strtoulLong b 0 arg).1 = 0 ∨ (strtoulLong b 0 arg).1 = 1 := small
      have inside : ¬ ((strtoulLong b 0 arg).1 ≠ 0 ∧ (strtoulLong b 0 arg).1 ≠ 1) := by omega
      refine ⟨{params with data := SmbusDtype.setFixed b Buffer.zero 1 (strtoulLong b 0 arg).1},?_⟩
      apply parse_bind_ok.mpr
      refine ⟨(),guard_ok.mpr ⟨ended,below _ bit⟩,?_⟩
      rw [if_neg inside]

def FixedLaw (b : Build) (arg : Text) (params : SmbusOpParams) (size : SmbusSize) (count : Nat) : Prop :=
  ∀ stored, parseIoWidth b arg params size = .ok stored → ∃ value : Int, wholeValue 0 arg = some value ∧
    0 ≤ value ∧ value < 256 ^ count ∧ (SmbusDtype.fixed b stored.data count : Int) = value

def SmbusSize.lets (b : Build) (size : SmbusSize) (value : Int) : Prop :=
  match size with
  | .quick => value = 1 - (2 ^ b.long.bits : Int)
  | .byte | .size8 | .size16 | .procCall => value ≠ longMax b ∧ value ≠ longMax b - (2 ^ b.long.bits : Int)
  | _ => True

def FixedSlips (b : Build) (arg : Text) (size : SmbusSize) (count : Nat) : Prop :=
  arg = [] ∨ ∃ value : Int, wholeValue 0 arg = some value ∧ ¬ (0 ≤ value ∧ value < 256 ^ count) ∧ size.lets b value

theorem lets_iff (b : Build) (fixed : size.fixedBytes = some count) (outside : ¬ (0 ≤ value ∧ value < 256 ^ count)) :
    SmbusSize.lets b size value ↔ size.passes b (wrapped (size.operandBits b) value) := by
  cases size with
  | block | blockProcCall | writeRead => cases fixed
  | size32 | size64 => exact Iff.rfl
  | byte | size8 | size16 | procCall =>
    show (value ≠ longMax b ∧ value ≠ longMax b - (2 ^ b.long.bits : Int)) ↔ wrapped b.long.bits value ≠ longMax b
    unfold wrapped longMax
    rcases long_bits b with wide | wide <;> rw [wide] <;> split <;> omega
  | quick =>
    cases fixed
    show value = 1 - (2 ^ b.long.bits : Int) ↔ wrapped b.long.bits value = 0 ∨ wrapped b.long.bits value = 1
    unfold wrapped
    rcases long_bits b with wide | wide <;> rw [wide] <;> split <;> omega

theorem fixedBytes_bounds {size : SmbusSize} (b : Build) (fixed : size.fixedBytes = some count) :
    count ≤ 8 ∧ (256 ^ count : Int) ≤ 2 ^ size.operandBits b := by
  have long (small : count ≤ 4) : (256 ^ count : Int) ≤ 2 ^ b.long.bits := by
    have power : (256 : Int) ^ count ≤ 256 ^ 4 := pow_le_pow_right₀ (by decide) small
    rcases long_bits b with wide | wide <;> rw [wide] <;> omega
  cases size with
  | block | blockProcCall | writeRead => cases fixed
  | size64 =>
    cases fixed
    refine ⟨by decide,?_⟩
    show (256 ^ 8 : Int) ≤ 2 ^ 64
    decide
  | quick | byte | size8 | size16 | procCall | size32 =>
    cases fixed
    exact ⟨by decide,long (by decide)⟩

theorem parseIoWidth_empty (b : Build) (params : SmbusOpParams) (fixed : size.fixedBytes = some count) :
    ∃ stored, parseIoWidth b [] params size = .ok stored := by
  have zero (bits : Nat) : strtoul bits 0 [] = (0,[]) := by simp [strtoul]
  have notMax : (0 : Nat) ≠ longMax b := by
    unfold longMax
    rcases long_bits b with wide | wide <;> rw [wide] <;> decide
  rw [parseIoWidth_accepts b [] params fixed,operandValue_eq,zero]
  refine ⟨rfl,?_⟩
  cases size with
  | block | blockProcCall | writeRead => cases fixed
  | size32 | size64 => trivial
  | byte | size8 | size16 | procCall => exact notMax
  | quick => exact .inl rfl

theorem fixedLaw_iff (b : Build) (arg : Text) (params : SmbusOpParams) (fixed : size.fixedBytes = some count) :
    FixedLaw b arg params size count ↔ ¬ FixedSlips b arg size count := by
  constructor
  · rintro law (rfl | ⟨value,whole,outside,let_⟩)
    · obtain ⟨stored,accepted⟩ := parseIoWidth_empty b params fixed
      obtain ⟨value,whole,_⟩ := law stored accepted
      rw [wholeValue_nil] at whole
      cases whole
    · have passes := (lets_iff b fixed outside).mp let_
      have accepts := parseIoWidth_accepts b arg params fixed
      rw [operandValue_eq,strtoul_whole whole] at accepts
      obtain ⟨stored,accepted⟩ := accepts.mpr ⟨rfl,passes⟩
      obtain ⟨value',whole',low,high,_⟩ := law stored accepted
      rw [whole,Option.some_inj] at whole'
      subst whole'
      exact outside ⟨low,high⟩
  · intro plain stored accepted
    obtain ⟨ended,passes⟩ := (parseIoWidth_accepts b arg params fixed).mp ⟨stored,accepted⟩
    rcases (strtoul_consumes _ _ _).mp ended with empty | ⟨value,whole⟩
    · exact absurd (.inl empty) plain
    · rw [operandValue_eq,strtoul_whole whole] at passes
      have inside : 0 ≤ value ∧ value < 256 ^ count := by
        by_contra outside
        exact plain (.inr ⟨value,whole,outside,(lets_iff b fixed outside).mpr passes⟩)
      obtain ⟨narrow,power⟩ := fixedBytes_bounds b fixed
      have kept : (wrapped (size.operandBits b) value : Int) = value := wrapped_inside ⟨inside.1,by omega⟩
      refine ⟨value,whole,inside.1,inside.2,?_⟩
      rw [parseIoWidth_fixed fixed accepted,fixed_setFixed b _ _ (by omega),operandValue_eq,strtoul_whole whole]
      rw [Int.natCast_emod,kept,Int.natCast_pow]
      exact Int.emod_eq_of_lt inside.1 inside.2

-- Where SMBus operands are altered silently, and that it is nowhere else.
theorem smbus_operands_iff (b : Build) (arg : Text) :
    (ByteLaw b arg ↔ ¬ ByteSlips b arg) ∧
    ∀ (params : SmbusOpParams) (size : SmbusSize) (count : Nat), size.fixedBytes = some count →
      (FixedLaw b arg params size count ↔ ¬ FixedSlips b arg size count) :=
  ⟨byteLaw_iff b arg,fun params _ _ fixed => fixedLaw_iff b arg params fixed⟩

theorem smbus_operands_altered :
    (parseUint8 .x86_64 [] = .ok 0 ∧ ¬ ByteLaw .x86_64 []) ∧
    (parseUint8 .x86_64 "-18446744073709551615".toList = .ok 1 ∧ ¬ ByteLaw .x86_64 "-18446744073709551615".toList) ∧
    ((parseIoWidth .x86_64 "256".toList .zero .size8).toOption.map (fun stored => SmbusDtype.fixed .x86_64 stored.data 1) =
      some 0 ∧ ¬ FixedLaw .x86_64 "256".toList .zero .size8 1) := by
  refine ⟨⟨by decide,?_⟩,⟨by decide +kernel,?_⟩,⟨by decide +kernel,?_⟩⟩
  · intro law
    have stored := law.2 0 (by decide)
    rw [wholeValue_nil] at stored
    cases stored
  · intro law
    have stored := law.2 1 (by decide +kernel)
    have negative : wholeValue 0 "-18446744073709551615".toList = some (-18446744073709551615) := by decide +kernel
    rw [negative] at stored
    cases stored
  · have outside : wholeValue 0 "256".toList = some 256 := by decide +kernel
    rw [fixedLaw_iff .x86_64 "256".toList .zero (show SmbusSize.size8.fixedBytes = some 1 from rfl)]
    intro plain
    exact plain (.inr ⟨256,outside,by decide,by decide,by decide⟩)

theorem smbus_operands_iff_word :
    FixedLaw .i386 "0xbeef".toList .zero .size16 2 ∧ ¬ FixedLaw .i386 "0x1beef".toList .zero .size16 2 := by
  have inside : wholeValue 0 "0xbeef".toList = some 0xbeef := by decide +kernel
  have outside : wholeValue 0 "0x1beef".toList = some 0x1beef := by decide +kernel
  constructor
  · apply ((smbus_operands_iff .i386 "0xbeef".toList).2 .zero .size16 2 rfl).mpr
    rintro (empty | ⟨value,whole,beyond,_⟩)
    · cases empty
    · rw [inside,Option.some_inj] at whole
      subst whole
      exact beyond (by decide)
  · rw [(smbus_operands_iff .i386 "0x1beef".toList).2 .zero .size16 2 rfl]
    intro plain
    exact plain (.inr ⟨0x1beef,outside,by decide,by decide,by decide⟩)

end Iotools
