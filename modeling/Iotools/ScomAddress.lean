import Iotools.Bits
import Iotools.RegisterFiles

namespace Iotools
open Bytes Numeral Interaction

-- How the kernel reads the file offset of an access: it shifts the whole value
-- right by 3 and then takes bit 59 for the indirect flag, which is bit 63 of an
-- address.
def kernelScom (offset : Int) : Nat :=
  let address := (offset / 8 % 2 ^ 64).toNat
  if address.testBit 59 then (address &&& (2 ^ 64 - 1 - 2 ^ 59)) ||| 2 ^ 63 else address

-- Addresses whose bits 59 to 62 are clear.
def PlainScom (scom : Nat) : Prop := ∀ i, 59 ≤ i → i ≤ 62 → scom.testBit i = false

def scomWord (scom : Nat) : Nat :=
  let offset := (scom &&& (2 ^ 63 - 1)) * 8 % 2 ^ 64
  if scom &&& 2 ^ 63 ≠ 0 then offset ||| 2 ^ 62 else offset

theorem scomWord_testBit (scom i : Nat) :
    (scomWord scom).testBit i = ((decide (3 ≤ i ∧ i < 64) && scom.testBit (i - 3)) || (decide (i = 62) && scom.testBit 63)) := by
  have shifted : ((scom &&& (2 ^ 63 - 1)) * 8 % 2 ^ 64).testBit i = (decide (3 ≤ i ∧ i < 64) && scom.testBit (i - 3)) := by
    rw [show (8 : Nat) = 2 ^ 3 from rfl,Nat.testBit_mod_two_pow,Nat.testBit_mul_two_pow,Nat.testBit_and,
      Nat.testBit_two_pow_sub_one]
    by_cases inside : 3 ≤ i ∧ i < 64
    · have below : i - 3 < 63 := by omega
      simp [inside,below]
    · rw [not_and_or] at inside
      rcases inside with low | high
      · simp [low]
      · simp [high]
  unfold scomWord
  by_cases indirect : scom.testBit 63 = true
  · rw [if_pos ((Bits.and_two_pow_ne_zero scom 63).mpr indirect),Nat.testBit_or,shifted,Nat.testBit_two_pow,indirect]
    simp [eq_comm]
  · rw [if_neg (fun set => indirect ((Bits.and_two_pow_ne_zero scom 63).mp set)),shifted]
    simp [indirect]

theorem scomWord_lt (scom : Nat) : scomWord scom < 2 ^ 64 := by
  apply Nat.lt_pow_two_of_testBit
  intro i high
  rw [scomWord_testBit]
  have outside : ¬ (3 ≤ i ∧ i < 64) := by omega
  have other : i ≠ 62 := by omega
  simp [outside,other]

theorem scomOffset_eq (scom : Nat) : scomOffset scom = toOff 64 (scomWord scom) := rfl

theorem toOff_nonneg (small : value < 2 ^ 64) : 0 ≤ toOff 64 value ↔ value.testBit 63 = false := by
  rw [← Bits.lt_two_pow_iff small]
  unfold toOff
  norm_num
  omega

theorem kernelScom_testBit (small : value < 2 ^ 63) (i : Nat) :
    (kernelScom (toOff 64 value)).testBit i =
      if value.testBit 62 then decide (i = 63) || (decide (i ≠ 59) && value.testBit (i + 3)) else value.testBit (i + 3) := by
  have shifted : (toOff 64 value / 8 % 2 ^ 64).toNat = value / 2 ^ 3 := by
    unfold toOff
    norm_num
    omega
  have clears : (2 ^ 64 - 1 - 2 ^ 59).testBit i = (decide (i < 64) && decide (i ≠ 59)) := by
    rw [show 2 ^ 64 - 1 - 2 ^ 59 = 2 ^ 64 - (2 ^ 59 + 1) from rfl,Nat.testBit_two_pow_sub_succ (by decide),
      Nat.testBit_two_pow]
    simp [eq_comm]
  have outside : 64 ≤ i → value.testBit (i + 3) = false := by
    intro high
    apply Nat.testBit_lt_two_pow
    exact lt_of_lt_of_le small (Nat.pow_le_pow_right (by decide) (by omega))
  unfold kernelScom
  rw [shifted]
  simp only [Nat.testBit_div_two_pow]
  split
  · rw [Nat.testBit_or,Nat.testBit_and,Nat.testBit_div_two_pow,clears,Nat.testBit_two_pow]
    by_cases high : 64 ≤ i
    · simp [outside high,show ¬ i < 64 by omega,show i ≠ 63 by omega,eq_comm]
    · simp [show i < 64 by omega,eq_comm,Bool.or_comm,Bool.and_comm]
  · rw [Nat.testBit_div_two_pow]

theorem scomOffset_nonneg (scom : Nat) : 0 ≤ scomOffset scom ↔ scom.testBit 60 = false := by
  rw [scomOffset_eq,toOff_nonneg (scomWord_lt scom),scomWord_testBit]
  simp

theorem kernelScom_scomOffset (accepted : scom.testBit 60 = false) (i : Nat) :
    (kernelScom (scomOffset scom)).testBit i =
      if scom.testBit 59 || scom.testBit 63 then decide (i = 63) || (decide (i < 61 ∧ i ≠ 59) && scom.testBit i)
      else decide (i < 61) && scom.testBit i := by
  have small : scomWord scom < 2 ^ 63 := by
    rw [Bits.lt_two_pow_iff (scomWord_lt scom),scomWord_testBit]
    simp [accepted]
  have word : (scomWord scom).testBit (i + 3) = ((decide (i < 61) && scom.testBit i) || (decide (i = 59) && scom.testBit 63)) := by
    rw [scomWord_testBit]
    have inside : i + 3 < 64 ↔ i < 61 := by omega
    have flag : i + 3 = 62 ↔ i = 59 := by omega
    simp [inside,flag]
  have top : (scomWord scom).testBit 62 = (scom.testBit 59 || scom.testBit 63) := by
    rw [scomWord_testBit]
    simp
  rw [scomOffset_eq,kernelScom_testBit small,top,word]
  by_cases flag : i = 59
  · subst flag
    cases scom.testBit 59 <;> cases scom.testBit 63 <;> rfl
  · simp [flag]

theorem kernelScom_plain (small : scom < 2 ^ 64) (plain : PlainScom scom) : kernelScom (scomOffset scom) = scom := by
  apply Nat.eq_of_testBit_eq
  intro i
  rw [kernelScom_scomOffset (plain 60 (by decide) (by decide)),plain 59 (by decide) (by decide),Bool.false_or]
  by_cases low : i < 59
  · have inside : i < 61 ∧ i ≠ 59 ∧ i ≠ 63 := by omega
    simp [inside]
  · by_cases middle : i ≤ 62
    · have other : i ≠ 63 := by omega
      simp [plain i (by omega) middle,other]
    · by_cases last : i = 63
      · subst last
        cases scom.testBit 63 <;> rfl
      · have clear : scom.testBit i = false :=
          Nat.testBit_lt_two_pow (lt_of_lt_of_le small (Nat.pow_le_pow_right (by decide) (by omega)))
        simp [clear,last]

theorem plain_of_kernelScom (accepted : scom.testBit 60 = false) (back : kernelScom (scomOffset scom) = scom) :
    PlainScom scom := by
  have bits := kernelScom_scomOffset accepted
  rw [back] at bits
  have first : scom.testBit 59 = false := by
    have bit := bits 59
    revert bit
    cases scom.testBit 59 <;> simp
  intro i low high
  have cases_ : i = 59 ∨ i = 60 ∨ i = 61 ∨ i = 62 := by omega
  rcases cases_ with rfl | rfl | rfl | rfl
  · exact first
  · exact accepted
  · rw [bits 61]
    simp
  · rw [bits 62]
    simp

theorem scomOffset_aligned (scom : Nat) : scomOffset scom % 8 = 0 := by
  have low : scomWord scom % 2 ^ 3 = 0 := by
    apply Nat.eq_of_testBit_eq
    intro i
    rw [Nat.testBit_mod_two_pow,scomWord_testBit,Nat.zero_testBit]
    by_cases first : i < 3
    · have below : ¬ (3 ≤ i ∧ i < 64) ∧ i ≠ 62 := by omega
      simp [below]
    · simp [first]
  rw [scomOffset_eq]
  unfold toOff
  norm_num at low ⊢
  omega

def sought : Event Sys → Option (Int × Int)
  | ⟨.lseek fd offset,_⟩ => some (fd,offset)
  | _ => none

-- One seek follows an open that was granted, and none any other.
theorem scomOpenAndSeek_sought (chip : Int) (scom : Nat) (mode : AccessMode) (kernel : Kernel Sys σ) (s : σ) :
    let fd : Int := (kernel (.open (scomDevice chip) ⟨mode,false⟩) s).1
    ((scomOpenAndSeek chip scom mode).exec kernel s).trace.filterMap sought =
      if fd < 0 then [] else [(fd,scomOffset scom)] := by
  intro fd
  have opens : kernel (.open (scomDevice chip) ⟨mode,false⟩) s = (fd,(kernel (.open (scomDevice chip) ⟨mode,false⟩) s).2) := rfl
  unfold scomOpenAndSeek
  rw [Prog.call_bind,Prog.exec_step opens,Prog.done_bind]
  by_cases failed : fd < 0
  · rw [if_pos failed,if_pos failed]
    rfl
  · rw [if_neg failed,if_neg failed]
    simp only [Prog.call_bind,Prog.done_bind,Prog.exec_call,Run.prepend]
    split
    · rfl
    · rfl

-- The address goes through the file offset unharmed exactly when bits 59 to 62
-- are clear; then it is aligned and no other such address has the same offset.
theorem scom_address_encoding (chip : Int) (mode : AccessMode) (kernel : Kernel Sys σ) (s : σ) (scom : Nat)
    (small : scom < 2 ^ 64) :
    let fd : Int := (kernel (.open (scomDevice chip) ⟨mode,false⟩) s).1
    (((scomOpenAndSeek chip scom mode).exec kernel s).trace.filterMap sought =
      if fd < 0 then [] else [(fd,scomOffset scom)]) ∧
    (0 ≤ scomOffset scom ∧ kernelScom (scomOffset scom) = scom ↔ PlainScom scom) ∧
    (PlainScom scom → scomOffset scom % 8 = 0 ∧
      ∀ other < 2 ^ 64, PlainScom other → scomOffset other = scomOffset scom → other = scom) := by
  refine ⟨scomOpenAndSeek_sought chip scom mode kernel s,⟨?_,?_⟩,?_⟩
  · rintro ⟨accepted,back⟩
    exact plain_of_kernelScom ((scomOffset_nonneg scom).mp accepted) back
  · intro plain
    exact ⟨(scomOffset_nonneg scom).mpr (plain 60 (by decide) (by decide)),kernelScom_plain small plain⟩
  · intro plain
    refine ⟨scomOffset_aligned scom,?_⟩
    intro other below plain' same
    rw [← kernelScom_plain below plain',same,kernelScom_plain small plain]

theorem scom_address_encoding_indirect :
    ((scomOpenAndSeek 0 0x8000000000000001 .rdonly).exec smooth ()).trace.filterMap sought = [(3,0x4000000000000008)] ∧
    PlainScom 0x8000000000000001 ∧ kernelScom 0x4000000000000008 = 0x8000000000000001 := by
  have law := scom_address_encoding 0 .rdonly smooth () 0x8000000000000001 (by decide)
  have offset : scomOffset 0x8000000000000001 = 0x4000000000000008 := by decide
  have plain : PlainScom 0x8000000000000001 := by
    intro i low high
    interval_cases i <;> rfl
  rw [offset] at law
  exact ⟨law.1,plain,(law.2.1.mpr plain).2⟩

end Iotools
