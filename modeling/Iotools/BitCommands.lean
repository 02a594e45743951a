import Iotools.Bits
import Iotools.LogicLaws

namespace Iotools
open Numeral Interaction

def hexLine (value : Nat) : Text := "0x".toList ++ hexLower 0 value ++ "\n".toList

theorem hexLine_inj : hexLine left = hexLine right ↔ left = right := by
  simp only [hexLine,List.append_cancel_right_eq,List.append_cancel_left_eq,hexLower_inj]

theorem logicResult_seen (value : Nat) (rc : Int) (kernel : Kernel Sys σ) (s : σ) :
    printed ((logicResult value rc).exec kernel s).trace = hexLine value ∧
    ((logicResult value rc).exec kernel s).outcome = .ok rc := by
  refine ⟨?_,rfl⟩
  simp [logicResult,printHex,Prog.exec_call,hexLine]

-- `1 << val` as an unsigned long long. Bit 31 of the int is its sign, which the
-- conversion repeats in all bits above.
theorem mask_testBit (val i : Nat) :
    (toUlonglong (intBit val)).testBit i = if val % 32 = 31 then decide (31 ≤ i ∧ i < 64) else decide (i = val % 32) := by
  by_cases sign : val % 32 = 31
  · have mask : toUlonglong (intBit val) = (2 ^ 33 - 1) * 2 ^ 31 := by
      unfold intBit
      rw [sign]
      decide
    rw [if_pos sign,mask,Nat.testBit_mul_two_pow,Nat.testBit_two_pow_sub_one]
    by_cases high : 31 ≤ i
    · have same : i - 31 < 33 ↔ i < 64 := by omega
      simp [high,same]
    · simp [high]
  · have small : 2 ^ (val % 32) ≤ 2 ^ 30 := Nat.pow_le_pow_right (by decide) (by omega)
    have mask : toUlonglong (intBit val) = 2 ^ (val % 32) := by
      have plain : intBit val = ((2 ^ (val % 32) : Nat) : Int) := by
        have fits : 2 ^ (val % 32) ≤ intMax := by unfold intMax; omega
        unfold intBit
        rw [← toInt_of_small fits]
        push_cast
        rfl
      rw [plain]
      unfold toUlonglong
      generalize 2 ^ (val % 32) = bit at small
      omega
    rw [if_neg sign,mask,Nat.testBit_two_pow]
    simp [eq_comm]

theorem mask_lt (val : Nat) : toUlonglong (intBit val) < 2 ^ 64 := by
  unfold toUlonglong
  omega

def LogicOp.sets (op : LogicOp) : Bool := decide (op = .bts)

def LogicOp.Touches (op : LogicOp) : Prop := op = .bts ∨ op = .btr

def bitResult (op : LogicOp) (value bit : Nat) : Nat :=
  match op with
  | .bts => value ||| toUlonglong (intBit bit)
  | _ => value &&& (2 ^ 64 - 1 - toUlonglong (intBit bit))

theorem bitResult_testBit {op : LogicOp} (touches : op.Touches) (small : value < 2 ^ 64) (bit i : Nat) :
    (bitResult op value bit).testBit i =
      if (toUlonglong (intBit bit)).testBit i then op.sets else value.testBit i := by
  rcases touches with rfl | rfl
  · simp only [bitResult,Nat.testBit_or]
    cases (toUlonglong (intBit bit)).testBit i <;> simp [LogicOp.sets]
  · have inverse : 2 ^ 64 - 1 - toUlonglong (intBit bit) = 2 ^ 64 - (toUlonglong (intBit bit) + 1) := by omega
    simp only [bitResult]
    rw [Nat.testBit_and,inverse,Nat.testBit_two_pow_sub_succ (mask_lt bit)]
    by_cases inside : i < 64
    · cases (toUlonglong (intBit bit)).testBit i <;> simp [inside,LogicOp.sets]
    · have clear : value.testBit i = false :=
        Nat.testBit_lt_two_pow (lt_of_lt_of_le small (Nat.pow_le_pow_right (by decide) (by omega)))
      simp [clear,LogicOp.sets]

theorem logicStep_touches {op : LogicOp} (touches : op.Touches) (value bit : Nat) :
    logicStep op value bit = some (bitResult op value bit,flag ((value &&& toUlonglong (intBit bit)) ≠ 0)) := by
  rcases touches with rfl | rfl <;> rfl

-- The result differs from the value in this one bit at most, and the code is the
-- bit as it was.
def OneBit (set : Bool) (value bit result : Nat) (code : Bool) : Prop :=
  (∀ i, result.testBit i = if i = bit then set else value.testBit i) ∧ code = value.testBit bit

-- The bit lies below the sign of an int; or it lies above, where the mask has
-- another bit, or all the bits from 31 on, and all that are not meant hold
-- already what they are given.
def BitFits (set : Bool) (value bit : Nat) : Prop :=
  bit ≤ 30 ∨
  (32 ≤ bit ∧ bit ≤ 62 ∧ value.testBit bit = set ∧ value.testBit (bit - 32) = set) ∨
  ((bit = 31 ∨ bit = 63) ∧ ∀ i, 31 ≤ i → i ≤ 63 → (i = bit → set = true) → value.testBit i = set)

theorem oneBit_iff {op : LogicOp} (touches : op.Touches) (small : value < 2 ^ 64) (bit : Nat) :
    OneBit op.sets value bit (bitResult op value bit) ((value &&& toUlonglong (intBit bit)) ≠ 0) ↔
      (∀ i, i ≠ bit → (toUlonglong (intBit bit)).testBit i = true → value.testBit i = op.sets) ∧
      ((toUlonglong (intBit bit)).testBit bit = true ∨ value.testBit bit = op.sets) ∧
      ((∃ i, value.testBit i = true ∧ (toUlonglong (intBit bit)).testBit i = true) ↔ value.testBit bit = true) := by
  have code : (decide ((value &&& toUlonglong (intBit bit)) ≠ 0) = value.testBit bit) ↔
      ((∃ i, value.testBit i = true ∧ (toUlonglong (intBit bit)).testBit i = true) ↔ value.testBit bit = true) := by
    rw [← Bits.and_ne_zero,Bool.eq_iff_iff,decide_eq_true_eq]
  unfold OneBit
  simp only [bitResult_testBit touches small]
  rw [code]
  constructor
  · rintro ⟨bits,same⟩
    refine ⟨?_,?_,same⟩
    · intro i other set
      have here := bits i
      rw [if_pos set,if_neg other] at here
      exact here.symm
    · by_cases set : (toUlonglong (intBit bit)).testBit bit = true
      · exact .inl set
      · have here := bits bit
        rw [if_neg set,if_pos rfl] at here
        exact .inr here
  · rintro ⟨others,own,same⟩
    refine ⟨?_,same⟩
    intro i
    by_cases here : i = bit
    · subst here
      rw [if_pos rfl]
      rcases own with set | held
      · rw [if_pos set]
      · rw [held,ite_self]
    · rw [if_neg here]
      split
      · rename_i set
        exact (others i here set).symm
      · rfl

theorem oneBit_low {op : LogicOp} (touches : op.Touches) (small : value < 2 ^ 64) (low : bit ≤ 30) :
    OneBit op.sets value bit (bitResult op value bit) ((value &&& toUlonglong (intBit bit)) ≠ 0) := by
  have mask : ∀ i, (toUlonglong (intBit bit)).testBit i = true ↔ i = bit := by
    intro i
    have plain : bit % 32 ≠ 31 ∧ bit % 32 = bit := by omega
    rw [mask_testBit,if_neg plain.1,plain.2,decide_eq_true_eq]
  rw [oneBit_iff touches small]
  simp only [mask]
  refine ⟨fun i other same => absurd same other,.inl trivial,?_⟩
  simp

theorem oneBit_wrapped {op : LogicOp} (touches : op.Touches) (small : value < 2 ^ 64) (above : 32 ≤ bit) (below : bit ≤ 62) :
    OneBit op.sets value bit (bitResult op value bit) ((value &&& toUlonglong (intBit bit)) ≠ 0) ↔
      value.testBit bit = op.sets ∧ value.testBit (bit - 32) = op.sets := by
  have mask : ∀ i, (toUlonglong (intBit bit)).testBit i = true ↔ i = bit - 32 := by
    intro i
    have plain : bit % 32 ≠ 31 ∧ bit % 32 = bit - 32 := by omega
    rw [mask_testBit,if_neg plain.1,plain.2,decide_eq_true_eq]
  have apart : bit - 32 ≠ bit := by omega
  rw [oneBit_iff touches small]
  simp only [mask]
  constructor
  · rintro ⟨others,own,_⟩
    exact ⟨own.resolve_left (fun same => apart same.symm),others (bit - 32) apart rfl⟩
  · rintro ⟨own,other⟩
    refine ⟨?_,.inr own,?_⟩
    · rintro i _ rfl
      exact other
    · simp [own,other]

theorem oneBit_sign {op : LogicOp} (touches : op.Touches) (small : value < 2 ^ 64) (sign : bit = 31 ∨ bit = 63) :
    OneBit op.sets value bit (bitResult op value bit) ((value &&& toUlonglong (intBit bit)) ≠ 0) ↔
      ∀ i, 31 ≤ i → i ≤ 63 → (i = bit → op.sets = true) → value.testBit i = op.sets := by
  have mask : ∀ i, (toUlonglong (intBit bit)).testBit i = true ↔ 31 ≤ i ∧ i ≤ 63 := by
    intro i
    have top : bit % 32 = 31 := by omega
    rw [mask_testBit,if_pos top,decide_eq_true_eq]
    omega
  have inside : 31 ≤ bit ∧ bit ≤ 63 := by omega
  rw [oneBit_iff touches small]
  simp only [mask]
  constructor
  · rintro ⟨others,_,code⟩ i low high own
    by_cases here : i = bit
    · -- any other bit of the mask makes the code 1
      subst here
      obtain ⟨j,other,range⟩ : ∃ j, j ≠ i ∧ 31 ≤ j ∧ j ≤ 63 := ⟨32,by omega,by decide,by decide⟩
      have set := own rfl
      have held := others j other range
      rw [set] at held ⊢
      exact code.mp ⟨j,held,range⟩
    · exact others i here ⟨low,high⟩
  · intro held
    refine ⟨?_,.inl inside,?_⟩
    · intro i other range
      exact held i range.1 range.2 (fun same => absurd same other)
    · constructor
      · rintro ⟨i,set,low,high⟩
        by_cases here : i = bit
        · exact here ▸ set
        · have same := held i low high (fun same => absurd same here)
          rw [set] at same
          exact (held bit inside.1 inside.2 (fun _ => same.symm)).trans same.symm
      · intro set
        exact ⟨bit,set,inside⟩

theorem oneBit_fits {op : LogicOp} (touches : op.Touches) (small : value < 2 ^ 64) (inside : bit ≤ 63) :
    OneBit op.sets value bit (bitResult op value bit) ((value &&& toUlonglong (intBit bit)) ≠ 0) ↔
      BitFits op.sets value bit := by
  unfold BitFits
  by_cases low : bit ≤ 30
  · exact ⟨fun _ => .inl low,fun _ => oneBit_low touches small low⟩
  · by_cases sign : bit = 31 ∨ bit = 63
    · have outside : ¬ (32 ≤ bit ∧ bit ≤ 62) := by omega
      rw [oneBit_sign touches small sign]
      constructor
      · exact fun held => .inr (.inr ⟨sign,held⟩)
      · rintro (below | ⟨above,top,_⟩ | ⟨_,held⟩)
        · exact absurd below low
        · exact absurd ⟨above,top⟩ outside
        · exact held
    · have range : 32 ≤ bit ∧ bit ≤ 62 := by omega
      rw [oneBit_wrapped touches small range.1 range.2]
      simp [low,sign,range]

theorem logicCmds_touch : ∀ info ∈ logicCmds, info.privdata = .logicInfo .bts ∨ info.privdata = .logicInfo .btr →
    info.entry = .logicOp ∧ info.params = some bitParams := by
  decide

theorem bit_run (b : Build) (fuel : Nat) (member : info ∈ logicCmds) {op : LogicOp} (touches : op.Touches)
    (held : info.privdata = .logicInfo op) (name value bit : Arg) :
    runInfo b fuel [name,value,bit] info = logicResult (bitResult op (operand value) (operand bit))
      (flag ((operand value &&& toUlonglong (intBit (operand bit))) ≠ 0)) := by
  obtain ⟨entry,params⟩ := logicCmds_touch info member (by
    rw [held]
    rcases touches with rfl | rfl <;> simp)
  have admitted : Admits info.params [name,value,bit] := by
    rw [params]
    rintro _ ⟨⟩
    exact ⟨le_refl 3,le_refl 3⟩
  have noIopl : ∀ p ∈ info.params, p.ioplNeeded = 0 := by
    rw [params]
    rintro _ ⟨⟩
    rfl
  have step := logicStep_touches touches (operand value) (operand bit)
  rw [runInfo_admitted b fuel noIopl admitted,entry]
  unfold operand at step ⊢
  simp only [Entry.call,logicOp,argAt,List.length_cons,List.length_nil,logicLoop,logicInfoOf,held,Prog.pure_eq,Prog.done_bind,
    List.getElem?_cons_succ,List.getElem?_cons_zero,step]
  rfl

def TouchesBit (set : Bool) (value bit : Nat) (run : Run Sys Fault Int σ) : Prop :=
  ∃ result code, printed run.trace = hexLine result ∧ run.outcome = .ok (flag code) ∧ OneBit set value bit result code

theorem flag_inj : flag left = flag right ↔ left = right := by
  cases left <;> cases right <;> decide

-- The mask is an int, so only its bits below the sign select the bit they name.
theorem bit_commands_iff (b : Build) (fuel : Nat) (info : CmdInfo) (member : info ∈ logicCmds) (op : LogicOp)
    (touches : op.Touches) (held : info.privdata = .logicInfo op) (name value bit : Arg) (inside : operand bit ≤ 63)
    (kernel : Kernel Sys σ) (s : σ) :
    TouchesBit op.sets (operand value) (operand bit) ((runInfo b fuel [name,value,bit] info).exec kernel s) ↔
      BitFits op.sets (operand value) (operand bit) := by
  rw [← oneBit_fits touches (operand_lt value) inside,bit_run b fuel member touches held name value bit]
  have text := (logicResult_seen (bitResult op (operand value) (operand bit))
    (flag ((operand value &&& toUlonglong (intBit (operand bit))) ≠ 0)) kernel s).1
  constructor
  · rintro ⟨result,code,line,returned,one⟩
    rw [text,hexLine_inj] at line
    have same : decide ((operand value &&& toUlonglong (intBit (operand bit))) ≠ 0) = code := by
      rw [← flag_inj]
      exact Except.ok.inj returned
    rw [line,same]
    exact one
  · intro one
    exact ⟨_,_,text,rfl,one⟩

def btsInfo : CmdInfo := makeCmdWithParams "bts" .logicOp (.logicInfo .bts) bitParams
def btrInfo : CmdInfo := makeCmdWithParams "btr" .logicOp (.logicInfo .btr) bitParams

-- Bit 32 becomes bit 0, and bit 31 takes the whole upper half with it.
theorem bit_commands_high :
    let bts := (runInfo .x86_64 0 (["bts","0","32"].map Arg.of) btsInfo).exec smooth ()
    let btr := (runInfo .x86_64 0 (["btr","0x180000000","31"].map Arg.of) btrInfo).exec smooth ()
    printed bts.trace = hexLine 1 ∧ ¬ TouchesBit true 0 32 bts ∧
    printed btr.trace = hexLine 0 ∧ ¬ TouchesBit false 0x180000000 31 btr := by
  intro bts btr
  have set : printed bts.trace = hexLine 1 := by decide +kernel
  have cleared : printed btr.trace = hexLine 0 := by decide +kernel
  refine ⟨set,?_,cleared,?_⟩
  · rintro ⟨result,code,line,_,bits,_⟩
    rw [set,hexLine_inj] at line
    have lowest := bits 0
    rw [← line] at lowest
    cases lowest
  · rintro ⟨result,code,line,_,bits,_⟩
    rw [cleared,hexLine_inj] at line
    have above := bits 32
    rw [← line] at above
    cases above

theorem bit_commands_iff_low :
    let bts := (runInfo .i386 0 (["bts","5","30"].map Arg.of) btsInfo).exec smooth ()
    printed bts.trace = hexLine 0x40000005 ∧ TouchesBit true 5 30 bts := by
  intro bts
  have value : operand (.of "5") = 5 := by decide +kernel
  have bit : operand (.of "30") = 30 := by decide +kernel
  have exact_ := bit_commands_iff .i386 0 btsInfo (by decide) .bts (.inl rfl) rfl (.of "bts") (.of "5") (.of "30")
    (by rw [bit]; decide) smooth ()
  rw [value,bit] at exact_
  exact ⟨by decide +kernel,exact_.mpr (.inl (by decide))⟩

end Iotools
