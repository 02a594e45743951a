import Iotools.Smbus

namespace Iotools
open Bytes Numeral Interaction

def SmbusSize.isBlock (size : SmbusSize) : Bool :=
  size = .block || size = .blockProcCall || size = .writeRead

theorem parseIoWidth_block (block : size.isBlock = true) :
    parseIoWidth b arg params size = parseBlock b arg {params with data := Buffer.zero} := by
  revert block
  unfold SmbusSize.isBlock parseIoWidth
  cases size <;> simp

-- The operand does not depend on what the struct held before: only `data` is
-- set, and `len` by the block sizes.
theorem parseIoWidth_frame (b : Build) (arg : Text) (params : SmbusOpParams) (size : SmbusSize) :
    parseIoWidth b arg params size = (parseIoWidth b arg .zero size).map (fun p =>
      {params with data := p.data,len := if size.isBlock then p.len else params.len}) := by
  have block : parseBlock b arg {params with data := Buffer.zero} =
      (parseBlock b arg {SmbusOpParams.zero with data := Buffer.zero}).map (fun p =>
        {params with data := p.data,len := p.len}) := by
    simp only [parseBlock]
    split
    · rfl
    · split
      · rfl
      · cases parsePairs b _ 0 Buffer.zero <;> rfl
  cases size with
  | block => exact block
  | blockProcCall => exact block
  | writeRead => exact block
  | quick =>
    simp only [parseIoWidth,SmbusSize.isBlock]
    cases isMaxOrTrailingJunk b arg (strtoulLong b 0 arg).2 (strtoulLong b 0 arg).1 with
    | error stop => rfl
    | ok _ =>
      simp only [bind,Except.bind]
      split <;> rfl
  | byte | size8 | size16 | procCall =>
    simp only [parseIoWidth,SmbusSize.isBlock]
    cases isMaxOrTrailingJunk b arg (strtoulLong b 0 arg).2 (strtoulLong b 0 arg).1 <;> rfl
  | size32 =>
    simp only [parseIoWidth,SmbusSize.isBlock]
    cases isTrailingJunk arg (strtoulLong b 0 arg).2 <;> rfl
  | size64 =>
    simp only [parseIoWidth,SmbusSize.isBlock]
    cases isTrailingJunk arg (strtoull 0 arg).2 <;> rfl

theorem parseIoWidth_scratch (accepted : parseIoWidth b arg params size = .ok stored) :
    ∃ value, parseIoWidth b arg .zero size = .ok value ∧
      stored = {params with data := value.data,len := if size.isBlock then value.len else params.len} := by
  rw [parseIoWidth_frame] at accepted
  cases scratch : parseIoWidth b arg .zero size with
  | error stop =>
    rw [scratch] at accepted
    cases accepted
  | ok value =>
    rw [scratch] at accepted
    cases accepted
    exact ⟨value,rfl,rfl⟩

theorem parseIoWidth_keeps (accepted : parseIoWidth b arg params size = .ok stored) :
    stored = {params with data := stored.data,len := stored.len} := by
  obtain ⟨value,_,rfl⟩ := parseIoWidth_scratch accepted
  rfl

def SmbusSize.fixedBytes : SmbusSize → Option Nat
  | .quick | .byte | .size8 => some 1
  | .size16 | .procCall => some 2
  | .size32 => some 4
  | .size64 => some 8
  | .block | .blockProcCall | .writeRead => none

def operandValue (b : Build) (size : SmbusSize) (text : Text) : Nat :=
  if size = .size64 then (strtoull 0 text).1 else (strtoulLong b 0 text).1

theorem parseIoWidth_fixed (fixed : size.fixedBytes = some count) (accepted : parseIoWidth b arg params size = .ok stored) :
    stored.data = SmbusDtype.setFixed b Buffer.zero count (operandValue b size arg) := by
  cases size with
  | quick =>
    cases fixed
    obtain ⟨_,_,rest⟩ := parse_bind_ok.mp accepted
    split at rest
    · cases rest
    · cases rest
      rfl
  | byte | size8 | size16 | procCall | size32 | size64 =>
    cases fixed
    obtain ⟨_,_,stores⟩ := parse_bind_ok.mp accepted
    cases stores
    rfl
  | block | blockProcCall | writeRead => cases fixed

theorem parsePairs_length (accepted : parsePairs b src dest array = .ok result) :
    src.length % 2 = 0 ∧ dest + src.length / 2 ≤ max dest 34 := by
  fun_induction parsePairs b src dest array with
  | case1 dest array => simp
  | case2 c dest array =>
    obtain ⟨_,_,fault⟩ := parse_bind_ok.mp accepted
    cases fault
  | case3 first second src dest array ih =>
    obtain ⟨byte,_,rest⟩ := parse_bind_ok.mp accepted
    split at rest
    · have tail := ih byte rest
      simp only [List.length_cons]
      omega
    · cases rest

theorem stripPrefix_length (arg : Text) (len : Int) :
    ((stripPrefix arg len).1.length : Int) - arg.length = (stripPrefix arg len).2 - len := by
  unfold stripPrefix
  split
  · split
    · simp only [List.length_cons]; omega
    · simp
  · simp

def pairs (arg : Text) : Text := (stripPrefix arg arg.length).1

theorem parseBlock_length (short : arg.length ≤ intMax) (accepted : parseBlock b arg params = .ok result) :
    result.len = ((pairs arg).length / 2 : Nat) ∧ (pairs arg).length / 2 ≤ blockMax ∧ (pairs arg).length % 2 = 0 := by
  have whole := toInt_of_small short
  simp only [parseBlock,whole] at accepted
  split at accepted
  · cases accepted
  · split at accepted
    · cases accepted
    · rename_i small
      obtain ⟨array,loop,stored⟩ := parse_bind_ok.mp accepted
      cases stored
      have lengths := stripPrefix_length arg arg.length
      have even := parsePairs_length loop
      have same : (stripPrefix arg arg.length).2 = (pairs arg).length := by
        unfold pairs; omega
      simp only [same] at small ⊢
      refine ⟨by omega,by omega,even.1⟩

end Iotools
