import Mathlib.Data.List.Basic
import Iotools.SmbusTransfer

namespace Iotools
open Bytes Numeral Interaction

theorem word_bits (b : Build) : 32 ≤ b.long.bits := by
  cases b.long <;> decide

theorem isMaxOrTrailingJunk_small (b : Build) (arg : Text) (small : value < 2 ^ 16) :
    isMaxOrTrailingJunk b arg [] value = .ok () := by
  have narrow : value % 2 ^ b.long.bits ≠ longMax b := by
    unfold longMax
    cases b.long <;> simp only [WordSize.bits] <;> omega
  simp [isMaxOrTrailingJunk,narrow,isTrailingJunk]

def SmbusSize.bytes : SmbusSize → Option Nat
  | .byte | .size8 => some 1
  | .size16 => some 2
  | .size32 => some 4
  | .size64 => some 8
  | _ => none

end Iotools
