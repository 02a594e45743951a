import Iotools.Bytes
import Iotools.Numeral

namespace Iotools
open Bytes Numeral

inductive Arch where
  | x86 | powerpc | other
  deriving DecidableEq, Repr

inductive WordSize where
  | w32 | w64
  deriving DecidableEq, Repr

def WordSize.bits : WordSize → Nat
  | .w32 => 32
  | .w64 => 64

inductive Libc where
  | glibc | klibc
  deriving DecidableEq, Repr

-- One way to build the program. `long` and pointers have the same width on
-- every Linux target; the x86 targets are little-endian.
structure Build where
  arch : Arch
  long : WordSize
  order : Endian
  libc : Libc
  x86_little : arch = .x86 → order = .little

def Build.x86_64 : Build := ⟨.x86,.w64,.little,.glibc,fun _ => rfl⟩
def Build.i386 : Build := ⟨.x86,.w32,.little,.glibc,fun _ => rfl⟩
def Build.ppc64 : Build := ⟨.powerpc,.w64,.big,.glibc,fun h => by cases h⟩
def Build.ppc64le : Build := ⟨.powerpc,.w64,.little,.glibc,fun h => by cases h⟩
def Build.other64 : Build := ⟨.other,.w64,.little,.glibc,fun h => by cases h⟩

def longMax (b : Build) : Nat := 2 ^ (b.long.bits - 1) - 1

def strtoulLong (b : Build) (base : Nat) (text : Text) : Nat × Text := strtoul b.long.bits base text
def strtoull (base : Nat) (text : Text) : Nat × Text := strtoul 64 base text
def strtolLong (b : Build) (base : Nat) (text : Text) : Int × Text := strtol b.long.bits base text

-- Conversions to the 32-bit types of the code.
def toInt (value : Int) : Int := (value + 2 ^ 31) % 2 ^ 32 - 2 ^ 31
def toUnsigned (value : Int) : Nat := (value % 2 ^ 32).toNat

def intMax : Nat := 2 ^ 31 - 1

-- A file offset: off_t is 64 bits with _FILE_OFFSET_BITS, otherwise a long.
def toOff (bits : Nat) (value : Nat) : Int :=
  ((value : Int) + 2 ^ (bits - 1)) % 2 ^ bits - 2 ^ (bits - 1)

-- `1 << count` in int, sign-extended by a later widening. The count is masked to
-- five bits as x86 does; C leaves 32 and more undefined, powerpc's slw gives 0.
def intBit (count : Nat) : Int := toInt (2 ^ (count % 32))

theorem toInt_of_small (small : value ≤ intMax) : toInt (value : Nat) = value := by
  simp only [intMax] at small
  unfold toInt
  omega

-- byteswap.h and the macros of platform.h.
def bswap (size value : Nat) : Nat := ofLittle (toLittle size value).reverse

def swapOnBig (b : Build) (size value : Nat) : Nat :=
  match b.order with
  | .little => value
  | .big => bswap size value

def leToHost8 (_ : Build) (x : Nat) : Nat := x
def leToHost16 (b : Build) (x : Nat) : Nat := swapOnBig b 2 x
def leToHost32 (b : Build) (x : Nat) : Nat := swapOnBig b 4 x
def hostToLe8 (_ : Build) (x : Nat) : Nat := x
def hostToLe16 (b : Build) (x : Nat) : Nat := swapOnBig b 2 x
def hostToLe32 (b : Build) (x : Nat) : Nat := swapOnBig b 4 x

theorem ofLittle_swapped (b : Build) (size value : Nat) :
    ofLittle (encode b.order size (swapOnBig b size value)) = value % 256 ^ size := by
  unfold swapOnBig
  cases order : b.order with
  | little => exact ofLittle_toLittle size value
  | big =>
    have back := toLittle_ofLittle (toLittle size value).reverse
    rw [List.length_reverse,toLittle_length] at back
    simp only [encode,bswap,back,List.reverse_reverse]
    exact ofLittle_toLittle size value

theorem encode_swapped (b : Build) (size value : Nat) :
    encode b.order size (swapOnBig b size value) = toLittle size value := by
  have back := toLittle_ofLittle (encode b.order size (swapOnBig b size value))
  rw [encode_length,ofLittle_swapped,toLittle_mod] at back
  exact back.symm

theorem swapped_decode (b : Build) (bytes : List UInt8) :
    swapOnBig b bytes.length (decode b.order bytes) = ofLittle bytes := by
  unfold swapOnBig
  cases order : b.order with
  | little => rfl
  | big =>
    have back := toLittle_ofLittle bytes.reverse
    rw [List.length_reverse] at back
    simp only [decode,bswap,back,List.reverse_reverse]

-- A string of the argument vector: no NUL inside, and shorter than INT_MAX, as
-- execve guarantees for every argument.
structure Arg where
  text : Text
  noNul : '\x00' ∉ text
  short : text.length ≤ intMax
  deriving DecidableEq

-- A string as an argument; one that cannot be an argument becomes the empty one.
def Arg.of (text : String) : Arg :=
  if plain : '\x00' ∉ text.toList ∧ text.toList.length ≤ intMax then ⟨text.toList,plain.1,plain.2⟩
  else ⟨[],by simp,by decide⟩

end Iotools
