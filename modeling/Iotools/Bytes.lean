import Mathlib.Data.List.OfFn
import Mathlib.Tactic.Ring

namespace Bytes

inductive Endian where
  | little | big
  deriving DecidableEq, Repr

def toLittle : Nat → Nat → List UInt8
  | 0,_ => []
  | size+1,value => UInt8.ofNat value :: toLittle size (value / 256)

def ofLittle : List UInt8 → Nat
  | [] => 0
  | b :: rest => b.toNat + 256 * ofLittle rest

-- How a `size`-byte integer lies in memory on a host of the given byte order.
def encode : Endian → Nat → Nat → List UInt8
  | .little,size,value => toLittle size value
  | .big,size,value => (toLittle size value).reverse

def decode : Endian → List UInt8 → Nat
  | .little,bytes => ofLittle bytes
  | .big,bytes => ofLittle bytes.reverse

@[simp] theorem toLittle_length (size value : Nat) : (toLittle size value).length = size := by
  induction size generalizing value with
  | zero => rfl
  | succ size ih => simp [toLittle,ih]

theorem ofLittle_toLittle (size value : Nat) : ofLittle (toLittle size value) = value % 256 ^ size := by
  induction size generalizing value with
  | zero => simp [toLittle,ofLittle,Nat.mod_one]
  | succ size ih =>
    have split : value % 256 ^ (size+1) = value % 256 + 256 * (value / 256 % 256 ^ size) := by
      rw [Nat.pow_succ',Nat.mod_mul]
    simp [toLittle,ofLittle,ih,split]

theorem ofLittle_lt (bytes : List UInt8) : ofLittle bytes < 256 ^ bytes.length := by
  induction bytes with
  | nil => simp [ofLittle]
  | cons b rest ih =>
    have small := b.toNat_lt
    simp only [ofLittle,List.length_cons,Nat.pow_succ]
    omega

theorem toLittle_ofLittle (bytes : List UInt8) : toLittle bytes.length (ofLittle bytes) = bytes := by
  induction bytes with
  | nil => rfl
  | cons b rest ih =>
    have small := b.toNat_lt
    have low : UInt8.ofNat (b.toNat + 256 * ofLittle rest) = b := by
      apply UInt8.toNat_inj.mp
      simp only [UInt8.toNat_ofNat']
      omega
    have high : (b.toNat + 256 * ofLittle rest) / 256 = ofLittle rest := by omega
    simp only [List.length_cons,ofLittle,toLittle,low,high,ih]

@[simp] theorem encode_length (order : Endian) (size value : Nat) : (encode order size value).length = size := by
  cases order <;> simp [encode]

theorem decode_encode (order : Endian) (size value : Nat) :
    decode order (encode order size value) = value % 256 ^ size := by
  cases order <;> simp [encode,decode,ofLittle_toLittle]

theorem encode_decode (order : Endian) (bytes : List UInt8) :
    encode order bytes.length (decode order bytes) = bytes := by
  cases order with
  | little => exact toLittle_ofLittle bytes
  | big =>
    have round := toLittle_ofLittle bytes.reverse
    rw [List.length_reverse] at round
    simp [encode,decode,round]

theorem decode_lt (order : Endian) (bytes : List UInt8) : decode order bytes < 256 ^ bytes.length := by
  cases order with
  | little => exact ofLittle_lt bytes
  | big => simpa [decode] using ofLittle_lt bytes.reverse

theorem toLittle_mod (size value : Nat) : toLittle size (value % 256 ^ size) = toLittle size value := by
  have round := toLittle_ofLittle (toLittle size value)
  rwa [toLittle_length,ofLittle_toLittle] at round

-- The two byte orders agree on a value exactly when its bytes read the same
-- from both ends.
theorem encode_eq_toLittle (order : Endian) (size value : Nat) : encode order size value = toLittle size value ↔
    order = .little ∨ (toLittle size value).reverse = toLittle size value := by
  cases order <;> simp [encode]

theorem decode_eq_ofLittle (order : Endian) (bytes : List UInt8) :
    decode order bytes = ofLittle bytes ↔ order = .little ∨ bytes.reverse = bytes := by
  cases order with
  | little => simp [decode]
  | big =>
    refine ⟨fun same => .inr ?_,fun same => ?_⟩
    · have there := toLittle_ofLittle bytes.reverse
      have back := toLittle_ofLittle bytes
      rw [decode] at same
      rw [List.length_reverse,same,back] at there
      exact there.symm
    · have palindrome : bytes.reverse = bytes := by simpa using same
      rw [decode,palindrome]

theorem decode_eq_big (order : Endian) (bytes : List UInt8) :
    decode order bytes = decode .big bytes ↔ order = .big ∨ bytes.reverse = bytes := by
  cases order with
  | big => simp
  | little =>
    have other := decode_eq_ofLittle .big bytes
    rw [decode,eq_comm,other]
    simp

def overwrite (file : List UInt8) (offset : Nat) (bytes : List UInt8) : List UInt8 :=
  file.take offset ++ bytes ++ file.drop (offset + bytes.length)

theorem overwrite_getElem? (file bytes : List UInt8) (inside : offset + bytes.length ≤ file.length) (i : Nat) :
    (overwrite file offset bytes)[i]? =
      if offset ≤ i ∧ i < offset + bytes.length then bytes[i - offset]? else file[i]? := by
  have before : (file.take offset).length = offset := by
    rw [List.length_take]
    omega
  unfold overwrite
  rw [List.append_assoc,List.getElem?_append,before,List.getElem?_append]
  by_cases early : i < offset
  · have outside : ¬ (offset ≤ i ∧ i < offset + bytes.length) := by omega
    rw [if_pos early,if_neg outside,List.getElem?_take,if_pos early]
  · by_cases middle : i - offset < bytes.length
    · rw [if_neg early,if_pos middle,if_pos (by omega)]
    · have outside : ¬ (offset ≤ i ∧ i < offset + bytes.length) := by omega
      have there : offset + bytes.length + (i - offset - bytes.length) = i := by omega
      rw [if_neg early,if_neg middle,if_neg outside,List.getElem?_drop,there]

theorem take_drop_overwrite (file bytes : List UInt8) (inside : offset + bytes.length ≤ file.length) :
    ((overwrite file offset bytes).drop offset).take bytes.length = bytes := by
  have before : (file.take offset).length = offset := by
    rw [List.length_take]
    omega
  unfold overwrite
  rw [List.append_assoc,List.drop_append_of_le_length (by omega),List.drop_eq_nil_of_le (by omega)]
  simp

theorem overwrite_length (file bytes : List UInt8) (inside : offset + bytes.length ≤ file.length) :
    (overwrite file offset bytes).length = file.length := by
  simp only [overwrite,List.length_append,List.length_take,List.length_drop]
  omega

theorem ofLittle_append (low high : List UInt8) :
    ofLittle (low ++ high) = ofLittle low + 256 ^ low.length * ofLittle high := by
  induction low with
  | nil => simp [ofLittle]
  | cons b rest ih =>
    simp only [List.cons_append,ofLittle,ih,List.length_cons]
    ring

-- A fixed-size object: its size is in the type, so no index leaves it.
abbrev Buffer (size : Nat) := Fin size → UInt8

namespace Buffer

def zero : Buffer size := fun _ => 0

def slice (buffer : Buffer size) (start count : Nat) : List UInt8 :=
  ((List.ofFn buffer).drop start).take count

-- Overwrite from `start` on; bytes that would fall past the end are dropped.
def patch (buffer : Buffer size) (start : Nat) (bytes : List UInt8) : Buffer size := fun i =>
  if start ≤ i.val then bytes.getD (i.val - start) (buffer i) else buffer i

theorem slice_length (buffer : Buffer size) (fits : start + count ≤ size) :
    (buffer.slice start count).length = count := by
  simp only [slice,List.length_take,List.length_drop,List.length_ofFn]
  omega

theorem slice_getElem? (buffer : Buffer size) (start count i : Nat) :
    (buffer.slice start count)[i]? =
      if i < count then (if h : start + i < size then some (buffer ⟨start + i,h⟩) else none) else none := by
  simp only [slice,List.getElem?_take,List.getElem?_drop,List.getElem?_ofFn]

theorem patch_inside (buffer : Buffer size) (bytes : List UInt8) (i : Fin size) (k : Nat)
    (position : i.val = start + k) (inside : k < bytes.length) :
    buffer.patch start bytes i = bytes[k] := by
  have le : start ≤ i.val := by omega
  have eq : i.val - start = k := by omega
  simp [patch,le,eq,List.getD_eq_getElem?_getD,List.getElem?_eq_getElem inside]

theorem patch_outside (buffer : Buffer size) (bytes : List UInt8) (i : Fin size)
    (outside : i.val < start ∨ start + bytes.length ≤ i.val) : buffer.patch start bytes i = buffer i := by
  unfold patch
  split
  · rename_i le
    have past : bytes.length ≤ i.val - start := by omega
    simp [List.getD_eq_getElem?_getD,List.getElem?_eq_none past]
  · rfl

theorem patch_cons (buffer : Buffer size) (start : Nat) (byte : UInt8) (rest : List UInt8) :
    (buffer.patch start [byte]).patch (start + 1) rest = buffer.patch start (byte :: rest) := by
  funext i
  by_cases before : i.val < start
  · rw [patch_outside _ _ _ (by omega),patch_outside _ _ _ (by omega),patch_outside _ _ _ (by omega)]
  · by_cases first : i.val = start
    · rw [patch_outside _ _ _ (by omega),patch_inside _ _ _ 0 (by omega) (by simp),
        patch_inside _ _ _ 0 (by omega) (by simp)]
      rfl
    · by_cases inside : i.val - start - 1 < rest.length
      · rw [patch_inside _ _ _ (i.val - start - 1) (by omega) inside,
          patch_inside _ (byte :: rest) _ (i.val - start - 1 + 1) (by omega) (by simpa using inside)]
        simp
      · rw [patch_outside _ _ _ (by omega),patch_outside _ [byte] _ (by simp only [List.length_singleton]; omega),
          patch_outside _ _ _ (by simp only [List.length_cons]; omega)]

theorem ofFn_patch (buffer : Buffer size) (bytes : List UInt8) (fits : bytes.length ≤ size) :
    List.ofFn (buffer.patch 0 bytes) = bytes ++ (List.ofFn buffer).drop bytes.length := by
  apply List.ext_getElem
  · simp only [List.length_append,List.length_drop,List.length_ofFn]
    omega
  · intro i inside _
    rw [List.getElem_ofFn]
    by_cases front : i < bytes.length
    · rw [List.getElem_append_left front,patch_inside buffer bytes _ i (by simp) front]
    · rw [List.getElem_append_right (by omega),patch_outside buffer bytes _ (.inr (by simp only; omega)),
        List.getElem_drop,List.getElem_ofFn]
      congr 1
      apply Fin.ext
      simp only
      omega

theorem slice_patch (buffer : Buffer size) (bytes : List UInt8) (fits : start + bytes.length ≤ size) :
    (buffer.patch start bytes).slice start bytes.length = bytes := by
  apply List.ext_getElem?
  intro i
  rw [slice_getElem?]
  by_cases inside : i < bytes.length
  · have bound : start + i < size := by omega
    rw [if_pos inside,dif_pos bound,patch_inside buffer bytes _ i rfl inside,List.getElem?_eq_getElem inside]
  · rw [if_neg inside,List.getElem?_eq_none (by omega)]

theorem slice_patch_disjoint (buffer : Buffer size) (bytes : List UInt8)
    (apart : start + count ≤ target ∨ target + bytes.length ≤ start) :
    (buffer.patch target bytes).slice start count = buffer.slice start count := by
  apply List.ext_getElem?
  intro i
  rw [slice_getElem?,slice_getElem?]
  split
  · split
    · rw [patch_outside _ _ _ (by simp only; omega)]
    · rfl
  · rfl

end Buffer

abbrev Memory := Nat → UInt8

namespace Memory

def load (memory : Memory) (address count : Nat) : List UInt8 :=
  (List.range count).map (fun i => memory (address + i))

def store (memory : Memory) (address : Nat) (bytes : List UInt8) : Memory := fun x =>
  if address ≤ x then bytes.getD (x - address) (memory x) else memory x

@[simp] theorem load_length (memory : Memory) (address count : Nat) :
    (memory.load address count).length = count := by simp [load]

theorem store_inside (memory : Memory) (address : Nat) (bytes : List UInt8) (inside : k < bytes.length) :
    memory.store address bytes (address + k) = bytes[k] := by
  simp [store,List.getD_eq_getElem?_getD,List.getElem?_eq_getElem inside]

theorem store_outside (memory : Memory) (bytes : List UInt8)
    (outside : x < address ∨ address + bytes.length ≤ x) : memory.store address bytes x = memory x := by
  unfold store
  split
  · rename_i le
    have past : bytes.length ≤ x - address := by omega
    simp [List.getD_eq_getElem?_getD,List.getElem?_eq_none past]
  · rfl

theorem load_store (memory : Memory) (address : Nat) (bytes : List UInt8) :
    (memory.store address bytes).load address bytes.length = bytes := by
  apply List.ext_getElem
  · simp
  · intro i _ inside
    simp [load,store_inside memory address bytes inside]

end Memory

end Bytes
