import Iotools.BitCommands

namespace Iotools
open Bytes Numeral Interaction

def CpuSet.word (b : Build) (set : CpuSet) (index : Nat) : Nat :=
  decode b.order (set.slice (index * wordBytes b) (wordBytes b))

def CpuSet.has (b : Build) (set : CpuSet) (cpu : Nat) : Bool :=
  (set.word b (cpu / b.long.bits)).testBit (cpu % b.long.bits)

theorem wordBytes_bits (b : Build) : wordBytes b * 8 = b.long.bits ∧ 256 ^ wordBytes b = 2 ^ b.long.bits := by
  unfold wordBytes
  cases b.long <;> decide

def WordInside (b : Build) (index : Nat) : Prop := index * wordBytes b + wordBytes b ≤ 128

theorem wordInside (b : Build) (small : cpu < 1024) : WordInside b (cpu / b.long.bits) := by
  unfold WordInside wordBytes
  cases b.long <;> simp only [WordSize.bits] <;> omega

theorem word_lt (b : Build) (set : CpuSet) (inside : WordInside b index) : set.word b index < 2 ^ b.long.bits := by
  have bound := decode_lt b.order (set.slice (index * wordBytes b) (wordBytes b))
  rwa [Buffer.slice_length _ inside,(wordBytes_bits b).2] at bound

theorem words_apart (b : Build) (other : index ≠ index') :
    index * wordBytes b + wordBytes b ≤ index' * wordBytes b ∨ index' * wordBytes b + wordBytes b ≤ index * wordBytes b := by
  unfold wordBytes
  cases b.long <;> simp only [WordSize.bits] <;> omega

theorem orWord_word (b : Build) (set : CpuSet) (inside : WordInside b index) (small : bit < 2 ^ b.long.bits) (other : Nat) :
    (set.orWord b index bit).word b other = if other = index then set.word b index ||| bit else set.word b other := by
  have length : (encode b.order (wordBytes b) (set.word b index ||| bit)).length = wordBytes b := encode_length ..
  unfold CpuSet.orWord
  split
  · rename_i same
    subst same
    have back : ((set.patch (other * wordBytes b) (encode b.order (wordBytes b) (set.word b other ||| bit))).slice
        (other * wordBytes b) (encode b.order (wordBytes b) (set.word b other ||| bit)).length) =
        encode b.order (wordBytes b) (set.word b other ||| bit) :=
      Buffer.slice_patch set _ (by rw [length]; exact inside)
    rw [length] at back
    refine (congrArg (decode b.order) back).trans ?_
    rw [decode_encode,(wordBytes_bits b).2,Nat.mod_eq_of_lt (Nat.or_lt_two_pow (word_lt b set inside) small)]
  · rename_i different
    show decode b.order _ = decode b.order _
    rw [Buffer.slice_patch_disjoint _ _ (by rw [encode_length]; exact words_apart b different)]

theorem decode_zeros (order : Endian) (count : Nat) : decode order (List.replicate count 0) = 0 := by
  have zeros : ofLittle (List.replicate count 0) = 0 := by
    induction count with
    | zero => rfl
    | succ count ih => simp [List.replicate_succ,ofLittle,ih]
  cases order with
  | little => exact zeros
  | big => rw [decode,List.reverse_replicate,zeros]

theorem zero_word (b : Build) (inside : WordInside b index) : CpuSet.word b Buffer.zero index = 0 := by
  have zeros : (Buffer.zero : CpuSet).slice (index * wordBytes b) (wordBytes b) = List.replicate (wordBytes b) 0 := by
    unfold WordInside at inside
    have all : List.ofFn (Buffer.zero : CpuSet) = List.replicate 128 0 := List.ofFn_const ..
    rw [Buffer.slice,all,List.drop_replicate,List.take_replicate,Nat.min_eq_left (by omega)]
  rw [CpuSet.word,zeros,decode_zeros]

-- What CPU_ZERO leaves: nothing, or all words but the first.
theorem cpuZero_word (b : Build) (stale : CpuSet) (inside : WordInside b index) :
    (cpuZero b stale).word b index = if b.libc = .klibc ∧ index ≠ 0 then stale.word b index else 0 := by
  cases libc : b.libc with
  | glibc => simp [cpuZero,libc,zero_word b inside]
  | klibc =>
    have length : (List.replicate (wordBytes b) (0 : UInt8)).length = wordBytes b := List.length_replicate ..
    by_cases first : index = 0
    · subst first
      have back : (stale.patch 0 (List.replicate (wordBytes b) 0)).slice 0 (List.replicate (wordBytes b) (0 : UInt8)).length =
          List.replicate (wordBytes b) 0 := Buffer.slice_patch stale _ (by
        unfold WordInside at inside
        rw [length]
        omega)
      rw [length] at back
      simp [cpuZero,libc,CpuSet.word,back,decode_zeros]
    · have apart := words_apart b (show index ≠ 0 from first)
      have positive := (wordBytes_bits b).1
      have kept : (stale.patch 0 (List.replicate (wordBytes b) 0)).slice (index * wordBytes b) (wordBytes b) =
          stale.slice (index * wordBytes b) (wordBytes b) := Buffer.slice_patch_disjoint _ _ (by
        rw [length]
        omega)
      simp [cpuZero,libc,CpuSet.word,kept,first]

def cpuBit (b : Build) (place : Nat) : Nat :=
  match b.libc with
  | .glibc => 2 ^ place
  | .klibc => (intBit place % 2 ^ b.long.bits).toNat

theorem cpuBit_lt (b : Build) (small : place < b.long.bits) : cpuBit b place < 2 ^ b.long.bits := by
  unfold cpuBit
  split
  · exact Nat.pow_lt_pow_right (by decide) small
  · cases b.long <;> simp only [WordSize.bits] <;> omega

def CpuSet.carried (b : Build) (stale : CpuSet) (cpu : Nat) : Bool :=
  decide (b.libc = .klibc ∧ b.long.bits ≤ cpu) && stale.has b cpu

theorem bits_pos (b : Build) : 0 < b.long.bits := by cases b.long <;> decide

theorem cpuSet_inside (b : Build) (stale : CpuSet) (cpu : Nat) (inside : cpu < 1024) :
    ∃ mask, cpuSet b cpu (cpuZero b stale) = .done mask ∧ ∀ i < 1024, mask.has b i =
      (stale.carried b i || decide (i / b.long.bits = cpu / b.long.bits) &&
        (cpuBit b (cpu % b.long.bits)).testBit (i % b.long.bits)) := by
  have wide : ((cpu : Int) % 2 ^ b.long.bits).toNat = cpu := by cases b.long <;> simp only [WordSize.bits] <;> omega
  have index : cpu / b.long.bits < 1024 / b.long.bits := by cases b.long <;> simp only [WordSize.bits] <;> omega
  have whole := wordInside b inside
  have small := cpuBit_lt b (Nat.mod_lt cpu (bits_pos b))
  refine ⟨(cpuZero b stale).orWord b (cpu / b.long.bits) (cpuBit b (cpu % b.long.bits)),?_,?_⟩
  · unfold cpuSet cpuBit
    dsimp only
    rw [wide]
    cases b.libc with
    | glibc => simp [inside]
    | klibc => simp [index]
  · intro i below
    have zero : i / b.long.bits ≠ 0 ↔ b.long.bits ≤ i := by
      rw [ne_eq,Nat.div_eq_zero_iff_lt (bits_pos b),Nat.not_lt]
    have kept : ((cpuZero b stale).word b (i / b.long.bits)).testBit (i % b.long.bits) = stale.carried b i := by
      rw [cpuZero_word b stale (wordInside b below),CpuSet.carried,CpuSet.has]
      simp only [zero]
      split
      · rename_i both
        simp [both]
      · rename_i cleared
        simp [cleared]
    unfold CpuSet.has
    rw [orWord_word b _ whole small]
    split
    · rename_i same
      rw [← same,Nat.testBit_or,kept]
      simp
    · rename_i different
      rw [kept]
      simp [different]

theorem cpuBit_testBit (b : Build) (place i : Nat) (small : place < b.long.bits) (below : i < b.long.bits) :
    (cpuBit b place).testBit i =
      if b.libc = .klibc ∧ b.long = .w64 ∧ place % 32 = 31 then decide (31 ≤ i)
      else if b.libc = .klibc then decide (i = place % 32) else decide (i = place) := by
  unfold cpuBit
  cases libc : b.libc with
  | glibc => simp [Nat.testBit_two_pow,eq_comm]
  | klibc =>
    cases long : b.long with
    | w32 =>
      rw [long] at small
      simp only [WordSize.bits] at small ⊢
      have plain : (intBit place % 2 ^ 32).toNat = 2 ^ place := by
        have fits : 2 ^ place ≤ 2 ^ 31 := Nat.pow_le_pow_right (by decide) (by omega)
        unfold intBit toInt
        rw [Nat.mod_eq_of_lt small]
        have same : (2 : Int) ^ place = ((2 ^ place : Nat) : Int) := by push_cast; rfl
        rw [same]
        generalize 2 ^ place = bit at fits
        omega
      rw [plain]
      simp [Nat.testBit_two_pow,Nat.mod_eq_of_lt small,eq_comm]
    | w64 =>
      rw [long] at below
      simp only [WordSize.bits] at below ⊢
      have mask := mask_testBit place i
      unfold toUlonglong at mask
      rw [mask]
      simp [below]

-- The shift of klibc's CPU_SET names the cpu, and no other.
def ShiftNames (b : Build) (cpu : Nat) : Prop := b.libc = .klibc → b.long = .w64 → cpu % 64 ≤ 30

theorem bits_cases (b : Build) : (b.long = .w32 ∧ b.long.bits = 32) ∨ (b.long = .w64 ∧ b.long.bits = 64) := by
  cases b.long <;> simp [WordSize.bits]

theorem shiftNames_of_alone (b : Build) (cpu : Nat) (inside : cpu < 1024)
    (alone : ∀ i < 1024, i / b.long.bits = cpu / b.long.bits →
      (cpuBit b (cpu % b.long.bits)).testBit (i % b.long.bits) = true → i = cpu) : ShiftNames b cpu := by
  have bit (i : Nat) := cpuBit_testBit b (cpu % b.long.bits) (i % b.long.bits) (Nat.mod_lt _ (bits_pos b))
    (Nat.mod_lt _ (bits_pos b))
  intro klibc w64
  rcases bits_cases b with ⟨w32,_⟩ | ⟨_,width⟩
  · rw [w64] at w32
    cases w32
  · rw [width] at alone bit
    by_contra high
    -- bit 31 takes the bits above it along, and the others fall 32 places short
    have next : ∃ i < 1024, i / 64 = cpu / 64 ∧ i ≠ cpu ∧ (cpuBit b (cpu % 64)).testBit (i % 64) = true := by
      rcases (show cpu % 64 = 31 ∨ cpu % 64 = 63 ∨ cpu % 64 % 32 ≠ 31 by omega) with low | top | plain
      · refine ⟨cpu + 1,by omega,by omega,by omega,?_⟩
        rw [bit,if_pos ⟨klibc,w64,by omega⟩,decide_eq_true_eq]
        omega
      · refine ⟨cpu - 1,by omega,by omega,by omega,?_⟩
        rw [bit,if_pos ⟨klibc,w64,by omega⟩,decide_eq_true_eq]
        omega
      · refine ⟨cpu - 32,by omega,by omega,by omega,?_⟩
        rw [bit,if_neg (fun all => plain all.2.2),if_pos klibc,decide_eq_true_eq]
        omega
    obtain ⟨i,below,word,other,set⟩ := next
    exact other (alone i below word set)

theorem shiftNames_bit (b : Build) (cpu : Nat) (names : ShiftNames b cpu) (word : i / b.long.bits = cpu / b.long.bits) :
    (cpuBit b (cpu % b.long.bits)).testBit (i % b.long.bits) = decide (i = cpu) := by
  have bit := cpuBit_testBit b (cpu % b.long.bits) (i % b.long.bits) (Nat.mod_lt _ (bits_pos b))
    (Nat.mod_lt _ (bits_pos b))
  have place : i % b.long.bits = cpu % b.long.bits ↔ i = cpu := by
    refine ⟨fun same => ?_,fun same => by rw [same]⟩
    have whole := Nat.div_add_mod i b.long.bits
    rw [word,same,Nat.div_add_mod] at whole
    exact whole.symm
  rw [bit]
  by_cases klibc : b.libc = .klibc
  · have short : cpu % b.long.bits % 32 = cpu % b.long.bits ∧ ¬ (b.long = .w64 ∧ cpu % b.long.bits % 32 = 31) := by
      rcases bits_cases b with ⟨w32,width⟩ | ⟨w64,width⟩
      · rw [width,w32]
        exact ⟨Nat.mod_mod .., by simp⟩
      · have low := names klibc w64
        rw [width]
        omega
    rw [if_neg (fun all => short.2 all.2),if_pos klibc,short.1]
    exact decide_eq_decide.mpr place
  · rw [if_neg (fun all => klibc all.1),if_neg klibc]
    exact decide_eq_decide.mpr place

-- A mask with one member, and one without any.
def CpuSet.Only (b : Build) (mask : CpuSet) (number : Int) : Prop :=
  ∃ cpu : Nat, number = cpu ∧ cpu < 1024 ∧ ∀ i < 1024, mask.has b i = decide (i = cpu)

def CpuSet.Empty (b : Build) (mask : CpuSet) : Prop := ∀ i < 1024, mask.has b i = false

theorem only_iff (b : Build) (stale mask : CpuSet) (inside : cpu < 1024)
    (bits : ∀ i < 1024, mask.has b i = (stale.carried b i || decide (i / b.long.bits = cpu / b.long.bits) &&
      (cpuBit b (cpu % b.long.bits)).testBit (i % b.long.bits))) :
    mask.Only b cpu ↔ ShiftNames b cpu ∧ ∀ i < 1024, stale.carried b i = true → i = cpu := by
  constructor
  · rintro ⟨cpu',same,_,alone⟩
    have same' : cpu' = cpu := by omega
    subst same'
    refine ⟨shiftNames_of_alone b cpu' inside ?_,?_⟩
    · intro i below word set
      have member := bits i below
      rw [alone i below,set] at member
      simpa [word] using member
    · intro i below left
      have member := bits i below
      rw [alone i below,left,Bool.true_or] at member
      exact of_decide_eq_true member
  · rintro ⟨names,clear⟩
    refine ⟨cpu,rfl,inside,?_⟩
    intro i below
    rw [bits i below]
    by_cases word : i / b.long.bits = cpu / b.long.bits
    · rw [shiftNames_bit b cpu names word]
      cases left : stale.carried b i with
      | false => simp [word]
      | true => simp [clear i below left]
    · have other : i ≠ cpu := fun same => word (by rw [same])
      cases left : stale.carried b i with
      | false => simp [word,other]
      | true => exact absurd (clear i below left) other

-- The cpu a command asks for: cpuid reads a long, runon an unsigned long, and
-- both hand it on as an int.
def cpuOperand (b : Build) (info : CmdInfo) (text : Text) : Int :=
  if info.entry = .cpuid then toInt (strtolLong b 0 text).1 else toInt (strtoulLong b 0 text).1

theorem cpuOperand_range (b : Build) (info : CmdInfo) (text : Text) :
    -(2 ^ 31) ≤ cpuOperand b info text ∧ cpuOperand b info text < 2 ^ 31 := by
  unfold cpuOperand toInt
  split <;> omega

theorem cpuOperand_inside (b : Build) (info : CmdInfo) (whole : wholeValue 0 text = some number) (low : 0 ≤ number)
    (high : number < 1024) : cpuOperand b info text = number := by
  unfold cpuOperand strtolLong strtoulLong
  rw [strtol_whole whole,strtoul_whole whole]
  unfold wrapped toInt
  rcases bits_cases b with ⟨_,width⟩ | ⟨_,width⟩ <;> rw [width] <;> split <;> (try split) <;> omega

theorem cpuSet_outside (b : Build) (stale : CpuSet) (cpu : Int) (range : -(2 ^ 31) ≤ cpu ∧ cpu < 2 ^ 31)
    (outside : ¬ (0 ≤ cpu ∧ cpu < 1024)) : cpuSet b cpu (cpuZero b stale) =
      match b.libc with
      | .glibc => .done Buffer.zero
      | .klibc => .fault .arrayIndex := by
  have far : 1024 ≤ (cpu % 2 ^ b.long.bits).toNat := by
    rcases bits_cases b with ⟨_,width⟩ | ⟨_,width⟩ <;> rw [width] <;> omega
  have index : ¬ (cpu % 2 ^ b.long.bits).toNat / b.long.bits < 1024 / b.long.bits := by
    rw [Nat.not_lt]
    exact Nat.div_le_div_right far
  unfold cpuSet
  dsimp only
  cases libc : b.libc with
  | glibc => simp [Nat.not_lt.mpr far,cpuZero,libc]
  | klibc => simp [index]

def target : Event Sys → Prop
  | ⟨.cpuid ..,_⟩ => True
  | ⟨.execvp _,_⟩ => True
  | _ => False

-- What set_cpu_affinity does: it builds one mask from the stack content and the
-- cpu, and hands it to the kernel.
def Pins (b : Build) (cpu : Int) (trace : Trace Sys) (outcome : Except Fault Int) : Prop :=
  (∀ e ∈ trace, ¬ target e) ∧ ∃ stale : CpuSet, (∀ other, ⟨.stale 128,other⟩ ∈ trace ↔ other = stale) ∧
    ((cpuSet b cpu (cpuZero b stale) = .fault .arrayIndex ∧ outcome = .error .arrayIndex ∧
        ∀ mask ret, ⟨.setaffinity mask,ret⟩ ∉ trace) ∨
      ∃ (mask : CpuSet) (ret : Int), cpuSet b cpu (cpuZero b stale) = .done mask ∧
        (∀ mask' ret', ⟨.setaffinity mask',ret'⟩ ∈ trace ↔ mask' = mask ∧ ret' = ret) ∧
        outcome = .ok (if ret < 0 then -1 else 0))

theorem cpuSet_cases (b : Build) (cpu : Int) (set : CpuSet) :
    cpuSet b cpu set = .fault .arrayIndex ∨ ∃ mask, cpuSet b cpu set = .done mask := by
  unfold cpuSet
  dsimp only
  split
  · split
    · exact .inr ⟨_,rfl⟩
    · exact .inr ⟨_,rfl⟩
  · split
    · exact .inr ⟨_,rfl⟩
    · exact .inl rfl

theorem setCpuAffinity_pins (b : Build) (cpu : Int) : (setCpuAffinity b cpu).All (Pins b cpu) := by
  simp only [setCpuAffinity,complain,Prog.call_bind,Prog.done_bind]
  generalize Message.perror "sched_setaffinity()".toList = message
  intro (stale : CpuSet)
  dsimp only
  rcases cpuSet_cases b cpu (cpuZero b stale) with faults | ⟨mask,built⟩
  · rw [faults]
    exact ⟨by simp [target],stale,by simp,.inl ⟨faults,rfl,by simp⟩⟩
  · rw [built]
    intro (ret : Int)
    dsimp only
    split
    · rename_i refused
      intro err _
      refine ⟨by simp [target],stale,by simp,.inr ⟨mask,ret,built,by simp,by rw [if_pos refused]⟩⟩
    · rename_i accepted
      exact ⟨by simp [target],stale,by simp,.inr ⟨mask,ret,built,by simp,by rw [if_neg accepted]⟩⟩

def pinning : Event Sys → Prop
  | ⟨.stale _,_⟩ => True
  | ⟨.setaffinity _,_⟩ => True
  | _ => False

-- A command that pins itself: it fails when the kernel refuses the mask, and
-- works otherwise.
def PinsCommand (b : Build) (cpu : Int) (trace : Trace Sys) (outcome : Except Fault Int) : Prop :=
  ∃ stale : CpuSet, (∀ other, ⟨.stale 128,other⟩ ∈ trace ↔ other = stale) ∧
    ((cpuSet b cpu (cpuZero b stale) = .fault .arrayIndex ∧ outcome = .error .arrayIndex ∧
        ∀ mask ret, ⟨.setaffinity mask,ret⟩ ∉ trace) ∨
      ∃ (mask : CpuSet) (ret : Int), cpuSet b cpu (cpuZero b stale) = .done mask ∧
        (∀ mask' ret', ⟨.setaffinity mask',ret'⟩ ∈ trace ↔ mask' = mask ∧ ret' = ret) ∧
        (ret < 0 → (∀ e ∈ trace, ¬ target e) ∧ ∃ code, outcome = .ok code ∧ code < 0) ∧
        (0 ≤ ret → ∃ e ∈ trace, target e))

theorem pins_then (b : Build) (cpu : Int) {next : Int → Action Int}
    (failed : (next (-1)).All (fun trace outcome => (∀ e ∈ trace, ¬ target e ∧ ¬ pinning e) ∧
      ∃ code, outcome = .ok code ∧ code < 0))
    (works : (next 0).All (fun trace _ => (∀ e ∈ trace, ¬ pinning e) ∧ ∃ e ∈ trace, target e)) :
    (setCpuAffinity b cpu >>= next).All (PinsCommand b cpu) := by
  apply Prog.All.bind (setCpuAffinity_pins b cpu)
  · rintro trace reason ⟨_,stale,once,⟨faults,stops,none_⟩ | ⟨_,_,_,_,returned⟩⟩
    · exact ⟨stale,once,.inl ⟨faults,stops,none_⟩⟩
    · cases returned
  · rintro before value ⟨idle,stale,once,⟨_,stops,_⟩ | ⟨mask,ret,built,handed,returned⟩⟩
    · cases stops
    · cases returned
      -- the rest of the run adds no stack content and no mask
      have same (later : Trace Sys) (quiet : ∀ e ∈ later, ¬ pinning e) (e : Event Sys) (pins : pinning e) :
          e ∈ before ++ later ↔ e ∈ before := by
        rw [List.mem_append,or_iff_left (fun late => quiet e late pins)]
      by_cases refused : ret < 0
      · rw [if_pos refused]
        apply failed.mono
        rintro later outcome ⟨quiet,ends⟩
        have quiet' : ∀ e ∈ later, ¬ pinning e := fun e member => (quiet e member).2
        refine ⟨stale,fun other => (same later quiet' ⟨.stale 128,other⟩ trivial).trans (once other),.inr ⟨mask,ret,built,
          fun mask' ret' => (same later quiet' ⟨.setaffinity mask',ret'⟩ trivial).trans (handed mask' ret'),
          fun _ => ⟨?_,ends⟩,fun _ => by omega⟩⟩
        intro e member
        rcases List.mem_append.mp member with early | late
        · exact idle e early
        · exact (quiet e late).1
      · rw [if_neg refused]
        apply works.mono
        rintro later outcome ⟨quiet,e,late,runs⟩
        exact ⟨stale,fun other => (same later quiet ⟨.stale 128,other⟩ trivial).trans (once other),.inr ⟨mask,ret,built,
          fun mask' ret' => (same later quiet ⟨.setaffinity mask',ret'⟩ trivial).trans (handed mask' ret'),
          fun below => absurd below refused,fun _ => ⟨e,List.mem_append_right _ late,runs⟩⟩⟩

theorem runon_pins (b : Build) (name cpu cmd : Arg) (rest : List Arg) (info : CmdInfo) :
    (runon b (name :: cpu :: cmd :: rest) info).All (PinsCommand b (toInt (strtoulLong b 0 cpu.text).1)) := by
  show (setCpuAffinity b (toInt (strtoulLong b 0 cpu.text).1) >>= _).All _
  apply pins_then
  · exact ⟨by simp,-1,rfl,by decide⟩
  · simp only [complain]
    generalize Message.perror "exec".toList = message
    intro _ err _
    refine ⟨by simp [pinning],_,.head _,trivial⟩

theorem cpuidInline_pins (b : Build) (cpu : Int) (function index : Nat) :
    (cpuidInline b cpu function index >>= fun data =>
      match data with
      | none => do
        ask (.stderr .cpuid)
        return -1
      | some (eax,ebx,ecx,edx) => do
        ask (.stdout (word eax ++ " ".toList ++ word ebx ++ " ".toList ++ word ecx ++ " ".toList ++ word edx ++
          "\n".toList))
        return 0 : Action Int).All (PinsCommand b cpu) := by
  unfold cpuidInline
  rw [Prog.bind_assoc]
  apply pins_then
  · intro _
    exact ⟨by simp [target,pinning],-1,rfl,by decide⟩
  · intro data _
    exact ⟨by simp [pinning],_,.head _,trivial⟩

theorem cpuid_pins (b : Build) (name cpu function : Arg) (rest : List Arg) (info : CmdInfo) (few : rest.length ≤ 1) :
    (cpuid b (name :: cpu :: function :: rest) info).All (PinsCommand b (toInt (strtolLong b 0 cpu.text).1)) := by
  match rest with
  | [] => exact cpuidInline_pins b _ _ _
  | [index] => exact cpuidInline_pins b _ _ _

-- Exactly the number is pinned, or the command fails before its work.
def Pinned (b : Build) (number : Int) (trace : Trace Sys) (outcome : Except Fault Int) : Prop :=
  (∃ (mask : CpuSet) (ret : Int), ⟨.setaffinity mask,ret⟩ ∈ trace ∧ mask.Only b number) ∨
  ((∀ e ∈ trace, ¬ target e) ∧ ∃ code, outcome = .ok code ∧ code < 0)

def MaskRefused (trace : Trace Sys) : Prop := ∃ (mask : CpuSet) (ret : Int), ⟨.setaffinity mask,ret⟩ ∈ trace ∧ ret < 0

-- When the mask for a number is right. With glibc the int must not fall on
-- another cpu of the set. With klibc the cpu must be one of the set whose bit
-- the int shift reaches, and the stack must not have left other bits behind the
-- first word.
def PinFits (b : Build) (cpu number : Int) (stale : CpuSet) : Prop :=
  match b.libc with
  | .glibc => 0 ≤ cpu → cpu < 1024 → cpu = number
  | .klibc => (0 ≤ number ∧ number < 1024) ∧ (b.long = .w64 → number % 64 ≤ 30) ∧
      ∀ i < 1024, b.long.bits ≤ i → stale.has b i = true → (i : Int) = number

theorem only_fits (b : Build) (stale mask : CpuSet) (cpu : Nat) (small : cpu < 1024)
    (inside : 0 ≤ number → number < 1024 → (cpu : Int) = number)
    (bits : ∀ i < 1024, mask.has b i = (stale.carried b i || decide (i / b.long.bits = cpu / b.long.bits) &&
      (cpuBit b (cpu % b.long.bits)).testBit (i % b.long.bits))) :
    mask.Only b number ↔ PinFits b cpu number stale := by
  by_cases same : (cpu : Int) = number
  · subst same
    rw [only_iff b stale mask small bits]
    unfold PinFits ShiftNames CpuSet.carried
    cases libc : b.libc with
    | glibc => simp
    | klibc =>
      have low : (cpu : Int) % 64 ≤ 30 ↔ cpu % 64 ≤ 30 := by omega
      simp [small,low]
  · have other : ¬ (0 ≤ number ∧ number < 1024) := fun range => same (inside range.1 range.2)
    constructor
    · rintro ⟨member,rfl,below,_⟩
      exact absurd ⟨by omega,by omega⟩ other
    · unfold PinFits
      cases b.libc with
      | glibc =>
        intro falls
        exact absurd (falls (by omega) (by omega)) same
      | klibc => exact fun fits => absurd fits.1 other

theorem zero_empty (b : Build) : CpuSet.Empty b Buffer.zero := by
  intro i below
  rw [CpuSet.has,zero_word b (wordInside b below),Nat.zero_testBit]

theorem cpuSet_fits (b : Build) (stale : CpuSet) (near : 0 ≤ cpu ∧ cpu < 1024)
    (inside : 0 ≤ number → number < 1024 → cpu = number) :
    ∃ mask, cpuSet b cpu (cpuZero b stale) = .done mask ∧ (mask.Only b number ↔ PinFits b cpu number stale) := by
  obtain ⟨place,rfl⟩ := Int.eq_ofNat_of_zero_le near.1
  obtain ⟨mask,built,bits⟩ := cpuSet_inside b stale place (by omega)
  exact ⟨mask,built,only_fits b stale mask place (by omega) inside bits⟩

-- Only klibc runs past the array, and never for a number that fits.
theorem fault_unfit (b : Build) (range : -(2 ^ 31) ≤ cpu ∧ cpu < 2 ^ 31)
    (inside : 0 ≤ number → number < 1024 → cpu = number)
    (faults : cpuSet b cpu (cpuZero b stale) = .fault .arrayIndex) : ¬ PinFits b cpu number stale := by
  have far : ¬ (0 ≤ cpu ∧ cpu < 1024) := by
    intro near
    obtain ⟨mask,built,_⟩ := cpuSet_fits b stale near inside
    rw [built] at faults
    cases faults
  rw [cpuSet_outside b stale cpu range far] at faults
  unfold PinFits
  cases libc : b.libc with
  | glibc =>
    rw [libc] at faults
    cases faults
  | klibc =>
    rintro ⟨⟨low,high⟩,_⟩
    rw [inside low high] at far
    exact far ⟨low,high⟩

theorem unhanded_pins (b : Build) (number : Int) (none_ : ∀ mask ret, (⟨.setaffinity mask,ret⟩ : Event Sys) ∉ trace)
    (stops : outcome = .error reason) : ¬ Pinned b number trace outcome ∧ ¬ MaskRefused trace := by
  constructor
  · rintro (⟨mask,ret,there,_⟩ | ⟨_,code,returned,_⟩)
    · exact none_ mask ret there
    · rw [stops] at returned
      cases returned
  · rintro ⟨mask,ret,there,_⟩
    exact none_ mask ret there

theorem handed_refused {trace : Trace Sys} {mask : CpuSet} {ret : Int}
    (handed : ∀ mask' ret', ⟨.setaffinity mask',ret'⟩ ∈ trace ↔ mask' = mask ∧ ret' = ret) :
    MaskRefused trace ↔ ret < 0 := by
  constructor
  · rintro ⟨mask',ret',there,below⟩
    rwa [((handed mask' ret').mp there).2] at below
  · exact fun below => ⟨mask,ret,(handed mask ret).mpr ⟨rfl,rfl⟩,below⟩

theorem handed_pinned (b : Build) (number : Int) {trace : Trace Sys} {mask : CpuSet} {ret : Int}
    (handed : ∀ mask' ret', ⟨.setaffinity mask',ret'⟩ ∈ trace ↔ mask' = mask ∧ ret' = ret)
    (works : ∃ e ∈ trace, target e) : Pinned b number trace outcome ↔ mask.Only b number := by
  obtain ⟨e,member,runs⟩ := works
  constructor
  · rintro (⟨mask',ret',there,alone⟩ | ⟨idle,_⟩)
    · rwa [← ((handed mask' ret').mp there).1]
    · exact absurd runs (idle e member)
  · exact fun alone => .inl ⟨mask,ret,(handed mask ret).mpr ⟨rfl,rfl⟩,alone⟩

theorem pinsCommand_iff (b : Build) (run : PinsCommand b cpu trace outcome) (range : -(2 ^ 31) ≤ cpu ∧ cpu < 2 ^ 31)
    (inside : 0 ≤ number → number < 1024 → cpu = number)
    (law : ¬ (0 ≤ cpu ∧ cpu < 1024) → ∀ (mask : CpuSet) (ret : Int), ⟨.setaffinity mask,ret⟩ ∈ trace → mask.Empty b →
      ret < 0)
    (left : ⟨.stale 128,stale⟩ ∈ trace) :
    Pinned b number trace outcome ↔ PinFits b cpu number stale ∨ MaskRefused trace := by
  obtain ⟨stale',once,cases_⟩ := run
  have same := (once stale).mp left
  subst same
  rcases cases_ with ⟨faults,stops,none_⟩ | ⟨mask,ret,built,handed,refused,works⟩
  · obtain ⟨lost,unrefused⟩ := unhanded_pins b number none_ stops
    have unfit := fault_unfit b range inside faults
    simp [lost,unfit,unrefused]
  · rw [handed_refused handed]
    by_cases below : ret < 0
    · have failed : Pinned b number trace outcome := .inr (refused below)
      simp [failed,below]
    · rw [handed_pinned b number handed (works (by omega)),or_iff_left below]
      by_cases near : 0 ≤ cpu ∧ cpu < 1024
      · obtain ⟨mask',built',fits⟩ := cpuSet_fits b stale near inside
        rw [built'] at built
        cases built
        exact fits
      · -- the empty mask is refused, so this int is no run that goes on
        rw [cpuSet_outside b stale cpu range near] at built
        cases libc : b.libc with
        | glibc =>
          rw [libc] at built
          cases built
          exact absurd (law near _ ret ((handed _ ret).mpr ⟨rfl,rfl⟩) (zero_empty b)) below
        | klibc =>
          rw [libc] at built
          cases built

theorem miscCmds_pins (b : Build) (member : info ∈ miscCmds b) :
    (info.entry = .runon → info.params = some runonParams) ∧ (info.entry = .cpuid → info.params = some cpuidParams) := by
  let all : List CmdInfo := [makeCmd "rdtsc" .rdtsc .null,makeCmdWithParams "cpuid" .cpuid .null cpuidParams,
    makeCmd "busy_loop" .busyLoop .null,makeCmd "cpu_list" .cpuList .null,makeCmdWithParams "runon" .runon .null runonParams]
  have listed : info ∈ all := by
    rcases List.mem_append.mp member with machine | common
    · split at machine
      · exact List.mem_append_left [_,_,_] machine
      · cases machine
    · exact List.mem_append_right [_,_] common
  have table : ∀ info ∈ all, (info.entry = .runon → info.params = some runonParams) ∧
      (info.entry = .cpuid → info.params = some cpuidParams) := by decide
  exact table info listed

theorem pinParams_noIopl : (∀ p ∈ (some runonParams : Option PrereqParams), p.ioplNeeded = 0) ∧
    ∀ p ∈ (some cpuidParams : Option PrereqParams), p.ioplNeeded = 0 := by decide

theorem three_args {argv : List Arg} (three : 3 ≤ argv.length) :
    ∃ name cpu next rest, argv = name :: cpu :: next :: rest := by
  rcases argv with _ | ⟨name,_ | ⟨cpu,_ | ⟨next,rest⟩⟩⟩
  · exact absurd three (by decide)
  · exact absurd three (by simp)
  · exact absurd three (by simp)
  · exact ⟨name,cpu,next,rest,rfl⟩

theorem command_pins (b : Build) (fuel : Nat) (member : info ∈ miscCmds b)
    (pins : info.entry = .runon ∨ info.entry = .cpuid) (admitted : Admits info.params argv) (given : argv[1]? = some cpu) :
    (runInfo b fuel argv info).All (PinsCommand b (cpuOperand b info cpu.text)) := by
  obtain ⟨runonArgs,cpuidArgs⟩ := miscCmds_pins b member
  rcases pins with entry | entry
  · have params := runonArgs entry
    rw [runInfo_admitted b fuel (by rw [params]; exact pinParams_noIopl.1) admitted,entry]
    rw [params] at admitted
    obtain ⟨name,cpu',cmd,rest,rfl⟩ := three_args (admitted _ rfl).1
    cases given
    have operand_ : cpuOperand b info cpu.text = toInt (strtoulLong b 0 cpu.text).1 := by simp [cpuOperand,entry]
    rw [operand_]
    exact runon_pins b name cpu cmd rest info
  · have params := cpuidArgs entry
    rw [runInfo_admitted b fuel (by rw [params]; exact pinParams_noIopl.2) admitted,entry]
    rw [params] at admitted
    have bounds := admitted _ rfl
    obtain ⟨name,cpu',function,rest,rfl⟩ := three_args bounds.1
    cases given
    have operand_ : cpuOperand b info cpu.text = toInt (strtolLong b 0 cpu.text).1 := by simp [cpuOperand,entry]
    have most : (name :: cpu :: function :: rest).length ≤ 4 := bounds.2
    rw [operand_]
    exact cpuid_pins b name cpu function rest info (by simp only [List.length_cons] at most; omega)

-- A number is pinned exactly, or the command fails first, exactly when the mask
-- fits it or the kernel refuses the mask.
theorem cpu_pinning_iff (b : Build) (fuel : Nat) (info : CmdInfo) (member : info ∈ miscCmds b)
    (pins : info.entry = .runon ∨ info.entry = .cpuid) (argv : List Arg) (admitted : Admits info.params argv)
    (cpu : Arg) (given : argv[1]? = some cpu) (number : Int) (whole : wholeValue 0 cpu.text = some number)
    (kernel : Kernel Sys σ) (s : σ)
    (law : ∀ (mask : CpuSet) s, mask.Empty b → (kernel (.setaffinity mask) s).1 < 0) (stale : CpuSet) :
    let run := (runInfo b fuel argv info).exec kernel s
    ⟨.stale 128,stale⟩ ∈ run.trace →
    (Pinned b number run.trace run.outcome ↔
      PinFits b (cpuOperand b info cpu.text) number stale ∨ MaskRefused run.trace) := by
  intro run left
  let lawful : Event Sys → Prop
    | ⟨.setaffinity mask,ret⟩ => CpuSet.Empty b mask → ret < 0
    | _ => True
  have keeps (c : Call) (s : σ) : lawful ⟨c,(kernel c s).1⟩ := by
    cases c with
    | setaffinity mask => exact law mask s
    | _ => trivial
  exact pinsCommand_iff b ((command_pins b fuel member pins admitted given).exec kernel s)
    (cpuOperand_range b info cpu.text) (cpuOperand_inside b info whole)
    (fun _ mask ret there => Prog.exec_events keeps s _ there) left

def runonInfo : CmdInfo := makeCmdWithParams "runon" .runon .null runonParams
def klibc64 : Build := ⟨.x86,.w64,.little,.klibc,fun _ => rfl⟩

-- A kernel that takes every mask but the empty one, and a stack full of a byte.
def affinity (b : Build) (left : UInt8) : Kernel Sys Unit := fun c s =>
  match c with
  | .stale _ => (fun _ => left,s)
  | .setaffinity mask => (if (List.range 1024).any (CpuSet.has b mask) then (0 : Int) else (-1 : Int),s)
  | c => (c.succeeds,s)

theorem affinity_empty (b : Build) (left : UInt8) (mask : CpuSet) (s : Unit) (empty : mask.Empty b) :
    (affinity b left (.setaffinity mask) s).1 < 0 := by
  have none_ : (List.range 1024).any (CpuSet.has b mask) = false := by
    rw [List.any_eq_false]
    intro i below
    simp [empty i (List.mem_range.mp below)]
  simp [affinity,none_]

theorem cpu_pinning_iff_five :
    let run := (runInfo .x86_64 0 (["runon","5","true"].map Arg.of) runonInfo).exec (affinity .x86_64 0xff) ()
    Pinned .x86_64 5 run.trace run.outcome := by
  have operand_ : cpuOperand .x86_64 runonInfo (Arg.of "5").text = 5 := by decide +kernel
  refine (cpu_pinning_iff .x86_64 0 runonInfo (by decide) (.inl rfl) (["runon","5","true"].map Arg.of) (by decide)
    (Arg.of "5") rfl 5 (by decide) (affinity .x86_64 0xff) () (affinity_empty .x86_64 0xff) (fun _ => 0xff)
    (.head _)).mpr (.inl ?_)
  rw [operand_]
  exact fun _ _ => rfl

theorem smooth_accepts (program : Action α) : ¬ MaskRefused (program.exec smooth ()).trace := by
  let accepted : Event Sys → Prop
    | ⟨.setaffinity _,ret⟩ => ret = 0
    | _ => True
  have keeps (c : Call) (s : Unit) : accepted ⟨c,(smooth c s).1⟩ := by
    cases c <;> trivial
  rintro ⟨mask,ret,there,refused⟩
  have zero : ret = 0 := Prog.exec_events keeps () _ there
  omega

theorem runon_true_pins (b : Build) (text : String) (member : runonInfo ∈ miscCmds b)
    (operand_ : cpuOperand b runonInfo (Arg.of text).text = cpu) :
    let run := (runInfo b 0 (["runon",text,"true"].map Arg.of) runonInfo).exec smooth ()
    PinsCommand b cpu run.trace run.outcome := by
  have admitted : Admits runonInfo.params (["runon",text,"true"].map Arg.of) := by
    simp [Admits,runonInfo,makeCmdWithParams,runonParams,varArgs,intMax]
  rw [← operand_]
  exact (command_pins b 0 member (.inl rfl) admitted rfl).exec smooth ()

-- With glibc 2^32 becomes cpu 0; with klibc on a 64-bit machine cpu 40 becomes
-- cpu 8.
theorem cpu_pinning_other :
    let glibc := (runInfo .x86_64 0 (["runon","4294967296","true"].map Arg.of) runonInfo).exec smooth ()
    let klibc := (runInfo klibc64 0 (["runon","40","true"].map Arg.of) runonInfo).exec smooth ()
    ¬ Pinned .x86_64 4294967296 glibc.trace glibc.outcome ∧ ¬ Pinned klibc64 40 klibc.trace klibc.outcome := by
  have narrowed : cpuOperand .x86_64 runonInfo (Arg.of "4294967296").text = 0 := by decide +kernel
  have forty : cpuOperand klibc64 runonInfo (Arg.of "40").text = 40 := by decide +kernel
  constructor
  · have run := runon_true_pins .x86_64 "4294967296" (by decide) narrowed
    intro pinned
    rcases (pinsCommand_iff .x86_64 run (by decide) (by decide) (fun far => absurd ⟨by decide,by decide⟩ far)
      (.head _)).mp pinned with fits | refused
    · exact absurd (fits (by decide) (by decide)) (by decide)
    · exact smooth_accepts _ refused
  · have run := runon_true_pins klibc64 "40" (by decide) forty
    intro pinned
    rcases (pinsCommand_iff klibc64 run (by decide) (fun _ _ => rfl) (fun far => absurd ⟨by decide,by decide⟩ far)
      (.head _)).mp pinned with fits | refused
    · exact absurd (fits.2.1 rfl) (by decide)
    · exact smooth_accepts _ refused

end Iotools
