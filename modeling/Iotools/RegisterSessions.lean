import Iotools.MemorySessions
import Iotools.PciProcfs
import Iotools.ScomAddress

namespace Iotools
open Bytes Numeral Interaction

-- The registers behind the device files: MSRs of a cpu and SCOMs of a chip, both
-- as narrowed to int, and the bytes of the NVRAM.
inductive Register where
  | msr (cpu : Int) (number : Nat)
  | scom (chip : UInt32) (address : Nat)
  | nvram (index : Nat)
  deriving DecidableEq

def Register.path : Register → Text
  | .msr cpu _ => msrDevice cpu
  | .scom chip _ => scomDevice chip.toNat
  | .nvram _ => nvramDevice

def Register.number : Register → Nat
  | .msr _ number => number
  | .scom _ address => address
  | .nvram index => index

def Register.bytes : Register → Nat
  | .nvram _ => 1
  | _ => 8

theorem decimal_int_inj {left right : Int} (same : decimal left = decimal right) : left = right := by
  have digits (value : Nat) : decimal value = Nat.toDigits 10 value := by simp [decimal]
  have plain (value : Nat) : '-' ∉ Nat.toDigits 10 value := by
    intro member
    have digit := toDigits_isDigit (fun _ => digitValue_lower) (by decide : 1 < 10) (by decide) value '-' (by simpa using member)
    exact absurd digit (by decide)
  unfold decimal at same
  split at same <;> split at same
  · have magnitudes := (List.cons.inj same).2
    rw [← digits,← digits] at magnitudes
    have whole := decimal_inj magnitudes
    omega
  · exact absurd (same ▸ List.mem_cons_self) (plain _)
  · exact absurd (same ▸ List.mem_cons_self) (plain _)
  · rw [← digits,← digits] at same
    have whole := decimal_inj same
    omega

def Register.letter : Register → Char
  | .msr _ _ => 'c'
  | .scom _ _ => 'k'
  | .nvram _ => 'n'

theorem Register.path_letter (r : Register) : r.path[5]? = some r.letter := by
  cases r with
  | msr cpu number =>
    have place : 5 < "/dev/cpu/".toList.length := by decide +kernel
    have letter : "/dev/cpu/".toList[5]? = some 'c' := by decide +kernel
    have front : msrDevice cpu = "/dev/cpu/".toList ++ (decimal cpu ++ "/msr".toList) := List.append_assoc ..
    change (msrDevice cpu)[5]? = some 'c'
    rw [front,List.getElem?_append_left place,letter]
  | scom chip address =>
    have place : 5 < "/sys/kernel/debug/powerpc/scom/".toList.length := by decide +kernel
    have letter : "/sys/kernel/debug/powerpc/scom/".toList[5]? = some 'k' := by decide +kernel
    have front : scomDevice chip.toNat = "/sys/kernel/debug/powerpc/scom/".toList ++
        (hexLower 8 (toUnsigned chip.toNat) ++ "/access".toList) := List.append_assoc ..
    change (scomDevice chip.toNat)[5]? = some 'k'
    rw [front,List.getElem?_append_left place,letter]
  | nvram index =>
    change nvramDevice[5]? = some 'n'
    decide +kernel

theorem msrDevice_inj (same : msrDevice left = msrDevice right) : left = right :=
  decimal_int_inj (List.append_cancel_left (List.append_cancel_right same))

theorem scomDevice_inj (same : scomDevice left = scomDevice right) : toUnsigned left = toUnsigned right :=
  hexLower_inj.mp (List.append_cancel_left (List.append_cancel_right same))

theorem Register.place_inj {left right : Register} (paths : left.path = right.path) (numbers : left.number = right.number) :
    left = right := by
  have letters : left.letter = right.letter := by
    have same := left.path_letter
    rw [paths,right.path_letter] at same
    exact (Option.some.inj same).symm
  cases left with
  | msr cpu number =>
    cases right with
    | msr cpu' number' =>
      rw [msrDevice_inj paths]
      exact congrArg _ numbers
    | scom | nvram => simp [Register.letter] at letters
  | scom chip address =>
    cases right with
    | scom chip' address' =>
      have first := chip.toNat_lt
      have second := chip'.toNat_lt
      have units := scomDevice_inj paths
      have chips : chip = chip' := by
        apply UInt32.toNat_inj.mp
        unfold toUnsigned at units
        omega
      rw [chips]
      exact congrArg _ numbers
    | msr | nvram => simp [Register.letter] at letters
  | nvram index =>
    cases right with
    | nvram index' => exact congrArg _ numbers
    | msr | scom => simp [Register.letter] at letters

-- The device files of the registers. A transfer moves one whole register. A file
-- that is there opens in every mode. The SCOM driver decodes the offset; the
-- others take it as it is, an MSR number beyond 32 bits included, and no byte of
-- the NVRAM depends on another one.
structure RegisterHandle where
  path : Text
  mode : AccessMode
  offset : Int

structure RegisterFiles where
  present : Text → Bool
  value : Text → Nat → Nat
  next : Nat
  handles : Int → Option RegisterHandle

namespace RegisterFiles

def number (path : Text) (offset : Int) : Nat :=
  if "/sys/kernel/debug/powerpc/scom/".toList.isPrefixOf path then kernelScom offset else offset.toNat

def unit (path : Text) : Nat := if path = nvramDevice then 1 else 8

def setHandle (s : RegisterFiles) (fd : Int) (handle : Option RegisterHandle) : RegisterFiles :=
  {s with handles := Function.update s.handles fd handle}

def setValue (s : RegisterFiles) (path : Text) (number value : Nat) : RegisterFiles :=
  {s with value := Function.update s.value path (Function.update (s.value path) number value)}

def kernel (order : Endian) : Kernel Sys RegisterFiles := fun c s =>
  match c with
  | .open path flags =>
    if s.present path then ((s.next : Int),{s.setHandle s.next (some ⟨path,flags.mode,0⟩) with next := s.next + 1})
    else ((-1 : Int),s)
  | .close fd => ((),s.setHandle fd none)
  | .lseek fd offset =>
    match s.handles fd with
    | none => ((-1 : Int),s)
    | some handle => if offset < 0 then ((-1 : Int),s) else (offset,s.setHandle fd (some {handle with offset := offset}))
  | .read fd count =>
    match s.handles fd with
    | none => (none,s)
    | some handle =>
      if handle.mode = .wronly ∨ count ≠ unit handle.path then (none,s)
      else (some ⟨encode order count (s.value handle.path (number handle.path handle.offset)),by simp⟩,s)
  | .write fd bytes =>
    match s.handles fd with
    | none => ((-1 : Int),s)
    | some handle =>
      if handle.mode = .rdonly ∨ bytes.length ≠ unit handle.path then ((-1 : Int),s)
      else ((bytes.length : Int),s.setValue handle.path (number handle.path handle.offset) (decode order bytes))
  | c => (c.succeeds,s)

def opened (s : RegisterFiles) (path : Text) (mode : AccessMode) (offset : Int) : RegisterFiles :=
  {s.setHandle s.next (some ⟨path,mode,offset⟩) with next := s.next + 1}

variable (order : Endian) (s : RegisterFiles)

theorem open_present (shown : s.present path = true) (mode : AccessMode) :
    kernel order (.open path ⟨mode,false⟩) s = ((s.next : Int),s.opened path mode 0) := by
  simp only [kernel,shown,if_true]
  rfl

theorem lseek_opened (positive : ¬ offset < 0) :
    kernel order (.lseek s.next offset) (s.opened path mode 0) = (offset,s.opened path mode offset) := by
  simp [kernel,positive,opened,setHandle]

theorem read_opened (offset : Int) (readable : mode ≠ .wronly) (whole : count = unit path) :
    kernel order (.read s.next count) (s.opened path mode offset) =
      (some ⟨encode order count (s.value path (number path offset)),by simp⟩,s.opened path mode offset) := by
  have allowed : ¬ (mode = .wronly ∨ count ≠ unit path) := by simp [readable,whole]
  simp only [kernel,opened,setHandle,Function.update_self,if_neg allowed]

theorem write_opened (offset : Int) (writable : mode ≠ .rdonly) (whole : bytes.length = unit path) :
    kernel order (.write s.next bytes) (s.opened path mode offset) =
      ((bytes.length : Int),(s.opened path mode offset).setValue path (number path offset) (decode order bytes)) := by
  have allowed : ¬ (mode = .rdonly ∨ bytes.length ≠ unit path) := by simp [writable,whole]
  simp only [kernel,opened,setHandle,Function.update_self,if_neg allowed]

end RegisterFiles

section Seek
variable (b : Build) (s : RegisterFiles) (mode : AccessMode)

theorem msrOpenAndSeek_exec (cpu : Int) (small : msr < 2 ^ 63) (shown : s.present (msrDevice cpu) = true) :
    ∃ trace, (msrOpenAndSeek cpu msr mode).exec (RegisterFiles.kernel b.order) s =
      ⟨trace,.ok (some (s.next : Int)),s.opened (msrDevice cpu) mode msr⟩ ∧ printed trace = [] := by
  have offset : toOff 64 msr = msr := by
    unfold toOff
    norm_num
    omega
  have valid : ¬ (s.next : Int) < 0 := by omega
  have seeked : ¬ (msr : Int) = -1 := by omega
  unfold msrOpenAndSeek
  rw [Prog.call_bind,Prog.exec_step (s.open_present b.order shown mode),Prog.done_bind,if_neg valid,offset,Prog.call_bind,
    Prog.exec_step (s.lseek_opened b.order (by omega)),Prog.done_bind,if_neg seeked]
  exact ⟨_,rfl,rfl⟩

theorem scomOpenAndSeek_exec (chip : Int) (positive : 0 ≤ scomOffset scom) (shown : s.present (scomDevice chip) = true) :
    ∃ trace, (scomOpenAndSeek chip scom mode).exec (RegisterFiles.kernel b.order) s =
      ⟨trace,.ok (some (s.next : Int)),s.opened (scomDevice chip) mode (scomOffset scom)⟩ ∧ printed trace = [] := by
  have valid : ¬ (s.next : Int) < 0 := by omega
  have seeked : ¬ scomOffset scom = -1 := by omega
  unfold scomOpenAndSeek
  rw [Prog.call_bind,Prog.exec_step (s.open_present b.order shown mode),Prog.done_bind,if_neg valid,Prog.call_bind,
    Prog.exec_step (s.lseek_opened b.order (by omega)),Prog.done_bind,if_neg seeked]
  exact ⟨_,rfl,rfl⟩

theorem cmosOpenAndSeek_exec (small : index < 2 ^ (b.long.bits - 1)) (shown : s.present nvramDevice = true) :
    ∃ trace, (cmosOpenAndSeek b index mode).exec (RegisterFiles.kernel b.order) s =
      ⟨trace,.ok (some (s.next : Int)),s.opened nvramDevice mode index⟩ ∧ printed trace = [] := by
  have offset : toOff b.long.bits index = index := by
    revert small
    unfold toOff
    cases b.long with
    | w32 =>
      intro small
      norm_num [WordSize.bits] at small ⊢
      omega
    | w64 =>
      intro small
      norm_num [WordSize.bits] at small ⊢
      omega
  have valid : ¬ (s.next : Int) < 0 := by omega
  have seeked : ¬ (index : Int) < 0 := by omega
  unfold cmosOpenAndSeek
  rw [Prog.call_bind,Prog.exec_step (s.open_present b.order shown mode),Prog.done_bind,if_neg valid,offset,Prog.call_bind,
    Prog.exec_step (s.lseek_opened b.order (by omega)),Prog.done_bind,if_neg seeked]
  exact ⟨_,rfl,rfl⟩

end Seek

-- The store that the files hold.
def RegisterFiles.held (s : RegisterFiles) (r : Register) : Nat := s.value r.path r.number

def Register.At (r : Register) (offset : Int) : Prop := RegisterFiles.number r.path offset = r.number

theorem scom_prefix (path : Text) (found : "/sys/kernel/debug/powerpc/scom/".toList.isPrefixOf path = true) : path[5]? = some 'k' := by
  have place : 5 < "/sys/kernel/debug/powerpc/scom/".toList.length := by decide +kernel
  have letter : "/sys/kernel/debug/powerpc/scom/".toList[5]? = some 'k' := by decide +kernel
  obtain ⟨rest,rfl⟩ := List.isPrefixOf_iff_prefix.mp found
  rw [List.getElem?_append_left place,letter]

theorem msr_at (cpu : Int) (number : Nat) : (Register.msr cpu number).At number := by
  unfold Register.At RegisterFiles.number
  rw [if_neg]
  · rfl
  · intro found
    have letter := scom_prefix _ found
    rw [Register.path_letter] at letter
    exact absurd (Option.some.inj letter) (by simp [Register.letter])

theorem nvram_at (index : Nat) : (Register.nvram index).At index := by
  unfold Register.At RegisterFiles.number
  rw [if_neg]
  · rfl
  · intro found
    have letter := scom_prefix _ found
    rw [Register.path_letter] at letter
    exact absurd (Option.some.inj letter) (by simp [Register.letter])

theorem scom_at (chip : UInt32) (small : address < 2 ^ 64) (plain : PlainScom address) :
    (Register.scom chip address).At (scomOffset address) := by
  have found : "/sys/kernel/debug/powerpc/scom/".toList.isPrefixOf (scomDevice chip.toNat) = true := by
    rw [List.isPrefixOf_iff_prefix]
    unfold scomDevice
    rw [List.append_assoc]
    exact List.prefix_append _ _
  unfold Register.At RegisterFiles.number
  change (if "/sys/kernel/debug/powerpc/scom/".toList.isPrefixOf (scomDevice chip.toNat) = true then _ else _) = _
  rw [if_pos found]
  exact kernelScom_plain small plain

theorem Register.unit_bytes (r : Register) : RegisterFiles.unit r.path = r.bytes := by
  unfold RegisterFiles.unit
  cases r with
  | nvram index => exact if_pos rfl
  | msr cpu number =>
    refine if_neg (fun same => ?_)
    have letter := (Register.msr cpu number).path_letter
    rw [same] at letter
    exact absurd letter (by change nvramDevice[5]? ≠ some 'c'; decide +kernel)
  | scom chip address =>
    refine if_neg (fun same => ?_)
    have letter := (Register.scom chip address).path_letter
    rw [same] at letter
    exact absurd letter (by change nvramDevice[5]? ≠ some 'k'; decide +kernel)

-- A register given a value is that one register.
def Register.gets (r : Register) (value : Nat) : Patch Register Nat := fun other => if other = r then some value else none

theorem setValue_held (s : RegisterFiles) (r : Register) (value : Nat) :
    (s.setValue r.path r.number value).held = (r.gets value).apply s.held := by
  funext other
  unfold RegisterFiles.held Patch.apply RegisterFiles.setValue Register.gets
  dsimp only
  by_cases own : other = r
  · subst own
    simp
  · rw [if_neg own]
    by_cases paths : other.path = r.path
    · have numbers : other.number ≠ r.number := fun same => own (Register.place_inj paths same)
      rw [paths,Function.update_self,Function.update_of_ne numbers]
      rfl
    · rw [Function.update_of_ne paths]
      rfl

section Transfer
variable (b : Build) (s : RegisterFiles) (r : Register) {offset : Int} (placed : r.At offset)
include placed

theorem readQuad_exec (eight : r.bytes = 8) :
    ∃ trace after, (readQuad b s.next).exec (RegisterFiles.kernel b.order) (s.opened r.path .rdonly offset) = ⟨trace,.ok 0,after⟩ ∧
      after.present = s.present ∧ after.held = s.held ∧ printed trace = valueLine 8 (s.held r % 256 ^ 8) := by
  have whole : 8 = RegisterFiles.unit r.path := by rw [r.unit_bytes,eight]
  have readable : AccessMode.rdonly ≠ .wronly := by decide
  have read := s.read_opened b.order offset readable whole
  unfold readQuad
  rw [Prog.call_bind,Prog.exec_step read]
  simp only [Prog.done_bind,encode_length,ne_eq,not_true,if_false]
  refine ⟨_,_,rfl,rfl,rfl,?_⟩
  rw [placed]
  simp [Prog.exec_call,output,valueLine,decode_encode,RegisterFiles.held]

theorem writeQuad_exec (eight : r.bytes = 8) (data : Nat) :
    ∃ trace after, (writeQuad b s.next data).exec (RegisterFiles.kernel b.order) (s.opened r.path .wronly offset) =
        ⟨trace,.ok 0,after⟩ ∧
      after.present = s.present ∧ after.held = (r.gets (data % 256 ^ 8)).apply s.held := by
  have whole : (encode b.order 8 data).length = RegisterFiles.unit r.path := by rw [r.unit_bytes,eight,encode_length]
  have writable : AccessMode.wronly ≠ .rdonly := by decide
  have write := s.write_opened b.order offset writable whole
  rw [placed,decode_encode,encode_length] at write
  unfold writeQuad
  rw [Prog.call_bind,Prog.exec_step write]
  refine ⟨_,_,rfl,rfl,?_⟩
  exact setValue_held s r (data % 256 ^ 8)

variable {opening : Action (Option Int)} {next : Option Int → Action Int}

theorem quad_read (eight : r.bytes = 8) (opens : ∃ trace, opening.exec (RegisterFiles.kernel b.order) s =
      ⟨trace,.ok (some (s.next : Int)),s.opened r.path .rdonly offset⟩ ∧ printed trace = [])
    (goes : next (some (s.next : Int)) = readQuad b s.next) :
    ∃ trace after, (opening >>= next).exec (RegisterFiles.kernel b.order) s = ⟨trace,.ok 0,after⟩ ∧
      after.present = s.present ∧ after.held = s.held ∧ printed trace = valueLine r.bytes (s.held r % 256 ^ r.bytes) := by
  obtain ⟨before,opens,quiet⟩ := opens
  obtain ⟨trace,after,reads,present,held,text⟩ := readQuad_exec b s r placed eight
  refine ⟨before ++ trace,after,?_,present,held,?_⟩
  · rw [Prog.exec_seq opens,goes,reads]
    rfl
  · rw [printed_append,quiet,text,eight]
    rfl

theorem quad_write (eight : r.bytes = 8) (data : Nat) (opens : ∃ trace, opening.exec (RegisterFiles.kernel b.order) s =
      ⟨trace,.ok (some (s.next : Int)),s.opened r.path .wronly offset⟩ ∧ printed trace = [])
    (goes : next (some (s.next : Int)) = writeQuad b s.next data) :
    ∃ trace after, (opening >>= next).exec (RegisterFiles.kernel b.order) s = ⟨trace,.ok 0,after⟩ ∧
      after.present = s.present ∧ after.held = (r.gets (data % 256 ^ 8)).apply s.held := by
  obtain ⟨before,opens,_⟩ := opens
  obtain ⟨trace,after,writes,present,held⟩ := writeQuad_exec b s r placed eight data
  refine ⟨before ++ trace,after,?_,present,held⟩
  rw [Prog.exec_seq opens,goes,writes]
  rfl

end Transfer

theorem cmosRd_exec (b : Build) (s : RegisterFiles) (name index : Arg) (info : CmdInfo)
    (above : ¬ (strtoulLong b 0 index.text).1 < nvramOffset)
    (small : (strtoulLong b 0 index.text).1 - nvramOffset < 2 ^ (b.long.bits - 1)) (shown : s.present nvramDevice = true) :
    ∃ trace after, (cmosRd b [name,index] info).exec (RegisterFiles.kernel b.order) s = ⟨trace,.ok 0,after⟩ ∧
      after.present = s.present ∧ after.held = s.held ∧
      printed trace = valueLine 1 (s.held (.nvram ((strtoulLong b 0 index.text).1 - nvramOffset)) % 256 ^ 1) := by
  obtain ⟨opening,opens,quiet⟩ := cmosOpenAndSeek_exec b s .rdonly small shown
  have readable : AccessMode.rdonly ≠ .wronly := by decide
  have whole : 1 = RegisterFiles.unit nvramDevice := (if_pos rfl).symm
  have read := s.read_opened b.order ((strtoulLong b 0 index.text).1 - nvramOffset : Nat) readable whole
  have placed := nvram_at ((strtoulLong b 0 index.text).1 - nvramOffset)
  unfold cmosRd
  simp only [argAt,List.getElem?_cons_succ,List.getElem?_cons_zero,Prog.done_bind,if_neg above]
  rw [Prog.exec_seq opens]
  dsimp only
  rw [Prog.call_bind,Prog.exec_step read]
  simp only [Prog.done_bind,encode_length,ne_eq,not_true,if_false]
  refine ⟨_,_,rfl,rfl,rfl,?_⟩
  unfold Register.At at placed
  change RegisterFiles.number nvramDevice _ = _ at placed
  rw [placed]
  simp [Prog.exec_call,quiet,output,valueLine,decode_encode,RegisterFiles.held,Register.path,Register.number]

theorem cmosWr_exec (b : Build) (s : RegisterFiles) (name index data : Arg) (info : CmdInfo)
    (above : ¬ (strtoulLong b 0 index.text).1 < nvramOffset)
    (small : (strtoulLong b 0 index.text).1 - nvramOffset < 2 ^ (b.long.bits - 1)) (shown : s.present nvramDevice = true) :
    ∃ trace after, (cmosWr b [name,index,data] info).exec (RegisterFiles.kernel b.order) s = ⟨trace,.ok 0,after⟩ ∧
      after.present = s.present ∧ after.held = ((Register.nvram ((strtoulLong b 0 index.text).1 - nvramOffset)).gets
        ((strtoulLong b 0 data.text).1 % 256 ^ 1)).apply s.held := by
  obtain ⟨opening,opens,_⟩ := cmosOpenAndSeek_exec b s .wronly small shown
  have writable : AccessMode.wronly ≠ .rdonly := by decide
  have whole : (encode b.order 1 (strtoulLong b 0 data.text).1).length = RegisterFiles.unit nvramDevice := by
    rw [encode_length]
    exact (if_pos rfl).symm
  have write := s.write_opened b.order ((strtoulLong b 0 index.text).1 - nvramOffset : Nat) writable whole
  have placed : RegisterFiles.number nvramDevice ((strtoulLong b 0 index.text).1 - nvramOffset : Nat) = _ :=
    nvram_at ((strtoulLong b 0 index.text).1 - nvramOffset)
  rw [placed,decode_encode,encode_length] at write
  unfold cmosWr
  simp only [argAt,List.getElem?_cons_succ,List.getElem?_cons_zero,Prog.done_bind,if_neg above]
  rw [Prog.exec_seq opens]
  dsimp only
  rw [Prog.call_bind,Prog.exec_step write]
  exact ⟨_,_,rfl,rfl,setValue_held s (.nvram _) _⟩

def registerReaders : List Entry := [.rdMsr,.rdScom,.cmosRd]
def registerWriters : List Entry := [.wrMsr,.wrScom,.cmosWr]

-- The register a command names; the bytes of the clock, which come before the
-- NVRAM, are none.
def Issued.register (c : Issued b) : Option Register :=
  match c.info.entry with
  | .rdMsr | .wrMsr => some (.msr (toInt (strtolLong b 0 (c.text 1)).1) (strtoulLong b 0 (c.text 2)).1)
  | .rdScom | .wrScom => some (.scom (UInt32.ofNat (toUnsigned (toInt (strtolLong b 0 (c.text 1)).1))) (strtoull 0 (c.text 2)).1)
  | .cmosRd | .cmosWr =>
    if (strtoulLong b 0 (c.text 1)).1 < nvramOffset then none else some (.nvram ((strtoulLong b 0 (c.text 1)).1 - nvramOffset))
  | _ => none

def Issued.setting (c : Issued b) : Nat :=
  if c.info.entry = .cmosWr then (strtoulLong b 0 (c.text 2)).1 % 256 else (strtoull 0 (c.text 3)).1

def Issued.sets (c : Issued b) : Patch Register Nat :=
  match c.register with
  | some r => if c.info.entry ∈ registerWriters then r.gets c.setting else Patch.idle
  | none => Patch.idle

-- Registers whose place is a file offset.
def Register.Placed (b : Build) : Register → Prop
  | .msr _ number => number < 2 ^ 63
  | .scom _ address => PlainScom address
  | .nvram index => index < 2 ^ (b.long.bits - 1)

-- A register command with the arguments it takes, on a machine with its file.
structure RegisterCommand (s : RegisterFiles) (c : Issued b) : Prop where
  accesses : c.info.entry ∈ registerReaders ++ registerWriters
  admitted : Admits c.info.params c.vector
  reached : ∀ r, c.register = some r → s.present r.path = true ∧ r.Placed b

-- What a command answers: the value of its register in full width, or that a
-- byte of the clock is not its business.
def Issued.answers (c : Issued b) (store : Register → Nat) (text : Text) (rc : Int) : Prop :=
  match c.register with
  | some r => rc = 0 ∧ text = if c.info.entry ∈ registerReaders then valueLine r.bytes (store r % 256 ^ r.bytes) else []
  | none => rc = -1 ∧ text = []

def Entry.arguments : Entry → Nat
  | .cmosRd => 2
  | .rdMsr | .rdScom | .cmosWr => 3
  | _ => 4

theorem register_params : ∀ info ∈ everyCmd, info.entry ∈ registerReaders ++ registerWriters →
    (∀ p ∈ info.params, p.ioplNeeded = 0 ∧ p.minArgs = info.entry.arguments ∧ p.maxArgs = info.entry.arguments) ∧
    info.params.isSome = true := by
  decide +kernel

theorem writers_print_nothing : ∀ entry ∈ registerWriters, entry.prints = false := by decide

theorem strtoull_full (text : Text) : (strtoull 0 text).1 % 256 ^ 8 = (strtoull 0 text).1 :=
  Nat.mod_eq_of_lt (strtoul_lt 64 0 text)

-- What a run of a command does to the store and answers.
def Issued.Serves (c : Issued b) (s : RegisterFiles) (run : Run Sys Fault Int RegisterFiles) : Prop :=
  ∃ rc, run.outcome = .ok rc ∧ run.state.present = s.present ∧ run.state.held = c.sets.apply s.held ∧
    c.answers s.held (printed run.trace) rc

section Command
variable {b : Build} {s : RegisterFiles} {c : Issued b} {run : Run Sys Fault Int RegisterFiles}

theorem serves_read {r : Register} (register : c.register = some r) (reads : c.info.entry ∈ registerReaders)
    (ends : ∃ trace after, run = ⟨trace,.ok 0,after⟩ ∧ after.present = s.present ∧ after.held = s.held ∧
      printed trace = valueLine r.bytes (s.held r % 256 ^ r.bytes)) : c.Serves s run := by
  obtain ⟨trace,after,rfl,present,held,text⟩ := ends
  have other : c.info.entry ∉ registerWriters := by
    intro writes
    revert reads writes
    cases c.info.entry <;> decide
  have idle : c.sets = Patch.idle := by
    unfold Issued.sets
    rw [register]
    exact if_neg other
  refine ⟨0,rfl,present,?_,?_⟩
  · rw [idle,Patch.apply_idle]
    exact held
  · unfold Issued.answers
    rw [register]
    exact ⟨rfl,by rw [if_pos reads]; exact text⟩

theorem serves_write {r : Register} (register : c.register = some r) (writes : c.info.entry ∈ registerWriters)
    (silent : printed run.trace = [])
    (ends : ∃ trace after, run = ⟨trace,.ok 0,after⟩ ∧ after.present = s.present ∧
      after.held = (r.gets c.setting).apply s.held) : c.Serves s run := by
  obtain ⟨trace,after,rfl,present,held⟩ := ends
  have other : c.info.entry ∉ registerReaders := by
    intro reads
    revert reads writes
    cases c.info.entry <;> decide
  have sets : c.sets = r.gets c.setting := by
    unfold Issued.sets
    rw [register]
    exact if_pos writes
  refine ⟨0,rfl,present,?_,?_⟩
  · rw [sets]
    exact held
  · unfold Issued.answers
    rw [register]
    exact ⟨rfl,by rw [if_neg other]; exact silent⟩

theorem serves_refused (register : c.register = none)
    (ends : ∃ trace, run = ⟨trace,.ok (-1),s⟩ ∧ printed trace = []) : c.Serves s run := by
  obtain ⟨trace,rfl,text⟩ := ends
  have idle : c.sets = Patch.idle := by
    unfold Issued.sets
    rw [register]
  refine ⟨-1,rfl,rfl,by rw [idle,Patch.apply_idle],?_⟩
  unfold Issued.answers
  rw [register]
  exact ⟨rfl,text⟩

theorem length_four {xs : List α} (four : xs.length = 4) : ∃ a b c d, xs = [a,b,c,d] := by
  match xs,four with
  | [a,b,c,d],_ => exact ⟨a,b,c,d,rfl⟩

theorem scom_path (chip : Int) (address : Nat) :
    (Register.scom (UInt32.ofNat (toUnsigned chip)) address).path = scomDevice chip := by
  have small : toUnsigned chip < 2 ^ 32 := by
    unfold toUnsigned
    omega
  have same : toUnsigned ((UInt32.ofNat (toUnsigned chip)).toNat : Nat) = toUnsigned chip := by
    rw [UInt32.toNat_ofNat_of_lt' small]
    unfold toUnsigned
    omega
  change scomDevice _ = _
  unfold scomDevice
  rw [same]

theorem scom_opens (b : Build) (s : RegisterFiles) (mode : AccessMode) (chip : Int) (plain : PlainScom scom)
    (shown : s.present (Register.scom (UInt32.ofNat (toUnsigned chip)) scom).path = true) :
    ∃ trace, (scomOpenAndSeek chip scom mode).exec (RegisterFiles.kernel b.order) s =
      ⟨trace,.ok (some (s.next : Int)),
        s.opened (Register.scom (UInt32.ofNat (toUnsigned chip)) scom).path mode (scomOffset scom)⟩ ∧ printed trace = [] := by
  rw [scom_path] at shown ⊢
  exact scomOpenAndSeek_exec b s mode chip ((scomOffset_nonneg scom).mpr (plain 60 (by decide) (by decide))) shown

variable (fuel : Nat) (command : RegisterCommand s c)
include command

theorem registerCommand_vector : c.vector.length = c.info.entry.arguments ∧
    runInfo b fuel c.vector c.info = c.info.entry.call b fuel c.vector c.info := by
  obtain ⟨params,some_⟩ := register_params c.info c.member command.accesses
  obtain ⟨p,found⟩ := Option.isSome_iff_exists.mp some_
  obtain ⟨_,least,most⟩ := params p found
  have count := command.admitted p found
  exact ⟨by omega,runInfo_admitted b fuel (fun p member => (params p member).1) command.admitted⟩

theorem registerCommand_effect : c.Serves s ((runInfo b fuel c.vector c.info).exec (RegisterFiles.kernel b.order) s) := by
  obtain ⟨length,call⟩ := registerCommand_vector fuel command
  have reached := command.reached
  have called : c.vector ≠ [] := by
    intro empty
    rw [empty] at length
    revert length
    cases c.info.entry <;> decide
  have silent (writes : c.info.entry ∈ registerWriters) :=
    writers_silent c.member (writers_print_nothing _ writes) b fuel c.vector called (RegisterFiles.kernel b.order) s
  rw [call] at silent ⊢
  cases entry : c.info.entry with
  | rdMsr =>
    rw [entry] at length
    obtain ⟨name,cpu,msr,vector⟩ := List.length_eq_three.mp length
    have register : c.register = some (.msr (toInt (strtolLong b 0 cpu.text).1) (strtoulLong b 0 msr.text).1) := by
      simp [Issued.register,Issued.text,entry,vector]
    obtain ⟨shown,small⟩ := reached _ register
    refine serves_read register (by rw [entry]; decide) ?_
    rw [vector]
    exact quad_read b s _ (msr_at _ _) rfl (msrOpenAndSeek_exec b s .rdonly _ small shown) rfl
  | wrMsr =>
    rw [entry] at length
    obtain ⟨name,cpu,msr,data,vector⟩ := length_four length
    have register : c.register = some (.msr (toInt (strtolLong b 0 cpu.text).1) (strtoulLong b 0 msr.text).1) := by
      simp [Issued.register,Issued.text,entry,vector]
    have setting : c.setting = (strtoull 0 data.text).1 := by simp [Issued.setting,Issued.text,entry,vector]
    obtain ⟨shown,small⟩ := reached _ register
    rw [entry] at silent
    refine serves_write register (by rw [entry]; decide) (silent (by decide)) ?_
    rw [vector,setting,← strtoull_full data.text]
    exact quad_write b s _ (msr_at _ _) rfl _ (msrOpenAndSeek_exec b s .wronly _ small shown) rfl
  | rdScom =>
    rw [entry] at length
    obtain ⟨name,chip,scom,vector⟩ := List.length_eq_three.mp length
    have register : c.register = some (.scom (UInt32.ofNat (toUnsigned (toInt (strtolLong b 0 chip.text).1)))
        (strtoull 0 scom.text).1) := by
      simp [Issued.register,Issued.text,entry,vector]
    obtain ⟨shown,plain⟩ := reached _ register
    refine serves_read register (by rw [entry]; decide) ?_
    rw [vector]
    exact quad_read b s _ (scom_at _ (strtoul_lt 64 0 _) plain) rfl (scom_opens b s .rdonly _ plain shown) rfl
  | wrScom =>
    rw [entry] at length
    obtain ⟨name,chip,scom,data,vector⟩ := length_four length
    have register : c.register = some (.scom (UInt32.ofNat (toUnsigned (toInt (strtolLong b 0 chip.text).1)))
        (strtoull 0 scom.text).1) := by
      simp [Issued.register,Issued.text,entry,vector]
    have setting : c.setting = (strtoull 0 data.text).1 := by simp [Issued.setting,Issued.text,entry,vector]
    obtain ⟨shown,plain⟩ := reached _ register
    rw [entry] at silent
    refine serves_write register (by rw [entry]; decide) (silent (by decide)) ?_
    rw [vector,setting,← strtoull_full data.text]
    exact quad_write b s _ (scom_at _ (strtoul_lt 64 0 _) plain) rfl _ (scom_opens b s .wronly _ plain shown) rfl
  | cmosRd =>
    rw [entry] at length
    obtain ⟨name,index,vector⟩ := List.length_eq_two.mp length
    have index_ : c.text 1 = index.text := by simp [Issued.text,vector]
    rw [vector]
    by_cases clock : (strtoulLong b 0 index.text).1 < nvramOffset
    · refine serves_refused (by simp [Issued.register,entry,index_,clock]) ?_
      simp only [Entry.call,cmosRd,argAt,List.getElem?_cons_succ,List.getElem?_cons_zero,Prog.done_bind,if_pos clock]
      exact ⟨_,rfl,rfl⟩
    · have register : c.register = some (.nvram ((strtoulLong b 0 index.text).1 - nvramOffset)) := by
        simp [Issued.register,entry,index_,clock]
      obtain ⟨shown,small⟩ := reached _ register
      exact serves_read register (by rw [entry]; decide) (cmosRd_exec b s name index c.info clock small shown)
  | cmosWr =>
    rw [entry] at length silent
    obtain ⟨name,index,data,vector⟩ := List.length_eq_three.mp length
    have index_ : c.text 1 = index.text := by simp [Issued.text,vector]
    have setting : c.setting = (strtoulLong b 0 data.text).1 % 256 ^ 1 := by simp [Issued.setting,Issued.text,entry,vector]
    have quiet := silent (by decide)
    rw [vector] at quiet ⊢
    by_cases clock : (strtoulLong b 0 index.text).1 < nvramOffset
    · refine serves_refused (by simp [Issued.register,entry,index_,clock]) ?_
      simp only [Entry.call,cmosWr,argAt,List.getElem?_cons_succ,List.getElem?_cons_zero,Prog.done_bind,if_pos clock]
      exact ⟨_,rfl,rfl⟩
    · have register : c.register = some (.nvram ((strtoulLong b 0 index.text).1 - nvramOffset)) := by
        simp [Issued.register,entry,index_,clock]
      obtain ⟨shown,small⟩ := reached _ register
      refine serves_write register (by rw [entry]; decide) quiet ?_
      rw [setting]
      exact cmosWr_exec b s name index data c.info clock small shown
  | _ =>
    have accesses := command.accesses
    rw [entry] at accesses
    simp [registerReaders,registerWriters] at accesses

end Command

-- Over a whole session of rdmsr, wrmsr, getscom, putscom, cmos_read and
-- cmos_write: every register holds what was written to it last, no command
-- reaches another register, and a byte of the clock is refused.
theorem register_session (b : Build) (order : List Group) (perm : order.Perm (groups b)) (fuel : Nat)
    (enough : order.length ≤ fuel) (s : RegisterFiles) (commands : List (Issued b))
    (serves : ∀ c ∈ commands, RegisterCommand s c) :
    let store := fun done : List (Issued b) => (Patch.last (done.map Issued.sets)).apply s.held
    let state := fun done : List (Issued b) => Prog.session (RegisterFiles.kernel b.order) (done.map (Issued.run order fuel)) s
    (state commands).held = store commands ∧
    ∀ before c later, commands = before ++ c :: later →
      let run := (c.run order fuel).exec (RegisterFiles.kernel b.order) (state before)
      ∃ rc, run.outcome = .ok rc ∧ c.answers (store before) (printed run.trace) rc := by
  intro store state
  have later (c : Issued b) (member : c ∈ commands) (s' : RegisterFiles) (same : s'.present = s.present) : RegisterCommand s' c := by
    obtain ⟨accesses,admitted,reached⟩ := serves c member
    refine ⟨accesses,admitted,?_⟩
    rw [same]
    exact reached
  have reached (done : List (Issued b)) (sub : done ⊆ commands) :
      (state done).present = s.present ∧ (state done).held = store done := by
    refine Prog.session_store (fun s' => s'.present = s.present) RegisterFiles.held ?_ s rfl
    intro c member s' same
    rw [c.run_eq perm enough]
    obtain ⟨rc,_,present,held,_⟩ := registerCommand_effect fuel (later c (sub member) s' same)
    exact ⟨present.trans same,held⟩
  refine ⟨(reached commands (List.Subset.refl _)).2,?_⟩
  intro before c rest split run
  obtain ⟨same,held⟩ := reached before (by rw [split]; exact List.subset_append_left _ _)
  obtain ⟨rc,returned,_,_,answers⟩ := registerCommand_effect fuel (later c (by rw [split]; simp) (state before) same)
  rw [← c.run_eq perm enough,held] at answers
  rw [← c.run_eq perm enough] at returned
  exact ⟨rc,returned,answers⟩

theorem register_session_cpus :
    let s : RegisterFiles := ⟨fun _ => true,fun _ _ => 0,3,fun _ => none⟩
    let program := fun args : List String => runCommand .x86_64 (registerAll (groups .x86_64)) 9 (args.map Arg.of)
    let state := Prog.session (RegisterFiles.kernel .little) [program ["iotools","wrmsr","0","0x1b","0xfee00900"],
      program ["iotools","wrmsr","1","0x1b","7"],program ["iotools","cmos_write","14","0x1ff"],
      program ["iotools","cmos_write","13","1"]] s
    state.held (.msr 1 0x1b) = 7 ∧ state.held (.nvram 0) = 0xff ∧
    printed ((program ["iotools","rdmsr","0","0x1b"]).exec (RegisterFiles.kernel .little) state).trace =
      "0x00000000fee00900\n".toList := by
  intro s program state
  let first : Issued .x86_64 := ⟨["iotools","wrmsr","0","0x1b","0xfee00900"].map Arg.of,
    makeCmdWithParams "wrmsr" .wrMsr .null (fixedArgs 4 "<cpu> <msr> <data>" 0),
    ["wrmsr","0","0x1b","0xfee00900"].map Arg.of,by decide +kernel⟩
  let second : Issued .x86_64 := ⟨["iotools","wrmsr","1","0x1b","7"].map Arg.of,
    makeCmdWithParams "wrmsr" .wrMsr .null (fixedArgs 4 "<cpu> <msr> <data>" 0),
    ["wrmsr","1","0x1b","7"].map Arg.of,by decide +kernel⟩
  let byte : Issued .x86_64 := ⟨["iotools","cmos_write","14","0x1ff"].map Arg.of,
    makeCmdWithParams "cmos_write" .cmosWr .null (fixedArgs 3 "<index> <data>" 0),
    ["cmos_write","14","0x1ff"].map Arg.of,by decide +kernel⟩
  let clock : Issued .x86_64 := ⟨["iotools","cmos_write","13","1"].map Arg.of,
    makeCmdWithParams "cmos_write" .cmosWr .null (fixedArgs 3 "<index> <data>" 0),
    ["cmos_write","13","1"].map Arg.of,by decide +kernel⟩
  let read : Issued .x86_64 := ⟨["iotools","rdmsr","0","0x1b"].map Arg.of,
    makeCmdWithParams "rdmsr" .rdMsr .null (fixedArgs 3 "<cpu> <msr>" 0),
    ["rdmsr","0","0x1b"].map Arg.of,by decide +kernel⟩
  have reached (c : Issued .x86_64) (r : Option Register) (named : c.register = r) (placed : ∀ r' ∈ r, r'.Placed .x86_64) :
      ∀ r, c.register = some r → s.present r.path = true ∧ r.Placed .x86_64 := by
    intro r' found
    exact ⟨rfl,placed r' (named.symm.trans found)⟩
  have serves : ∀ c ∈ [first,second,byte,clock,read], RegisterCommand s c := by
    intro c member
    simp only [List.mem_cons,List.not_mem_nil,or_false] at member
    rcases member with rfl | rfl | rfl | rfl | rfl
    · exact ⟨by decide,by decide,reached first (some (.msr 0 0x1b)) (by decide +kernel) (by simp [Register.Placed])⟩
    · exact ⟨by decide,by decide,reached second (some (.msr 1 0x1b)) (by decide +kernel) (by simp [Register.Placed])⟩
    · exact ⟨by decide,by decide,reached byte (some (.nvram 0)) (by decide +kernel) (by simp [Register.Placed])⟩
    · exact ⟨by decide,by decide,reached clock none (by decide +kernel) (by simp)⟩
    · exact ⟨by decide,by decide,reached read (some (.msr 0 0x1b)) (by decide +kernel) (by simp [Register.Placed])⟩
  obtain ⟨store,tells⟩ := register_session .x86_64 (groups .x86_64) (.refl _) 9 (by decide) s
    [first,second,byte,clock,read] serves
  obtain ⟨rc,_,answers⟩ := tells [first,second,byte,clock] read [] rfl
  unfold Issued.answers at answers
  rw [show read.register = some (.msr 0 0x1b) by decide +kernel] at answers
  exact ⟨by decide +kernel,by decide +kernel,answers.2.trans (by decide +kernel)⟩

end Iotools
