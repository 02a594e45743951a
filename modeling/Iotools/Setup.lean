import Iotools.Tables

namespace Iotools
open Numeral Interaction

-- The calls around a transfer: they open, position, map and close a device,
-- raise the privilege level, or report a failure.
def Setup (e : Event Sys) : Prop :=
  match e.call with
  | .open .. | .close _ | .lseek .. | .ioctlSlave .. | .getpagesize | .mmap .. | .munmap .. | .iopl _ | .strerror => True
  | .stderr message => message.isDefaultBranch = false
  | _ => False

abbrev SetsUp (program : Action α) : Prop := program.Safe Setup (fun _ => False)

@[simp] theorem setup_open (path : Text) (flags : OpenFlags) (fd : Int) : Setup ⟨.open path flags,fd⟩ := trivial
@[simp] theorem setup_close (fd : Int) (reply : Unit) : Setup ⟨.close fd,reply⟩ := trivial
@[simp] theorem setup_lseek (fd offset reply : Int) : Setup ⟨.lseek fd offset,reply⟩ := trivial
@[simp] theorem setup_slave (fd : Int) (force : Bool) (address : UInt8) (result : Int) :
    Setup ⟨.ioctlSlave fd force address,result⟩ := trivial
@[simp] theorem setup_getpagesize (page : PageSize) : Setup ⟨.getpagesize,page⟩ := trivial
@[simp] theorem setup_mmap (length : Nat) (prot : Prot) (fd : Int) (base : Nat) (mem : Option Nat) :
    Setup ⟨.mmap length prot fd base,mem⟩ := trivial
@[simp] theorem setup_munmap (mem length : Nat) (reply : Unit) : Setup ⟨.munmap mem length,reply⟩ := trivial
@[simp] theorem setup_iopl (level : Nat) (reply : Int) : Setup ⟨.iopl level,reply⟩ := trivial
@[simp] theorem setup_strerror (err : Text) : Setup ⟨.strerror,err⟩ := trivial
@[simp] theorem setup_stderr (message : Message) (reply : Unit) :
    Setup ⟨.stderr message,reply⟩ ↔ message.isDefaultBranch = false := Iff.rfl

theorem complain_setsUp {message : Text → Message} (plain : ∀ err, (message err).isDefaultBranch = false) :
    SetsUp (complain message) := by
  simp [complain,plain]

theorem complain_return {message : Text → Message} (plain : ∀ err, (message err).isDefaultBranch = false) (value : α) :
    SetsUp (complain message >>= fun _ => .done value) := (complain_setsUp plain).bind (by simp)

theorem complain_close {message : Text → Message} (plain : ∀ err, (message err).isDefaultBranch = false) (fd : Int)
    (value : α) : SetsUp (complain message >>= fun _ => (.call (.close fd) fun _ => .done value : Action α)) :=
  (complain_setsUp plain).bind (by simp)

theorem openMapping_setsUp (addr : Nat) (flags : OpenFlags) (bytes : Nat) : SetsUp (openMapping addr flags bytes) := by
  simp only [openMapping,Prog.call_bind,Prog.done_bind,Prog.safe_call,setup_getpagesize,setup_open,true_and]
  intro page fd
  split
  · exact complain_return (fun _ => rfl) _
  · simp only [Prog.safe_call,setup_mmap,true_and]
    intro mem
    cases mem with
    | none => exact complain_close (fun _ => rfl) _ _
    | some mem => simp

-- The part of mmio_dump behind its arguments.
def dumpRange (b : Build) (sync : Bool) (addr count : Nat) (writeBinary : Bool) : Action Int := do
  match ← openMapping addr ⟨.rdonly,sync⟩ count with
  | none => return -1
  | some mapping => do
    if writeBinary then do
      let buffer ← ask (.load mapping.mem mapping.off count)
      let ret ← ask (.fwrite (List.ofFn buffer))
      closeMapping mapping
      return if ret = 1 then 0 else -1
    else do
      let fieldsOnLine ← dumpLoop b mapping.mem count mapping.off addr 0
      if fieldsOnLine ≠ 0 then ask (.stdout "\n".toList) else pure ()
      closeMapping mapping
      return 0

theorem mmioDump_eq (b : Build) (argv : List Arg) (held : info.privdata = .mmapFileFlags sync) :
    mmioDump b argv info = (do
      let addr ← argAt argv 1
      let count ← argAt argv 2
      if argv.length = 4 then do
        if (← argAt argv 3) = "-b".toList then dumpRange b sync (strtoull 0 addr).1 (strtoulLong b 0 count).1 true
        else return -1
      else dumpRange b sync (strtoull 0 addr).1 (strtoulLong b 0 count).1 false) := by
  simp only [mmioDump,mmapFlagsOf,held]
  rfl

theorem dumpLoop_safe {good : Event Sys → Prop} {fine : Fault → Prop} (b : Build) (mem : Nat)
    (field : ∀ position label fields size, (dumpField b mem position label fields size).Safe good fine)
    (left : Nat) (position : Int) (label fields : Nat) : (dumpLoop b mem left position label fields).Safe good fine := by
  fun_induction dumpLoop b mem left position label fields with
  | case1 left position label fields ih => exact (field position label fields 4).bind (fun _ => ih)
  | case2 left position label fields _ ih => exact (field position label fields 1).bind (fun _ => ih)
  | case3 => trivial

theorem closeMapping_setsUp (mapping : MmapInfo) : SetsUp (closeMapping mapping) := by
  simp [closeMapping]

theorem warnNotAtomic_setsUp (b : Build) : SetsUp (warnNotAtomic b) := by
  unfold warnNotAtomic
  split
  · simp [Message.isDefaultBranch]
  · simp

theorem openDevice_setsUp (segment bus device function : Nat) (mode : AccessMode) :
    SetsUp (openDevice segment bus device function mode) := by
  have report (fd : Int) : SetsUp (do
      if fd < 0 then complain (.openPci segment bus device function) else pure ()
      return fd : Action Int) := by
    split
    · exact complain_return (fun _ => rfl) _
    · simp
  simp only [openDevice,Prog.call_bind,Prog.done_bind,Prog.safe_call,setup_open,true_and]
  intro sysfs
  split
  · simp only [Prog.safe_call,setup_open,true_and]
    exact report
  · exact report sysfs

-- Open a device file and seek, as the three register files do. What they take
-- for a failed lseek differs.
abbrev openAndSeek (path : Text) (flags : OpenFlags) (offset : Int) (failed : Int → Prop) [DecidablePred failed]
    (opening seeking : Text → Message) : Action (Option Int) := do
  let fd ← ask (.open path flags)
  if fd < 0 then do
    complain opening
    return none
  else do
    if failed (← ask (.lseek fd offset)) then do
      complain seeking
      ask (.close fd)
      return none
    else return some fd

theorem openAndSeek_setsUp (path : Text) (flags : OpenFlags) (offset : Int) (failed : Int → Prop) [DecidablePred failed]
    {opening seeking : Text → Message} (first : ∀ err, (opening err).isDefaultBranch = false)
    (second : ∀ err, (seeking err).isDefaultBranch = false) :
    SetsUp (openAndSeek path flags offset failed opening seeking) := by
  simp only [Prog.call_bind,Prog.done_bind,Prog.safe_call,setup_open,true_and]
  intro fd
  split
  · exact complain_return first _
  · simp only [Prog.safe_call,setup_lseek,true_and]
    intro position
    split
    · exact complain_close second _ _
    · simp

theorem msrOpenAndSeek_setsUp (cpu : Int) (msr : Nat) (mode : AccessMode) : SetsUp (msrOpenAndSeek cpu msr mode) :=
  openAndSeek_setsUp _ _ _ (· = -1) (fun _ => rfl) (fun _ => rfl)

theorem cmosOpenAndSeek_setsUp (b : Build) (index : Nat) (mode : AccessMode) : SetsUp (cmosOpenAndSeek b index mode) :=
  openAndSeek_setsUp _ _ _ (· < 0) (fun _ => rfl) (fun _ => rfl)

theorem scomOpenAndSeek_setsUp (chip : Int) (scom : Nat) (mode : AccessMode) : SetsUp (scomOpenAndSeek chip scom mode) :=
  openAndSeek_setsUp _ _ _ (· = -1) (fun _ => rfl) (fun _ => rfl)

theorem openI2cSlave_setsUp (i2cBus slaveAddress : UInt8) : SetsUp (openI2cSlave i2cBus slaveAddress) := by
  simp only [openI2cSlave,Prog.call_bind,Prog.done_bind,Prog.safe_call,setup_open,true_and]
  intro fd
  split
  · exact complain_return (fun _ => rfl) _
  · simp only [Prog.safe_call,setup_slave,true_and]
    intro result
    split
    · exact complain_close (fun _ => rfl) _ _
    · exact Prog.safe_done _

theorem forceSlave_setsUp (params : SmbusOpParams) : SetsUp (forceSlave params) := by
  simp only [forceSlave,Prog.call_bind,Prog.done_bind,Prog.safe_call,setup_slave,true_and]
  intro result
  split
  · exact complain_return (fun _ => rfl) _
  · simp

theorem checkPrereqs_setup (b : Build) (argv : List Arg) (params : Option PrereqParams) :
    (checkPrereqs b argv params).Safe Setup (fun _ => True) := by
  cases params with
  | none => simp [checkPrereqs]
  | some p =>
    simp only [checkPrereqs]
    split
    · unfold argAt
      cases argv[0]? <;> simp [Message.isDefaultBranch]
    · split
      · simp only [Prog.call_bind,Prog.done_bind,Prog.safe_call,setup_iopl,true_and]
        intro level
        split <;> simp [Message.isDefaultBranch]
      · simp

end Iotools
