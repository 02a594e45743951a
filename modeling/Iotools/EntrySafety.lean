import Iotools.Setup
import Iotools.SmbusRun

namespace Iotools
open Bytes Numeral Interaction

def Expected (e : Event Sys) : Prop := ∀ message, e.call = .stderr message → message.isDefaultBranch = false

-- Faults that the tables and the argument counts do not rule out.
def Fault.foreign : Fault → Prop
  | .argv _ | .nullPrivdata | .wrongPrivdata => False
  | _ => True

abbrev Sound (program : Action α) : Prop := program.Safe Expected Fault.foreign

@[simp] theorem expected_iff (c : Call) (answer : c.Answer) :
    Expected (⟨c,answer⟩ : Event Sys) ↔ ∀ message, c = .stderr message → message.isDefaultBranch = false := Iff.rfl

theorem Setup.expected (setup : Setup e) : Expected e := by
  intro message same
  simpa [Setup,same] using setup

theorem SetsUp.sound {program : Action α} (setsUp : SetsUp program) : Sound program :=
  setsUp.mono (fun _ => Setup.expected) (fun _ => False.elim)

theorem argAt_sound (inside : index < argv.length) : Sound (argAt argv index) := by
  rw [argAt_of_lt argv index inside]
  trivial

theorem complain_sound {message : Text → Message} (plain : ∀ err, (message err).isDefaultBranch = false) :
    Sound (complain message) := (complain_setsUp plain).sound

theorem call_sound {c : Call} (plain : ∀ message, c ≠ .stderr message) {next : c.Answer → Action α}
    (rest : ∀ answer, Sound (next answer)) : Sound (Prog.call c next : Action α) := by
  intro answer
  exact ⟨fun message same => absurd same (plain message),rest answer⟩

def Stop.sound : Stop → Prop
  | .complain message => message.isDefaultBranch = false
  | .fault reason => reason.foreign

def Parses (parsed : Parse α) : Prop := ∀ stop, parsed = .error stop → stop.sound

theorem parses_ok (value : α) : Parses (.ok value) := by
  rintro stop ⟨⟩

theorem parses_error {stop : Stop} (sound : stop.sound) : Parses (.error stop : Parse α) := by
  rintro _ ⟨⟩
  exact sound

theorem Parses.bind {parsed : Parse α} {next : α → Parse β} (first : Parses parsed) (rest : ∀ value, Parses (next value)) :
    Parses (parsed >>= next) := by
  cases parsed with
  | ok value => exact rest value
  | error stop => exact parses_error (first stop rfl)

theorem report_sound {parsed : Parse α} (parses : Parses parsed) : Sound (report parsed) := by
  match parsed with
  | .ok value => trivial
  | .error (.complain message) =>
    have plain : message.isDefaultBranch = false := parses _ rfl
    simp [report,plain]
  | .error (.fault reason) => exact parses _ rfl

section Smbus

theorem isTrailingJunk_parses (arg rest : Text) : Parses (isTrailingJunk arg rest) := by
  unfold isTrailingJunk
  split
  · exact parses_error rfl
  · exact parses_ok ()

theorem isMaxOrTrailingJunk_parses (b : Build) (arg rest : Text) (ldata : Nat) :
    Parses (isMaxOrTrailingJunk b arg rest ldata) := by
  unfold isMaxOrTrailingJunk
  split
  · exact parses_error rfl
  · exact isTrailingJunk_parses arg rest

theorem parseUint8Base_parses (b : Build) (arg : Text) (base : Nat) : Parses (parseUint8Base b arg base) := by
  refine (isMaxOrTrailingJunk_parses b _ _ _).bind (fun _ => ?_)
  split
  · exact parses_error rfl
  · exact parses_ok _

theorem parsePairs_parses (b : Build) (text : Text) (dest : Nat) (array : SmbusDtype) :
    Parses (parsePairs b text dest array) := by
  fun_induction parsePairs b text dest array with
  | case1 => exact parses_ok _
  | case2 => exact (parseUint8Base_parses b _ 16).bind (fun _ => parses_error trivial)
  | case3 dest array first second src ih =>
    refine (parseUint8Base_parses b _ 16).bind (fun byte => ?_)
    split
    · exact ih byte
    · exact parses_error trivial

theorem parseBlock_parses (b : Build) (arg : Text) (params : SmbusOpParams) : Parses (parseBlock b arg params) := by
  simp only [parseBlock]
  split
  · exact parses_error rfl
  · split
    · exact parses_error rfl
    · exact (parsePairs_parses b _ _ _).bind (fun _ => parses_ok _)

theorem parseIoWidth_parses (b : Build) (arg : Text) (params : SmbusOpParams) (size : SmbusSize) :
    Parses (parseIoWidth b arg params size) := by
  cases size with
  | quick =>
    simp only [parseIoWidth]
    refine (isMaxOrTrailingJunk_parses b _ _ _).bind (fun _ => ?_)
    split
    · exact parses_error rfl
    · exact parses_ok _
  | byte | size8 | size16 | procCall =>
    simp only [parseIoWidth]
    exact (isMaxOrTrailingJunk_parses b _ _ _).bind (fun _ => parses_ok _)
  | size32 | size64 =>
    simp only [parseIoWidth]
    exact (isTrailingJunk_parses _ _).bind (fun _ => parses_ok _)
  | block | blockProcCall | writeRead =>
    simp only [parseIoWidth]
    exact parseBlock_parses b arg _

theorem byteAt_sound (b : Build) (inside : index < argv.length) {next : Option UInt8 → Action α}
    (rest : ∀ value, Sound (next value)) :
    Sound (argAt argv index >>= fun text => report (parseUint8 b text) >>= next) :=
  (argAt_sound inside).bind (fun text => (report_sound (parseUint8Base_parses b text 0)).bind rest)

theorem openedSlave_sound (params : SmbusOpParams) (i2cBus address reg : UInt8) : Sound (do
    let fd ← openI2cSlave i2cBus address
    if fd < 0 then do
      ask (.stderr .openSlave)
      return none
    else return some {params with i2cBus := i2cBus,address := address,reg := reg,fd := fd} :
    Action (Option SmbusOpParams)) := by
  refine (openI2cSlave_setsUp i2cBus address).sound.bind (fun fd => ?_)
  split <;> simp [Message.isDefaultBranch]

theorem smbusPrologue_sound (b : Build) (params : SmbusOpParams) (op : SmbusOp)
    (long : (if op.size.hasRegister then 4 else 3) ≤ argv.length) : Sound (smbusPrologue b argv params op) := by
  have three : 3 ≤ argv.length := by
    split at long <;> omega
  refine byteAt_sound b (by omega) (fun i2cBus => ?_)
  cases i2cBus with
  | none => simp [Message.isDefaultBranch]
  | some i2cBus =>
    refine byteAt_sound b (by omega) (fun address => ?_)
    cases address with
    | none => simp [Message.isDefaultBranch]
    | some address =>
      dsimp only
      split
      case isTrue register =>
        rw [if_pos register] at long
        refine byteAt_sound b long (fun reg => ?_)
        cases reg with
        | none => simp [Message.isDefaultBranch]
        | some reg => exact openedSlave_sound params i2cBus address reg
      case isFalse => exact openedSlave_sound params i2cBus address params.reg

theorem printReadData_sound (b : Build) (size : SmbusSize) (count : Int) (data : SmbusDtype) :
    Sound (printReadData b size count data) := by
  unfold printReadData
  split <;> simp

theorem access_sound (file : Int) (readWrite command : UInt8) (size : Transaction) (data : Option I2cSmbusData)
    {next : Int × I2cSmbusData → Action α} (rest : ∀ reply, Sound (next reply)) :
    Sound (i2cSmbusAccess file readWrite command size data >>= next) := by
  intro reply
  exact ⟨by simp,rest reply⟩

theorem sent_sound (file : Int) (command : UInt8) (size : Transaction) (fill : I2cSmbusData → I2cSmbusData) :
    Sound (do
      let data ← ask (.stale 35)
      let reply ← i2cSmbusAccess file i2cSmbusWrite command size (some (fill data))
      return reply.1 : Action Int) := by
  intro data
  exact ⟨by simp,access_sound _ _ _ _ _ (by simp)⟩

theorem fetched_sound (file : Int) (readWrite command : UInt8) (size : Transaction) (fill : I2cSmbusData → I2cSmbusData)
    (value : Int × I2cSmbusData → Int) :
    Sound (do
      let data ← ask (.stale 35)
      let reply ← i2cSmbusAccess file readWrite command size (some (fill data))
      if reply.1 ≠ 0 then return -1 else return value reply : Action Int) := by
  intro data
  refine ⟨by simp,access_sound _ _ _ _ _ (fun reply => ?_)⟩
  split <;> simp

theorem copied_sound (file : Int) (readWrite command : UInt8) (size : Transaction) (fill : I2cSmbusData → I2cSmbusData)
    (values : SmbusDtype) :
    Sound (do
      let data ← ask (.stale 35)
      let reply ← i2cSmbusAccess file readWrite command size (some (fill data))
      if reply.1 ≠ 0 then return (-1,values)
      else do
        let copied ← copyBlock reply.2 values
        return ((reply.2 0).toNat,copied) : Action (Int × SmbusDtype)) := by
  have copies (data : I2cSmbusData) : Sound (copyBlock data values) := by
    unfold copyBlock
    split <;> trivial
  intro data
  refine ⟨by simp,access_sound _ _ _ _ _ (fun reply => ?_)⟩
  split
  · simp
  · exact (copies reply.2).bind (by simp)

theorem readTransfer_sound (b : Build) (params : SmbusOpParams) (readable : size.readable = true)
    {next : Option (Int × SmbusDtype) → Action α} (rest : ∀ reply, Sound (next (some reply))) :
    Sound (readTransfer b params size >>= next) := by
  cases size with
  | size8 | size16 | byte =>
    simp only [readTransfer,Prog.bind_assoc,Prog.pure_eq,Prog.done_bind]
    exact (fetched_sound params.fd _ _ _ id _).bind (fun _ => rest _)
  | size32 =>
    simp only [readTransfer,Prog.bind_assoc,Prog.pure_eq,Prog.done_bind]
    exact (copied_sound params.fd _ _ _ (·.patch 0 [4]) _).bind (fun _ => rest _)
  | size64 =>
    simp only [readTransfer,Prog.bind_assoc,Prog.pure_eq,Prog.done_bind]
    exact (copied_sound params.fd _ _ _ (·.patch 0 [8]) _).bind (fun _ => rest _)
  | block =>
    simp only [readTransfer,Prog.bind_assoc,Prog.pure_eq,Prog.done_bind]
    exact (copied_sound params.fd _ _ _ id _).bind (fun _ => rest _)
  | quick | procCall | blockProcCall | writeRead => cases readable

theorem writeTransfer_sound (b : Build) (params : SmbusOpParams) (writable : size.writable = true)
    {next : Option Int → Action α} (rest : ∀ result, Sound (next (some result))) :
    Sound (writeTransfer b params size >>= next) := by
  cases size with
  | size8 | size16 | size32 | size64 | block =>
    simp only [writeTransfer,Prog.bind_assoc,Prog.pure_eq,Prog.done_bind]
    exact (sent_sound params.fd params.reg _ _).bind (fun _ => rest _)
  | byte | quick =>
    simp only [writeTransfer,Prog.bind_assoc,Prog.pure_eq,Prog.done_bind]
    exact Prog.Safe.bind (access_sound _ _ _ _ _ (fun reply => Prog.safe_done reply.1)) (fun _ => rest _)
  | procCall | blockProcCall | writeRead => cases writable

theorem smbusReadOp_sound (b : Build) (params : SmbusOpParams) (op : SmbusOp) (readable : op.size.readable = true) :
    Sound (smbusReadOp b params op) := by
  refine readTransfer_sound b params readable (fun reply => ?_)
  dsimp only
  split
  · split
    · exact (complain_return (fun _ => rfl) _).sound
    · exact (complain_return (fun _ => rfl) _).sound
  · exact (printReadData_sound b _ _ _).bind (fun _ => trivial)

theorem smbusWriteOp_sound (b : Build) (params : SmbusOpParams) (op : SmbusOp) (writable : op.size.writable = true) :
    Sound (smbusWriteOp b params op) := by
  refine (forceSlave_setsUp params).sound.bind (fun forced => ?_)
  split
  · refine writeTransfer_sound b params writable (fun result => ?_)
    dsimp only
    split
    · split
      · exact (complain_return (fun _ => rfl) _).sound
      · exact (complain_return (fun _ => rfl) _).sound
    · trivial
  · trivial

theorem smbusProcessCallOp_sound (b : Build) (params : SmbusOpParams) : Sound (smbusProcessCallOp b params) := by
  refine (forceSlave_setsUp params).sound.bind (fun forced => ?_)
  split
  · refine (fetched_sound params.fd _ _ _ _ _).bind (fun result => ?_)
    split
    · exact (complain_return (fun _ => rfl) _).sound
    · exact (printReadData_sound b _ _ _).bind (fun _ => trivial)
  · trivial

theorem smbusBlockProcessCallOp_sound (b : Build) (params : SmbusOpParams) :
    Sound (smbusBlockProcessCallOp b params) := by
  refine (forceSlave_setsUp params).sound.bind (fun forced => ?_)
  split
  · refine (copied_sound params.fd _ _ _ _ _).bind (fun reply => ?_)
    split
    · exact (complain_return (fun _ => rfl) _).sound
    · exact (printReadData_sound b _ _ _).bind (fun _ => trivial)
  · trivial

theorem smbusWritereadOp_sound (b : Build) (params : SmbusOpParams) : Sound (smbusWritereadOp b params) := by
  simp only [smbusWritereadOp,Prog.call_bind,Prog.done_bind]
  refine call_sound (by simp) (fun reply => ?_)
  split
  · exact (complain_return (fun _ => rfl) _).sound
  · exact (printReadData_sound b _ _ _).bind (fun _ => trivial)

theorem performOp_sound (b : Build) (params : SmbusOpParams) (op : SmbusOp) (sound : op.sound = true) :
    Sound (performOp b params op) := by
  unfold performOp
  cases performed : op.performOp with
  | read => exact smbusReadOp_sound b params op (by simpa [SmbusOp.sound,performed] using sound)
  | write => exact smbusWriteOp_sound b params op (by simpa [SmbusOp.sound,performed] using sound)
  | processCall => exact smbusProcessCallOp_sound b params
  | blockProcessCall => exact smbusBlockProcessCallOp_sound b params
  | writeread => exact smbusWritereadOp_sound b params

theorem register_fits {argv : List Arg} (op : SmbusOp) (four : 4 ≤ argv.length) :
    (if op.size.hasRegister then 4 else 3) ≤ argv.length := by
  split <;> omega

theorem operandAt_sound (b : Build) (params : SmbusOpParams) (op : SmbusOp) (inside : index < argv.length)
    {next : Option SmbusOpParams → Action α} (refused : Sound (next none)) (rest : ∀ params, Sound (next (some params))) :
    Sound (argAt argv index >>= fun text => report (parseIoWidth b text params op.size) >>= next) := by
  refine (argAt_sound inside).bind (fun text => (report_sound (parseIoWidth_parses b text params op.size)).bind ?_)
  intro parsed
  cases parsed with
  | none => exact refused
  | some params => exact rest params

theorem invalidValue_sound (inside : index < argv.length) (params : SmbusOpParams) :
    Sound (do
      ask (.stderr (.invalidValue (← argAt argv 0) (← argAt argv index)))
      ask (.close params.fd)
      return -1 : Action Int) := by
  refine (argAt_sound (by omega)).bind (fun name => (argAt_sound inside).bind (fun value => ?_))
  simp [Message.isDefaultBranch]

variable {op : SmbusOp} {info : CmdInfo} (sound : op.sound = true)
include sound

theorem performed_sound (b : Build) (params : SmbusOpParams) :
    Sound (performOp b params op >>= fun ret => (.call (.close params.fd) fun _ => .done ret : Action Int)) :=
  (performOp_sound b params op sound).bind (by simp)

theorem operandThenOp_sound (b : Build) (params : SmbusOpParams) (long : index < argv.length) :
    Sound (operandThenOp b argv params op index) :=
  operandAt_sound b params op long (invalidValue_sound long params) (fun params => performed_sound sound b params)

variable (held : info.privdata = .smbusOp op)
include held

theorem smbusRead_sound (b : Build) (long : (if op.size.hasRegister then 4 else 3) ≤ argv.length) :
    Sound (smbusRead b argv info) := by
  simp only [smbusRead,smbusOpOf,held,Prog.call_bind,Prog.done_bind,Prog.pure_eq]
  refine call_sound (by simp) (fun params => (smbusPrologue_sound b params op long).bind (fun opened => ?_))
  cases opened with
  | none => trivial
  | some params => exact performed_sound sound b params

theorem smbusWrite_sound (b : Build)
    (long : (if op.size = .byte ∨ op.size = .quick then 4 else 5) ≤ argv.length) : Sound (smbusWrite b argv info) := by
  have four : 4 ≤ argv.length := by
    split at long <;> omega
  have operand : (if op.size = .byte ∨ op.size = .quick then 3 else 4) < argv.length := by
    split at long <;> split <;> omega
  simp only [smbusWrite,smbusOpOf,held,Prog.call_bind,Prog.done_bind,Prog.pure_eq]
  refine call_sound (by simp) (fun params => (smbusPrologue_sound b params op (register_fits op four)).bind ?_)
  intro opened
  cases opened with
  | none => trivial
  | some params => exact operandThenOp_sound sound b params operand

theorem smbusProcessCall_sound (b : Build) (long : 5 ≤ argv.length) : Sound (smbusProcessCall b argv info) := by
  simp only [smbusProcessCall,smbusOpOf,held,Prog.call_bind,Prog.done_bind,Prog.pure_eq]
  refine call_sound (by simp) (fun params => (smbusPrologue_sound b params op (register_fits op (by omega))).bind ?_)
  intro opened
  cases opened with
  | none => trivial
  | some params => exact operandThenOp_sound sound b params (by omega)

theorem smbusWriteread_sound (b : Build) (long : 5 ≤ argv.length) : Sound (smbusWriteread b argv info) := by
  simp only [smbusWriteread,smbusOpOf,held,Prog.done_bind,Prog.pure_eq]
  refine (smbusPrologue_sound b .zero op (register_fits op (by omega))).bind (fun opened => ?_)
  cases opened with
  | none => trivial
  | some params =>
    refine operandAt_sound b params op (by omega) (invalidValue_sound (by omega) params) (fun params => ?_)
    refine byteAt_sound b (by omega) (fun readCount => ?_)
    cases readCount with
    | none =>
      refine (argAt_sound (by omega)).bind (fun count => ?_)
      simp [Message.isDefaultBranch]
    | some readCount =>
      dsimp only
      split
      · refine (argAt_sound (by omega)).bind (fun count => ?_)
        simp [Message.isDefaultBranch]
      · exact performed_sound sound b {params with readCount := readCount}

end Smbus

theorem mmioDoRead_sound (b : Build) (mapping : MmapInfo) (size : Nat) : Sound (mmioDoRead b mapping size) := by
  simp [mmioDoRead]

theorem mmioDoWrite_sound (b : Build) (mapping : MmapInfo) (size ldata : Nat) :
    Sound (mmioDoWrite b mapping size ldata) := by
  simp [mmioDoWrite]

theorem closed_sound {access : Action Int} (sound : Sound access) (mapping : MmapInfo) :
    Sound (access >>= fun ret => closeMapping mapping >>= fun _ => .done ret) :=
  sound.bind (fun _ => (closeMapping_setsUp mapping).sound.bind (by simp))

theorem mmioReadX_sound (b : Build) (long : 2 ≤ argv.length) (held : info.privdata = .mmapFileFlags sync)
    (sized : info.sizedata ∈ [some 8,some 16,some 32,some 64]) : Sound (mmioReadX b argv info) := by
  simp only [mmioReadX,mmapFlagsOf,held,Prog.pure_eq,Prog.done_bind]
  refine (argAt_sound (by omega)).bind (fun addr => (openMapping_setsUp _ _ _).sound.bind (fun opened => ?_))
  cases opened with
  | none => trivial
  | some mapping =>
    simp only [List.mem_cons,List.not_mem_nil,or_false] at sized
    rcases sized with size | size | size | size <;> simp only [getCommandSize,size]
    · exact closed_sound (mmioDoRead_sound b mapping 1) mapping
    · exact closed_sound (mmioDoRead_sound b mapping 2) mapping
    · exact closed_sound (mmioDoRead_sound b mapping 4) mapping
    · exact (warnNotAtomic_setsUp b).sound.bind (fun _ => closed_sound (mmioDoRead_sound b mapping 8) mapping)

theorem mmioWriteX_sound (b : Build) (long : 3 ≤ argv.length)
    (sized : info.sizedata ∈ [some 8,some 16,some 32,some 64]) : Sound (mmioWriteX b argv info) := by
  refine (argAt_sound (by omega)).bind (fun addr => (argAt_sound (by omega)).bind (fun value => ?_))
  refine (openMapping_setsUp _ _ _).sound.bind (fun opened => ?_)
  cases opened with
  | none => trivial
  | some mapping =>
    simp only [List.mem_cons,List.not_mem_nil,or_false] at sized
    rcases sized with size | size | size | size <;> simp only [getCommandSize,size]
    · exact closed_sound (mmioDoWrite_sound b mapping 1 _) mapping
    · exact closed_sound (mmioDoWrite_sound b mapping 2 _) mapping
    · exact closed_sound (mmioDoWrite_sound b mapping 4 _) mapping
    · exact (warnNotAtomic_setsUp b).sound.bind (fun _ => closed_sound (mmioDoWrite_sound b mapping 8 _) mapping)

theorem dumpField_sound (b : Build) (mem : Nat) (position : Int) (label fields size : Nat) :
    Sound (dumpField b mem position label fields size) := by
  unfold dumpField
  by_cases first : fields = 0 <;> by_cases last : (fields + 1) % 4 = 0 <;> simp [first,last]

theorem dumpRange_sound (b : Build) (sync : Bool) (addr count : Nat) (writeBinary : Bool) :
    Sound (dumpRange b sync addr count writeBinary) := by
  refine (openMapping_setsUp _ _ _).sound.bind (fun opened => ?_)
  cases opened with
  | none => trivial
  | some mapping =>
    have close (ret : Int) : Sound (closeMapping mapping >>= fun _ => .done ret) :=
      (closeMapping_setsUp mapping).sound.bind (by simp)
    cases writeBinary with
    | true =>
      exact call_sound (by simp) (fun buffer => call_sound (by simp) (fun written => close _))
    | false =>
      refine (dumpLoop_safe b mapping.mem (dumpField_sound b mapping.mem) _ _ _ _).bind (fun fields => ?_)
      split
      · exact call_sound (by simp) (fun _ => close 0)
      · exact close 0

theorem mmioDump_sound (b : Build) (long : 3 ≤ argv.length) (held : info.privdata = .mmapFileFlags sync) :
    Sound (mmioDump b argv info) := by
  rw [mmioDump_eq b argv held]
  refine (argAt_sound (by omega)).bind (fun addr => (argAt_sound (by omega)).bind (fun count => ?_))
  split
  · refine (argAt_sound (by omega)).bind (fun option => ?_)
    split
    · exact dumpRange_sound b sync _ _ true
    · trivial
  · exact dumpRange_sound b sync _ _ false

end Iotools
