import Iotools.Descriptors
import Iotools.SmbusRun

namespace Iotools
open Bytes Numeral Interaction

-- What an opening helper leaves open for its caller.
def owned (found : Option Int) : List Descriptor := found.elim [] (fun fd => [.file fd])

abbrev Clean (program : Action α) (held : List Descriptor) : Prop := Hands program held (fun _ after => after = [])

theorem complain_clean (message : Text → Message) (value : α) :
    Clean (complain message >>= fun _ => .done value) [] :=
  (apart_complain message).then (fun _ => hands_done rfl)

theorem complain_close_clean (message : Text → Message) (fd : Int) (value : α) :
    Clean (complain message >>= fun _ => (.call (.close fd) fun _ => .done value : Action α)) [.file fd] :=
  (apart_complain message).then (fun _ => hands_close (hands_done rfl))

theorem openAndSeek_hands (path : Text) (flags : OpenFlags) (offset : Int) (failed : Int → Prop) [DecidablePred failed]
    (opening seeking : Text → Message) :
    Hands (openAndSeek path flags offset failed opening seeking) [] (fun found after => after = owned (found.map id)) := by
  simp only [Prog.call_bind,Prog.done_bind]
  apply hands_open
  · intro fd negative
    rw [if_pos negative]
    exact (apart_complain opening).then (fun _ => hands_done rfl)
  · intro fd valid
    rw [if_neg valid]
    apply hands_on (fun position => on_lseek fd offset position)
    intro position
    split
    · exact (apart_complain seeking).then (fun _ => hands_close (hands_done rfl))
    · exact hands_done rfl

theorem opened_then {opening : Action (Option β)} {file : β → Int} {next : Option β → Action Int}
    (first : Hands opening [] (fun found after => after = owned (found.map file))) (stops : next none = .done (-1))
    (goes : ∀ value, Clean (next (some value)) [.file (file value)]) : Clean (opening >>= next) [] := by
  apply first.bind
  rintro found trace _ rfl
  cases found with
  | none =>
    rw [stops]
    exact hands_done rfl
  | some value => exact goes value

theorem readQuad_clean (b : Build) (fd : Int) : Clean (readQuad b fd) [.file fd] := by
  simp only [readQuad,Prog.call_bind,Prog.done_bind]
  apply hands_on (fun answer => on_read fd 8 answer)
  intro answer
  cases answer with
  | none => exact complain_close_clean _ fd _
  | some bytes =>
    dsimp only
    split
    · exact complain_close_clean _ fd _
    · apply hands_close
      exact hands_apart (fun _ _ => rfl) (fun _ => hands_done rfl)

theorem writeQuad_clean (b : Build) (fd : Int) (data : Nat) : Clean (writeQuad b fd data) [.file fd] := by
  simp only [writeQuad,Prog.call_bind,Prog.done_bind]
  apply hands_on (fun written => on_write fd _ written)
  intro written
  split
  · exact complain_close_clean _ fd _
  · exact hands_close (hands_done rfl)

theorem rdMsr_clean (b : Build) (argv : List Arg) (info : CmdInfo) : Clean (rdMsr b argv info) [] := by
  apply (apart_argAt argv 1).then
  intro cpu
  apply (apart_argAt argv 2).then
  intro msr
  exact opened_then (openAndSeek_hands _ _ _ (· = -1) _ _) rfl (readQuad_clean b)

theorem wrMsr_clean (b : Build) (argv : List Arg) (info : CmdInfo) : Clean (wrMsr b argv info) [] := by
  apply (apart_argAt argv 1).then
  intro cpu
  apply (apart_argAt argv 2).then
  intro msr
  apply (apart_argAt argv 3).then
  intro data
  exact opened_then (openAndSeek_hands _ _ _ (· = -1) _ _) rfl (fun fd => writeQuad_clean b fd _)

theorem rdScom_clean (b : Build) (argv : List Arg) (info : CmdInfo) : Clean (rdScom b argv info) [] := by
  apply (apart_argAt argv 1).then
  intro chip
  apply (apart_argAt argv 2).then
  intro scom
  exact opened_then (openAndSeek_hands _ _ _ (· = -1) _ _) rfl (readQuad_clean b)

theorem wrScom_clean (b : Build) (argv : List Arg) (info : CmdInfo) : Clean (wrScom b argv info) [] := by
  apply (apart_argAt argv 1).then
  intro chip
  apply (apart_argAt argv 2).then
  intro scom
  apply (apart_argAt argv 3).then
  intro data
  exact opened_then (openAndSeek_hands _ _ _ (· = -1) _ _) rfl (fun fd => writeQuad_clean b fd _)

theorem cmosRd_clean (b : Build) (argv : List Arg) (info : CmdInfo) : Clean (cmosRd b argv info) [] := by
  apply (apart_argAt argv 1).then
  intro index
  dsimp only
  split
  · exact hands_apart (fun _ _ => rfl) (fun _ => hands_done rfl)
  · apply opened_then (openAndSeek_hands _ _ _ (· < 0) _ _) rfl
    intro fd
    simp only [Prog.call_bind,Prog.done_bind]
    apply hands_on (fun answer => on_read fd 1 answer)
    intro answer
    cases answer with
    | none => exact complain_close_clean _ fd _
    | some bytes =>
      dsimp only
      split
      · exact complain_close_clean _ fd _
      · apply hands_close
        exact hands_apart (fun _ _ => rfl) (fun _ => hands_done rfl)

theorem cmosWr_clean (b : Build) (argv : List Arg) (info : CmdInfo) : Clean (cmosWr b argv info) [] := by
  apply (apart_argAt argv 1).then
  intro index
  dsimp only
  split
  · exact hands_apart (fun _ _ => rfl) (fun _ => hands_done rfl)
  · apply (apart_argAt argv 2).then
    intro data
    apply opened_then (openAndSeek_hands _ _ _ (· < 0) _ _) rfl
    intro fd
    simp only [Prog.call_bind,Prog.done_bind]
    apply hands_on (fun written => on_write fd _ written)
    intro written
    split
    · exact complain_close_clean _ fd _
    · exact hands_close (hands_done rfl)

theorem cpuToPir_clean (b : Build) (cpu : Int) : Clean (cpuToPir b cpu) [] := by
  simp only [cpuToPir,Prog.call_bind,Prog.done_bind]
  apply hands_apart (fun _ _ => rfl)
  intro stale
  apply hands_open
  · intro fd negative
    rw [if_pos negative]
    exact complain_clean _ _
  · intro fd valid
    rw [if_neg valid]
    apply hands_on (fun answer => on_read fd 64 answer)
    intro answer
    cases answer with
    | none => exact complain_close_clean _ fd _
    | some bytes => exact hands_close ((apart_report _).hands [])

theorem pirToChipid_clean (pir : Nat) (chipid : Buffer 4) : Clean (pirToChipid pir chipid) [] := by
  simp only [pirToChipid,Prog.call_bind,Prog.done_bind]
  apply hands_apart (fun _ _ => rfl)
  intro found
  cases found with
  | error code => exact hands_apart (fun _ _ => rfl) (fun _ => hands_done rfl)
  | ok path =>
    apply hands_open
    · intro fd negative
      rw [if_pos negative]
      exact complain_clean _ _
    · intro fd valid
      rw [if_neg valid]
      apply hands_on (fun answer => on_read fd 4 answer)
      intro answer
      cases answer with
      | none => exact complain_close_clean _ fd _
      | some bytes => exact hands_close (hands_done rfl)

theorem clean_then {program : Action α} {next : α → Action β} (first : Clean program [])
    (rest : ∀ value, Clean (next value) []) : Clean (program >>= next) [] := by
  apply first.bind
  rintro value trace _ rfl
  exact rest value

theorem cpuToChipid_clean (b : Build) (argv : List Arg) (info : CmdInfo) : Clean (cpuToChipid b argv info) [] := by
  apply hands_apart (fun _ _ => rfl)
  intro stale
  apply (apart_argAt argv 1).then
  intro cpu
  apply clean_then (cpuToPir_clean b _)
  intro pir
  cases pir with
  | none => exact hands_done rfl
  | some pir =>
    apply clean_then (pirToChipid_clean pir stale)
    intro chipid
    cases chipid with
    | none => exact hands_done rfl
    | some chipid => exact hands_apart (fun _ _ => rfl) (fun _ => hands_done rfl)

theorem cpuToEx_clean (b : Build) (argv : List Arg) (info : CmdInfo) : Clean (cpuToEx b argv info) [] := by
  apply (apart_argAt argv 1).then
  intro cpu
  apply clean_then (cpuToPir_clean b _)
  intro pir
  cases pir with
  | none => exact hands_done rfl
  | some pir => exact hands_apart (fun _ _ => rfl) (fun _ => hands_done rfl)

-- The mapping keeps the descriptor of /dev/mem until it is closed.
theorem openMapping_hands (addr : Nat) (flags : OpenFlags) (bytes : Nat) :
    Hands (openMapping addr flags bytes) [] (fun mapping after => after = owned (mapping.map MmapInfo.fd)) := by
  simp only [openMapping,Prog.call_bind,Prog.done_bind]
  apply hands_apart (fun _ _ => rfl)
  intro page
  apply hands_open
  · intro fd negative
    rw [if_pos negative]
    exact (apart_complain _).then (fun _ => hands_done rfl)
  · intro fd valid
    rw [if_neg valid]
    apply hands_on (fun mem => on_mmap fd _ _ _ mem)
    intro mem
    cases mem with
    | none => exact (apart_complain _).then (fun _ => hands_close (hands_done rfl))
    | some mem => exact hands_done rfl

theorem closeMapping_clean (mapping : MmapInfo) (value : α) :
    Clean (closeMapping mapping >>= fun _ => .done value) [.file mapping.fd] := by
  apply hands_apart (fun _ _ => rfl)
  intro _
  exact hands_close (hands_done rfl)

theorem apart_mmioDoRead (b : Build) (mapping : MmapInfo) (size : Nat) : Apart (mmioDoRead b mapping size) :=
  fun _ => ⟨fun _ => rfl,fun _ => ⟨fun _ => rfl,trivial⟩⟩

theorem apart_mmioDoWrite (b : Build) (mapping : MmapInfo) (size ldata : Nat) : Apart (mmioDoWrite b mapping size ldata) :=
  fun _ => ⟨fun _ => rfl,trivial⟩

theorem apart_warnNotAtomic (b : Build) : Apart (warnNotAtomic b) := by
  unfold warnNotAtomic
  split
  · exact fun _ => ⟨fun _ => rfl,trivial⟩
  · trivial

theorem mmioReadX_clean (b : Build) (argv : List Arg) (info : CmdInfo) : Clean (mmioReadX b argv info) [] := by
  apply (apart_argAt argv 1).then
  intro addr
  apply (apart_mmapFlagsOf info).then
  intro sync
  apply opened_then (openMapping_hands _ _ _) rfl
  intro mapping
  have read (size : Nat) := (apart_mmioDoRead b mapping size).then (closeMapping_clean mapping)
  dsimp only
  split
  · exact read 1
  · exact read 2
  · exact read 4
  · exact (apart_warnNotAtomic b).then (fun _ => read 8)
  · exact hands_apart (fun _ _ => rfl) (fun _ => closeMapping_clean mapping _)

theorem mmioWriteX_clean (b : Build) (argv : List Arg) (info : CmdInfo) : Clean (mmioWriteX b argv info) [] := by
  apply (apart_argAt argv 1).then
  intro addr
  apply (apart_argAt argv 2).then
  intro data
  apply opened_then (openMapping_hands _ _ _) rfl
  intro mapping
  have write (size : Nat) := (apart_mmioDoWrite b mapping size (strtoulLong b 0 data).1).then (closeMapping_clean mapping)
  dsimp only
  split
  · exact write 1
  · exact write 2
  · exact write 4
  · exact (apart_warnNotAtomic b).then (fun _ => write 8)
  · exact hands_apart (fun _ _ => rfl) (fun _ => closeMapping_clean mapping _)

theorem apart_dumpField (b : Build) (mem : Nat) (position : Int) (label fieldsOnLine size : Nat) :
    Apart (dumpField b mem position label fieldsOnLine size) := by
  unfold dumpField
  by_cases first : fieldsOnLine = 0 <;> by_cases last : (fieldsOnLine + 1) % 4 = 0 <;> simp [first,last]

theorem dumpRange_clean (b : Build) (sync : Bool) (addr count : Nat) (writeBinary : Bool) :
    Clean (dumpRange b sync addr count writeBinary) [] := by
  apply opened_then (openMapping_hands _ _ _) rfl
  intro mapping
  cases writeBinary with
  | true =>
    apply hands_apart (fun _ _ => rfl)
    intro buffer
    apply hands_apart (fun _ _ => rfl)
    intro ret
    exact closeMapping_clean mapping _
  | false =>
    apply Apart.then (dumpLoop_safe b mapping.mem (apart_dumpField b mapping.mem) count mapping.off addr 0)
    intro fields
    dsimp only
    split
    · exact hands_apart (fun _ _ => rfl) (fun _ => closeMapping_clean mapping _)
    · exact closeMapping_clean mapping _

theorem mmioDump_clean (b : Build) (argv : List Arg) (held : info.privdata = .mmapFileFlags sync) :
    Clean (mmioDump b argv info) [] := by
  rw [mmioDump_eq b argv held]
  apply (apart_argAt argv 1).then
  intro addr
  apply (apart_argAt argv 2).then
  intro count
  split
  · apply (apart_argAt argv 3).then
    intro option
    split
    · exact dumpRange_clean b sync _ _ true
    · exact hands_done rfl
  · exact dumpRange_clean b sync _ _ false

abbrev Uses (fd : Int) (program : Action α) : Prop := program.Safe (on fd) (fun _ => True)

theorem uses_complain (fd : Int) (message : Text → Message) : Uses fd (complain message) := by simp [complain]

theorem accessed_uses (fd : Int) (readWrite command : UInt8) (size : Transaction) (fill : I2cSmbusData → I2cSmbusData)
    {next : Int × I2cSmbusData → Action α} (rest : ∀ reply, Uses fd (next reply)) :
    Uses fd (do
      let data ← ask (.stale 35)
      let reply ← i2cSmbusAccess fd readWrite command size (some (fill data))
      next reply) :=
  fun data => ⟨on_stale fd 35 data,fun reply => ⟨on_smbus fd _ reply,rest reply⟩⟩

theorem fetched_uses (fd : Int) (readWrite command : UInt8) (size : Transaction) (fill : I2cSmbusData → I2cSmbusData)
    (value : Int × I2cSmbusData → Int) :
    Uses fd (do
      let data ← ask (.stale 35)
      let reply ← i2cSmbusAccess fd readWrite command size (some (fill data))
      if reply.1 ≠ 0 then return -1 else return value reply) := by
  apply accessed_uses
  intro reply
  split
  · trivial
  · trivial

theorem copied_uses (fd : Int) (readWrite command : UInt8) (size : Transaction) (fill : I2cSmbusData → I2cSmbusData)
    (values : SmbusDtype) :
    Uses fd (do
      let data ← ask (.stale 35)
      let reply ← i2cSmbusAccess fd readWrite command size (some (fill data))
      if reply.1 ≠ 0 then return (-1,values)
      else do
        let copied ← copyBlock reply.2 values
        return ((reply.2 0).toNat,copied) : Action (Int × SmbusDtype)) := by
  apply accessed_uses
  intro reply
  split
  · trivial
  · have copies : Uses fd (copyBlock reply.2 values) := by
      unfold copyBlock
      split <;> trivial
    exact copies.bind (fun _ => trivial)

theorem readTransfer_uses (b : Build) (params : SmbusOpParams) (size : SmbusSize) :
    Uses params.fd (readTransfer b params size) := by
  cases size with
  | size8 | size16 | byte => exact (fetched_uses params.fd _ _ _ id _).bind (fun _ => trivial)
  | size32 => exact (copied_uses params.fd _ _ _ (·.patch 0 [4]) _).bind (fun _ => trivial)
  | size64 => exact (copied_uses params.fd _ _ _ (·.patch 0 [8]) _).bind (fun _ => trivial)
  | block => exact (copied_uses params.fd _ _ _ id _).bind (fun _ => trivial)
  | quick | procCall | blockProcCall | writeRead => trivial

theorem writeTransfer_uses (b : Build) (params : SmbusOpParams) (size : SmbusSize) :
    Uses params.fd (writeTransfer b params size) := by
  cases size with
  | size8 | size16 | size32 | size64 | block =>
    exact (accessed_uses params.fd _ params.reg _ _ (fun reply => Prog.safe_done reply.1)).bind (fun _ => trivial)
  | byte | quick => exact fun reply => ⟨on_smbus params.fd _ reply,trivial⟩
  | procCall | blockProcCall | writeRead => trivial

theorem printReadData_uses (fd : Int) (b : Build) (size : SmbusSize) (count : Int) (data : SmbusDtype) :
    Uses fd (printReadData b size count data) := by
  unfold printReadData
  split
  · exact fun _ => ⟨on_stdout fd _ _,trivial⟩
  · trivial

theorem smbusReadOp_uses (b : Build) (params : SmbusOpParams) (op : SmbusOp) : Uses params.fd (smbusReadOp b params op) := by
  apply (readTransfer_uses b params op.size).bind
  intro found
  cases found with
  | none => exact fun _ => ⟨on_stderr _ _ _,trivial⟩
  | some reply =>
    dsimp only
    split
    · split
      · exact (uses_complain _ _).bind (fun _ => trivial)
      · exact (uses_complain _ _).bind (fun _ => trivial)
    · exact (printReadData_uses _ b _ _ _).bind (fun _ => trivial)

theorem forceSlave_uses (params : SmbusOpParams) : Uses params.fd (forceSlave params) := by
  simp [forceSlave,complain,Prog.safe_ite]

theorem smbusWriteOp_uses (b : Build) (params : SmbusOpParams) (op : SmbusOp) : Uses params.fd (smbusWriteOp b params op) := by
  apply (forceSlave_uses params).bind
  intro forced
  cases forced with
  | false => trivial
  | true =>
    apply (writeTransfer_uses b params op.size).bind
    intro found
    cases found with
    | none => exact fun _ => ⟨on_stderr _ _ _,trivial⟩
    | some result =>
      dsimp only
      split
      · split
        · exact (uses_complain _ _).bind (fun _ => trivial)
        · exact (uses_complain _ _).bind (fun _ => trivial)
      · trivial

theorem smbusProcessCallOp_uses (b : Build) (params : SmbusOpParams) : Uses params.fd (smbusProcessCallOp b params) := by
  apply (forceSlave_uses params).bind
  intro forced
  cases forced with
  | false => trivial
  | true =>
    apply (fetched_uses params.fd _ _ _ _ _).bind
    intro result
    split
    · exact (uses_complain _ _).bind (fun _ => trivial)
    · exact (printReadData_uses _ b _ _ _).bind (fun _ => trivial)

theorem smbusBlockProcessCallOp_uses (b : Build) (params : SmbusOpParams) :
    Uses params.fd (smbusBlockProcessCallOp b params) := by
  apply (forceSlave_uses params).bind
  intro forced
  cases forced with
  | false => trivial
  | true =>
    apply (copied_uses params.fd _ _ _ _ _).bind
    intro reply
    split
    · exact (uses_complain _ _).bind (fun _ => trivial)
    · exact (printReadData_uses _ b _ _ _).bind (fun _ => trivial)

theorem smbusWritereadOp_uses (b : Build) (params : SmbusOpParams) : Uses params.fd (smbusWritereadOp b params) := by
  simp only [smbusWritereadOp,Prog.call_bind,Prog.done_bind]
  intro reply
  refine ⟨on_rdwr _ _ _ _,?_⟩
  dsimp only
  split
  · exact (uses_complain _ _).bind (fun _ => trivial)
  · exact (printReadData_uses _ b _ _ _).bind (fun _ => trivial)

theorem performOp_uses (b : Build) (params : SmbusOpParams) (op : SmbusOp) : Uses params.fd (performOp b params op) := by
  unfold performOp
  split
  · exact smbusReadOp_uses b params op
  · exact smbusWriteOp_uses b params op
  · exact smbusProcessCallOp_uses b params
  · exact smbusBlockProcessCallOp_uses b params
  · exact smbusWritereadOp_uses b params

theorem performOp_close_clean (b : Build) (params : SmbusOpParams) (op : SmbusOp) :
    Clean (performOp b params op >>= fun ret => (.call (.close params.fd) fun _ => .done ret)) [.file params.fd] := by
  apply (performOp_uses b params op).tracks.bind
  rintro ret trace _ rfl
  exact hands_close (hands_done rfl)

theorem openI2cSlave_hands (bus address : UInt8) :
    Hands (openI2cSlave bus address) [] (fun fd after => after = if fd < 0 then [] else [.file fd]) := by
  simp only [openI2cSlave,Prog.call_bind,Prog.done_bind]
  apply hands_open
  · intro fd negative
    rw [if_pos negative]
    exact (apart_complain _).then (fun _ => hands_done rfl)
  · intro fd valid
    rw [if_neg valid]
    apply hands_on (fun result => on_slave fd false address result)
    intro result
    split
    · exact (apart_complain _).then (fun _ => hands_close (hands_done rfl))
    · exact hands_done (by rw [if_neg valid])

-- smbus_prologue reads its numbers first and opens the slave last: what the
-- reads pass on, and every refusal and the open have, the prologue has.
theorem smbusPrologue_rule (holds : Action (Option SmbusOpParams) → Prop) (b : Build) (argv : List Arg)
    (stale : SmbusOpParams) (op : SmbusOp)
    (passes : ∀ {α : Type} (program : Action α) (next : α → Action (Option SmbusOpParams)), Apart program →
      (∀ value, holds (next value)) → holds (program >>= next))
    (refuses : ∀ message, holds (.call (.stderr message) fun _ => .done none))
    (opens : ∀ bus address reg, holds (openI2cSlave bus address >>= fun fd => if fd < 0 then do
        ask (.stderr .openSlave)
        return none
      else return some {stale with i2cBus := bus,address := address,reg := reg,fd := fd})) :
    holds (smbusPrologue b argv stale op) := by
  apply passes _ _ (apart_argAt argv 1)
  intro busText
  apply passes _ _ (apart_report _)
  intro bus
  cases bus with
  | none => exact refuses _
  | some bus =>
    apply passes _ _ (apart_argAt argv 2)
    intro addressText
    apply passes _ _ (apart_report _)
    intro address
    cases address with
    | none => exact refuses _
    | some address =>
      dsimp only
      split
      · apply passes _ _ (apart_argAt argv 3)
        intro regText
        apply passes _ _ (apart_report _)
        intro reg
        cases reg with
        | none => exact refuses _
        | some reg => exact opens bus address reg
      · exact opens bus address stale.reg

theorem smbusPrologue_hands (b : Build) (argv : List Arg) (stale : SmbusOpParams) (op : SmbusOp) :
    Hands (smbusPrologue b argv stale op) [] (fun found after => after = owned (found.map SmbusOpParams.fd)) := by
  have refuse (message : Message) : Hands (.call (.stderr message) fun _ => .done none : Action (Option SmbusOpParams)) []
      (fun found after => after = owned (found.map SmbusOpParams.fd)) :=
    hands_apart (fun _ => apart_stderr _ _) (fun _ => hands_done rfl)
  apply smbusPrologue_rule (fun program => Hands program [] (fun found after => after = owned (found.map SmbusOpParams.fd)))
  · intro α program next outside rest
    exact outside.then rest
  · exact refuse
  · intro bus address reg
    apply (openI2cSlave_hands bus address).bind
    rintro fd trace _ rfl
    split
    · exact refuse .openSlave
    · exact hands_done rfl

theorem smbusRead_clean (b : Build) (argv : List Arg) (info : CmdInfo) : Clean (smbusRead b argv info) [] := by
  apply hands_apart (fun _ _ => rfl)
  intro stale
  apply (apart_smbusOpOf info).then
  intro op
  apply opened_then (smbusPrologue_hands b argv stale op) rfl
  intro params
  exact performOp_close_clean b params op

theorem parseIoWidth_fd (accepted : parseIoWidth b arg params size = .ok stored) : stored.fd = params.fd := by
  rw [parseIoWidth_keeps accepted]

theorem invalidValue_clean (argv : List Arg) (index : Nat) (fd : Int) :
    Clean (do
      ask (.stderr (.invalidValue (← argAt argv 0) (← argAt argv index)))
      ask (.close fd)
      return -1 : Action Int) [.file fd] := by
  apply (apart_argAt argv 0).then
  intro name
  apply (apart_argAt argv index).then
  intro text
  apply hands_apart (fun _ => apart_stderr _ _)
  intro _
  exact hands_close (hands_done rfl)

theorem operand_clean {params : SmbusOpParams} (b : Build) (text : Text) (size : SmbusSize)
    {next : Option SmbusOpParams → Action Int} (refused : Clean (next none) [.file params.fd])
    (goes : ∀ stored, stored.fd = params.fd → Clean (next (some stored)) [.file params.fd]) :
    Clean (report (parseIoWidth b text params size) >>= next) [.file params.fd] := by
  cases parsed : parseIoWidth b text params size with
  | ok stored => exact goes stored (parseIoWidth_fd parsed)
  | error stop =>
    cases stop with
    | fault reason => exact Prog.tracks_fault reason _
    | complain message => exact hands_apart (fun _ => apart_stderr _ _) (fun _ => refused)

theorem operandThenOp_clean (b : Build) (argv : List Arg) (params : SmbusOpParams) (op : SmbusOp) (index : Nat) :
    Clean (operandThenOp b argv params op index) [.file params.fd] := by
  apply (apart_argAt argv index).then
  intro text
  apply operand_clean b text op.size (invalidValue_clean argv index params.fd)
  intro stored same
  rw [← same]
  exact performOp_close_clean b stored op

theorem smbusWrite_clean (b : Build) (argv : List Arg) (info : CmdInfo) : Clean (smbusWrite b argv info) [] := by
  apply hands_apart (fun _ _ => rfl)
  intro stale
  apply (apart_smbusOpOf info).then
  intro op
  apply opened_then (smbusPrologue_hands b argv stale op) rfl
  intro params
  exact operandThenOp_clean b argv params op _

theorem smbusProcessCall_clean (b : Build) (argv : List Arg) (info : CmdInfo) : Clean (smbusProcessCall b argv info) [] := by
  apply hands_apart (fun _ _ => rfl)
  intro stale
  apply (apart_smbusOpOf info).then
  intro op
  apply opened_then (smbusPrologue_hands b argv stale op) rfl
  intro params
  exact operandThenOp_clean b argv params op 4

end Iotools
