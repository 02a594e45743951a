import Iotools.Setup
import Iotools.SmbusGuarantees
import Iotools.SmbusRoundTrip
import Iotools.MmioAccess

namespace Iotools
open Bytes Numeral Interaction

-- The value of a written operand, as it lies in the transfer's data.
def Wire.value (b : Build) : Wire → Nat
  | .smbus _ _ .i2cBlockData (_ :: bytes) => decode b.order bytes
  | .smbus _ _ _ bytes => decode b.order bytes
  | .rdwr .. => 0

-- The value an event hands to the device behind a write command: stored in
-- mapped memory, sent to a port, written to the command's device file, or sent
-- in a transfer. PCI configuration files are little-endian.
def deviceWrite (b : Build) (entry : Entry) (e : Event Sys) : Option Nat :=
  match entry,e with
  | .mmioWriteX,⟨.store _ _ bytes,_⟩ => some (decode b.order bytes)
  | .ioWriteX,⟨.portOut _ value _,_⟩ => some value
  | .ioWriteX,⟨.write _ bytes,_⟩ => some (decode b.order bytes)
  | .pciWriteX,⟨.write _ bytes,_⟩ => some (ofLittle bytes)
  | .wrMsr,⟨.write _ bytes,_⟩ => some (decode b.order bytes)
  | .cmosWr,⟨.write _ bytes,_⟩ => some (decode b.order bytes)
  | .smbusWrite,e => (transferred e).map (fun t => t.wire.value b)
  | _,_ => none

def handed (b : Build) (entry : Entry) (trace : Trace Sys) : List Nat := trace.filterMap (deviceWrite b entry)

@[simp] theorem handed_nil : handed b entry [] = [] := rfl
@[simp] theorem handed_append (left right : Trace Sys) :
    handed b entry (left ++ right) = handed b entry left ++ handed b entry right := List.filterMap_append
theorem handed_cons (e : Event Sys) (rest : Trace Sys) :
    handed b entry (e :: rest) = (deviceWrite b entry e).toList ++ handed b entry rest := by
  unfold handed
  rw [List.filterMap_cons]
  cases deviceWrite b entry e <;> rfl

-- Either exactly `v` was handed over, or nothing was and the command fails. Off
-- x86 the port commands return 0 also when /dev/port cannot be used.
def Delivers (b : Build) (entry : Entry) (v : Nat) (trace : Trace Sys) (outcome : Except Fault Int) : Prop :=
  handed b entry trace = [v] ∨
  (handed b entry trace = [] ∧ (b.arch = .x86 ∨ entry ≠ .ioWriteX → outcome ≠ .ok 0))

def silent (e : Event Sys) : Prop := ∀ b entry, deviceWrite b entry e = none

theorem handed_silent (all : ∀ e ∈ trace, silent e) : handed b entry trace = [] :=
  List.filterMap_eq_nil_iff.mpr (fun e member => all e member b entry)

abbrev Silent (program : Action α) : Prop := program.Safe silent (fun _ => True)

theorem Silent.handed {program : Action α} (quiet : Silent program) (b : Build) (entry : Entry) :
    program.All (fun trace _ => handed b entry trace = []) :=
  quiet.all.mono (fun _ _ h => handed_silent h.1)

theorem Setup.silent (setup : Setup e) : silent e := by
  intro b entry
  obtain ⟨c,answer⟩ := e
  cases c <;> first | (cases entry <;> rfl) | exact setup.elim

theorem SetsUp.silent {program : Action α} (setsUp : SetsUp program) : Silent program :=
  setsUp.mono (fun _ => Setup.silent) (fun _ _ => trivial)

@[simp] theorem silent_open (path : Text) (flags : OpenFlags) (fd : Int) : silent ⟨.open path flags,fd⟩ :=
  Setup.silent trivial
@[simp] theorem silent_close (fd : Int) (reply : Unit) : silent ⟨.close fd,reply⟩ := Setup.silent trivial
@[simp] theorem silent_lseek (fd offset : Int) (reply : Int) : silent ⟨.lseek fd offset,reply⟩ := Setup.silent trivial
@[simp] theorem silent_strerror (err : Text) : silent ⟨.strerror,err⟩ := Setup.silent trivial
@[simp] theorem silent_stderr (message : Message) (reply : Unit) : silent ⟨.stderr message,reply⟩ := by
  intro b entry
  cases entry <;> rfl

theorem argAt_silent (argv : List Arg) (index : Nat) : Silent (argAt argv index) := by
  unfold argAt
  split <;> simp

theorem complain_silent (message : Text → Message) : Silent (complain message) := by
  simp [complain]

section Rules
variable {b : Build} {entry : Entry} {v : Nat}

theorem delivers_silent {program : Action α} {next : α → Action Int} (quiet : Silent program)
    (rest : ∀ value, (next value).All (Delivers b entry v)) : (program >>= next).All (Delivers b entry v) := by
  refine Prog.All.bind (quiet.handed b entry) ?_ ?_
  · intro trace reason none_
    exact .inr ⟨none_,by simp⟩
  · intro trace value none_
    refine (rest value).mono (fun later outcome delivers => ?_)
    simpa [Delivers,none_] using delivers

theorem delivers_call {c : Call} {next : c.Answer → Action Int} (quiet : ∀ answer, silent ⟨c,answer⟩)
    (rest : ∀ answer, (next answer).All (Delivers b entry v)) : (Prog.call c next : Action Int).All (Delivers b entry v) := by
  intro answer
  refine (rest answer).mono (fun later outcome delivers => ?_)
  simpa [Delivers,handed_cons,quiet answer b entry] using delivers

theorem delivers_argAt (found : argv[index]? = some arg) {next : Text → Action Int}
    (rest : (next arg.text).All (Delivers b entry v)) : (argAt argv index >>= next).All (Delivers b entry v) := by
  simpa [argAt,found] using rest

theorem delivers_event {c : Call} {next : c.Answer → Action Int} (hands : ∀ answer, deviceWrite b entry ⟨c,answer⟩ = some v)
    (quiet : ∀ answer, Silent (next answer)) : (Prog.call c next : Action Int).All (Delivers b entry v) := by
  intro answer
  refine ((quiet answer).handed b entry).mono (fun trace outcome none_ => .inl ?_)
  simp [handed_cons,hands answer,none_]

theorem delivers_failed (failed : value ≠ 0) : (Prog.done value : Action Int).All (Delivers b entry v) :=
  .inr ⟨rfl,by simpa using fun _ => failed⟩

end Rules

def CmdInfo.operandWidth (info : CmdInfo) : Option Nat :=
  match info.entry with
  | .mmioWriteX | .ioWriteX | .pciWriteX => info.sizedata
  | .smbusWrite => if info.smbusOp.size = .byte then none else info.smbusOp.size.bytes.map (8 * ·)
  | .wrMsr => some 64
  | .cmosWr => some 8
  | _ => none

def CmdInfo.operandAt (info : CmdInfo) (argc : Nat) : Nat :=
  match info.entry with
  | .pciWriteX => if 6 < argc then 6 else 5
  | .smbusWrite => 4
  | .wrMsr => 3
  | _ => 2

theorem mmioDoWrite_delivers (b : Build) (mapping : MmapInfo) (narrowed : ldata % 256 ^ size = v) :
    (mmioDoWrite b mapping size ldata >>= fun ret => closeMapping mapping >>= fun _ => .done ret).All
      (Delivers b .mmioWriteX v) := by
  refine delivers_event (fun answer => ?_) (fun answer => ?_)
  · simp [deviceWrite,decode_encode,narrowed]
  · exact (closeMapping_setsUp mapping).silent.bind (by simp)

theorem mmioWriteX_delivers (b : Build)
    (sized : info.sizedata = some 8 ∨ info.sizedata = some 16 ∨ info.sizedata = some 32 ∨ info.sizedata = some 64)
    (found : argv[2]? = some arg) (narrowed : (strtoulLong b 0 arg.text).1 % 256 ^ info.bytes = v) :
    (mmioWriteX b argv info).All (Delivers b .mmioWriteX v) := by
  refine delivers_silent (argAt_silent argv 1) (fun addr => delivers_argAt found ?_)
  refine delivers_silent (openMapping_setsUp _ _ _).silent (fun opened => ?_)
  cases opened with
  | none => exact delivers_failed (by decide)
  | some mapping =>
    rcases sized with size | size | size | size <;>
      simp only [getCommandSize,CmdInfo.bytes,size,Option.getD_some] at narrowed ⊢
    · exact mmioDoWrite_delivers b mapping narrowed
    · exact mmioDoWrite_delivers b mapping narrowed
    · exact mmioDoWrite_delivers b mapping narrowed
    · exact delivers_silent (warnNotAtomic_setsUp b).silent (fun _ => mmioDoWrite_delivers b mapping narrowed)

-- Off x86 the emulation may fail before it writes, without a word to its caller.
theorem ioOut_delivers (b : Build) (iobase : Int) (narrowed : ldata % 256 ^ size = v) (other : b.arch ≠ .x86) :
    (ioOut iobase (encode b.order size ldata) >>= fun _ => .done 0).All (Delivers b .ioWriteX v) := by
  have nothing {program : Action Int} (quiet : Silent program) : program.All (Delivers b .ioWriteX v) :=
    (quiet.handed b .ioWriteX).mono (fun trace outcome none_ => .inr ⟨none_,by simp [other]⟩)
  simp only [ioOut,Prog.call_bind,Prog.done_bind]
  refine delivers_call (by simp) (fun fd => ?_)
  split
  · exact nothing ((complain_silent _).bind (by simp))
  · simp only [Prog.call_bind]
    refine delivers_call (by simp) (fun (position : Int) => ?_)
    split
    · exact nothing (((complain_silent _).bind (by simp)).bind (by simp))
    · refine delivers_event (fun answer => ?_) (fun answer => trivial)
      simp [deviceWrite,decode_encode,narrowed]

theorem portWrite_delivers (b : Build) (iobase : Nat) (narrowed : ldata % 256 ^ size = v) :
    (portWrite b size (ldata % 256 ^ size) iobase >>= fun _ => .done 0).All (Delivers b .ioWriteX v) := by
  unfold portWrite
  split
  · simp only [Prog.call_bind,Prog.done_bind]
    refine delivers_event (fun answer => ?_) (fun answer => by simp)
    simp [deviceWrite,narrowed]
  · rename_i other
    exact ioOut_delivers b _ (by rw [Nat.mod_mod,narrowed]) other

theorem ioWriteX_delivers (b : Build)
    (sized : info.sizedata = some 8 ∨ info.sizedata = some 16 ∨ info.sizedata = some 32)
    (found : argv[2]? = some arg) (narrowed : (strtoulLong b 0 arg.text).1 % 256 ^ info.bytes = v) :
    (ioWriteX b argv info).All (Delivers b .ioWriteX v) := by
  refine delivers_silent (argAt_silent argv 1) (fun iobase => delivers_argAt found ?_)
  rcases sized with size | size | size <;>
    simp only [getCommandSize,CmdInfo.bytes,size,Option.getD_some] at narrowed ⊢
  · exact portWrite_delivers b _ narrowed
  · exact portWrite_delivers b _ narrowed
  · exact portWrite_delivers b _ narrowed

theorem pciDoWrite_delivers (b : Build) (fd : Int) (narrowed : ldata % 256 ^ size = v)
    (swaps : ∀ value, ofLittle (encode b.order size (hostToLe b value)) = value % 256 ^ size) :
    (pciDoWrite b fd size hostToLe ldata).All (Delivers b .pciWriteX v) := by
  subst narrowed
  simp only [pciDoWrite,Prog.call_bind,Prog.done_bind]
  refine delivers_event (fun answer => ?_) (fun (written : Int) => ?_)
  · simp only [deviceWrite,swaps,Nat.mod_mod]
  · split
    · exact (complain_silent _).bind (by simp)
    · simp

theorem pciAddress_silent (b : Build) (argv : List Arg) (withSegment : Bool) : Silent (pciAddress b argv withSegment) := by
  have rest (seg : Nat) (arg : Nat) : Silent (do
      let bus := toUnsigned (strtolLong b 0 (← argAt argv arg)).1
      let dev := (strtoulLong b 0 (← argAt argv (arg + 1))).1 % 2 ^ 32
      let func := (strtoulLong b 0 (← argAt argv (arg + 2))).1 % 2 ^ 32
      let reg := (strtoulLong b 0 (← argAt argv (arg + 3))).1 % 2 ^ 32
      return ⟨seg,bus,dev,func,reg⟩ : Action PciAddress) :=
    (argAt_silent argv arg).bind (fun _ => (argAt_silent argv _).bind (fun _ => (argAt_silent argv _).bind
      (fun _ => (argAt_silent argv _).bind (by simp))))
  cases withSegment with
  | false => exact rest 0 1
  | true => exact (argAt_silent argv 1).bind (fun text => rest (toUnsigned (strtolLong b 0 text).1) 2)

theorem pciWriteX_delivers (b : Build)
    (sized : info.sizedata = some 8 ∨ info.sizedata = some 16 ∨ info.sizedata = some 32)
    (found : argv[if 6 < argv.length then 6 else 5]? = some arg)
    (narrowed : (strtoulLong b 0 arg.text).1 % 256 ^ info.bytes = v) :
    (pciWriteX b argv info).All (Delivers b .pciWriteX v) := by
  refine delivers_silent (pciAddress_silent b argv _) (fun address => delivers_argAt found ?_)
  refine delivers_silent (openDevice_setsUp _ _ _ _ _).silent (fun fd => ?_)
  split
  · exact delivers_failed (by decide)
  · simp only [Prog.call_bind,Prog.done_bind]
    refine delivers_call (by simp) (fun (position : Int) => ?_)
    split
    · exact delivers_silent (complain_silent _) (fun _ => delivers_failed (by decide))
    · rcases sized with size | size | size <;>
        simp only [getCommandSize,CmdInfo.bytes,size,Option.getD_some] at narrowed ⊢
      · refine pciDoWrite_delivers b fd narrowed (fun value => ?_)
        cases b.order <;> simp [hostToLe8,encode,toLittle,ofLittle]
      · exact pciDoWrite_delivers b fd narrowed (ofLittle_swapped b 2)
      · exact pciDoWrite_delivers b fd narrowed (ofLittle_swapped b 4)

theorem wrMsr_delivers (b : Build) (info : CmdInfo) (found : argv[3]? = some arg) (narrowed : (strtoull 0 arg.text).1 % 256 ^ 8 = v) :
    (wrMsr b argv info).All (Delivers b .wrMsr v) := by
  refine delivers_silent (argAt_silent argv 1) (fun cpu => delivers_silent (argAt_silent argv 2) (fun msr => ?_))
  refine delivers_argAt found (delivers_silent (msrOpenAndSeek_setsUp _ _ _).silent (fun opened => ?_))
  cases opened with
  | none => exact delivers_failed (by decide)
  | some fd =>
    simp only [writeQuad,Prog.call_bind,Prog.done_bind]
    refine delivers_event (fun answer => ?_) (fun (written : Int) => ?_)
    · simp only [deviceWrite,decode_encode,narrowed]
    · split
      · exact (complain_silent _).bind (by simp)
      · simp

theorem cmosWr_delivers (b : Build) (info : CmdInfo) (found : argv[2]? = some arg)
    (narrowed : (strtoulLong b 0 arg.text).1 % 256 ^ 1 = v) : (cmosWr b argv info).All (Delivers b .cmosWr v) := by
  refine delivers_silent (argAt_silent argv 1) (fun index => ?_)
  dsimp only
  split
  · exact delivers_call (by simp) (fun _ => delivers_failed (by decide))
  · refine delivers_argAt found (delivers_silent (cmosOpenAndSeek_setsUp b _ _).silent (fun opened => ?_))
    cases opened with
    | none => exact delivers_failed (by decide)
    | some fd =>
      simp only [Prog.call_bind,Prog.done_bind]
      refine delivers_event (fun answer => ?_) (fun (written : Int) => ?_)
      · simp only [deviceWrite,decode_encode,narrowed]
      · split
        · exact (complain_silent _).bind (by simp)
        · simp

theorem handed_smbus (b : Build) (trace : Trace Sys) :
    handed b .smbusWrite trace = (transfers trace).map (fun t => t.wire.value b) := by
  unfold handed transfers
  rw [List.map_filterMap]
  rfl

theorem written_wire (b : Build) (plain : size ≠ .byte) (sized : size.bytes = some count)
    (stored : params.data = SmbusDtype.setFixed b Buffer.zero count value) :
    (wireOf ⟨size,.write⟩ params).value b = value % 256 ^ count := by
  have fixed (fits : count ≤ 34) := fixed_setFixed b Buffer.zero value fits
  cases size with
  | size8 =>
    cases sized
    simp only [wireOf,writeWire,Wire.value,← slice_one,stored]
    exact fixed (by decide)
  | size16 | size32 | size64 =>
    cases sized
    simp only [wireOf,writeWire,Wire.value,stored]
    exact fixed (by decide)
  | byte => exact absurd rfl plain
  | block | quick | procCall | blockProcCall | writeRead => cases sized

theorem smbusWrite_delivers (b : Build) (fuel : Nat) (member : info ∈ smbusCmds) (writes : info.smbusOp.performOp = .write)
    (plain : info.smbusOp.size ≠ .byte) (sized : info.smbusOp.size.bytes = some count) (found : argv[4]? = some arg)
    (narrowed : operandValue b info.smbusOp.size arg.text % 256 ^ count = v) :
    (runInfo b fuel argv info).All (Delivers b .smbusWrite v) := by
  refine (smbus_served b fuel argv member).mono ?_
  have idle {trace : Trace Sys} {outcome : Except Fault Int} (quiet : Quiet trace) (failed : outcome ≠ .ok 0) :
      Delivers b .smbusWrite v trace outcome := .inr ⟨by simp [handed_smbus,quiet.1],fun _ => failed⟩
  rintro trace outcome (⟨quiet,failed⟩ | ⟨params,accepted,⟨quiet,failed⟩ | ⟨before,e,after,t,rfl,quiet,_,sent,asked,silent,_⟩⟩)
  · exact idle quiet failed
  · exact idle quiet failed
  · have quick : info.smbusOp.size ≠ .quick := by
      intro quick
      rw [quick] at sized
      cases sized
    have index : info.smbusOp.operandIndex = some 4 := by simp [SmbusOp.operandIndex,writes,plain,quick]
    have fixed : info.smbusOp.size.fixedBytes = some count := by
      revert sized
      cases info.smbusOp.size <;> simp [SmbusSize.bytes,SmbusSize.fixedBytes]
    obtain ⟨arg',found',stored⟩ := operand_stored fixed index accepted
    rw [found] at found'
    cases found'
    have same : info.smbusOp = ⟨info.smbusOp.size,.write⟩ := by rw [← writes]
    rw [same] at asked
    refine .inl ?_
    simp [handed_smbus,transfers_cons,quiet.1,sent,silent,asked,written_wire b plain sized stored,narrowed]

theorem runInfo_delivers {entry : Entry} (performs : info.entry = entry)
    (holds : (entry.call b fuel argv info).All (Delivers b entry v)) :
    (runInfo b fuel argv info).All (Delivers b entry v) := by
  subst performs
  refine delivers_silent ((checkPrereqs_setup b argv info.params).mono (fun _ => Setup.silent) (fun _ => id)) (fun checked => ?_)
  split
  · exact delivers_failed (by decide)
  · exact holds

theorem everyCmd_sized : ∀ info ∈ everyCmd,
    (info.entry = .mmioWriteX → info.sizedata = some 8 ∨ info.sizedata = some 16 ∨ info.sizedata = some 32 ∨
      info.sizedata = some 64) ∧
    (info.entry = .mmioWriteX → info.params = some mmioWrParams) ∧
    (info.entry = .ioWriteX ∨ info.entry = .pciWriteX → info.sizedata = some 8 ∨ info.sizedata = some 16 ∨
      info.sizedata = some 32) ∧
    (info.entry = .smbusWrite → info ∈ smbusCmds ∧ info.smbusOp.performOp = .write) := by
  decide

theorem long_literal (b : Build) (literal : Literal text v) (fits : v < 2 ^ b.long.bits) (small : v < 2 ^ (8 * count)) :
    (strtoulLong b 0 text).1 % 256 ^ count = v := by
  have base : 2 ^ (8 * count) = 256 ^ count := by rw [pow_mul]; rfl
  rw [strtoulLong,literal.strtoul fits]
  exact Nat.mod_eq_of_lt (by rwa [← base])

theorem quad_literal (literal : Literal text v) (small : v < 2 ^ 64) : (strtoull 0 text).1 % 256 ^ 8 = v := by
  rw [strtoull,literal.strtoul small]
  exact Nat.mod_eq_of_lt (by omega)

theorem fits_long (b : Build) (narrow : N ≤ 32) (small : v < 2 ^ N) : v < 2 ^ b.long.bits :=
  lt_of_lt_of_le small (Nat.pow_le_pow_right (by decide) (le_trans narrow (word_bits b)))

theorem sized_bytes {info : CmdInfo} (width : info.sizedata = some N)
    (sized : info.sizedata = some 8 ∨ info.sizedata = some 16 ∨ info.sizedata = some 32 ∨ info.sizedata = some 64) :
    8 * info.bytes = N := by
  unfold CmdInfo.bytes
  rcases sized with size | size | size | size <;> rw [size] at width ⊢ <;> cases width <;> rfl

theorem sized_narrow {info : CmdInfo} (width : info.sizedata = some N)
    (sized : info.sizedata = some 8 ∨ info.sizedata = some 16 ∨ info.sizedata = some 32) : N ≤ 32 := by
  rcases sized with size | size | size <;> rw [size] at width <;> cases width <;> decide

-- Where the command's own parser holds the literal, the device gets it.
theorem literal_delivered (b : Build) (fuel : Nat) (member : info ∈ registered b) (width : info.operandWidth = some N)
    (found : argv[info.operandAt argv.length]? = some arg) (literal : Literal arg.text v) (small : v < 2 ^ N)
    (held : info.entry = .mmioWriteX → v < 2 ^ b.long.bits) :
    (runInfo b fuel argv info).All (Delivers b info.entry v) := by
  obtain ⟨mmio,_,sized,smbus⟩ := everyCmd_sized info (mem_everyCmd member)
  unfold CmdInfo.operandWidth at width
  unfold CmdInfo.operandAt at found
  cases entry : info.entry with
  | mmioWriteX =>
    simp only [entry] at width found
    have bytes := sized_bytes width (mmio entry)
    exact runInfo_delivers entry (mmioWriteX_delivers b (mmio entry) found
      (long_literal b literal (held entry) (by rwa [bytes])))
  | ioWriteX =>
    simp only [entry] at width found
    have three := sized (.inl entry)
    have bytes := sized_bytes width (three.imp_right (.imp_right .inl))
    exact runInfo_delivers entry (ioWriteX_delivers b three found
      (long_literal b literal (fits_long b (sized_narrow width three) small) (by rwa [bytes])))
  | pciWriteX =>
    simp only [entry] at width found
    have three := sized (.inr entry)
    have bytes := sized_bytes width (three.imp_right (.imp_right .inl))
    exact runInfo_delivers entry (pciWriteX_delivers b three found
      (long_literal b literal (fits_long b (sized_narrow width three) small) (by rwa [bytes])))
  | smbusWrite =>
    simp only [entry] at width found
    obtain ⟨listed,writes⟩ := smbus entry
    by_cases plain : info.smbusOp.size = .byte
    · simp [plain] at width
    · simp only [plain,if_false,Option.map_eq_some_iff] at width
      obtain ⟨count,bytes,rfl⟩ := width
      refine smbusWrite_delivers b fuel listed writes plain bytes found ?_
      unfold operandValue
      split
      · rename_i quad
        rw [quad] at bytes
        cases bytes
        exact quad_literal literal small
      · rename_i other
        have narrow : 8 * count ≤ 32 := by
          revert bytes other
          cases info.smbusOp.size <;> simp [SmbusSize.bytes] <;> omega
        exact long_literal b literal (fits_long b narrow small) small
  | wrMsr =>
    simp only [entry,Option.some.injEq] at width found
    subst width
    exact runInfo_delivers entry (wrMsr_delivers b info found (quad_literal literal small))
  | cmosWr =>
    simp only [entry,Option.some.injEq] at width found
    subst width
    exact runInfo_delivers entry (cmosWr_delivers b info found (long_literal b literal (fits_long b (by decide) small) small))
  | _ =>
    rw [entry] at width
    cases width

theorem mmioWriteX_smooth (size : info.sizedata = some 64) (name addr value : Arg) :
    ((mmioWriteX .i386 [name,addr,value] info).exec smooth ()).outcome = .ok 0 := by
  unfold mmioWriteX getCommandSize
  rw [size]
  rfl

theorem mmio_write64_saturates (fuel : Nat) (entry : info.entry = .mmioWriteX) (params : info.params = some mmioWrParams)
    (size : info.sizedata = some 64) (name addr : Arg) (literal : Literal value.text v) (large : 2 ^ 32 ≤ v) :
    ((runInfo .i386 fuel [name,addr,value] info).exec smooth ()).outcome = .ok 0 ∧
    handed .i386 .mmioWriteX ((runInfo .i386 fuel [name,addr,value] info).exec smooth ()).trace = [2 ^ 32 - 1] := by
  have top : strtoulLong .i386 0 value.text = (2 ^ 32 - 1,[]) := literal.strtoul_saturates large
  have saturated : (strtoulLong .i386 0 value.text).1 % 256 ^ info.bytes = 2 ^ 32 - 1 := by
    rw [top]
    simp [CmdInfo.bytes,size]
  have admitted : Admits info.params [name,addr,value] := by
    rw [params]
    rintro _ ⟨⟩
    exact ⟨le_refl 3,le_refl 3⟩
  have ran : ((runInfo .i386 fuel [name,addr,value] info).exec smooth ()).outcome = .ok 0 := by
    rw [runInfo_admitted .i386 fuel (by simp [params,mmioWrParams,fixedArgs]) admitted,entry]
    exact mmioWriteX_smooth size name addr value
  have found : [name,addr,value][2]? = some value := rfl
  have delivers : (runInfo .i386 fuel [name,addr,value] info).All (Delivers .i386 .mmioWriteX (2 ^ 32 - 1)) :=
    runInfo_delivers entry (mmioWriteX_delivers .i386 (.inr (.inr (.inr size))) found saturated)
  refine ⟨ran,?_⟩
  rcases delivers.exec smooth () with same | ⟨_,failed⟩
  · exact same
  · exact absurd ran (failed (.inl rfl))

-- The value handed to the device does not depend on the word size of the build,
-- except for the 64-bit commands on mapped memory and values of more than 32 bits.
theorem written_value_iff (info : CmdInfo) (member : info ∈ registered .i386) (width : info.operandWidth = some N)
    (argv : List Arg) (admitted : Admits info.params argv) (found : argv[info.operandAt argv.length]? = some arg)
    (literal : Literal arg.text v) (small : v < 2 ^ N) (fuel : Nat) :
    (∀ b, info ∈ registered b → ∀ (σ : Type) (kernel : Kernel Sys σ) (s : σ),
      Delivers b info.entry v ((runInfo b fuel argv info).exec kernel s).trace
        ((runInfo b fuel argv info).exec kernel s).outcome) ↔
    (info.entry = .mmioWriteX → N = 64 → v < 2 ^ 32) := by
  obtain ⟨mmio,three,_,_⟩ := everyCmd_sized info (mem_everyCmd member)
  refine ⟨?_,?_⟩
  · intro always entry wide
    subst wide
    by_contra large
    have size : info.sizedata = some 64 := by simpa [CmdInfo.operandWidth,entry] using width
    have params := three entry
    have count : argv.length = 3 := by
      have counted := admitted mmioWrParams (by simp [params])
      simp only [mmioWrParams,fixedArgs] at counted
      omega
    obtain ⟨name,addr,value,rfl⟩ := List.length_eq_three.mp count
    have operand : value = arg := by simpa [CmdInfo.operandAt,entry] using found
    subst operand
    obtain ⟨ran,other⟩ := mmio_write64_saturates fuel entry params size name addr literal (by omega)
    have right := always .i386 member Unit smooth ()
    rw [entry,ran] at right
    rcases right with same | ⟨_,failed⟩
    · rw [other] at same
      simp only [List.cons.injEq,and_true] at same
      omega
    · exact failed (.inl rfl) rfl
  · intro held b registered σ kernel s
    refine (literal_delivered b fuel registered width found literal small (fun entry => ?_)).exec kernel s
    have size : info.sizedata = some N := by simpa [CmdInfo.operandWidth,entry] using width
    by_cases wide : N = 64
    · exact fits_long b (le_refl 32) (held entry wide)
    · have narrow : N ≤ 32 := by
        rcases mmio entry with known | known | known | known <;> rw [known] at size <;> cases size <;> simp_all
      exact fits_long b narrow small

def mmioWrite64Info : CmdInfo :=
  makeCmdWithParamsSize "mmio_write64" .mmioWriteX (.mmapFileFlags true) mmioWrParams 64

theorem mmio_write64_differs :
    let argv := ["mmio_write64","0x1000","0x100000000"].map Arg.of
    let run := fun b => (runInfo b 0 argv mmioWrite64Info).exec smooth ()
    mmioWrite64Info ∈ registered .i386 ∧ mmioWrite64Info ∈ registered .x86_64 ∧
    Literal "0x100000000".toList 0x100000000 ∧
    (run .x86_64).outcome = .ok 0 ∧ handed .x86_64 .mmioWriteX (run .x86_64).trace = [0x100000000] ∧
    (run .i386).outcome = .ok 0 ∧ handed .i386 .mmioWriteX (run .i386).trace = [0xffffffff] := by
  refine ⟨by decide,by decide,?_,by decide +kernel,by decide +kernel,by decide +kernel,by decide +kernel⟩
  exact Literal.hex 'x' "100000000".toList (by decide) (by decide) (List.all_eq_true.mp (by decide))

theorem written_value_iff_wrmsr :
    let argv := ["wrmsr","0","0x402","0xffffffffffffffff"].map Arg.of
    let info := makeCmdWithParams "wrmsr" .wrMsr .null (fixedArgs 4 "<cpu> <msr> <data>" 0)
    (∀ b, info ∈ registered b → ∀ (σ : Type) (kernel : Kernel Sys σ) (s : σ),
      Delivers b .wrMsr 0xffffffffffffffff ((runInfo b 0 argv info).exec kernel s).trace
        ((runInfo b 0 argv info).exec kernel s).outcome) ∧
    handed .i386 .wrMsr ((runInfo .i386 0 argv info).exec smooth ()).trace = [0xffffffffffffffff] := by
  refine ⟨?_,by decide +kernel⟩
  have literal : Literal (Arg.of "0xffffffffffffffff").text 0xffffffffffffffff :=
    Literal.hex 'x' "ffffffffffffffff".toList (by decide) (by decide) (List.all_eq_true.mp (by decide))
  exact (written_value_iff (makeCmdWithParams "wrmsr" .wrMsr .null (fixedArgs 4 "<cpu> <msr> <data>" 0)) (by decide) rfl
    (["wrmsr","0","0x402","0xffffffffffffffff"].map Arg.of) (by decide) rfl literal (by decide) 0).mpr (by decide)

end Iotools
