import Iotools.MemorySessions
import Iotools.SmbusDevices

namespace Iotools
open Bytes Numeral Interaction

def Issued.access (c : Issued b) : Option (SmbusOpParams × Nat) :=
  (parsed b c.vector c.info.smbusOp).bind fun params => c.info.smbusOp.size.registers.map fun count => (params,count)

def Issued.sent (c : Issued b) : Nat := operandValue b c.info.smbusOp.size (c.text 4)

def Issued.deposits (c : Issued b) : Patch RegisterCell UInt8 :=
  (c.access.map fun access =>
    if c.info.smbusOp.performOp = .write then
      registersPatch access.1 (encode (lineOrder b c.info.smbusOp.size) access.2 c.sent)
    else Patch.idle).getD Patch.idle

-- The transfers such a device answers.
def Wire.answered : Wire → Bool
  | .smbus _ _ .byteData _ | .smbus _ _ .wordData _ | .smbus _ _ .i2cBlockData _ => true
  | _ => false

theorem exchange_none (order : Endian) (args : I2cSmbusIoctlData) (data : I2cSmbusData) (cells : UInt8 → UInt8)
    (unanswered : (Wire.smbus args.readWrite args.command args.size sent).answered = false) :
    exchange order args data cells = none := by
  obtain ⟨readWrite,command,size,given⟩ := args
  unfold exchange
  cases size with
  | byteData | wordData | i2cBlockData => cases unanswered
  | _ => simp

theorem kernel_untouched (order : Endian) (c : Call) (s : Bus)
    (unanswered : ∀ t, transferred ⟨c,(Bus.kernel order c s).1⟩ = some t → t.wire.answered = false) :
    (Bus.kernel order c s).2.byte = s.byte ∧ ∀ t, transferred ⟨c,(Bus.kernel order c s).1⟩ = some t → t.result = -1 := by
  cases c with
  | ioctlSmbus fd args =>
    have fails (data : I2cSmbusData) (cells : UInt8 → UInt8) := exchange_none order args data cells (unanswered _ rfl)
    have refused : Bus.kernel order (.ioctlSmbus fd args) s = (((-1 : Int),Buffer.zero),s) := by
      simp only [Bus.kernel]
      cases s.handle with
      | none => rfl
      | some place =>
        cases args.data with
        | none => rfl
        | some data =>
          rw [Option.bind_some,Option.bind_some,fails]
          rfl
    rw [refused]
    refine ⟨rfl,?_⟩
    rintro t ⟨⟩
    rfl
  | ioctlRdwr fd first second =>
    refine ⟨rfl,?_⟩
    rintro t ⟨⟩
    rfl
  | _ => exact ⟨rfl,fun t never => by cases never⟩

theorem wireOf_unanswered (sound : op.sound = true) (other : op.size.registers = none) (params : SmbusOpParams) :
    (wireOf op params).answered = false := by
  obtain ⟨size,perform⟩ := op
  cases perform with
  | read | write =>
    cases size with
    | size8 | size16 | size32 | size64 => cases other
    | _ => rfl
  | processCall | blockProcessCall | writeread => rfl

theorem exec_untouched {program : Action α} {order : Endian} {s : Bus}
    (unanswered : ∀ t ∈ transfers (program.exec (Bus.kernel order) s).trace, t.wire.answered = false) :
    (program.exec (Bus.kernel order) s).state.byte = s.byte := by
  refine Prog.exec_view Bus.byte fun c s' member => ?_
  exact (kernel_untouched order c s' fun t sent => unanswered t (List.mem_filterMap.mpr ⟨_,member,sent⟩)).1

theorem refused_result {program : Action α} {order : Endian} {s : Bus} (member : e ∈ (program.exec (Bus.kernel order) s).trace)
    (sent : transferred e = some t) (unanswered : t.wire.answered = false) : t.result = -1 := by
  refine Prog.exec_events (P := fun e => ∀ t, transferred e = some t → t.wire.answered = false → t.result = -1) ?_ s e member t
    sent unanswered
  intro c s t sent unanswered
  refine (kernel_untouched order c s fun other same => ?_).2 t sent
  rw [sent] at same
  cases same
  exact unanswered

theorem Served.refused {program : Action Int} {order : Endian} {s : Bus} {op : SmbusOp} (sound : op.sound = true)
    (served : Served b argv op (program.exec (Bus.kernel order) s).trace (program.exec (Bus.kernel order) s).outcome)
    (other : ∀ params, parsed b argv op = some params → op.size.registers = none) :
    (program.exec (Bus.kernel order) s).outcome ≠ .ok 0 ∧ printed (program.exec (Bus.kernel order) s).trace = [] ∧
    (program.exec (Bus.kernel order) s).state.byte = s.byte := by
  have quietly (quiet : Quiet (program.exec (Bus.kernel order) s).trace) :
      (program.exec (Bus.kernel order) s).state.byte = s.byte := by
    apply exec_untouched
    rw [quiet.1]
    simp
  rcases served with ⟨quiet,failed⟩ | ⟨params,accepted,⟨quiet,failed⟩ |
    ⟨before,e,after,t,split,quiet,_,sent,asked,silent,ends,fails⟩⟩
  · exact ⟨failed,quiet.2,quietly quiet⟩
  · exact ⟨failed,quiet.2,quietly quiet⟩
  · have unanswered : t.wire.answered = false := by
      rw [asked]
      exact wireOf_unanswered sound (other params accepted) params
    have result : t.result = -1 := refused_result (by rw [split]; simp) sent unanswered
    have failed : (program.exec (Bus.kernel order) s).outcome ≠ .ok 0 := by
      intro zero
      have positive := acceptOf_result (ends zero)
      omega
    have unsaid : output e = [] := by
      revert sent
      unfold transferred output
      split <;> simp
    refine ⟨failed,?_,?_⟩
    · rw [split,printed_append,printed_cons,quiet.2,unsaid,fails failed]
      rfl
    · apply exec_untouched
      rw [split,transfers_append,transfers_cons,quiet.1,sent,silent]
      simp [unanswered]

-- The registers an access covers, and what a read prints of them.
def registersOf (store : RegisterCell → UInt8) (params : SmbusOpParams) (count : Nat) : List UInt8 :=
  registersAt (fun reg => store (params.i2cBus,params.address,reg)) params.reg count

def Issued.reads (c : Issued b) (store : RegisterCell → UInt8) : Option Text :=
  c.access.map fun access =>
    if c.info.smbusOp.performOp = .read then
      valueText (2 * access.2) (decode (lineOrder b c.info.smbusOp.size) (registersOf store access.1 access.2))
    else []

structure SmbusCommand (c : Issued b) : Prop where
  listed : c.info ∈ smbusCmds
  admitted : Admits c.info.params c.vector

theorem access_entry {entry : Entry} {op : SmbusOp} (performs : entry.performs op = true) (sound : op.sound = true)
    (sized : op.size.registers = some count) :
    op.performOp = .read ∧ entry = .smbusRead ∨ op.performOp = .write ∧ entry = .smbusWrite := by
  obtain ⟨size,perform⟩ := op
  cases perform with
  | read =>
    cases entry with
    | smbusRead => exact .inl ⟨rfl,rfl⟩
    | _ => cases performs
  | write =>
    cases entry with
    | smbusWrite => exact .inr ⟨rfl,rfl⟩
    | _ => cases performs
  | processCall =>
    have word : size = .procCall := by simpa [SmbusOp.sound] using sound
    cases word
    cases sized
  | blockProcessCall =>
    have block : size = .blockProcCall := by simpa [SmbusOp.sound] using sound
    cases block
    cases sized
  | writeread =>
    have both : size = .writeRead := by simpa [SmbusOp.sound] using sound
    cases both
    cases sized

-- A command that cannot be carried out says nothing on stdout and fails.
theorem smbusCommand_effect {c : Issued b} (command : SmbusCommand c) (fuel : Nat) (s : Bus) :
    let run := (runInfo b fuel c.vector c.info).exec (Bus.kernel b.order) s
    run.state.byte = c.deposits.apply s.byte ∧ (run.outcome = .ok 0 ↔ (c.access).isSome) ∧
      printed run.trace = (c.reads s.byte).getD [] := by
  obtain ⟨listed,admitted⟩ := command
  obtain ⟨privdata,sound,performs,noIopl⟩ := smbusCmds_paired c.info listed
  have entered := runInfo_admitted b fuel noIopl admitted
  have served := (smbus_served b fuel c.vector listed).exec (Bus.kernel b.order) s
  have refused (none_ : c.access = none) :
      ∀ params, parsed b c.vector c.info.smbusOp = some params → c.info.smbusOp.size.registers = none := by
    intro params accepted
    simpa [Issued.access,accepted] using none_
  unfold Issued.deposits Issued.reads
  cases access : c.access with
  | none =>
    obtain ⟨failed,silent,kept⟩ := served.refused sound (refused access)
    exact ⟨kept,by simp [failed],silent⟩
  | some found =>
    obtain ⟨params,count⟩ := found
    obtain ⟨params',accepted,sizes⟩ := Option.bind_eq_some_iff.mp access
    obtain ⟨count',sized,same⟩ := Option.map_eq_some_iff.mp sizes
    cases same
    rw [entered]
    rcases access_entry performs sound sized with ⟨reads,entry⟩ | ⟨writes,entry⟩
    · have same : c.info.smbusOp = ⟨c.info.smbusOp.size,.read⟩ := by rw [← reads]
      rw [same] at privdata accepted
      obtain ⟨trace,run,text⟩ := smbusRead_gives b s sized privdata accepted
      rw [entry]
      change _ ∧ _ ∧ _
      simp only [Entry.call,run,reads]
      exact ⟨rfl,by simp,text⟩
    · have same : c.info.smbusOp = ⟨c.info.smbusOp.size,.write⟩ := by rw [← writes]
      rw [same] at privdata accepted
      obtain ⟨arg,given,trace,run,text⟩ := smbusWrite_gives b s sized privdata accepted
      have sent : operandValue b c.info.smbusOp.size arg.text = c.sent := by simp [Issued.sent,Issued.text,given]
      rw [sent] at run
      rw [entry]
      simp only [Entry.call,run,writes]
      exact ⟨registersPatch_apply s params _,by simp,text⟩

def registersAfter (done : List (Issued b)) (store : RegisterCell → UInt8) : RegisterCell → UInt8 :=
  (Patch.last (done.map Issued.deposits)).apply store

section Session
variable {b : Build} {order : List Group} (perm : order.Perm (groups b)) {fuel : Nat} (enough : order.length ≤ fuel)
include perm enough

theorem smbusSession_store {commands : List (Issued b)} (serves : ∀ c ∈ commands, SmbusCommand c) (s : Bus) :
    (Prog.session (Bus.kernel b.order) (commands.map (Issued.run order fuel)) s).byte = registersAfter commands s.byte := by
  refine (Prog.session_store (fun _ => True) Bus.byte ?_ s trivial).2
  intro c member s _
  rw [c.run_eq perm enough]
  exact ⟨trivial,(smbusCommand_effect (serves c member) fuel s).1⟩

theorem smbusSession_turn {before : List (Issued b)} (serves : ∀ c ∈ before, SmbusCommand c) {c : Issued b}
    (command : SmbusCommand c) (s : Bus) :
    let state := Prog.session (Bus.kernel b.order) (before.map (Issued.run order fuel)) s
    let run := (c.run order fuel).exec (Bus.kernel b.order) state
    (run.outcome = .ok 0 ↔ c.access.isSome) ∧ printed run.trace = (c.reads (registersAfter before s.byte)).getD [] := by
  have effect := smbusCommand_effect command fuel (Prog.session (Bus.kernel b.order) (before.map (Issued.run order fuel)) s)
  rw [← c.run_eq perm enough,smbusSession_store perm enough serves] at effect
  exact effect.2

end Session

-- Over a whole session of SMBus commands on devices with byte registers: each
-- register holds what was written to it last, whichever width, and each read
-- prints what the registers hold at its turn. A command that names no registers,
-- or whose arguments are not understood, fails and changes none.
theorem smbus_session (b : Build) (order : List Group) (perm : order.Perm (groups b)) (fuel : Nat)
    (enough : order.length ≤ fuel) (s : Bus) (commands : List (Issued b)) (serves : ∀ c ∈ commands, SmbusCommand c) :
    let state := fun done : List (Issued b) => Prog.session (Bus.kernel b.order) (done.map (Issued.run order fuel)) s
    (state commands).byte = registersAfter commands s.byte ∧
    ∀ before c later, commands = before ++ c :: later →
      let run := (c.run order fuel).exec (Bus.kernel b.order) (state before)
      (run.outcome = .ok 0 ↔ c.access.isSome) ∧ printed run.trace = (c.reads (registersAfter before s.byte)).getD [] := by
  intro state
  refine ⟨smbusSession_store perm enough serves s,?_⟩
  intro before c later split
  have earlier : ∀ d ∈ before, SmbusCommand d := fun d member => serves d (by rw [split]; simp [member])
  exact smbusSession_turn perm enough earlier (serves c (by rw [split]; simp)) s

theorem smbus_session_wraps :
    let program := fun args : List String => runCommand .x86_64 (registerAll (groups .x86_64)) 9 (args.map Arg.of)
    let state := Prog.session (Bus.kernel .little) [program ["iotools","smbus_write32","0","0x50","0xfe","0x11223344"],
      program ["iotools","smbus_writeblock","0","0x50","0xfe","0xff"]] ⟨fun _ _ _ => 0,none⟩
    state.byte (0,0x50,0x01) = 0x11 ∧
    printed ((program ["iotools","smbus_read16","0","0x50","0xff"]).exec (Bus.kernel .little) state).trace =
      "0x2233\n".toList := by
  intro program state
  let wide : Issued .x86_64 := ⟨["iotools","smbus_write32","0","0x50","0xfe","0x11223344"].map Arg.of,
    makeCmdWithParams "smbus_write32" .smbusWrite (.smbusOp ⟨.size32,.write⟩) smbusWriteParams,
    ["smbus_write32","0","0x50","0xfe","0x11223344"].map Arg.of,by decide +kernel⟩
  let block : Issued .x86_64 := ⟨["iotools","smbus_writeblock","0","0x50","0xfe","0xff"].map Arg.of,
    makeCmdWithParams "smbus_writeblock" .smbusWrite (.smbusOp ⟨.block,.write⟩) smbusWriteParams,
    ["smbus_writeblock","0","0x50","0xfe","0xff"].map Arg.of,by decide +kernel⟩
  let read : Issued .x86_64 := ⟨["iotools","smbus_read16","0","0x50","0xff"].map Arg.of,
    makeCmdWithParams "smbus_read16" .smbusRead (.smbusOp ⟨.size16,.read⟩) smbusReadParams,
    ["smbus_read16","0","0x50","0xff"].map Arg.of,by decide +kernel⟩
  have serves : ∀ c ∈ [wide,block,read], SmbusCommand c := by
    intro c member
    simp only [List.mem_cons,List.not_mem_nil,or_false] at member
    rcases member with rfl | rfl | rfl
    · exact ⟨by decide,by decide⟩
    · exact ⟨by decide,by decide⟩
    · exact ⟨by decide,by decide⟩
  obtain ⟨registers,tells⟩ := smbus_session .x86_64 (groups .x86_64) (.refl _) 9 (by decide) ⟨fun _ _ _ => 0,none⟩
    [wide,block,read] serves
  have line := (tells [wide,block] read [] rfl).2
  refine ⟨?_,line.trans (by decide +kernel)⟩
  decide +kernel

theorem register_covered (reg : UInt8) (small : i < 256) : (reg + UInt8.ofNat i - reg).toNat = i := by
  have back : reg + UInt8.ofNat i - reg = UInt8.ofNat i := by
    rw [UInt8.add_comm,UInt8.add_sub_cancel]
  rw [back,UInt8.toNat_ofNat']
  omega

-- A value is read back as it was written, in the same width and on the same
-- host, whatever the byte order of that host, as long as nothing in between
-- writes to its registers.
theorem smbus_read_back (b : Build) (order : List Group) (perm : order.Perm (groups b)) (fuel : Nat)
    (enough : order.length ≤ fuel) (s : Bus) (before between : List (Issued b)) (write read : Issued b)
    (serves : ∀ c ∈ before ++ write :: between, SmbusCommand c) (asks : SmbusCommand read) (size : SmbusSize)
    (writes : write.info.smbusOp = ⟨size,.write⟩) (reads : read.info.smbusOp = ⟨size,.read⟩) (count : Nat)
    (params again : SmbusOpParams) (written : write.access = some (params,count)) (wanted : read.access = some (again,count))
    (place : again.i2cBus = params.i2cBus ∧ again.address = params.address ∧ again.reg = params.reg)
    (apart : ∀ c ∈ between, ∀ i < count, c.deposits (params.i2cBus,params.address,params.reg + UInt8.ofNat i) = none) :
    let state := Prog.session (Bus.kernel b.order) ((before ++ write :: between).map (Issued.run order fuel)) s
    let run := (read.run order fuel).exec (Bus.kernel b.order) state
    run.outcome = .ok 0 ∧ printed run.trace = valueText (2 * count) (write.sent % 256 ^ count) := by
  intro state run
  obtain ⟨returns,text⟩ := smbusSession_turn perm enough serves asks s
  refine ⟨returns.mpr (by simp [wanted]),text.trans ?_⟩
  have sized : size.registers = some count := by
    obtain ⟨_,_,sizes⟩ := Option.bind_eq_some_iff.mp written
    obtain ⟨_,sized,same⟩ := Option.map_eq_some_iff.mp sizes
    cases same
    rwa [writes] at sized
  have short : count ≤ 8 := by
    cases size with
    | size8 | size16 | size32 | size64 =>
      cases sized
      decide
    | _ => cases sized
  have gives : write.deposits = registersPatch params (encode (lineOrder b size) count write.sent) := by
    simp [Issued.deposits,written,writes]
  have stored : registersOf (registersAfter (before ++ write :: between) s.byte) again count =
      encode (lineOrder b size) count write.sent := by
    apply List.ext_getElem
    · simp [registersOf,registersAt]
    · intro i inside _
      have covered : i < count := by simpa [registersOf,registersAt] using inside
      have byte : i < (encode (lineOrder b size) count write.sent).length := by simpa using covered
      simp only [registersOf,registersAt,List.getElem_map,List.getElem_range,place.1,place.2.1,place.2.2]
      unfold registersAfter
      rw [List.map_append,List.map_cons]
      refine Patch.last_written ?_ ?_ _
      · rw [gives,registersPatch,if_pos ⟨rfl,rfl⟩,register_covered _ (by omega)]
        exact List.getElem?_eq_getElem byte
      · intro patch member
        obtain ⟨c,listed,rfl⟩ := List.mem_map.mp member
        exact apart c listed i covered
  rw [Issued.reads,wanted,Option.map_some,Option.getD_some,reads,if_pos rfl,stored,decode_encode]

theorem smbus_read_back_big_endian :
    let program := fun args : List String => runCommand .ppc64 (registerAll (groups .ppc64)) 9 (args.map Arg.of)
    let state := Prog.session (Bus.kernel .big) [program ["iotools","smbus_write32","1","0x50","0x10","0x11223344"],
      program ["iotools","smbus_write16","1","0x50","0x14","0xffff"]] ⟨fun _ _ _ => 0,none⟩
    printed ((program ["iotools","smbus_read32","1","0x50","0x10"]).exec (Bus.kernel .big) state).trace =
      "0x11223344\n".toList := by
  intro program state
  let wide : Issued .ppc64 := ⟨["iotools","smbus_write32","1","0x50","0x10","0x11223344"].map Arg.of,write32Info,
    ["smbus_write32","1","0x50","0x10","0x11223344"].map Arg.of,by decide +kernel⟩
  let word : Issued .ppc64 := ⟨["iotools","smbus_write16","1","0x50","0x14","0xffff"].map Arg.of,
    makeCmdWithParams "smbus_write16" .smbusWrite (.smbusOp ⟨.size16,.write⟩) smbusWriteParams,
    ["smbus_write16","1","0x50","0x14","0xffff"].map Arg.of,by decide +kernel⟩
  let read : Issued .ppc64 := ⟨["iotools","smbus_read32","1","0x50","0x10"].map Arg.of,read32Info,
    ["smbus_read32","1","0x50","0x10"].map Arg.of,by decide +kernel⟩
  have serves : ∀ c ∈ [wide,word], SmbusCommand c := by
    intro c member
    simp only [List.mem_cons,List.not_mem_nil,or_false] at member
    rcases member with rfl | rfl
    · exact ⟨by decide,by decide⟩
    · exact ⟨by decide,by decide⟩
  have apart : ∀ c ∈ [word], ∀ i < 4, c.deposits (1,0x50,0x10 + UInt8.ofNat i) = none := by
    intro c member
    cases List.mem_singleton.mp member
    decide +kernel
  have taken : ∃ params, wide.access = some (params,4) ∧ params.i2cBus = 1 ∧ params.address = 0x50 ∧ params.reg = 0x10 :=
    ⟨_,rfl,by decide +kernel⟩
  have asked : ∃ params, read.access = some (params,4) ∧ params.i2cBus = 1 ∧ params.address = 0x50 ∧ params.reg = 0x10 :=
    ⟨_,rfl,by decide +kernel⟩
  obtain ⟨params,written,bus,device,reg⟩ := taken
  obtain ⟨again,wanted,bus',device',reg'⟩ := asked
  have back := smbus_read_back .ppc64 (groups .ppc64) (.refl _) 9 (by decide) ⟨fun _ _ _ => 0,none⟩ [] [word] wide read serves
    ⟨by decide,by decide⟩ .size32 rfl rfl 4 params again written wanted
    ⟨bus'.trans bus.symm,device'.trans device.symm,reg'.trans reg.symm⟩ (by rw [bus,device,reg]; exact apart)
  exact back.2.trans (by decide +kernel)

end Iotools
