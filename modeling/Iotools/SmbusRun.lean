import Iotools.SmbusTransfer

namespace Iotools
open Bytes Numeral Interaction

-- The two messages of the exchange. Both name the operand's buffer.
def writeMessage (params : SmbusOpParams) : I2cMsg :=
  ⟨params.address,false,params.len.toNat,params.data.slice 0 params.len.toNat⟩

def readMessage (params : SmbusOpParams) : I2cMsg :=
  ⟨params.address,true,params.readCount.toNat,params.data.slice 0 params.readCount.toNat⟩

-- What the device supplied for the read message lies over the written bytes.
def AcceptWriteread (params : SmbusOpParams) (t : Transferred) (text : Text) : Prop :=
  0 ≤ t.result ∧ ∃ first second reply, t = .rdwr first second reply ∧
    text = blockText ((params.data.patch 0 (reply.2.take params.readCount.toNat)).slice 0 params.readCount.toNat)

theorem rdwr_transacts (fd : Int) (first second : I2cMsg) :
    Transacts (ask (.ioctlRdwr fd first second)) (.rdwr first second)
      (fun t reply => t = .rdwr first second reply) := by
  intro reply
  refine ⟨[],⟨.ioctlRdwr fd first second,reply⟩,_,rfl,by simp,by simp,rfl,rfl,?_⟩
  rintro _ ⟨⟩
  rfl

theorem writereadOp_conducted (b : Build) (params : SmbusOpParams) (small : params.readCount.toNat ≤ blockMax) :
    (smbusWritereadOp b params).All (Conducted
      (.rdwr (writeMessage params) (readMessage params)) (AcceptWriteread params)) := by
  refine (rdwr_transacts params.fd (writeMessage params) (readMessage params)).conducted ?_
  rintro t reply rfl
  by_cases failed : reply.1 < 0
  · simp [failed,complain,Finishes,transfers_cons]
  · have ok : 0 ≤ reply.1 := by omega
    simp only [failed,if_false,printReadData,readText_block b _ small]
    refine fun _ => ⟨by simp [transfers_cons],fun _ => ⟨ok,_,_,reply,rfl,by simp⟩,by simp⟩

-- Properties that a run of a command can only lose by a transfer or by output:
-- stopping early with a failed value is fine, and so is anything quiet before.
structure Gate (Q : Trace Sys → Except Fault α → Prop) (failed : α → Prop) : Prop where
  idle : ∀ {trace outcome}, Quiet trace → (∀ value, outcome = .ok value → failed value) → Q trace outcome
  prepend : ∀ {before trace outcome}, Quiet before → Ready before → Q trace outcome → Q (before ++ trace) outcome

namespace Gate
variable {Q : Trace Sys → Except Fault α → Prop} {failed : α → Prop} (gate : Gate Q failed)
include gate

theorem arg (argv : List Arg) (index : Nat) {next : Text → Action α}
    (then_ : ∀ arg, argv[index]? = some arg → (next arg.text).All Q) : (argAt argv index >>= next).All Q := by
  unfold argAt
  cases found : argv[index]? with
  | none => exact gate.idle (by simp) (by simp)
  | some arg => exact then_ arg found

theorem quiet {program : Action β} {next : β → Action α} {good : β → Prop}
    (first : program.All (fun trace outcome => Quiet trace ∧ Ready trace ∧ ∀ value, outcome = .ok value → good value))
    (then_ : ∀ value, good value → (next value).All Q) : (program >>= next).All Q := by
  refine Prog.All.bind first ?_ ?_
  · rintro trace reason ⟨quiet,_⟩
    exact gate.idle quiet (by simp)
  · rintro trace value ⟨quiet,ready,related⟩
    exact (then_ value (related value rfl)).mono (fun later outcome => gate.prepend quiet ready)

theorem report (parsed : Parse β) {next : Option β → Action α}
    (fails : (next none).All (fun trace outcome => Quiet trace ∧ ∀ value, outcome = .ok value → failed value))
    (then_ : ∀ value, parsed = .ok value → (next (some value)).All Q) : (report parsed >>= next).All Q := by
  cases parsed with
  | ok value => exact then_ value rfl
  | error stop =>
    cases stop with
    | fault reason => exact gate.idle (by simp) (by simp)
    | complain message =>
      refine fun _ => fails.mono (fun trace outcome h => gate.idle ?_ h.2)
      simpa using h.1

end Gate

def byteAt (b : Build) (argv : List Arg) (index : Nat) : Option UInt8 :=
  argv[index]?.bind (fun arg => (parseUint8 b arg.text).toOption)

def operandAt (b : Build) (argv : List Arg) (index : Nat) (params : SmbusOpParams) (size : SmbusSize) :
    Option SmbusOpParams :=
  argv[index]?.bind (fun arg => (parseIoWidth b arg.text params size).toOption)

theorem argAt_found (found : argv[index]? = some arg) : argAt argv index = .done arg.text := by
  unfold argAt
  rw [found]

theorem byteAt_of (found : argv[index]? = some arg) (parsed : parseUint8 b arg.text = .ok value) :
    byteAt b argv index = some value := by
  simp [byteAt,found,parsed,Except.toOption]

theorem openI2cSlave_quiet (bus address : UInt8) :
    (openI2cSlave bus address).All (fun trace outcome => Quiet trace ∧ ∀ fd, outcome = .ok fd → 0 ≤ fd → Ready trace) := by
  simp only [openI2cSlave,Prog.call_bind,Prog.done_bind,Prog.all_call]
  generalize "/dev/i2c-".toList ++ decimal bus.toNat = path
  intro (fd : Int)
  by_cases closed : fd < 0
  · simp [closed,complain]
  · have opened : 0 ≤ fd := by omega
    simp only [closed,if_false,Prog.all_call]
    intro (result : Int)
    by_cases refused : result < 0
    · simp [refused,complain]
    · have attached : 0 ≤ result := by omega
      simp [refused,opened,attached]

structure Opened (b : Build) (argv : List Arg) (op : SmbusOp) (stale params : SmbusOpParams) : Prop where
  bus : byteAt b argv 1 = some params.i2cBus
  address : byteAt b argv 2 = some params.address
  reg : if op.size.hasRegister then byteAt b argv 3 = some params.reg else params.reg = stale.reg
  rest : params = {stale with i2cBus := params.i2cBus,address := params.address,reg := params.reg,fd := params.fd}

def Prologued (b : Build) (argv : List Arg) (op : SmbusOp) (stale : SmbusOpParams) (trace : Trace Sys)
    (outcome : Except Fault (Option SmbusOpParams)) : Prop :=
  Quiet trace ∧ ∀ params, outcome = .ok (some params) → Ready trace ∧ Opened b argv op stale params

theorem prologued_gate : Gate (Prologued b argv op stale) (fun value => value = none) where
  idle quiet failed := ⟨quiet,fun params ok => by cases failed _ ok⟩
  prepend quiet ready holds := ⟨quiet.append holds.1,fun params ok => by
    simpa [ready] using holds.2 params ok⟩

theorem prologue_prologued (b : Build) (argv : List Arg) (stale : SmbusOpParams) (op : SmbusOp) :
    (smbusPrologue b argv stale op).All (Prologued b argv op stale) := by
  have gate := @prologued_gate b argv op stale
  have refuse : ∀ message, (Prog.call (Call.stderr message) (fun _ => .done none) : Action (Option SmbusOpParams)).All
      (fun trace outcome => Quiet trace ∧ ∀ value, outcome = .ok value → value = none) := by
    intro message reply
    simp
  unfold smbusPrologue
  refine gate.arg argv 1 (fun busArg busFound => gate.report _ (refuse _) (fun bus busParsed => ?_))
  refine gate.arg argv 2 (fun addressArg addressFound => gate.report _ (refuse _) (fun address addressParsed => ?_))
  -- the tail is shared by both ways to obtain the register
  have tail : ∀ reg, (if op.size.hasRegister then byteAt b argv 3 = some reg else reg = stale.reg) →
      ((openI2cSlave bus address) >>= fun fd => if fd < 0 then do
          ask (.stderr .openSlave)
          return none
        else return some {stale with i2cBus := bus,address := address,reg := reg,fd := fd} :
        Action (Option SmbusOpParams)).All (Prologued b argv op stale) := by
    intro reg register
    refine Prog.All.bind (openI2cSlave_quiet bus address) (fun trace reason h => ⟨h.1,by simp⟩) ?_
    rintro trace fd ⟨quiet,ready⟩
    by_cases failed : fd < 0
    · simp only [failed,if_true]
      intro reply
      exact ⟨quiet.append (by simp),by simp⟩
    · simp only [failed,if_false]
      refine ⟨by simpa using quiet,?_⟩
      rintro _ ⟨⟩
      exact ⟨by simpa using ready fd rfl (by omega),byteAt_of busFound busParsed,byteAt_of addressFound addressParsed,
        register,rfl⟩
  by_cases has : op.size.hasRegister
  · simp only [has,if_true] at tail ⊢
    refine gate.arg argv 3 (fun regArg regFound => gate.report _ (refuse _) (fun reg regParsed => ?_))
    exact tail reg (byteAt_of regFound regParsed)
  · simp only [has] at tail ⊢
    exact tail stale.reg rfl

-- The operation and operand size pairings that occur in the table.
def SmbusOp.sound (op : SmbusOp) : Bool :=
  match op.performOp with
  | .read => op.size.readable
  | .write => op.size.writable
  | .processCall => op.size = .procCall
  | .blockProcessCall => op.size = .blockProcCall
  | .writeread => op.size = .writeRead

def SmbusOp.operandIndex (op : SmbusOp) : Option Nat :=
  match op.performOp with
  | .read => none
  | .write => some (if op.size = .byte ∨ op.size = .quick then 3 else 4)
  | .processCall | .blockProcessCall => some 4
  | .writeread => some 3

def registerOf (b : Build) (argv : List Arg) (op : SmbusOp) : Option UInt8 :=
  if op.size.hasRegister then byteAt b argv 3 else some 0

-- What the arguments say, as the struct they fill in from nothing.
def parsed (b : Build) (argv : List Arg) (op : SmbusOp) : Option SmbusOpParams := do
  let i2cBus ← byteAt b argv 1
  let address ← byteAt b argv 2
  let reg ← registerOf b argv op
  let params : SmbusOpParams := {SmbusOpParams.zero with i2cBus := i2cBus,address := address,reg := reg}
  match op.operandIndex with
  | none => some params
  | some index => do
    let params ← operandAt b argv index params op.size
    if op.performOp = .writeread then do
      let readCount ← byteAt b argv 4
      if blockMax < readCount.toNat then none else some {params with readCount := readCount}
    else some params

theorem operandAt_some (accepted : operandAt b argv index params size = some stored) :
    ∃ arg, argv[index]? = some arg ∧ parseIoWidth b arg.text params size = .ok stored := by
  obtain ⟨arg,found,ok⟩ := Option.bind_eq_some_iff.mp accepted
  refine ⟨arg,found,?_⟩
  cases result : parseIoWidth b arg.text params size with
  | error stop => simp [result,Except.toOption] at ok
  | ok value => simpa [result,Except.toOption] using ok

theorem parsed_operand (accepted : parsed b argv op = some params) (index : op.operandIndex = some i) :
    ∃ arg base stored, argv[i]? = some arg ∧ parseIoWidth b arg.text base op.size = .ok stored ∧
      stored.data = params.data ∧ stored.len = params.len := by
  simp only [parsed,index,Option.bind_eq_bind,Option.bind_eq_some_iff] at accepted
  obtain ⟨_,_,_,_,_,_,stored,operand,rest⟩ := accepted
  obtain ⟨arg,found,ok⟩ := operandAt_some operand
  refine ⟨arg,_,stored,found,ok,?_⟩
  split at rest
  · obtain ⟨count,_,counted⟩ := Option.bind_eq_some_iff.mp rest
    split at counted
    · cases counted
    · cases counted
      exact ⟨rfl,rfl⟩
  · cases rest
    exact ⟨rfl,rfl⟩

theorem operand_stored (fixed : op.size.fixedBytes = some count) (index : op.operandIndex = some i)
    (accepted : parsed b argv op = some params) : ∃ arg, argv[i]? = some arg ∧
      params.data = SmbusDtype.setFixed b Buffer.zero count (operandValue b op.size arg.text) := by
  obtain ⟨arg,base,stored,found,ok,data,_⟩ := parsed_operand accepted index
  exact ⟨arg,found,by rw [← data,parseIoWidth_fixed fixed ok]⟩

def SmbusOp.relevant (op : SmbusOp) (params : SmbusOpParams) : SmbusOpParams where
  fd := 0
  reg := if op.size.hasRegister then params.reg else 0
  i2cBus := params.i2cBus
  address := params.address
  readCount := if op.performOp = .writeread then params.readCount else 0
  len := if op.operandIndex.isSome ∧ op.size.isBlock then params.len else 0
  data := if op.operandIndex.isSome then params.data else Buffer.zero

-- The transfer each operation asks for, and what it accepts as its end.
def wireOf (op : SmbusOp) (params : SmbusOpParams) : Wire :=
  match op.performOp with
  | .read => readWire op.size params.reg
  | .write => writeWire op.size params
  | .processCall => .smbus 0 params.reg .procCall (params.data.slice 0 2)
  | .blockProcessCall => blockWire .blockProcCall params
  | .writeread => .rdwr (writeMessage params) (readMessage params)

def acceptOf (b : Build) (op : SmbusOp) (params : SmbusOpParams) : Transferred → Text → Prop :=
  match op.performOp with
  | .read => AcceptRead b op.size
  | .write => AcceptWrite
  | .processCall => AcceptProcessCall b params
  | .blockProcessCall => AcceptRead b .blockProcCall
  | .writeread => AcceptWriteread params

theorem wireOf_relevant (sound : op.sound = true) (params : SmbusOpParams) :
    wireOf op (op.relevant params) = wireOf op params := by
  obtain ⟨size,performOp⟩ := op
  cases performOp <;> cases size <;> first | rfl | cases sound

theorem acceptOf_relevant (b : Build) (op : SmbusOp) (params : SmbusOpParams) :
    acceptOf b op (op.relevant params) = acceptOf b op params := by
  obtain ⟨size,performOp⟩ := op
  cases performOp <;> rfl

-- Block operands are within the kernel's limit.
def SmbusOp.Fits (op : SmbusOp) (params : SmbusOpParams) : Prop :=
  (op.operandIndex.isSome → op.size.isBlock → 0 ≤ params.len ∧ params.len ≤ blockMax) ∧
  (op.performOp = .writeread → params.readCount.toNat ≤ blockMax)

theorem performOp_conducted (b : Build) (sound : op.sound = true) (fits : op.Fits params) :
    (performOp b params op).All (Conducted (wireOf op params) (acceptOf b op params)) := by
  obtain ⟨size,perform⟩ := op
  cases perform with
  | read => exact readOp_conducted b params _ sound
  | write => exact writeOp_conducted b params _ sound (fun block => fits.1 rfl (by simp_all [SmbusSize.isBlock]))
  | processCall => exact processCallOp_conducted b params
  | blockProcessCall =>
    have block : size = .blockProcCall := by simpa [SmbusOp.sound] using sound
    obtain ⟨nonneg,small⟩ := fits.1 rfl (by simp [block,SmbusSize.isBlock])
    exact blockProcessCallOp_conducted b params nonneg small
  | writeread => exact writereadOp_conducted b params (fits.2 rfl)

-- How a command of the table serves its arguments: it stays off the bus and
-- does not return 0, or all arguments were accepted and it conducts the
-- transfer they ask for.
def Served (b : Build) (argv : List Arg) (op : SmbusOp) (trace : Trace Sys) (outcome : Except Fault Int) : Prop :=
  (Quiet trace ∧ outcome ≠ .ok 0) ∨
  ∃ params, parsed b argv op = some params ∧ Conducted (wireOf op params) (acceptOf b op params) trace outcome

theorem served_gate : Gate (Served b argv op) (fun value => value ≠ 0) where
  idle quiet failed := .inl ⟨quiet,fun zero => failed 0 zero rfl⟩
  prepend quiet ready served := by
    rcases served with ⟨idle,failed⟩ | ⟨params,accepted,conducted⟩
    · exact .inl ⟨quiet.append idle,failed⟩
    · exact .inr ⟨params,accepted,conducted.prepend quiet ready⟩

theorem served_performOp (sound : op.sound = true) (fits : op.Fits params)
    (accepted : parsed b argv op = some (op.relevant params)) :
    (performOp b params op >>= fun ret => .call (.close params.fd) (fun _ => .done ret)).All (Served b argv op) := by
  refine (conducted_close (performOp_conducted b sound fits) params.fd).mono (fun trace outcome conducted => .inr ?_)
  refine ⟨op.relevant params,accepted,?_⟩
  rwa [wireOf_relevant sound,acceptOf_relevant]

def SmbusOp.opened (op : SmbusOp) (params : SmbusOpParams) : SmbusOpParams :=
  {SmbusOpParams.zero with
    i2cBus := params.i2cBus
    address := params.address
    reg := if op.size.hasRegister then params.reg else 0}

theorem parsed_opened (opened : Opened b argv op stale params) :
    parsed b argv op = (match op.operandIndex with
      | none => some (op.opened params)
      | some index => do
        let params ← operandAt b argv index (op.opened params) op.size
        if op.performOp = .writeread then do
          let readCount ← byteAt b argv 4
          if blockMax < readCount.toNat then none else some {params with readCount := readCount}
        else some params) := by
  have register := opened.reg
  unfold parsed
  rw [opened.bus,opened.address]
  by_cases has : op.size.hasRegister
  · simp only [has,if_true] at register
    simp [registerOf,has,register,SmbusOp.opened]
  · simp [registerOf,has,SmbusOp.opened]

theorem operandAt_opened (op : SmbusOp) (found : argv[index]? = some arg)
    (accepted : parseIoWidth b arg.text params op.size = .ok stored) :
    operandAt b argv index (op.opened params) op.size =
      some {op.opened params with data := stored.data,len := if op.size.isBlock then stored.len else 0} ∧
    stored = {params with data := stored.data,len := stored.len} ∧
    (op.size.isBlock → 0 ≤ stored.len ∧ stored.len ≤ blockMax) := by
  obtain ⟨z,scratch,rfl⟩ := parseIoWidth_scratch accepted
  refine ⟨?_,rfl,?_⟩
  · rw [operandAt,found]
    simp only [Option.bind_some]
    rw [parseIoWidth_frame,scratch]
    by_cases block : op.size.isBlock <;> simp [block,Except.map,Except.toOption,SmbusOp.opened,SmbusOpParams.zero]
  · intro block
    simp only [block,if_true]
    rw [parseIoWidth_block block] at scratch
    obtain ⟨length,small,_⟩ := parseBlock_length arg.short scratch
    omega

theorem prologue_then {rest : SmbusOpParams → Action Int}
    (then_ : ∀ params, Opened b argv op stale params → (rest params).All (Served b argv op)) :
    (smbusPrologue b argv stale op >>= fun opened =>
      match opened with
      | none => .done (-1)
      | some params => rest params).All (Served b argv op) := by
  refine Prog.All.bind (prologue_prologued b argv stale op) ?_ ?_
  · rintro trace reason ⟨quiet,_⟩
    exact .inl ⟨quiet,by simp⟩
  · rintro trace opened ⟨quiet,ready⟩
    cases opened with
    | none => exact .inl ⟨by simpa using quiet,by simp⟩
    | some params =>
      obtain ⟨ready,filled⟩ := ready params rfl
      exact (then_ params filled).mono (fun later outcome => served_gate.prepend quiet ready)

theorem staleParams_served {next : SmbusOpParams → Action Int} (then_ : ∀ stale, (next stale).All (Served b argv op)) :
    (Prog.call Call.staleParams next : Action Int).All (Served b argv op) := by
  intro stale
  have quiet : Quiet [⟨.staleParams,stale⟩] := by simp
  have ready : Ready [⟨.staleParams,stale⟩] := by simp
  exact (then_ stale).mono (fun trace outcome => served_gate.prepend quiet ready)

theorem invalidValue_fails (argv : List Arg) (index : Nat) (fd : Int) :
    (do ask (.stderr (.invalidValue (← argAt argv 0) (← argAt argv index)))
        ask (.close fd)
        return -1 : Action Int).All (fun trace outcome => Quiet trace ∧ ∀ value, outcome = .ok value → value ≠ 0) := by
  unfold argAt
  cases argv[0]? with
  | none => simp
  | some name => cases argv[index]? <;> simp

theorem operandThenOp_served (sound : op.sound = true) (index : op.operandIndex = some i)
    (single : op.performOp ≠ .writeread) (opened : Opened b argv op stale params) :
    (operandThenOp b argv params op i).All (Served b argv op) := by
  refine served_gate.arg argv i (fun arg found => served_gate.report _ (invalidValue_fails argv i params.fd) ?_)
  intro stored accepted
  obtain ⟨described,same,bounded⟩ := operandAt_opened op found accepted
  refine served_performOp sound ⟨fun _ => bounded,fun never => absurd never single⟩ ?_
  rw [parsed_opened opened,index]
  simp only [described,single,if_false,Option.bind_eq_bind,Option.bind_some]
  rw [same]
  simp [SmbusOp.relevant,SmbusOp.opened,index,single,SmbusOpParams.zero]

theorem smbusRead_served (sound : op.sound = true) (reads : op.performOp = .read) (privdata : info.privdata = .smbusOp op) :
    (smbusRead b argv info).All (Served b argv op) := by
  have plain : op.operandIndex = none := by simp [SmbusOp.operandIndex,reads]
  simp only [smbusRead,smbusOpOf,privdata]
  refine staleParams_served (fun stale => prologue_then (fun params opened => ?_))
  refine served_performOp sound ⟨by simp [plain],by simp [reads]⟩ ?_
  rw [parsed_opened opened,plain]
  simp [SmbusOp.relevant,SmbusOp.opened,plain,reads,SmbusOpParams.zero]

theorem smbusWrite_served (sound : op.sound = true) (writes : op.performOp = .write)
    (privdata : info.privdata = .smbusOp op) : (smbusWrite b argv info).All (Served b argv op) := by
  simp only [smbusWrite,smbusOpOf,privdata]
  refine staleParams_served (fun stale => prologue_then (fun params opened => ?_))
  exact operandThenOp_served sound (by simp [SmbusOp.operandIndex,writes]) (by simp [writes]) opened

theorem smbusProcessCall_served (sound : op.sound = true)
    (calls : op.performOp = .processCall ∨ op.performOp = .blockProcessCall)
    (privdata : info.privdata = .smbusOp op) : (smbusProcessCall b argv info).All (Served b argv op) := by
  simp only [smbusProcessCall,smbusOpOf,privdata]
  refine staleParams_served (fun stale => prologue_then (fun params opened => ?_))
  have index : op.operandIndex = some 4 := by
    rcases calls with word | block
    · simp [SmbusOp.operandIndex,word]
    · simp [SmbusOp.operandIndex,block]
  have single : op.performOp ≠ .writeread := by
    rcases calls with word | block
    · simp [word]
    · simp [block]
  exact operandThenOp_served sound index single opened

theorem smbusWriteread_served (sound : op.sound = true) (both : op.performOp = .writeread)
    (privdata : info.privdata = .smbusOp op) : (smbusWriteread b argv info).All (Served b argv op) := by
  have index : op.operandIndex = some 3 := by simp [SmbusOp.operandIndex,both]
  simp only [smbusWriteread,smbusOpOf,privdata]
  refine prologue_then (fun params opened => ?_)
  refine served_gate.arg argv 3 (fun arg found => served_gate.report _ (invalidValue_fails argv 3 params.fd) ?_)
  intro stored accepted
  obtain ⟨described,same,bounded⟩ := operandAt_opened op found accepted
  refine served_gate.arg argv 4 (fun countArg countFound => served_gate.report _ ?_ (fun count countParsed => ?_))
  · unfold argAt
    rw [countFound]
    simp
  · by_cases big : blockMax < count.toNat
    · simp only [big,if_true]
      refine served_gate.arg argv 3 (fun arg found reply => served_gate.idle (by simp) (by simp))
    · simp only [big,if_false]
      refine served_performOp sound ⟨fun _ => bounded,fun _ => by simpa using big⟩ ?_
      rw [parsed_opened opened,index]
      simp only [described,both,if_true,Option.bind_eq_bind,Option.bind_some,byteAt_of countFound countParsed,big,if_false]
      rw [same]
      simp [SmbusOp.relevant,SmbusOp.opened,index,both,SmbusOpParams.zero]

def Entry.performs (entry : Entry) (op : SmbusOp) : Bool :=
  match entry with
  | .smbusRead => op.performOp = .read
  | .smbusWrite => op.performOp = .write
  | .smbusProcessCall => op.performOp = .processCall || op.performOp = .blockProcessCall
  | .smbusWriteread => op.performOp = .writeread
  | _ => false

def CmdInfo.smbusOp (info : CmdInfo) : SmbusOp :=
  match info.privdata with
  | .smbusOp op => op
  | _ => ⟨.quick,.read⟩

theorem smbusCmds_paired : ∀ info ∈ smbusCmds, info.privdata = .smbusOp info.smbusOp ∧ info.smbusOp.sound = true ∧
    info.entry.performs info.smbusOp = true ∧ ∀ params ∈ info.params, params.ioplNeeded = 0 := by
  decide

theorem entry_served {entry : Entry} {op : SmbusOp} {info : CmdInfo} (performs : entry.performs op = true) (sound : op.sound = true)
    (privdata : info.privdata = .smbusOp op) (b : Build) (fuel : Nat) (argv : List Arg) :
    (entry.call b fuel argv info).All (Served b argv op) := by
  cases entry with
  | smbusRead => exact smbusRead_served sound (by simpa [Entry.performs] using performs) privdata
  | smbusWrite => exact smbusWrite_served sound (by simpa [Entry.performs] using performs) privdata
  | smbusProcessCall => exact smbusProcessCall_served sound (by simpa [Entry.performs] using performs) privdata
  | smbusWriteread => exact smbusWriteread_served sound (by simpa [Entry.performs] using performs) privdata
  | _ => cases performs

theorem checkPrereqs_count (noIopl : ∀ p ∈ params, p.ioplNeeded = 0) :
    (checkPrereqs b argv params).All (fun trace outcome => Quiet trace ∧ Ready trace ∧
      ∀ value, outcome = .ok value → value = 0 ∨ value = -1) := by
  cases params with
  | none => simp [checkPrereqs]
  | some p =>
    have level : p.ioplNeeded = 0 := noIopl p rfl
    simp only [checkPrereqs,level]
    split
    · unfold argAt
      cases argv[0]? <;> simp
    · simp

-- Every run of an SMBus command, whatever the arguments and the environment.
theorem smbus_served (b : Build) (fuel : Nat) (argv : List Arg) (member : info ∈ smbusCmds) :
    (runInfo b fuel argv info).All (Served b argv info.smbusOp) := by
  obtain ⟨privdata,sound,performs,noIopl⟩ := smbusCmds_paired info member
  refine served_gate.quiet (checkPrereqs_count noIopl) (fun value either => ?_)
  rcases either with rfl | rfl
  · exact entry_served performs sound privdata b fuel argv
  · exact served_gate.idle (by simp) (by simp)

end Iotools
