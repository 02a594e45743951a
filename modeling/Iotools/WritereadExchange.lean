import Iotools.MmioAccess
import Iotools.SmbusRun

namespace Iotools
open Bytes Numeral Interaction

theorem byteAt_some (accepted : byteAt b argv index = some byte) :
    ∃ arg, argv[index]? = some arg ∧ parseUint8 b arg.text = .ok byte := by
  obtain ⟨arg,found,ok⟩ := Option.bind_eq_some_iff.mp accepted
  refine ⟨arg,found,?_⟩
  cases result : parseUint8 b arg.text with
  | error stop => simp [result,Except.toOption] at ok
  | ok value => simpa [result,Except.toOption] using ok

theorem parseIoWidth_refd (accepted : parseIoWidth b arg params size = .ok stored) (fd : Int) :
    parseIoWidth b arg {params with fd := fd} size = .ok {stored with fd := fd} := by
  obtain ⟨value,scratch,rfl⟩ := parseIoWidth_scratch accepted
  rw [parseIoWidth_frame,scratch]
  rfl

theorem smbusWriteread_accepted (b : Build) (sized : op.size = .writeRead) (performs : op.performOp = .writeread)
    (held : info.privdata = .smbusOp op) (accepted : parsed b argv op = some params) :
    smbusWriteread b argv info = openI2cSlave params.i2cBus params.address >>= fun fd =>
      if fd < 0 then .call (.stderr .openSlave) fun _ => .done (-1)
      else smbusWritereadOp b {params with fd := fd} >>= fun ret => .call (.close fd) fun _ => .done ret := by
  have index : op.operandIndex = some 3 := by simp [SmbusOp.operandIndex,performs]
  have plain : op.size.hasRegister = false := by simp [sized,SmbusSize.hasRegister]
  have register : registerOf b argv op = some 0 := by simp [registerOf,plain]
  have carried : smbusOpOf info = .done op := by
    unfold smbusOpOf
    rw [held]
    rfl
  have exchange (p : SmbusOpParams) : performOp b p op = smbusWritereadOp b p := by
    unfold performOp
    rw [performs]
  simp only [parsed,index,register,performs,if_true,Option.bind_eq_bind,Option.bind_eq_some_iff] at accepted
  obtain ⟨bus,atBus,address,atAddress,reg,zero,stored,atOperand,count,atCount,rest⟩ := accepted
  cases zero
  obtain ⟨busArg,busFound,busParsed⟩ := byteAt_some atBus
  obtain ⟨addressArg,addressFound,addressParsed⟩ := byteAt_some atAddress
  obtain ⟨operandArg,operandFound,operandParsed⟩ := operandAt_some atOperand
  obtain ⟨countArg,countFound,countParsed⟩ := byteAt_some atCount
  split at rest
  · cases rest
  · rename_i small
    cases rest
    unfold smbusWriteread smbusPrologue
    simp only [carried,argAt_found busFound,argAt_found addressFound,argAt_found operandFound,argAt_found countFound,
      busParsed,addressParsed,countParsed,report,plain,Prog.pure_eq,Prog.done_bind,Bool.false_eq_true,if_false,Prog.bind_assoc]
    have keeps := parseIoWidth_keeps operandParsed
    have sameBus : stored.i2cBus = bus := by rw [keeps]
    have sameAddress : stored.address = address := by rw [keeps]
    rw [sameBus,sameAddress]
    congr 1
    funext fd
    by_cases failed : fd < 0
    · rw [if_pos failed,if_pos failed]
      rfl
    · have parsedAgain := parseIoWidth_refd operandParsed fd
      rw [if_neg failed,if_neg failed,Prog.done_bind]
      dsimp only [SmbusOpParams.zero] at parsedAgain ⊢
      rw [parsedAgain]
      simp only [Prog.done_bind,small,if_false,exchange,sameBus,sameAddress]
      rfl

def Concludes (params : SmbusOpParams) (reply : Int × List UInt8) (after : Trace Sys) (outcome : Except Fault Int) : Prop :=
  (reply.1 < 0 ∧ outcome = .ok (-1)) ∨
  (0 ≤ reply.1 ∧ outcome = .ok 0 ∧ printed after =
    blockText ((params.data.patch 0 (reply.2.take params.readCount.toNat)).slice 0 params.readCount.toNat))

def Exchanges (params : SmbusOpParams) (trace : Trace Sys) (outcome : Except Fault Int) : Prop :=
  (Ready trace → ∃ before fd reply after,
    trace = before ++ ⟨.ioctlRdwr fd (writeMessage params) (readMessage params),reply⟩ :: after ∧
    Quiet before ∧ transfers after = [] ∧ Concludes params reply after outcome) ∧
  (¬ Ready trace → transfers trace = [] ∧ outcome ≠ .ok 0)

theorem writereadOp_exchanges (b : Build) (params : SmbusOpParams) (small : params.readCount.toNat ≤ blockMax) (fd : Int) :
    (smbusWritereadOp b {params with fd := fd} >>= fun ret => .call (.close fd) fun _ => .done ret).All
      (fun trace outcome => Ready trace ∧ ∃ reply after,
        trace = ⟨.ioctlRdwr fd (writeMessage params) (readMessage params),reply⟩ :: after ∧ transfers after = [] ∧
        Concludes params reply after outcome) := by
  simp only [smbusWritereadOp,Prog.call_bind,Prog.done_bind]
  intro reply
  by_cases failed : reply.1 < 0
  · simp only [failed,if_true,complain,Prog.call_bind,Prog.done_bind,Prog.pure_eq]
    intro err _ _
    exact ⟨by simp [setupOk],reply,_,rfl,rfl,.inl ⟨failed,rfl⟩⟩
  · have valid : 0 ≤ reply.1 := by omega
    simp only [failed,if_false,printReadData,readText_block b _ small,Prog.call_bind,Prog.done_bind,Prog.pure_eq]
    intro _ _
    exact ⟨by simp [setupOk],reply,_,rfl,rfl,.inr ⟨valid,rfl,by simp⟩⟩

theorem openI2cSlave_ready (bus address : UInt8) :
    (openI2cSlave bus address).All (fun trace outcome =>
      Quiet trace ∧ ∃ fd : Int, outcome = .ok fd ∧ (Ready trace ↔ 0 ≤ fd)) := by
  simp only [openI2cSlave,Prog.call_bind,Prog.done_bind,Prog.all_call]
  generalize "/dev/i2c-".toList ++ decimal bus.toNat = path
  intro (fd : Int)
  by_cases closed : fd < 0
  · have negative : ¬ 0 ≤ fd := by omega
    simp [closed,complain,negative]
  · have opened : 0 ≤ fd := by omega
    simp only [closed,if_false,Prog.all_call]
    intro (result : Int)
    by_cases refused : result < 0
    · have negative : ¬ 0 ≤ result := by omega
      simp [refused,complain,negative]
    · have attached : 0 ≤ result := by omega
      simp [refused,opened,attached]

theorem smbusWriteread_exchanges (b : Build) (sized : op.size = .writeRead) (performs : op.performOp = .writeread)
    (held : info.privdata = .smbusOp op) (accepted : parsed b argv op = some params)
    (small : params.readCount.toNat ≤ blockMax) : (smbusWriteread b argv info).All (Exchanges params) := by
  rw [smbusWriteread_accepted b sized performs held accepted]
  apply Prog.All.bind (openI2cSlave_ready params.i2cBus params.address)
  · rintro trace reason ⟨_,fd,failed,_⟩
    cases failed
  · rintro before fd ⟨quiet,_,returned,ready⟩
    cases returned
    split
    · rename_i closed
      have unready : ¬ Ready before := fun whole => absurd (ready.mp whole) (by omega)
      intro _
      refine ⟨?_,?_⟩
      · intro whole
        exact absurd ((ready_append _ _).mp whole).1 unready
      · intro _
        simp [quiet.1,transfers_cons]
    · rename_i opened
      have whole : Ready before := ready.mpr (by omega)
      apply (writereadOp_exchanges b params small fd).mono
      rintro trace outcome ⟨later,reply,after,rfl,single,concludes⟩
      refine ⟨?_,?_⟩
      · intro _
        exact ⟨before,fd,reply,after,rfl,quiet,single,concludes⟩
      · intro unready
        exact absurd ((ready_append _ _).mpr ⟨whole,later⟩) unready

theorem parsed_count (performs : op.performOp = .writeread) (accepted : parsed b argv op = some params) :
    params.readCount.toNat ≤ blockMax := by
  have index : op.operandIndex = some 3 := by simp [SmbusOp.operandIndex,performs]
  simp only [parsed,index,performs,if_true,Option.bind_eq_bind,Option.bind_eq_some_iff] at accepted
  obtain ⟨_,_,_,_,_,_,stored,_,count,_,rest⟩ := accepted
  split at rest
  · cases rest
  · rename_i small
    cases rest
    exact Nat.le_of_not_lt small

-- I2C_RDWR answers an error or the number of completed messages, and the second
-- message supplies its bytes when it is completed.
def RdwrLaw (second : I2cMsg) (reply : Int × List UInt8) : Prop :=
  reply.1 ≤ 2 ∧ (reply.1 = 2 → reply.2.length = second.len) ∧ (0 ≤ reply.1 → reply.1 < 2 → reply.2 = [])

def rdwrEvent : Event Sys → Prop
  | ⟨.ioctlRdwr _ _ second,reply⟩ => RdwrLaw second reply
  | _ => True

-- When 0 is returned, what was printed is what the device supplied.
def Answered (params : SmbusOpParams) (reply : Int × List UInt8) (trace : Trace Sys) (outcome : Except Fault Int) : Prop :=
  outcome = .ok 0 → reply.2.length = params.readCount.toNat ∧ printed trace = blockText reply.2

theorem concludes_answered {trace : Trace Sys} (concludes : Concludes params reply after outcome)
    (law : RdwrLaw (readMessage params) reply) (small : params.readCount.toNat ≤ blockMax)
    (shown : printed trace = printed after) :
    Answered params reply trace outcome ↔ reply.1 < 0 ∨ reply.1 = 2 ∨ params.readCount = 0 := by
  obtain ⟨most,both,fewer⟩ := law
  rcases concludes with ⟨failed,rfl⟩ | ⟨valid,rfl,text⟩
  · simp [Answered,failed]
  · by_cases completed : reply.1 = 2
    · have length : reply.2.length = params.readCount.toNat := both completed
      have back := Buffer.slice_patch params.data reply.2 (show 0 + _ ≤ 34 by unfold blockMax at small; omega)
      rw [← length,List.take_length,back] at text
      simp [Answered,completed,length,shown,text]
    · have none_ : reply.2 = [] := fewer valid (by omega)
      have negative : ¬ reply.1 < 0 := by omega
      rw [none_] at text
      simp only [Answered,none_,shown,text,completed,negative,false_or,forall_const]
      constructor
      · rintro ⟨zero,_⟩
        exact UInt8.toNat_inj.mp zero.symm
      · intro zero
        rw [zero]
        exact ⟨rfl,by simp [Buffer.slice]⟩

theorem writeread_paired : ∀ info ∈ smbusCmds, info.entry = .smbusWriteread →
    info.privdata = .smbusOp info.smbusOp ∧ info.smbusOp.size = .writeRead ∧ info.smbusOp.performOp = .writeread ∧
    ∀ p ∈ info.params, p.ioplNeeded = 0 := by
  decide

-- Every run with accepted arguments sends the two messages once the device is
-- attached; what it prints is the answer unless the read was not completed.
theorem writeread_answer_iff (b : Build) (fuel : Nat) (info : CmdInfo) (member : info ∈ smbusCmds)
    (entry : info.entry = .smbusWriteread) (argv : List Arg) (admitted : Admits info.params argv)
    (accepted : parsed b argv info.smbusOp = some params) (kernel : Kernel Sys σ)
    (lawful : ∀ fd first second s, RdwrLaw second (kernel (.ioctlRdwr fd first second) s).1) (s : σ) :
    let run := (runInfo b fuel argv info).exec kernel s
    (Ready run.trace → ∃ before fd reply after,
      run.trace = before ++ ⟨.ioctlRdwr fd (writeMessage params) (readMessage params),reply⟩ :: after ∧
      transfers before = [] ∧ transfers after = [] ∧
      (Answered params reply run.trace run.outcome ↔ reply.1 < 0 ∨ reply.1 = 2 ∨ params.readCount = 0)) ∧
    (¬ Ready run.trace → transfers run.trace = [] ∧ run.outcome ≠ .ok 0) := by
  obtain ⟨held,sized,performs,noIopl⟩ := writeread_paired info member entry
  have small := parsed_count performs accepted
  have events : ∀ e ∈ ((runInfo b fuel argv info).exec kernel s).trace, rdwrEvent e := by
    apply Prog.exec_events
    intro c state
    cases c with
    | ioctlRdwr fd first second => exact lawful fd first second state
    | _ => trivial
  have runs : runInfo b fuel argv info = smbusWriteread b argv info := by
    rw [runInfo_admitted b fuel noIopl admitted,entry]
    rfl
  rw [runs] at events ⊢
  obtain ⟨sends,stops⟩ := (smbusWriteread_exchanges b sized performs held accepted small).exec kernel s
  refine ⟨?_,stops⟩
  intro ready
  obtain ⟨before,fd,reply,after,shape,quiet,single,concludes⟩ := sends ready
  have law : RdwrLaw (readMessage params) reply := by
    apply events ⟨.ioctlRdwr fd (writeMessage params) (readMessage params),reply⟩
    rw [shape]
    simp
  refine ⟨before,fd,reply,after,shape,quiet.1,single,?_⟩
  apply concludes_answered concludes law small
  rw [shape,printed_append,printed_cons,quiet.2]
  rfl

def writereadInfo : CmdInfo :=
  makeCmdWithParams "smbus_writeread" .smbusWriteread (.smbusOp ⟨.writeRead,.writeread⟩) smbusWritereadParams

def Transferred.supplied : Transferred → List UInt8
  | .smbus _ _ => []
  | .rdwr _ _ reply => reply.2

def halfway : Kernel Sys Unit := fun c s =>
  match c with
  | .ioctlRdwr .. => (((1 : Int),[]),s)
  | c => (c.succeeds,s)

theorem writeread_echoes :
    let run := (runInfo .x86_64 0 (["smbus_writeread","0","0x50","A5","1"].map Arg.of) writereadInfo).exec halfway ()
    (∀ fd first second s, RdwrLaw second (halfway (.ioctlRdwr fd first second) s).1) ∧
    (transfers run.trace).map Transferred.wire = [.rdwr ⟨0x50,false,1,[0xA5]⟩ ⟨0x50,true,1,[0xA5]⟩] ∧
    (transfers run.trace).map Transferred.result = [1] ∧
    (transfers run.trace).map Transferred.supplied = [[]] ∧ run.outcome = .ok 0 ∧ printed run.trace = "A5\n".toList := by
  refine ⟨?_,by decide +kernel,by decide +kernel,by decide +kernel,by decide +kernel,by decide +kernel⟩
  intro fd first second s
  show RdwrLaw second (1,[])
  simp [RdwrLaw]

theorem writeread_answer_iff_zeros :
    let argv := ["smbus_writeread","0","0x50","A5","2"].map Arg.of
    let run := (runInfo .x86_64 0 argv writereadInfo).exec smooth ()
    run.outcome = .ok 0 ∧ ∃ params reply, parsed .x86_64 argv writereadInfo.smbusOp = some params ∧ reply.1 = 2 ∧
      Answered params reply run.trace run.outcome := by
  have returned : ((runInfo .x86_64 0 (["smbus_writeread","0","0x50","A5","2"].map Arg.of) writereadInfo).exec
      smooth ()).outcome = .ok 0 := by decide +kernel
  have results : (transfers ((runInfo .x86_64 0 (["smbus_writeread","0","0x50","A5","2"].map Arg.of) writereadInfo).exec
      smooth ()).trace).map Transferred.result = [2] := by decide +kernel
  obtain ⟨params,accepted⟩ : ∃ params, parsed .x86_64 (["smbus_writeread","0","0x50","A5","2"].map Arg.of)
      writereadInfo.smbusOp = some params := Option.isSome_iff_exists.mp (by decide +kernel)
  have lawful : ∀ fd first second s, RdwrLaw second (smooth (.ioctlRdwr fd first second) s).1 := by
    intro fd first second s
    show RdwrLaw second (2,List.replicate second.len 0)
    simp [RdwrLaw]
  obtain ⟨sends,stops⟩ := writeread_answer_iff .x86_64 0 writereadInfo (by decide) rfl
    (["smbus_writeread","0","0x50","A5","2"].map Arg.of) (by decide) accepted smooth lawful ()
  refine ⟨returned,params,?_⟩
  by_cases ready : Ready ((runInfo .x86_64 0 (["smbus_writeread","0","0x50","A5","2"].map Arg.of) writereadInfo).exec smooth ()).trace
  · obtain ⟨before,fd,reply,after,shape,quiet,single,answers⟩ := sends ready
    have two : reply.1 = 2 := by
      rw [shape] at results
      simpa [quiet,single,transfers_cons,Transferred.result] using results
    exact ⟨reply,accepted,two,answers.mpr (.inr (.inl two))⟩
  · exact absurd returned (stops ready).2

end Iotools
