import Iotools.SmbusRun

namespace Iotools
open Bytes Numeral Interaction

theorem transfer_place (quiet : transfers before = []) (silent : transfers after = [])
    (sent : transferred other = some t) (same : before ++ e :: after = left ++ other :: right) :
    left = before ∧ other = e ∧ right = after := by
  have absent : ∀ trace, transfers trace = [] → other ∉ trace := by
    intro trace none_ member
    have : t ∈ transfers trace := List.mem_filterMap.mpr ⟨other,member,sent⟩
    simp [none_] at this
  rcases List.append_eq_append_iff.mp same with ⟨middle,rfl,rest⟩ | ⟨middle,rfl,rest⟩
  · cases middle with
    | nil =>
      simp only [List.nil_append,List.cons.injEq] at rest
      simp [rest.1,rest.2]
    | cons head tail =>
      simp only [List.cons_append,List.cons.injEq] at rest
      exact absurd (by simp [rest.2]) (absent after silent)
  · cases middle with
    | nil =>
      simp only [List.nil_append,List.cons.injEq] at rest
      simp [rest.1,rest.2]
    | cons head tail =>
      simp only [List.cons_append,List.cons.injEq] at rest
      exact absurd (by simp [rest.1]) (absent _ quiet)

theorem Served.single (served : Served b argv op trace outcome) : (transfers trace).length ≤ 1 := by
  rcases served with ⟨quiet,_⟩ | ⟨params,_,⟨quiet,_⟩ | ⟨before,e,after,t,rfl,quiet,_,sent,_,silent,_⟩⟩
  · simp [quiet.1]
  · simp [quiet.1]
  · simp [transfers_cons,quiet.1,sent,silent]

theorem Served.at_transfer (served : Served b argv op (before ++ e :: after) outcome) (sent : transferred e = some t) :
    Ready before ∧ ∃ params, parsed b argv op = some params ∧ t.wire = wireOf op params := by
  have busy : ¬ Quiet (before ++ e :: after) := by
    rintro ⟨none_,_⟩
    simp [transfers_cons,sent] at none_
  rcases served with ⟨quiet,_⟩ | ⟨params,accepted,⟨quiet,_⟩ | ⟨pre,event,post,t',same,quiet,ready,sent',asked,silent,_⟩⟩
  · exact absurd quiet busy
  · exact absurd quiet busy
  · obtain ⟨rfl,rfl,rfl⟩ := transfer_place quiet.1 silent sent same.symm
    rw [sent] at sent'
    cases sent'
    exact ⟨ready,params,accepted,asked⟩

theorem acceptOf_result (accepted : acceptOf b op params t text) : 0 ≤ t.result := by
  obtain ⟨size,perform⟩ := op
  cases perform with
  | read => exact le_of_eq accepted.1.symm
  | write => exact accepted.1
  | processCall => exact le_of_eq accepted.1.symm
  | blockProcessCall => exact le_of_eq accepted.1.symm
  | writeread => exact accepted.1

theorem Served.success (served : Served b argv op trace (.ok 0)) :
    ∃ params t, parsed b argv op = some params ∧ transfers trace = [t] ∧ t.wire = wireOf op params ∧
      acceptOf b op params t (printed trace) := by
  rcases served with ⟨_,failed⟩ | ⟨params,accepted,⟨_,failed⟩ | ⟨before,e,after,t,rfl,quiet,_,sent,asked,silent,ends,_⟩⟩
  · exact absurd rfl failed
  · exact absurd rfl failed
  · have unsaid : output e = [] := by
      revert sent
      unfold transferred output
      split <;> simp
    refine ⟨params,t,accepted,by simp [transfers_cons,quiet.1,sent,silent],asked,?_⟩
    simpa [quiet.2,unsaid] using ends rfl

def Wire.length : Wire → Nat
  | .smbus _ _ .blockData (count :: _) => count.toNat
  | .smbus _ _ .i2cBlockData (count :: _) => count.toNat
  | .smbus _ _ .blockProcCall (count :: _) => count.toNat
  | .smbus _ _ _ bytes => bytes.length
  | .rdwr first _ => first.len

theorem wireOf_length (sound : op.sound = true) (index : op.operandIndex = some i) (block : op.size.isBlock = true)
    (accepted : parsed b argv op = some params) :
    ∃ arg, argv[i]? = some arg ∧ (wireOf op params).length = (pairs arg.text).length / 2 ∧
      (pairs arg.text).length / 2 ≤ blockMax := by
  obtain ⟨arg,base,stored,found,ok,-,sameLen⟩ := parsed_operand accepted index
  rw [parseIoWidth_block block] at ok
  obtain ⟨length,small,_⟩ := parseBlock_length arg.short ok
  have count : params.len.toNat = (pairs arg.text).length / 2 := by omega
  refine ⟨arg,found,?_,small⟩
  have byte : (UInt8.ofNat ((pairs arg.text).length / 2)).toNat = (pairs arg.text).length / 2 := by
    unfold blockMax at small
    rw [UInt8.toNat_ofNat']
    omega
  obtain ⟨size,perform⟩ := op
  cases perform with
  | read => cases index
  | write =>
    have only : size = .block := by
      revert sound block
      cases size <;> decide
    subst only
    simp [wireOf,writeWire,Wire.length,count,byte]
  | processCall =>
    have only : size = .procCall := by simpa [SmbusOp.sound] using sound
    subst only
    cases block
  | blockProcessCall => simp [wireOf,blockWire,Wire.length,count,byte]
  | writeread => simp [wireOf,writeMessage,Wire.length,count]

-- One transfer at most, behind accepted arguments and successful preparations,
-- and asking for what the arguments say; 0 only after a transfer without error.
theorem smbus_transaction_safe (b : Build) (fuel : Nat) (argv : List Arg) (info : CmdInfo) (member : info ∈ smbusCmds)
    (kernel : Kernel Sys σ) (s : σ) :
    let run := (runInfo b fuel argv info).exec kernel s
    (transfers run.trace).length ≤ 1 ∧
    (∀ before e after t, run.trace = before ++ e :: after → transferred e = some t →
      Ready before ∧ (∃ params, parsed b argv info.smbusOp = some params ∧ t.wire = wireOf info.smbusOp params) ∧
      ∀ index, info.smbusOp.operandIndex = some index → info.smbusOp.size.isBlock = true →
        ∃ arg, argv[index]? = some arg ∧ t.wire.length = (pairs arg.text).length / 2) ∧
    (∀ (τ : Type) (other : Kernel Sys τ) (s' : τ), ∀ t ∈ transfers run.trace,
      ∀ t' ∈ transfers ((runInfo b fuel argv info).exec other s').trace, t'.wire = t.wire) ∧
    (run.outcome = .ok 0 → ∃ t, transfers run.trace = [t] ∧ 0 ≤ t.result) := by
  have served {τ : Type} (k : Kernel Sys τ) (s : τ) := (smbus_served b fuel argv member).exec k s
  have asked {τ : Type} (k : Kernel Sys τ) (s : τ) (t : Transferred)
      (sent : t ∈ transfers ((runInfo b fuel argv info).exec k s).trace) :
      ∃ params, parsed b argv info.smbusOp = some params ∧ t.wire = wireOf info.smbusOp params := by
    obtain ⟨e,member,sent⟩ := List.mem_filterMap.mp sent
    obtain ⟨before,after,split⟩ := List.append_of_mem member
    have at_ := served k s
    rw [split] at at_
    exact (at_.at_transfer sent).2
  refine ⟨(served kernel s).single,?_,?_,?_⟩
  · intro before e after t split sent
    have at_ := served kernel s
    rw [split] at at_
    obtain ⟨ready,params,accepted,wire⟩ := at_.at_transfer sent
    refine ⟨ready,⟨params,accepted,wire⟩,?_⟩
    intro index operand block
    obtain ⟨arg,found,length,_⟩ := wireOf_length (smbusCmds_paired info member).2.1 operand block accepted
    exact ⟨arg,found,by rw [wire,length]⟩
  · intro τ other s' t sent t' sent'
    obtain ⟨params,accepted,wire⟩ := asked kernel s t sent
    obtain ⟨params',accepted',wire'⟩ := asked other s' t' sent'
    rw [accepted] at accepted'
    cases accepted'
    rw [wire,wire']
  · intro zero
    have ends := served kernel s
    rw [zero] at ends
    obtain ⟨params,t,_,single,_,accepted⟩ := ends.success
    exact ⟨t,single,acceptOf_result accepted⟩

theorem smbus_transaction_safe_writeblock :
    let argv := ["smbus_writeblock","0","0x50","0x10","0x0102FF"].map Arg.of
    let info := makeCmdWithParams "smbus_writeblock" .smbusWrite (.smbusOp ⟨.block,.write⟩) smbusWriteParams
    let run := (runInfo .x86_64 0 argv info).exec smooth ()
    info ∈ smbusCmds ∧ (transfers run.trace).map Transferred.wire = [.smbus 0 0x10 .blockData [3,1,2,0xff]] ∧
    ∃ t, transfers run.trace = [t] ∧ 0 ≤ t.result := by
  refine ⟨by decide,by decide +kernel,?_⟩
  exact (smbus_transaction_safe .x86_64 0 _ _ (by decide) smooth ()).2.2.2 (by decide +kernel)

def SmbusOp.answers (op : SmbusOp) : Bool :=
  op.performOp = .read || op.performOp = .processCall || op.performOp = .blockProcessCall

-- What a successful command printed is the answer, except that a process call
-- prints the word it sent.
theorem smbus_prints_answer_iff (b : Build) (fuel : Nat) (argv : List Arg) (info : CmdInfo) (member : info ∈ smbusCmds)
    (answers : info.smbusOp.answers = true) (kernel : Kernel Sys σ) (s : σ)
    (zero : ((runInfo b fuel argv info).exec kernel s).outcome = .ok 0) :
    ∃ t, transfers ((runInfo b fuel argv info).exec kernel s).trace = [t] ∧
      (Bounded info.smbusOp.size t.data →
        (printed ((runInfo b fuel argv info).exec kernel s).trace = answerText b info.smbusOp.size t.data ↔
          (info.smbusOp.performOp = .processCall → ∃ arg, argv[4]? = some arg ∧
            I2cSmbusData.word b t.data = (strtoulLong b 0 arg.text).1 % 2 ^ 16))) := by
  have sound := (smbusCmds_paired info member).2.1
  have served := (smbus_served b fuel argv member).exec kernel s
  rw [zero] at served
  obtain ⟨params,t,accepted,single,_,ends⟩ := served.success
  refine ⟨t,single,fun bounded => ?_⟩
  generalize info.smbusOp = op at *
  obtain ⟨size,perform⟩ := op
  cases perform with
  | read => simpa using ends.2 bounded
  | blockProcessCall =>
    have block : size = .blockProcCall := by simpa [SmbusOp.sound] using sound
    subst block
    simpa using ends.2 bounded
  | processCall =>
    have word : size = .procCall := by simpa [SmbusOp.sound] using sound
    subst word
    obtain ⟨arg,found,operand⟩ := operand_stored rfl rfl accepted
    rw [ends.2,operand,fixed_setFixed b _ _ (by decide)]
    simp [operandValue,answerText,valueText,hexUpper_inj,found,eq_comm]
  | write => cases answers
  | writeread => cases answers

def wordDevice : I2cSmbusData := Buffer.zero.patch 0 [0x34,0x12]

def processCallInfo : CmdInfo :=
  makeCmdWithParams "smbus_process_call" .smbusProcessCall (.smbusOp ⟨.procCall,.processCall⟩) smbusWriteParams

theorem smbus_process_call_prints_operand :
    let argv := ["smbus_process_call","0","0x50","0x00","0xBEEF"].map Arg.of
    let run := (runInfo .x86_64 0 argv processCallInfo).exec (answering wordDevice) ()
    processCallInfo ∈ smbusCmds ∧ run.outcome = .ok 0 ∧ (transfers run.trace).map Transferred.result = [0] ∧
    (transfers run.trace).map (fun t => answerText .x86_64 .procCall t.data) = ["0x1234\n".toList] ∧
    printed run.trace = "0xBEEF\n".toList ∧
    (∀ t ∈ transfers run.trace, printed run.trace ≠ answerText .x86_64 .procCall t.data) := by
  decide +kernel

theorem smbus_prints_answer_iff_same_word :
    let argv := ["smbus_process_call","0","0x50","0x00","0x1234"].map Arg.of
    let run := (runInfo .x86_64 0 argv processCallInfo).exec (answering wordDevice) ()
    processCallInfo.smbusOp.answers = true ∧ run.outcome = .ok 0 ∧
    ∃ t, transfers run.trace = [t] ∧ (Bounded .procCall t.data → (printed run.trace = answerText .x86_64 .procCall t.data ↔
      (PerformOp.processCall = .processCall → ∃ arg, argv[4]? = some arg ∧
        I2cSmbusData.word .x86_64 t.data = (strtoulLong .x86_64 0 arg.text).1 % 2 ^ 16))) :=
  ⟨by decide,by decide +kernel,
    smbus_prints_answer_iff .x86_64 0 _ processCallInfo (by decide) (by decide) (answering wordDevice) () (by decide +kernel)⟩

end Iotools
