import Iotools.Authority
import Iotools.BlockMemory

namespace Iotools
open Bytes Numeral Interaction

-- How an entry returns: a failure has been reported and has printed nothing,
-- and whatever was printed are whole lines.
def Verdict (rc : Int) (s : Ledger) : Prop :=
  (rc < 0 → s.reported = true ∧ s.screen = .nothing) ∧ (s.screen = .nothing ∨ s.screen = .lines)

def Ledger.complained (s : Ledger) : Ledger := {s with reported := true}
def Ledger.printed (s : Ledger) : Ledger := {s with screen := .lines}

@[simp] theorem complained_screen (s : Ledger) : s.complained.screen = s.screen := rfl
@[simp] theorem complained_granted (s : Ledger) : s.complained.granted = s.granted := rfl
@[simp] theorem complained_complained (s : Ledger) : s.complained.complained = s.complained := rfl
@[simp] theorem printed_screen (s : Ledger) : s.printed.screen = .lines := rfl
@[simp] theorem printed_printed (s : Ledger) : s.printed.printed = s.printed := rfl

theorem Verdict.failed {s : Ledger} (fresh : s.screen = .nothing) (rc : Int) : Verdict rc s.complained :=
  ⟨fun _ => ⟨rfl,fresh⟩,.inl fresh⟩

theorem Verdict.silent {s : Ledger} (fresh : s.screen = .nothing) (positive : 0 ≤ rc) : Verdict rc s :=
  ⟨fun negative => by omega,.inl fresh⟩

theorem Verdict.printed (s : Ledger) (positive : 0 ≤ rc) : Verdict rc s.printed :=
  ⟨fun negative => by omega,.inr rfl⟩

theorem Screen.after_line (fresh : screen = .nothing ∨ screen = .lines) (body : Text) :
    Screen.after screen (body ++ "\n".toList) = .lines := by
  have some_ : body ++ "\n".toList ≠ [] := by simp
  have last : (body ++ "\n".toList).getLast? = some '\n' := by simp
  rcases fresh with rfl | rfl <;> simp only [Screen.after,some_,last,reduceCtorEq,if_false,if_true]

section Helpers
variable {b : Build} {entry : Entry} {rely : Event Sys → Prop} {fine : Fault → Prop} {s : Ledger} {post : α → Ledger → Prop}

@[simp] theorem contract_guarantee (c : Call) : (entry.contract b rely fine).guarantee s c ↔ entry.permits b s c := Iff.rfl
@[simp] theorem contract_step (e : Event Sys) : (entry.contract b rely fine).step s e = s.step e := rfl
@[simp] theorem contract_rely (e : Event Sys) : (entry.contract b rely fine).rely s e ↔ rely e := Iff.rfl
@[simp] theorem contract_fine (reason : Fault) : (entry.contract b rely fine).fine reason ↔ fine reason := Iff.rfl

@[simp] theorem permits_stderr (message : Message) : entry.permits b s (.stderr message) := trivial
@[simp] theorem permits_strerror : entry.permits b s .strerror := trivial
@[simp] theorem permits_close (fd : Int) : entry.permits b s (.close fd) := trivial
@[simp] theorem permits_stale (size : Nat) : entry.permits b s (.stale size) := trivial
@[simp] theorem permits_staleParams : entry.permits b s .staleParams := trivial

theorem stderr_meets {message : Message} {next : Unit → Action α} (rest : (next ()).Meets (entry.contract b rely fine) post s.complained) :
    (.call (.stderr message) next : Action α).Meets (entry.contract b rely fine) post s := ⟨trivial,fun _ _ => rest⟩

theorem complain_meets {message : Text → Message} {next : Unit → Action α}
    (rest : (next ()).Meets (entry.contract b rely fine) post s.complained) :
    (complain message >>= next).Meets (entry.contract b rely fine) post s :=
  ⟨trivial,fun _ _ => ⟨trivial,fun _ _ => rest⟩⟩

theorem close_meets {fd : Int} {next : Unit → Action α} (rest : (next ()).Meets (entry.contract b rely fine) post s) :
    (.call (.close fd) next : Action α).Meets (entry.contract b rely fine) post s := ⟨trivial,fun _ _ => rest⟩

theorem stdout_meets {next : Unit → Action α} (prints : entry.prints = true) (fresh : s.screen = .nothing ∨ s.screen = .lines)
    (body : Text) (rest : (next ()).Meets (entry.contract b rely fine) post s.printed) :
    (.call (.stdout (body ++ "\n".toList)) next : Action α).Meets (entry.contract b rely fine) post s := by
  refine ⟨prints,fun _ _ => ?_⟩
  have line : s.step ⟨.stdout (body ++ "\n".toList),()⟩ = s.printed := by
    simp only [Ledger.step,Ledger.printed,Screen.after_line fresh]
  rw [contract_step]
  exact line ▸ rest

theorem argAt_meets {argv : List Arg} (inside : index < argv.length) {next : Text → Action α}
    (rest : ∀ arg : Arg, (next arg.text).Meets (entry.contract b rely fine) post s) :
    (argAt argv index >>= next).Meets (entry.contract b rely fine) post s := by
  rw [argAt_of_lt argv index inside]
  exact rest _

theorem report_meets {parsed : Parse β} {next : Option β → Action α} (stays : ∀ reason, parsed ≠ .error (.fault reason))
    (refused : (next none).Meets (entry.contract b rely fine) post s.complained)
    (rest : ∀ value, (next (some value)).Meets (entry.contract b rely fine) post s) :
    (report parsed >>= next).Meets (entry.contract b rely fine) post s := by
  cases parsed with
  | ok value => exact rest value
  | error stop =>
    cases stop with
    | complain message => exact stderr_meets refused
    | fault reason => exact absurd rfl (stays reason)

def Answers (failed : α → Prop) (s : Ledger) (value : α) (s' : Ledger) : Prop :=
  failed value ∧ s' = s.complained ∨ ¬ failed value ∧ s' = s

theorem answers_then {program : Action β} {failed : β → Prop}
    (first : program.Meets (entry.contract b rely fine) (Answers failed s) s) {next : β → Action α}
    (refused : ∀ value, failed value → (next value).Meets (entry.contract b rely fine) post s.complained)
    (rest : ∀ value, ¬ failed value → (next value).Meets (entry.contract b rely fine) post s) :
    (program >>= next).Meets (entry.contract b rely fine) post s := by
  refine first.bind (fun value s' answers => ?_)
  cases answers with
  | inl gaveUp => exact gaveUp.2 ▸ refused value gaveUp.1
  | inr succeeded => exact succeeded.2 ▸ rest value succeeded.1

end Helpers

-- The parsing helpers never leave the string or the array.
theorem parseUint8_stays (b : Build) (text : Text) (reason : Fault) : parseUint8 b text ≠ .error (.fault reason) := by
  intro failed
  simp only [parseUint8,parseUint8Base] at failed
  cases checked : isMaxOrTrailingJunk b text (strtoulLong b 0 text).2 (strtoulLong b 0 text).1 with
  | error stop =>
    obtain ⟨message,rfl⟩ := isMaxOrTrailingJunk_complains checked
    rw [checked] at failed
    cases failed
  | ok =>
    rw [checked] at failed
    change (if _ then _ else _) = _ at failed
    split at failed <;> cases failed

theorem complaint_stays {message : Message} {reason : Fault} :
    (.error (.complain message) : Parse α) ≠ .error (.fault reason) := nofun

theorem ok_stays {value : α} {stop : Stop} : (.ok value : Parse α) ≠ .error stop := nofun

theorem guarded_stays {checked : Parse Unit} {parsed : Unit → Parse α}
    (complains : ∀ stop, checked = .error stop → ∃ message, stop = .complain message)
    (rest : ∀ reason, parsed () ≠ .error (.fault reason)) (reason : Fault) : (checked >>= parsed) ≠ .error (.fault reason) := by
  cases same : checked with
  | error stop =>
    obtain ⟨message,rfl⟩ := complains stop same
    exact nofun
  | ok => exact rest reason

theorem isTrailingJunk_complains (failed : isTrailingJunk arg rest = .error stop) : ∃ message, stop = .complain message := by
  unfold isTrailingJunk at failed
  split at failed
  · cases failed
    exact ⟨_,rfl⟩
  · cases failed

theorem parsePairs_stays (b : Build) (text : Text) (dest : Nat) (array : SmbusDtype) (even : text.length % 2 = 0)
    (room : dest + text.length / 2 ≤ 34) (reason : Fault) : parsePairs b text dest array ≠ .error (.fault reason) := by
  fun_induction parsePairs b text dest array with
  | case1 => exact ok_stays
  | case2 => simp at even
  | case3 first second src dest array ih =>
    simp only [List.length_cons] at even room
    cases parsed : parseUint8Hex b [first,second] with
    | error stop =>
      obtain ⟨message,rfl⟩ := parseUint8Hex_complains parsed
      exact complaint_stays
    | ok byte =>
      have inside : dest < 34 := by omega
      simp only [bind,Except.bind,inside,if_true]
      exact ih byte (by omega) (by omega)

theorem stripPrefix_parity (arg : Text) (len : Int) : (stripPrefix arg len).1.length % 2 = arg.length % 2 := by
  unfold stripPrefix
  split
  · split
    · simp only [List.length_cons]
      omega
    · rfl
  · rfl

theorem parseBlock_stays (b : Build) (arg : Arg) (params : SmbusOpParams) (reason : Fault) :
    parseBlock b arg.text params ≠ .error (.fault reason) := by
  have length : toInt (arg.text.length : Nat) = arg.text.length := toInt_of_small arg.short
  have left := stripPrefix_length arg.text arg.text.length
  have parity := stripPrefix_parity arg.text arg.text.length
  simp only [parseBlock,length]
  split
  · exact complaint_stays
  · rename_i odd
    split
    · exact complaint_stays
    · rename_i long
      have room : 0 + (stripPrefix arg.text arg.text.length).1.length / 2 ≤ 34 := by
        unfold blockMax at long
        omega
      have pairs := parsePairs_stays b _ 0 params.data (by omega) room
      cases parsed : parsePairs b (stripPrefix arg.text arg.text.length).1 0 params.data with
      | ok array => exact ok_stays
      | error stop =>
        cases stop with
        | complain message => exact complaint_stays
        | fault reason => exact absurd parsed (pairs reason)

theorem parseIoWidth_stays (b : Build) (arg : Arg) (params : SmbusOpParams) (size : SmbusSize) (reason : Fault) :
    parseIoWidth b arg.text params size ≠ .error (.fault reason) := by
  cases size with
  | quick =>
    simp only [parseIoWidth]
    refine guarded_stays (fun _ => isMaxOrTrailingJunk_complains) (fun _ => ?_) reason
    split
    · exact complaint_stays
    · exact ok_stays
  | byte | size8 | size16 | procCall =>
    simp only [parseIoWidth]
    refine guarded_stays (fun _ => isMaxOrTrailingJunk_complains) (fun _ => ?_) reason
    exact ok_stays
  | size32 | size64 =>
    simp only [parseIoWidth]
    refine guarded_stays (fun _ => isTrailingJunk_complains) (fun _ => ?_) reason
    exact ok_stays
  | block | blockProcCall | writeRead =>
    simp only [parseIoWidth]
    exact parseBlock_stays b arg _ reason

section Smbus
variable {b : Build} {entry : Entry} {rely : Event Sys → Prop} {fine : Fault → Prop} (regime : Regime b entry rely fine)
  {s : Ledger} {post : α → Ledger → Prop} {op : SmbusOp} (performs : entry.performs op = true)

theorem performs_bus (performs : entry.performs op = true) :
    entry ∈ busEntries := by
  cases entry <;> first | decide | cases performs

section Bus
variable (bus : entry ∈ busEntries)
include bus

theorem permits_bus (i2cBus : UInt8) :
    entry.permits b s (.open ("/dev/i2c-".toList ++ decimal i2cBus.toNat) ⟨.rdwr,false⟩) := by
  simp only [busEntries,List.mem_cons,List.not_mem_nil,or_false] at bus
  rcases bus with rfl | rfl | rfl | rfl
  · exact ⟨rfl,i2cBus,rfl⟩
  · exact ⟨rfl,i2cBus,rfl⟩
  · exact ⟨rfl,i2cBus,rfl⟩
  · exact ⟨rfl,i2cBus,rfl⟩

theorem openI2cSlave_meets (i2cBus address : UInt8) :
    (openI2cSlave i2cBus address).Meets (entry.contract b rely fine) (Answers (· < 0) s) s := by
  simp only [openI2cSlave,Prog.call_bind,Prog.done_bind]
  refine ⟨permits_bus bus i2cBus,fun (fd : Int) _ => ?_⟩
  dsimp only
  split
  · exact complain_meets (.inl ⟨by decide,rfl⟩)
  · rename_i opened
    refine ⟨bus,fun (result : Int) _ => ?_⟩
    dsimp only
    split
    · exact complain_meets (close_meets (.inl ⟨by decide,rfl⟩))
    · exact .inr ⟨opened,rfl⟩

theorem forceSlave_meets (params : SmbusOpParams) :
    (forceSlave params).Meets (entry.contract b rely fine) (Answers (· = false) s) s := by
  simp only [forceSlave,Prog.call_bind,Prog.done_bind]
  refine ⟨bus,fun (result : Int) _ => ?_⟩
  dsimp only
  split
  · exact complain_meets (.inl ⟨rfl,rfl⟩)
  · exact .inr ⟨by decide,rfl⟩

theorem openedSlave_meets (params : SmbusOpParams) (i2cBus address reg : UInt8) :
    (openI2cSlave i2cBus address >>= fun fd =>
      (if fd < 0 then do
        ask (.stderr .openSlave)
        return none
      else return some {params with i2cBus := i2cBus,address := address,reg := reg,fd := fd} :
        Action (Option SmbusOpParams))).Meets (entry.contract b rely fine) (Answers (· = none) s) s := by
  refine answers_then (openI2cSlave_meets bus i2cBus address) ?_ ?_
  · intro fd negative
    rw [if_pos negative]
    exact stderr_meets (.inl ⟨rfl,rfl⟩)
  · intro fd opened
    rw [if_neg opened]
    exact .inr ⟨by simp,rfl⟩

theorem smbusPrologue_meets (params : SmbusOpParams) (op : SmbusOp) {argv : List Arg}
    (long : (if op.size.hasRegister then 4 else 3) ≤ argv.length) :
    (smbusPrologue b argv params op).Meets (entry.contract b rely fine) (Answers (· = none) s) s := by
  have three : 3 ≤ argv.length := by
    split at long <;> omega
  have refused {message : Message} : (ask (.stderr message) >>= fun _ => (.done none : Action (Option SmbusOpParams))).Meets
      (entry.contract b rely fine) (Answers (· = none) s) s.complained := stderr_meets (.inl ⟨rfl,rfl⟩)
  refine argAt_meets (by omega) (fun first => report_meets (parseUint8_stays b _) refused (fun i2cBus => ?_))
  refine argAt_meets (by omega) (fun second => report_meets (parseUint8_stays b _) refused (fun address => ?_))
  dsimp only
  split
  case isTrue register =>
    rw [if_pos register] at long
    exact argAt_meets long (fun third => report_meets (parseUint8_stays b _) refused (fun reg =>
      openedSlave_meets bus params i2cBus address reg))
  case isFalse => exact openedSlave_meets bus params i2cBus address params.reg

end Bus

theorem access_meets {file : Int} {readWrite command : UInt8} {size : Transaction} {data : Option I2cSmbusData}
    (permitted : entry.permits b s (.ioctlSmbus file ⟨readWrite,command,size,data⟩)) {next : Int × I2cSmbusData → Action α}
    (rest : ∀ reply, rely ⟨.ioctlSmbus file ⟨readWrite,command,size,data⟩,reply⟩ →
      (next reply).Meets (entry.contract b rely fine) post s) :
    (i2cSmbusAccess file readWrite command size data >>= next).Meets (entry.contract b rely fine) post s :=
  ⟨permitted,fun reply relied => rest reply relied⟩

section Access
variable {file : Int} {readWrite command : UInt8} {size : Transaction}
  (permitted : ∀ data, entry.permits b s (.ioctlSmbus file ⟨readWrite,command,size,data⟩))
include permitted

theorem sent_meets (fill : I2cSmbusData → I2cSmbusData) : (do
      let data ← ask (.stale 35)
      let reply ← i2cSmbusAccess file readWrite command size (some (fill data))
      return reply.1 : Action Int).Meets (entry.contract b rely fine) (fun _ s' => s' = s) s :=
  ⟨trivial,fun data _ => access_meets (permitted (some (fill data))) (fun _ _ => rfl)⟩

theorem fetched_meets (fill : I2cSmbusData → I2cSmbusData) (value : Int × I2cSmbusData → Int) : (do
      let data ← ask (.stale 35)
      let reply ← i2cSmbusAccess file readWrite command size (some (fill data))
      if reply.1 ≠ 0 then return -1 else return value reply : Action Int).Meets (entry.contract b rely fine)
      (fun _ s' => s' = s) s := by
  refine ⟨trivial,fun data _ => access_meets (permitted (some (fill data))) (fun reply _ => ?_)⟩
  split
  · rfl
  · rfl

include regime

theorem copied_meets (block : size ∈ [Transaction.blockData,Transaction.i2cBlockData,Transaction.blockProcCall])
    (fill : I2cSmbusData → I2cSmbusData) (values : SmbusDtype) : (do
      let data ← ask (.stale 35)
      let reply ← i2cSmbusAccess file readWrite command size (some (fill data))
      if reply.1 ≠ 0 then return (-1,values)
      else do
        let copied ← copyBlock reply.2 values
        return ((reply.2 0).toNat,copied) : Action (Int × SmbusDtype)).Meets (entry.contract b rely fine)
      (fun _ s' => s' = s) s := by
  refine ⟨trivial,fun data _ => access_meets (permitted (some (fill data))) (fun reply relied => ?_)⟩
  split
  · rfl
  · unfold copyBlock
    split
    · rename_i long
      exact regime.block file _ reply block relied long
    · rfl

end Access

end Smbus

theorem readText_line (b : Build) (count : Int) (data : SmbusDtype) (readable : size.readable = true ∨ size = .size16) :
    ∃ body, readText b size count data = some (body ++ "\n".toList) := by
  cases size with
  | size8 | size16 | size32 | size64 | block | byte => exact ⟨_,rfl⟩
  | quick | procCall | blockProcCall | writeRead => rcases readable with never | never <;> cases never

def PerformOp.enteredBy : PerformOp → Entry
  | .read => .smbusRead
  | .write => .smbusWrite
  | .processCall | .blockProcessCall => .smbusProcessCall
  | .writeread => .smbusWriteread

theorem performs_entry {entry : Entry} {op : SmbusOp} (performs : entry.performs op = true) : entry = op.performOp.enteredBy := by
  cases entry with
  | smbusRead | smbusWrite | smbusWriteread =>
    rw [of_decide_eq_true performs]
    rfl
  | smbusProcessCall =>
    simp only [Entry.performs,Bool.or_eq_true,decide_eq_true_eq] at performs
    rcases performs with call | call <;> rw [call] <;> rfl
  | _ => cases performs

section Operations
variable {b : Build} {entry : Entry} {rely : Event Sys → Prop} {fine : Fault → Prop} {s : Ledger}

theorem printReadData_meets (prints : entry.prints = true) (fresh : s.screen = .nothing) (readable : size.readable = true)
    (count : Int) (data : SmbusDtype) :
    (printReadData b size count data).Meets (entry.contract b rely fine) (fun _ s' => s' = s.printed) s := by
  obtain ⟨body,line⟩ := readText_line b count data (.inl readable)
  simp only [printReadData,line]
  exact stdout_meets prints (.inl fresh) body rfl

theorem printed_meets (prints : entry.prints = true) (fresh : s.screen = .nothing) (readable : size.readable = true)
    (count : Int) (data : SmbusDtype) :
    (printReadData b size count data >>= fun _ => (.done 0 : Action Int)).Meets (entry.contract b rely fine) Verdict s :=
  (printReadData_meets prints fresh readable count data).bind (fun _ _ same => same ▸ Verdict.printed s (le_refl 0))

theorem complained_meets {message : Text → Message} (fresh : s.screen = .nothing) (rc : Int) :
    (complain message >>= fun _ => (.done rc : Action Int)).Meets (entry.contract b rely fine) Verdict s :=
  complain_meets (Verdict.failed fresh rc)

section Read
variable (regime : Regime b .smbusRead rely fine)
include regime

theorem readTransfer_meets (params : SmbusOpParams) (readable : size.readable = true) :
    (readTransfer b params size).Meets (Entry.contract b .smbusRead rely fine)
      (fun reply s' => reply.isSome = true ∧ s' = s) s := by
  have permitted (command : UInt8) (kind : Transaction) (data : Option I2cSmbusData) :
      Entry.permits b .smbusRead s (.ioctlSmbus params.fd ⟨i2cSmbusRead,command,kind,data⟩) := .inl ⟨rfl,rfl⟩
  have given {reply : Int × SmbusDtype} {s' : Ledger} (same : s' = s) :
      Prog.Meets (Entry.contract b .smbusRead rely fine) (.done (some reply) : Action (Option (Int × SmbusDtype)))
        (fun reply s' => reply.isSome = true ∧ s' = s) s' := ⟨rfl,same⟩
  cases size with
  | size8 | size16 => exact (fetched_meets (permitted params.reg _) id _).bind (fun _ _ same => given same)
  | byte => exact (fetched_meets (permitted 0 _) id _).bind (fun _ _ same => given same)
  | size32 =>
    exact (copied_meets regime (permitted params.reg .i2cBlockData) (by decide) (·.patch 0 [4]) _).bind
      (fun _ _ same => given same)
  | size64 =>
    exact (copied_meets regime (permitted params.reg .i2cBlockData) (by decide) (·.patch 0 [8]) _).bind
      (fun _ _ same => given same)
  | block =>
    exact (copied_meets regime (permitted params.reg .blockData) (by decide) id _).bind (fun _ _ same => given same)
  | quick | procCall | blockProcCall | writeRead => cases readable

theorem smbusReadOp_meets (fresh : s.screen = .nothing) (params : SmbusOpParams) (op : SmbusOp) (readable : op.size.readable = true) :
    (smbusReadOp b params op).Meets (Entry.contract b .smbusRead rely fine) Verdict s := by
  refine (readTransfer_meets regime params readable).bind (fun reply s' ends => ?_)
  obtain ⟨some_,rfl⟩ := ends
  obtain ⟨reply,rfl⟩ := Option.isSome_iff_exists.mp some_
  dsimp only
  split
  · split
    · exact complained_meets fresh _
    · exact complained_meets fresh _
  · exact printed_meets rfl fresh readable _ _

end Read

theorem writeTransfer_meets (params : SmbusOpParams) (writable : size.writable = true) :
    (writeTransfer b params size).Meets (Entry.contract b .smbusWrite rely fine)
      (fun reply s' => reply.isSome = true ∧ s' = s) s := by
  have permitted (command : UInt8) (kind : Transaction) (data : Option I2cSmbusData) :
      Entry.permits b .smbusWrite s (.ioctlSmbus params.fd ⟨i2cSmbusWrite,command,kind,data⟩) := .inr (.inl ⟨rfl,.inl rfl⟩)
  have given {result : Int} {s' : Ledger} (same : s' = s) :
      Prog.Meets (Entry.contract b .smbusWrite rely fine) (.done (some result) : Action (Option Int))
        (fun reply s' => reply.isSome = true ∧ s' = s) s' := ⟨rfl,same⟩
  cases size with
  | size8 | size16 | size32 | size64 | block =>
    exact (sent_meets (permitted params.reg _) _).bind (fun _ _ same => given same)
  | byte => exact access_meets (permitted _ _ _) (fun _ _ => given rfl)
  | quick => exact access_meets (.inr (.inl ⟨rfl,.inr rfl⟩)) (fun _ _ => given rfl)
  | procCall | blockProcCall | writeRead => cases writable

theorem smbusWriteOp_meets (fresh : s.screen = .nothing) (params : SmbusOpParams) (op : SmbusOp) (writable : op.size.writable = true) :
    (smbusWriteOp b params op).Meets (Entry.contract b .smbusWrite rely fine) Verdict s := by
  refine answers_then (forceSlave_meets (by decide) params) ?_ ?_
  · intro forced refused
    rw [refused]
    exact Verdict.failed fresh _
  · intro forced accepted
    rw [Bool.not_eq_false] at accepted
    rw [if_pos accepted]
    refine (writeTransfer_meets params writable).bind (fun reply s' ends => ?_)
    obtain ⟨some_,rfl⟩ := ends
    obtain ⟨result,rfl⟩ := Option.isSome_iff_exists.mp some_
    dsimp only
    split
    · split
      · exact complained_meets fresh _
      · exact complained_meets fresh _
    · exact Verdict.silent fresh (le_refl 0)

theorem smbusProcessCallOp_meets (fresh : s.screen = .nothing) (params : SmbusOpParams) :
    (smbusProcessCallOp b params).Meets (Entry.contract b .smbusProcessCall rely fine) Verdict s := by
  have permitted (data : Option I2cSmbusData) :
      Entry.permits b .smbusProcessCall s (.ioctlSmbus params.fd ⟨i2cSmbusWrite,params.reg,.procCall,data⟩) :=
    .inr (.inr ⟨rfl,.inl rfl⟩)
  refine answers_then (forceSlave_meets (by decide) params) ?_ ?_
  · intro forced refused
    rw [refused]
    exact Verdict.failed fresh _
  · intro forced accepted
    rw [Bool.not_eq_false] at accepted
    rw [if_pos accepted]
    refine (fetched_meets permitted _ _).bind (fun result s' same => ?_)
    subst same
    split
    · exact complained_meets fresh _
    · exact printed_meets rfl fresh rfl _ _

theorem smbusBlockProcessCallOp_meets (regime : Regime b .smbusProcessCall rely fine) (fresh : s.screen = .nothing)
    (params : SmbusOpParams) :
    (smbusBlockProcessCallOp b params).Meets (Entry.contract b .smbusProcessCall rely fine) Verdict s := by
  have permitted (data : Option I2cSmbusData) :
      Entry.permits b .smbusProcessCall s (.ioctlSmbus params.fd ⟨i2cSmbusWrite,params.reg,.blockProcCall,data⟩) :=
    .inr (.inr ⟨rfl,.inr rfl⟩)
  refine answers_then (forceSlave_meets (by decide) params) ?_ ?_
  · intro forced refused
    rw [refused]
    exact Verdict.failed fresh _
  · intro forced accepted
    rw [Bool.not_eq_false] at accepted
    rw [if_pos accepted]
    refine (copied_meets regime permitted (by decide) _ _).bind (fun reply s' same => ?_)
    subst same
    split
    · exact complained_meets fresh _
    · exact printed_meets rfl fresh rfl _ _

theorem smbusWritereadOp_meets (fresh : s.screen = .nothing) (params : SmbusOpParams) :
    (smbusWritereadOp b params).Meets (Entry.contract b .smbusWriteread rely fine) Verdict s := by
  simp only [smbusWritereadOp,Prog.call_bind,Prog.done_bind]
  refine ⟨rfl,fun reply _ => ?_⟩
  dsimp only
  split
  · exact complained_meets fresh _
  · exact printed_meets rfl fresh rfl _ _

theorem performOp_meets (regime : Regime b entry rely fine) (fresh : s.screen = .nothing) (params : SmbusOpParams)
    (performs : entry.performs op = true) (sound : op.sound = true) :
    (performOp b params op).Meets (entry.contract b rely fine) Verdict s := by
  have own := performs_entry performs
  unfold performOp
  unfold SmbusOp.sound at sound
  cases found : op.performOp with
  | read =>
    rw [found] at own sound
    subst own
    exact smbusReadOp_meets regime fresh params op sound
  | write =>
    rw [found] at own sound
    subst own
    exact smbusWriteOp_meets fresh params op sound
  | processCall =>
    rw [found] at own
    subst own
    exact smbusProcessCallOp_meets fresh params
  | blockProcessCall =>
    rw [found] at own
    subst own
    exact smbusBlockProcessCallOp_meets regime fresh params
  | writeread =>
    rw [found] at own
    subst own
    exact smbusWritereadOp_meets fresh params

theorem invalidValue_meets (fresh : s.screen = .nothing) {argv : List Arg} (inside : index < argv.length) (params : SmbusOpParams) :
    (do
      ask (.stderr (.invalidValue (← argAt argv 0) (← argAt argv index)))
      ask (.close params.fd)
      return -1 : Action Int).Meets (entry.contract b rely fine) Verdict s.complained :=
  argAt_meets (by omega) (fun _ => argAt_meets inside (fun _ => stderr_meets (close_meets (Verdict.failed fresh _))))

section Commands
variable (regime : Regime b entry rely fine) (fresh : s.screen = .nothing) {op : SmbusOp} (performs : entry.performs op = true)
  (sound : op.sound = true) {info : CmdInfo} {argv : List Arg}
include regime fresh performs sound

theorem performed_meets (params : SmbusOpParams) :
    (performOp b params op >>= fun ret => (.call (.close params.fd) fun _ => .done ret : Action Int)).Meets
      (entry.contract b rely fine) Verdict s :=
  (performOp_meets regime fresh params performs sound).bind (fun _ _ verdict => close_meets verdict)

theorem operandThenOp_meets (params : SmbusOpParams) (long : index < argv.length) :
    (operandThenOp b argv params op index).Meets (entry.contract b rely fine) Verdict s := by
  refine argAt_meets long (fun arg => report_meets (parseIoWidth_stays b arg params op.size) ?_ (fun params => ?_))
  · exact invalidValue_meets fresh long params
  · exact performed_meets regime fresh performs sound params

variable (held : info.privdata = .smbusOp op)
include held

theorem smbusRead_meets (long : (if op.size.hasRegister then 4 else 3) ≤ argv.length) :
    (smbusRead b argv info).Meets (entry.contract b rely fine) Verdict s := by
  simp only [smbusRead,smbusOpOf,held,Prog.call_bind,Prog.done_bind,Prog.pure_eq]
  refine ⟨trivial,fun params _ => answers_then (smbusPrologue_meets (performs_bus performs) params op long) ?_ ?_⟩
  · intro opened refused
    rw [refused]
    exact Verdict.failed fresh _
  · intro opened accepted
    obtain ⟨params,rfl⟩ := Option.ne_none_iff_exists'.mp accepted
    exact performed_meets regime fresh performs sound params

theorem smbusWrite_meets (long : (if op.size = .byte ∨ op.size = .quick then 4 else 5) ≤ argv.length) :
    (smbusWrite b argv info).Meets (entry.contract b rely fine) Verdict s := by
  have four : 4 ≤ argv.length := by
    split at long <;> omega
  have operand : (if op.size = .byte ∨ op.size = .quick then 3 else 4) < argv.length := by
    split at long <;> split <;> omega
  simp only [smbusWrite,smbusOpOf,held,Prog.call_bind,Prog.done_bind,Prog.pure_eq]
  refine ⟨trivial,fun params _ => answers_then (smbusPrologue_meets (performs_bus performs) params op (register_fits op four)) ?_ ?_⟩
  · intro opened refused
    rw [refused]
    exact Verdict.failed fresh _
  · intro opened accepted
    obtain ⟨params,rfl⟩ := Option.ne_none_iff_exists'.mp accepted
    exact operandThenOp_meets regime fresh performs sound params operand

theorem smbusProcessCall_meets (long : 5 ≤ argv.length) :
    (smbusProcessCall b argv info).Meets (entry.contract b rely fine) Verdict s := by
  have fits := register_fits op (show 4 ≤ argv.length by omega)
  simp only [smbusProcessCall,smbusOpOf,held,Prog.call_bind,Prog.done_bind,Prog.pure_eq]
  refine ⟨trivial,fun params _ => answers_then (smbusPrologue_meets (performs_bus performs) params op fits) ?_ ?_⟩
  · intro opened refused
    rw [refused]
    exact Verdict.failed fresh _
  · intro opened accepted
    obtain ⟨params,rfl⟩ := Option.ne_none_iff_exists'.mp accepted
    exact operandThenOp_meets regime fresh performs sound params (by omega)

theorem smbusWriteread_meets (long : 5 ≤ argv.length) :
    (smbusWriteread b argv info).Meets (entry.contract b rely fine) Verdict s := by
  have fits := register_fits op (show 4 ≤ argv.length by omega)
  simp only [smbusWriteread,smbusOpOf,held,Prog.done_bind,Prog.pure_eq]
  refine answers_then (smbusPrologue_meets (performs_bus performs) .zero op fits) ?_ ?_
  · intro opened refused
    rw [refused]
    exact Verdict.failed fresh _
  · intro opened accepted
    obtain ⟨params,rfl⟩ := Option.ne_none_iff_exists'.mp accepted
    refine argAt_meets (by omega) (fun operand => report_meets (parseIoWidth_stays b operand params op.size) ?_ (fun params => ?_))
    · exact invalidValue_meets fresh (by omega) params
    · refine argAt_meets (by omega) (fun count => report_meets (parseUint8_stays b _) ?_ (fun readCount => ?_))
      · exact argAt_meets (by omega) (fun _ => stderr_meets (Verdict.failed fresh _))
      · dsimp only
        split
        · exact argAt_meets (by omega) (fun _ => stderr_meets (Verdict.failed fresh _))
        · exact performed_meets regime fresh performs sound {params with readCount := readCount}

end Commands

end Operations

end Iotools
