import Iotools.PciNames
import Iotools.MmioAccess

namespace Iotools
open Bytes Numeral Interaction

-- The functions a machine has and the content of their configuration files. A
-- file may be shown under its sysfs name, its procfs name or both.
structure Handle where
  device : PciFunction
  mode : AccessMode
  position : Nat

structure ConfigSpace where
  devices : List PciFunction
  shown : Text → Bool
  content : PciFunction → List UInt8
  next : Nat
  handles : Int → Option Handle

namespace ConfigSpace

def resolve (s : ConfigSpace) (path : Text) : Option PciFunction :=
  if s.shown path then s.devices.find? (fun d => d.sysfs = path ∨ d.procfs = path) else none

def setHandle (s : ConfigSpace) (fd : Int) (handle : Option Handle) : ConfigSpace :=
  {s with handles := Function.update s.handles fd handle}

@[simp] theorem setHandle_devices (s : ConfigSpace) : (s.setHandle fd handle).devices = s.devices := rfl
@[simp] theorem setHandle_shown (s : ConfigSpace) : (s.setHandle fd handle).shown = s.shown := rfl
@[simp] theorem setHandle_content (s : ConfigSpace) : (s.setHandle fd handle).content = s.content := rfl
@[simp] theorem setHandle_handles (s : ConfigSpace) : (s.setHandle fd handle).handles fd = handle := by
  simp [setHandle]

-- Files have a fixed size: a transfer stops at their end.
def kernel : Kernel Sys ConfigSpace := fun c s =>
  match c with
  | .open path flags =>
    match s.resolve path with
    | none => ((-1 : Int),s)
    | some d => ((s.next : Int),{s.setHandle s.next (some ⟨d,flags.mode,0⟩) with next := s.next + 1})
  | .close fd => ((),s.setHandle fd none)
  | .lseek fd offset =>
    match s.handles fd with
    | none => ((-1 : Int),s)
    | some handle =>
      if offset < 0 then ((-1 : Int),s)
      else (offset,s.setHandle fd (some {handle with position := offset.toNat}))
  | .read fd count =>
    match s.handles fd with
    | none => (none,s)
    | some handle =>
      if handle.mode = .wronly then (none,s)
      else
        let bytes := ((s.content handle.device).drop handle.position).take count
        (some ⟨bytes,List.length_take_le ..⟩,
          s.setHandle fd (some {handle with position := handle.position + bytes.length}))
  | .write fd bytes =>
    match s.handles fd with
    | none => ((-1 : Int),s)
    | some handle =>
      if handle.mode = .rdonly then ((-1 : Int),s)
      else
        let file := s.content handle.device
        let taken := bytes.take (file.length - handle.position)
        ((taken.length : Int),
          {s.setHandle fd (some {handle with position := handle.position + taken.length}) with
            content := Function.update s.content handle.device (overwrite file handle.position taken)})
  | c => (c.succeeds,s)

-- The machine has the function and shows its file under one of the two names.
def Reaches (s : ConfigSpace) (d : PciFunction) : Prop :=
  d ∈ s.devices ∧ (s.shown d.sysfs = true ∨ s.shown d.procfs = true)

-- The same machine with the same content, whatever has been opened since.
def Same (s s' : ConfigSpace) : Prop := s'.devices = s.devices ∧ s'.shown = s.shown ∧ s'.content = s.content

theorem Same.reaches (same : Same s s') (reached : s.Reaches d) : s'.Reaches d := by
  obtain ⟨devices,shown,_⟩ := same
  unfold Reaches
  rw [devices,shown]
  exact reached

theorem find_named {devs : List PciFunction} (listed : d ∈ devs) (named : path = d.sysfs ∨ path = d.procfs) :
    devs.find? (fun e => e.sysfs = path ∨ e.procfs = path) = some d := by
  have own : d.sysfs = path ∨ d.procfs = path := by
    cases named with
    | inl sysfs => exact .inl sysfs.symm
    | inr procfs => exact .inr procfs.symm
  cases found : devs.find? (fun e => e.sysfs = path ∨ e.procfs = path) with
  | none =>
    have missed := List.find?_eq_none.mp found d listed
    simp [own] at missed
  | some e =>
    have other : e.sysfs = path ∨ e.procfs = path := by simpa using List.find?_some found
    have same : e = d := by
      rcases named with rfl | rfl
      · cases other with
        | inl sysfs => exact (sysfs_inj e d).mp sysfs
        | inr procfs => exact absurd procfs.symm (sysfs_ne_procfs d e)
      · cases other with
        | inl sysfs => exact absurd sysfs (sysfs_ne_procfs e d)
        | inr procfs => exact (procfs_inj e d).mp procfs
    rw [same]

theorem resolve_named (s : ConfigSpace) (listed : d ∈ s.devices) (named : path = d.sysfs ∨ path = d.procfs) :
    s.resolve path = if s.shown path = true then some d else none := by
  unfold resolve
  rw [find_named listed named]

def opened (s : ConfigSpace) (d : PciFunction) (mode : AccessMode) (position : Nat) : ConfigSpace :=
  {s.setHandle s.next (some ⟨d,mode,position⟩) with next := s.next + 1}

@[simp] theorem opened_handles (s : ConfigSpace) :
    (s.opened d mode position).handles s.next = some ⟨d,mode,position⟩ := by
  simp [opened]
@[simp] theorem opened_content (s : ConfigSpace) : (s.opened d mode position).content = s.content := rfl

theorem open_named (s : ConfigSpace) (listed : d ∈ s.devices) (named : path = d.sysfs ∨ path = d.procfs) (mode : AccessMode) :
    kernel (.open path ⟨mode,false⟩) s =
      if s.shown path = true then ((s.next : Int),s.opened d mode 0) else ((-1 : Int),s) := by
  simp only [kernel,resolve_named s listed named]
  split
  · rename_i none_
    split at none_
    · cases none_
    · rename_i hidden
      rw [if_neg hidden]
  · rename_i found
    split at found
    · rename_i shown
      cases found
      rw [if_pos shown]
      rfl
    · cases found

theorem openDevice_exec (s : ConfigSpace) (address : PciAddress) (reached : s.Reaches address.function) (mode : AccessMode) :
    ∃ trace, (openDevice address.seg address.bus address.dev address.func mode).exec kernel s =
      ⟨trace,.ok (s.next : Int),s.opened address.function mode 0⟩ ∧ printed trace = [] := by
  obtain ⟨listed,shown⟩ := reached
  have first := open_named s listed (.inl rfl) mode
  have second := open_named s listed (.inr rfl) mode
  have valid : ¬ (s.next : Int) < 0 := by omega
  unfold openDevice
  rw [Prog.call_bind]
  by_cases visible : s.shown address.function.sysfs = true
  · rw [if_pos visible] at first
    refine ⟨[⟨.open address.function.sysfs ⟨mode,false⟩,(s.next : Int)⟩],?_,rfl⟩
    rw [Prog.exec_step first]
    simp [valid,Run.prepend,PciFunction.sysfs,PciAddress.function]
  · have fallback : s.shown address.function.procfs = true := shown.resolve_left visible
    rw [if_neg visible] at first
    rw [if_pos fallback] at second
    refine ⟨[⟨.open address.function.sysfs ⟨mode,false⟩,(-1 : Int)⟩,⟨.open address.function.procfs ⟨mode,false⟩,(s.next : Int)⟩],?_,rfl⟩
    rw [Prog.exec_step first]
    simp only [Prog.done_bind,show ((-1 : Int) < 0) from by decide,if_true,Prog.call_bind]
    rw [Prog.exec_step second]
    simp [valid,Run.prepend,PciFunction.sysfs,PciFunction.procfs,PciAddress.function]

theorem lseek_opened (s : ConfigSpace) (register : Nat) :
    kernel (.lseek s.next register) (s.opened d mode 0) = ((register : Int),s.opened d mode register) := by
  have positive : ¬ (register : Int) < 0 := by omega
  simp [kernel,positive,opened,setHandle]

theorem read_opened (s : ConfigSpace) (count : Nat) (readable : mode ≠ .wronly) :
    kernel (.read s.next count) (s.opened d mode register) =
      (some ⟨((s.content d).drop register).take count,List.length_take_le ..⟩,
        s.opened d mode (register + (((s.content d).drop register).take count).length)) := by
  simp [kernel,readable,opened,setHandle]

theorem write_opened (s : ConfigSpace) (bytes : List UInt8) (writable : mode ≠ .rdonly)
    (inside : register + bytes.length ≤ (s.content d).length) :
    kernel (.write s.next bytes) (s.opened d mode register) =
      ((bytes.length : Int),{s.opened d mode (register + bytes.length) with
        content := Function.update s.content d (overwrite (s.content d) register bytes)}) := by
  have whole : bytes.take ((s.content d).length - register) = bytes := List.take_of_length_le (by omega)
  simp [kernel,writable,opened,setHandle,whole]

end ConfigSpace

def pciArgs (b : Build) : List Arg → Option PciAddress
  | [bus,dev,func,reg] => some ⟨0,toUnsigned (strtolLong b 0 bus.text).1,(strtoulLong b 0 dev.text).1 % 2 ^ 32,
      (strtoulLong b 0 func.text).1 % 2 ^ 32,(strtoulLong b 0 reg.text).1 % 2 ^ 32⟩
  | [seg,bus,dev,func,reg] => some ⟨toUnsigned (strtolLong b 0 seg.text).1,toUnsigned (strtolLong b 0 bus.text).1,
      (strtoulLong b 0 dev.text).1 % 2 ^ 32,(strtoulLong b 0 func.text).1 % 2 ^ 32,(strtoulLong b 0 reg.text).1 % 2 ^ 32⟩
  | _ => none

theorem pciArgs_cases (located : pciArgs b args = some address) :
    (∃ bus dev func reg, args = [bus,dev,func,reg]) ∨ ∃ seg bus dev func reg, args = [seg,bus,dev,func,reg] := by
  unfold pciArgs at located
  split at located
  · exact .inl ⟨_,_,_,_,rfl⟩
  · exact .inr ⟨_,_,_,_,_,rfl⟩
  · cases located

theorem pciAddress_args (b : Build) (name : Arg) (located : pciArgs b args = some address) :
    pciAddress b (name :: args) (5 < (name :: args).length) = .done address ∧
    ∀ data : Arg, pciAddress b (name :: args ++ [data]) (6 < (name :: args ++ [data]).length) = .done address ∧
      (name :: args ++ [data])[if 6 < (name :: args ++ [data]).length then 6 else 5]? = some data := by
  obtain ⟨bus,dev,func,reg,rfl⟩ | ⟨seg,bus,dev,func,reg,rfl⟩ := pciArgs_cases located
  · cases located
    exact ⟨rfl,fun _ => ⟨rfl,rfl⟩⟩
  · cases located
    exact ⟨rfl,fun _ => ⟨rfl,rfl⟩⟩

-- Leaving out a segment that is zero changes nothing in either parser.
theorem pciAddress_segment (b : Build) (name seg bus dev func reg : Arg) (zero : toUnsigned (strtolLong b 0 seg.text).1 = 0)
    (rest : List Arg) :
    pciAddress b (name :: seg :: bus :: dev :: func :: reg :: rest) true =
      pciAddress b (name :: bus :: dev :: func :: reg :: rest) false := by
  simp [pciAddress,argAt,zero]

theorem pciCmds_sized : ∀ info ∈ pciCmds,
    (info.entry = .pciReadX → info.params = some pciRdParams) ∧ (info.entry = .pciWriteX → info.params = some pciWrParams) ∧
    (info.entry = .pciReadX ∨ info.entry = .pciWriteX → info.sizedata = some 8 ∨ info.sizedata = some 16 ∨
      info.sizedata = some 32) := by
  decide

theorem pciReadX_sized (b : Build) (sized : info.sizedata = some 8 ∨ info.sizedata = some 16 ∨ info.sizedata = some 32)
    (located : pciAddress b argv (5 < argv.length) = .done address) :
    ∃ leToHost : Build → Nat → Nat,
      (∀ bytes : List UInt8, bytes.length = info.bytes → leToHost b (decode b.order bytes) = ofLittle bytes) ∧
      pciReadX b argv info = openDevice address.seg address.bus address.dev address.func .rdonly >>= fun fd =>
        if fd < 0 then .done (-1)
        else .call (.lseek fd address.reg) fun position =>
          if position < 0 then complain (.lseek address.reg) >>= fun _ => .done (-1)
          else pciDoRead b fd info.bytes leToHost := by
  unfold pciReadX
  rw [located]
  rcases sized with size | size | size <;> simp only [CmdInfo.bytes,getCommandSize,size]
  · refine ⟨leToHost8,?_,rfl⟩
    intro bytes one
    obtain ⟨byte,rfl⟩ := List.length_eq_one_iff.mp one
    cases b.order <;> rfl
  · refine ⟨leToHost16,?_,rfl⟩
    intro bytes two
    have swapped := swapped_decode b bytes
    rwa [two] at swapped
  · refine ⟨leToHost32,?_,rfl⟩
    intro bytes four
    have swapped := swapped_decode b bytes
    rwa [four] at swapped

theorem pciWriteX_sized (b : Build) (sized : info.sizedata = some 8 ∨ info.sizedata = some 16 ∨ info.sizedata = some 32)
    (located : pciAddress b argv (6 < argv.length) = .done address)
    (given : argv[if 6 < argv.length then 6 else 5]? = some data) :
    ∃ hostToLe : Build → Nat → Nat,
      (∀ value, encode b.order info.bytes (hostToLe b value) = toLittle info.bytes value) ∧
      pciWriteX b argv info = openDevice address.seg address.bus address.dev address.func .wronly >>= fun fd =>
        if fd < 0 then .done (-1)
        else .call (.lseek fd address.reg) fun position =>
          if position < 0 then complain (.lseek address.reg) >>= fun _ => .done (-1)
          else pciDoWrite b fd info.bytes hostToLe (strtoulLong b 0 data.text).1 := by
  unfold pciWriteX argAt
  rw [located,given]
  rcases sized with size | size | size <;> simp only [CmdInfo.bytes,getCommandSize,size]
  · refine ⟨hostToLe8,?_,rfl⟩
    intro value
    cases b.order <;> rfl
  · exact ⟨hostToLe16,encode_swapped b 2,rfl⟩
  · exact ⟨hostToLe32,encode_swapped b 4,rfl⟩

theorem pciArgs_admitted (located : pciArgs b args = some address) (name data : Arg) :
    Admits (some pciRdParams) (name :: args) ∧ Admits (some pciWrParams) (name :: args ++ [data]) := by
  obtain ⟨bus,dev,func,reg,rfl⟩ | ⟨seg,bus,dev,func,reg,rfl⟩ := pciArgs_cases located
  · constructor
    · rintro _ ⟨⟩
      exact ⟨le_refl 5,Nat.le_succ 5⟩
    · rintro _ ⟨⟩
      exact ⟨le_refl 6,Nat.le_succ 6⟩
  · constructor
    · rintro _ ⟨⟩
      exact ⟨Nat.le_succ 5,le_refl 6⟩
    · rintro _ ⟨⟩
      exact ⟨Nat.le_succ 6,le_refl 7⟩

theorem pciCmds_noIopl : ∀ info ∈ pciCmds, ∀ p ∈ info.params, p.ioplNeeded = 0 := by decide

section Run
variable (b : Build) (fuel : Nat) (s : ConfigSpace) (name : Arg)
  {args : List Arg} {address : PciAddress} (located : pciArgs b args = some address)
  (reached : s.Reaches address.function) {info : CmdInfo} (member : info ∈ pciCmds)
  (inside : address.reg + info.bytes ≤ (s.content address.function).length)
include located reached member inside

theorem pciRead_exec (reads : info.entry = .pciReadX) :
    ∃ trace after, (runInfo b fuel (name :: args) info).exec ConfigSpace.kernel s = ⟨trace,.ok 0,after⟩ ∧ s.Same after ∧
      printed trace =
        valueLine info.bytes (ofLittle (((s.content address.function).drop address.reg).take info.bytes)) := by
  obtain ⟨params,_,sized⟩ := pciCmds_sized info member
  obtain ⟨leToHost,converts,run⟩ := pciReadX_sized b (sized (.inl reads)) (pciAddress_args b name located).1
  have admitted : Admits info.params (name :: args) := by
    rw [params reads]
    exact (pciArgs_admitted located name name).1
  obtain ⟨opening,opens,quiet⟩ := s.openDevice_exec address reached .rdonly
  have length : (((s.content address.function).drop address.reg).take info.bytes).length = info.bytes := by
    rw [List.length_take,List.length_drop]
    omega
  have valid : ¬ (s.next : Int) < 0 := by omega
  have seeked : ¬ (address.reg : Int) < 0 := by omega
  rw [runInfo_admitted b fuel (pciCmds_noIopl info member) admitted,reads]
  simp only [Entry.call]
  rw [run,Prog.exec_seq opens,if_neg valid,Prog.exec_step (s.lseek_opened address.reg),if_neg seeked]
  unfold pciDoRead
  rw [Prog.call_bind,Prog.exec_step (s.read_opened info.bytes (by decide))]
  simp only [Prog.done_bind,length,ne_eq,not_true,if_false]
  refine ⟨_,_,rfl,⟨rfl,rfl,rfl⟩,?_⟩
  simp [quiet,valueLine,Prog.exec_call,converts _ length,output]

theorem pciWrite_exec (writes : info.entry = .pciWriteX) (data : Arg) :
    ∃ trace after, (runInfo b fuel (name :: args ++ [data]) info).exec ConfigSpace.kernel s = ⟨trace,.ok 0,after⟩ ∧
      after.devices = s.devices ∧ after.shown = s.shown ∧
      after.content = Function.update s.content address.function
        (overwrite (s.content address.function) address.reg (toLittle info.bytes (strtoulLong b 0 data.text).1)) := by
  obtain ⟨_,params,sized⟩ := pciCmds_sized info member
  obtain ⟨found,given⟩ := (pciAddress_args b name located).2 data
  obtain ⟨hostToLe,converts,run⟩ := pciWriteX_sized b (sized (.inr writes)) found given
  have admitted : Admits info.params (name :: args ++ [data]) := by
    rw [params writes]
    exact (pciArgs_admitted located name data).2
  obtain ⟨opening,opens,_⟩ := s.openDevice_exec address reached .wronly
  have valid : ¬ (s.next : Int) < 0 := by omega
  have seeked : ¬ (address.reg : Int) < 0 := by omega
  have bytes : encode b.order info.bytes (hostToLe b ((strtoulLong b 0 data.text).1 % 256 ^ info.bytes)) =
      toLittle info.bytes (strtoulLong b 0 data.text).1 := by rw [converts,toLittle_mod]
  have stored := s.write_opened (toLittle info.bytes (strtoulLong b 0 data.text).1) (by decide : AccessMode.wronly ≠ .rdonly)
    (show address.reg + _ ≤ (s.content address.function).length by rwa [toLittle_length])
  rw [toLittle_length] at stored
  rw [runInfo_admitted b fuel (pciCmds_noIopl info member) admitted,writes]
  simp only [Entry.call]
  rw [run,Prog.exec_seq opens,if_neg valid,Prog.exec_step (s.lseek_opened address.reg),if_neg seeked]
  unfold pciDoWrite
  rw [Prog.call_bind,bytes,Prog.exec_step stored]
  simp only [Prog.done_bind,ne_eq,not_true,if_false]
  exact ⟨_,_,rfl,rfl,rfl,rfl⟩

end Run

theorem pciRead_segment (b : Build) (fuel : Nat) (member : info ∈ pciCmds) (reads : info.entry = .pciReadX)
    (name seg bus dev func reg : Arg) (zero : toUnsigned (strtolLong b 0 seg.text).1 = 0) :
    runInfo b fuel [name,seg,bus,dev,func,reg] info = runInfo b fuel [name,bus,dev,func,reg] info := by
  have params := (pciCmds_sized info member).1 reads
  have admitted (argv : List Arg) (count : argv.length = 5 ∨ argv.length = 6) : Admits info.params argv := by
    rw [params]
    rintro _ ⟨⟩
    simp only [pciRdParams,varArgs]
    omega
  rw [runInfo_admitted b fuel (pciCmds_noIopl info member) (admitted _ (.inr rfl)),
    runInfo_admitted b fuel (pciCmds_noIopl info member) (admitted _ (.inl rfl)),reads]
  simp only [Entry.call,pciReadX,List.length_cons,List.length_nil]
  rw [show decide (5 < 0 + 1 + 1 + 1 + 1 + 1 + 1) = true from rfl,show decide (5 < 0 + 1 + 1 + 1 + 1 + 1) = false from rfl,
    pciAddress_segment b name seg bus dev func reg zero]

theorem pciWrite_segment (b : Build) (fuel : Nat) (member : info ∈ pciCmds) (writes : info.entry = .pciWriteX)
    (name seg bus dev func reg data : Arg) (zero : toUnsigned (strtolLong b 0 seg.text).1 = 0) :
    runInfo b fuel [name,seg,bus,dev,func,reg,data] info = runInfo b fuel [name,bus,dev,func,reg,data] info := by
  have params := (pciCmds_sized info member).2.1 writes
  have admitted (argv : List Arg) (count : argv.length = 6 ∨ argv.length = 7) : Admits info.params argv := by
    rw [params]
    rintro _ ⟨⟩
    simp only [pciWrParams,varArgs]
    omega
  rw [runInfo_admitted b fuel (pciCmds_noIopl info member) (admitted _ (.inr rfl)),
    runInfo_admitted b fuel (pciCmds_noIopl info member) (admitted _ (.inl rfl)),writes]
  simp only [Entry.call,pciWriteX,List.length_cons,List.length_nil]
  rw [show decide (6 < 0 + 1 + 1 + 1 + 1 + 1 + 1 + 1) = true from rfl,
    show decide (6 < 0 + 1 + 1 + 1 + 1 + 1 + 1) = false from rfl,pciAddress_segment b name seg bus dev func reg zero]
  rfl

theorem ofLittle_halves (file : List UInt8) (register half : Nat) (inside : register + 2 * half ≤ file.length) :
    ofLittle ((file.drop register).take (2 * half)) =
      ofLittle ((file.drop register).take half) + 2 ^ (8 * half) * ofLittle ((file.drop (register + half)).take half) := by
  have split : (file.drop register).take (2 * half) =
      (file.drop register).take half ++ (file.drop (register + half)).take half := by
    rw [two_mul,List.take_add,List.drop_drop]
  have length : ((file.drop register).take half).length = half := by
    rw [List.length_take,List.length_drop]
    omega
  rw [split,ofLittle_append,length,pow_mul]
  rfl

section Law
variable (b : Build) (fuel : Nat) (s : ConfigSpace) {args args' : List Arg} {address : PciAddress}
  (located : pciArgs b args = some address) (located' : pciArgs b args' = some address)
  (reached : s.Reaches address.function)
include located located' reached

theorem pciWrite_then_read (wrMember : wr ∈ pciCmds) (rdMember : rd ∈ pciCmds) (writes : wr.entry = .pciWriteX)
    (reads : rd.entry = .pciReadX) (width : rd.bytes = wr.bytes) (wrName rdName data : Arg)
    (inside : address.reg + wr.bytes ≤ (s.content address.function).length) :
    let v := (strtoulLong b 0 data.text).1 % 2 ^ (8 * wr.bytes)
    let written := (runInfo b fuel (wrName :: args ++ [data]) wr).exec ConfigSpace.kernel s
    let read := (runInfo b fuel (rdName :: args') rd).exec ConfigSpace.kernel written.state
    written.outcome = .ok 0 ∧
    (∀ i, (written.state.content address.function)[i]? =
      if address.reg ≤ i ∧ i < address.reg + wr.bytes then (toLittle wr.bytes v)[i - address.reg]?
      else (s.content address.function)[i]?) ∧
    (∀ other, other ≠ address.function → written.state.content other = s.content other) ∧
    read.outcome = .ok 0 ∧ printed read.trace = valueLine wr.bytes v ∧ read.state.content = written.state.content := by
  obtain ⟨_,after,wrote,devices,shown,content⟩ :=
    pciWrite_exec b fuel s wrName located reached wrMember inside writes data
  have narrowed : toLittle wr.bytes ((strtoulLong b 0 data.text).1 % 2 ^ (8 * wr.bytes)) =
      toLittle wr.bytes (strtoulLong b 0 data.text).1 := by
    rw [pow_mul]
    exact toLittle_mod _ _
  rw [← narrowed] at content
  have own : after.content address.function = overwrite (s.content address.function) address.reg
      (toLittle wr.bytes ((strtoulLong b 0 data.text).1 % 2 ^ (8 * wr.bytes))) := by
    rw [content,Function.update_self]
  have fits : address.reg + (toLittle wr.bytes ((strtoulLong b 0 data.text).1 % 2 ^ (8 * wr.bytes))).length ≤
      (s.content address.function).length := by rwa [toLittle_length]
  have still : after.Reaches address.function := by
    unfold ConfigSpace.Reaches
    rwa [devices,shown]
  obtain ⟨_,later,readBack,⟨_,_,kept⟩,line⟩ := pciRead_exec b fuel after rdName located' still rdMember
    (by rw [own,overwrite_length _ _ fits,width]; exact inside) reads
  have back := take_drop_overwrite _ _ fits
  rw [toLittle_length] at back
  simp only [wrote,readBack]
  refine ⟨trivial,?_,?_,trivial,?_,kept⟩
  · intro i
    have entry := overwrite_getElem? _ _ fits i
    rw [toLittle_length] at entry
    rw [own,entry]
  · intro other different
    rw [content,Function.update_of_ne different]
  · have small := Nat.mod_lt (strtoulLong b 0 data.text).1 (Nat.two_pow_pos (8 * wr.bytes))
    rw [line,own,width,back,ofLittle_toLittle]
    rw [Nat.mod_eq_of_lt (a := (strtoulLong b 0 data.text).1 % _)]
    rwa [pow_mul] at small ⊢

theorem pciRead_halves (wideMember : wide ∈ pciCmds) (narrowMember : narrow ∈ pciCmds) (readsWide : wide.entry = .pciReadX)
    (readsNarrow : narrow.entry = .pciReadX) (width : wide.bytes = 2 * narrow.bytes) (wideName narrowName : Arg)
    (locatedHigh : pciArgs b high = some {address with reg := address.reg + narrow.bytes})
    (inside : address.reg + wide.bytes ≤ (s.content address.function).length) :
    let first := (runInfo b fuel (narrowName :: args') narrow).exec ConfigSpace.kernel s
    let second := (runInfo b fuel (narrowName :: high) narrow).exec ConfigSpace.kernel first.state
    let whole := (runInfo b fuel (wideName :: args) wide).exec ConfigSpace.kernel second.state
    first.outcome = .ok 0 ∧ second.outcome = .ok 0 ∧ whole.outcome = .ok 0 ∧
    ∃ x y, printed first.trace = valueLine narrow.bytes x ∧ printed second.trace = valueLine narrow.bytes y ∧
      printed whole.trace = valueLine wide.bytes (x + 2 ^ (8 * narrow.bytes) * y) := by
  rw [width] at inside
  obtain ⟨_,one,firstRun,same,firstLine⟩ := pciRead_exec b fuel s narrowName located' reached narrowMember
    (by omega) readsNarrow
  have reachedOne := same.reaches reached
  obtain ⟨_,_,contentOne⟩ := same
  obtain ⟨_,two,secondRun,same,secondLine⟩ := pciRead_exec b fuel one narrowName locatedHigh reachedOne narrowMember
    (by rw [contentOne]; show address.reg + narrow.bytes + narrow.bytes ≤ (s.content address.function).length; omega)
    readsNarrow
  have reachedTwo : two.Reaches address.function := same.reaches reachedOne
  obtain ⟨_,_,contentTwo⟩ := same
  obtain ⟨_,_,wholeRun,_,wholeLine⟩ := pciRead_exec b fuel two wideName located reachedTwo wideMember
    (by rw [contentTwo,contentOne,width]; exact inside) readsWide
  simp only [firstRun,secondRun,wholeRun]
  refine ⟨trivial,trivial,trivial,_,_,firstLine,secondLine,?_⟩
  rw [wholeLine,contentTwo,contentOne,width]
  exact congrArg (valueLine _) (ofLittle_halves _ _ _ inside)

end Law

-- The law of the configuration files, over every argument vector: what a write
-- changes, what a read prints, how widths compose, and that segment zero is the
-- default.
theorem pci_config_law (b : Build) (fuel : Nat) :
    (∀ wr ∈ pciCmds, ∀ rd ∈ pciCmds, wr.entry = .pciWriteX → rd.entry = .pciReadX → rd.bytes = wr.bytes →
      ∀ (s : ConfigSpace) (wrName rdName data : Arg) (args args' : List Arg) (address : PciAddress),
      pciArgs b args = some address → pciArgs b args' = some address → s.Reaches address.function →
      address.reg + wr.bytes ≤ (s.content address.function).length →
      let v := (strtoulLong b 0 data.text).1 % 2 ^ (8 * wr.bytes)
      let written := (runInfo b fuel (wrName :: args ++ [data]) wr).exec ConfigSpace.kernel s
      let read := (runInfo b fuel (rdName :: args') rd).exec ConfigSpace.kernel written.state
      written.outcome = .ok 0 ∧
      (∀ i, (written.state.content address.function)[i]? =
        if address.reg ≤ i ∧ i < address.reg + wr.bytes then (toLittle wr.bytes v)[i - address.reg]?
        else (s.content address.function)[i]?) ∧
      (∀ other, other ≠ address.function → written.state.content other = s.content other) ∧
      read.outcome = .ok 0 ∧ printed read.trace = valueLine wr.bytes v ∧ read.state.content = written.state.content) ∧
    (∀ wide ∈ pciCmds, ∀ narrow ∈ pciCmds, wide.entry = .pciReadX → narrow.entry = .pciReadX →
      wide.bytes = 2 * narrow.bytes →
      ∀ (s : ConfigSpace) (wideName narrowName : Arg) (args low high : List Arg) (address : PciAddress),
      pciArgs b args = some address → pciArgs b low = some address →
      pciArgs b high = some {address with reg := address.reg + narrow.bytes} → s.Reaches address.function →
      address.reg + wide.bytes ≤ (s.content address.function).length →
      let first := (runInfo b fuel (narrowName :: low) narrow).exec ConfigSpace.kernel s
      let second := (runInfo b fuel (narrowName :: high) narrow).exec ConfigSpace.kernel first.state
      let whole := (runInfo b fuel (wideName :: args) wide).exec ConfigSpace.kernel second.state
      first.outcome = .ok 0 ∧ second.outcome = .ok 0 ∧ whole.outcome = .ok 0 ∧
      ∃ x y, printed first.trace = valueLine narrow.bytes x ∧ printed second.trace = valueLine narrow.bytes y ∧
        printed whole.trace = valueLine wide.bytes (x + 2 ^ (8 * narrow.bytes) * y)) ∧
    (∀ info ∈ pciCmds, ∀ (name seg bus dev func reg data : Arg), toUnsigned (strtolLong b 0 seg.text).1 = 0 →
      (info.entry = .pciReadX →
        runInfo b fuel [name,seg,bus,dev,func,reg] info = runInfo b fuel [name,bus,dev,func,reg] info) ∧
      (info.entry = .pciWriteX →
        runInfo b fuel [name,seg,bus,dev,func,reg,data] info = runInfo b fuel [name,bus,dev,func,reg,data] info)) := by
  refine ⟨?_,?_,?_⟩
  · intro wr wrMember rd rdMember writes reads width s wrName rdName data args args' address located located' reached inside
    exact pciWrite_then_read b fuel s located located' reached wrMember rdMember writes reads width wrName rdName data inside
  · intro wide wideMember narrow narrowMember readsWide readsNarrow width s wideName narrowName args low high address
      located locatedLow locatedHigh reached inside
    exact pciRead_halves b fuel s located locatedLow reached wideMember narrowMember readsWide readsNarrow width
      wideName narrowName locatedHigh inside
  · intro info member name seg bus dev func reg data zero
    exact ⟨fun reads => pciRead_segment b fuel member reads name seg bus dev func reg zero,
      fun writes => pciWrite_segment b fuel member writes name seg bus dev func reg data zero⟩

theorem pci_config_law_ppc64 :
    let s : ConfigSpace := ⟨[⟨1,2,3,4⟩],fun path => path = (⟨1,2,3,4⟩ : PciFunction).procfs,fun _ => List.replicate 256 0,3,
      fun _ => none⟩
    let wr := makeCmdWithParamsSize "pci_write32" .pciWriteX .null pciWrParams 32
    let rd := makeCmdWithParamsSize "pci_read32" .pciReadX .null pciRdParams 32
    let rd16 := makeCmdWithParamsSize "pci_read16" .pciReadX .null pciRdParams 16
    let written := (runInfo .ppc64 0 (["pci_write32","1","2","3","4","0x10","0x12345678"].map Arg.of) wr).exec
      ConfigSpace.kernel s
    let read := (runInfo .ppc64 0 (["pci_read32","0x1","2","3","4","16"].map Arg.of) rd).exec ConfigSpace.kernel written.state
    let half := (runInfo .ppc64 0 (["pci_read16","1","2","3","4","0x12"].map Arg.of) rd16).exec ConfigSpace.kernel written.state
    ((written.state.content ⟨1,2,3,4⟩).drop 15).take 6 = [0,0x78,0x56,0x34,0x12,0] ∧
    printed read.trace = "0x12345678\n".toList ∧ printed half.trace = "0x1234\n".toList := by
  intro s wr rd rd16 written read half
  obtain ⟨_,_,_,_,line,_⟩ := (pci_config_law .ppc64 0).1 wr (by decide) rd (by decide) rfl rfl rfl s
    (.of "pci_write32") (.of "pci_read32") (.of "0x12345678") (["1","2","3","4","0x10"].map Arg.of)
    (["0x1","2","3","4","16"].map Arg.of) ⟨1,2,3,4,16⟩ (by decide +kernel) (by decide +kernel)
    ⟨by decide,.inr (by decide +kernel)⟩ (by decide +kernel)
  refine ⟨by decide +kernel,line.trans (by decide +kernel),by decide +kernel⟩

end Iotools
