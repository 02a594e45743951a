import Iotools.MmioAccess

namespace Iotools
open Bytes Numeral Interaction

-- What the three calls on /dev/port answer: the descriptor, the position, and
-- how many bytes the transfer moves (`none` for -1).
structure PortOutcome where
  opened : Int
  sought : Int
  moved : Option Nat

structure PortFile where
  ports : Memory
  position : Nat

def PortOutcome.kernel (outcome : PortOutcome) : Kernel Sys PortFile := fun c s =>
  match c with
  | .open .. => (outcome.opened,s)
  | .lseek _ offset => (outcome.sought,{s with position := offset.toNat})
  | .read _ count =>
    match outcome.moved with
    | none => (none,s)
    | some moved => (some ⟨s.ports.load s.position (min moved count),by simp⟩,s)
  | .write _ bytes =>
    match outcome.moved with
    | none => ((-1 : Int),s)
    | some moved => ((min moved bytes.length : Nat),{s with ports := s.ports.store s.position (bytes.take moved)})
  | c => (c.succeeds,s)

def PortOutcome.Complete (outcome : PortOutcome) (size : Nat) : Prop :=
  0 ≤ outcome.opened ∧ outcome.sought ≠ -1 ∧ ∃ moved, outcome.moved = some moved ∧ size ≤ moved

def movesIn (size : Nat) : Event Sys → Prop
  | ⟨.read _ _,some bytes⟩ => bytes.val.length = size
  | _ => False

def movesOut (bytes : List UInt8) : Event Sys → Prop
  | ⟨.write _ written,moved⟩ => written = bytes ∧ moved = (bytes.length : Int)
  | _ => False

-- A read command keeps its word in a run: when it returns 0 and prints, it has
-- read all the bytes and prints their little-endian value.
def ReadHolds (size port : Nat) (ports : Memory) (run : Run Sys Fault Int PortFile) : Prop :=
  run.outcome = .ok 0 ∧ printed run.trace ≠ [] →
    (∃ e ∈ run.trace, movesIn size e) ∧ printed run.trace = valueLine size (ofLittle (ports.load port size))

def WriteHolds (size port value : Nat) (ports : Memory) (run : Run Sys Fault Int PortFile) : Prop :=
  run.outcome = .ok 0 →
    (∃ e ∈ run.trace, movesOut (toLittle size value) e) ∧ run.state.ports = ports.store port (toLittle size value)

section Emulation
variable (outcome : PortOutcome) (s : PortFile) (iobase : Int)

theorem kernel_open (path : Text) (flags : OpenFlags) : outcome.kernel (.open path flags) s = (outcome.opened,s) := rfl
theorem kernel_lseek (fd : Int) :
    outcome.kernel (.lseek fd iobase) s = (outcome.sought,{s with position := iobase.toNat}) := rfl

-- The emulation of a read, when something is missing: the variable keeps bytes
-- it had before, and no read of that size took place.
theorem ioIn_incomplete (initial : List UInt8) (missing : ¬ outcome.Complete initial.length) :
    ∃ trace data after, (ioIn iobase initial).exec outcome.kernel s = ⟨trace,.ok data,after⟩ ∧ printed trace = [] ∧
      ∀ e ∈ trace, ¬ movesIn initial.length e := by
  unfold ioIn
  rw [Prog.call_bind,Prog.exec_step (kernel_open outcome s _ _),Prog.done_bind]
  split
  · exact ⟨_,_,_,rfl,rfl,by simp [movesIn,complain,Prog.exec_call]⟩
  · rename_i opened
    rw [Prog.call_bind,Prog.exec_step (kernel_lseek outcome s iobase _),
      Prog.done_bind]
    split
    · exact ⟨_,_,_,rfl,rfl,by simp [movesIn,Run.prepend,complain,Prog.exec_call]⟩
    · rename_i sought
      cases moved : outcome.moved with
      | none =>
        have failed : outcome.kernel (.read outcome.opened initial.length) {s with position := iobase.toNat} =
            (none,{s with position := iobase.toNat}) := by simp [PortOutcome.kernel,moved]
        rw [Prog.call_bind,Prog.exec_step failed]
        exact ⟨_,_,_,rfl,rfl,by simp [movesIn,Run.prepend]⟩
      | some count =>
        have short : count < initial.length := by
          by_contra enough
          exact missing ⟨Int.not_lt.mp opened,sought,count,moved,by omega⟩
        have partly : outcome.kernel (.read outcome.opened initial.length) {s with position := iobase.toNat} =
            (some ⟨s.ports.load iobase.toNat (min count initial.length),by simp⟩,{s with position := iobase.toNat}) := by
          simp [PortOutcome.kernel,moved]
        rw [Prog.call_bind,Prog.exec_step partly]
        exact ⟨_,_,_,rfl,rfl,by simp [movesIn,Run.prepend]; omega⟩

theorem ioIn_complete (initial : List UInt8) (complete : outcome.Complete initial.length) :
    ∃ trace after, (ioIn iobase initial).exec outcome.kernel s =
      ⟨trace,.ok (s.ports.load iobase.toNat initial.length),after⟩ ∧ printed trace = [] ∧
      ∃ e ∈ trace, movesIn initial.length e := by
  obtain ⟨opened,sought,count,moved,enough⟩ := complete
  have whole : outcome.kernel (.read outcome.opened initial.length) {s with position := iobase.toNat} =
      (some ⟨s.ports.load iobase.toNat initial.length,by simp⟩,{s with position := iobase.toNat}) := by
    simp [PortOutcome.kernel,moved,enough]
  unfold ioIn
  rw [Prog.call_bind,Prog.exec_step (kernel_open outcome s _ _),Prog.done_bind,
    if_neg (Int.not_lt.mpr opened),Prog.call_bind,
    Prog.exec_step (kernel_lseek outcome s iobase _),
    Prog.done_bind,if_neg sought,Prog.call_bind,Prog.exec_step whole]
  refine ⟨_,_,by simp; rfl,rfl,?_⟩
  simp [movesIn,Run.prepend]

theorem ioOut_incomplete (data : List UInt8) (missing : ¬ outcome.Complete data.length) :
    ∃ trace after, (ioOut iobase data).exec outcome.kernel s = ⟨trace,.ok (),after⟩ ∧
      ∀ bytes, bytes.length = data.length → ∀ e ∈ trace, ¬ movesOut bytes e := by
  unfold ioOut
  rw [Prog.call_bind,Prog.exec_step (kernel_open outcome s _ _),Prog.done_bind]
  split
  · exact ⟨_,_,rfl,by simp [movesOut,complain,Prog.exec_call]⟩
  · rename_i opened
    rw [Prog.call_bind,Prog.exec_step (kernel_lseek outcome s iobase _),Prog.done_bind]
    split
    · exact ⟨_,_,rfl,by simp [movesOut,Run.prepend,complain,Prog.exec_call]⟩
    · rename_i sought
      cases moved : outcome.moved with
      | none =>
        have failed : outcome.kernel (.write outcome.opened data) {s with position := iobase.toNat} =
            ((-1 : Int),{s with position := iobase.toNat}) := by simp [PortOutcome.kernel,moved]
        rw [Prog.call_bind,Prog.exec_step failed]
        refine ⟨_,_,rfl,?_⟩
        intro bytes _
        simp [movesOut,Run.prepend]
      | some count =>
        have short : count < data.length := by
          by_contra enough
          exact missing ⟨Int.not_lt.mp opened,sought,count,moved,by omega⟩
        have partly : outcome.kernel (.write outcome.opened data) {s with position := iobase.toNat} =
            (((min count data.length : Nat) : Int),(⟨s.ports.store iobase.toNat (data.take count),iobase.toNat⟩ : PortFile)) := by
          simp [PortOutcome.kernel,moved]
        rw [Prog.call_bind,Prog.exec_step partly]
        refine ⟨_,_,rfl,?_⟩
        intro bytes length
        have fewer : (min count data.length : Int) ≠ bytes.length := by omega
        simp [movesOut,Run.prepend,fewer]

theorem ioOut_complete (data : List UInt8) (complete : outcome.Complete data.length) :
    (ioOut iobase data).exec outcome.kernel s =
      ⟨[⟨.open devPort ⟨.wronly,false⟩,outcome.opened⟩,⟨.lseek outcome.opened iobase,outcome.sought⟩,
          ⟨.write outcome.opened data,(data.length : Int)⟩],.ok (),⟨s.ports.store iobase.toNat data,iobase.toNat⟩⟩ := by
  obtain ⟨opened,sought,count,moved,enough⟩ := complete
  have whole : outcome.kernel (.write outcome.opened data) {s with position := iobase.toNat} =
      ((data.length : Int),⟨s.ports.store iobase.toNat data,iobase.toNat⟩) := by
    simp [PortOutcome.kernel,moved,enough,List.take_of_length_le enough]
  unfold ioOut
  rw [Prog.call_bind,Prog.exec_step (kernel_open outcome s _ _),Prog.done_bind,
    if_neg (Int.not_lt.mpr opened),Prog.call_bind,
    Prog.exec_step (kernel_lseek outcome s iobase _),Prog.done_bind,if_neg sought,Prog.call_bind,Prog.exec_step whole]
  rfl

end Emulation

theorem ioCmds_sized : ∀ info ∈ ioCmds,
    (info.sizedata = some 8 ∨ info.sizedata = some 16 ∨ info.sizedata = some 32) ∧
    (info.entry = .ioReadX → info.params = some ioRdParams) ∧ (info.entry = .ioWriteX → info.params = some ioWrParams) := by
  decide

def iobaseOf (b : Build) (port : Arg) : Int := toInt (strtoulLong b 0 port.text).1

theorem ioReadX_sized (b : Build) (other : b.arch ≠ .x86) (member : info ∈ ioCmds) (name port : Arg) :
    ∃ initial : List UInt8, initial.length = info.bytes ∧
      ioReadX b [name,port] info = ioIn (iobaseOf b port) initial >>= fun data =>
        .call (.stdout (valueLine info.bytes (decode b.order data))) fun _ => .done 0 := by
  have emulated (size initial : Nat) : ioDoRead size (portRead b size initial (strtoulLong b 0 port.text).1) =
      ioIn (iobaseOf b port) (encode b.order size initial) >>= fun data =>
        .call (.stdout (valueLine size (decode b.order data))) fun _ => .done 0 := by
    unfold ioDoRead portRead
    rw [if_neg other,Prog.bind_assoc]
    rfl
  unfold ioReadX
  rcases (ioCmds_sized info member).1 with size | size | size
  · rw [show info.bytes = 1 by simp [CmdInfo.bytes,size],getCommandSize,size]
    exact ⟨encode b.order 1 0xff,encode_length ..,emulated 1 0xff⟩
  · rw [show info.bytes = 2 by simp [CmdInfo.bytes,size],getCommandSize,size]
    exact ⟨encode b.order 2 0xffff,encode_length ..,emulated 2 0xffff⟩
  · rw [show info.bytes = 4 by simp [CmdInfo.bytes,size],getCommandSize,size]
    exact ⟨encode b.order 4 0xffff,encode_length ..,emulated 4 0xffff⟩

theorem ioWriteX_sized (b : Build) (other : b.arch ≠ .x86) (member : info ∈ ioCmds) (name port value : Arg) :
    ioWriteX b [name,port,value] info =
      ioOut (iobaseOf b port)
        (encode b.order info.bytes ((strtoulLong b 0 value.text).1 % 2 ^ (8 * info.bytes))) >>= fun _ => .done 0 := by
  have emulated (size data : Nat) : portWrite b size data (strtoulLong b 0 port.text).1 =
      ioOut (iobaseOf b port) (encode b.order size data) := by
    unfold portWrite
    rw [if_neg other]
    rfl
  unfold ioWriteX
  rcases (ioCmds_sized info member).1 with size | size | size <;> simp only [CmdInfo.bytes,getCommandSize,size]
  · rw [← emulated]; rfl
  · rw [← emulated]; rfl
  · rw [← emulated]; rfl

section Other
variable {b : Build} (other : b.arch ≠ .x86) (fuel : Nat) {info : CmdInfo} (member : info ∈ ioCmds) (name port : Arg)
  (outcome : PortOutcome) (s : PortFile)
include other member

theorem ioRead_holds_iff (reads : info.entry = .ioReadX) :
    ReadHolds info.bytes (iobaseOf b port).toNat s.ports ((runInfo b fuel [name,port] info).exec outcome.kernel s) ↔
      outcome.Complete info.bytes ∧ (b.order = .little ∨
        (s.ports.load (iobaseOf b port).toNat info.bytes).reverse = s.ports.load (iobaseOf b port).toNat info.bytes) := by
  obtain ⟨initial,length,run⟩ := ioReadX_sized b other member name port
  have params := (ioCmds_sized info member).2.1 reads
  have admitted : Admits info.params [name,port] := by
    rw [params]
    rintro _ ⟨⟩
    exact ⟨le_refl 2,le_refl 2⟩
  rw [runInfo_passes b fuel (fun x86 => absurd x86 other) admitted,reads]
  simp only [Entry.call]
  rw [run,← length]
  by_cases complete : outcome.Complete initial.length
  · obtain ⟨trace,after,ran,quiet,moves⟩ := ioIn_complete outcome s (iobaseOf b port) initial complete
    rw [Prog.exec_seq ran,← decode_eq_ofLittle]
    have prints : printed (trace ++ [⟨.stdout (valueLine initial.length
        (decode b.order (s.ports.load (iobaseOf b port).toNat initial.length))),()⟩]) = valueLine initial.length
        (decode b.order (s.ports.load (iobaseOf b port).toNat initial.length)) := by
      simp [quiet]
    constructor
    · intro holds
      obtain ⟨_,line⟩ := holds ⟨rfl,by simp [Run.prepend,Prog.exec_call,quiet,valueLine]⟩
      exact ⟨complete,valueLine_inj.mp (prints.symm.trans line)⟩
    · rintro ⟨_,value⟩ _
      obtain ⟨e,there,moved⟩ := moves
      refine ⟨⟨e,List.mem_append_left _ there,moved⟩,?_⟩
      rw [← value]
      exact prints
  · obtain ⟨trace,data,after,ran,quiet,none_⟩ := ioIn_incomplete outcome s (iobaseOf b port) initial complete
    rw [Prog.exec_seq ran]
    constructor
    · intro holds
      obtain ⟨⟨e,there,moved⟩,_⟩ := holds ⟨rfl,by simp [Run.prepend,Prog.exec_call,quiet,valueLine]⟩
      rcases List.mem_append.mp there with early | late
      · exact absurd moved (none_ e early)
      · cases List.mem_singleton.mp late
        exact moved.elim
    · intro both
      exact absurd both.1 complete

theorem ioWrite_holds_iff (writes : info.entry = .ioWriteX) (value : Arg) :
    WriteHolds info.bytes (iobaseOf b port).toNat ((strtoulLong b 0 value.text).1 % 2 ^ (8 * info.bytes)) s.ports
        ((runInfo b fuel [name,port,value] info).exec outcome.kernel s) ↔
      outcome.Complete info.bytes ∧ (b.order = .little ∨
        (toLittle info.bytes (strtoulLong b 0 value.text).1).reverse = toLittle info.bytes (strtoulLong b 0 value.text).1) := by
  have params := (ioCmds_sized info member).2.2 writes
  have admitted : Admits info.params [name,port,value] := by
    rw [params]
    rintro _ ⟨⟩
    exact ⟨le_refl 3,le_refl 3⟩
  have narrowed : toLittle info.bytes ((strtoulLong b 0 value.text).1 % 2 ^ (8 * info.bytes)) =
      toLittle info.bytes (strtoulLong b 0 value.text).1 := by
    rw [pow_mul]
    exact toLittle_mod _ _
  have length := encode_length b.order info.bytes ((strtoulLong b 0 value.text).1 % 2 ^ (8 * info.bytes))
  rw [runInfo_passes b fuel (fun x86 => absurd x86 other) admitted,writes]
  simp only [Entry.call]
  rw [ioWriteX_sized b other member name port value,← narrowed,← encode_eq_toLittle]
  by_cases complete : outcome.Complete info.bytes
  · rw [Prog.exec_seq (ioOut_complete outcome s _ _ (by rwa [length]))]
    constructor
    · intro holds
      obtain ⟨⟨e,there,moved⟩,_⟩ := holds rfl
      refine ⟨complete,?_⟩
      simp only [Run.prepend,Prog.exec_done,List.append_nil,List.mem_cons,List.not_mem_nil,or_false] at there
      rcases there with rfl | rfl | rfl
      · exact moved.elim
      · exact moved.elim
      · exact moved.1
    · rintro ⟨_,same⟩ _
      rw [same]
      simp only [Run.prepend,Prog.exec_done]
      refine ⟨⟨_,.tail _ (.tail _ (.head _)),?_⟩,trivial⟩
      exact ⟨rfl,rfl⟩
  · obtain ⟨trace,after,ran,none_⟩ := ioOut_incomplete outcome s (iobaseOf b port)
      (encode b.order info.bytes ((strtoulLong b 0 value.text).1 % 2 ^ (8 * info.bytes))) (by rwa [length])
    rw [Prog.exec_seq ran]
    constructor
    · intro holds
      obtain ⟨⟨e,there,moved⟩,_⟩ := holds rfl
      simp only [Run.prepend,Prog.exec_done,List.append_nil] at there
      exact absurd moved (none_ _ (by simp) e there)
    · intro both
      exact absurd both.1 complete

end Other

-- The port commands of a build without port instructions keep their word exactly
-- when every call on /dev/port does all it is asked for and the byte order of
-- the host does not show.
theorem port_emulation_iff (b : Build) (other : b.arch ≠ .x86) (fuel : Nat) (rd wr : CmdInfo) (rdMember : rd ∈ ioCmds)
    (wrMember : wr ∈ ioCmds) (reads : rd.entry = .ioReadX) (writes : wr.entry = .ioWriteX) (name port value : Arg)
    (outcome : PortOutcome) (s : PortFile) :
    let P := (iobaseOf b port).toNat
    let v := (strtoulLong b 0 value.text).1
    (ReadHolds rd.bytes P s.ports ((runInfo b fuel [name,port] rd).exec outcome.kernel s) ↔
      outcome.Complete rd.bytes ∧
        (b.order = .little ∨ (s.ports.load P rd.bytes).reverse = s.ports.load P rd.bytes)) ∧
    (WriteHolds wr.bytes P (v % 2 ^ (8 * wr.bytes)) s.ports ((runInfo b fuel [name,port,value] wr).exec outcome.kernel s) ↔
      outcome.Complete wr.bytes ∧ (b.order = .little ∨ (toLittle wr.bytes v).reverse = toLittle wr.bytes v)) :=
  ⟨ioRead_holds_iff other fuel rdMember name port outcome s reads,
    ioWrite_holds_iff other fuel wrMember name port outcome s writes value⟩

def ioRead32Info : CmdInfo := makeCmdWithParamsSize "io_read32" .ioReadX .null ioRdParams 32
def ioWrite16Info : CmdInfo := makeCmdWithParamsSize "io_write16" .ioWriteX .null ioWrParams 16

-- Two ways to fail. /dev/port cannot be opened: the read prints a value of its
-- own and returns 0, and the write returns 0 as well. The host is big-endian: a
-- complete read and a complete write have their bytes the other way round.
theorem port_emulation_fails :
    let missing : PortOutcome := ⟨-1,0,some 4⟩
    let fine : PortOutcome := ⟨3,0x80,some 4⟩
    let s : PortFile := ⟨fun x => UInt8.ofNat x,0⟩
    let read := fun b (outcome : PortOutcome) =>
      (runInfo b 0 (["io_read32","0x80"].map Arg.of) ioRead32Info).exec outcome.kernel s
    let write := fun b (outcome : PortOutcome) =>
      (runInfo b 0 (["io_write16","0x80","0x1234"].map Arg.of) ioWrite16Info).exec outcome.kernel s
    ((read .other64 missing).outcome = .ok 0 ∧ printed (read .other64 missing).trace = "0x0000ffff\n".toList ∧
      ¬ ReadHolds 4 0x80 s.ports (read .other64 missing)) ∧
    ((write .other64 missing).outcome = .ok 0 ∧ ¬ WriteHolds 2 0x80 0x1234 s.ports (write .other64 missing)) ∧
    (printed (read .ppc64 fine).trace = "0x80818283\n".toList ∧ ¬ ReadHolds 4 0x80 s.ports (read .ppc64 fine)) ∧
    ((write .ppc64 fine).state.ports.load 0x80 2 = [0x12,0x34] ∧
      ¬ WriteHolds 2 0x80 0x1234 s.ports (write .ppc64 fine)) := by
  refine ⟨⟨by decide +kernel,by decide +kernel,?_⟩,⟨by decide +kernel,?_⟩,⟨by decide +kernel,?_⟩,by decide +kernel,?_⟩
  · intro holds
    exact absurd (holds ⟨by decide +kernel,by decide +kernel⟩).2 (by decide +kernel)
  · intro holds
    exact absurd (congrFun (holds (by decide +kernel)).2 0x80) (by decide +kernel)
  · intro holds
    exact absurd (holds ⟨by decide +kernel,by decide +kernel⟩).2 (by decide +kernel)
  · intro holds
    exact absurd (congrFun (holds (by decide +kernel)).2 0x80) (by decide +kernel)

theorem port_emulation_iff_other64 :
    let fine : PortOutcome := ⟨3,0x80,some 4⟩
    let s : PortFile := ⟨fun x => UInt8.ofNat x,0⟩
    let read := (runInfo .other64 0 (["io","0x80"].map Arg.of) ioRead32Info).exec fine.kernel s
    let write := (runInfo .other64 0 (["io","0x80","0x1234"].map Arg.of) ioWrite16Info).exec fine.kernel s
    printed read.trace = "0x83828180\n".toList ∧ ReadHolds 4 0x80 s.ports read ∧ WriteHolds 2 0x80 0x1234 s.ports write := by
  intro fine s read write
  have both := port_emulation_iff .other64 (by decide) 0 ioRead32Info ioWrite16Info (by decide) (by decide) rfl rfl
    (.of "io") (.of "0x80") (.of "0x1234") fine s
  have port : (iobaseOf .other64 (Arg.of "0x80")).toNat = 0x80 := by decide +kernel
  have value : (strtoulLong .other64 0 (Arg.of "0x1234").text).1 = 0x1234 := by decide +kernel
  simp only [port,value] at both
  exact ⟨by decide +kernel,both.1.mpr ⟨⟨by decide,by decide,4,rfl,by decide⟩,.inl rfl⟩,
    both.2.mpr ⟨⟨by decide,by decide,4,rfl,by decide⟩,.inl rfl⟩⟩

end Iotools
