import Iotools.Interleavings
import Iotools.MemorySessions
import Iotools.SmbusGuarantees

namespace Iotools
open Bytes Numeral Interaction

def Build.word (b : Build) : Nat := b.long.bits / 8

-- The accesses to a device that a request takes: as many instructions as an
-- operand in memory needs, taken as indivisible wherever it lies, and one for a
-- transfer or for a port.
def accesses (b : Build) : Call → Nat
  | .load _ _ size => (size - 1) / b.word + 1
  | .store _ _ bytes => (bytes.length - 1) / b.word + 1
  | .read .. | .write .. | .ioctlSmbus .. | .ioctlRdwr .. | .portIn .. | .portOut .. => 1
  | _ => 0

abbrev Touches (b : Build) (limit : Nat) (program : Action α) : Prop := program.AtMost (accesses b) limit

section Rules
variable {b : Build}

theorem setup_idle (e : Event Sys) (setup : Setup e) : accesses b e.call = 0 := by
  obtain ⟨c,answer⟩ := e
  cases c with
  | «open» | close | lseek | ioctlSlave | getpagesize | mmap | munmap | iopl | strerror | stderr => rfl
  | _ => exact setup.elim

theorem setsUp_idle {program : Action α} {fine : Fault → Prop} (setup : program.Safe Setup fine) : Touches b 0 program :=
  setup.idle setup_idle

theorem complain_idle (message : Text → Message) : Touches b 0 (complain message) :=
  Prog.atMost_idle rfl (fun _ => Prog.atMost_idle rfl (fun _ => Prog.atMost_done _))

theorem argAt_idle (argv : List Arg) (index : Nat) : Touches b 0 (argAt argv index) := by
  unfold argAt
  split
  · exact Prog.atMost_done _
  · exact Prog.atMost_fault _

theorem mmapFlagsOf_idle (info : CmdInfo) : Touches b 0 (mmapFlagsOf info) := by
  unfold mmapFlagsOf
  split
  · exact Prog.atMost_done _
  · exact Prog.atMost_fault _
  · exact Prog.atMost_fault _

theorem touch_once {c : Call} {next : c.Answer → Action α} (one : accesses b c = 1) (rest : ∀ answer, Touches b 0 (next answer)) :
    Touches b 1 (ask c >>= next) := by
  have bounded := Prog.atMost_call (I := Sys) rest
  rwa [one] at bounded

theorem touch_never {c : Call} {next : c.Answer → Action α} (none_ : accesses b c = 0)
    (rest : ∀ answer, Touches b limit (next answer)) : Touches b limit (ask c >>= next) := Prog.atMost_idle none_ rest

theorem opened_once {opening : Action (Option β)} {next : Option β → Action Int} (setup : SetsUp opening)
    (refused : next none = .done (-1)) (once : ∀ value, Touches b 1 (next (some value))) : Touches b 1 (opening >>= next) := by
  refine (setsUp_idle setup).behind (fun opened => ?_)
  cases opened with
  | none =>
    rw [refused]
    exact Prog.atMost_done _
  | some value => exact once value

end Rules

section Memory
variable {b : Build}

theorem word_once (narrow : size ≤ b.word) : (size - 1) / b.word + 1 = 1 := by
  have positive : 0 < b.word := by
    unfold Build.word
    cases b.long <;> decide
  rw [Nat.div_eq_of_lt (by omega)]

theorem mmioDoRead_once (mapping : MmapInfo) (narrow : size ≤ b.word) : Touches b 1 (mmioDoRead b mapping size) :=
  touch_once (word_once narrow) (fun _ => touch_never rfl (fun _ => Prog.atMost_done _))

theorem mmioDoWrite_once (mapping : MmapInfo) (ldata : Nat) (narrow : size ≤ b.word) : Touches b 1 (mmioDoWrite b mapping size ldata) :=
  touch_once (word_once (by rwa [encode_length])) (fun _ => Prog.atMost_done _)

theorem size_bytes {info : CmdInfo} (sized : getCommandSize info = ((8 * size : Nat) : Int)) : size = info.bytes := by
  unfold getCommandSize at sized
  unfold CmdInfo.bytes
  cases given : info.sizedata with
  | none =>
    rw [given] at sized
    dsimp only at sized
    omega
  | some bits =>
    rw [given] at sized
    simp only [Option.getD_some]
    dsimp only at sized
    omega

theorem closed_once {access : Action Int} (once : Touches b 1 access) (mapping : MmapInfo) :
    Touches b 1 (access >>= fun ret => closeMapping mapping >>= fun _ => .done ret) :=
  once.before (fun _ => (setsUp_idle (closeMapping_setsUp mapping)).before (fun _ => Prog.atMost_done _))

variable {info : CmdInfo} (narrow : info.bytes ≤ b.word)
include narrow

theorem mmioWriteX_once (argv : List Arg) : Touches b 1 (mmioWriteX b argv info) := by
  have access {size : Nat} (mapping : MmapInfo) (ldata : Nat) (sized : getCommandSize info = ((8 * size : Nat) : Int)) :
      Touches b 1 (mmioDoWrite b mapping size ldata) := mmioDoWrite_once mapping ldata (size_bytes sized ▸ narrow)
  refine (argAt_idle argv 1).behind (fun addr => (argAt_idle argv 2).behind (fun value => ?_))
  refine opened_once (openMapping_setsUp _ _ _) rfl (fun mapping => ?_)
  dsimp only
  split
  · rename_i sized
    exact closed_once (access mapping _ sized) mapping
  · rename_i sized
    exact closed_once (access mapping _ sized) mapping
  · rename_i sized
    exact closed_once (access mapping _ sized) mapping
  · rename_i sized
    exact (setsUp_idle (warnNotAtomic_setsUp b)).behind (fun _ => closed_once (access mapping _ sized) mapping)
  · exact touch_never rfl (fun _ => closed_once (Prog.atMost_done _) mapping)

theorem mmioReadX_once (argv : List Arg) : Touches b 1 (mmioReadX b argv info) := by
  have access {size : Nat} (mapping : MmapInfo) (sized : getCommandSize info = ((8 * size : Nat) : Int)) :
      Touches b 1 (mmioDoRead b mapping size) := mmioDoRead_once mapping (size_bytes sized ▸ narrow)
  refine (argAt_idle argv 1).behind (fun addr => (mmapFlagsOf_idle info).behind (fun sync => ?_))
  refine opened_once (openMapping_setsUp _ _ _) rfl (fun mapping => ?_)
  dsimp only
  split
  · rename_i sized
    exact closed_once (access mapping sized) mapping
  · rename_i sized
    exact closed_once (access mapping sized) mapping
  · rename_i sized
    exact closed_once (access mapping sized) mapping
  · rename_i sized
    exact (setsUp_idle (warnNotAtomic_setsUp b)).behind (fun _ => closed_once (access mapping sized) mapping)
  · exact touch_never rfl (fun _ => closed_once (Prog.atMost_done _) mapping)

end Memory

section Files
variable {b : Build}

theorem readQuad_once (fd : Int) : Touches b 1 (readQuad b fd) := by
  refine touch_once rfl (fun bytes => ?_)
  cases bytes with
  | none => exact (complain_idle _).before (fun _ => touch_never rfl (fun _ => Prog.atMost_done _))
  | some bytes =>
    dsimp only
    split
    · exact (complain_idle _).before (fun _ => touch_never rfl (fun _ => Prog.atMost_done _))
    · exact touch_never rfl (fun _ => touch_never rfl (fun _ => Prog.atMost_done _))

theorem writeQuad_once (fd : Int) (data : Nat) : Touches b 1 (writeQuad b fd data) := by
  refine touch_once rfl (fun written => ?_)
  dsimp only
  split
  · exact (complain_idle _).before (fun _ => touch_never rfl (fun _ => Prog.atMost_done _))
  · exact touch_never rfl (fun _ => Prog.atMost_done _)

theorem rdMsr_once (argv : List Arg) (info : CmdInfo) : Touches b 1 (rdMsr b argv info) :=
  (argAt_idle argv 1).behind (fun _ => (argAt_idle argv 2).behind (fun _ =>
    opened_once (msrOpenAndSeek_setsUp _ _ _) rfl readQuad_once))

theorem wrMsr_once (argv : List Arg) (info : CmdInfo) : Touches b 1 (wrMsr b argv info) :=
  (argAt_idle argv 1).behind (fun _ => (argAt_idle argv 2).behind (fun _ => (argAt_idle argv 3).behind (fun _ =>
    opened_once (msrOpenAndSeek_setsUp _ _ _) rfl (fun fd => writeQuad_once fd _))))

theorem rdScom_once (argv : List Arg) (info : CmdInfo) : Touches b 1 (rdScom b argv info) :=
  (argAt_idle argv 1).behind (fun _ => (argAt_idle argv 2).behind (fun _ =>
    opened_once (scomOpenAndSeek_setsUp _ _ _) rfl readQuad_once))

theorem wrScom_once (argv : List Arg) (info : CmdInfo) : Touches b 1 (wrScom b argv info) :=
  (argAt_idle argv 1).behind (fun _ => (argAt_idle argv 2).behind (fun _ => (argAt_idle argv 3).behind (fun _ =>
    opened_once (scomOpenAndSeek_setsUp _ _ _) rfl (fun fd => writeQuad_once fd _))))

theorem cmosRd_once (argv : List Arg) (info : CmdInfo) : Touches b 1 (cmosRd b argv info) := by
  refine (argAt_idle argv 1).behind (fun index => ?_)
  dsimp only
  split
  · exact touch_never rfl (fun _ => Prog.atMost_done _)
  · refine opened_once (cmosOpenAndSeek_setsUp b _ _) rfl (fun fd => ?_)
    refine touch_once rfl (fun bytes => ?_)
    cases bytes with
    | none => exact (complain_idle _).before (fun _ => touch_never rfl (fun _ => Prog.atMost_done _))
    | some bytes =>
      dsimp only
      split
      · exact (complain_idle _).before (fun _ => touch_never rfl (fun _ => Prog.atMost_done _))
      · exact touch_never rfl (fun _ => touch_never rfl (fun _ => Prog.atMost_done _))

theorem cmosWr_once (argv : List Arg) (info : CmdInfo) : Touches b 1 (cmosWr b argv info) := by
  refine (argAt_idle argv 1).behind (fun index => ?_)
  dsimp only
  split
  · exact touch_never rfl (fun _ => Prog.atMost_done _)
  · refine (argAt_idle argv 2).behind (fun data => opened_once (cmosOpenAndSeek_setsUp b _ _) rfl (fun fd => ?_))
    refine touch_once rfl (fun written => ?_)
    split
    · exact (complain_idle _).before (fun _ => touch_never rfl (fun _ => Prog.atMost_done _))
    · exact touch_never rfl (fun _ => Prog.atMost_done _)

theorem pciAddress_idle (argv : List Arg) (withSegment : Bool) : Touches b 0 (pciAddress b argv withSegment) := by
  have rest (seg arg : Nat) : Touches b 0 (do
      let bus := toUnsigned (strtolLong b 0 (← argAt argv arg)).1
      let dev := (strtoulLong b 0 (← argAt argv (arg + 1))).1 % 2 ^ 32
      let func := (strtoulLong b 0 (← argAt argv (arg + 2))).1 % 2 ^ 32
      let reg := (strtoulLong b 0 (← argAt argv (arg + 3))).1 % 2 ^ 32
      return (⟨seg,bus,dev,func,reg⟩ : PciAddress)) :=
    (argAt_idle argv _).behind (fun _ => (argAt_idle argv _).behind (fun _ => (argAt_idle argv _).behind (fun _ =>
      (argAt_idle argv _).behind (fun _ => Prog.atMost_done _))))
  cases withSegment with
  | false => exact rest 0 1
  | true => exact (argAt_idle argv 1).behind (fun _ => rest _ 2)

theorem pciDoRead_once (fd : Int) (size : Nat) (leToHost : Build → Nat → Nat) : Touches b 1 (pciDoRead b fd size leToHost) := by
  refine touch_once rfl (fun bytes => ?_)
  cases bytes with
  | none => exact (complain_idle _).before (fun _ => Prog.atMost_done _)
  | some bytes =>
    dsimp only
    split
    · exact (complain_idle _).before (fun _ => Prog.atMost_done _)
    · exact touch_never rfl (fun _ => touch_never rfl (fun _ => Prog.atMost_done _))

theorem pciDoWrite_once (fd : Int) (size : Nat) (hostToLe : Build → Nat → Nat) (ldata : Nat) :
    Touches b 1 (pciDoWrite b fd size hostToLe ldata) := by
  refine touch_once rfl (fun written => ?_)
  split
  · exact (complain_idle _).before (fun _ => Prog.atMost_done _)
  · exact touch_never rfl (fun _ => Prog.atMost_done _)

theorem pci_once {address : PciAddress} {mode : AccessMode} {transfer : Int → Action Int} (once : ∀ fd, Touches b 1 (transfer fd)) :
    Touches b 1 (openDevice address.seg address.bus address.dev address.func mode >>= fun fd =>
      if fd < 0 then .done (-1)
      else ask (.lseek fd address.reg) >>= fun (position : Int) =>
        if position < 0 then (complain (.lseek address.reg) >>= fun _ => .done (-1)) else transfer fd) := by
  refine (setsUp_idle (openDevice_setsUp _ _ _ _ _)).behind (fun fd => ?_)
  split
  · exact Prog.atMost_done _
  · refine touch_never rfl (fun position => ?_)
    split
    · exact (complain_idle _).behind (fun _ => Prog.atMost_done _)
    · exact once fd

theorem pciReadX_once (argv : List Arg) (info : CmdInfo) : Touches b 1 (pciReadX b argv info) := by
  refine (pciAddress_idle argv _).behind (fun address => pci_once (fun fd => ?_))
  split
  · exact pciDoRead_once fd _ _
  · exact pciDoRead_once fd _ _
  · exact pciDoRead_once fd _ _
  · exact touch_never rfl (fun _ => Prog.atMost_done _)

theorem pciWriteX_once (argv : List Arg) (info : CmdInfo) : Touches b 1 (pciWriteX b argv info) := by
  refine (pciAddress_idle argv _).behind (fun address => (argAt_idle argv _).behind (fun data => pci_once (fun fd => ?_)))
  split
  · exact pciDoWrite_once fd _ _ _
  · exact pciDoWrite_once fd _ _ _
  · exact pciDoWrite_once fd _ _ _
  · exact touch_never rfl (fun _ => Prog.atMost_done _)

end Files

section Ports
variable {b : Build}

theorem ioIn_once (iobase : Int) (data : List UInt8) : Touches b 1 (ioIn iobase data) := by
  refine touch_never rfl (fun fd => ?_)
  split
  · exact (complain_idle _).behind (fun _ => Prog.atMost_done _)
  · refine touch_never rfl (fun position => ?_)
    split
    · exact (complain_idle _).behind (fun _ => touch_never rfl (fun _ => Prog.atMost_done _))
    · refine touch_once rfl (fun bytes => ?_)
      cases bytes with
      | none => exact Prog.atMost_done _
      | some bytes => exact Prog.atMost_done _

theorem ioOut_once (iobase : Int) (data : List UInt8) : Touches b 1 (ioOut iobase data) := by
  refine touch_never rfl (fun fd => ?_)
  split
  · exact (complain_idle _).mono (Nat.zero_le _)
  · refine touch_never rfl (fun position => ?_)
    split
    · exact (complain_idle _).behind (fun _ => touch_never rfl (fun _ => Prog.atMost_done _))
    · exact touch_once rfl (fun _ => Prog.atMost_done _)

theorem portRead_once (size initial iobase : Nat) : Touches b 1 (portRead b size initial iobase) := by
  unfold portRead
  split
  · exact touch_once rfl (fun _ => Prog.atMost_done _)
  · exact (ioIn_once _ _).before (fun _ => Prog.atMost_done _)

theorem portWrite_once (size value iobase : Nat) : Touches b 1 (portWrite b size value iobase) := by
  unfold portWrite
  split
  · exact touch_once rfl (fun _ => Prog.atMost_done _)
  · exact ioOut_once _ _

theorem ioReadX_once (argv : List Arg) (info : CmdInfo) : Touches b 1 (ioReadX b argv info) := by
  have shown (size : Nat) {input : Action Nat} (once : Touches b 1 input) : Touches b 1 (ioDoRead size input) :=
    once.before (fun _ => touch_never rfl (fun _ => Prog.atMost_done _))
  refine (argAt_idle argv 1).behind (fun iobase => ?_)
  dsimp only
  split
  · exact shown 1 (portRead_once _ _ _)
  · exact shown 2 (portRead_once _ _ _)
  · exact shown 4 (portRead_once _ _ _)
  · exact touch_never rfl (fun _ => Prog.atMost_done _)

theorem ioWriteX_once (argv : List Arg) (info : CmdInfo) : Touches b 1 (ioWriteX b argv info) := by
  refine (argAt_idle argv 1).behind (fun iobase => (argAt_idle argv 2).behind (fun ldata => ?_))
  dsimp only
  split
  · exact (portWrite_once _ _ _).before (fun _ => Prog.atMost_done _)
  · exact (portWrite_once _ _ _).before (fun _ => Prog.atMost_done _)
  · exact (portWrite_once _ _ _).before (fun _ => Prog.atMost_done _)
  · exact touch_never rfl (fun _ => Prog.atMost_done _)

end Ports

-- Over a bus a run makes one transfer, and it has no other device.
theorem transfers_weighed {b : Build} {entry : Entry} (bus : entry ∈ busEntries) {trace : Trace Sys}
    (kept : ∀ e ∈ trace, ∃ s, entry.permits b s e.call) : weighed (accesses b) trace = (transfers trace).length := by
  have alone (other : List Entry) (apart : ∀ e ∈ busEntries, e ∉ other) : entry ∉ other := apart entry bus
  induction trace with
  | nil => rfl
  | cons e rest ih =>
    have later := ih (fun e member => kept e (by simp [member]))
    obtain ⟨s,allowed⟩ := kept e (by simp)
    obtain ⟨c,answer⟩ := e
    rw [weighed_cons,transfers_cons,later]
    cases c with
    | ioctlSmbus | ioctlRdwr => simp [accesses,transferred,Nat.add_comm]
    | load => exact absurd allowed (alone loaders (by decide))
    | store => exact absurd (List.mem_singleton.mpr allowed) (alone [.mmioWriteX] (by decide))
    | read => exact absurd allowed (alone readers (by decide))
    | write => exact absurd allowed (alone writers (by decide))
    | portIn => exact absurd (List.mem_singleton.mpr allowed.1) (alone [.ioReadX] (by decide))
    | portOut => exact absurd (List.mem_singleton.mpr allowed.1) (alone [.ioWriteX] (by decide))
    | _ => simp [accesses,transferred]

theorem bus_members : ∀ info ∈ everyCmd, info.entry ∈ busEntries → info ∈ smbusCmds := by decide +kernel

theorem bus_once {info : CmdInfo} (member : info ∈ everyCmd) (bus : info.entry ∈ busEntries) (b : Build) (fuel : Nat)
    {vector : List Arg} (called : vector ≠ []) : Touches b 1 (runInfo b fuel vector info) := by
  have fresh : Ledger.start.screen = .nothing := rfl
  have meets := (runInfo_meets member (regime_any b info.entry) fresh fuel called).all
  refine (meets.and (smbus_served b fuel vector (bus_members info member bus))).mono ?_
  rintro trace outcome ⟨confined,served⟩
  have kept := (confined (Contract.relied_of_events _ (fun _ _ _ => trivial) _)).1
  have allowed := Contract.guaranteed_events (P := fun c => ∃ s, info.entry.permits b s c) _ (fun s c holds => ⟨s,holds⟩) kept
  change weighed (accesses b) trace ≤ 1
  rw [transfers_weighed bus allowed]
  exact served.single

-- The commands that read or write one operand of a device.
def accessors : List Entry :=
  busEntries ++ [.mmioReadX,.mmioWriteX,.pciReadX,.pciWriteX,.ioReadX,.ioWriteX,.rdMsr,.wrMsr,.cmosRd,.cmosWr,.rdScom,.wrScom]

theorem entry_once {info : CmdInfo} (single : info.entry ∈ accessors) (other : info.entry ∉ busEntries) {b : Build}
    (narrow : info.entry ∈ mappers → info.bytes ≤ b.word) (fuel : Nat) (argv : List Arg) :
    Touches b 1 (info.entry.call b fuel argv info) := by
  cases entry : info.entry with
  | mmioReadX => exact mmioReadX_once (narrow (by rw [entry]; decide)) argv
  | mmioWriteX => exact mmioWriteX_once (narrow (by rw [entry]; decide)) argv
  | pciReadX => exact pciReadX_once argv info
  | pciWriteX => exact pciWriteX_once argv info
  | ioReadX => exact ioReadX_once argv info
  | ioWriteX => exact ioWriteX_once argv info
  | rdMsr => exact rdMsr_once argv info
  | wrMsr => exact wrMsr_once argv info
  | cmosRd => exact cmosRd_once argv info
  | cmosWr => exact cmosWr_once argv info
  | rdScom => exact rdScom_once argv info
  | wrScom => exact wrScom_once argv info
  | smbusRead | smbusWrite | smbusProcessCall | smbusWriteread => exact absurd (by rw [entry]; decide) other
  | _ => exact absurd single (by rw [entry]; decide)

-- Whatever its arguments are and whatever the system answers, a command that
-- accesses one operand of a device does so at most once.
theorem command_once {b : Build} {order : List Group} (perm : order.Perm (groups b)) {fuel : Nat} (enough : order.length ≤ fuel)
    (c : Issued b) (single : c.info.entry ∈ accessors) (narrow : c.info.entry ∈ mappers → c.info.bytes ≤ b.word) :
    Touches b 1 (c.run order fuel) := by
  rw [c.run_eq perm enough]
  by_cases bus : c.info.entry ∈ busEntries
  · exact bus_once c.member bus b fuel (runCommand_selected perm enough c.chosen).2.2
  · refine (setsUp_idle (checkPrereqs_setup b c.vector c.info.params)).behind (fun rc => ?_)
    split
    · exact Prog.atMost_done _
    · exact entry_once single bus narrow fuel c.vector

end Iotools
