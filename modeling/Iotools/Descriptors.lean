import Iotools.RegisterReports

namespace Iotools
open Bytes Numeral Interaction

inductive Descriptor where
  | file (fd : Int)
  | dir (path : Text)
  deriving DecidableEq

def release (d : Descriptor) (held : List Descriptor) : Option (List Descriptor) :=
  if d ∈ held then some (held.erase d) else none

def using_ (d : Descriptor) (held : List Descriptor) : Option (List Descriptor) :=
  if d ∈ held then some held else none

-- The discipline: open adds a descriptor, close takes an open one away, and
-- every other call on a descriptor finds it open.
def descriptors (e : Event Sys) (held : List Descriptor) : Option (List Descriptor) :=
  match e with
  | ⟨.open _ _,fd⟩ => if (0 : Int) ≤ fd then some (.file fd :: held) else some held
  | ⟨.opendir path,some _⟩ => some (.dir path :: held)
  | ⟨.close fd,_⟩ => release (.file fd) held
  | ⟨.closedir path,_⟩ => release (.dir path) held
  | ⟨.lseek fd _,_⟩ | ⟨.read fd _,_⟩ | ⟨.write fd _,_⟩ | ⟨.ioctlSlave fd _ _,_⟩ | ⟨.ioctlSmbus fd _,_⟩
  | ⟨.ioctlRdwr fd _ _,_⟩ | ⟨.mmap _ _ fd _,_⟩ => using_ (.file fd) held
  | _ => some held

-- All that was opened has been closed once, and nothing was used when it was not
-- open.
def Balanced (trace : Trace Sys) : Prop := monitor descriptors trace [] = some []

abbrev Hands (program : Action α) (held : List Descriptor) (post : α → List Descriptor → Prop) : Prop :=
  program.Tracks descriptors held (fun value _ after => post value after)

def apart (e : Event Sys) : Prop := ∀ held, descriptors e held = some held

@[simp] theorem apart_stdout (text : Text) (reply : Unit) : apart ⟨.stdout text,reply⟩ := fun _ => rfl
@[simp] theorem apart_stderr (message : Message) (reply : Unit) : apart ⟨.stderr message,reply⟩ := fun _ => rfl
@[simp] theorem apart_load (mem : Nat) (offset : Int) (size : Nat) (data : Buffer size) :
    apart ⟨.load mem offset size,data⟩ := fun _ => rfl

abbrev Apart (program : Action α) : Prop := program.Safe apart (fun _ => True)

theorem Apart.hands {program : Action α} (outside : Apart program) (held : List Descriptor) :
    Hands program held (fun _ after => after = held) := by
  apply Prog.Safe.tracks
  exact outside.mono (fun e none_ => none_ held) (fun _ _ => trivial)

theorem apart_argAt (argv : List Arg) (index : Nat) : Apart (argAt argv index) := by
  unfold argAt
  split <;> trivial

theorem apart_complain (message : Text → Message) : Apart (complain message) :=
  fun _ => ⟨fun _ => rfl,fun _ => ⟨fun _ => rfl,trivial⟩⟩

theorem apart_report (parsed : Parse α) : Apart (report parsed) := by
  match parsed with
  | .ok value => trivial
  | .error (.complain message) => exact fun _ => ⟨fun _ => rfl,trivial⟩
  | .error (.fault reason) => trivial

theorem apart_mmapFlagsOf (info : CmdInfo) : Apart (mmapFlagsOf info) := by
  unfold mmapFlagsOf
  split <;> trivial

theorem apart_smbusOpOf (info : CmdInfo) : Apart (smbusOpOf info) := by
  unfold smbusOpOf
  split <;> trivial

theorem apart_checkPrereqs (b : Build) (argv : List Arg) (params : Option PrereqParams) :
    Apart (checkPrereqs b argv params) := by
  cases params with
  | none => trivial
  | some p =>
    simp only [checkPrereqs]
    split
    · apply (apart_argAt argv 0).bind
      exact fun _ _ => ⟨fun _ => rfl,trivial⟩
    · split
      · intro level
        refine ⟨fun _ => rfl,?_⟩
        show Prog.Safe apart _ (if level < (0 : Int) then _ else _ : Action Int)
        split
        · exact fun _ => ⟨fun _ => rfl,trivial⟩
        · trivial
      · trivial

theorem Apart.then {program : Action α} {next : α → Action β} {held : List Descriptor} {post : β → List Descriptor → Prop}
    (outside : Apart program) (rest : ∀ value, Hands (next value) held post) : Hands (program >>= next) held post := by
  apply (outside.hands held).bind
  rintro value trace _ rfl
  exact rest value

theorem hands_done {value : α} {held : List Descriptor} {post : α → List Descriptor → Prop} (holds : post value held) :
    Hands (.done value) held post := Prog.tracks_done holds

theorem hands_call {c : Call} {next : c.Answer → Action α} {held : List Descriptor} {post : α → List Descriptor → Prop}
    (then_ : ∀ answer, ∃ now, descriptors ⟨c,answer⟩ held = some now ∧ Hands (next answer) now post) :
    Hands (.call c next : Action α) held post := Prog.tracks_call then_

theorem hands_apart {c : Call} {next : c.Answer → Action α} {held : List Descriptor} {post : α → List Descriptor → Prop}
    (outside : ∀ answer, apart ⟨c,answer⟩) (rest : ∀ answer, Hands (next answer) held post) :
    Hands (.call c next : Action α) held post :=
  hands_call (fun answer => ⟨held,outside answer held,rest answer⟩)

theorem hands_open {path : Text} {flags : OpenFlags} {next : Int → Action α} {post : α → List Descriptor → Prop}
    (fails : ∀ fd : Int, fd < 0 → Hands (next fd) [] post)
    (works : ∀ fd : Int, ¬ fd < 0 → Hands (next fd) [.file fd] post) :
    Hands (.call (.open path flags) next : Action α) [] post := by
  apply hands_call
  intro (fd : Int)
  by_cases negative : fd < 0
  · have below : ¬ 0 ≤ fd := by omega
    exact ⟨[],by simp [descriptors,below],fails fd negative⟩
  · have above : 0 ≤ fd := by omega
    exact ⟨[.file fd],by simp [descriptors,above],works fd negative⟩

theorem hands_close {fd : Int} {next : Unit → Action α} {post : α → List Descriptor → Prop} (rest : Hands (next ()) [] post) :
    Hands (.call (.close fd) next : Action α) [.file fd] post :=
  hands_call (fun _ => ⟨[],by simp [descriptors,release],rest⟩)

def on (fd : Int) (e : Event Sys) : Prop := descriptors e [.file fd] = some [.file fd]

theorem hands_on {c : Call} {next : c.Answer → Action α} {post : α → List Descriptor → Prop}
    (uses : ∀ answer, on fd ⟨c,answer⟩) (rest : ∀ answer, Hands (next answer) [.file fd] post) :
    Hands (.call c next : Action α) [.file fd] post :=
  hands_call (fun answer => ⟨_,uses answer,rest answer⟩)

@[simp] theorem on_lseek (fd offset position : Int) : on fd ⟨.lseek fd offset,position⟩ := by simp [on,descriptors,using_]
@[simp] theorem on_read (fd : Int) (count : Nat) (answer : Call.Answer (.read fd count)) : on fd ⟨.read fd count,answer⟩ := by
  simp [on,descriptors,using_]
@[simp] theorem on_write (fd : Int) (bytes : List UInt8) (written : Int) : on fd ⟨.write fd bytes,written⟩ := by
  simp [on,descriptors,using_]
@[simp] theorem on_slave (fd : Int) (force : Bool) (address : UInt8) (result : Int) :
    on fd ⟨.ioctlSlave fd force address,result⟩ := by simp [on,descriptors,using_]
@[simp] theorem on_smbus (fd : Int) (args : I2cSmbusIoctlData) (reply : Int × I2cSmbusData) :
    on fd ⟨.ioctlSmbus fd args,reply⟩ := by simp [on,descriptors,using_]
@[simp] theorem on_rdwr (fd : Int) (first second : I2cMsg) (reply : Int × List UInt8) :
    on fd ⟨.ioctlRdwr fd first second,reply⟩ := by simp [on,descriptors,using_]
@[simp] theorem on_mmap (fd : Int) (length : Nat) (prot : Prot) (offset : Nat) (mem : Option Nat) :
    on fd ⟨.mmap length prot fd offset,mem⟩ := by simp [on,descriptors,using_]
@[simp] theorem on_stale (fd : Int) (size : Nat) (stale : Buffer size) : on fd ⟨.stale size,stale⟩ := rfl
@[simp] theorem on_stderr (fd : Int) (message : Message) (reply : Unit) : on fd ⟨.stderr message,reply⟩ := rfl
@[simp] theorem on_strerror (fd : Int) (err : Text) : on fd ⟨.strerror,err⟩ := rfl
@[simp] theorem on_stdout (fd : Int) (text : Text) (reply : Unit) : on fd ⟨.stdout text,reply⟩ := rfl

end Iotools
