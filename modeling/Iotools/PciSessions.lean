import Iotools.MemorySessions
import Iotools.PciAccess

namespace Iotools
open Bytes Numeral Interaction

def ConfigSpace.byte (s : ConfigSpace) (cell : PciFunction × Nat) : UInt8 := (s.content cell.1).getD cell.2 0

structure ConfigSpace.Keeps (s s' : ConfigSpace) : Prop where
  devices : s'.devices = s.devices
  shown : s'.shown = s.shown
  sizes : ∀ d, (s'.content d).length = (s.content d).length

theorem ConfigSpace.Keeps.trans (first : ConfigSpace.Keeps s s') (second : ConfigSpace.Keeps s' s'') : ConfigSpace.Keeps s s'' :=
  ⟨second.devices.trans first.devices,second.shown.trans first.shown,fun d => (second.sizes d).trans (first.sizes d)⟩

theorem ConfigSpace.Keeps.reaches (keeps : ConfigSpace.Keeps s s') (reached : s.Reaches d) : s'.Reaches d := by
  unfold ConfigSpace.Reaches
  rw [keeps.devices,keeps.shown]
  exact reached

-- The register a command names, and the value it is given.
def Issued.place (c : Issued b) : Option PciAddress :=
  pciArgs b (if c.info.entry = .pciWriteX then c.vector.tail.dropLast else c.vector.tail)

def Issued.value (c : Issued b) : Nat := (strtoulLong b 0 ((c.vector.getLast?.map Arg.text).getD [])).1

def registerPatch (address : PciAddress) (bytes : List UInt8) : Patch (PciFunction × Nat) UInt8 := fun cell =>
  if cell.1 = address.function then bytesAt address.reg bytes cell.2 else none

def Issued.configures (c : Issued b) : Patch (PciFunction × Nat) UInt8 :=
  match c.place with
  | some address => if c.info.entry = .pciWriteX then registerPatch address (toLittle c.info.bytes c.value) else Patch.idle
  | none => Patch.idle

def configLoad (store : PciFunction × Nat → UInt8) (address : PciAddress) (count : Nat) : List UInt8 :=
  Memory.load (fun i => store (address.function,i)) address.reg count

def Issued.lists (c : Issued b) (store : PciFunction × Nat → UInt8) (text : Text) : Prop :=
  ∃ address, c.place = some address ∧
    text = if c.info.entry = .pciReadX then valueLine c.info.bytes (ofLittle (configLoad store address c.info.bytes)) else []

-- A PCI access with the arguments it takes, inside the file of a function the
-- machine has.
structure PciCommand (s : ConfigSpace) (c : Issued b) : Prop where
  accesses : c.info.entry = .pciReadX ∨ c.info.entry = .pciWriteX
  admitted : Admits c.info.params c.vector
  reached : ∀ address, c.place = some address → s.Reaches address.function ∧
    address.reg + c.info.bytes ≤ (s.content address.function).length

theorem PciCommand.later (command : PciCommand s c) (keeps : ConfigSpace.Keeps s s') : PciCommand s' c where
  accesses := command.accesses
  admitted := command.admitted
  reached := by
    intro address located
    obtain ⟨reached,inside⟩ := command.reached address located
    exact ⟨keeps.reaches reached,by rw [keeps.sizes]; exact inside⟩

theorem pci_members : ∀ info ∈ everyCmd, info.entry = .pciReadX ∨ info.entry = .pciWriteX → info ∈ pciCmds := by decide +kernel

theorem pciArgs_some (b : Build) (args : List Arg) (count : args.length = 4 ∨ args.length = 5) : ∃ address, pciArgs b args = some address := by
  match args,count with
  | [_,_,_,_],_ => exact ⟨_,rfl⟩
  | [_,_,_,_,_],_ => exact ⟨_,rfl⟩

theorem configLoad_file (s : ConfigSpace) (address : PciAddress) (inside : address.reg + count ≤ (s.content address.function).length) :
    configLoad s.byte address count = ((s.content address.function).drop address.reg).take count := by
  apply List.ext_getElem
  · simp [configLoad]
    omega
  · intro i short _
    have there : i < count := by simpa [configLoad] using short
    simp [configLoad,Memory.load,ConfigSpace.byte,List.getD_eq_getElem?_getD,
      List.getElem?_eq_getElem (show address.reg + i < (s.content address.function).length by omega)]

theorem registerPatch_apply (s : ConfigSpace) (address : PciAddress) (bytes : List UInt8)
    (inside : address.reg + bytes.length ≤ (s.content address.function).length) (s' : ConfigSpace)
    (content : s'.content = Function.update s.content address.function (overwrite (s.content address.function) address.reg bytes)) :
    s'.byte = (registerPatch address bytes).apply s.byte := by
  funext cell
  obtain ⟨d,i⟩ := cell
  simp only [ConfigSpace.byte,Patch.apply,registerPatch,content]
  by_cases own : d = address.function
  · subst own
    rw [if_pos rfl,Function.update_self,List.getD_eq_getElem?_getD,overwrite_getElem? _ _ inside]
    unfold bytesAt
    by_cases low : address.reg ≤ i
    · by_cases high : i < address.reg + bytes.length
      · have there : i - address.reg < bytes.length := by omega
        simp [low,high,there]
      · have past : bytes.length ≤ i - address.reg := by omega
        simp [low,high,past,List.getD_eq_getElem?_getD]
    · simp [low,List.getD_eq_getElem?_getD]
  · rw [if_neg own,Function.update_of_ne own]
    rfl

section Command
variable {b : Build} (fuel : Nat) {s : ConfigSpace} {c : Issued b} (command : PciCommand s c)
include command

theorem pciCommand_effect :
    let run := (runInfo b fuel c.vector c.info).exec ConfigSpace.kernel s
    run.outcome = .ok 0 ∧ ConfigSpace.Keeps s run.state ∧ run.state.byte = c.configures.apply s.byte ∧
      c.lists s.byte (printed run.trace) := by
  obtain ⟨accesses,admitted,reached⟩ := command
  have member := pci_members c.info c.member accesses
  obtain ⟨rdParams,wrParams,_⟩ := pciCmds_sized c.info member
  unfold Issued.configures Issued.lists
  rcases accesses with reads | writes
  · rw [rdParams reads] at admitted
    obtain ⟨least,most⟩ := admitted pciRdParams rfl
    change 5 ≤ c.vector.length at least
    change c.vector.length ≤ 6 at most
    obtain ⟨name,args,vector⟩ := List.exists_cons_of_length_pos (show 0 < c.vector.length by omega)
    have place : c.place = pciArgs b args := by simp [Issued.place,reads,vector]
    rw [vector,List.length_cons] at least most
    obtain ⟨address,located⟩ := pciArgs_some b args (by omega)
    obtain ⟨reached,inside⟩ := reached address (place.trans located)
    obtain ⟨trace,after,run,⟨devices,shown,content⟩,text⟩ := pciRead_exec b fuel s name located reached member inside reads
    have other : ¬ c.info.entry = .pciWriteX := by rw [reads]; decide
    rw [vector,run,place,located,reads]
    refine ⟨rfl,⟨devices,shown,fun d => by rw [content]⟩,?_,address,rfl,?_⟩
    · funext cell
      simp [ConfigSpace.byte,content]
    · rw [if_pos rfl,configLoad_file s address inside]
      exact text
  · rw [wrParams writes] at admitted
    obtain ⟨least,most⟩ := admitted pciWrParams rfl
    change 6 ≤ c.vector.length at least
    change c.vector.length ≤ 7 at most
    obtain ⟨name,rest,vector⟩ := List.exists_cons_of_length_pos (show 0 < c.vector.length by omega)
    rw [vector,List.length_cons] at least most
    rcases List.eq_nil_or_concat' rest with rfl | ⟨args,data,rfl⟩
    · simp at least
    · rw [List.length_append,List.length_singleton] at least most
      have place : c.place = pciArgs b args := by simp [Issued.place,writes,vector]
      have value : c.value = (strtoulLong b 0 data.text).1 := by
        rw [Issued.value,vector,← List.cons_append,List.getLast?_concat]
        rfl
      obtain ⟨address,located⟩ := pciArgs_some b args (by omega)
      obtain ⟨reached,inside⟩ := reached address (place.trans located)
      obtain ⟨trace,after,run,devices,shown,content⟩ := pciWrite_exec b fuel s name located reached member inside writes data
      have fits : address.reg + (toLittle c.info.bytes (strtoulLong b 0 data.text).1).length ≤
          (s.content address.function).length := by rwa [toLittle_length]
      have other : ¬ c.info.entry = .pciReadX := by rw [writes]; decide
      have text := writers_silent c.member (by rw [writes]; rfl) b fuel (name :: args ++ [data]) (by simp) ConfigSpace.kernel s
      rw [run] at text
      rw [vector,← List.cons_append,run,place,located,value]
      dsimp only
      rw [if_pos writes]
      refine ⟨rfl,⟨devices,shown,fun d => ?_⟩,registerPatch_apply s address _ fits after content,address,rfl,?_⟩
      · show (after.content d).length = (s.content d).length
        rw [content]
        by_cases own : d = address.function
        · rw [own,Function.update_self,overwrite_length _ _ fits]
        · rw [Function.update_of_ne own]
      · rw [if_neg other]
        exact text

end Command

-- Over a whole session of accesses to any functions: every byte of every file
-- is what was written there last, through whichever segment, width and name,
-- and each read prints the little-endian value of the bytes it found.
theorem pci_session (b : Build) (order : List Group) (perm : order.Perm (groups b)) (fuel : Nat) (enough : order.length ≤ fuel)
    (s : ConfigSpace) (commands : List (Issued b)) (serves : ∀ c ∈ commands, PciCommand s c) :
    let files := fun done : List (Issued b) => (Patch.last (done.map Issued.configures)).apply s.byte
    let state := fun done : List (Issued b) => Prog.session ConfigSpace.kernel (done.map (Issued.run order fuel)) s
    (state commands).byte = files commands ∧ ConfigSpace.Keeps s (state commands) ∧
    ∀ before c later, commands = before ++ c :: later →
      let run := (c.run order fuel).exec ConfigSpace.kernel (state before)
      run.outcome = .ok 0 ∧ c.lists (files before) (printed run.trace) := by
  intro files state
  have reached (done : List (Issued b)) (sub : done ⊆ commands) :
      ConfigSpace.Keeps s (state done) ∧ (state done).byte = files done := by
    refine Prog.session_store (ConfigSpace.Keeps s) ConfigSpace.byte ?_ s ⟨rfl,rfl,fun _ => rfl⟩
    intro c member s' keeps
    rw [c.run_eq perm enough]
    obtain ⟨_,kept,stores,_⟩ := pciCommand_effect fuel ((serves c (sub member)).later keeps)
    exact ⟨keeps.trans kept,stores⟩
  refine ⟨(reached commands (List.Subset.refl _)).2,(reached commands (List.Subset.refl _)).1,?_⟩
  intro before c later split run
  obtain ⟨keeps,stores⟩ := reached before (by rw [split]; exact List.subset_append_left _ _)
  have ends := pciCommand_effect fuel ((serves c (by rw [split]; simp)).later keeps)
  rw [← c.run_eq perm enough,stores] at ends
  exact ⟨ends.1,ends.2.2.2⟩

theorem pci_session_segments :
    let s : ConfigSpace := ⟨[⟨1,2,3,4⟩,⟨0,2,3,4⟩],fun _ => true,fun _ => List.replicate 256 0,3,fun _ => none⟩
    let program := fun args : List String => runCommand .ppc64 (registerAll (groups .ppc64)) 9 (args.map Arg.of)
    let state := Prog.session ConfigSpace.kernel [program ["iotools","pci_write32","1","2","3","4","0x10","0x12345678"],
      program ["iotools","pci_write16","2","3","4","0x11","0xffee"]] s
    state.byte (⟨1,2,3,4⟩,0x11) = 0x56 ∧ state.byte (⟨0,2,3,4⟩,0x12) = 0xff ∧
    printed ((program ["iotools","pci_read16","1","2","3","4","0x12"]).exec ConfigSpace.kernel state).trace =
      "0x1234\n".toList := by
  intro s program state
  let wide : Issued .ppc64 := ⟨["iotools","pci_write32","1","2","3","4","0x10","0x12345678"].map Arg.of,
    makeCmdWithParamsSize "pci_write32" .pciWriteX .null pciWrParams 32,
    ["pci_write32","1","2","3","4","0x10","0x12345678"].map Arg.of,by decide +kernel⟩
  let narrow : Issued .ppc64 := ⟨["iotools","pci_write16","2","3","4","0x11","0xffee"].map Arg.of,
    makeCmdWithParamsSize "pci_write16" .pciWriteX .null pciWrParams 16,
    ["pci_write16","2","3","4","0x11","0xffee"].map Arg.of,by decide +kernel⟩
  let read : Issued .ppc64 := ⟨["iotools","pci_read16","1","2","3","4","0x12"].map Arg.of,
    makeCmdWithParamsSize "pci_read16" .pciReadX .null pciRdParams 16,
    ["pci_read16","1","2","3","4","0x12"].map Arg.of,by decide +kernel⟩
  have reached (c : Issued .ppc64) (place : PciAddress) (named : c.place = some place) (listed : place.function ∈ s.devices)
      (inside : place.reg + c.info.bytes ≤ 256) : ∀ address, c.place = some address →
      s.Reaches address.function ∧ address.reg + c.info.bytes ≤ (s.content address.function).length := by
    intro address located
    cases Option.some.inj (named.symm.trans located)
    have size : (s.content place.function).length = 256 := List.length_replicate
    exact ⟨⟨listed,.inl rfl⟩,by rw [size]; exact inside⟩
  have serves : ∀ c ∈ [wide,narrow,read], PciCommand s c := by
    intro c member
    simp only [List.mem_cons,List.not_mem_nil,or_false] at member
    rcases member with rfl | rfl | rfl
    · exact ⟨.inr rfl,by decide,reached wide ⟨1,2,3,4,16⟩ (by decide +kernel) (by decide) (by decide)⟩
    · exact ⟨.inr rfl,by decide,reached narrow ⟨0,2,3,4,17⟩ (by decide +kernel) (by decide) (by decide)⟩
    · exact ⟨.inl rfl,by decide,reached read ⟨1,2,3,4,18⟩ (by decide +kernel) (by decide) (by decide)⟩
  obtain ⟨files,_,tells⟩ := pci_session .ppc64 (groups .ppc64) (.refl _) 9 (by decide) s [wide,narrow,read] serves
  obtain ⟨_,address,located,line⟩ := tells [wide,narrow] read [] rfl
  have place : read.place = some ⟨1,2,3,4,18⟩ := by decide +kernel
  cases Option.some.inj (place.symm.trans located)
  refine ⟨by decide +kernel,by decide +kernel,line.trans (by decide +kernel)⟩

end Iotools
