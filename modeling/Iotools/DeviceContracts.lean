import Iotools.EntryContracts

namespace Iotools
open Bytes Numeral Interaction

section Memory
variable {b : Build} {entry : Entry} {rely : Event Sys → Prop} {fine : Fault → Prop} {s : Ledger}

section Mapping
variable (maps : entry ∈ mappers)
include maps

theorem openMapping_meets {flags : OpenFlags} (opens : entry.permits b s (.open "/dev/mem".toList flags))
    (prot : entry ∈ loaders ∧ flags.prot = ⟨true,false⟩ ∨
      entry = .mmioWriteX ∧ flags.prot = ⟨true,true⟩) (addr bytes : Nat) :
    (openMapping addr flags bytes).Meets (entry.contract b rely fine) (Answers (· = none) s) s := by
  simp only [openMapping,Prog.call_bind,Prog.done_bind]
  refine ⟨maps,fun page _ => ⟨opens,fun (fd : Int) _ => ?_⟩⟩
  dsimp only
  split
  · exact complain_meets (.inl ⟨rfl,rfl⟩)
  · refine ⟨prot,fun mem _ => ?_⟩
    cases mem with
    | none => exact complain_meets (close_meets (.inl ⟨rfl,rfl⟩))
    | some mem => exact .inr ⟨by simp,rfl⟩

theorem closeMapping_meets (mapping : MmapInfo) {rc : Int} {post : Int → Ledger → Prop} (holds : post rc s) :
    (closeMapping mapping >>= fun _ => (.done rc : Action Int)).Meets (entry.contract b rely fine) post s :=
  ⟨maps,fun _ _ => close_meets holds⟩

theorem closed_meets {access : Action Int} (meets : access.Meets (entry.contract b rely fine) Verdict s) (mapping : MmapInfo) :
    (access >>= fun ret => closeMapping mapping >>= fun _ => (.done ret : Action Int)).Meets (entry.contract b rely fine)
      Verdict s :=
  meets.bind (fun _ _ verdict => closeMapping_meets maps mapping verdict)

end Mapping

theorem warnNotAtomic_meets {next : Unit → Action α} {post : α → Ledger → Prop}
    (rest : ∀ s', s'.screen = s.screen → (next ()).Meets (entry.contract b rely fine) post s') :
    (warnNotAtomic b >>= next).Meets (entry.contract b rely fine) post s := by
  unfold warnNotAtomic
  split
  · exact stderr_meets (rest s.complained rfl)
  · exact rest s rfl

theorem mmioDoRead_meets (fresh : s.screen = .nothing) (mapping : MmapInfo) (size : Nat) :
    (mmioDoRead b mapping size).Meets (Entry.contract b .mmioReadX rely fine) Verdict s := by
  simp only [mmioDoRead,Prog.call_bind,Prog.done_bind]
  have loads : Entry.mmioReadX ∈ loaders := by decide
  exact ⟨loads,fun _ _ => stdout_meets rfl (.inl fresh) _ (Verdict.printed s (le_refl 0))⟩

theorem mmioDoWrite_meets (fresh : s.screen = .nothing) (mapping : MmapInfo) (size ldata : Nat) :
    (mmioDoWrite b mapping size ldata).Meets (Entry.contract b .mmioWriteX rely fine) Verdict s := by
  simp only [mmioDoWrite,Prog.call_bind,Prog.done_bind]
  exact ⟨rfl,fun _ _ => Verdict.silent fresh (le_refl 0)⟩

theorem mmioReadX_meets (fresh : s.screen = .nothing) {argv : List Arg} (long : 2 ≤ argv.length)
    (held : info.privdata = .mmapFileFlags sync) (sized : info.sizedata ∈ [some 8,some 16,some 32,some 64]) :
    (mmioReadX b argv info).Meets (Entry.contract b .mmioReadX rely fine) Verdict s := by
  have maps : Entry.mmioReadX ∈ mappers := by decide
  simp only [mmioReadX,mmapFlagsOf,held,Prog.pure_eq,Prog.done_bind]
  refine argAt_meets (by omega) (fun addr => answers_then (openMapping_meets maps ⟨rfl,rfl⟩ (.inl ⟨by decide,rfl⟩) _ _) ?_ ?_)
  · intro opened refused
    rw [refused]
    exact Verdict.failed fresh _
  · intro opened accepted
    obtain ⟨mapping,rfl⟩ := Option.ne_none_iff_exists'.mp accepted
    simp only [List.mem_cons,List.not_mem_nil,or_false] at sized
    rcases sized with size | size | size | size <;> simp only [getCommandSize,size]
    · exact closed_meets maps (mmioDoRead_meets fresh mapping 1) mapping
    · exact closed_meets maps (mmioDoRead_meets fresh mapping 2) mapping
    · exact closed_meets maps (mmioDoRead_meets fresh mapping 4) mapping
    · exact warnNotAtomic_meets (fun s' same => closed_meets maps (mmioDoRead_meets (same.trans fresh) mapping 8) mapping)

theorem mmioWriteX_meets (fresh : s.screen = .nothing) {argv : List Arg} (long : 3 ≤ argv.length)
    (sized : info.sizedata ∈ [some 8,some 16,some 32,some 64]) :
    (mmioWriteX b argv info).Meets (Entry.contract b .mmioWriteX rely fine) Verdict s := by
  have maps : Entry.mmioWriteX ∈ mappers := by decide
  refine argAt_meets (by omega) (fun addr => argAt_meets (by omega) (fun value => ?_))
  refine answers_then (openMapping_meets maps ⟨rfl,rfl⟩ (.inr ⟨rfl,rfl⟩) _ _) ?_ ?_
  · intro opened refused
    rw [refused]
    exact Verdict.failed fresh _
  · intro opened accepted
    obtain ⟨mapping,rfl⟩ := Option.ne_none_iff_exists'.mp accepted
    simp only [List.mem_cons,List.not_mem_nil,or_false] at sized
    rcases sized with size | size | size | size <;> simp only [getCommandSize,size]
    · exact closed_meets maps (mmioDoWrite_meets fresh mapping 1 _) mapping
    · exact closed_meets maps (mmioDoWrite_meets fresh mapping 2 _) mapping
    · exact closed_meets maps (mmioDoWrite_meets fresh mapping 4 _) mapping
    · exact warnNotAtomic_meets (fun s' same => closed_meets maps (mmioDoWrite_meets (same.trans fresh) mapping 8 _) mapping)

def AtField (fields : Nat) (s : Ledger) : Prop :=
  if fields = 0 then s.screen = .nothing ∨ s.screen = .lines else s.screen = .unended

theorem AtField.plain {fields : Nat} (stands : AtField fields s) : s.screen ≠ .binary := by
  unfold AtField at stands
  split at stands
  · rcases stands with clear | clear <;> rw [clear] <;> decide
  · rw [stands]
    decide

theorem Screen.after_open (plain : screen ≠ .binary) (some_ : text ≠ []) (open_ : '\n' ∉ text) :
    Screen.after screen text = .unended := by
  have last : text.getLast? ≠ some '\n' := fun ends => open_ (List.mem_of_getLast? ends)
  simp only [Screen.after,plain,some_,last,if_false]

theorem Screen.after_newline (plain : screen ≠ .binary) : Screen.after screen "\n".toList = .lines := by
  cases screen <;> first | rfl | exact absurd rfl plain

theorem label_open (label : Nat) : '\n' ∉ "0x".toList ++ hexLower 16 label ++ ":".toList := by
  have digits : '\n' ∉ hexLower 16 label := hexLower_notMem rfl
  simp [digits]

theorem field_open (size value : Nat) : '\n' ∉ " 0x".toList ++ hexLower (size * 2) value := by
  have digits : '\n' ∉ hexLower (size * 2) value := hexLower_notMem rfl
  simp [digits]

theorem dumpField_meets (mem : Nat) (position : Int) (label fields size : Nat) (stands : AtField fields s) :
    (dumpField b mem position label fields size).Meets (Entry.contract b .mmioDump rely fine)
      (fun _ s' => AtField ((fields + 1) % 4) s') s := by
  have loads : Entry.mmioDump ∈ loaders := by decide
  have ends {s : Ledger} (plain : s.screen ≠ .binary) : Prog.Meets (Entry.contract b .mmioDump rely fine) (do
      let data ← ask (.load mem position size)
      ask (.stdout (" 0x".toList ++ hexLower (size * 2) (decode b.order (List.ofFn data))))
      if (fields + 1) % 4 = 0 then ask (.stdout "\n".toList) else pure () : Action Unit)
      (fun _ s' => AtField ((fields + 1) % 4) s') s := by
    refine ⟨loads,fun data _ => ⟨rfl,fun _ _ => ?_⟩⟩
    have unended := Screen.after_open plain (by simp) (field_open size (decode b.order (List.ofFn data)))
    dsimp only
    split
    · rename_i full
      refine ⟨rfl,fun _ _ => ?_⟩
      have line : Screen.after .unended "\n".toList = .lines := rfl
      simp only [AtField,full,if_true,contract_step,Ledger.step,Prog.meets_done]
      exact .inr (unended ▸ line)
    · rename_i more
      simp only [AtField,more,if_false,contract_step,Ledger.step,Prog.pure_eq]
      exact unended
  unfold dumpField
  dsimp only
  by_cases first : fields = 0
  · rw [if_pos first]
    refine ⟨rfl,fun _ _ => ends ?_⟩
    have unended := Screen.after_open stands.plain (by simp) (label_open label)
    simp only [contract_step,Ledger.step]
    rw [unended]
    decide
  · rw [if_neg first]
    exact ends stands.plain

theorem dumpLoop_meets (mem left : Nat) (position : Int) (label fields : Nat) (stands : AtField fields s) :
    (dumpLoop b mem left position label fields).Meets (Entry.contract b .mmioDump rely fine) AtField s := by
  fun_induction dumpLoop b mem left position label fields generalizing s with
  | case1 left position label fields ih =>
    exact (dumpField_meets mem position label fields 4 stands).bind (fun _ s' stands' => ih stands')
  | case2 left position label fields _ ih =>
    exact (dumpField_meets mem position label fields 1 stands).bind (fun _ s' stands' => ih stands')
  | case3 => exact stands

-- A text dump returns like any other command; a binary one may also fail
-- because its bytes were not taken.
def DumpVerdict (writeBinary : Bool) (rc : Int) (s : Ledger) : Prop :=
  if writeBinary then (s.screen = .nothing ∨ s.screen = .binary) ∧ (rc < 0 → s.reported = true ∨ s.screen = .binary)
  else Verdict rc s

theorem dumpRange_meets (fresh : s.screen = .nothing) (sync : Bool) (addr count : Nat) (writeBinary : Bool) :
    (dumpRange b sync addr count writeBinary).Meets (Entry.contract b .mmioDump rely fine) (DumpVerdict writeBinary) s := by
  have maps : Entry.mmioDump ∈ mappers := by decide
  refine answers_then (openMapping_meets maps ⟨rfl,rfl⟩ (.inl ⟨by decide,rfl⟩) _ _) ?_ ?_
  · intro opened refused
    rw [refused]
    cases writeBinary with
    | true => exact ⟨.inl fresh,fun _ => .inl rfl⟩
    | false => exact Verdict.failed fresh _
  · intro opened accepted
    obtain ⟨mapping,rfl⟩ := Option.ne_none_iff_exists'.mp accepted
    cases writeBinary with
    | true =>
      have loads : Entry.mmioDump ∈ loaders := by decide
      refine ⟨loads,fun buffer _ => ⟨rfl,fun written _ => closeMapping_meets maps mapping ?_⟩⟩
      exact ⟨.inr rfl,fun _ => .inr rfl⟩
    | false =>
      have start : AtField 0 s := .inl fresh
      refine (dumpLoop_meets mapping.mem count mapping.off addr 0 start).bind (fun fields s' stands => ?_)
      have done {s : Ledger} (lines : s.screen = .nothing ∨ s.screen = .lines) : DumpVerdict false 0 s :=
        ⟨fun never => absurd never (by decide),lines⟩
      dsimp only
      split
      · refine ⟨rfl,fun _ _ => closeMapping_meets maps mapping (done (.inr ?_))⟩
        exact Screen.after_newline stands.plain
      · rename_i line
        rw [ne_eq,not_not] at line
        rw [AtField,if_pos line] at stands
        exact closeMapping_meets maps mapping (done stands)

def DumpReturns (argv : List Arg) (rc : Int) (s : Ledger) : Prop :=
  (argv.length ≠ 4 → Verdict rc s) ∧
  (argv.length = 4 → (s.screen = .nothing ∨ s.screen = .binary) ∧
    (rc < 0 → s.reported = true ∨ s.screen = .binary ∨ argv[3]?.map Arg.text ≠ some "-b".toList))

theorem mmioDump_meets (fresh : s.screen = .nothing) {argv : List Arg} (long : 3 ≤ argv.length)
    (held : info.privdata = .mmapFileFlags sync) :
    (mmioDump b argv info).Meets (Entry.contract b .mmioDump rely fine) (DumpReturns argv) s := by
  rw [mmioDump_eq b argv held]
  refine argAt_meets (by omega) (fun addr => argAt_meets (by omega) (fun count => ?_))
  split
  · rename_i four
    have third : argv[3]?.map Arg.text = some argv[3].text := by rw [List.getElem?_eq_getElem (by omega),Option.map_some]
    rw [argAt_of_lt argv 3 (by omega),Prog.done_bind]
    split
    · refine (dumpRange_meets fresh sync _ _ true).mono (fun rc s' verdict => ⟨fun other => absurd four other,fun _ => ?_⟩)
      exact ⟨verdict.1,fun negative => (verdict.2 negative).imp_right .inl⟩
    · rename_i other
      refine ⟨fun different => absurd four different,fun _ => ⟨.inl fresh,fun _ => .inr (.inr ?_)⟩⟩
      rw [third]
      exact fun same => other (Option.some.inj same)
  · rename_i other
    refine (dumpRange_meets fresh sync _ _ false).mono (fun rc s' verdict => ⟨fun _ => verdict,fun four => absurd four other⟩)

end Memory

section Pci
variable {b : Build} {entry : Entry} {rely : Event Sys → Prop} {fine : Fault → Prop} {s : Ledger}

theorem pciAddress_done (b : Build) {argv : List Arg} (withSegment : Bool) (long : (if withSegment then 6 else 5) ≤ argv.length) :
    ∃ address, pciAddress b argv withSegment = .done address := by
  cases withSegment with
  | false =>
    have five : 5 ≤ argv.length := long
    simp only [pciAddress,Bool.false_eq_true,if_false,Prog.pure_eq,Prog.done_bind]
    rw [argAt_of_lt argv 1 (by omega),argAt_of_lt argv (1 + 1) (by omega),argAt_of_lt argv (1 + 2) (by omega),
      argAt_of_lt argv (1 + 3) (by omega)]
    exact ⟨_,rfl⟩
  | true =>
    have six : 6 ≤ argv.length := long
    simp only [pciAddress,if_true,Prog.pure_eq]
    rw [argAt_of_lt argv 1 (by omega),argAt_of_lt argv 2 (by omega),argAt_of_lt argv (2 + 1) (by omega),
      argAt_of_lt argv (2 + 2) (by omega),argAt_of_lt argv (2 + 3) (by omega)]
    exact ⟨_,rfl⟩

theorem openDevice_meets {mode : AccessMode}
    (opens : ∀ path, (∃ seg bus dev func, path = sysfsFile seg bus dev func ∨ path = procfsFile seg bus dev func) →
      entry.permits b s (.open path ⟨mode,false⟩)) (seg bus dev func : Nat) :
    (openDevice seg bus dev func mode).Meets (entry.contract b rely fine) (Answers (· < 0) s) s := by
  have report (fd : Int) : Prog.Meets (entry.contract b rely fine) (do
      if fd < 0 then complain (.openPci seg bus dev func) else pure ()
      return fd : Action Int) (Answers (· < 0) s) s := by
    split
    · rename_i negative
      exact complain_meets (.inl ⟨negative,rfl⟩)
    · rename_i opened
      exact .inr ⟨opened,rfl⟩
  simp only [openDevice,Prog.call_bind,Prog.done_bind]
  refine ⟨opens _ ⟨seg,bus,dev,func,.inl rfl⟩,fun (sysfs : Int) _ => ?_⟩
  dsimp only
  split
  · exact ⟨opens _ ⟨seg,bus,dev,func,.inr rfl⟩,fun (fd : Int) _ => report fd⟩
  · exact report sysfs

theorem pciSeek_meets (fresh : s.screen = .nothing) {mode : AccessMode}
    (opens : ∀ path, (∃ seg bus dev func, path = sysfsFile seg bus dev func ∨ path = procfsFile seg bus dev func) →
      entry.permits b s (.open path ⟨mode,false⟩)) (seeks : entry ∈ seekers)
    (address : PciAddress) {transfer : Int → Action Int}
    (meets : ∀ fd, (transfer fd).Meets (entry.contract b rely fine) Verdict s) : (do
      let fd ← openDevice address.seg address.bus address.dev address.func mode
      if fd < 0 then return -1
      else do
        if (← ask (.lseek fd address.reg)) < 0 then do
          complain (.lseek address.reg)
          return -1
        else transfer fd : Action Int).Meets (entry.contract b rely fine) Verdict s := by
  refine answers_then (openDevice_meets opens _ _ _ _) ?_ ?_
  · intro fd negative
    rw [if_pos negative]
    exact Verdict.failed fresh _
  · intro fd opened
    rw [if_neg opened]
    simp only [Prog.call_bind,Prog.done_bind]
    refine ⟨seeks,fun (position : Int) _ => ?_⟩
    dsimp only
    split
    · exact complained_meets fresh _
    · exact meets fd

theorem pciDoRead_meets (fresh : s.screen = .nothing) (fd : Int) (size : Nat) (leToHost : Build → Nat → Nat) :
    (pciDoRead b fd size leToHost).Meets (Entry.contract b .pciReadX rely fine) Verdict s := by
  have reads : Entry.pciReadX ∈ readers := by decide
  simp only [pciDoRead,Prog.call_bind,Prog.done_bind]
  refine ⟨reads,fun answer _ => ?_⟩
  cases answer with
  | none => exact complained_meets fresh _
  | some bytes =>
    dsimp only
    split
    · exact complained_meets fresh _
    · exact stdout_meets rfl (.inl fresh) _ (close_meets (Verdict.printed s (le_refl 0)))

theorem pciDoWrite_meets (fresh : s.screen = .nothing) (fd : Int) (size : Nat) (hostToLe : Build → Nat → Nat) (ldata : Nat) :
    (pciDoWrite b fd size hostToLe ldata).Meets (Entry.contract b .pciWriteX rely fine) Verdict s := by
  have writes : Entry.pciWriteX ∈ writers := by decide
  simp only [pciDoWrite,Prog.call_bind,Prog.done_bind]
  refine ⟨writes,fun (written : Int) _ => ?_⟩
  dsimp only
  split
  · exact complained_meets fresh _
  · exact close_meets (Verdict.silent fresh (le_refl 0))

theorem pciReadX_meets (fresh : s.screen = .nothing) {argv : List Arg} (long : 5 ≤ argv.length)
    (sized : info.sizedata ∈ [some 8,some 16,some 32]) :
    (pciReadX b argv info).Meets (Entry.contract b .pciReadX rely fine) Verdict s := by
  have enough : (if decide (5 < argv.length) = true then 6 else 5) ≤ argv.length := by
    simp only [decide_eq_true_eq]
    split <;> omega
  have seeks : Entry.pciReadX ∈ seekers := by decide
  have opens (path : Text) (file : ∃ seg bus dev func, path = sysfsFile seg bus dev func ∨ path = procfsFile seg bus dev func) :
      Entry.permits b .pciReadX s (.open path ⟨.rdonly,false⟩) := ⟨rfl,file⟩
  obtain ⟨address,found⟩ := pciAddress_done b _ enough
  simp only [pciReadX,found,Prog.done_bind]
  refine pciSeek_meets fresh opens seeks address (fun fd => ?_)
  simp only [List.mem_cons,List.not_mem_nil,or_false] at sized
  rcases sized with size | size | size <;> simp only [getCommandSize,size]
  · exact pciDoRead_meets fresh fd 1 _
  · exact pciDoRead_meets fresh fd 2 _
  · exact pciDoRead_meets fresh fd 4 _

theorem pciWriteX_meets (fresh : s.screen = .nothing) {argv : List Arg} (long : 6 ≤ argv.length)
    (sized : info.sizedata ∈ [some 8,some 16,some 32]) :
    (pciWriteX b argv info).Meets (Entry.contract b .pciWriteX rely fine) Verdict s := by
  have enough : (if decide (6 < argv.length) = true then 6 else 5) ≤ argv.length := by
    simp only [decide_eq_true_eq]
    split <;> omega
  have operand : (if 6 < argv.length then 6 else 5) < argv.length := by
    split <;> omega
  have seeks : Entry.pciWriteX ∈ seekers := by decide
  have opens (path : Text) (file : ∃ seg bus dev func, path = sysfsFile seg bus dev func ∨ path = procfsFile seg bus dev func) :
      Entry.permits b .pciWriteX s (.open path ⟨.wronly,false⟩) := ⟨rfl,file⟩
  obtain ⟨address,found⟩ := pciAddress_done b _ enough
  simp only [pciWriteX,found,Prog.done_bind]
  refine argAt_meets operand (fun value => pciSeek_meets fresh opens seeks address ?_)
  intro fd
  simp only [List.mem_cons,List.not_mem_nil,or_false] at sized
  rcases sized with size | size | size <;> simp only [getCommandSize,size]
  · exact pciDoWrite_meets fresh fd 1 _ _
  · exact pciDoWrite_meets fresh fd 2 _ _
  · exact pciDoWrite_meets fresh fd 4 _ _

def Listing (s : Ledger) : Prop := s.screen = .nothing ∨ s.screen = .lines
def ListReturns (rc : Int) (s : Ledger) : Prop := (rc < 0 → s.reported = true) ∧ Listing s

theorem pciLine_meets (listing : Listing s) (bus dev fun_ : Int) {next : Unit → Action α} {post : α → Ledger → Prop}
    (rest : ∀ s', Listing s' → (next ()).Meets (Entry.contract b .pciList rely fine) post s') :
    (.call (.stdout (pciLine bus dev fun_)) next : Action α).Meets (Entry.contract b .pciList rely fine) post s :=
  stdout_meets rfl listing _ (rest s.printed (.inr rfl))

theorem listSysfsEntries_meets (entries : List Dirent) (listing : Listing s) :
    (listSysfsEntries entries).Meets (Entry.contract b .pciList rely fine) (fun _ s' => Listing s') s := by
  induction entries generalizing s with
  | nil => exact listing
  | cons de rest ih =>
    simp only [listSysfsEntries]
    split
    · exact pciLine_meets listing _ _ _ (fun s' kept => ih kept)
    · exact ih listing

theorem listProcfsBus_meets (bus : Int) (entries : List Dirent) (listing : Listing s) :
    (listProcfsBus bus entries).Meets (Entry.contract b .pciList rely fine) (fun _ s' => Listing s') s := by
  induction entries generalizing s with
  | nil => exact listing
  | cons de rest ih =>
    simp only [listProcfsBus]
    split
    · exact pciLine_meets listing _ _ _ (fun s' kept => ih kept)
    · exact ih listing

theorem listProcfsEntries_meets (entries : List Dirent) (listing : Listing s) :
    (listProcfsEntries entries).Meets (Entry.contract b .pciList rely fine) ListReturns s := by
  induction entries generalizing s with
  | nil => exact ⟨fun never => absurd never (by decide),listing⟩
  | cons de rest ih =>
    simp only [listProcfsEntries]
    split
    · refine ⟨⟨rfl,.inr ⟨_,List.append_assoc _ _ _⟩⟩,fun answer _ => ?_⟩
      cases answer with
      | none => exact complain_meets ⟨fun _ => rfl,listing⟩
      | some inner => exact (listProcfsBus_meets _ inner listing).bind (fun _ s' kept => ih kept)
    · exact ih listing

theorem pciListProcfs_meets (listing : Listing s) :
    pciListProcfs.Meets (Entry.contract b .pciList rely fine) ListReturns s := by
  simp only [pciListProcfs,Prog.call_bind,Prog.done_bind]
  refine ⟨⟨rfl,.inr ⟨[],(List.append_nil _).symm⟩⟩,fun answer _ => ?_⟩
  cases answer with
  | none => exact complain_meets ⟨fun _ => rfl,listing⟩
  | some entries => exact listProcfsEntries_meets entries listing

theorem pciListSysfs_meets (listing : Listing s) :
    pciListSysfs.Meets (Entry.contract b .pciList rely fine) (fun _ s' => Listing s') s := by
  simp only [pciListSysfs,Prog.call_bind,Prog.done_bind]
  refine ⟨⟨rfl,.inl rfl⟩,fun answer _ => ?_⟩
  cases answer with
  | none => exact complain_meets listing
  | some entries => exact (listSysfsEntries_meets entries listing).bind (fun _ s' kept => ⟨rfl,fun _ _ => kept⟩)

theorem pciList_meets (fresh : s.screen = .nothing) (argv : List Arg) (info : CmdInfo) :
    (pciList argv info).Meets (Entry.contract b .pciList rely fine) ListReturns s := by
  refine (pciListSysfs_meets (.inl fresh)).bind (fun ret s' listing => ?_)
  split
  · exact pciListProcfs_meets listing
  · rename_i positive
    exact ⟨fun negative => absurd negative positive,listing⟩

end Pci

end Iotools
