import Iotools.DeviceContracts

namespace Iotools
open Bytes Numeral Interaction

section Ports
variable {b : Build} {entry : Entry} {rely : Event Sys → Prop} {fine : Fault → Prop} {s : Ledger}

-- The emulation of port accesses may complain, but it does not fail.
theorem ioIn_meets (fresh : s.screen = .nothing) (emulated : b.arch ≠ .x86) (iobase : Int) (data : List UInt8) :
    (ioIn iobase data).Meets (Entry.contract b .ioReadX rely fine) (fun _ s' => s'.screen = .nothing) s := by
  have seeks : Entry.ioReadX ∈ seekers := by decide
  have reads : Entry.ioReadX ∈ readers := by decide
  simp only [ioIn,Prog.call_bind,Prog.done_bind]
  refine ⟨⟨rfl,emulated,rfl⟩,fun (fd : Int) _ => ?_⟩
  dsimp only
  split
  · exact complain_meets fresh
  · refine ⟨seeks,fun (position : Int) _ => ?_⟩
    dsimp only
    split
    · exact complain_meets (close_meets fresh)
    · refine ⟨reads,fun bytes _ => ?_⟩
      cases bytes <;> exact fresh

theorem ioOut_meets (fresh : s.screen = .nothing) (emulated : b.arch ≠ .x86) (iobase : Int) (data : List UInt8) :
    (ioOut iobase data).Meets (Entry.contract b .ioWriteX rely fine) (fun _ s' => s'.screen = .nothing) s := by
  have seeks : Entry.ioWriteX ∈ seekers := by decide
  have writes : Entry.ioWriteX ∈ writers := by decide
  simp only [ioOut,Prog.call_bind,Prog.done_bind]
  refine ⟨⟨rfl,emulated,rfl⟩,fun (fd : Int) _ => ?_⟩
  dsimp only
  split
  · exact ⟨trivial,fun _ _ => ⟨trivial,fun _ _ => fresh⟩⟩
  · refine ⟨seeks,fun (position : Int) _ => ?_⟩
    dsimp only
    split
    · exact complain_meets (close_meets fresh)
    · exact ⟨writes,fun _ _ => fresh⟩

section Instructions
variable (fresh : s.screen = .nothing) (granted : b.arch = .x86 → s.granted = true)
include fresh granted

theorem portRead_meets (size initial iobase : Nat) :
    (portRead b size initial iobase).Meets (Entry.contract b .ioReadX rely fine) (fun _ s' => s'.screen = .nothing) s := by
  unfold portRead
  split
  · rename_i x86
    exact ⟨⟨rfl,x86,granted x86⟩,fun _ _ => fresh⟩
  · rename_i emulated
    exact (ioIn_meets fresh emulated _ _).bind (fun _ _ kept => kept)

theorem portWrite_meets (size value iobase : Nat) :
    (portWrite b size value iobase).Meets (Entry.contract b .ioWriteX rely fine) (fun _ s' => s'.screen = .nothing) s := by
  unfold portWrite
  split
  · rename_i x86
    exact ⟨⟨rfl,x86,granted x86⟩,fun _ _ => fresh⟩
  · rename_i emulated
    exact ioOut_meets fresh emulated _ _

theorem ioDoRead_meets (size initial iobase width : Nat) :
    (ioDoRead width (portRead b size initial iobase)).Meets (Entry.contract b .ioReadX rely fine) Verdict s :=
  (portRead_meets fresh granted size initial iobase).bind
    (fun _ s' kept => stdout_meets rfl (.inl kept) _ (Verdict.printed s' (le_refl 0)))

theorem ioReadX_meets {argv : List Arg} (long : 2 ≤ argv.length) (sized : info.sizedata ∈ [some 8,some 16,some 32]) :
    (ioReadX b argv info).Meets (Entry.contract b .ioReadX rely fine) Verdict s := by
  refine argAt_meets (by omega) (fun iobase => ?_)
  simp only [List.mem_cons,List.not_mem_nil,or_false] at sized
  rcases sized with size | size | size <;> simp only [getCommandSize,size]
  · exact ioDoRead_meets fresh granted 1 _ _ 1
  · exact ioDoRead_meets fresh granted 2 _ _ 2
  · exact ioDoRead_meets fresh granted 4 _ _ 4

theorem ioWriteX_meets {argv : List Arg} (long : 3 ≤ argv.length) (sized : info.sizedata ∈ [some 8,some 16,some 32]) :
    (ioWriteX b argv info).Meets (Entry.contract b .ioWriteX rely fine) Verdict s := by
  have ends {s' : Ledger} (kept : s'.screen = .nothing) : Verdict 0 s' := Verdict.silent kept (le_refl 0)
  refine argAt_meets (by omega) (fun iobase => argAt_meets (by omega) (fun value => ?_))
  simp only [List.mem_cons,List.not_mem_nil,or_false] at sized
  rcases sized with size | size | size <;> simp only [getCommandSize,size]
  · exact (portWrite_meets fresh granted 1 _ _).bind (fun _ _ kept => ends kept)
  · exact (portWrite_meets fresh granted 2 _ _).bind (fun _ _ kept => ends kept)
  · exact (portWrite_meets fresh granted 4 _ _).bind (fun _ _ kept => ends kept)

end Instructions

end Ports

section RegisterFiles
variable {b : Build} {entry : Entry} {rely : Event Sys → Prop} {fine : Fault → Prop} {s : Ledger}

theorem openAndSeek_meets {path : Text} {flags : OpenFlags} (opens : entry.permits b s (.open path flags)) (seeks : entry ∈ seekers)
    (offset : Int) (failed : Int → Prop) [DecidablePred failed] (opening seeking : Text → Message) :
    (openAndSeek path flags offset failed opening seeking).Meets (entry.contract b rely fine) (Answers (· = none) s) s := by
  simp only [Prog.call_bind,Prog.done_bind]
  refine ⟨opens,fun (fd : Int) _ => ?_⟩
  dsimp only
  split
  · exact complain_meets (.inl ⟨rfl,rfl⟩)
  · refine ⟨seeks,fun (position : Int) _ => ?_⟩
    dsimp only
    split
    · exact complain_meets (close_meets (.inl ⟨rfl,rfl⟩))
    · exact .inr ⟨by simp,rfl⟩

theorem msrOpenAndSeek_meets {mode : AccessMode} (opens : ∀ cpu, entry.permits b s (.open (msrDevice cpu) ⟨mode,false⟩))
    (seeks : entry ∈ seekers) (cpu : Int) (msr : Nat) :
    (msrOpenAndSeek cpu msr mode).Meets (entry.contract b rely fine) (Answers (· = none) s) s :=
  openAndSeek_meets (opens cpu) seeks _ (· = -1) _ _

theorem scomOpenAndSeek_meets {mode : AccessMode} (opens : ∀ chip, entry.permits b s (.open (scomDevice chip) ⟨mode,false⟩))
    (seeks : entry ∈ seekers) (chip : Int) (scom : Nat) :
    (scomOpenAndSeek chip scom mode).Meets (entry.contract b rely fine) (Answers (· = none) s) s :=
  openAndSeek_meets (opens chip) seeks _ (· = -1) _ _

theorem cmosOpenAndSeek_meets {mode : AccessMode} (opens : entry.permits b s (.open nvramDevice ⟨mode,false⟩))
    (seeks : entry ∈ seekers) (index : Nat) :
    (cmosOpenAndSeek b index mode).Meets (entry.contract b rely fine) (Answers (· = none) s) s :=
  openAndSeek_meets opens seeks _ (· < 0) _ _

theorem failing_meets {message : Text → Message} (fresh : s.screen = .nothing) (fd : Int) :
    (complain message >>= fun _ => (.call (.close fd) fun _ => .done (-1) : Action Int)).Meets (entry.contract b rely fine)
      Verdict s :=
  complain_meets (close_meets (Verdict.failed fresh _))

theorem readQuad_meets (fresh : s.screen = .nothing) (reads : entry ∈ readers) (prints : entry.prints = true) (fd : Int) :
    (readQuad b fd).Meets (entry.contract b rely fine) Verdict s := by
  simp only [readQuad,Prog.call_bind,Prog.done_bind]
  refine ⟨reads,fun answer _ => ?_⟩
  cases answer with
  | none => exact failing_meets fresh fd
  | some bytes =>
    dsimp only
    split
    · exact failing_meets fresh fd
    · exact close_meets (stdout_meets prints (.inl fresh) _ (Verdict.printed s (le_refl 0)))

theorem writeQuad_meets (fresh : s.screen = .nothing) (writes : entry ∈ writers) (fd : Int) (data : Nat) :
    (writeQuad b fd data).Meets (entry.contract b rely fine) Verdict s := by
  simp only [writeQuad,Prog.call_bind,Prog.done_bind]
  refine ⟨writes,fun (written : Int) _ => ?_⟩
  dsimp only
  split
  · exact failing_meets fresh fd
  · exact close_meets (Verdict.silent fresh (le_refl 0))

theorem rdMsr_meets (fresh : s.screen = .nothing) (info : CmdInfo) {argv : List Arg} (long : 3 ≤ argv.length) :
    (rdMsr b argv info).Meets (Entry.contract b .rdMsr rely fine) Verdict s := by
  have opens (cpu : Int) : Entry.permits b .rdMsr s (.open (msrDevice cpu) ⟨.rdonly,false⟩) := ⟨rfl,cpu,rfl⟩
  refine argAt_meets (by omega) (fun cpu => argAt_meets (by omega) (fun msr => ?_))
  refine answers_then (msrOpenAndSeek_meets opens (by decide) _ _) ?_ ?_
  · intro opened refused
    rw [refused]
    exact Verdict.failed fresh _
  · intro opened accepted
    obtain ⟨fd,rfl⟩ := Option.ne_none_iff_exists'.mp accepted
    exact readQuad_meets fresh (by decide) rfl fd

theorem wrMsr_meets (fresh : s.screen = .nothing) (info : CmdInfo) {argv : List Arg} (long : 4 ≤ argv.length) :
    (wrMsr b argv info).Meets (Entry.contract b .wrMsr rely fine) Verdict s := by
  have opens (cpu : Int) : Entry.permits b .wrMsr s (.open (msrDevice cpu) ⟨.wronly,false⟩) := ⟨rfl,cpu,rfl⟩
  refine argAt_meets (by omega) (fun cpu => argAt_meets (by omega) (fun msr => argAt_meets (by omega) (fun data => ?_)))
  refine answers_then (msrOpenAndSeek_meets opens (by decide) _ _) ?_ ?_
  · intro opened refused
    rw [refused]
    exact Verdict.failed fresh _
  · intro opened accepted
    obtain ⟨fd,rfl⟩ := Option.ne_none_iff_exists'.mp accepted
    exact writeQuad_meets fresh (by decide) fd _

theorem rdScom_meets (fresh : s.screen = .nothing) (info : CmdInfo) {argv : List Arg} (long : 3 ≤ argv.length) :
    (rdScom b argv info).Meets (Entry.contract b .rdScom rely fine) Verdict s := by
  have opens (chip : Int) : Entry.permits b .rdScom s (.open (scomDevice chip) ⟨.rdonly,false⟩) := ⟨rfl,chip,rfl⟩
  refine argAt_meets (by omega) (fun chip => argAt_meets (by omega) (fun scom => ?_))
  refine answers_then (scomOpenAndSeek_meets opens (by decide) _ _) ?_ ?_
  · intro opened refused
    rw [refused]
    exact Verdict.failed fresh _
  · intro opened accepted
    obtain ⟨fd,rfl⟩ := Option.ne_none_iff_exists'.mp accepted
    exact readQuad_meets fresh (by decide) rfl fd

theorem wrScom_meets (fresh : s.screen = .nothing) (info : CmdInfo) {argv : List Arg} (long : 4 ≤ argv.length) :
    (wrScom b argv info).Meets (Entry.contract b .wrScom rely fine) Verdict s := by
  have opens (chip : Int) : Entry.permits b .wrScom s (.open (scomDevice chip) ⟨.wronly,false⟩) := ⟨rfl,chip,rfl⟩
  refine argAt_meets (by omega) (fun chip => argAt_meets (by omega) (fun scom => argAt_meets (by omega) (fun data => ?_)))
  refine answers_then (scomOpenAndSeek_meets opens (by decide) _ _) ?_ ?_
  · intro opened refused
    rw [refused]
    exact Verdict.failed fresh _
  · intro opened accepted
    obtain ⟨fd,rfl⟩ := Option.ne_none_iff_exists'.mp accepted
    exact writeQuad_meets fresh (by decide) fd _

theorem cmosRd_meets (fresh : s.screen = .nothing) (info : CmdInfo) {argv : List Arg} (long : 2 ≤ argv.length) :
    (cmosRd b argv info).Meets (Entry.contract b .cmosRd rely fine) Verdict s := by
  have opens : Entry.permits b .cmosRd s (.open nvramDevice ⟨.rdonly,false⟩) := ⟨rfl,rfl⟩
  have reads : Entry.cmosRd ∈ readers := by decide
  refine argAt_meets (by omega) (fun index => ?_)
  dsimp only
  split
  · exact stderr_meets (Verdict.failed fresh _)
  · refine answers_then (cmosOpenAndSeek_meets opens (by decide) _) ?_ ?_
    · intro opened refused
      rw [refused]
      exact Verdict.failed fresh _
    · intro opened accepted
      obtain ⟨fd,rfl⟩ := Option.ne_none_iff_exists'.mp accepted
      simp only [Prog.call_bind,Prog.done_bind]
      refine ⟨reads,fun answer _ => ?_⟩
      cases answer with
      | none => exact failing_meets fresh fd
      | some bytes =>
        dsimp only
        split
        · exact failing_meets fresh fd
        · exact close_meets (stdout_meets rfl (.inl fresh) _ (Verdict.printed s (le_refl 0)))

theorem cmosWr_meets (fresh : s.screen = .nothing) (info : CmdInfo) {argv : List Arg} (long : 3 ≤ argv.length) :
    (cmosWr b argv info).Meets (Entry.contract b .cmosWr rely fine) Verdict s := by
  have opens : Entry.permits b .cmosWr s (.open nvramDevice ⟨.wronly,false⟩) := ⟨rfl,rfl⟩
  have writes : Entry.cmosWr ∈ writers := by decide
  refine argAt_meets (by omega) (fun index => ?_)
  dsimp only
  split
  · exact stderr_meets (Verdict.failed fresh _)
  · refine argAt_meets (by omega) (fun data => ?_)
    refine answers_then (cmosOpenAndSeek_meets opens (by decide) _) ?_ ?_
    · intro opened refused
      rw [refused]
      exact Verdict.failed fresh _
    · intro opened accepted
      obtain ⟨fd,rfl⟩ := Option.ne_none_iff_exists'.mp accepted
      simp only [Prog.call_bind,Prog.done_bind]
      refine ⟨writes,fun (written : Int) _ => ?_⟩
      dsimp only
      split
      · exact failing_meets fresh fd
      · exact close_meets (Verdict.silent fresh (le_refl 0))

theorem parsePir_faults (failed : parsePir b buffer = .error stop) : stop = .fault .pastNul := by
  unfold parsePir at failed
  dsimp only at failed
  split at failed
  · cases failed
    rfl
  · cases failed

section Pir
variable (regime : Regime b entry rely fine)
include regime

theorem cpuToPir_meets (opens : ∀ cpu, entry.permits b s (.open (pirFile cpu) ⟨.rdonly,false⟩)) (reads : entry ∈ readers)
    (cpu : Int) : (cpuToPir b cpu).Meets (entry.contract b rely fine) (Answers (· = none) s) s := by
  simp only [cpuToPir,Prog.call_bind,Prog.done_bind]
  refine ⟨trivial,fun pirStr _ => ⟨opens cpu,fun (fd : Int) _ => ?_⟩⟩
  dsimp only
  split
  · exact complain_meets (.inl ⟨rfl,rfl⟩)
  · refine ⟨reads,fun answer relied => ?_⟩
    cases answer with
    | none => exact complain_meets (close_meets (.inl ⟨rfl,rfl⟩))
    | some bytes =>
      refine close_meets ?_
      by_cases ends : PirEnds bytes.val
      · rw [parsePir_ends b pirStr bytes.property ends]
        exact .inr ⟨by simp,rfl⟩
      · have runs_on : fine .pastNul := regime.pir fd bytes relied ends
        cases parsed : parsePir b (pirStr.patch 0 bytes.val) with
        | ok pir => exact .inr ⟨by simp,rfl⟩
        | error stop =>
          rw [parsePir_faults parsed]
          exact runs_on

end Pir

theorem cpuToEx_meets (regime : Regime b .cpuToEx rely fine) (fresh : s.screen = .nothing) (info : CmdInfo) {argv : List Arg}
    (long : 2 ≤ argv.length) : (cpuToEx b argv info).Meets (Entry.contract b .cpuToEx rely fine) Verdict s := by
  have opens (cpu : Int) : Entry.permits b .cpuToEx s (.open (pirFile cpu) ⟨.rdonly,false⟩) := ⟨rfl,cpu,rfl⟩
  refine argAt_meets (by omega) (fun cpu => answers_then (cpuToPir_meets regime opens (by decide) _) ?_ ?_)
  · intro pir refused
    rw [refused]
    exact Verdict.failed fresh _
  · intro pir accepted
    obtain ⟨pir,rfl⟩ := Option.ne_none_iff_exists'.mp accepted
    exact stdout_meets rfl (.inl fresh) _ (Verdict.printed s (le_refl 0))

theorem pirToChipid_meets (pir : Nat) (chipid : Buffer 4) :
    (pirToChipid pir chipid).Meets (Entry.contract b .cpuToChipid rely fine)
      (fun found s' => s'.screen = s.screen ∧ (found = none → s'.reported = true)) s := by
  have reads : Entry.cpuToChipid ∈ readers := by decide
  simp only [pirToChipid,Prog.call_bind,Prog.done_bind]
  refine ⟨⟨rfl,_,rfl⟩,fun answer _ => ?_⟩
  cases answer with
  | error code => exact stderr_meets ⟨rfl,fun _ => rfl⟩
  | ok path =>
    refine ⟨⟨rfl,.inr rfl⟩,fun (fd : Int) _ => ?_⟩
    dsimp only
    split
    · exact complain_meets ⟨rfl,fun _ => rfl⟩
    · refine ⟨reads,fun answer _ => ?_⟩
      cases answer with
      | none => exact complain_meets (close_meets ⟨rfl,fun _ => rfl⟩)
      | some bytes =>
        refine close_meets ⟨rfl,fun never => ?_⟩
        cases never

theorem cpuToChipid_meets (regime : Regime b .cpuToChipid rely fine) (fresh : s.screen = .nothing) (info : CmdInfo)
    {argv : List Arg} (long : 2 ≤ argv.length) :
    (cpuToChipid b argv info).Meets (Entry.contract b .cpuToChipid rely fine) Verdict s := by
  have opens (cpu : Int) : Entry.permits b .cpuToChipid s (.open (pirFile cpu) ⟨.rdonly,false⟩) := ⟨rfl,.inl ⟨cpu,rfl⟩⟩
  refine ⟨trivial,fun stale _ => argAt_meets (by omega) (fun cpu => ?_)⟩
  refine answers_then (cpuToPir_meets regime opens (by decide) _) ?_ ?_
  · intro pir refused
    rw [refused]
    exact Verdict.failed fresh _
  · intro pir accepted
    obtain ⟨pir,rfl⟩ := Option.ne_none_iff_exists'.mp accepted
    refine (pirToChipid_meets pir stale).bind (fun found s' ends => ?_)
    have clear : s'.screen = .nothing := ends.1.trans fresh
    cases found with
    | none => exact ⟨fun _ => ⟨ends.2 rfl,clear⟩,.inl clear⟩
    | some chipid => exact stdout_meets rfl (.inl clear) _ (Verdict.printed s' (le_refl 0))

end RegisterFiles

end Iotools
