import Iotools.Cacheability

namespace Iotools
open Bytes Numeral Interaction

def readsAt (k : Int) : Event Sys → Prop
  | ⟨.load _ offset size,_⟩ => offset ≤ k ∧ k < offset + size
  | _ => False

def Reads (trace : Trace Sys) (k : Int) : Prop := ∃ e ∈ trace, readsAt k e

theorem reads_nil (k : Int) : ¬ Reads [] k := by simp [Reads]

theorem reads_cons (e : Event Sys) (rest : Trace Sys) (k : Int) : Reads (e :: rest) k ↔ readsAt k e ∨ Reads rest k := by
  simp [Reads]

theorem reads_append (left right : Trace Sys) (k : Int) : Reads (left ++ right) k ↔ Reads left k ∨ Reads right k := by
  simp [Reads,or_and_right,exists_or]

def unmapped : Event Sys → Prop
  | ⟨.getpagesize,_⟩ => False
  | ⟨.mmap ..,_⟩ => False
  | _ => True

-- A part of a run that reads these bytes and no others.
def ReadsExactly (from_ to_ : Int) (trace : Trace Sys) : Prop :=
  (∀ e ∈ trace, unmapped e) ∧ ∀ k, Reads trace k ↔ from_ ≤ k ∧ k < to_

theorem ReadsExactly.append (left : ReadsExactly a m before) (right : ReadsExactly m c after) (low : a ≤ m) (high : m ≤ c) :
    ReadsExactly a c (before ++ after) := by
  refine ⟨?_,?_⟩
  · intro e member
    rcases List.mem_append.mp member with early | late
    · exact left.1 e early
    · exact right.1 e late
  · intro k
    rw [reads_append,left.2,right.2]
    omega

theorem dumpField_reads (b : Build) (mem : Nat) (position : Int) (label fields size : Nat) :
    (dumpField b mem position label fields size).All (fun trace outcome =>
      outcome = .ok () ∧ ReadsExactly position (position + size) trace) := by
  unfold dumpField
  by_cases first : fields = 0 <;> by_cases last : (fields + 1) % 4 = 0 <;>
    simp [first,last,ReadsExactly,reads_cons,reads_nil,readsAt,unmapped]

theorem dumpField_then {next : Unit → Action α} {Q : Except Fault α → Prop} (b : Build) (mem : Nat) (position : Int)
    (label fields size left : Nat)
    (rest : (next ()).All (fun trace outcome => ReadsExactly (position + size) (position + size + left) trace ∧ Q outcome)) :
    (dumpField b mem position label fields size >>= next).All (fun trace outcome =>
      ReadsExactly position (position + (left + size : Nat)) trace ∧ Q outcome) := by
  apply Prog.All.bind (dumpField_reads b mem position label fields size)
  · rintro trace reason ⟨failed,_⟩
    cases failed
  · rintro trace value ⟨_,first⟩
    apply rest.mono
    rintro later outcome ⟨reads,ends⟩
    have whole := first.append reads (by omega) (by omega)
    rw [show position + (size : Int) + (left : Int) = position + ((left + size : Nat) : Int) by omega] at whole
    exact ⟨whole,ends⟩

theorem dumpLoop_reads (b : Build) (mem left : Nat) (position : Int) (label fields : Nat) :
    (dumpLoop b mem left position label fields).All (fun trace outcome =>
      ReadsExactly position (position + left) trace ∧ ∃ last, outcome = .ok last) := by
  fun_induction dumpLoop b mem left position label fields with
  | case1 left position label fields ih => exact dumpField_then b mem position label fields 4 left ih
  | case2 left position label fields _ ih => exact dumpField_then b mem position label fields 1 left ih
  | case3 position label fields => simp [ReadsExactly,reads_nil]

-- Reads nothing and maps nothing.
def Passive (trace : Trace Sys) : Prop := ∀ e ∈ trace, unmapped e ∧ ∀ k, ¬ readsAt k e

theorem ReadsExactly.passive (reads : ReadsExactly a c before) (after : Passive later) : ReadsExactly a c (before ++ later) := by
  refine ⟨?_,?_⟩
  · intro e member
    rcases List.mem_append.mp member with early | late
    · exact reads.1 e early
    · exact (after e late).1
  · intro k
    have none_ : ¬ Reads later k := by
      rintro ⟨e,member,here⟩
      exact (after e member).2 k here
    rw [reads_append,reads.2]
    simp [none_]

-- What mmio_dump does with its mapping, in either mode.
def dumpMapped (b : Build) (addr count : Nat) (writeBinary : Bool) (mapping : MmapInfo) : Action Int :=
  if writeBinary then do
    let buffer ← ask (.load mapping.mem mapping.off count)
    let ret ← ask (.fwrite (List.ofFn buffer))
    closeMapping mapping
    return if ret = 1 then 0 else -1
  else do
    let fieldsOnLine ← dumpLoop b mapping.mem count mapping.off addr 0
    if fieldsOnLine ≠ 0 then ask (.stdout "\n".toList) else pure ()
    closeMapping mapping
    return 0

theorem dumpRange_eq (b : Build) (sync : Bool) (addr count : Nat) (writeBinary : Bool) :
    dumpRange b sync addr count writeBinary = (openMapping addr ⟨.rdonly,sync⟩ count >>= fun opened =>
      match opened with
      | none => .done (-1)
      | some mapping => dumpMapped b addr count writeBinary mapping) := rfl

theorem dumpMapped_reads (b : Build) (addr count : Nat) (writeBinary : Bool) (mapping : MmapInfo) :
    (dumpMapped b addr count writeBinary mapping).All (fun trace _ =>
      ReadsExactly mapping.off (mapping.off + count) trace) := by
  cases writeBinary with
  | true =>
    intro buffer ret _ _
    simp [Prog.bind,ReadsExactly,reads_cons,reads_nil,readsAt,unmapped]
  | false =>
    apply Prog.All.bind (dumpLoop_reads b mapping.mem count mapping.off addr 0)
    · rintro trace reason ⟨_,last,failed⟩
      cases failed
    · rintro trace fields ⟨reads,_⟩
      by_cases last : fields = 0
      · simp only [last,closeMapping]
        intro _ _
        exact reads.passive (by simp [Passive,unmapped,readsAt])
      · simp only [ne_eq,last,not_false_eq_true,if_true,closeMapping]
        intro _ _ _
        exact reads.passive (by simp [Passive,unmapped,readsAt])

theorem setup_unread {e : Event Sys} (setup : Setup e) (k : Int) : ¬ readsAt k e := by
  rcases e with ⟨c,answer⟩
  cases c <;> simp [Setup,readsAt] at setup ⊢

theorem setup_reads (setup : ∀ e ∈ trace, Setup e) (k : Int) : ¬ Reads trace k := by
  rintro ⟨e,member,here⟩
  exact setup_unread (setup e member) k here

-- open_mapping asks once for the page size, and maps once at most.
def MapsOnce (addr bytes : Nat) (trace : Trace Sys) : Option MmapInfo → Prop
  | none => ∀ length prot fd base mem, ⟨.mmap length prot fd base,some mem⟩ ∉ trace
  | some mapping => ∃ page : PageSize, mapping.off = pageOffset page addr ∧
      (∀ page', ⟨.getpagesize,page'⟩ ∈ trace ↔ page' = page) ∧
      ∀ length prot fd base mem, ⟨.mmap length prot fd base,some mem⟩ ∈ trace →
        length = toUnsigned ((bytes % 2 ^ 32 : Nat) + pageOffset page addr) ∧ base = pageBase page addr ∧ mem = mapping.mem

theorem openMapping_mapsOnce (addr : Nat) (flags : OpenFlags) (bytes : Nat) :
    (openMapping addr flags bytes).All (fun trace outcome => ∃ found, outcome = .ok found ∧ MapsOnce addr bytes trace found) := by
  simp only [openMapping,complain,Prog.call_bind,Prog.done_bind]
  intro page (fd : Int)
  dsimp only
  generalize computed : toUnsigned ((bytes % 2 ^ 32 : Nat) + pageOffset page addr) = mapped
  split
  · intro err _
    refine ⟨none,rfl,?_⟩
    simp [MapsOnce]
  · intro mem
    cases mem with
    | none =>
      intro err _ _
      refine ⟨none,rfl,?_⟩
      simp [MapsOnce]
    | some mem =>
      refine ⟨_,rfl,page,rfl,by simp,?_⟩
      simp only [List.mem_cons,Event.mk.injEq,List.not_mem_nil,or_false]
      intro length prot fd' base mem' there
      rcases there with other | other | same
      · cases other.1
      · cases other.1
      · rw [computed]
        obtain ⟨calls,answers⟩ := same
        obtain ⟨lengths,_,_,bases⟩ := Call.mmap.inj calls
        have mems : some mem' = some mem := eq_of_heq answers
        exact ⟨lengths,bases,Option.some.inj mems⟩

theorem openMapping_found (addr : Nat) (flags : OpenFlags) (bytes : Nat) :
    (openMapping addr flags bytes).All (fun trace outcome => ∃ found, outcome = .ok found ∧ (∀ e ∈ trace, Setup e) ∧
      MapsOnce addr bytes trace found) := by
  apply ((openMapping_mapsOnce addr flags bytes).and (openMapping_setsUp addr flags bytes).all).mono
  rintro trace outcome ⟨⟨found,returned,once⟩,setup,_⟩
  exact ⟨found,returned,setup,once⟩

theorem dumpRange_runs {Q : MmapInfo → Trace Sys → Except Fault Int → Prop} (b : Build) (sync : Bool) (addr count : Nat)
    (writeBinary : Bool) (work : ∀ mapping, (dumpMapped b addr count writeBinary mapping).All (Q mapping)) :
    (dumpRange b sync addr count writeBinary).All (fun trace outcome =>
      ∀ (page : PageSize) (length : Nat) (prot : Prot) (fd : Int) (base mem : Nat), ⟨.getpagesize,page⟩ ∈ trace →
        ⟨.mmap length prot fd base,some mem⟩ ∈ trace →
        length = toUnsigned ((count % 2 ^ 32 : Nat) + pageOffset page addr) ∧ base = pageBase page addr ∧
        ∃ before later mapping, trace = before ++ later ∧ (∀ e ∈ before, Setup e) ∧ mapping.mem = mem ∧
          mapping.off = pageOffset page addr ∧ Q mapping later outcome) := by
  rw [dumpRange_eq]
  apply Prog.All.bind (openMapping_found addr ⟨.rdonly,sync⟩ count)
  · rintro trace reason ⟨found,failed,_⟩
    cases failed
  · rintro before value ⟨found,returned,setup,opening⟩
    cases returned
    cases value with
    | none =>
      intro page length prot fd base mem _ mapped
      rw [List.append_nil] at mapped
      exact absurd mapped (opening length prot fd base mem)
    | some mapping =>
      obtain ⟨asked,offset,once,lengths⟩ := opening
      apply ((work mapping).and (dumpMapped_reads b addr count writeBinary mapping)).mono
      rintro later outcome ⟨worked,passive,_⟩ page length prot fd base mem paged mapped
      have early : ⟨.mmap length prot fd base,some mem⟩ ∈ before :=
        (List.mem_append.mp mapped).resolve_right (fun late => passive _ late)
      have same : page = asked := (once page).mp ((List.mem_append.mp paged).resolve_right (fun late => passive _ late))
      subst same
      obtain ⟨long,start,mems⟩ := lengths length prot fd base mem early
      exact ⟨long,start,before,later,mapping,rfl,setup,mems.symm,offset,worked⟩

def PageSize.roundUp (page : PageSize) (length : Nat) : Nat := (length + (page.bytes - 1)) / page.bytes * page.bytes

-- The length is computed in 32 bits, so it covers the bytes exactly when their
-- end does not pass 2^32.
theorem mapping_covers (page : PageSize) (addr count : Nat) :
    addr % page.bytes + count ≤ page.roundUp (toUnsigned ((count % 2 ^ 32 : Nat) + pageOffset page addr)) ↔
      addr % page.bytes + count < 2 ^ 32 := by
  have length : toUnsigned ((count % 2 ^ 32 : Nat) + pageOffset page addr) = (addr % page.bytes + count) % 2 ^ 32 := by
    rw [pageOffset_eq]
    unfold toUnsigned
    omega
  have positive : 0 < page.bytes := Nat.two_pow_pos page.log
  have whole : 2 ^ 32 = 2 ^ (32 - page.log) * page.bytes := by
    have fits := page.fits
    unfold PageSize.bytes
    rw [← pow_add,Nat.sub_add_cancel (by omega)]
  rw [length]
  unfold PageSize.roundUp
  generalize addr % page.bytes + count = total
  constructor
  · intro covered
    by_contra above
    -- 2^32 is a whole number of pages, so rounding up stays below it
    have most : (total % 2 ^ 32 + (page.bytes - 1)) / page.bytes * page.bytes ≤ 2 ^ 32 := by
      rw [whole]
      apply Nat.mul_le_mul_right
      apply Nat.le_of_lt_succ
      rw [Nat.div_lt_iff_lt_mul positive,Nat.succ_mul,← whole]
      omega
    have exactly : total = 2 ^ 32 := by omega
    rw [exactly,Nat.mod_self,Nat.zero_add,Nat.div_eq_of_lt (by omega)] at covered
    omega
  · intro below
    rw [Nat.mod_eq_of_lt below]
    have split := Nat.div_add_mod' (total + (page.bytes - 1)) page.bytes
    have rest := Nat.mod_lt (total + (page.bytes - 1)) positive
    omega

def StaysInside (page : PageSize) (length : Nat) (trace : Trace Sys) : Prop :=
  ∀ k, Reads trace k → 0 ≤ k ∧ k < page.roundUp length

theorem staysInside_iff (page : PageSize) (addr count : Nat)
    (reads : ∀ k, Reads trace k ↔ pageOffset page addr ≤ k ∧ k < pageOffset page addr + count) :
    StaysInside page (toUnsigned ((count % 2 ^ 32 : Nat) + pageOffset page addr)) trace ↔
      addr % page.bytes + count < 2 ^ 32 := by
  have below : addr % page.bytes < page.bytes := Nat.mod_lt _ (Nat.two_pow_pos page.log)
  have bound : page.bytes ≤ 2 ^ 30 := Nat.pow_le_pow_right (by decide) page.fits
  have covers := mapping_covers page addr count
  have offset := pageOffset_eq page addr
  unfold StaysInside
  simp only [reads]
  rw [← covers]
  generalize page.roundUp (toUnsigned ((count % 2 ^ 32 : Nat) + pageOffset page addr)) = reach at covers
  constructor
  · intro inside
    by_cases none_ : count = 0
    · rw [covers]
      omega
    · have last := inside (pageOffset page addr + count - 1) (by omega)
      omega
  · intro inside k range
    omega

-- The statement about one run: it is about the page size the run saw and the
-- mapping it got.
def DumpsInside (addr count : Nat) (trace : Trace Sys) : Prop :=
  ∀ (page : PageSize) (length : Nat) (prot : Prot) (fd : Int) (base mem : Nat), ⟨.getpagesize,page⟩ ∈ trace →
    ⟨.mmap length prot fd base,some mem⟩ ∈ trace →
    (StaysInside page length trace ↔ addr % page.bytes + count < 2 ^ 32)

theorem dumpRange_inside (b : Build) (sync : Bool) (addr count : Nat) (writeBinary : Bool) :
    (dumpRange b sync addr count writeBinary).All (fun trace _ => DumpsInside addr count trace) := by
  apply (dumpRange_runs b sync addr count writeBinary (dumpMapped_reads b addr count writeBinary)).mono
  intro trace outcome runs page length prot fd base mem paged mapped
  obtain ⟨long,_,before,later,mapping,rfl,setup,_,offset,reads⟩ := runs page length prot fd base mem paged mapped
  rw [long]
  apply staysInside_iff
  intro k
  rw [reads_append,reads.2,offset]
  simp [setup_reads setup]

theorem memCmds_dump : ∀ info ∈ memCmds, info.entry = .mmioDump →
    info.params = some mmioDumpParams ∧ info.privdata = .mmapFileFlags info.sync := by
  decide

theorem mmioDumpParams_noIopl : ∀ p ∈ (some mmioDumpParams : Option PrereqParams), p.ioplNeeded = 0 := by decide

theorem mmioDump_inside (b : Build) (held : info.privdata = .mmapFileFlags sync) (name addr count : Arg) (rest : List Arg) :
    (mmioDump b (name :: addr :: count :: rest) info).All (fun trace _ =>
      DumpsInside (strtoull 0 addr.text).1 (strtoulLong b 0 count.text).1 trace) := by
  rw [mmioDump_eq b _ held]
  simp only [argAt,List.getElem?_cons_succ,List.getElem?_cons_zero,Prog.done_bind]
  split
  · cases rest with
    | nil => simp [DumpsInside]
    | cons option rest =>
      simp only [List.getElem?_cons_zero,Prog.done_bind]
      split
      · exact dumpRange_inside b sync _ _ true
      · simp [DumpsInside]
  · exact dumpRange_inside b sync _ _ false

theorem dump_window_iff (b : Build) (fuel : Nat) (info : CmdInfo) (member : info ∈ memCmds) (entry : info.entry = .mmioDump)
    (name addr count : Arg) (rest : List Arg) (admitted : Admits info.params (name :: addr :: count :: rest))
    (kernel : Kernel Sys σ) (s : σ) (page : PageSize) (length : Nat) (prot : Prot) (fd : Int) (base mem : Nat) :
    let run := (runInfo b fuel (name :: addr :: count :: rest) info).exec kernel s
    ⟨.getpagesize,page⟩ ∈ run.trace → ⟨.mmap length prot fd base,some mem⟩ ∈ run.trace →
    (StaysInside page length run.trace ↔
      (strtoull 0 addr.text).1 % page.bytes + (strtoulLong b 0 count.text).1 < 2 ^ 32) := by
  intro run paged mapped
  obtain ⟨params,held⟩ := memCmds_dump info member entry
  have runs : runInfo b fuel (name :: addr :: count :: rest) info = mmioDump b (name :: addr :: count :: rest) info := by
    rw [runInfo_admitted b fuel (by rw [params]; exact mmioDumpParams_noIopl) admitted,entry]
    rfl
  simp only [run] at paged mapped ⊢
  rw [runs] at paged mapped ⊢
  exact (mmioDump_inside b held name addr count rest).exec kernel s page length prot fd base mem paged mapped

def showing (memory : Memory) : Kernel Sys Unit := fun c s =>
  match c with
  | .mmap _ _ _ base => (some base,s)
  | .load mem offset _ => (fun i => memory (mem + offset.toNat + i),s)
  | .fwrite bytes => (if bytes = [] then 0 else 1,s)
  | c => (c.succeeds,s)

theorem showing_maps (memory : Memory) (b : Build) (sync : Bool) (addr count mapped start : Nat) (writeBinary : Bool)
    (length : toUnsigned ((count % 2 ^ 32 : Nat) + pageOffset ⟨12,by decide⟩ addr) = mapped)
    (base : pageBase ⟨12,by decide⟩ addr = start) :
    let run := (dumpRange b sync addr count writeBinary).exec (showing memory) ()
    ⟨.getpagesize,⟨12,by decide⟩⟩ ∈ run.trace ∧ ⟨.mmap mapped ⟨true,false⟩ 3 start,some start⟩ ∈ run.trace := by
  rw [← length,← base]
  exact ⟨.head _,.tail _ (.tail _ (.head _))⟩

theorem dump_window_iff_small :
    let run := (runInfo .x86_64 0 (["mmio_dump","0x1010","8"].map Arg.of) mmioDumpInfo).exec (showing fun _ => 0) ()
    ⟨.mmap 24 ⟨true,false⟩ 3 0x1000,some 0x1000⟩ ∈ run.trace ∧ StaysInside ⟨12,by decide⟩ 24 run.trace := by
  intro run
  obtain ⟨paged,mapped⟩ := showing_maps (fun _ => 0) .x86_64 true (strtoull 0 "0x1010".toList).1
    (strtoulLong .x86_64 0 "8".toList).1 24 0x1000 false (by decide +kernel) (by decide +kernel)
  exact ⟨mapped,(dump_window_iff .x86_64 0 mmioDumpInfo (by decide) rfl (Arg.of "mmio_dump") (Arg.of "0x1010")
    (Arg.of "8") [] (by decide) (showing fun _ => 0) () ⟨12,by decide⟩ 24 ⟨true,false⟩ 3 0x1000 0x1000 paged mapped).mpr
    (by decide +kernel)⟩

-- A dump of 2^32 + 16 bytes gets a mapping of 32 bytes.
theorem dump_window_wrapped :
    let run := (runInfo .x86_64 0 (["mmio_dump","0x10","4294967312","-b"].map Arg.of) mmioDumpInfo).exec
      (showing fun _ => 0) ()
    ⟨.getpagesize,⟨12,by decide⟩⟩ ∈ run.trace ∧ ⟨.mmap 32 ⟨true,false⟩ 3 0,some 0⟩ ∈ run.trace ∧
    ¬ StaysInside ⟨12,by decide⟩ 32 run.trace := by
  intro run
  obtain ⟨paged,mapped⟩ := showing_maps (fun _ => 0) .x86_64 true (strtoull 0 "0x10".toList).1
    (strtoulLong .x86_64 0 "4294967312".toList).1 32 0 true (by decide +kernel) (by decide +kernel)
  have dump : (mmioDump .x86_64 (["mmio_dump","0x10","4294967312","-b"].map Arg.of) mmioDumpInfo).All (fun trace _ =>
      DumpsInside (strtoull 0 "0x10".toList).1 (strtoulLong .x86_64 0 "4294967312".toList).1 trace) :=
    mmioDump_inside .x86_64 rfl _ _ _ _
  have window := dump.exec (showing fun _ => 0) () ⟨12,by decide⟩ 32 ⟨true,false⟩ 3 0 0 paged mapped
  refine ⟨paged,mapped,fun inside => ?_⟩
  exact absurd (window.mp inside) (by decide +kernel)

end Iotools
