import Iotools.DumpWindow

namespace Iotools
open Bytes Numeral Interaction

structure DumpField where
  size : Nat
  value : Nat

def DumpField.text (field : DumpField) : Text := " 0x".toList ++ hexLower (field.size * 2) field.value

def DumpField.bytes (order : Endian) (field : DumpField) : List UInt8 := encode order field.size field.value

structure DumpLine where
  address : Nat
  fields : List DumpField

def DumpLine.label (address : Nat) : Text := "0x".toList ++ hexLower 16 address ++ ":".toList

def DumpLine.text (line : DumpLine) : Text := DumpLine.label line.address ++ line.fields.flatMap DumpField.text ++ "\n".toList

def fieldOf (order : Endian) (bytes : List UInt8) : DumpField := ⟨bytes.length,decode order bytes⟩

-- Words while four bytes are left, then single bytes.
def fieldsOf (order : Endian) : List UInt8 → List DumpField
  | a :: b :: c :: d :: rest => fieldOf order [a,b,c,d] :: fieldsOf order rest
  | a :: rest => fieldOf order [a] :: fieldsOf order rest
  | [] => []

def streamText : Nat → Nat → List DumpField → Text
  | _,_,[] => []
  | label,onLine,field :: rest =>
    (if onLine = 0 then DumpLine.label label else []) ++ field.text ++ (if (onLine + 1) % 4 = 0 then "\n".toList else []) ++
      streamText ((label + field.size) % 2 ^ 64) ((onLine + 1) % 4) rest

def linesOf (label : Nat) : List DumpField → List DumpLine
  | a :: b :: c :: d :: rest => ⟨label,[a,b,c,d]⟩ :: linesOf (label + a.size + b.size + c.size + d.size) rest
  | [] => []
  | short => [⟨label,short⟩]

def fieldsSize (fields : List DumpField) : Nat := (fields.map DumpField.size).sum

def DumpLine.wrap (line : DumpLine) : DumpLine := ⟨line.address % 2 ^ 64,line.fields⟩

theorem streamText_lines (fields : List DumpField) (label : Nat) :
    streamText (label % 2 ^ 64) 0 fields ++ (if fields.length % 4 = 0 then [] else "\n".toList) =
      ((linesOf label fields).map DumpLine.wrap).flatMap DumpLine.text := by
  fun_induction linesOf label fields with
  | case1 label a b c d rest ih =>
    have count : (a :: b :: c :: d :: rest).length % 4 = rest.length % 4 := by
      simp only [List.length_cons]
      omega
    simp only [streamText,Nat.mod_add_mod,count]
    rw [List.map_cons,List.flatMap_cons,← ih]
    simp [DumpLine.text,DumpLine.wrap]
  | case2 label => rfl
  | case3 label short full some_ =>
    match short with
    | [] => exact absurd rfl some_
    | [a] => simp [streamText,DumpLine.text,DumpLine.wrap]
    | [a,b] => simp [streamText,DumpLine.text,DumpLine.wrap]
    | [a,b,c] => simp [streamText,DumpLine.text,DumpLine.wrap]
    | a :: b :: c :: d :: rest => exact absurd rfl (full a b c d rest)

theorem linesOf_fields (label : Nat) (fields : List DumpField) : (linesOf label fields).flatMap DumpLine.fields = fields := by
  fun_induction linesOf label fields with
  | case1 label a b c d rest ih => simp [ih]
  | case2 label => rfl
  | case3 label short full some_ => simp

theorem linesOf_some (label : Nat) (fields : List DumpField) :
    ∀ line ∈ linesOf label fields, 0 < line.fields.length ∧ line.fields.length ≤ 4 := by
  fun_induction linesOf label fields with
  | case1 label a b c d rest ih =>
    intro line member
    rcases List.mem_cons.mp member with rfl | later
    · simp
    · exact ih line later
  | case2 label => simp
  | case3 label short full some_ =>
    intro line member
    rw [List.mem_singleton.mp member]
    match short with
    | [] => exact absurd rfl some_
    | [a] => simp
    | [a,b] => simp
    | [a,b,c] => simp
    | a :: b :: c :: d :: rest => exact absurd rfl (full a b c d rest)

theorem linesOf_full (label : Nat) (fields : List DumpField) :
    ∀ line ∈ (linesOf label fields).dropLast, line.fields.length = 4 := by
  fun_induction linesOf label fields with
  | case1 label a b c d rest ih =>
    intro line member
    cases lines : linesOf (label + a.size + b.size + c.size + d.size) rest with
    | nil => simp [lines] at member
    | cons next more =>
      rw [lines,List.dropLast_cons_cons] at member
      rcases List.mem_cons.mp member with rfl | later
      · rfl
      · exact ih line (by rw [lines]; exact later)
  | case2 label => simp
  | case3 label short full some_ => simp

theorem linesOf_address (label : Nat) (fields : List DumpField) (before : List DumpLine) (line : DumpLine)
    (after : List DumpLine) (split : linesOf label fields = before ++ line :: after) :
    line.address = label + fieldsSize (before.flatMap DumpLine.fields) := by
  fun_induction linesOf label fields generalizing before with
  | case1 label a b c d rest ih =>
    cases before with
    | nil =>
      cases split
      simp [fieldsSize]
    | cons first before =>
      simp only [List.cons_append,List.cons.injEq] at split
      rw [ih before split.2,← split.1]
      simp [fieldsSize]
      omega
  | case2 label => simp at split
  | case3 label short full some_ =>
    cases before with
    | nil =>
      cases split
      simp [fieldsSize]
    | cons first before => simp at split

theorem fieldsSize_append (left right : List DumpField) : fieldsSize (left ++ right) = fieldsSize left + fieldsSize right := by
  simp [fieldsSize]

-- Every line opens before the end of its fields, so a dump that ends at 2^64 or
-- before wraps no label.
theorem linesOf_wrap (fits : label + fieldsSize fields ≤ 2 ^ 64) (wide : ∀ field ∈ fields, 0 < field.size) :
    (linesOf label fields).map DumpLine.wrap = linesOf label fields := by
  refine (List.map_congr_left ?_).trans (List.map_id _)
  intro line member
  obtain ⟨before,after,split⟩ := List.append_of_mem member
  have address := linesOf_address label fields before line after split
  have whole := linesOf_fields label fields
  rw [split,List.flatMap_append,List.flatMap_cons] at whole
  obtain ⟨field,more,first⟩ := List.exists_cons_of_length_pos (linesOf_some label fields line member).1
  have positive : 0 < field.size := wide field (by rw [← whole,first]; simp)
  have below : fieldsSize (before.flatMap DumpLine.fields) + field.size ≤ fieldsSize fields := by
    rw [← whole,first,fieldsSize_append]
    simp only [fieldsSize,List.cons_append,List.map_cons,List.sum_cons]
    omega
  rw [DumpLine.wrap,Nat.mod_eq_of_lt (by omega),id]

theorem fieldsOf_short (few : rest.length < 3) : fieldsOf order (a :: rest) = fieldOf order [a] :: fieldsOf order rest := by
  match rest with
  | [] => rfl
  | [b] => rfl
  | [b,c] => rfl

theorem fieldOf_bytes (order : Endian) (bytes : List UInt8) : (fieldOf order bytes).bytes order = bytes :=
  encode_decode order bytes

theorem fieldsOf_bytes (order : Endian) (bytes : List UInt8) : (fieldsOf order bytes).flatMap (DumpField.bytes order) = bytes := by
  fun_induction fieldsOf order bytes with
  | case1 a b c d rest ih => rw [List.flatMap_cons,ih,fieldOf_bytes]; rfl
  | case2 a rest short ih => rw [List.flatMap_cons,ih,fieldOf_bytes]; rfl
  | case3 => rfl

theorem fieldsOf_sizes (order : Endian) (bytes : List UInt8) : (fieldsOf order bytes).map DumpField.size =
    List.replicate (bytes.length / 4) 4 ++ List.replicate (bytes.length % 4) 1 := by
  fun_induction fieldsOf order bytes with
  | case1 a b c d rest ih =>
    have words : (a :: b :: c :: d :: rest).length / 4 = rest.length / 4 + 1 := by
      simp only [List.length_cons]
      omega
    have left : (a :: b :: c :: d :: rest).length % 4 = rest.length % 4 := by
      simp only [List.length_cons]
      omega
    rw [List.map_cons,ih,words,left,List.replicate_succ]
    rfl
  | case2 a rest short ih =>
    match rest with
    | [] => simp [fieldsOf,fieldOf]
    | [b] => simp [fieldsOf,fieldOf]
    | [b,c] => simp [fieldsOf,fieldOf]
    | b :: c :: d :: rest => exact absurd rfl (short b c d rest)
  | case3 => rfl

theorem fieldsOf_fit (order : Endian) (bytes : List UInt8) :
    ∀ field ∈ fieldsOf order bytes, 0 < field.size ∧ field.value < 256 ^ field.size := by
  have one (chunk : List UInt8) (some_ : 0 < chunk.length) :
      0 < (fieldOf order chunk).size ∧ (fieldOf order chunk).value < 256 ^ (fieldOf order chunk).size :=
    ⟨some_,decode_lt order chunk⟩
  fun_induction fieldsOf order bytes with
  | case1 a b c d rest ih =>
    intro field member
    rcases List.mem_cons.mp member with rfl | later
    · exact one [a,b,c,d] (by simp)
    · exact ih field later
  | case2 a rest short ih =>
    intro field member
    rcases List.mem_cons.mp member with rfl | later
    · exact one [a] (by simp)
    · exact ih field later
  | case3 => simp

theorem fieldsOf_size (order : Endian) (bytes : List UInt8) : fieldsSize (fieldsOf order bytes) = bytes.length := by
  rw [fieldsSize,fieldsOf_sizes]
  simp
  omega

theorem fieldsSize_bytes (order : Endian) (fields : List DumpField) :
    (fields.flatMap (DumpField.bytes order)).length = fieldsSize fields := by
  simp [fieldsSize,DumpField.bytes,List.length_flatMap]

theorem label_plain (address : Nat) : '\n' ∉ DumpLine.label address ∧ ' ' ∉ DumpLine.label address := by
  have newline : '\n' ∉ hexLower 16 address := hexLower_notMem rfl
  have space : ' ' ∉ hexLower 16 address := hexLower_notMem rfl
  have zero : "0x".toList = ['0','x'] := rfl
  have colon : ":".toList = [':'] := rfl
  simp [DumpLine.label,zero,colon,newline,space]

theorem field_plain (field : DumpField) : '\n' ∉ field.text := by
  have digits : '\n' ∉ hexLower (field.size * 2) field.value := hexLower_notMem rfl
  have zero : " 0x".toList = [' ','0','x'] := rfl
  simp [DumpField.text,zero,digits]

theorem DumpLine.isLine (line : DumpLine) : IsLine line.text := by
  refine ⟨DumpLine.label line.address ++ line.fields.flatMap DumpField.text,?_,rfl⟩
  simp [(label_plain line.address).1,field_plain]

-- The layout of a dump: lines of four fields, the last may have fewer; words and
-- then single bytes; together the bytes, each line behind the address of its
-- first byte.
structure Layout (order : Endian) (start : Nat) (bytes : List UInt8) (lines : List DumpLine) : Prop where
  closed : ∀ line ∈ lines, IsLine line.text
  full : ∀ line ∈ lines.dropLast, line.fields.length = 4
  filled : ∀ line ∈ lines, 0 < line.fields.length ∧ line.fields.length ≤ 4
  sizes : (lines.flatMap DumpLine.fields).map DumpField.size =
    List.replicate (bytes.length / 4) 4 ++ List.replicate (bytes.length % 4) 1
  fits : ∀ field ∈ lines.flatMap DumpLine.fields, field.value < 256 ^ field.size
  content : (lines.flatMap DumpLine.fields).flatMap (DumpField.bytes order) = bytes
  addresses : ∀ before line after, lines = before ++ line :: after →
    line.address = start + ((before.flatMap DumpLine.fields).flatMap (DumpField.bytes order)).length

theorem linesOf_layout (order : Endian) (start : Nat) (bytes : List UInt8) :
    Layout order start bytes (linesOf start (fieldsOf order bytes)) where
  closed line _ := line.isLine
  full := linesOf_full start _
  filled := linesOf_some start _
  sizes := by rw [linesOf_fields,fieldsOf_sizes]
  fits field member := by
    rw [linesOf_fields] at member
    exact (fieldsOf_fit order bytes field member).2
  content := by rw [linesOf_fields,fieldsOf_bytes]
  addresses before line after split := by
    rw [fieldsSize_bytes]
    exact linesOf_address start _ before line after split

def Shows (mem : Nat) (start : Int) (bytes : List UInt8) (trace : Trace Sys) : Prop :=
  ∀ (k size : Nat) (data : Buffer size), k + size ≤ bytes.length → ⟨.load mem (start + k) size,data⟩ ∈ trace →
    List.ofFn data = (bytes.drop k).take size

theorem Shows.sub (shows : Shows mem start bytes trace) (sub : later ⊆ trace) : Shows mem start bytes later :=
  fun k size data inside member => shows k size data inside (sub member)

theorem Shows.drop (shows : Shows mem start (chunk ++ rest) trace) (position : start' = start + chunk.length) :
    Shows mem start' rest trace := by
  intro k size data inside member
  have there := shows (chunk.length + k) size data (by simp; omega)
    (by rw [position,add_assoc] at member; exact_mod_cast member)
  rw [there,List.drop_append,List.drop_eq_nil_of_le (by omega)]
  simp

theorem Shows.front (shows : Shows mem start (chunk ++ rest) trace) : Shows mem start chunk trace := by
  intro k size data inside member
  rw [shows k size data (by simp; omega) member,List.drop_append_of_le_length (by omega),
    List.take_append_of_le_length (by simp; omega)]

theorem dumpField_text (b : Build) (mem : Nat) (position : Int) (label fields : Nat) (chunk : List UInt8) :
    (dumpField b mem position label fields chunk.length).All (fun trace outcome => outcome = .ok () ∧
      (Shows mem position chunk trace → printed trace = (if fields = 0 then DumpLine.label label else []) ++
        (fieldOf b.order chunk).text ++ (if (fields + 1) % 4 = 0 then "\n".toList else []))) := by
  have found {trace : Trace Sys} {data : Buffer chunk.length} (shows : Shows mem position chunk trace)
      (member : ⟨.load mem position chunk.length,data⟩ ∈ trace) : List.ofFn data = chunk := by
    have whole := shows 0 chunk.length data (by simp) (by rw [Nat.cast_zero,add_zero]; exact member)
    simpa using whole
  have line (data : Buffer chunk.length) (same : List.ofFn data = chunk) :
      " 0x".toList ++ hexLower (chunk.length * 2) (decode b.order (List.ofFn data)) = (fieldOf b.order chunk).text := by
    rw [same]
    rfl
  unfold dumpField
  by_cases first : fields = 0 <;> by_cases last : (fields + 1) % 4 = 0
  · omega
  · subst first
    intro _ data _
    refine ⟨rfl,fun shows => ?_⟩
    simp only [printed_cons,output_stdout,output_load]
    rw [line data (found shows (by simp))]
    simp [DumpLine.label]
  · simp only [first,last,if_true,if_false,Prog.call_bind,Prog.done_bind,Prog.pure_eq,Prog.all_call,Prog.all_done]
    intro data _ _
    refine ⟨trivial,fun shows => ?_⟩
    rw [line data (found shows (by simp))]
    simp
  · simp only [first,last,if_false,Prog.call_bind,Prog.done_bind,Prog.pure_eq,Prog.all_call,Prog.all_done]
    intro data _
    refine ⟨trivial,fun shows => ?_⟩
    rw [line data (found shows (by simp))]
    simp

theorem dumpField_next {next : Unit → Action Nat} (b : Build) (mem : Nat) (position : Int) (label fields : Nat)
    (chunk rest : List UInt8)
    (later : (next ()).All (fun trace outcome => ∃ last, outcome = .ok last ∧
      (Shows mem (position + chunk.length) rest trace → last = ((fields + 1) % 4 + (fieldsOf b.order rest).length) % 4 ∧
        printed trace = streamText ((label + chunk.length) % 2 ^ 64) ((fields + 1) % 4) (fieldsOf b.order rest)))) :
    (dumpField b mem position label fields chunk.length >>= next).All (fun trace outcome => ∃ last, outcome = .ok last ∧
      (Shows mem position (chunk ++ rest) trace →
        last = (fields + (fieldOf b.order chunk :: fieldsOf b.order rest).length) % 4 ∧
        printed trace = streamText label fields (fieldOf b.order chunk :: fieldsOf b.order rest))) := by
  apply Prog.All.bind (dumpField_text b mem position label fields chunk)
  · rintro trace reason ⟨failed,_⟩
    cases failed
  · rintro before value ⟨_,text⟩
    apply later.mono
    rintro after outcome ⟨last,returned,rest_⟩
    refine ⟨last,returned,fun shows => ?_⟩
    have front : Shows mem position chunk before := shows.front.sub (List.subset_append_left _ _)
    obtain ⟨ends,prints⟩ := rest_ ((shows.sub (List.subset_append_right _ _)).drop rfl)
    refine ⟨?_,?_⟩
    · rw [ends,List.length_cons]
      omega
    · rw [printed_append,text front,prints]
      rfl

theorem dumpLoop_text (b : Build) (mem left : Nat) (position : Int) (label fields : Nat) (bytes : List UInt8)
    (count : bytes.length = left) (onLine : fields < 4) :
    (dumpLoop b mem left position label fields).All (fun trace outcome => ∃ last, outcome = .ok last ∧
      (Shows mem position bytes trace → last = (fields + (fieldsOf b.order bytes).length) % 4 ∧
        printed trace = streamText label fields (fieldsOf b.order bytes))) := by
  fun_induction dumpLoop b mem left position label fields generalizing bytes with
  | case1 left position label fields ih =>
    obtain ⟨a,bytes,rfl⟩ := List.exists_cons_of_length_eq_add_one count
    obtain ⟨b',bytes,rfl⟩ := List.exists_cons_of_length_eq_add_one (Nat.succ.inj count)
    obtain ⟨c,bytes,rfl⟩ := List.exists_cons_of_length_eq_add_one (Nat.succ.inj (Nat.succ.inj count))
    obtain ⟨d,rest,rfl⟩ := List.exists_cons_of_length_eq_add_one (Nat.succ.inj (Nat.succ.inj (Nat.succ.inj count)))
    exact dumpField_next b mem position label fields [a,b',c,d] rest
      (ih rest (by simpa using count) (Nat.mod_lt _ (by decide)))
  | case2 left position label fields short ih =>
    obtain ⟨a,rest,rfl⟩ := List.exists_cons_of_length_eq_add_one count
    have shorter : rest.length = left := by simpa using count
    have few : rest.length < 3 := by
      by_contra more
      exact short (left - 3) (by omega)
    rw [fieldsOf_short few]
    exact dumpField_next b mem position label fields [a] rest (ih rest shorter (Nat.mod_lt _ (by decide)))
  | case3 position label fields =>
    have none_ : bytes = [] := List.eq_nil_of_length_eq_zero count
    subst none_
    exact ⟨fields,rfl,fun _ => ⟨(Nat.mod_eq_of_lt onLine).symm,rfl⟩⟩

theorem setup_output {e : Event Sys} (setup : Setup e) : output e = [] := by
  rcases e with ⟨c,answer⟩
  cases c <;> simp [Setup,output] at setup ⊢

theorem setup_printed (setup : ∀ e ∈ trace, Setup e) : printed trace = [] :=
  List.flatMap_eq_nil_iff.mpr (fun e member => setup_output (setup e member))

def dumpedText (order : Endian) (start : Nat) (bytes : List UInt8) : Text :=
  streamText start 0 (fieldsOf order bytes) ++ (if (fieldsOf order bytes).length % 4 = 0 then [] else "\n".toList)

theorem dumpedText_lines (order : Endian) (small : start < 2 ^ 64) (bytes : List UInt8) :
    dumpedText order start bytes = ((linesOf start (fieldsOf order bytes)).map DumpLine.wrap).flatMap DumpLine.text := by
  have lines := streamText_lines (fieldsOf order bytes) start
  rwa [Nat.mod_eq_of_lt small] at lines

theorem dumpMapped_text (b : Build) (addr : Nat) (bytes : List UInt8) (mapping : MmapInfo) :
    (dumpMapped b addr bytes.length false mapping).All (fun trace outcome => outcome = .ok 0 ∧
      (Shows mapping.mem mapping.off bytes trace → printed trace = dumpedText b.order addr bytes)) := by
  apply Prog.All.bind (dumpLoop_text b mapping.mem bytes.length mapping.off addr 0 bytes rfl (by decide))
  · rintro trace reason ⟨last,failed,_⟩
    cases failed
  · rintro before fields ⟨last,returned,text⟩
    cases returned
    by_cases short : fields = 0
    · simp only [short,closeMapping]
      intro _ _
      refine ⟨rfl,fun shows => ?_⟩
      obtain ⟨ends,prints⟩ := text (shows.sub (List.subset_append_left _ _))
      rw [printed_append,prints,dumpedText,if_pos (by omega)]
      simp
    · simp only [ne_eq,short,not_false_eq_true,if_true,closeMapping]
      intro _ _ _
      refine ⟨rfl,fun shows => ?_⟩
      obtain ⟨ends,prints⟩ := text (shows.sub (List.subset_append_left _ _))
      rw [printed_append,prints,dumpedText,if_neg (by omega)]
      simp

def DumpsText (order : Endian) (addr : Nat) (bytes : List UInt8) (trace : Trace Sys) (outcome : Except Fault Int) : Prop :=
  ∀ (page : PageSize) (length : Nat) (prot : Prot) (fd : Int) (base mem : Nat), ⟨.getpagesize,page⟩ ∈ trace →
    ⟨.mmap length prot fd base,some mem⟩ ∈ trace → outcome = .ok 0 ∧
    length = toUnsigned ((bytes.length % 2 ^ 32 : Nat) + pageOffset page addr) ∧ base = pageBase page addr ∧
    (Shows mem (pageOffset page addr) bytes trace → printed trace = dumpedText order addr bytes)

theorem dumpRange_text (b : Build) (sync : Bool) (addr : Nat) (bytes : List UInt8) :
    (dumpRange b sync addr bytes.length false).All (DumpsText b.order addr bytes) := by
  apply (dumpRange_runs b sync addr bytes.length false (dumpMapped_text b addr bytes)).mono
  intro trace outcome runs page length prot fd base mem paged mapped
  obtain ⟨long,start,before,later,mapping,rfl,setup,rfl,offset,returned,text⟩ :=
    runs page length prot fd base mem paged mapped
  refine ⟨returned,long,start,fun shows => ?_⟩
  rw [printed_append,setup_printed setup,List.nil_append]
  apply text
  rw [offset]
  exact shows.sub (List.subset_append_right _ _)

-- Loads inside a mapping of /dev/mem return what stands at the physical address.
def Backed (memory : Memory) (trace : Trace Sys) : Prop :=
  ∀ (length : Nat) (prot : Prot) (fd : Int) (base mem : Nat), ⟨.mmap length prot fd base,some mem⟩ ∈ trace →
    ∀ (offset size : Nat) (data : Buffer size), offset + size ≤ length → ⟨.load mem offset size,data⟩ ∈ trace →
      List.ofFn data = memory.load (base + offset) size

def shownBy (memory : Memory) : Event Sys → Prop
  | ⟨.mmap _ _ _ base,mem⟩ => mem = some base
  | ⟨.load mem offset size,data⟩ => List.ofFn data = memory.load (mem + offset.toNat) size
  | _ => True

theorem showing_shown (memory : Memory) (c : Call) (s : Unit) : shownBy memory ⟨c,(showing memory c s).1⟩ := by
  cases c with
  | mmap length prot fd base => rfl
  | load mem offset size =>
    apply List.ext_getElem
    · simp
    · intro i _ _
      simp [showing,Memory.load]
  | _ => trivial

theorem showing_backed (memory : Memory) (program : Action α) : Backed memory (program.exec (showing memory) ()).trace := by
  have all : ∀ e ∈ (program.exec (showing memory) ()).trace, shownBy memory e :=
    Prog.exec_events (showing_shown memory) ()
  intro length prot fd base mem mapped offset size data _ loaded
  have start : some mem = some base := all _ mapped
  have data_ : List.ofFn data = memory.load (mem + (offset : Int).toNat) size := all _ loaded
  rw [data_,Option.some.inj start,Int.toNat_natCast]

theorem load_part (memory : Memory) (start : Nat) (inside : k + size ≤ count) :
    memory.load (start + k) size = ((memory.load start count).drop k).take size := by
  apply List.ext_getElem
  · simp
    omega
  · intro i _ _
    simp [Memory.load,Nat.add_assoc]

theorem backed_shows (page : PageSize) (memory : Memory) (small : addr < 2 ^ 64)
    (fits : addr % page.bytes + count < 2 ^ 32) (backed : Backed memory trace)
    (long : length = toUnsigned ((count % 2 ^ 32 : Nat) + pageOffset page addr)) (first : base = pageBase page addr)
    (mapped : ⟨.mmap length prot fd base,some mem⟩ ∈ trace) :
    Shows mem (pageOffset page addr) (memory.load addr count) trace := by
  have offset := pageOffset_eq page addr
  have whole := Nat.div_add_mod' addr page.bytes
  have aligned := pageBase_eq page small
  intro k size data inside member
  rw [Memory.load_length] at inside
  have reach : addr % page.bytes + k + size ≤ length := by
    rw [long,offset]
    unfold toUnsigned
    omega
  rw [offset,← Nat.cast_add] at member
  rw [backed length prot fd base mem mapped _ size data reach member,first,aligned,← Nat.add_assoc,whole]
  exact load_part memory addr inside

theorem mmioDump_text (b : Build) (held : info.privdata = .mmapFileFlags sync) (name addr count : Arg) :
    mmioDump b [name,addr,count] info =
      dumpRange b sync (strtoull 0 addr.text).1 (strtoulLong b 0 count.text).1 false := by
  rw [mmioDump_eq b _ held]
  rfl

theorem threeArgs_admitted (name addr count : Arg) : Admits (some mmioDumpParams) [name,addr,count] := by
  rintro p ⟨⟩
  exact ⟨Nat.le_refl 3,Nat.le_succ 3⟩

theorem dump_text_layout (b : Build) (fuel : Nat) (info : CmdInfo) (member : info ∈ memCmds) (entry : info.entry = .mmioDump)
    (name addr count : Arg) (memory : Memory) (kernel : Kernel Sys σ) (s : σ) (page : PageSize) (length : Nat)
    (prot : Prot) (fd : Int) (base mem : Nat) :
    let run := (runInfo b fuel [name,addr,count] info).exec kernel s
    let start := (strtoull 0 addr.text).1
    let bytes := (strtoulLong b 0 count.text).1
    Backed memory run.trace → ⟨.getpagesize,page⟩ ∈ run.trace → ⟨.mmap length prot fd base,some mem⟩ ∈ run.trace →
    bytes + start % page.bytes < 2 ^ 32 → start + bytes ≤ 2 ^ 64 →
    run.outcome = .ok 0 ∧ ∃ lines : List DumpLine, printed run.trace = lines.flatMap DumpLine.text ∧
      Layout b.order start (memory.load start bytes) lines := by
  intro run start bytes backed paged mapped below fits
  obtain ⟨params,held⟩ := memCmds_dump info member entry
  have runs : runInfo b fuel [name,addr,count] info = dumpRange b info.sync start bytes false := by
    have admitted : Admits info.params [name,addr,count] := by
      rw [params]
      exact threeArgs_admitted name addr count
    rw [runInfo_admitted b fuel (by rw [params]; exact mmioDumpParams_noIopl) admitted,entry]
    exact mmioDump_text b held name addr count
  have dumps : DumpsText b.order start (memory.load start bytes) run.trace run.outcome := by
    have text := dumpRange_text b info.sync start (memory.load start bytes)
    rw [Memory.load_length,← runs] at text
    exact text.exec kernel s
  obtain ⟨returned,long,first,text⟩ := dumps page length prot fd base mem paged mapped
  rw [Memory.load_length] at long
  have small : start < 2 ^ 64 := strtoul_lt 64 0 addr.text
  have shows := backed_shows page memory small (by omega) backed long first mapped
  refine ⟨returned,linesOf start (fieldsOf b.order (memory.load start bytes)),?_,linesOf_layout b.order start _⟩
  rw [text shows,dumpedText_lines b.order small,linesOf_wrap]
  · rw [fieldsOf_size,Memory.load_length]
    exact fits
  · exact fun field there => (fieldsOf_fit b.order _ field there).1

theorem dump_text_layout_odd :
    let memory : Memory := fun x => UInt8.ofNat x
    let run := (runInfo .x86_64 0 (["mmio_dump","0x1003","6"].map Arg.of) mmioDumpInfo).exec (showing memory) ()
    run.outcome = .ok 0 ∧ ∃ lines : List DumpLine, printed run.trace = lines.flatMap DumpLine.text ∧
      Layout .little 0x1003 (memory.load 0x1003 6) lines := by
  intro memory run
  have start : (strtoull 0 (Arg.of "0x1003").text).1 = 0x1003 := by decide +kernel
  have bytes : (strtoulLong .x86_64 0 (Arg.of "6").text).1 = 6 := by decide +kernel
  have layout := dump_text_layout .x86_64 0 mmioDumpInfo (by decide) rfl (Arg.of "mmio_dump") (Arg.of "0x1003")
    (Arg.of "6") memory (showing memory) () ⟨12,by decide⟩ _ _ _ _ _ (showing_backed memory _) (.head _)
    (.tail _ (.tail _ (.head _)))
  rw [start,bytes] at layout
  exact layout (by decide) (by decide)

end Iotools
