import Iotools.BlockOperands

namespace Iotools
open Bytes Numeral Interaction

-- What the block branch of parse_io_width touches: the characters of arg, and
-- the array of the operand, which memset clears as a whole.
inductive Cell where
  | clear
  | char (index : Nat)
  | put (index : Nat) (byte : UInt8)

abbrev Cell.Answer : Cell → Type
  | .char _ => Char
  | .clear | .put .. => Unit

abbrev Cells : Interface := ⟨Cell,Cell.Answer⟩

abbrev Touch := Prog Cells Fault

def charAt (index : Nat) : Touch Char := .call (.char index) .done
def putAt (index : Nat) (byte : UInt8) : Touch Unit := .call (.put index byte) .done

def strlenFrom : Nat → Nat → Touch Nat
  | 0,_ => .fault .unfinished
  | fuel + 1,index => do
    if (← charAt index) = '\x00' then return index else strlenFrom fuel (index + 1)

-- arg[0] == '0' && (arg[1] == 'x' || arg[1] == 'X')
def startsHex : Touch Bool := do
  if (← charAt 0) = '0' then
    if (← charAt 1) = 'x' then return true else return (← charAt 1) = 'X'
  else return false

-- str_nibble as a string: it ends at the first NUL.
def nibble (first second : Char) : Text := [first,second].takeWhile (· ≠ '\x00')

-- The loop over the pairs from `src` on, which are stored from `dest` on.
def pairLoop (b : Build) : Nat → Nat → Nat → Touch (Except Message Unit)
  | 0,_,_ => .fault .unfinished
  | fuel + 1,src,dest => do
    if (← charAt src) = '\x00' then return .ok ()
    else do
      let first ← charAt src
      let second ← charAt (src + 1)
      match parseUint8Hex b (nibble first second) with
      | .error (.complain message) => return .error message
      | .error (.fault reason) => .fault reason
      | .ok byte => do
        putAt dest byte
        pairLoop b fuel (src + 2) (dest + 1)

-- What follows the check of the length, and the branch as a whole: a complaint,
-- or what params->len is set to.
def blockPairs (b : Build) (fuel : Nat) (len : Int) : Touch (Except Message Int) := do
  let hex ← startsHex
  let src := if hex then 2 else 0
  let len := if hex then len - 2 else len
  if len / 2 > blockMax then return .error .dataTooLong
  else do
    match ← pairLoop b fuel src 0 with
    | .error message => return .error message
    | .ok () => return .ok (len / 2)

def blockBranch (b : Build) (fuel : Nat) : Touch (Except Message Int) := do
  .call .clear .done
  let len := toInt (← strlenFrom fuel 0)
  if len ≤ 0 ∨ len % 2 ≠ 0 then return .error (.dataLength len)
  else blockPairs b fuel len

-- A string of n characters; the memory behind it may hold anything.
structure CString (mem : Nat → Char) (n : Nat) : Prop where
  ends : mem n = '\x00'
  inside : ∀ i < n, mem i ≠ '\x00'

def inMemory (mem : Nat → Char) : Kernel Cells SmbusDtype := fun c array =>
  match c with
  | .clear => ((),Buffer.zero)
  | .char index => (mem index,array)
  | .put index byte => ((),array.patch index [byte])

def InBounds (n : Nat) (e : Event Cells) : Prop :=
  match e.call with
  | .clear => True
  | .char index => index ≤ n
  | .put index _ => index < blockMax

def putIndex (e : Event Cells) : Option Nat :=
  match e.call with
  | .put index _ => some index
  | _ => none

def putIndices (trace : Trace Cells) : List Nat := trace.filterMap putIndex

def textFrom (mem : Nat → Char) (src count : Nat) : Text := (List.range' src count).map mem

theorem isMaxOrTrailingJunk_complains (failed : isMaxOrTrailingJunk b arg rest ldata = .error stop) :
    ∃ message, stop = .complain message := by
  unfold isMaxOrTrailingJunk isTrailingJunk at failed
  split at failed
  · cases failed
    exact ⟨_,rfl⟩
  · split at failed
    · cases failed
      exact ⟨_,rfl⟩
    · cases failed

theorem parseUint8Hex_complains (failed : parseUint8Hex b text = .error stop) : ∃ message, stop = .complain message := by
  simp only [parseUint8Hex,parseUint8Base] at failed
  cases checked : isMaxOrTrailingJunk b text (strtoulLong b 16 text).2 (strtoulLong b 16 text).1 with
  | error stop' =>
    rw [checked] at failed
    cases failed
    exact isMaxOrTrailingJunk_complains checked
  | ok =>
    rw [checked] at failed
    change (if _ then _ else _) = _ at failed
    split at failed
    · cases failed
      exact ⟨_,rfl⟩
    · cases failed

-- What relates the position in the string, the position in the array and the
-- length that is left.
structure LoopInv (n src dest : Nat) (array : SmbusDtype) : Prop where
  inside : src ≤ n
  even : (n - src) % 2 = 0
  room : dest + (n - src) / 2 ≤ blockMax
  clear : ∀ i : Fin 34, dest ≤ i.val → array i = 0

theorem LoopInv.step (inv : LoopInv n src dest array) (more : src ≠ n) (byte : UInt8) :
    src + 1 < n ∧ dest < blockMax ∧ LoopInv n (src + 2) (dest + 1) (array.patch dest [byte]) := by
  have inside := inv.inside
  have even := inv.even
  have room := inv.room
  refine ⟨by omega,by omega,by omega,by omega,by omega,?_⟩
  intro i later
  rw [Buffer.patch_outside _ _ _ (.inr (by simpa using later))]
  exact inv.clear i (by omega)

def answered (result : Except Message Unit) (array : SmbusDtype) : Parse SmbusDtype :=
  match result with
  | .ok () => .ok array
  | .error message => .error (.complain message)

-- A loop that was entered with the invariant: it ends, stays in bounds, and
-- fills the array without a gap when nothing is complained about.
structure LoopDone (b : Build) (mem : Nat → Char) (n src dest : Nat) (array : SmbusDtype)
    (run : Run Cells Fault (Except Message Unit) SmbusDtype) : Prop where
  bounds : ∀ e ∈ run.trace, InBounds n e
  ended : ∃ result, run.outcome = .ok result ∧
    parsePairs b (textFrom mem src (n - src)) dest array = answered result run.state
  filled : run.outcome = .ok (.ok ()) → putIndices run.trace = List.range' dest ((n - src) / 2) ∧
    ∀ i : Fin 34, dest + (n - src) / 2 ≤ i.val → run.state i = 0

section String
variable (b : Build) {mem : Nat → Char} {n : Nat}

theorem charAt_exec (index : Nat) (next : Char → Touch α) (array : SmbusDtype) :
    (charAt index >>= next).exec (inMemory mem) array =
      ((next (mem index)).exec (inMemory mem) array).prepend ([⟨.char index,mem index⟩] : Trace Cells) := rfl

theorem putAt_exec (index : Nat) (byte : UInt8) (next : Unit → Touch α) (array : SmbusDtype) :
    (putAt index byte >>= next).exec (inMemory mem) array =
      ((next ()).exec (inMemory mem) (array.patch index [byte])).prepend ([⟨.put index byte,()⟩] : Trace Cells) := rfl

def strlenReads (mem : Nat → Char) (index count : Nat) : Trace Cells :=
  (List.range' index count).map (fun i => ⟨.char i,mem i⟩)

theorem strlenFrom_exec (string : CString mem n) (fuel index : Nat) (before : index ≤ n) (enough : n - index < fuel)
    (array : SmbusDtype) :
    (strlenFrom fuel index).exec (inMemory mem) array = ⟨strlenReads mem index (n - index + 1),.ok n,array⟩ := by
  induction fuel generalizing index with
  | zero => omega
  | succ fuel ih =>
    rw [strlenFrom,charAt_exec]
    by_cases last : index = n
    · subst last
      rw [if_pos string.ends,Nat.sub_self]
      rfl
    · rw [if_neg (string.inside index (by omega)),ih (index + 1) (by omega) (by omega)]
      have left : n - index + 1 = (n - (index + 1) + 1) + 1 := by omega
      rw [left]
      rfl

theorem textFrom_pair (more : src + 1 < n) :
    textFrom mem src (n - src) = mem src :: mem (src + 1) :: textFrom mem (src + 2) (n - (src + 2)) := by
  have left : n - src = (n - (src + 2) + 1) + 1 := by omega
  rw [left]
  rfl

theorem nibble_pair (string : CString mem n) (more : src + 1 < n) :
    nibble (mem src) (mem (src + 1)) = [mem src,mem (src + 1)] := by
  have first := string.inside src (by omega)
  have second := string.inside (src + 1) more
  simp [nibble,first,second]

-- The three ends of a round: there is no pair, it is complained about, or its
-- byte is stored and the loop goes on.
theorem pairLoop_over (string : CString mem n) (fuel dest : Nat) (array : SmbusDtype) (inv : LoopInv n n dest array) :
    LoopDone b mem n n dest array ((pairLoop b (fuel + 1) n dest).exec (inMemory mem) array) := by
  rw [pairLoop,charAt_exec,if_pos string.ends]
  have none_left : n - n = 0 := Nat.sub_self n
  refine ⟨?_,⟨.ok (),rfl,?_⟩,?_⟩
  · intro e member
    rcases List.mem_singleton.mp member with rfl
    exact Nat.le_refl n
  · rw [none_left]
    rfl
  · intro _
    rw [none_left]
    exact ⟨rfl,inv.clear⟩

def roundReads (mem : Nat → Char) (src : Nat) : Trace Cells :=
  [⟨.char src,mem src⟩,⟨.char src,mem src⟩,⟨.char (src + 1),mem (src + 1)⟩]

theorem roundReads_inBounds (more : src + 1 < n) : ∀ e ∈ roundReads mem src, InBounds n e := by
  have first : src ≤ n := by omega
  intro e member
  simp only [roundReads,List.mem_cons,List.not_mem_nil,or_false] at member
  rcases member with rfl | rfl | rfl
  · exact first
  · exact first
  · exact Nat.le_of_lt more

theorem pairLoop_refuses (string : CString mem n) (fuel dest : Nat) (array : SmbusDtype) (more : src + 1 < n)
    (refused : parseUint8Hex b [mem src,mem (src + 1)] = .error (.complain message)) :
    LoopDone b mem n src dest array ((pairLoop b (fuel + 1) src dest).exec (inMemory mem) array) := by
  have ran : (pairLoop b (fuel + 1) src dest).exec (inMemory mem) array =
      ⟨roundReads mem src,.ok (.error message),array⟩ := by
    rw [pairLoop,charAt_exec,if_neg (string.inside src (by omega)),charAt_exec,charAt_exec,nibble_pair string more,refused]
    rfl
  rw [ran]
  refine ⟨roundReads_inBounds more,⟨.error message,rfl,?_⟩,?_⟩
  · rw [textFrom_pair more,parsePairs,refused]
    rfl
  · intro complete
    cases complete

theorem pairLoop_stores (string : CString mem n) (fuel dest : Nat) (array : SmbusDtype) (more : src + 1 < n)
    (room : dest < blockMax) (taken : parseUint8Hex b [mem src,mem (src + 1)] = .ok byte)
    (later : LoopDone b mem n (src + 2) (dest + 1) (array.patch dest [byte])
      ((pairLoop b fuel (src + 2) (dest + 1)).exec (inMemory mem) (array.patch dest [byte]))) :
    LoopDone b mem n src dest array ((pairLoop b (fuel + 1) src dest).exec (inMemory mem) array) := by
  have ran : (pairLoop b (fuel + 1) src dest).exec (inMemory mem) array =
      ((pairLoop b fuel (src + 2) (dest + 1)).exec (inMemory mem) (array.patch dest [byte])).prepend
        (roundReads mem src ++ [⟨.put dest byte,()⟩]) := by
    rw [pairLoop,charAt_exec,if_neg (string.inside src (by omega)),charAt_exec,charAt_exec,nibble_pair string more,taken]
    dsimp only
    rw [putAt_exec]
    rfl
  have inside : dest < 34 := lt_trans room (by decide)
  obtain ⟨result,ended,same⟩ := later.ended
  rw [ran]
  refine ⟨?_,⟨result,ended,?_⟩,?_⟩
  · intro e member
    rcases List.mem_append.mp member with now | rest
    · rcases List.mem_append.mp now with read | put
      · exact roundReads_inBounds more e read
      · rcases List.mem_singleton.mp put with rfl
        exact room
    · exact later.bounds e rest
  · rw [textFrom_pair more,parsePairs,taken]
    exact (if_pos inside).trans same
  · intro complete
    obtain ⟨indices,clear⟩ := later.filled complete
    have left : (n - src) / 2 = (n - (src + 2)) / 2 + 1 := by omega
    rw [left]
    refine ⟨?_,?_⟩
    · rw [List.range'_succ,← indices]
      rfl
    · intro i past
      exact clear i (by omega)

theorem pairLoop_done (string : CString mem n) (fuel src dest : Nat) (array : SmbusDtype) (inv : LoopInv n src dest array)
    (enough : (n - src) / 2 < fuel) :
    LoopDone b mem n src dest array ((pairLoop b fuel src dest).exec (inMemory mem) array) := by
  induction fuel generalizing src dest array with
  | zero => omega
  | succ fuel ih =>
    by_cases last : src = n
    · subst last
      exact pairLoop_over b string fuel dest array inv
    · obtain ⟨more,room,_⟩ := inv.step last 0
      cases parsed : parseUint8Hex b [mem src,mem (src + 1)] with
      | error stop =>
        obtain ⟨message,rfl⟩ := parseUint8Hex_complains parsed
        exact pairLoop_refuses b string fuel dest array more parsed
      | ok byte =>
        have next := (inv.step last byte).2.2
        exact pairLoop_stores b string fuel dest array more room parsed (ih _ _ _ next (by omega))

-- The prefix: it is looked for within the string, and is the one that is
-- stripped off the text.
def hexAt (mem : Nat → Char) : Bool := mem 0 = '0' && (mem 1 = 'x' || mem 1 = 'X')

theorem startsHex_exec (mem : Nat → Char) (long : 0 < n) (array : SmbusDtype) :
    ∃ trace, startsHex.exec (inMemory mem) array = ⟨trace,.ok (hexAt mem),array⟩ ∧ (∀ e ∈ trace, InBounds n e) ∧
      putIndices trace = [] := by
  unfold startsHex hexAt
  rw [charAt_exec]
  by_cases zero : mem 0 = '0'
  · rw [if_pos zero,charAt_exec]
    by_cases lower : mem 1 = 'x'
    · rw [if_pos lower]
      refine ⟨[⟨.char 0,mem 0⟩,⟨.char 1,mem 1⟩],by simp [zero,lower,Run.prepend],?_,rfl⟩
      simp [InBounds]
      omega
    · rw [if_neg lower,charAt_exec]
      refine ⟨[⟨.char 0,mem 0⟩,⟨.char 1,mem 1⟩,⟨.char 1,mem 1⟩],by simp [zero,lower,Run.prepend],?_,rfl⟩
      simp [InBounds]
      omega
  · rw [if_neg zero]
    refine ⟨[⟨.char 0,mem 0⟩],by simp [zero,Run.prepend],?_,rfl⟩
    simp [InBounds]

def srcOf (mem : Nat → Char) : Nat := if hexAt mem then 2 else 0

theorem left_of_src (mem : Nat → Char) (long : 1 < n) :
    (if hexAt mem then (n : Int) - 2 else n) = ((n - srcOf mem : Nat) : Int) := by
  unfold srcOf
  split
  · omega
  · omega

theorem srcOf_inside (mem : Nat → Char) (long : 1 < n) : srcOf mem ≤ n ∧ (n - srcOf mem) % 2 = n % 2 := by
  unfold srcOf
  split
  · omega
  · omega

theorem stripPrefix_textFrom (long : 1 < n) (len : Int) :
    stripPrefix (textFrom mem 0 n) len =
      (textFrom mem (srcOf mem) (n - srcOf mem),if hexAt mem then len - 2 else len) := by
  have front : textFrom mem 0 n = mem 0 :: mem 1 :: textFrom mem 2 (n - 2) := textFrom_pair (by omega)
  rw [front]
  unfold stripPrefix srcOf hexAt
  split
  · rename_i x src same
    obtain ⟨zero,tail⟩ := List.cons.inj same
    obtain ⟨rfl,rfl⟩ := List.cons.inj tail
    by_cases letter : mem 1 = 'x' ∨ mem 1 = 'X'
    · simp [letter,zero]
    · simp [letter,front]
  · rename_i other
    have zero : mem 0 ≠ '0' := fun zero => other (mem 1) _ (by rw [zero])
    simp [zero,front]

def returned (params : SmbusOpParams) (result : Except Message Int) (array : SmbusDtype) : Parse SmbusOpParams :=
  match result with
  | .ok len => .ok {params with data := array,len := len}
  | .error message => .error (.complain message)

structure BranchDone (b : Build) (mem : Nat → Char) (n : Nat) (params : SmbusOpParams)
    (run : Run Cells Fault (Except Message Int) SmbusDtype) : Prop where
  bounds : ∀ e ∈ run.trace, InBounds n e
  ended : ∃ result, run.outcome = .ok result ∧
    parseBlock b (textFrom mem 0 n) {params with data := Buffer.zero} = returned params result run.state
  filled : ∀ len, run.outcome = .ok (.ok len) → ∃ count : Nat, len = count ∧ count ≤ blockMax ∧
    putIndices run.trace = List.range count ∧ ∀ i : Fin 34, count ≤ i.val → run.state i = 0

theorem textFrom_length (src count : Nat) : (textFrom mem src count).length = count := by
  rw [textFrom,List.length_map,List.length_range']

theorem branch_refused (params : SmbusOpParams) {run : Run Cells Fault (Except Message Int) SmbusDtype}
    (bounds : ∀ e ∈ run.trace, InBounds n e) (stopped : run.outcome = .ok (.error message))
    (refused : parseBlock b (textFrom mem 0 n) {params with data := Buffer.zero} = .error (.complain message)) :
    BranchDone b mem n params run := by
  refine ⟨bounds,⟨.error message,stopped,refused⟩,?_⟩
  intro len complete
  cases stopped.symm.trans complete

theorem blockBranch_exec (string : CString mem n) (short : n ≤ intMax) (fuel : Nat) (enough : n < fuel) (array : SmbusDtype) :
    (blockBranch b fuel).exec (inMemory mem) array =
      ((if (n : Int) ≤ 0 ∨ (n : Int) % 2 ≠ 0 then .done (.error (.dataLength n)) else blockPairs b fuel n :
        Touch (Except Message Int)).exec (inMemory mem) Buffer.zero).prepend
        ((⟨.clear,()⟩ : Event Cells) :: strlenReads mem 0 (n + 1)) := by
  have clears : inMemory mem .clear array = ((),Buffer.zero) := rfl
  have counted := strlenFrom_exec string fuel 0 (Nat.zero_le n) enough Buffer.zero
  unfold blockBranch
  rw [Prog.call_bind,Prog.exec_step clears,Prog.done_bind,Prog.exec_seq counted,toInt_of_small short]
  rfl

theorem strlenReads_inBounds (n : Nat) : ∀ e ∈ strlenReads mem 0 (n + 1), InBounds n e := by
  intro e member
  obtain ⟨index,inside,rfl⟩ := List.mem_map.mp member
  have below := (List.mem_range'_1.mp inside).2
  exact (by omega : index ≤ n)

theorem strlenReads_put (index count : Nat) : putIndices (strlenReads mem index count) = [] := by
  simp [putIndices,strlenReads,putIndex,List.filterMap_map,Function.comp_def]

theorem putIndices_append (left right : Trace Cells) : putIndices (left ++ right) = putIndices left ++ putIndices right :=
  List.filterMap_append

theorem BranchDone.prepend (done : BranchDone b mem n params run) (bounds : ∀ e ∈ before, InBounds n e)
    (quiet : putIndices before = []) : BranchDone b mem n params (run.prepend before) := by
  refine ⟨?_,done.ended,?_⟩
  · intro e member
    rcases List.mem_append.mp member with early | later
    · exact bounds e early
    · exact done.bounds e later
  · rw [Run.prepend_trace,putIndices_append,quiet]
    exact done.filled

theorem parseBlock_textFrom (mem : Nat → Char) (short : n ≤ intMax) (long : 1 < n) (even : n % 2 = 0) (params : SmbusOpParams) :
    parseBlock b (textFrom mem 0 n) params =
      if ((n - srcOf mem : Nat) : Int) / 2 > blockMax then .error (.complain .dataTooLong)
      else
        parsePairs b (textFrom mem (srcOf mem) (n - srcOf mem)) 0 params.data >>= fun array =>
          .ok {params with data := array,len := ((n - srcOf mem : Nat) : Int) / 2} := by
  have fine : ¬ ((n : Int) ≤ 0 ∨ (n : Int) % 2 ≠ 0) := by omega
  unfold parseBlock
  rw [textFrom_length,toInt_of_small short]
  dsimp only
  rw [if_neg fine,stripPrefix_textFrom long,left_of_src mem long]

theorem LoopDone.branch (done : LoopDone b mem n (srcOf mem) 0 Buffer.zero ⟨touched,.ok result,array⟩)
    (looped : (pairLoop b fuel (srcOf mem) 0).exec (inMemory mem) Buffer.zero = ⟨touched,.ok result,array⟩)
    (fits : (n - srcOf mem) / 2 ≤ blockMax) (params : SmbusOpParams)
    (parses : parseBlock b (textFrom mem 0 n) {params with data := Buffer.zero} =
      parsePairs b (textFrom mem (srcOf mem) (n - srcOf mem)) 0 Buffer.zero >>= fun array =>
        .ok {params with data := array,len := ((n - srcOf mem : Nat) : Int) / 2})
    {next : Except Message Unit → Touch (Except Message Int)}
    (complains : ∀ message, next (.error message) = .done (.error message))
    (returns : next (.ok ()) = .done (.ok (((n - srcOf mem : Nat) : Int) / 2))) :
    BranchDone b mem n params ((pairLoop b fuel (srcOf mem) 0 >>= next).exec (inMemory mem) Buffer.zero) := by
  obtain ⟨_,ended,same⟩ := done.ended
  cases ended
  have bounds := done.bounds
  rw [same] at parses
  rw [Prog.exec_seq looped]
  cases result with
  | error message =>
    rw [complains]
    exact branch_refused b params (by simpa using bounds) rfl parses
  | ok =>
    obtain ⟨indices,clear⟩ := done.filled rfl
    rw [returns]
    refine ⟨by simpa using bounds,⟨.ok (((n - srcOf mem : Nat) : Int) / 2),rfl,parses⟩,?_⟩
    intro len complete
    cases complete
    refine ⟨(n - srcOf mem) / 2,rfl,fits,?_,?_⟩
    · simpa [List.range_eq_range'] using indices
    · simpa using clear

theorem blockPairs_done (string : CString mem n) (short : n ≤ intMax) (fuel : Nat) (enough : n < fuel) (long : 1 < n)
    (even : n % 2 = 0) (params : SmbusOpParams) :
    BranchDone b mem n params ((blockPairs b fuel n).exec (inMemory mem) Buffer.zero) := by
  obtain ⟨trace,ran,bounds,quiet⟩ := startsHex_exec mem (show 0 < n by omega) Buffer.zero
  have parses := parseBlock_textFrom b mem short long even {params with data := Buffer.zero}
  obtain ⟨within,parity⟩ := srcOf_inside mem long
  unfold blockPairs
  rw [Prog.exec_seq ran]
  apply BranchDone.prepend b _ bounds quiet
  change BranchDone b mem n params (Prog.exec (inMemory mem)
    (if (if hexAt mem then (n : Int) - 2 else n) / 2 > blockMax then _ else _) _)
  rw [left_of_src mem long]
  split
  · rename_i tooLong
    rw [if_pos tooLong] at parses
    exact branch_refused b params (by simp) rfl parses
  · rename_i fits
    rw [if_neg fits] at parses
    have room : 0 + (n - srcOf mem) / 2 ≤ blockMax := by omega
    have inv : LoopInv n (srcOf mem) 0 Buffer.zero := ⟨within,parity.trans even,room,fun _ _ => rfl⟩
    have done := pairLoop_done b string fuel (srcOf mem) 0 Buffer.zero inv (by omega)
    generalize looped : (pairLoop b fuel (srcOf mem) 0).exec (inMemory mem) Buffer.zero = run at done
    obtain ⟨touched,outcome,array⟩ := run
    obtain ⟨result,ended,_⟩ := done.ended
    cases ended
    exact done.branch b looped (by omega) params parses (fun _ => rfl) rfl

theorem blockBranch_done (string : CString mem n) (short : n ≤ intMax) (fuel : Nat) (enough : n < fuel)
    (array : SmbusDtype) (params : SmbusOpParams) :
    BranchDone b mem n params ((blockBranch b fuel).exec (inMemory mem) array) := by
  rw [blockBranch_exec b string short fuel enough array]
  have bounds : ∀ e ∈ (⟨.clear,()⟩ : Event Cells) :: strlenReads mem 0 (n + 1), InBounds n e := by
    intro e member
    rcases List.mem_cons.mp member with rfl | read
    · trivial
    · exact strlenReads_inBounds n e read
  apply BranchDone.prepend b _ bounds (strlenReads_put 0 (n + 1))
  split
  · rename_i wrong
    refine branch_refused b params (by simp) rfl ?_
    unfold parseBlock
    rw [textFrom_length,toInt_of_small short]
    exact if_pos wrong
  · rename_i fine
    exact blockPairs_done b string short fuel enough (by omega) (by omega) params

end String

-- The branch ends, reads no character behind the NUL and writes no byte behind
-- a block. What it returns is what the text of the string is parsed to, and
-- when it complains of nothing, len counts the bytes it wrote.
theorem block_loop_safe (b : Build) (mem : Nat → Char) (n : Nat) (string : CString mem n) (short : n ≤ intMax)
    (array : SmbusDtype) (fuel : Nat) (enough : n < fuel) (params : SmbusOpParams) (size : SmbusSize)
    (block : size = .block ∨ size = .blockProcCall ∨ size = .writeRead) :
    let run := (blockBranch b fuel).exec (inMemory mem) array
    (∃ result, run.outcome = .ok result ∧
      parseIoWidth b (textFrom mem 0 n) params size = returned params result run.state) ∧
    (∀ e ∈ run.trace, InBounds n e) ∧
    ∀ len, run.outcome = .ok (.ok len) →
      (putIndices run.trace).length = len ∧ len ≤ 32 ∧ ∀ i : Fin 34, len ≤ i.val → run.state i = 0 := by
  intro run
  have done : BranchDone b mem n params run := blockBranch_done b string short fuel enough array params
  have sized : size.isBlock = true := by
    rcases block with rfl | rfl | rfl
    · rfl
    · rfl
    · rfl
  obtain ⟨result,ended,same⟩ := done.ended
  refine ⟨⟨result,ended,(parseIoWidth_block sized).trans same⟩,done.bounds,?_⟩
  intro len complete
  obtain ⟨count,rfl,small,indices,clear⟩ := done.filled len complete
  rw [indices,List.length_range]
  refine ⟨rfl,Int.ofNat_le.mpr small,?_⟩
  intro i past
  exact clear i (Int.ofNat_le.mp past)

-- Behind the string there is more that would be taken for digits.
theorem block_loop_safe_hex :
    let mem : Nat → Char := fun i => "0x12ab\x0034".toList.getD i '5'
    let run := (blockBranch .x86_64 7).exec (inMemory mem) (fun _ => 255)
    run.outcome = .ok (.ok 2) ∧ (∀ e ∈ run.trace, InBounds 6 e) ∧ (putIndices run.trace).length = 2 := by
  intro mem run
  have string : CString mem 6 := ⟨by decide,by decide⟩
  have safe := block_loop_safe .x86_64 mem 6 string (by decide) (fun _ => 255) 7 (by decide) .zero .block (.inl rfl)
  have ended : run.outcome = .ok (.ok 2) := by decide +kernel
  exact ⟨ended,safe.2.1,Int.ofNat.inj (safe.2.2 2 ended).1⟩

end Iotools
