import Mathlib.Data.List.Perm.Basic
import Iotools.PciAccess

namespace Iotools
open Bytes Numeral Interaction

theorem lines_unique {left right : List Text} (whole : ∀ line ∈ left, IsLine line) (whole' : ∀ line ∈ right, IsLine line)
    (same : left.flatten = right.flatten) : left = right := by
  induction left generalizing right with
  | nil =>
    cases right with
    | nil => rfl
    | cons line rest =>
      obtain ⟨body,_,rfl⟩ := whole' line (by simp)
      simp at same
  | cons line rest ih =>
    obtain ⟨body,plain,rfl⟩ := whole line (by simp)
    cases right with
    | nil => simp at same
    | cons line' rest' =>
      obtain ⟨body',plain',rfl⟩ := whole' line' (by simp)
      simp only [List.flatten_cons,List.append_assoc,List.cons_append,List.nil_append] at same
      obtain ⟨rfl,tails⟩ := (separated_inj plain plain').mp same
      rw [ih (fun line member => whole line (by simp [member])) (fun line member => whole' line (by simp [member])) tails]

-- The numbers of a line, as a user copies them to another command.
def numbers (line : Text) : List Text := (line.takeWhile (· ≠ '\n')).splitOn ' '

theorem pciLine_eq (bus dev func : Int) :
    pciLine bus dev func = decimal bus ++ ' ' :: (decimal dev ++ ' ' :: decimal func) ++ ['\n'] := by
  have space : " ".toList = [' '] := rfl
  have newline : "\n".toList = ['\n'] := rfl
  simp [pciLine,space,newline]

theorem pciLine_body (bus dev func : Int) : '\n' ∉ decimal bus ++ ' ' :: (decimal dev ++ ' ' :: decimal func) := by
  have absent (value : Int) : '\n' ∉ decimal value := decimal_plain value rfl (by decide)
  simp [absent]

theorem pciLine_isLine (bus dev func : Int) : IsLine (pciLine bus dev func) := ⟨_,pciLine_body bus dev func,pciLine_eq ..⟩

theorem numbers_pciLine (bus dev func : Int) : numbers (pciLine bus dev func) = [decimal bus,decimal dev,decimal func] := by
  have body : (pciLine bus dev func).takeWhile (· ≠ '\n') = decimal bus ++ ' ' :: (decimal dev ++ ' ' :: decimal func) := by
    have plain : ∀ c ∈ decimal bus ++ ' ' :: (decimal dev ++ ' ' :: decimal func), decide (c ≠ '\n') = true := by
      intro c member
      simpa using fun same : c = '\n' => pciLine_body bus dev func (same ▸ member)
    rw [pciLine_eq,List.takeWhile_append_of_pos plain]
    simp
  have single (value : Int) : (decimal value).splitOnP (· == ' ') = [decimal value] := by
    apply List.splitOnP_eq_singleton
    intro c member
    simpa using fun same : c = ' ' => decimal_plain value rfl (by decide) (same ▸ member)
  have split (text rest : Text) : (text ++ ' ' :: rest).splitOnP (· == ' ') =
      text.splitOnP (· == ' ') ++ rest.splitOnP (· == ' ') := List.splitOnP_append_cons text rest (by rfl)
  unfold numbers
  rw [body]
  show List.splitOnP _ _ = _
  rw [split,split,single,single,single]
  rfl

theorem scanHex_digits {digits : Text} (nonempty : digits ≠ []) (all : ∀ c ∈ digits, isDigit 16 c = true) (rest : Text)
    (field : width = digits.length ∨ width = 0 ∧ rest = []) :
    scanHex width (digits ++ rest) = some (toInt (magnitude 16 digits),rest) := by
  have found : subject 16 digits = some ⟨false,magnitude 16 digits,[]⟩ := by
    apply subject_digits digits nonempty all
    simp [radix,hexPrefix_digits all]
  have taken : (if width = 0 then digits ++ rest else (digits ++ rest).take width) = digits := by
    cases field with
    | inl exact_ =>
      have positive : width ≠ 0 := by
        rw [exact_]
        simpa using nonempty
      rw [if_neg positive,exact_,List.take_left]
    | inr open_ =>
      rw [if_pos open_.1,open_.2,List.append_nil]
  have left : (digits ++ rest).drop digits.length = rest := List.drop_left
  obtain ⟨c,more,rfl⟩ := List.exists_cons_of_ne_nil nonempty
  obtain ⟨space,minus,plus⟩ := isDigit_plain (all c (by simp))
  have opened : (c :: more ++ rest).dropWhile isSpace = c :: more ++ rest := by simp [space]
  have signed : sign (c :: more) = (false,c :: more) := by
    unfold sign
    split <;> simp_all
  unfold scanHex
  simp only [opened,taken,signed,found,left,hexPrefix_digits all,List.nil_append]
  split
  · rename_i x tail _ same
    cases same
    exact absurd (all 'x' (by simp)) (by decide)
  · rename_i x tail _ same
    cases same
    exact absurd (all 'X' (by simp)) (by decide)
  · rfl

theorem scanHex_hexLower (positive : 0 < width) (small : value < 16 ^ width) (rest : Text) :
    scanHex width (hexLower width value ++ rest) = some (toInt value,rest) := by
  have scanned := scanHex_digits (hexLower_ne_nil width value) (hexLower_isDigit width value) rest
    (.inl (hexLower_length positive small).symm)
  rwa [magnitude_hexLower] at scanned

def PciFunction.InRange (d : PciFunction) : Prop := d.bus ≤ 0xff ∧ d.dev ≤ 0x1f ∧ d.func ≤ 7

theorem scan_name (d : PciFunction) (fits : d.InRange) (segment : d.seg ≤ 0xffff) :
    scanSysfsName d.name = some ((d.seg : Int),(d.bus : Int),(d.dev : Int),(d.func : Int)) := by
  obtain ⟨bus,dev,func⟩ := fits
  have last : scanHex 0 (hexLower 0 d.func) = some (toInt d.func,[]) := by
    have scanned := scanHex_digits (hexLower_ne_nil 0 d.func) (hexLower_isDigit 0 d.func) []
      (.inr ⟨rfl,rfl⟩)
    rwa [List.append_nil,magnitude_hexLower] at scanned
  have plain {value : Nat} (small : value ≤ 0xffff) : toInt value = value := toInt_of_small (le_trans small (by decide))
  unfold PciFunction.name scanSysfsName
  rw [pciName_eq,scanHex_hexLower (by decide) (by omega)]
  simp only [Option.bind_eq_bind,Option.bind_some,scanChar,if_true]
  rw [scanHex_hexLower (by decide) (by omega)]
  simp only [Option.bind_some,if_true]
  rw [scanHex_hexLower (by decide) (by omega)]
  simp only [Option.bind_some,if_true]
  rw [last,plain segment,plain (by omega),plain (by omega),plain (by omega)]
  rfl

-- The line pci_list_sysfs prints for a directory entry, if any.
def entryLine (name : Text) : Option Text := (scanSysfsName name).map (fun found => pciLine found.2.1 found.2.2.1 found.2.2.2)

theorem entryLine_isLine (printed : entryLine name = some line) : ∃ bus dev func, line = pciLine bus dev func := by
  obtain ⟨found,_,rfl⟩ := Option.map_eq_some_iff.mp printed
  exact ⟨_,_,_,rfl⟩

theorem listSysfsEntries_all (entries : List Dirent) : (listSysfsEntries entries).All (fun trace outcome =>
    outcome = .ok () ∧ printed trace = (entries.filterMap (fun de => entryLine de.name)).flatten) := by
  induction entries with
  | nil => exact ⟨rfl,rfl⟩
  | cons de rest ih =>
    unfold listSysfsEntries
    cases scanned : scanSysfsName de.name with
    | none =>
      have skipped : entryLine de.name = none := by simp [entryLine,scanned]
      simpa [skipped] using ih
    | some found =>
      have line : entryLine de.name = some (pciLine found.2.1 found.2.2.1 found.2.2.2) := by simp [entryLine,scanned]
      simp only [List.filterMap_cons,line,List.flatten_cons]
      intro _
      refine ih.mono ?_
      intro trace outcome rest_
      exact ⟨rest_.1,by rw [printed_cons,rest_.2]; rfl⟩

theorem pciListSysfs_exec (kernel : Kernel Sys σ) (s : σ)
    (answers : (kernel (.opendir sysfsBaseDir) s).1 = some entries) :
    (pciListSysfs.exec kernel s).outcome = .ok 0 ∧
    printed (pciListSysfs.exec kernel s).trace = (entries.filterMap (fun de => entryLine de.name)).flatten := by
  have body : (listSysfsEntries entries >>= fun _ => ask (.closedir sysfsBaseDir) >>= fun _ => .done (0 : Int)).All
      (fun trace outcome => outcome = .ok 0 ∧
        printed trace = (entries.filterMap (fun de => entryLine de.name)).flatten) := by
    apply (listSysfsEntries_all entries).bind
    · intro trace reason failed
      cases failed.1
    · intro trace value done _
      refine ⟨rfl,?_⟩
      rw [printed_append,done.2]
      simp [output]
  have run := body.exec kernel (kernel (.opendir sysfsBaseDir) s).2
  unfold pciListSysfs
  rw [Prog.call_bind,Prog.exec_call,answers]
  exact run

-- A line describes a function when its numbers, put in front of a register,
-- make the read and the write commands open that function's file.
def Describes (b : Build) (line : Text) (d : PciFunction) : Prop :=
  IsLine line ∧ ∃ args : List Arg, args.map Arg.text = numbers line ∧ ∀ name reg data : Arg, ∃ address,
    pciAddress b (name :: args ++ [reg]) (5 < (name :: args ++ [reg]).length) = .done address ∧
    pciAddress b (name :: args ++ [reg,data]) (6 < (name :: args ++ [reg,data]).length) = .done address ∧
    sysfsFile address.seg address.bus address.dev address.func = sysfsFile d.seg d.bus d.dev d.func

def Listed (b : Build) (devices : List PciFunction) (text : Text) : Prop :=
  ∃ (line : PciFunction → Text) (order : List PciFunction), order.Perm devices ∧ text = (order.map line).flatten ∧
    (∀ d ∈ devices, ∀ e ∈ devices, line d = line e → d = e) ∧ ∀ d ∈ devices, Describes b (line d) d

theorem arg_ext : Function.Injective Arg.text := by
  intro left right same
  cases left
  cases right
  cases same
  rfl

-- The line has three numbers, so the segment that is opened is the default one.
theorem described_segment (described : Describes b (pciLine bus dev func) d) : d.seg = 0 := by
  obtain ⟨_,args,texts,addresses⟩ := described
  rw [numbers_pciLine] at texts
  have three : args.length = 3 := by
    have counted := congrArg List.length texts
    simpa using counted
  obtain ⟨first,second,third,rfl⟩ := List.length_eq_three.mp three
  obtain ⟨address,read,_,opens⟩ := addresses first first first
  cases read
  have same := (sysfs_inj ⟨0,_,_,_⟩ d).mp opens
  rw [← same]

theorem describes_inj (first : Describes b line d) (second : Describes b line e) : d = e := by
  obtain ⟨_,args,texts,addresses⟩ := first
  obtain ⟨_,args',texts',addresses'⟩ := second
  have same : args = args' := by
    apply List.map_injective_iff.mpr arg_ext
    rw [texts,texts']
  subst same
  obtain ⟨address,read,_,opens⟩ := addresses (.of "") (.of "") (.of "")
  obtain ⟨address',read',_,opens'⟩ := addresses' (.of "") (.of "") (.of "")
  rw [read] at read'
  cases read'
  exact (sysfs_inj d e).mp (opens.symm.trans opens')

theorem strtolLong_decimal (b : Build) {value : Nat} (small : value < 2 ^ 31) : (strtolLong b 0 (decimal value)).1 = value := by
  have found := (decimal_literal value).subject
  have bits : b.long.bits = 32 ∨ b.long.bits = 64 := by cases b.long <;> simp [WordSize.bits]
  unfold strtolLong strtol
  rw [found]
  rcases bits with width | width <;> rw [width] <;> simp <;> omega

theorem strtoulLong_decimal (b : Build) {value : Nat} (small : value < 2 ^ 31) : (strtoulLong b 0 (decimal value)).1 = value := by
  have fits : value < 2 ^ b.long.bits := by
    cases b.long
    · simp only [WordSize.bits]; omega
    · simp only [WordSize.bits]; omega
  rw [strtoulLong,(decimal_literal value).strtoul fits]

def decimalArg (value : Nat) (small : value < 2 ^ 31) : Arg where
  text := decimal value
  noNul := decimal_plain value rfl (by decide)
  short := by
    have length := Nat.toDigits_length 10 value 10 (by decide) (by omega)
    have plain : decimal value = Nat.toDigits 10 value := by simp [decimal]
    rw [plain]
    exact le_trans length (by decide)

theorem describes_default (b : Build) (d : PciFunction) (fits : d.InRange) (default_ : d.seg = 0) :
    Describes b (pciLine d.bus d.dev d.func) d := by
  obtain ⟨bus,dev,func⟩ := fits
  have busSmall : d.bus < 2 ^ 31 := by omega
  have devSmall : d.dev < 2 ^ 31 := by omega
  have funcSmall : d.func < 2 ^ 31 := by omega
  refine ⟨pciLine_isLine ..,[decimalArg d.bus busSmall,decimalArg d.dev devSmall,decimalArg d.func funcSmall],?_,?_⟩
  · rw [numbers_pciLine]
    rfl
  · intro name reg data
    have busValue : toUnsigned (strtolLong b 0 (decimal d.bus)).1 = d.bus := by
      rw [strtolLong_decimal b busSmall]
      unfold toUnsigned
      omega
    have devValue : (strtoulLong b 0 (decimal d.dev)).1 % 2 ^ 32 = d.dev := by
      rw [strtoulLong_decimal b devSmall]
      omega
    have funcValue : (strtoulLong b 0 (decimal d.func)).1 % 2 ^ 32 = d.func := by
      rw [strtoulLong_decimal b funcSmall]
      omega
    refine ⟨_,rfl,rfl,?_⟩
    simp only [default_]
    show sysfsFile 0 (toUnsigned (strtolLong b 0 (decimal d.bus)).1) ((strtoulLong b 0 (decimal d.dev)).1 % 2 ^ 32)
      ((strtoulLong b 0 (decimal d.func)).1 % 2 ^ 32) = _
    rw [busValue,devValue,funcValue]

-- A directory as readdir returns it: the functions' names in any order, and the
-- entries for the directory itself and its parent.
def Holds (entries : List Dirent) (devices : List PciFunction) : Prop :=
  ∃ dots : List Text, (∀ name ∈ dots, name = ".".toList ∨ name = "..".toList) ∧
    (entries.map Dirent.name).Perm (devices.map PciFunction.name ++ dots)

theorem entryLine_name {d : PciFunction} (fits : d.InRange) (default_ : d.seg = 0) :
    entryLine d.name = some (pciLine d.bus d.dev d.func) := by
  rw [entryLine,scan_name d fits (by omega)]
  rfl

theorem entryLines_default (held : Holds entries devices) (fits : ∀ d ∈ devices, d.InRange)
    (default_ : ∀ d ∈ devices, d.seg = 0) :
    (entries.filterMap (fun de => entryLine de.name)).Perm (devices.map (fun d => pciLine d.bus d.dev d.func)) := by
  obtain ⟨dots,parents,perm⟩ := held
  have skipped : dots.filterMap entryLine = [] := by
    apply List.filterMap_eq_nil_iff.mpr
    intro name member
    rcases parents name member with rfl | rfl <;> decide
  have listed : (devices.map PciFunction.name).filterMap entryLine = devices.map (fun d => pciLine d.bus d.dev d.func) := by
    rw [List.filterMap_map,← List.filterMap_eq_map]
    apply List.filterMap_congr
    intro d member
    exact entryLine_name (fits d member) (default_ d member)
  have lines := perm.filterMap entryLine
  rw [List.filterMap_append,skipped,listed,List.append_nil,List.filterMap_map] at lines
  exact lines

-- The listing as it is: lines of three numbers, so a function of another segment
-- is never described.
theorem listed_iff (b : Build) (fits : ∀ d ∈ devices, d.InRange) (held : Holds entries devices) :
    Listed b devices (entries.filterMap (fun de => entryLine de.name)).flatten ↔ ∀ d ∈ devices, d.seg = 0 := by
  constructor
  · rintro ⟨line,order,perm,text,_,describes⟩ d member
    have whole : ∀ printed ∈ entries.filterMap (fun de => entryLine de.name), IsLine printed := by
      intro printed listed
      obtain ⟨de,_,found⟩ := List.mem_filterMap.mp listed
      obtain ⟨bus,dev,func,rfl⟩ := entryLine_isLine found
      exact pciLine_isLine bus dev func
    have whole' : ∀ printed ∈ order.map line, IsLine printed := by
      intro printed listed
      obtain ⟨e,there,rfl⟩ := List.mem_map.mp listed
      exact (describes e (perm.mem_iff.mp there)).1
    have same := lines_unique whole whole' text
    have shown : line d ∈ entries.filterMap (fun de => entryLine de.name) := by
      rw [same]
      exact List.mem_map_of_mem (perm.mem_iff.mpr member)
    obtain ⟨de,_,found⟩ := List.mem_filterMap.mp shown
    obtain ⟨bus,dev,func,isPciLine⟩ := entryLine_isLine found
    have described := describes d member
    rw [isPciLine] at described
    exact described_segment described
  · intro default_
    have arranged := congrFun₂ (List.eq_map_comp_perm (fun d : PciFunction => pciLine d.bus d.dev d.func))
      (entries.filterMap (fun de => entryLine de.name)) devices
    obtain ⟨order,text,perm⟩ := arranged.mpr (entryLines_default held fits default_)
    refine ⟨fun d => pciLine d.bus d.dev d.func,order,perm,by rw [text],?_,?_⟩
    · intro d member e member' same
      dsimp only at same
      have first := describes_default b d (fits d member) (default_ d member)
      have second := describes_default b e (fits e member') (default_ e member')
      rw [← same] at second
      exact describes_inj first second
    · intro d member
      exact describes_default b d (fits d member) (default_ d member)

-- pci_list_sysfs lists its devices as the other commands address them exactly
-- when all of them are in segment 0.
theorem pci_list_iff (b : Build) (devices : List PciFunction) (fits : ∀ d ∈ devices, d.InRange)
    (entries : List Dirent) (held : Holds entries devices) (kernel : Kernel Sys σ) (s : σ)
    (answers : (kernel (.opendir sysfsBaseDir) s).1 = some entries) :
    Listed b devices (printed (pciListSysfs.exec kernel s).trace) ↔ ∀ d ∈ devices, d.seg = 0 := by
  rw [(pciListSysfs_exec kernel s answers).2]
  exact listed_iff b fits held

def sysfsEntries (devices : List PciFunction) : List Dirent :=
  ⟨".".toList,true⟩ :: ⟨"..".toList,true⟩ :: devices.map (fun d => ⟨d.name,false⟩)

theorem sysfsEntries_holds (devices : List PciFunction) : Holds (sysfsEntries devices) devices := by
  refine ⟨[".".toList,"..".toList],by simp,?_⟩
  have names : (sysfsEntries devices).map Dirent.name = [".".toList,"..".toList] ++ devices.map PciFunction.name := by
    simp [sysfsEntries]
  rw [names]
  exact List.perm_append_comm

def listing (entries : List Dirent) : Kernel Sys Unit := fun c s =>
  match c with
  | .opendir _ => (some entries,s)
  | c => (c.succeeds,s)

theorem pci_list_drops_segment :
    let devices : List PciFunction := [⟨0,0,0x1f,3⟩,⟨1,0,0x1f,3⟩]
    let run := pciListSysfs.exec (listing (sysfsEntries devices)) ()
    devices.Nodup ∧ (∀ d ∈ devices, d.InRange) ∧ Holds (sysfsEntries devices) devices ∧
    printed run.trace = "0 31 3\n0 31 3\n".toList ∧ ¬ Listed .x86_64 devices (printed run.trace) := by
  intro devices run
  have fits : ∀ d ∈ devices, d.InRange := by
    intro d member
    rcases List.mem_pair.mp member with rfl | rfl <;> exact ⟨by decide,by decide,by decide⟩
  have held := sysfsEntries_holds devices
  refine ⟨by decide,fits,held,by decide +kernel,?_⟩
  intro listed
  rw [(pciListSysfs_exec (listing (sysfsEntries devices)) () rfl).2] at listed
  have zero := (listed_iff .x86_64 fits held).mp listed ⟨1,0,0x1f,3⟩ (by decide)
  cases zero

theorem pci_list_iff_segment0 :
    let devices : List PciFunction := [⟨0,0xff,0x1f,7⟩,⟨0,0xff,0x1f,0⟩]
    let run := pciListSysfs.exec (listing (sysfsEntries devices)) ()
    printed run.trace = "255 31 7\n255 31 0\n".toList ∧ Listed .i386 devices (printed run.trace) := by
  intro devices run
  refine ⟨by decide +kernel,?_⟩
  have fits : ∀ d ∈ devices, d.InRange := by
    intro d member
    rcases List.mem_pair.mp member with rfl | rfl <;> exact ⟨by decide,by decide,by decide⟩
  exact (pci_list_iff .i386 devices fits (sysfsEntries devices) (sysfsEntries_holds devices)
    (listing (sysfsEntries devices)) () rfl).mpr (by decide)

end Iotools
