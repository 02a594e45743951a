import Mathlib.Data.List.Dedup
import Mathlib.Data.List.Induction
import Mathlib.Tactic.Ring
import Iotools.PciList

namespace Iotools
open Bytes Numeral Interaction

-- The elements of a list, sorted into groups by a key that takes each value of
-- a list of keys once.
theorem groups_perm [DecidableEq κ] (key : α → κ) {keys : List κ} (distinct : keys.Nodup) {items : List α}
    (covered : ∀ item ∈ items, key item ∈ keys) :
    (keys.flatMap (fun k => items.filter (fun item => key item = k))).Perm items := by
  induction keys generalizing items with
  | nil =>
    have none_ : items = [] := List.eq_nil_iff_forall_not_mem.mpr (fun item member => by simpa using covered item member)
    simp [none_]
  | cons k rest ih =>
    obtain ⟨fresh,distinct'⟩ := List.nodup_cons.mp distinct
    let others := items.filter (fun item => !decide (key item = k))
    have covered' : ∀ item ∈ others, key item ∈ rest := by
      intro item member
      obtain ⟨there,other⟩ := List.mem_filter.mp member
      have different : key item ≠ k := by simpa using other
      exact (List.mem_cons.mp (covered item there)).resolve_left different
    have same : rest.flatMap (fun k' => items.filter (fun item => key item = k')) =
        rest.flatMap (fun k' => others.filter (fun item => key item = k')) := by
      apply congrArg List.flatten
      apply List.map_congr_left
      intro k' member
      have different : k' ≠ k := fun same => fresh (same ▸ member)
      rw [List.filter_filter]
      apply List.filter_congr
      intro item _
      by_cases here : key item = k' <;> simp [here,different]
    rw [List.flatMap_cons,same]
    exact ((ih distinct' covered').append_left _).trans (List.filter_append_perm _ _)

theorem magnitude_lt {digits : Text} (all : ∀ c ∈ digits, isDigit 16 c = true) : magnitude 16 digits < 16 ^ digits.length := by
  induction digits using List.reverseRecOn with
  | nil => simp [magnitude]
  | append_singleton digits c ih =>
    have low := ih (fun c' member => all c' (by simp [member]))
    have digit : (digitValue c).getD 0 < 16 := by
      have last := all c (by simp)
      unfold isDigit at last
      split at last
      · rename_i d found
        rw [found]
        exact of_decide_eq_true last
      · cases last
    rw [magnitude_concat,List.length_append,List.length_singleton,pow_succ]
    omega

theorem magnitude_split (left right : Text) :
    magnitude 16 (left ++ right) = magnitude 16 left * 16 ^ right.length + magnitude 16 right := by
  induction right using List.reverseRecOn with
  | nil => simp [magnitude]
  | append_singleton digits c ih =>
    rw [← List.append_assoc,magnitude_concat,ih,magnitude_concat,List.length_append,List.length_singleton,pow_succ]
    ring

-- A field of fixed width takes the first digits of a longer number.
theorem scanHex_front {digits : Text} (all : ∀ c ∈ digits, isDigit 16 c = true) (positive : 0 < width)
    (long : width ≤ digits.length) (rest : Text) :
    scanHex width (digits ++ rest) = some (toInt (magnitude 16 (digits.take width)),digits.drop width ++ rest) := by
  have length : (digits.take width).length = width := List.length_take_of_le long
  have some_ : digits.take width ≠ [] := by
    intro none_
    rw [none_] at length
    simp at length
    omega
  have scanned := scanHex_digits some_ (fun c member => all c (List.mem_of_mem_take member)) (digits.drop width ++ rest)
    (.inl length.symm)
  rwa [← List.append_assoc,List.take_append_drop] at scanned

theorem decimal_inj {left right : Nat} (same : decimal left = decimal right) : left = right := by
  have first := (decimal_literal left).subject
  rw [same,(decimal_literal right).subject] at first
  cases first
  rfl

abbrev Shown := Nat × Nat × Nat

def shownLine (shown : Shown) : Text := pciLine shown.1 shown.2.1 shown.2.2

theorem shownLine_injective : Function.Injective shownLine := by
  rintro ⟨bus,dev,func⟩ ⟨bus',dev',func'⟩ same
  have texts := congrArg numbers same
  simp only [shownLine,numbers_pciLine,List.cons.injEq,and_true] at texts
  obtain ⟨buses,devs,funcs⟩ := texts
  rw [decimal_inj buses,decimal_inj devs,decimal_inj funcs]

def PciFunction.shown (d : PciFunction) : Shown := (d.bus,d.dev,d.func)

-- The procfs listing takes the bus from the first two digits of the directory.
def PciFunction.shownProcfs (d : PciFunction) : Shown := (magnitude 16 ((procfsDir d.seg d.bus).take 2),d.dev,d.func)

def PciFunction.file (d : PciFunction) : Text := hexLower 2 d.dev ++ ".".toList ++ hexLower 0 d.func

-- A segment of five digits does not fit the pattern of the sysfs names.
theorem scan_name_wide (d : PciFunction) (wide : 0xffff < d.seg) : scanSysfsName d.name = none := by
  have digits := hexLower_isDigit 4 d.seg
  have long : 4 < (hexLower 4 d.seg).length := by
    by_contra short
    have bound := magnitude_lt digits
    rw [magnitude_hexLower] at bound
    have most : 16 ^ (hexLower 4 d.seg).length ≤ 16 ^ 4 := Nat.pow_le_pow_right (by decide) (by omega)
    omega
  obtain ⟨c,more,tail⟩ : ∃ c more, (hexLower 4 d.seg).drop 4 = c :: more :=
    List.exists_cons_of_length_pos (by rw [List.length_drop]; omega)
  have other : c ≠ ':' := by
    rintro rfl
    have member : ':' ∈ (hexLower 4 d.seg).drop 4 := by simp [tail]
    exact colon_notMem (List.mem_of_mem_drop member)
  unfold PciFunction.name scanSysfsName
  rw [pciName_eq,scanHex_front digits (by decide) (by omega),tail]
  simp [scanChar,other]

theorem entryLine_shown (d : PciFunction) (fits : d.InRange) :
    entryLine d.name = if d.seg ≤ 0xffff then some (shownLine d.shown) else none := by
  unfold entryLine
  split
  · rename_i narrow
    rw [scan_name d fits narrow]
    rfl
  · rename_i wide
    rw [scan_name_wide d (by omega)]
    rfl

theorem scan_file (d : PciFunction) (fits : d.InRange) : scanProcfsName d.file = some ((d.dev : Int),(d.func : Int)) := by
  obtain ⟨_,dev,func⟩ := fits
  have dot : ".".toList = ['.'] := rfl
  have last : scanHex 0 (hexLower 0 d.func) = some (toInt d.func,[]) := by
    have scanned := scanHex_digits (hexLower_ne_nil 0 d.func) (hexLower_isDigit 0 d.func) [] (.inr ⟨rfl,rfl⟩)
    rwa [List.append_nil,magnitude_hexLower] at scanned
  have plain {value : Nat} (small : value ≤ 0xff) : toInt value = value := toInt_of_small (le_trans small (by decide))
  unfold PciFunction.file scanProcfsName
  rw [dot,List.append_assoc,scanHex_hexLower (by decide) (by omega)]
  simp only [Option.bind_eq_bind,Option.bind_some,List.cons_append,List.nil_append,scanChar,if_true]
  rw [last,plain (by omega),plain (by omega)]
  rfl

theorem scan_dir (seg bus : Nat) :
    ∃ rest, scanHex 2 (procfsDir seg bus) = some (((magnitude 16 ((procfsDir seg bus).take 2) : Nat) : Int),rest) := by
  have plain {digits : Text} (all : ∀ c ∈ digits, isDigit 16 c = true) :
      toInt (magnitude 16 (digits.take 2)) = (magnitude 16 (digits.take 2) : Nat) := by
    have bound := magnitude_lt (fun c (member : c ∈ digits.take 2) => all c (List.mem_of_mem_take member))
    have length : (digits.take 2).length ≤ 2 := List.length_take_le ..
    have most : 16 ^ (digits.take 2).length ≤ 16 ^ 2 := Nat.pow_le_pow_right (by decide) length
    exact toInt_of_small (le_trans (le_trans bound.le most) (by decide))
  have long {width value : Nat} (wide : 2 ≤ width) : 2 ≤ (hexLower width value).length := by
    unfold hexLower padded
    rw [List.length_append,List.length_replicate]
    omega
  unfold procfsDir
  split
  · have scanned := scanHex_front (hexLower_isDigit 2 bus) (by decide) (long (le_refl 2)) []
    rw [List.append_nil,plain (hexLower_isDigit 2 bus)] at scanned
    exact ⟨_,scanned⟩
  · have scanned := scanHex_front (hexLower_isDigit 4 seg) (by decide) (long (by decide)) (":".toList ++ hexLower 2 bus)
    rw [plain (hexLower_isDigit 4 seg)] at scanned
    rw [List.append_assoc,List.take_append_of_le_length (long (by decide))]
    exact ⟨_,scanned⟩

theorem shownProcfs_eq (d : PciFunction) (fits : d.InRange) (narrow : d.seg ≤ 0xffff) :
    d.shownProcfs = (if d.seg = 0 then d.bus else d.seg / 256,d.dev,d.func) := by
  obtain ⟨bus,_,_⟩ := fits
  unfold PciFunction.shownProcfs procfsDir
  split
  · rw [List.take_of_length_le (by rw [hexLower_length (by decide) (by omega)]),magnitude_hexLower]
  · have length : (hexLower 4 d.seg).length = 4 := hexLower_length (by decide) (by omega)
    have split := magnitude_split ((hexLower 4 d.seg).take 2) ((hexLower 4 d.seg).drop 2)
    have low := magnitude_lt (fun c (member : c ∈ (hexLower 4 d.seg).drop 2) =>
      hexLower_isDigit 4 d.seg c (List.mem_of_mem_drop member))
    rw [List.take_append_drop,magnitude_hexLower,List.length_drop,length] at split
    rw [List.length_drop,length] at low
    have front : magnitude 16 ((hexLower 4 d.seg).take 2) = d.seg / 256 := by omega
    rw [List.append_assoc,List.take_append_of_le_length (by omega),front]

-- The line for a file of a bus directory, and the lines of an entry of the base
-- directory, whose own entries `sub` gives.
def fileLine (bus : Int) (name : Text) : Option Text :=
  (scanProcfsName name).map (fun found => pciLine bus found.1 found.2)

def dirLines (sub : Text → List Dirent) (de : Dirent) : List Text :=
  match scanHex 2 de.name,de.isDir with
  | some (bus,_),true => (sub de.name).filterMap (fun file => fileLine bus file.name)
  | _,_ => []

theorem listProcfsBus_all (bus : Int) (entries : List Dirent) : (listProcfsBus bus entries).All (fun trace outcome =>
    outcome = .ok () ∧ printed trace = (entries.filterMap (fun de => fileLine bus de.name)).flatten) := by
  induction entries with
  | nil => exact ⟨rfl,rfl⟩
  | cons de rest ih =>
    unfold listProcfsBus
    cases scanned : scanProcfsName de.name with
    | none =>
      have skipped : fileLine bus de.name = none := by simp [fileLine,scanned]
      simpa [skipped] using ih
    | some found =>
      have line : fileLine bus de.name = some (pciLine bus found.1 found.2) := by simp [fileLine,scanned]
      simp only [List.filterMap_cons,line,List.flatten_cons]
      intro _
      refine ih.mono ?_
      intro trace outcome rest_
      exact ⟨rest_.1,by rw [printed_cons,rest_.2]; rfl⟩

def busPath (dir : Text) : Text := procfsBaseDir ++ "/".toList ++ dir

theorem listProcfsEntries_exec (kernel : Kernel Sys σ) (entries : List Dirent) (sub : Text → List Dirent)
    (answers : ∀ de ∈ entries, de.isDir = true → ∀ s, (kernel (.opendir (busPath de.name)) s).1 = some (sub de.name))
    (s : σ) :
    ((listProcfsEntries entries).exec kernel s).outcome = .ok 0 ∧
    printed ((listProcfsEntries entries).exec kernel s).trace = (entries.flatMap (dirLines sub)).flatten := by
  induction entries generalizing s with
  | nil => exact ⟨rfl,rfl⟩
  | cons de rest ih =>
    have later := ih (fun other member => answers other (by simp [member]))
    unfold listProcfsEntries
    split
    · rename_i bus tail found isDir
      have lines : dirLines sub de = (sub de.name).filterMap (fun file => fileLine bus file.name) := by
        simp [dirLines,found,isDir]
      have files := (listProcfsBus_all bus (sub de.name)).exec kernel (kernel (.opendir (busPath de.name)) s).2
      have opened := answers de (by simp) isDir s
      unfold busPath at files opened
      rw [Prog.call_bind,Prog.exec_call,opened,Prog.done_bind]
      dsimp only
      rw [Prog.exec_bind,files.1]
      dsimp only
      refine ⟨(later _).1,?_⟩
      rw [printed_cons,printed_append,files.2,(later _).2,List.flatMap_cons,lines]
      simp [output]
    · rename_i skipped
      have lines : dirLines sub de = [] := by
        unfold dirLines
        split
        · rename_i bus tail found isDir
          exact absurd isDir (skipped bus tail found)
        · rfl
      rw [List.flatMap_cons,lines]
      exact later s

theorem pciListProcfs_exec (kernel : Kernel Sys σ) (s : σ) (answers : (kernel (.opendir procfsBaseDir) s).1 = some base)
    (opens : ∀ de ∈ base, de.isDir = true → ∀ s, (kernel (.opendir (busPath de.name)) s).1 = some (sub de.name)) :
    (pciListProcfs.exec kernel s).outcome = .ok 0 ∧
    printed (pciListProcfs.exec kernel s).trace = (base.flatMap (dirLines sub)).flatten := by
  have run := listProcfsEntries_exec kernel base sub opens (kernel (.opendir procfsBaseDir) s).2
  unfold pciListProcfs
  rw [Prog.call_bind,Prog.exec_call,answers]
  exact run

-- The procfs tree of some functions: a directory for each bus, whether it has
-- functions or not, the regular file `devices`, and in each directory a file
-- for each function of the bus, all in any order.
structure HoldsProcfs (base : List Dirent) (sub : Text → List Dirent) (devices : List PciFunction)
    (buses : List (Nat × Nat)) : Prop where
  distinct : buses.Nodup
  covered : ∀ d ∈ devices, (d.seg,d.bus) ∈ buses
  dirs : ∃ others : List Dirent, (∀ de ∈ others, de = ⟨".".toList,true⟩ ∨ de = ⟨"..".toList,true⟩ ∨
    de = ⟨"devices".toList,false⟩) ∧ base.Perm (buses.map (fun key => ⟨procfsDir key.1 key.2,true⟩) ++ others)
  files : ∀ key ∈ buses, ∃ dots : List Text, (∀ name ∈ dots, name = ".".toList ∨ name = "..".toList) ∧
    ((sub (procfsDir key.1 key.2)).map Dirent.name).Perm
      ((devices.filter (fun d => (d.seg,d.bus) = key)).map PciFunction.file ++ dots)

theorem fileLines_perm (held : HoldsProcfs base sub devices buses) (fits : ∀ d ∈ devices, d.InRange) (member : key ∈ buses) :
    (dirLines sub ⟨procfsDir key.1 key.2,true⟩).Perm
      ((devices.filter (fun d => (d.seg,d.bus) = key)).map (fun d => shownLine d.shownProcfs)) := by
  obtain ⟨rest,bus⟩ := scan_dir key.1 key.2
  obtain ⟨dots,parents,perm⟩ := held.files key member
  have skipped (bus : Int) : dots.filterMap (fileLine bus) = [] := by
    apply List.filterMap_eq_nil_iff.mpr
    intro name there
    have unscanned : scanProcfsName name = none := by rcases parents name there with rfl | rfl <;> decide
    simp [fileLine,unscanned]
  have line (d : PciFunction) (there : d ∈ devices.filter (fun d => (d.seg,d.bus) = key)) :
      fileLine (magnitude 16 ((procfsDir key.1 key.2).take 2) : Nat) d.file = some (shownLine d.shownProcfs) := by
    obtain ⟨listed,same⟩ := List.mem_filter.mp there
    have key_ : (d.seg,d.bus) = key := of_decide_eq_true same
    rw [fileLine,scan_file d (fits d listed),← key_]
    rfl
  have lines := perm.filterMap (fileLine (magnitude 16 ((procfsDir key.1 key.2).take 2) : Nat))
  have same : (devices.filter (fun d => (d.seg,d.bus) = key)).filterMap
      (fileLine (magnitude 16 ((procfsDir key.1 key.2).take 2) : Nat) ∘ PciFunction.file) =
      (devices.filter (fun d => (d.seg,d.bus) = key)).map (fun d => shownLine d.shownProcfs) := by
    rw [← List.filterMap_eq_map]
    exact List.filterMap_congr line
  rw [List.filterMap_append,skipped,List.append_nil,List.filterMap_map,List.filterMap_map,same] at lines
  unfold dirLines
  rw [bus]
  exact lines

theorem procfsLines_perm (held : HoldsProcfs base sub devices buses) (fits : ∀ d ∈ devices, d.InRange) :
    (base.flatMap (dirLines sub)).Perm (devices.map (fun d => shownLine d.shownProcfs)) := by
  obtain ⟨others,plain,perm⟩ := held.dirs
  have skipped : others.flatMap (dirLines sub) = [] := by
    apply List.flatMap_eq_nil_iff.mpr
    intro de there
    rcases plain de there with rfl | rfl | rfl <;> rfl
  have whole := perm.flatMap_right (dirLines sub)
  rw [List.flatMap_append,skipped,List.append_nil,List.flatMap_map] at whole
  refine whole.trans ?_
  have groups := (groups_perm (fun d : PciFunction => (d.seg,d.bus)) held.distinct held.covered).map
    (fun d => shownLine d.shownProcfs)
  rw [List.map_flatMap] at groups
  refine List.Perm.trans ?_ groups
  exact List.Perm.flatMap_left buses (fun key member => fileLines_perm held fits member)

theorem sysfsLines_perm (held : Holds entries devices) (fits : ∀ d ∈ devices, d.InRange) :
    (entries.filterMap (fun de => entryLine de.name)).Perm
      ((devices.filter (fun d => d.seg ≤ 0xffff)).map (fun d => shownLine d.shown)) := by
  obtain ⟨dots,parents,perm⟩ := held
  have skipped : dots.filterMap entryLine = [] := by
    apply List.filterMap_eq_nil_iff.mpr
    intro name member
    rcases parents name member with rfl | rfl <;> decide
  have listed : (devices.map PciFunction.name).filterMap entryLine =
      (devices.filter (fun d => d.seg ≤ 0xffff)).map (fun d => shownLine d.shown) := by
    rw [List.filterMap_map,← List.filterMap_eq_map,List.filterMap_filter]
    apply List.filterMap_congr
    intro d member
    simpa using entryLine_shown d (fits d member)
  have lines := perm.filterMap entryLine
  rw [List.filterMap_append,skipped,listed,List.append_nil,List.filterMap_map] at lines
  exact lines

-- Two texts with the same lines, each as often.
def SameLines (left right : Text) : Prop :=
  ∃ lines lines' : List Text, (∀ line ∈ lines, IsLine line) ∧ (∀ line ∈ lines', IsLine line) ∧ left = lines.flatten ∧
    right = lines'.flatten ∧ lines.Perm lines'

theorem sameLines_iff {lines lines' : List Text} (whole : ∀ line ∈ lines, IsLine line) (whole' : ∀ line ∈ lines', IsLine line) :
    SameLines lines.flatten lines'.flatten ↔ lines.Perm lines' := by
  constructor
  · rintro ⟨first,second,cut,cut',text,text',perm⟩
    rw [lines_unique whole cut text,lines_unique whole' cut' text']
    exact perm
  · intro perm
    exact ⟨lines,lines',whole,whole',rfl,rfl,perm⟩

theorem shownLine_isLine (shown : Shown) : IsLine (shownLine shown) := pciLine_isLine ..

-- What the two listings show differs only outside segment 0.
def Agrees (devices : List PciFunction) : Prop :=
  (∀ d ∈ devices, d.seg ≤ 0xffff) ∧
  ((devices.filter (fun d => d.seg ≠ 0)).map (fun d => (d.seg / 256,d.dev,d.func))).Perm
    ((devices.filter (fun d => d.seg ≠ 0)).map PciFunction.shown)

theorem shown_split {devices : List PciFunction} (fits : ∀ d ∈ devices, d.InRange) (narrow : ∀ d ∈ devices, d.seg ≤ 0xffff) :
    (devices.map PciFunction.shown).Perm (devices.map PciFunction.shownProcfs) ↔
      ((devices.filter (fun d => d.seg ≠ 0)).map PciFunction.shown).Perm
        ((devices.filter (fun d => d.seg ≠ 0)).map (fun d => (d.seg / 256,d.dev,d.func))) := by
  have halves := List.filter_append_perm (fun d : PciFunction => decide (d.seg = 0)) devices
  have default_ : (devices.filter (fun d => d.seg = 0)).map PciFunction.shownProcfs =
      (devices.filter (fun d => d.seg = 0)).map PciFunction.shown := by
    apply List.map_congr_left
    intro d member
    obtain ⟨listed,zero⟩ := List.mem_filter.mp member
    rw [shownProcfs_eq d (fits d listed) (narrow d listed),if_pos (of_decide_eq_true zero)]
    rfl
  have others : (devices.filter (fun d => d.seg ≠ 0)).map PciFunction.shownProcfs =
      (devices.filter (fun d => d.seg ≠ 0)).map (fun d => (d.seg / 256,d.dev,d.func)) := by
    apply List.map_congr_left
    intro d member
    obtain ⟨listed,other⟩ := List.mem_filter.mp member
    rw [shownProcfs_eq d (fits d listed) (narrow d listed),if_neg (of_decide_eq_true other)]
  have rest : devices.filter (fun d => !decide (d.seg = 0)) = devices.filter (fun d => d.seg ≠ 0) := by simp
  rw [rest] at halves
  have left := halves.map PciFunction.shown
  have right := halves.map PciFunction.shownProcfs
  rw [List.map_append] at left right
  rw [default_,others] at right
  rw [← left.congr_left,← right.congr_right]
  exact List.perm_append_left_iff _

theorem shown_perm_iff {devices : List PciFunction} (fits : ∀ d ∈ devices, d.InRange) :
    ((devices.filter (fun d => d.seg ≤ 0xffff)).map PciFunction.shown).Perm (devices.map PciFunction.shownProcfs) ↔
      Agrees devices := by
  have kept (narrow : ∀ d ∈ devices, d.seg ≤ 0xffff) : devices.filter (fun d => d.seg ≤ 0xffff) = devices :=
    List.filter_eq_self.mpr (fun d member => decide_eq_true (narrow d member))
  constructor
  · intro perm
    have count := perm.length_eq
    rw [List.length_map,List.length_map] at count
    have narrow : ∀ d ∈ devices, d.seg ≤ 0xffff := fun d member =>
      of_decide_eq_true (List.length_filter_eq_length_iff.mp count d member)
    rw [kept narrow,shown_split fits narrow] at perm
    exact ⟨narrow,perm.symm⟩
  · rintro ⟨narrow,perm⟩
    rw [kept narrow,shown_split fits narrow]
    exact perm.symm

theorem procfs_listing_iff (devices : List PciFunction) (fits : ∀ d ∈ devices, d.InRange) (entries base : List Dirent)
    (sub : Text → List Dirent) (buses : List (Nat × Nat)) (held : Holds entries devices)
    (held' : HoldsProcfs base sub devices buses) (kernel : Kernel Sys σ) (s : σ) (kernel' : Kernel Sys τ) (s' : τ)
    (sysfs : (kernel (.opendir sysfsBaseDir) s).1 = some entries)
    (procfs : (kernel' (.opendir procfsBaseDir) s').1 = some base)
    (opens : ∀ de ∈ base, de.isDir = true → ∀ s, (kernel' (.opendir (busPath de.name)) s).1 = some (sub de.name)) :
    SameLines (printed (pciListProcfs.exec kernel' s').trace) (printed (pciListSysfs.exec kernel s).trace) ↔
      Agrees devices := by
  have left := procfsLines_perm held' fits
  have right := sysfsLines_perm held fits
  have whole : ∀ line ∈ base.flatMap (dirLines sub), IsLine line := by
    intro line member
    obtain ⟨d,_,rfl⟩ := List.mem_map.mp (left.mem_iff.mp member)
    exact shownLine_isLine _
  have whole' : ∀ line ∈ entries.filterMap (fun de => entryLine de.name), IsLine line := by
    intro line member
    obtain ⟨d,_,rfl⟩ := List.mem_map.mp (right.mem_iff.mp member)
    exact shownLine_isLine _
  rw [(pciListProcfs_exec kernel' s' procfs opens).2,(pciListSysfs_exec kernel s sysfs).2,sameLines_iff whole whole',
    ← shown_perm_iff fits]
  have lines (f : PciFunction → Shown) (items : List PciFunction) : items.map (fun d => shownLine (f d)) =
      (items.map f).map shownLine := by simp
  rw [lines] at left right
  rw [left.congr_left,right.congr_right,List.map_perm_map_iff shownLine_injective]
  exact ⟨List.Perm.symm,List.Perm.symm⟩

def busesOf (devices : List PciFunction) : List (Nat × Nat) := (devices.map (fun d => (d.seg,d.bus))).dedup

def procfsBase (devices : List PciFunction) : List Dirent :=
  (busesOf devices).map (fun key => ⟨procfsDir key.1 key.2,true⟩) ++
    [⟨".".toList,true⟩,⟨"..".toList,true⟩,⟨"devices".toList,false⟩]

def procfsSub (devices : List PciFunction) (dir : Text) : List Dirent :=
  (devices.filter (fun d => procfsDir d.seg d.bus = dir)).map (fun d => ⟨d.file,false⟩) ++
    [⟨".".toList,true⟩,⟨"..".toList,true⟩]

theorem procfsBase_holds (devices : List PciFunction) :
    HoldsProcfs (procfsBase devices) (procfsSub devices) devices (busesOf devices) where
  distinct := List.nodup_dedup _
  covered d member := List.mem_dedup.mpr (List.mem_map_of_mem member)
  dirs := ⟨[⟨".".toList,true⟩,⟨"..".toList,true⟩,⟨"devices".toList,false⟩],by simp,.refl _⟩
  files key _ := by
    refine ⟨[".".toList,"..".toList],by simp,?_⟩
    have same : devices.filter (fun d => procfsDir d.seg d.bus = procfsDir key.1 key.2) =
        devices.filter (fun d => (d.seg,d.bus) = key) := by
      apply List.filter_congr
      intro d _
      simp only [procfsDir_inj,Prod.ext_iff]
    unfold procfsSub
    rw [same,List.map_append,List.map_map]
    exact .refl _

def listingProcfs (devices : List PciFunction) : Kernel Sys Unit := fun c s =>
  match c with
  | .opendir path =>
    (some (if path = procfsBaseDir then procfsBase devices else procfsSub devices (path.drop (busPath []).length)),s)
  | c => (c.succeeds,s)

theorem listingProcfs_base (devices : List PciFunction) (s : Unit) :
    (listingProcfs devices (.opendir procfsBaseDir) s).1 = some (procfsBase devices) := by
  simp [listingProcfs]

theorem listingProcfs_opens (devices : List PciFunction) (dir : Text) (s : Unit) :
    (listingProcfs devices (.opendir (busPath dir)) s).1 = some (procfsSub devices dir) := by
  have longer : busPath dir ≠ procfsBaseDir := by
    intro same
    rw [busPath,List.append_assoc] at same
    have none_ : "/".toList ++ dir = [] := List.append_right_eq_self.mp same
    simp at none_
  have split : busPath dir = busPath [] ++ dir := by
    rw [busPath,busPath,List.append_nil]
  have behind : (busPath dir).drop (busPath []).length = dir := by
    rw [split,List.drop_left]
  show some (if busPath dir = procfsBaseDir then _ else _) = _
  rw [if_neg longer,behind]

theorem procfs_listing_iff_double :
    let devices : List PciFunction := [⟨0,0,0x1f,3⟩,⟨0x0102,1,2,3⟩]
    SameLines (printed (pciListProcfs.exec (listingProcfs devices) ()).trace)
      (printed (pciListSysfs.exec (listing (sysfsEntries devices)) ()).trace) := by
  intro devices
  have fits : ∀ d ∈ devices, d.InRange := by
    intro d member
    rcases List.mem_pair.mp member with rfl | rfl <;> exact ⟨by decide,by decide,by decide⟩
  exact (procfs_listing_iff devices fits (sysfsEntries devices) (procfsBase devices) (procfsSub devices) (busesOf devices)
    (sysfsEntries_holds devices) (procfsBase_holds devices) (listing (sysfsEntries devices)) () (listingProcfs devices) ()
    rfl (listingProcfs_base devices ()) (fun de _ _ s => listingProcfs_opens devices de.name s)).mpr
    ⟨by decide,by decide⟩

-- A bridge on bus 5 of segment 1: its directory is 0001:05, and the first two
-- digits are taken for the bus.
theorem procfs_listing_segment :
    let devices : List PciFunction := [⟨1,5,0,0⟩]
    let procfs := pciListProcfs.exec (listingProcfs devices) ()
    let sysfs := pciListSysfs.exec (listing (sysfsEntries devices)) ()
    (∀ d ∈ devices, d.InRange) ∧ Holds (sysfsEntries devices) devices ∧
    HoldsProcfs (procfsBase devices) (procfsSub devices) devices (busesOf devices) ∧
    printed procfs.trace = "0 0 0\n".toList ∧ printed sysfs.trace = "5 0 0\n".toList ∧
    ¬ SameLines (printed procfs.trace) (printed sysfs.trace) := by
  intro devices procfs sysfs
  have fits : ∀ d ∈ devices, d.InRange := by
    intro d member
    rw [List.mem_singleton.mp member]
    exact ⟨by decide,by decide,by decide⟩
  have left : printed procfs.trace = [shownLine (0,0,0)].flatten := by decide +kernel
  have right : printed sysfs.trace = [shownLine (5,0,0)].flatten := by decide +kernel
  refine ⟨fits,sysfsEntries_holds devices,procfsBase_holds devices,left.trans (by decide),right.trans (by decide),?_⟩
  rw [left,right,sameLines_iff (by simp [shownLine_isLine]) (by simp [shownLine_isLine])]
  decide

end Iotools
