import Iotools.Pci

namespace Iotools
open Bytes Numeral Interaction

-- One function of a PCI device, as the arguments of the commands name it.
structure PciFunction where
  seg : Nat
  bus : Nat
  dev : Nat
  func : Nat
  deriving DecidableEq

def PciFunction.name (d : PciFunction) : Text := pciName d.seg d.bus d.dev d.func
def PciFunction.sysfs (d : PciFunction) : Text := sysfsFile d.seg d.bus d.dev d.func
def PciFunction.procfs (d : PciFunction) : Text := procfsFile d.seg d.bus d.dev d.func

def PciAddress.function (address : PciAddress) : PciFunction := ⟨address.seg,address.bus,address.dev,address.func⟩

theorem colon_notMem : ':' ∉ hexLower width value := hexLower_notMem rfl
theorem dot_notMem : '.' ∉ hexLower width value := hexLower_notMem rfl
theorem slash_notMem : '/' ∉ hexLower width value := hexLower_notMem rfl

theorem pciName_eq (segment bus device function : Nat) :
    pciName segment bus device function =
      hexLower 4 segment ++ ':' :: (hexLower 2 bus ++ ':' :: (hexLower 2 device ++ '.' :: hexLower 0 function)) := by
  have colon : ":".toList = [':'] := rfl
  have dot : ".".toList = ['.'] := rfl
  simp [pciName,colon,dot]

theorem name_inj (d e : PciFunction) : d.name = e.name ↔ d = e := by
  obtain ⟨seg,bus,dev,func⟩ := d
  obtain ⟨seg',bus',dev',func'⟩ := e
  simp only [PciFunction.name,pciName_eq,separated_inj colon_notMem colon_notMem,separated_inj dot_notMem dot_notMem,
    hexLower_inj,PciFunction.mk.injEq]

theorem sysfs_inj (d e : PciFunction) : d.sysfs = e.sysfs ↔ d = e := by
  rw [← name_inj d e]
  simp only [PciFunction.sysfs,sysfsFile,List.append_cancel_right_eq,List.append_cancel_left_eq]
  rfl

-- The directory of a bus tells by its colon whether it names a segment.
theorem procfsDir_inj (seg bus seg' bus' : Nat) : procfsDir seg bus = procfsDir seg' bus' ↔ seg = seg' ∧ bus = bus' := by
  have colon : ":".toList = [':'] := rfl
  have apart (seg bus bus' : Nat) : hexLower 2 bus ≠ hexLower 4 seg ++ ':' :: hexLower 2 bus' := by
    intro same
    have member : ':' ∈ hexLower 2 bus := by
      rw [same]
      simp
    exact colon_notMem member
  unfold procfsDir
  rw [colon]
  simp only [List.append_assoc,List.cons_append,List.nil_append]
  split
  · split
    · rename_i zero zero'
      simp [hexLower_inj,zero,zero']
    · rename_i zero other
      simp [apart,zero,Ne.symm other]
  · split
    · rename_i other zero
      simp [(apart _ _ _).symm,zero,other]
    · simp [separated_inj colon_notMem colon_notMem,hexLower_inj]

theorem procfsDir_plain (seg bus : Nat) : '/' ∉ procfsDir seg bus := by
  have colon : '/' ∉ ":".toList := by decide
  unfold procfsDir
  split
  · exact slash_notMem
  · simp [slash_notMem]

theorem procfs_inj (d e : PciFunction) : d.procfs = e.procfs ↔ d = e := by
  obtain ⟨seg,bus,dev,func⟩ := d
  obtain ⟨seg',bus',dev',func'⟩ := e
  have slash : "/".toList = ['/'] := rfl
  have dot : ".".toList = ['.'] := rfl
  simp only [PciFunction.procfs,procfsFile,slash,dot,List.append_assoc,List.cons_append,List.nil_append,
    List.append_cancel_left_eq,List.cons.injEq,true_and]
  rw [separated_inj (procfsDir_plain seg bus) (procfsDir_plain seg' bus'),separated_inj dot_notMem dot_notMem,
    procfsDir_inj]
  simp [hexLower_inj,and_assoc]

theorem sysfs_ne_procfs (d e : PciFunction) : d.sysfs ≠ e.procfs := by
  intro same
  have second : d.sysfs[1]? = e.procfs[1]? := by rw [same]
  cases second

end Iotools
