import Iotools.Sys

namespace Iotools
open Bytes Numeral Interaction

-- What an observer of a run sees: the text on stdout, and the transfers that
-- went over an I2C bus.
def output : Event Sys → Text
  | ⟨.stdout text,_⟩ => text
  | _ => []

def printed (trace : Trace Sys) : Text := trace.flatMap output

@[simp] theorem output_stdout (text : Text) (reply : Unit) : output ⟨.stdout text,reply⟩ = text := rfl
@[simp] theorem output_open (path : Text) (flags : OpenFlags) (fd : Int) : output ⟨.open path flags,fd⟩ = [] := rfl
@[simp] theorem output_close (fd : Int) (reply : Unit) : output ⟨.close fd,reply⟩ = [] := rfl
@[simp] theorem output_load (mem : Nat) (offset : Int) (size : Nat) (data : Buffer size) :
    output ⟨.load mem offset size,data⟩ = [] := rfl
@[simp] theorem output_munmap (mem length : Nat) (reply : Unit) : output ⟨.munmap mem length,reply⟩ = [] := rfl
@[simp] theorem output_slave (fd : Int) (force : Bool) (address : UInt8) (result : Int) :
    output ⟨.ioctlSlave fd force address,result⟩ = [] := rfl
@[simp] theorem output_stderr (message : Message) (reply : Unit) : output ⟨.stderr message,reply⟩ = [] := rfl
@[simp] theorem output_strerror (err : Text) : output ⟨.strerror,err⟩ = [] := rfl
@[simp] theorem output_stale (size : Nat) (stale : Buffer size) : output ⟨.stale size,stale⟩ = [] := rfl
@[simp] theorem output_staleParams (stale : SmbusOpParams) : output ⟨.staleParams,stale⟩ = [] := rfl

@[simp] theorem printed_nil : printed [] = [] := rfl
@[simp] theorem printed_cons (e : Event Sys) (rest : Trace Sys) : printed (e :: rest) = output e ++ printed rest :=
  List.flatMap_cons ..
@[simp] theorem printed_append (left right : Trace Sys) : printed (left ++ right) = printed left ++ printed right :=
  List.flatMap_append ..

def IsLine (text : Text) : Prop := ∃ body, '\n' ∉ body ∧ text = body ++ ['\n']

def valueLine (size value : Nat) : Text := "0x".toList ++ hexLower (size * 2) value ++ "\n".toList

theorem valueLine_inj : valueLine size left = valueLine size right ↔ left = right := by
  simp only [valueLine,List.append_cancel_right_eq,List.append_cancel_left_eq,hexLower_inj]

theorem valueLine_isLine (size value : Nat) : IsLine (valueLine size value) := by
  have digits : '\n' ∉ hexLower (size * 2) value := hexLower_notMem rfl
  have zero : '\n' ∉ "0x".toList := by decide
  refine ⟨"0x".toList ++ hexLower (size * 2) value,?_,rfl⟩
  rw [List.mem_append]
  exact not_or.mpr ⟨zero,digits⟩

inductive Transferred where
  | smbus (args : I2cSmbusIoctlData) (reply : Int × I2cSmbusData)
  | rdwr (first second : I2cMsg) (reply : Int × List UInt8)

def transferred : Event Sys → Option Transferred
  | ⟨.ioctlSmbus _ args,reply⟩ => some (.smbus args reply)
  | ⟨.ioctlRdwr _ first second,reply⟩ => some (.rdwr first second reply)
  | _ => none

def transfers (trace : Trace Sys) : List Transferred := trace.filterMap transferred

@[simp] theorem transferred_smbus (fd : Int) (args : I2cSmbusIoctlData) (reply : Int × I2cSmbusData) :
    transferred ⟨.ioctlSmbus fd args,reply⟩ = some (.smbus args reply) := rfl
@[simp] theorem transferred_rdwr (fd : Int) (first second : I2cMsg) (reply : Int × List UInt8) :
    transferred ⟨.ioctlRdwr fd first second,reply⟩ = some (.rdwr first second reply) := rfl
@[simp] theorem transferred_stdout (text : Text) (reply : Unit) : transferred ⟨.stdout text,reply⟩ = none := rfl
@[simp] theorem transferred_open (path : Text) (flags : OpenFlags) (fd : Int) :
    transferred ⟨.open path flags,fd⟩ = none := rfl
@[simp] theorem transferred_close (fd : Int) (reply : Unit) : transferred ⟨.close fd,reply⟩ = none := rfl
@[simp] theorem transferred_slave (fd : Int) (force : Bool) (address : UInt8) (result : Int) :
    transferred ⟨.ioctlSlave fd force address,result⟩ = none := rfl
@[simp] theorem transferred_stderr (message : Message) (reply : Unit) :
    transferred ⟨.stderr message,reply⟩ = none := rfl
@[simp] theorem transferred_strerror (err : Text) : transferred ⟨.strerror,err⟩ = none := rfl
@[simp] theorem transferred_stale (size : Nat) (stale : Buffer size) : transferred ⟨.stale size,stale⟩ = none := rfl
@[simp] theorem transferred_staleParams (stale : SmbusOpParams) : transferred ⟨.staleParams,stale⟩ = none := rfl

@[simp] theorem transfers_nil : transfers [] = [] := rfl
theorem transfers_cons (e : Event Sys) (rest : Trace Sys) :
    transfers (e :: rest) = (transferred e).toList ++ transfers rest := by
  unfold transfers
  rw [List.filterMap_cons]
  cases transferred e <;> rfl
@[simp] theorem transfers_append (left right : Trace Sys) : transfers (left ++ right) = transfers left ++ transfers right :=
  List.filterMap_append

def Transferred.result : Transferred → Int
  | .smbus _ reply => reply.1
  | .rdwr _ _ reply => reply.1

def Transferred.data : Transferred → I2cSmbusData
  | .smbus _ reply => reply.2
  | .rdwr _ _ _ => Buffer.zero

-- What a transfer asks of the bus: direction, register, and the payload bytes
-- the kernel takes from the union for this transaction type, or both messages
-- whole. A block starts with its length; a block read of fixed size hands over
-- the wanted length.
inductive Wire where
  | smbus (readWrite command : UInt8) (size : Transaction) (payload : List UInt8)
  | rdwr (first second : I2cMsg)
  deriving DecidableEq

def blockPayload (data : I2cSmbusData) : List UInt8 := data 0 :: data.slice 1 (data 0).toNat

def payload (args : I2cSmbusIoctlData) : List UInt8 :=
  match args.data with
  | none => []
  | some data =>
    match args.size,args.readWrite with
    | .quick,_ => []
    | .byte,_ => []
    | .byteData,1 => []
    | .byteData,_ => data.slice 0 1
    | .wordData,1 => []
    | .wordData,_ => data.slice 0 2
    | .procCall,_ => data.slice 0 2
    | .blockData,1 => []
    | .blockData,_ => blockPayload data
    | .i2cBlockData,1 => data.slice 0 1
    | .i2cBlockData,_ => blockPayload data
    | .blockProcCall,_ => blockPayload data

def Transferred.wire : Transferred → Wire
  | .smbus args _ => .smbus args.readWrite args.command args.size (payload args)
  | .rdwr first second _ => .rdwr first second

-- The calls that prepare a transfer; the others cannot fail it.
def setupOk : Event Sys → Prop
  | ⟨.open _ _,fd⟩ => 0 ≤ fd
  | ⟨.ioctlSlave _ _ _,result⟩ => 0 ≤ result
  | _ => True

@[simp] theorem setupOk_open (path : Text) (flags : OpenFlags) (fd : Int) :
    setupOk ⟨.open path flags,fd⟩ ↔ 0 ≤ fd := Iff.rfl
@[simp] theorem setupOk_slave (fd : Int) (force : Bool) (address : UInt8) (result : Int) :
    setupOk ⟨.ioctlSlave fd force address,result⟩ ↔ 0 ≤ result := Iff.rfl
@[simp] theorem setupOk_stderr (message : Message) (reply : Unit) : setupOk ⟨.stderr message,reply⟩ := trivial
@[simp] theorem setupOk_stale (size : Nat) (stale : Buffer size) : setupOk ⟨.stale size,stale⟩ := trivial
@[simp] theorem setupOk_staleParams (stale : SmbusOpParams) : setupOk ⟨.staleParams,stale⟩ := trivial

def Ready (trace : Trace Sys) : Prop := ∀ e ∈ trace, setupOk e

@[simp] theorem ready_nil : Ready [] := by simp [Ready]
@[simp] theorem ready_cons (e : Event Sys) (rest : Trace Sys) : Ready (e :: rest) ↔ setupOk e ∧ Ready rest := by
  simp [Ready]
@[simp] theorem ready_append (left right : Trace Sys) : Ready (left ++ right) ↔ Ready left ∧ Ready right := by
  simp [Ready,or_imp,forall_and]

def Quiet (trace : Trace Sys) : Prop := transfers trace = [] ∧ printed trace = []

@[simp] theorem quiet_nil : Quiet [] := ⟨rfl,rfl⟩
@[simp] theorem quiet_cons (e : Event Sys) (rest : Trace Sys) :
    Quiet (e :: rest) ↔ (transferred e = none ∧ output e = []) ∧ Quiet rest := by
  cases sent : transferred e <;> simp [Quiet,transfers_cons,sent,and_left_comm]
theorem Quiet.append (left : Quiet before) (right : Quiet after) : Quiet (before ++ after) := by
  simp [Quiet,left.1,left.2,right.1,right.2]

end Iotools
