import Iotools.PciProcfs
import Iotools.Sessions
import Iotools.SmbusByteOrder

namespace Iotools
open Bytes Numeral Interaction

-- Devices with 256 byte registers each, at the addresses of the buses of a host,
-- and the device file that is open, with the slave chosen on it.
structure Bus where
  cells : Text → UInt8 → UInt8 → UInt8
  handle : Option (Text × UInt8)

def busFile (bus : UInt8) : Text := "/dev/i2c-".toList ++ decimal bus.toNat

-- A device counts its register up after each byte, and wraps.
def registersAt (cells : UInt8 → UInt8) (reg : UInt8) (count : Nat) : List UInt8 :=
  (List.range count).map (fun i => cells (reg + UInt8.ofNat i))

def registersSet (cells : UInt8 → UInt8) (reg : UInt8) (bytes : List UInt8) : UInt8 → UInt8 := fun r =>
  bytes.getD (r - reg).toNat (cells r)

-- A transaction as the kernel conducts it with such a device. The bytes of a
-- word go over the bus low byte first, whatever their order in the host is.
-- Other transactions such a device does not answer.
def exchange (order : Endian) (args : I2cSmbusIoctlData) (data : I2cSmbusData) (cells : UInt8 → UInt8) :
    Option (I2cSmbusData × (UInt8 → UInt8)) :=
  if args.readWrite = i2cSmbusRead then
    match args.size with
    | .byteData => some (data.patch 0 (registersAt cells args.command 1),cells)
    | .wordData => some (data.patch 0 (encode order 2 (ofLittle (registersAt cells args.command 2))),cells)
    | .i2cBlockData => some (data.patch 1 (registersAt cells args.command (data 0).toNat),cells)
    | _ => none
  else
    match args.size with
    | .byteData => some (data,registersSet cells args.command (data.slice 0 1))
    | .wordData => some (data,registersSet cells args.command (toLittle 2 (decode order (data.slice 0 2))))
    | .i2cBlockData => some (data,registersSet cells args.command (data.slice 1 (data 0).toNat))
    | _ => none

def Bus.hold (s : Bus) (path : Text) (address : UInt8) (cells : UInt8 → UInt8) : Bus :=
  {s with cells := Function.update s.cells path (Function.update (s.cells path) address cells)}

-- The adapter has SMBus transactions only.
def Bus.kernel (order : Endian) : Kernel Sys Bus := fun c s =>
  match c with
  | .open path _ => ((3 : Int),{s with handle := some (path,0)})
  | .close _ => ((),{s with handle := none})
  | .ioctlSlave _ _ address => ((0 : Int),{s with handle := s.handle.map (fun open_ => (open_.1,address))})
  | .ioctlSmbus _ args =>
    (s.handle.bind fun place => args.data.bind fun data =>
      (exchange order args data (s.cells place.1 place.2)).map fun done =>
        (((0 : Int),done.1),s.hold place.1 place.2 done.2)).getD (((-1 : Int),Buffer.zero),s)
  | .ioctlRdwr .. => (((-1 : Int),[]),s)
  | c => (c.succeeds,s)

abbrev RegisterCell := UInt8 × UInt8 × UInt8

def Bus.byte (s : Bus) (cell : RegisterCell) : UInt8 := s.cells (busFile cell.1) cell.2.1 cell.2.2

-- The operand sizes that access registers, with the number of their bytes.
def SmbusSize.registers : SmbusSize → Option Nat
  | .size8 => some 1
  | .size16 => some 2
  | .size32 => some 4
  | .size64 => some 8
  | _ => none

-- The order of a value's bytes on the bus: the wide sizes hand over the bytes as
-- they lie in the host.
def lineOrder (b : Build) (size : SmbusSize) : Endian := if size = .size16 then .little else b.order

-- What a write gives the registers.
def registersPatch (params : SmbusOpParams) (bytes : List UInt8) : Patch RegisterCell UInt8 := fun cell =>
  if cell.1 = params.i2cBus ∧ cell.2.1 = params.address then bytes[(cell.2.2 - params.reg).toNat]? else none

theorem busFile_inj {left right : UInt8} (same : busFile left = busFile right) : left = right :=
  UInt8.toNat_inj.mp (decimal_inj (List.append_cancel_left same))

theorem registersPatch_apply (s : Bus) (params : SmbusOpParams) (bytes : List UInt8) :
    (s.hold (busFile params.i2cBus) params.address
      (registersSet (s.cells (busFile params.i2cBus) params.address) params.reg bytes)).byte =
      (registersPatch params bytes).apply s.byte := by
  funext cell
  obtain ⟨bus,address,reg⟩ := cell
  simp only [Bus.byte,Bus.hold,Patch.apply,registersPatch]
  by_cases here : bus = params.i2cBus
  · subst here
    rw [Function.update_self]
    by_cases device : address = params.address
    · subst device
      rw [Function.update_self,if_pos ⟨rfl,rfl⟩]
      exact List.getD_eq_getElem?_getD ..
    · rw [Function.update_of_ne device,if_neg (fun both => device both.2)]
      rfl
  · rw [Function.update_of_ne (fun same => here (busFile_inj same)),if_neg (fun both => here both.1)]
    rfl

def Bus.on (s : Bus) (bus address : UInt8) : Bus := {s with handle := some (busFile bus,address)}

@[simp] theorem Bus.on_byte (s : Bus) (bus address : UInt8) : (s.on bus address).byte = s.byte := rfl
@[simp] theorem Bus.on_cells (s : Bus) (bus address : UInt8) : (s.on bus address).cells = s.cells := rfl

theorem Bus.hold_same (s : Bus) (path : Text) (address : UInt8) : s.hold path address (s.cells path address) = s := by
  simp [Bus.hold]

-- A run that returns, with its text on stdout and the state it ends in.
def Gives (kernel : Kernel Sys σ) (program : Action α) (s : σ) (text : Text) (value : α) (s' : σ) : Prop :=
  ∃ trace, program.exec kernel s = ⟨trace,.ok value,s'⟩ ∧ printed trace = text

theorem gives_done (kernel : Kernel Sys σ) (value : α) (s : σ) : Gives kernel (.done value) s [] value s := ⟨[],rfl,rfl⟩

theorem Gives.step {kernel : Kernel Sys σ} {c : Call} {answer : c.Answer} {next : c.Answer → Action α}
    (rest : Gives kernel (next answer) s' text value s'') (answers : kernel c s = (answer,s'))
    (quiet : output ⟨c,answer⟩ = []) :
    Gives kernel (.call c next) s text value s'' := by
  obtain ⟨trace,run,shows⟩ := rest
  refine ⟨⟨c,answer⟩ :: trace,?_,?_⟩
  · rw [Prog.exec_step answers,run]
    rfl
  · rw [printed_cons,quiet,shows]
    rfl

theorem Gives.bind {kernel : Kernel Sys σ} {program : Action α} {next : α → Action β}
    (first : Gives kernel program s text value s') (rest : Gives kernel (next value) s' text' value' s'') :
    Gives kernel (program >>= next) s (text ++ text') value' s'' := by
  obtain ⟨trace,run,shows⟩ := first
  obtain ⟨trace',run',shows'⟩ := rest
  refine ⟨trace ++ trace',?_,?_⟩
  · rw [Prog.exec_seq run,run']
    rfl
  · rw [printed_append,shows,shows']

def Bus.device (s : Bus) (params : SmbusOpParams) : UInt8 → UInt8 := s.cells (busFile params.i2cBus) params.address

def Bus.turned (s : Bus) (params : SmbusOpParams) (cells : UInt8 → UInt8) : Bus :=
  s.hold (busFile params.i2cBus) params.address cells

def Bus.ready (s : Bus) (params : SmbusOpParams) : Bus := s.on params.i2cBus params.address

theorem registersAt_length (cells : UInt8 → UInt8) (reg : UInt8) (count : Nat) :
    (registersAt cells reg count).length = count := by
  simp [registersAt]

section Device
variable (b : Build) (s : Bus) (params : SmbusOpParams)

theorem exchange_gives {next : Int × I2cSmbusData → Action α}
    (answers : exchange b.order ⟨readWrite,command,size,some data⟩ data (s.device params) = some (data',cells))
    (rest : Gives (Bus.kernel b.order) (next ((0 : Int),data')) ((s.turned params cells).ready params) text value s') :
    Gives (Bus.kernel b.order) (i2cSmbusAccess fd readWrite command size (some data) >>= next) (s.ready params) text value
      s' := by
  change exchange b.order _ data (s.cells (busFile params.i2cBus) params.address) = _ at answers
  refine rest.step ?_ rfl
  simp only [Bus.kernel,Bus.ready,Bus.on,Option.bind_some,answers,Option.map_some,Option.getD_some]
  rfl

theorem stale_gives {next : Buffer size → Action α}
    (rest : Gives (Bus.kernel b.order) (next Buffer.zero) s text value s') :
    Gives (Bus.kernel b.order) (.call (.stale size) next) s text value s' :=
  rest.step rfl rfl

theorem staleParams_gives {next : SmbusOpParams → Action α}
    (rest : Gives (Bus.kernel b.order) (next (Call.succeeds .staleParams)) s text value s') :
    Gives (Bus.kernel b.order) (.call .staleParams next) s text value s' :=
  rest.step rfl rfl

theorem turned_same : s.turned params (s.device params) = s := s.hold_same _ _

theorem readByteData_gives :
    Gives (Bus.kernel b.order) (i2cSmbusReadByteData params.fd params.reg) (s.ready params) []
      (ofLittle (registersAt (s.device params) params.reg 1) : Nat) (s.ready params) := by
  have first : (ofLittle (registersAt (s.device params) params.reg 1) : Int) =
      ((Buffer.patch (Buffer.zero : I2cSmbusData) 0 (registersAt (s.device params) params.reg 1)) 0).toNat := by
    simp [Buffer.patch,registersAt,ofLittle]
  refine stale_gives b _ (exchange_gives b s params rfl ?_)
  rw [turned_same,first]
  exact gives_done ..

theorem readWordData_gives :
    Gives (Bus.kernel b.order) (i2cSmbusReadWordData b params.fd params.reg) (s.ready params) []
      (ofLittle (registersAt (s.device params) params.reg 2) : Nat) (s.ready params) := by
  have word : I2cSmbusData.word b (Buffer.patch (Buffer.zero : I2cSmbusData) 0
      (encode b.order 2 (ofLittle (registersAt (s.device params) params.reg 2)))) =
      ofLittle (registersAt (s.device params) params.reg 2) := by
    have back := Buffer.slice_patch (Buffer.zero : I2cSmbusData)
      (encode b.order 2 (ofLittle (registersAt (s.device params) params.reg 2))) (show 0 + _ ≤ 35 by simp)
    rw [encode_length] at back
    have small := ofLittle_lt (registersAt (s.device params) params.reg 2)
    rw [registersAt_length] at small
    unfold I2cSmbusData.word
    rw [back,decode_encode,Nat.mod_eq_of_lt small]
  refine stale_gives b _ (exchange_gives b s params rfl ?_)
  dsimp only
  rw [turned_same,if_neg (not_not.mpr rfl),word]
  exact gives_done ..

theorem readI2cBlockData_gives (length : UInt8) (small : length.toNat ≤ 32) :
    Gives (Bus.kernel b.order) (i2cSmbusReadI2cBlockData params.fd params.reg length Buffer.zero) (s.ready params) []
      ((length.toNat : Int),Buffer.zero.patch 0 (registersAt (s.device params) params.reg length.toNat)) (s.ready params) := by
  have clamp : ¬ (32 : UInt8) < length := by
    rw [UInt8.lt_iff_toNat_lt]
    simpa using small
  refine stale_gives b _ ?_
  rw [if_neg clamp]
  refine exchange_gives b s params rfl ?_
  have front : (Buffer.zero : I2cSmbusData).patch 0 [length] 0 = length := Buffer.patch_inside _ [length] 0 0 rfl (by simp)
  have answer : (registersAt (s.device params) params.reg length.toNat).length = length.toNat := registersAt_length ..
  have count : ((Buffer.zero : I2cSmbusData).patch 0 [length]).patch 1
      (registersAt (s.device params) params.reg length.toNat) 0 = length := by
    rw [Buffer.patch_outside _ _ _ (.inl (by decide)),front]
  have bytes : (((Buffer.zero : I2cSmbusData).patch 0 [length]).patch 1
      (registersAt (s.device params) params.reg length.toNat)).slice 1 length.toNat =
      registersAt (s.device params) params.reg length.toNat := by
    have back := Buffer.slice_patch ((Buffer.zero : I2cSmbusData).patch 0 [length])
      (registersAt (s.device params) params.reg length.toNat) (show 1 + _ ≤ 35 by omega)
    rwa [answer] at back
  dsimp only
  rw [front,turned_same,if_neg (not_not.mpr rfl)]
  unfold copyBlock
  rw [count,if_neg (by omega),bytes]
  exact gives_done ..

theorem decode_single (order : Endian) (byte : UInt8) : decode order [byte] = ofLittle [byte] := by
  cases order <;> simp [decode]

theorem registersAt_single (cells : UInt8 → UInt8) (reg : UInt8) : registersAt cells reg 1 = [cells reg] := by
  simp [registersAt]

theorem readTransfer_gives (sized : size.registers = some count) :
    ∃ result data, Gives (Bus.kernel b.order) (readTransfer b params size) (s.ready params) [] (some (result,data))
      (s.ready params) ∧ 0 ≤ result ∧ readText b size result data =
        some (valueText (2 * count) (decode (lineOrder b size) (registersAt (s.device params) params.reg count))) := by
  have small (n : Nat) : ofLittle (registersAt (s.device params) params.reg n) < 256 ^ n := by
    have below := ofLittle_lt (registersAt (s.device params) params.reg n)
    rwa [registersAt_length] at below
  have held (n : Nat) (fits : n ≤ 2) : SmbusDtype.fixed b (SmbusDtype.setFixed b Buffer.zero n
      (toUnsigned (ofLittle (registersAt (s.device params) params.reg n) : Nat))) n =
      ofLittle (registersAt (s.device params) params.reg n) := by
    have bound := small n
    have most : 256 ^ n ≤ 256 ^ 2 := Nat.pow_le_pow_right (by decide) fits
    rw [toUnsigned_small (by omega),fixed_setFixed b _ _ (by omega),Nat.mod_eq_of_lt bound]
  have front (n : Nat) (fits : n ≤ 8) : (Buffer.patch (Buffer.zero : SmbusDtype) 0
      (registersAt (s.device params) params.reg n)).slice 0 n = registersAt (s.device params) params.reg n := by
    have back := Buffer.slice_patch (Buffer.zero : SmbusDtype) (registersAt (s.device params) params.reg n)
      (show 0 + _ ≤ 34 by rw [registersAt_length]; omega)
    rwa [registersAt_length] at back
  cases size with
  | size8 =>
    cases sized
    refine ⟨_,_,(readByteData_gives b s params).bind (gives_done ..),Int.natCast_nonneg _,?_⟩
    have shown := held 1 (by decide)
    rw [registersAt_single] at shown ⊢
    rw [decode_single]
    simp only [readText,valueText,shown]
  | size16 =>
    cases sized
    refine ⟨_,_,(readWordData_gives b s params).bind (gives_done ..),Int.natCast_nonneg _,?_⟩
    simp only [readText,valueText,held 2 (by decide),lineOrder]
    rfl
  | size32 =>
    cases sized
    refine ⟨_,_,(readI2cBlockData_gives b s params 4 (by decide)).bind (gives_done ..),(show (0 : Int) ≤ 4 by decide),?_⟩
    simp only [readText,valueText,SmbusDtype.fixed]
    rw [show (4 : UInt8).toNat = 4 from rfl,front 4 (by decide)]
    rfl
  | size64 =>
    cases sized
    refine ⟨_,_,(readI2cBlockData_gives b s params 8 (by decide)).bind (gives_done ..),(show (0 : Int) ≤ 8 by decide),?_⟩
    simp only [readText,valueText,SmbusDtype.fixed]
    rw [show (8 : UInt8).toNat = 8 from rfl,front 8 (by decide)]
    rfl
  | _ => cases sized

theorem writeByteData_gives (value : UInt8) :
    Gives (Bus.kernel b.order) (i2cSmbusWriteByteData params.fd params.reg value) (s.ready params) [] 0
      ((s.turned params (registersSet (s.device params) params.reg [value])).ready params) := by
  have sent := Buffer.slice_patch (Buffer.zero : I2cSmbusData) [value] (show 0 + _ ≤ 35 by simp)
  refine stale_gives b _ (exchange_gives b s params rfl ?_)
  dsimp only
  rw [show 1 = [value].length from rfl,sent]
  exact gives_done ..

theorem writeWordData_gives (value : Nat) :
    Gives (Bus.kernel b.order) (i2cSmbusWriteWordData b params.fd params.reg value) (s.ready params) [] 0
      ((s.turned params (registersSet (s.device params) params.reg (toLittle 2 value))).ready params) := by
  have sent := Buffer.slice_patch (Buffer.zero : I2cSmbusData) (encode b.order 2 value) (show 0 + _ ≤ 35 by simp)
  rw [encode_length] at sent
  refine stale_gives b _ (exchange_gives b s params rfl ?_)
  dsimp only
  rw [sent,decode_encode,toLittle_mod]
  exact gives_done ..

theorem writeI2cBlockData_gives (length : UInt8) (small : length.toNat ≤ 32) (values : SmbusDtype) :
    Gives (Bus.kernel b.order) (i2cSmbusWriteI2cBlockData params.fd params.reg length values) (s.ready params) [] 0
      ((s.turned params (registersSet (s.device params) params.reg (values.slice 0 length.toNat))).ready params) := by
  have filled := fillBlock_payload (Buffer.zero : I2cSmbusData) values small
  obtain ⟨first,rest⟩ := List.cons.inj filled
  rw [first] at rest
  refine stale_gives b _ (exchange_gives b s params rfl ?_)
  dsimp only
  rw [first,rest]
  exact gives_done ..

theorem writeTransfer_gives (sized : size.registers = some count)
    (stored : params.data = SmbusDtype.setFixed b Buffer.zero count value) :
    Gives (Bus.kernel b.order) (writeTransfer b params size) (s.ready params) [] (some 0)
      ((s.turned params (registersSet (s.device params) params.reg (encode (lineOrder b size) count value))).ready params) := by
  cases size with
  | size8 =>
    cases sized
    have byte : encode (lineOrder b .size8) 1 value = [UInt8.ofNat (SmbusDtype.fixed b params.data 1)] := by
      have bytes := setFixed_slice b Buffer.zero value (show 1 ≤ 34 by decide)
      rw [← stored,slice_one] at bytes
      rw [fixed_byte]
      exact bytes.symm
    rw [byte]
    exact (writeByteData_gives b s params _).bind (gives_done ..)
  | size16 =>
    cases sized
    have word : encode (lineOrder b .size16) 2 value = toLittle 2 (SmbusDtype.fixed b params.data 2) := by
      rw [stored,fixed_setFixed b _ _ (by decide),toLittle_mod]
      rfl
    rw [word]
    exact (writeWordData_gives b s params _).bind (gives_done ..)
  | size32 =>
    cases sized
    have bytes := setFixed_slice b Buffer.zero value (show 4 ≤ 34 by decide)
    rw [← stored] at bytes
    have writes := writeI2cBlockData_gives b s params 4 (by decide) params.data
    rw [show (4 : UInt8).toNat = 4 from rfl,bytes] at writes
    exact writes.bind (gives_done ..)
  | size64 =>
    cases sized
    have bytes := setFixed_slice b Buffer.zero value (show 8 ≤ 34 by decide)
    rw [← stored] at bytes
    have writes := writeI2cBlockData_gives b s params 8 (by decide) params.data
    rw [show (8 : UInt8).toNat = 8 from rfl,bytes] at writes
    exact writes.bind (gives_done ..)
  | _ => cases sized

theorem readOp_gives (sized : size.registers = some count) :
    Gives (Bus.kernel b.order) (smbusReadOp b params ⟨size,.read⟩) (s.ready params)
      (valueText (2 * count) (decode (lineOrder b size) (registersAt (s.device params) params.reg count))) 0
      (s.ready params) := by
  obtain ⟨result,data,gives,positive,text⟩ := readTransfer_gives b s params sized
  refine gives.bind ?_
  dsimp only
  rw [if_neg (by omega)]
  unfold printReadData
  rw [text]
  exact ⟨_,rfl,List.append_nil _⟩

theorem writeOp_gives (sized : size.registers = some count)
    (stored : params.data = SmbusDtype.setFixed b Buffer.zero count value) :
    Gives (Bus.kernel b.order) (smbusWriteOp b params ⟨size,.write⟩) (s.ready params) [] 0
      ((s.turned params (registersSet (s.device params) params.reg (encode (lineOrder b size) count value))).ready params) := by
  have forced : Gives (Bus.kernel b.order) (forceSlave params) (s.ready params) [] true (s.ready params) := ⟨_,rfl,rfl⟩
  refine forced.bind ((writeTransfer_gives b s params sized stored).bind ?_)
  exact gives_done ..

end Device

theorem byteAt_reported (taken : byteAt b argv index = some value) (next : Option UInt8 → Action α) :
    (argAt argv index >>= fun text => report (parseUint8 b text) >>= next) = next (some value) := by
  obtain ⟨arg,found,ok⟩ := Option.bind_eq_some_iff.mp taken
  have accepted : parseUint8 b arg.text = .ok value := by
    cases result : parseUint8 b arg.text with
    | error stop =>
      rw [result] at ok
      cases ok
    | ok byte =>
      rw [result] at ok
      cases ok
      rfl
  rw [argAt_found found]
  simp only [Prog.done_bind,accepted,report]

theorem prologue_gives (order : Endian) (s : Bus) (stale : SmbusOpParams) (op : SmbusOp) (has : op.size.hasRegister = true)
    (bus : byteAt b argv 1 = some i2cBus) (device : byteAt b argv 2 = some address) (register : byteAt b argv 3 = some reg) :
    Gives (Bus.kernel order) (smbusPrologue b argv stale op) s []
      (some {stale with i2cBus := i2cBus,address := address,reg := reg,fd := 3}) (s.on i2cBus address) := by
  unfold smbusPrologue
  rw [byteAt_reported bus]
  dsimp only
  rw [byteAt_reported device]
  dsimp only
  rw [if_pos has,byteAt_reported register]
  exact ⟨_,rfl,rfl⟩

theorem registers_has {size : SmbusSize} (sized : size.registers = some count) :
    size.hasRegister = true ∧ size.fixedBytes = some count ∧ size.isBlock = false := by
  cases size with
  | size8 | size16 | size32 | size64 =>
    cases sized
    exact ⟨rfl,rfl,rfl⟩
  | _ => cases sized

theorem parsed_access (accepted : parsed b argv op = some params) (has : op.size.hasRegister = true)
    (index : op.operandIndex = none ∨ ∃ i, op.operandIndex = some i ∧ op.performOp ≠ .writeread) :
    byteAt b argv 1 = some params.i2cBus ∧ byteAt b argv 2 = some params.address ∧ byteAt b argv 3 = some params.reg := by
  simp only [parsed,registerOf,has,if_true,Option.bind_eq_bind,Option.bind_eq_some_iff] at accepted
  obtain ⟨bus,busTaken,address,addressTaken,reg,regTaken,rest⟩ := accepted
  rcases index with plain | ⟨i,operand,single⟩
  · rw [plain] at rest
    cases rest
    exact ⟨busTaken,addressTaken,regTaken⟩
  · rw [operand] at rest
    simp only [single,if_false,Option.bind_eq_some_iff,Option.some.injEq] at rest
    obtain ⟨stored,taken,rfl⟩ := rest
    obtain ⟨arg,_,ok⟩ := operandAt_some taken
    have kept := parseIoWidth_keeps ok
    rw [kept]
    exact ⟨busTaken,addressTaken,regTaken⟩

def Bus.shut (s : Bus) : Bus := {s with handle := none}

theorem closed_gives {order : Endian} {program : Action Int} {s : Bus}
    (gives : Gives (Bus.kernel order) program s text value s') (fd : Int) :
    Gives (Bus.kernel order) (program >>= fun ret => .call (.close fd) (fun _ => .done ret)) s text value s'.shut := by
  have closes : Gives (Bus.kernel order) (.call (.close fd) (fun _ => .done value)) s' [] value s'.shut := ⟨_,rfl,rfl⟩
  have both : Gives (Bus.kernel order) (program >>= fun ret => .call (.close fd) (fun _ => .done ret)) s (text ++ []) value
      s'.shut := gives.bind closes
  rwa [List.append_nil] at both

theorem smbusRead_gives (b : Build) (s : Bus) (sized : size.registers = some count)
    (privdata : info.privdata = .smbusOp ⟨size,.read⟩) (accepted : parsed b argv ⟨size,.read⟩ = some params) :
    Gives (Bus.kernel b.order) (smbusRead b argv info) s
      (valueText (2 * count) (decode (lineOrder b size) (registersAt (s.device params) params.reg count))) 0
      (s.ready params).shut := by
  obtain ⟨has,_,_⟩ := registers_has sized
  obtain ⟨bus,device,register⟩ := parsed_access accepted has (.inl rfl)
  let stale := Call.succeeds .staleParams
  let held : SmbusOpParams := {stale with i2cBus := params.i2cBus,address := params.address,reg := params.reg,fd := 3}
  have ends := closed_gives (readOp_gives b s held sized) 3
  have opened := prologue_gives b.order s stale ⟨size,.read⟩ has bus device register
  unfold smbusRead smbusOpOf
  rw [privdata]
  exact staleParams_gives b s (opened.bind ends)

theorem stored_operand (accepted : parsed b argv ⟨size,.write⟩ = some params) (sized : size.registers = some count)
    (held : SmbusOpParams) : ∃ arg stored, argv[4]? = some arg ∧ parseIoWidth b arg.text held size = .ok stored ∧
      stored = {held with data := SmbusDtype.setFixed b Buffer.zero count (operandValue b size arg.text)} := by
  obtain ⟨_,fixed,plain⟩ := registers_has sized
  have index : SmbusOp.operandIndex ⟨size,.write⟩ = some 4 := by
    cases size with
    | size8 | size16 | size32 | size64 => rfl
    | _ => cases sized
  obtain ⟨arg,base,stored,found,ok,_⟩ := parsed_operand accepted index
  obtain ⟨value,scratch,_⟩ := parseIoWidth_scratch ok
  have taken : parseIoWidth b arg.text held size = .ok {held with data := value.data} := by
    rw [parseIoWidth_frame,scratch]
    simp [Except.map,plain]
  exact ⟨arg,_,found,taken,by rw [← parseIoWidth_fixed fixed taken]⟩

theorem smbusWrite_gives (b : Build) (s : Bus) (sized : size.registers = some count)
    (privdata : info.privdata = .smbusOp ⟨size,.write⟩) (accepted : parsed b argv ⟨size,.write⟩ = some params) :
    ∃ arg, argv[4]? = some arg ∧ Gives (Bus.kernel b.order) (smbusWrite b argv info) s [] 0
      ((s.turned params (registersSet (s.device params) params.reg
        (encode (lineOrder b size) count (operandValue b size arg.text)))).ready params).shut := by
  obtain ⟨has,_,_⟩ := registers_has sized
  have index : SmbusOp.operandIndex ⟨size,.write⟩ = some 4 ∧ ¬ (size = .byte ∨ size = .quick) := by
    cases size with
    | size8 | size16 | size32 | size64 => exact ⟨rfl,by decide⟩
    | _ => cases sized
  obtain ⟨bus,device,register⟩ := parsed_access accepted has (.inr ⟨4,index.1,by simp⟩)
  let stale := Call.succeeds .staleParams
  let held : SmbusOpParams := {stale with i2cBus := params.i2cBus,address := params.address,reg := params.reg,fd := 3}
  obtain ⟨arg,stored,found,taken,same⟩ := stored_operand accepted sized held
  have ends := closed_gives (writeOp_gives b s stored sized (by rw [same])) 3
  have opened := prologue_gives b.order s stale ⟨size,.write⟩ has bus device register
  refine ⟨arg,found,?_⟩
  have operand : Gives (Bus.kernel b.order) (operandThenOp b argv held ⟨size,.write⟩ 4) (s.ready stored) []  0
      ((s.turned params (registersSet (s.device params) params.reg
        (encode (lineOrder b size) count (operandValue b size arg.text)))).ready params).shut := by
    unfold operandThenOp
    rw [argAt_found found]
    simp only [Prog.done_bind,taken,report]
    subst same
    exact ends
  unfold smbusWrite smbusOpOf
  rw [privdata]
  refine staleParams_gives b s (opened.bind ?_)
  dsimp only
  rw [if_neg index.2]
  subst same
  exact operand

end Iotools
