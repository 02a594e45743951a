import Iotools.Traces
import Iotools.SmbusOperands
import Iotools.Tables

namespace Iotools
open Bytes Numeral Interaction

-- `program` ends with exactly one transfer, asks `wire` of the bus, and relates
-- the transfer to a normally returned value by `good`.
def Transacts (program : Action α) (wire : Wire) (good : Transferred → α → Prop) : Prop :=
  program.All (fun trace outcome => ∃ before e t, trace = before ++ [e] ∧ Quiet before ∧ Ready before ∧
    transferred e = some t ∧ t.wire = wire ∧ ∀ value, outcome = .ok value → good t value)

theorem Transacts.map {program : Action α} (once : Transacts program wire good) (f : α → β)
    (implies : ∀ t value, good t value → better t (f value)) :
    Transacts (program >>= fun value => .done (f value)) wire better := by
  refine Prog.All.bind once ?_ ?_
  · rintro trace reason ⟨before,e,t,shape,quiet,ready,sent,asked,_⟩
    exact ⟨before,e,t,shape,quiet,ready,sent,asked,by simp⟩
  · rintro trace value ⟨before,e,t,shape,quiet,ready,sent,asked,related⟩
    refine ⟨before,e,t,by simp [shape],quiet,ready,sent,asked,?_⟩
    rintro _ ⟨⟩
    exact implies t value (related value rfl)

theorem stale_transacts {next : Buffer size → Action α} (then_ : ∀ stale, Transacts (next stale) wire good) :
    Transacts (.call (.stale size) next) wire good := by
  intro stale
  refine (then_ stale).mono ?_
  rintro trace outcome ⟨before,e,t,shape,quiet,ready,rest⟩
  refine ⟨⟨.stale size,stale⟩ :: before,e,t,by simp [shape],?_,?_,rest⟩
  · simpa using quiet
  · simpa using ready

theorem access_transacts (file : Int) (args : I2cSmbusIoctlData) {finish : Int × I2cSmbusData → Action α}
    (silent : ∀ reply, (finish reply).All (fun trace outcome =>
      trace = [] ∧ ∀ value, outcome = .ok value → good (.smbus args reply) value)) :
    Transacts (i2cSmbusAccess file args.readWrite args.command args.size args.data >>= finish)
      (.smbus args.readWrite args.command args.size (payload args)) good := by
  intro reply
  refine (silent reply).mono ?_
  rintro trace outcome ⟨rfl,related⟩
  exact ⟨[],⟨.ioctlSmbus file args,reply⟩,.smbus args reply,rfl,by simp,by simp,rfl,rfl,related⟩

theorem fillBlock_payload (data : I2cSmbusData) (values : SmbusDtype) (small : length.toNat ≤ 32) :
    blockPayload (fillBlock data length values) = length :: values.slice 0 length.toNat := by
  have clamp : ¬ (32 : UInt8) < length := by
    rw [UInt8.lt_iff_toNat_lt]; simpa using small
  have size : (values.slice 0 length.toNat).length = length.toNat := Buffer.slice_length _ (by omega)
  have first : ((data.patch 1 (values.slice 0 length.toNat)).patch 0 [length]) 0 = length :=
    Buffer.patch_inside _ [length] 0 0 rfl (by simp)
  have rest : ((data.patch 1 (values.slice 0 length.toNat)).patch 0 [length]).slice 1 length.toNat =
      values.slice 0 length.toNat := by
    rw [Buffer.slice_patch_disjoint _ _ (by simp)]
    have back := Buffer.slice_patch data (values.slice 0 length.toNat) (show 1 + _ ≤ 35 by omega)
    rwa [size] at back
  simp only [blockPayload,fillBlock,clamp,if_false,first,rest]

theorem fixed_setFixed (b : Build) (data : SmbusDtype) (value : Nat) (fits : size ≤ 34) :
    SmbusDtype.fixed b (SmbusDtype.setFixed b data size value) size = value % 256 ^ size := by
  have back := Buffer.slice_patch data (encode b.order size value) (show 0 + _ ≤ 34 by simpa using fits)
  rw [encode_length] at back
  rw [SmbusDtype.fixed,SmbusDtype.setFixed,back,decode_encode]

-- The write calls return the result of the ioctl.
theorem writeQuick_transacts (file : Int) (value : UInt8) :
    Transacts (i2cSmbusWriteQuick file value) (.smbus value 0 .quick []) (fun t v => v = t.result) :=
  access_transacts file ⟨value,0,.quick,none⟩ (fun reply => by simp [Transferred.result])

theorem writeByte_transacts (file : Int) (value : UInt8) :
    Transacts (i2cSmbusWriteByte file value) (.smbus 0 value .byte []) (fun t v => v = t.result) :=
  access_transacts file ⟨0,value,.byte,none⟩ (fun reply => by simp [Transferred.result])

theorem writeByteData_transacts (file : Int) (command value : UInt8) :
    Transacts (i2cSmbusWriteByteData file command value) (.smbus 0 command .byteData [value])
      (fun t v => v = t.result) := by
  refine stale_transacts (fun stale => ?_)
  have sent : payload ⟨0,command,.byteData,some (stale.patch 0 [value])⟩ = [value] :=
    Buffer.slice_patch stale [value] (by simp)
  rw [← sent]
  exact access_transacts file ⟨0,command,.byteData,some _⟩ (fun reply => by simp [Transferred.result])

theorem writeWordData_transacts (b : Build) (file : Int) (command : UInt8) (value : Nat) :
    Transacts (i2cSmbusWriteWordData b file command value) (.smbus 0 command .wordData (encode b.order 2 value))
      (fun t v => v = t.result) := by
  refine stale_transacts (fun stale => ?_)
  have back := Buffer.slice_patch stale (encode b.order 2 value) (show 0 + _ ≤ 35 by simp)
  rw [encode_length] at back
  have sent : payload ⟨0,command,.wordData,some (stale.patch 0 (encode b.order 2 value))⟩ = encode b.order 2 value := back
  rw [← sent]
  exact access_transacts file ⟨0,command,.wordData,some _⟩ (fun reply => by simp [Transferred.result])

theorem writeBlockData_transacts (file : Int) (command length : UInt8) (values : SmbusDtype) (small : length.toNat ≤ 32) :
    Transacts (i2cSmbusWriteBlockData file command length values)
      (.smbus 0 command .blockData (length :: values.slice 0 length.toNat)) (fun t v => v = t.result) := by
  refine stale_transacts (fun stale => ?_)
  rw [← fillBlock_payload stale values small]
  exact access_transacts file ⟨0,command,.blockData,some _⟩ (fun reply => by simp [Transferred.result])

theorem writeI2cBlockData_transacts (file : Int) (command length : UInt8) (values : SmbusDtype)
    (small : length.toNat ≤ 32) :
    Transacts (i2cSmbusWriteI2cBlockData file command length values)
      (.smbus 0 command .i2cBlockData (length :: values.slice 0 length.toNat)) (fun t v => v = t.result) := by
  refine stale_transacts (fun stale => ?_)
  rw [← fillBlock_payload stale values small]
  exact access_transacts file ⟨0,command,.i2cBlockData,some _⟩ (fun reply => by simp [Transferred.result])

-- The read calls return -1 unless the ioctl returned 0.
def scalarAnswer (t : Transferred) (value : Nat) : Int := if t.result ≠ 0 then -1 else value

theorem readByte_transacts (file : Int) :
    Transacts (i2cSmbusReadByte file) (.smbus 1 0 .byte [])
      (fun t v => v = scalarAnswer t (t.data 0).toNat) := by
  refine stale_transacts (fun stale => access_transacts file ⟨1,0,.byte,some stale⟩ (fun reply => ?_))
  split <;> simp_all [scalarAnswer,Transferred.result,Transferred.data]

theorem readByteData_transacts (file : Int) (command : UInt8) :
    Transacts (i2cSmbusReadByteData file command) (.smbus 1 command .byteData [])
      (fun t v => v = scalarAnswer t (t.data 0).toNat) := by
  refine stale_transacts (fun stale => access_transacts file ⟨1,command,.byteData,some stale⟩ (fun reply => ?_))
  split <;> simp_all [scalarAnswer,Transferred.result,Transferred.data]

theorem readWordData_transacts (b : Build) (file : Int) (command : UInt8) :
    Transacts (i2cSmbusReadWordData b file command) (.smbus 1 command .wordData [])
      (fun t v => v = scalarAnswer t (I2cSmbusData.word b t.data)) := by
  refine stale_transacts (fun stale => access_transacts file ⟨1,command,.wordData,some stale⟩ (fun reply => ?_))
  split <;> simp_all [scalarAnswer,Transferred.result,Transferred.data]

theorem processCall_transacts (b : Build) (file : Int) (command : UInt8) (value : Nat) :
    Transacts (i2cSmbusProcessCall b file command value) (.smbus 0 command .procCall (encode b.order 2 value))
      (fun t v => v = scalarAnswer t (I2cSmbusData.word b t.data)) := by
  refine stale_transacts (fun stale => ?_)
  have back := Buffer.slice_patch stale (encode b.order 2 value) (show 0 + _ ≤ 35 by simp)
  rw [encode_length] at back
  have sent : payload ⟨0,command,.procCall,some (stale.patch 0 (encode b.order 2 value))⟩ = encode b.order 2 value := back
  rw [← sent]
  refine access_transacts file ⟨0,command,.procCall,some _⟩ (fun reply => ?_)
  split <;> simp_all [scalarAnswer,Transferred.result,Transferred.data]

def blockAnswer (values : SmbusDtype) (t : Transferred) : Int × SmbusDtype :=
  if t.result ≠ 0 then (-1,values)
  else ((t.data 0).toNat,values.patch 0 (t.data.slice 1 (t.data 0).toNat))

theorem blockAnswer_failed (values : SmbusDtype) (failed : t.result ≠ 0) : blockAnswer values t = (-1,values) :=
  if_pos failed

theorem blockAnswer_ok (values : SmbusDtype) (ok : t.result = 0) :
    blockAnswer values t = (((t.data 0).toNat : Int),values.patch 0 (t.data.slice 1 (t.data 0).toNat)) :=
  if_neg (by simp [ok])

theorem copyBlock_silent (args : I2cSmbusIoctlData) (reply : Int × I2cSmbusData) (values : SmbusDtype) :
    (if reply.1 ≠ 0 then pure (-1,values) else do
      let copied ← copyBlock reply.2 values
      return (((reply.2 0).toNat : Int),copied) : Action (Int × SmbusDtype)).All (fun trace outcome =>
        trace = [] ∧ ∀ value, outcome = .ok value → value = blockAnswer values (.smbus args reply)) := by
  by_cases failed : reply.1 ≠ 0
  · simp [failed,blockAnswer,Transferred.result]
  · by_cases long : 34 < (reply.2 0).toNat
    · simp [failed,copyBlock,long]
    · simp [failed,copyBlock,long,blockAnswer,Transferred.result,Transferred.data]

theorem readBlockData_transacts (file : Int) (command : UInt8) (values : SmbusDtype) :
    Transacts (i2cSmbusReadBlockData file command values) (.smbus 1 command .blockData [])
      (fun t v => v = blockAnswer values t) :=
  stale_transacts (fun stale => access_transacts file ⟨1,command,.blockData,some stale⟩
    (fun reply => copyBlock_silent _ reply values))

theorem readI2cBlockData_transacts (file : Int) (command length : UInt8) (values : SmbusDtype)
    (small : length.toNat ≤ 32) :
    Transacts (i2cSmbusReadI2cBlockData file command length values) (.smbus 1 command .i2cBlockData [length])
      (fun t v => v = blockAnswer values t) := by
  refine stale_transacts (fun stale => ?_)
  have clamp : ¬ (32 : UInt8) < length := by
    rw [UInt8.lt_iff_toNat_lt]; simpa using small
  simp only [clamp,if_false]
  have sent : payload ⟨1,command,.i2cBlockData,some (stale.patch 0 [length])⟩ = [length] :=
    Buffer.slice_patch stale [length] (by simp)
  rw [← sent]
  exact access_transacts file ⟨1,command,.i2cBlockData,some _⟩ (fun reply => copyBlock_silent _ reply values)

theorem blockProcessCall_transacts (file : Int) (command length : UInt8) (values : SmbusDtype)
    (small : length.toNat ≤ 32) :
    Transacts (i2cSmbusBlockProcessCall file command length values)
      (.smbus 0 command .blockProcCall (length :: values.slice 0 length.toNat)) (fun t v => v = blockAnswer values t) := by
  refine stale_transacts (fun stale => ?_)
  rw [← fillBlock_payload stale values small]
  exact access_transacts file ⟨0,command,.blockProcCall,some _⟩ (fun reply => copyBlock_silent _ reply values)

-- How a command uses the bus: either no transfer is made, nothing is printed
-- and 0 is not returned; or exactly one transfer is made, behind successful
-- preparations, and what follows it is determined by its answer.
def Conducted (wire : Wire) (accept : Transferred → Text → Prop) (trace : Trace Sys) (outcome : Except Fault Int) :
    Prop :=
  (Quiet trace ∧ outcome ≠ .ok 0) ∨
  ∃ before e after t, trace = before ++ e :: after ∧ Quiet before ∧ Ready before ∧ transferred e = some t ∧
    t.wire = wire ∧ transfers after = [] ∧ (outcome = .ok 0 → accept t (printed after)) ∧
    (outcome ≠ .ok 0 → printed after = [])

theorem Conducted.prepend (conducted : Conducted wire accept trace outcome) (quiet : Quiet before)
    (ready : Ready before) : Conducted wire accept (before ++ trace) outcome := by
  rcases conducted with ⟨idle,failed⟩ | ⟨pre,e,after,t,rfl,quietPre,readyPre,rest⟩
  · exact .inl ⟨quiet.append idle,failed⟩
  · exact .inr ⟨before ++ pre,e,after,t,by simp,quiet.append quietPre,by simp [ready,readyPre],rest⟩

def Finishes (accept : Text → Prop) (trace : Trace Sys) (outcome : Except Fault Int) : Prop :=
  transfers trace = [] ∧ (outcome = .ok 0 → accept (printed trace)) ∧ (outcome ≠ .ok 0 → printed trace = [])

theorem Transacts.conducted {program : Action α} {next : α → Action Int} (once : Transacts program wire good)
    (finish : ∀ t value, good t value → (next value).All (Finishes (accept t))) :
    (program >>= next).All (Conducted wire accept) := by
  refine Prog.All.bind once ?_ ?_
  · rintro trace reason ⟨before,e,t,rfl,quiet,ready,sent,asked,_⟩
    exact .inr ⟨before,e,[],t,by simp,quiet,ready,sent,asked,by simp,by simp,by simp⟩
  · rintro trace value ⟨before,e,t,rfl,quiet,ready,sent,asked,related⟩
    refine (finish t value (related value rfl)).mono ?_
    rintro later outcome ⟨silent,accepted,failed⟩
    exact .inr ⟨before,e,later,t,by simp,quiet,ready,sent,asked,silent,accepted,failed⟩

theorem conducted_close {program : Action Int} (conducted : program.All (Conducted wire accept)) (fd : Int) :
    (program >>= fun ret => .call (.close fd) (fun _ => .done ret)).All (Conducted wire accept) := by
  refine Prog.All.bind conducted (fun _ _ h => h) ?_
  rintro trace value (⟨idle,failed⟩ | ⟨before,e,after,t,rfl,quiet,ready,sent,asked,silent,accepted,refused⟩) reply
  · exact .inl ⟨idle.append (by simp),failed⟩
  · refine .inr ⟨before,e,after ++ [⟨.close fd,reply⟩],t,by simp,quiet,ready,sent,asked,?_,?_,?_⟩
    · simp [silent,transfers_cons]
    · simpa using accepted
    · simpa using refused

theorem forceSlave_conducted {params : SmbusOpParams} {program : Action Int}
    (conducted : program.All (Conducted wire accept)) :
    (forceSlave params >>= fun forced => if forced then program else .done (-1)).All (Conducted wire accept) := by
  have forced : (forceSlave params).All (fun trace outcome => Quiet trace ∧ (outcome = .ok false ∨ outcome = .ok true ∧ Ready trace)) := by
    simp only [forceSlave,Prog.call_bind,Prog.done_bind,Prog.all_call]
    intro (result : Int)
    by_cases failed : result < 0
    · simp [failed,complain]
    · have good : 0 ≤ result := by omega
      simp [failed,good]
  refine Prog.All.bind forced ?_ ?_
  · rintro trace reason ⟨_,never | ⟨never,_⟩⟩ <;> cases never
  · rintro trace value ⟨quiet,failed | ⟨ok,ready⟩⟩
    · cases failed
      exact .inl ⟨by simpa using quiet,by simp⟩
    · cases ok
      exact conducted.mono (fun later outcome h => h.prepend quiet ready)

def valueText (digits value : Nat) : Text := "0x".toList ++ hexUpper digits value ++ "\n".toList
def blockDigits (bytes : List UInt8) : Text := bytes.flatMap (fun byte => hexUpper 2 byte.toNat)
def blockText (bytes : List UInt8) : Text := blockDigits bytes ++ "\n".toList

def answerText (b : Build) (size : SmbusSize) (data : I2cSmbusData) : Text :=
  match size with
  | .byte | .size8 => valueText 2 (data 0).toNat
  | .size16 | .procCall => valueText 4 (I2cSmbusData.word b data)
  | .size32 => valueText 8 (decode b.order (data.slice 1 4))
  | .size64 => valueText 16 (decode b.order (data.slice 1 8))
  | .block | .blockProcCall => blockText (data.slice 1 (data 0).toNat)
  | _ => []

-- The kernel keeps block lengths within I2C_SMBUS_BLOCK_MAX.
def Bounded (size : SmbusSize) (data : I2cSmbusData) : Prop :=
  size = .block ∨ size = .blockProcCall → (data 0).toNat ≤ blockMax

def SmbusSize.readable (size : SmbusSize) : Bool :=
  size = .size8 || size = .size16 || size = .size32 || size = .size64 || size = .block || size = .byte

def readWire (size : SmbusSize) (reg : UInt8) : Wire :=
  match size with
  | .size8 => .smbus 1 reg .byteData []
  | .size16 => .smbus 1 reg .wordData []
  | .size32 => .smbus 1 reg .i2cBlockData [4]
  | .size64 => .smbus 1 reg .i2cBlockData [8]
  | .block => .smbus 1 reg .blockData []
  | _ => .smbus 1 0 .byte []

def AcceptRead (b : Build) (size : SmbusSize) (t : Transferred) (text : Text) : Prop :=
  t.result = 0 ∧ (Bounded size t.data → text = answerText b size t.data)

-- What the switch of smbus_read_op leaves for the common tail.
def Fetched (b : Build) (size : SmbusSize) (t : Transferred) (fetched : Option (Int × SmbusDtype)) : Prop :=
  ∃ result data, fetched = some (result,data) ∧ (0 ≤ result → t.result = 0 ∧
    (Bounded size t.data → readText b size result data = some (answerText b size t.data)))

theorem toUnsigned_small (small : value < 2 ^ 32) : toUnsigned (value : Nat) = value := by
  unfold toUnsigned
  omega

theorem fetched_scalar (b : Build) (size : SmbusSize) (t : Transferred) (small : value < 256 ^ bytes) (le : bytes ≤ 2)
    (text : ∀ data, SmbusDtype.fixed b data bytes = value → readText b size value data = some (answerText b size t.data)) :
    Fetched b size t (some (scalarAnswer t value,SmbusDtype.setFixed b Buffer.zero bytes (toUnsigned (scalarAnswer t value)))) := by
  refine ⟨_,_,rfl,fun positive => ?_⟩
  have ok : t.result = 0 := by
    by_contra failed
    simp [scalarAnswer,failed] at positive
  have same : scalarAnswer t value = (value : Nat) := by simp [scalarAnswer,ok]
  have bound : 256 ^ bytes ≤ 256 ^ 2 := Nat.pow_le_pow_right (by decide) le
  refine ⟨ok,fun _ => ?_⟩
  rw [same,toUnsigned_small (by omega)]
  apply text
  rw [fixed_setFixed b _ _ (by omega),Nat.mod_eq_of_lt small]

theorem slice_patch_front (values : SmbusDtype) (data : I2cSmbusData) (fits : count ≤ 34) :
    (values.patch 0 (data.slice 1 count)).slice 0 count = data.slice 1 count := by
  have size : (data.slice 1 count).length = count := Buffer.slice_length _ (by omega)
  have back := Buffer.slice_patch values (data.slice 1 count) (show 0 + _ ≤ 34 by omega)
  rwa [size] at back

theorem fetched_wide (b : Build) (size : SmbusSize) (t : Transferred) (fits : count ≤ 8) (positive : 0 < count)
    (text : ∀ data : SmbusDtype, data.slice 0 count = t.data.slice 1 count →
      readText b size count data = some (answerText b size t.data)) :
    Fetched b size t (some (if (blockAnswer Buffer.zero t).1 ≠ (count : Int) then -1 else (blockAnswer Buffer.zero t).1,
      (blockAnswer Buffer.zero t).2)) := by
  by_cases ok : t.result = 0
  · rw [blockAnswer_ok _ ok]
    refine ⟨_,_,rfl,fun nonneg => ⟨ok,fun _ => ?_⟩⟩
    have wanted : (t.data 0).toNat = count := by
      by_contra other
      have differs : ((t.data 0).toNat : Int) ≠ count := by omega
      simp [differs] at nonneg
    rw [wanted,if_neg (by simp)]
    exact text _ (slice_patch_front _ _ (by omega))
  · rw [blockAnswer_failed _ ok]
    refine ⟨_,_,rfl,fun nonneg => ?_⟩
    split at nonneg <;> omega

theorem readText_block (b : Build) (data : SmbusDtype) (small : count ≤ blockMax) :
    readText b .block count data = some (blockText (data.slice 0 count)) := by
  have clamp : ¬ ((count : Int) > blockMax) := by omega
  simp [readText,clamp,blockText,blockDigits]

theorem readTransfer_transacts (b : Build) (params : SmbusOpParams) (size : SmbusSize) (readable : size.readable = true) :
    Transacts (readTransfer b params size) (readWire size params.reg) (Fetched b size) := by
  cases size with
  | size8 =>
    refine (readByteData_transacts params.fd params.reg).map _ ?_
    rintro t _ rfl
    exact fetched_scalar b .size8 t (by simpa using (t.data 0).toNat_lt) (by decide)
      (fun data fixed => by simp [readText,answerText,valueText,fixed])
  | size16 =>
    refine (readWordData_transacts b params.fd params.reg).map _ ?_
    rintro t _ rfl
    have small : I2cSmbusData.word b t.data < 256 ^ 2 := by
      have := decode_lt b.order (t.data.slice 0 2)
      rwa [Buffer.slice_length _ (by omega)] at this
    exact fetched_scalar b .size16 t small (by decide)
      (fun data fixed => by simp [readText,answerText,valueText,fixed])
  | size32 =>
    refine (readI2cBlockData_transacts params.fd params.reg 4 Buffer.zero (by decide)).map _ ?_
    rintro t _ rfl
    exact fetched_wide b .size32 t (by decide) (by decide)
      (fun data front => by simp [readText,answerText,valueText,SmbusDtype.fixed,front])
  | size64 =>
    refine (readI2cBlockData_transacts params.fd params.reg 8 Buffer.zero (by decide)).map _ ?_
    rintro t _ rfl
    exact fetched_wide b .size64 t (by decide) (by decide)
      (fun data front => by simp [readText,answerText,valueText,SmbusDtype.fixed,front])
  | block =>
    refine (readBlockData_transacts params.fd params.reg Buffer.zero).map _ ?_
    rintro t _ rfl
    by_cases ok : t.result = 0
    · rw [blockAnswer_ok _ ok]
      refine ⟨_,_,rfl,fun _ => ⟨ok,fun bounded => ?_⟩⟩
      have small := bounded (.inl rfl)
      rw [readText_block b _ small,slice_patch_front _ _ (by unfold blockMax at small; omega)]
      rfl
    · rw [blockAnswer_failed _ ok]
      exact ⟨_,_,rfl,fun nonneg => by omega⟩
  | byte =>
    refine (readByte_transacts params.fd).map _ ?_
    rintro t _ rfl
    exact fetched_scalar b .byte t (by simpa using (t.data 0).toNat_lt) (by decide)
      (fun data fixed => by simp [readText,answerText,valueText,fixed])
  | quick | procCall | blockProcCall | writeRead => cases readable

theorem readOp_conducted (b : Build) (params : SmbusOpParams) (op : SmbusOp) (readable : op.size.readable = true) :
    (smbusReadOp b params op).All (Conducted (readWire op.size params.reg) (AcceptRead b op.size)) := by
  refine (readTransfer_transacts b params op.size readable).conducted ?_
  rintro t _ ⟨result,data,rfl,fetched⟩
  by_cases failed : result < 0
  · by_cases byte : op.size = .byte
    · simp [failed,byte,complain,Finishes,transfers_cons]
    · simp [failed,byte,complain,Finishes,transfers_cons]
  · obtain ⟨ok,text⟩ := fetched (by omega)
    simp only [failed,if_false,printReadData]
    have some_ : (readText b op.size result data).isSome := by
      revert readable
      unfold SmbusSize.readable readText
      cases op.size <;> simp
    obtain ⟨shown,is⟩ := Option.isSome_iff_exists.mp some_
    rw [is] at text ⊢
    simp only [Option.some.injEq] at text
    simpa [Finishes,AcceptRead,transfers_cons,ok] using text

theorem slice_one (data : SmbusDtype) : data.slice 0 1 = [data 0] := by
  apply List.ext_getElem?
  intro i
  rw [Buffer.slice_getElem?]
  cases i <;> simp

theorem fixed_byte (b : Build) (data : SmbusDtype) : UInt8.ofNat (SmbusDtype.fixed b data 1) = data 0 := by
  unfold SmbusDtype.fixed
  rw [slice_one]
  cases b.order <;> simp [decode,ofLittle]

theorem fixed_encoded (b : Build) (data : SmbusDtype) (fits : size ≤ 34) :
    encode b.order size (SmbusDtype.fixed b data size) = data.slice 0 size := by
  have back := encode_decode b.order (data.slice 0 size)
  rwa [Buffer.slice_length _ (by omega)] at back

def SmbusSize.writable (size : SmbusSize) : Bool := size.readable || size = .quick

def writeWire (size : SmbusSize) (params : SmbusOpParams) : Wire :=
  match size with
  | .size8 => .smbus 0 params.reg .byteData [params.data 0]
  | .size16 => .smbus 0 params.reg .wordData (params.data.slice 0 2)
  | .size32 => .smbus 0 params.reg .i2cBlockData (4 :: params.data.slice 0 4)
  | .size64 => .smbus 0 params.reg .i2cBlockData (8 :: params.data.slice 0 8)
  | .block => .smbus 0 params.reg .blockData (UInt8.ofNat params.len.toNat :: params.data.slice 0 params.len.toNat)
  | .byte => .smbus 0 (params.data 0) .byte []
  | _ => .smbus (params.data 0) 0 .quick []

def AcceptWrite (t : Transferred) (text : Text) : Prop := 0 ≤ t.result ∧ text = []

theorem len_byte {len : Int} (nonneg : 0 ≤ len) (small : len ≤ blockMax) :
    UInt8.ofNat (toUnsigned len) = UInt8.ofNat len.toNat ∧ (UInt8.ofNat len.toNat).toNat = len.toNat := by
  unfold blockMax at small
  have same : toUnsigned len = len.toNat := by unfold toUnsigned; omega
  refine ⟨by rw [same],?_⟩
  rw [UInt8.toNat_ofNat']
  omega

theorem writeTransfer_transacts (b : Build) (params : SmbusOpParams) (size : SmbusSize) (writable : size.writable = true)
    (length : size = .block → 0 ≤ params.len ∧ params.len ≤ blockMax) :
    Transacts (writeTransfer b params size) (writeWire size params) (fun t v => v = some t.result) := by
  cases size with
  | size8 =>
    simp only [writeTransfer,fixed_byte]
    exact (writeByteData_transacts params.fd params.reg _).map _ (by simp)
  | size16 =>
    simp only [writeTransfer,writeWire,← fixed_encoded b params.data (show 2 ≤ 34 by decide)]
    exact (writeWordData_transacts b params.fd params.reg _).map _ (by simp)
  | size32 => exact (writeI2cBlockData_transacts params.fd params.reg 4 params.data (by decide)).map _ (by simp)
  | size64 => exact (writeI2cBlockData_transacts params.fd params.reg 8 params.data (by decide)).map _ (by simp)
  | block =>
    obtain ⟨nonneg,small⟩ := length rfl
    obtain ⟨narrow,back⟩ := len_byte nonneg small
    simp only [writeTransfer,writeWire,narrow]
    have sent := writeBlockData_transacts params.fd params.reg (UInt8.ofNat params.len.toNat) params.data
      (by rw [back]; unfold blockMax at small; omega)
    rw [back] at sent
    exact sent.map _ (by simp)
  | byte =>
    simp only [writeTransfer,fixed_byte]
    exact (writeByte_transacts params.fd _).map _ (by simp)
  | quick =>
    simp only [writeTransfer,fixed_byte]
    exact (writeQuick_transacts params.fd _).map _ (by simp)
  | procCall | blockProcCall | writeRead => cases writable

theorem writeOp_conducted (b : Build) (params : SmbusOpParams) (op : SmbusOp) (writable : op.size.writable = true)
    (length : op.size = .block → 0 ≤ params.len ∧ params.len ≤ blockMax) :
    (smbusWriteOp b params op).All (Conducted (writeWire op.size params) AcceptWrite) := by
  refine forceSlave_conducted ?_
  refine (writeTransfer_transacts b params op.size writable length).conducted ?_
  rintro t _ rfl
  by_cases failed : t.result < 0
  · by_cases device : op.size ≠ .byte ∧ op.size ≠ .quick
    · simp [failed,device,complain,Finishes,transfers_cons]
    · simp only [failed,if_true,device,if_false]
      simp [complain,Finishes,transfers_cons]
  · have ok : 0 ≤ t.result := by omega
    simp [failed,Finishes,AcceptWrite,ok]

-- The word printed is the operand's, whatever was answered.
def AcceptProcessCall (b : Build) (params : SmbusOpParams) (t : Transferred) (text : Text) : Prop :=
  t.result = 0 ∧ text = valueText 4 (SmbusDtype.fixed b params.data 2)

theorem processCallOp_conducted (b : Build) (params : SmbusOpParams) :
    (smbusProcessCallOp b params).All
      (Conducted (.smbus 0 params.reg .procCall (params.data.slice 0 2)) (AcceptProcessCall b params)) := by
  refine forceSlave_conducted ?_
  rw [← fixed_encoded b params.data (show 2 ≤ 34 by decide)]
  refine (processCall_transacts b params.fd params.reg _).conducted ?_
  rintro t _ rfl
  by_cases ok : t.result = 0
  · have nonneg : ¬ scalarAnswer t (I2cSmbusData.word b t.data) < 0 := by simp [scalarAnswer,ok]
    simp [nonneg,printReadData,readText,Finishes,AcceptProcessCall,valueText,transfers_cons,ok]
  · have failed : scalarAnswer t (I2cSmbusData.word b t.data) < 0 := by simp [scalarAnswer,ok]
    simp [failed,complain,Finishes,transfers_cons]

def blockWire (transaction : Transaction) (params : SmbusOpParams) : Wire :=
  .smbus 0 params.reg transaction (UInt8.ofNat params.len.toNat :: params.data.slice 0 params.len.toNat)

theorem blockProcessCallOp_conducted (b : Build) (params : SmbusOpParams) (nonneg : 0 ≤ params.len)
    (small : params.len ≤ blockMax) :
    (smbusBlockProcessCallOp b params).All
      (Conducted (blockWire .blockProcCall params) (AcceptRead b .blockProcCall)) := by
  obtain ⟨narrow,back⟩ := len_byte nonneg small
  refine forceSlave_conducted ?_
  rw [narrow]
  have sent := blockProcessCall_transacts params.fd params.reg (UInt8.ofNat params.len.toNat) params.data
    (by rw [back]; unfold blockMax at small; omega)
  rw [back] at sent
  refine sent.conducted ?_
  rintro t _ rfl
  by_cases ok : t.result = 0
  · rw [blockAnswer_ok _ ok]
    have positive : ¬ ((t.data 0).toNat : Int) < 0 := by omega
    simp only [positive,if_false,printReadData]
    by_cases bounded : (t.data 0).toNat ≤ blockMax
    · rw [readText_block b _ bounded,slice_patch_front _ _ (by unfold blockMax at bounded; omega)]
      simp [Finishes,AcceptRead,answerText,transfers_cons,ok]
    · simp [readText,Finishes,AcceptRead,Bounded,bounded,transfers_cons,ok]
  · rw [blockAnswer_failed _ ok]
    simp [complain,Finishes,transfers_cons]

end Iotools
