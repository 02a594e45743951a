import Iotools.SmbusGuarantees
import Iotools.SmbusRoundTrip

namespace Iotools
open Bytes Numeral Interaction

-- The data bytes a write puts on the wire, in their order there. The kernel
-- sends a word low byte first, and the bytes of an I2C block as they are.
def Wire.sent (b : Build) : Wire → List UInt8
  | .smbus _ _ .wordData word => toLittle 2 (decode b.order word)
  | .smbus _ _ .i2cBlockData (_ :: bytes) => bytes
  | _ => []

def Delivered (b : Build) (size : SmbusSize) (data : I2cSmbusData) (bytes : List UInt8) : Prop :=
  if size = .size16 then I2cSmbusData.word b data = ofLittle bytes else data.slice 1 bytes.length = bytes

-- The widths the two byte orders are about.
def SmbusSize.wide (size : SmbusSize) : Bool := size = .size16 || size = .size32 || size = .size64

-- Where the order of the host does not show: the word path leaves it to the
-- kernel, the others hand over the bytes as they lie in memory.
def OrderHidden (b : Build) (size : SmbusSize) (bytes : List UInt8) : Prop :=
  b.order = .little ∨ size = .size16 ∨ bytes.reverse = bytes

instance (b : Build) (size : SmbusSize) (bytes : List UInt8) : Decidable (OrderHidden b size bytes) :=
  inferInstanceAs (Decidable (_ ∨ _ ∨ _))

instance (b : Build) (size : SmbusSize) (data : I2cSmbusData) (bytes : List UInt8) :
    Decidable (Delivered b size data bytes) :=
  inferInstanceAs (Decidable (if size = .size16 then _ else _))

theorem setFixed_slice (b : Build) (data : SmbusDtype) (value : Nat) (fits : size ≤ 34) :
    (SmbusDtype.setFixed b data size value).slice 0 size = encode b.order size value := by
  have back := Buffer.slice_patch data (encode b.order size value) (show 0 + _ ≤ 34 by simpa using fits)
  rwa [encode_length] at back

theorem sent_written (b : Build) (wide : size.wide = true) (sized : size.bytes = some count)
    (stored : params.data = SmbusDtype.setFixed b Buffer.zero count value) :
    (wireOf ⟨size,.write⟩ params).sent b = if size = .size16 then toLittle count value else encode b.order count value := by
  cases size with
  | size16 =>
    cases sized
    have bytes := setFixed_slice b Buffer.zero value (show 2 ≤ 34 by decide)
    simp only [wireOf,writeWire,Wire.sent,stored,bytes,decode_encode,toLittle_mod]
    rfl
  | size32 | size64 =>
    cases sized
    simp only [wireOf,writeWire,Wire.sent,stored]
    exact setFixed_slice b Buffer.zero value (by decide)
  | _ => cases wide

theorem sent_written_iff (b : Build) (wide : size.wide = true) (sized : size.bytes = some count)
    (stored : params.data = SmbusDtype.setFixed b Buffer.zero count value) :
    (wireOf ⟨size,.write⟩ params).sent b = toLittle count value ↔ OrderHidden b size (toLittle count value) := by
  rw [sent_written b wide sized stored]
  by_cases word : size = .size16
  · simp [word,OrderHidden]
  · simp [word,OrderHidden,encode_eq_toLittle]

theorem answerText_iff (b : Build) (wide : size.wide = true) (sized : size.bytes = some count)
    (whole : bytes.length = count) (delivered : Delivered b size data bytes) :
    answerText b size data = valueText (2 * count) (ofLittle bytes) ↔ OrderHidden b size bytes := by
  cases size with
  | size16 =>
    cases sized
    have word : I2cSmbusData.word b data = ofLittle bytes := delivered
    simp [answerText,word,OrderHidden]
  | size32 | size64 =>
    cases sized
    have block : data.slice 1 bytes.length = bytes := delivered
    rw [whole] at block
    simp [answerText,block,valueText,hexUpper_inj,decode_eq_ofLittle,OrderHidden]
  | _ => cases wide

theorem wide_bytes {size : SmbusSize} (wide : size.wide = true) : ∃ count, size.bytes = some count ∧ size.fixedBytes = some count := by
  cases size with
  | size16 => exact ⟨2,rfl,rfl⟩
  | size32 => exact ⟨4,rfl,rfl⟩
  | size64 => exact ⟨8,rfl,rfl⟩
  | _ => cases wide

-- Written and read values have the wire order of the bus exactly where the
-- order of the host does not show.
theorem smbus_byte_order_iff (b : Build) (fuel : Nat) (argv : List Arg) (info : CmdInfo) (member : info ∈ smbusCmds)
    (wide : info.smbusOp.size.wide = true) (kernel : Kernel Sys σ) (s : σ)
    (zero : ((runInfo b fuel argv info).exec kernel s).outcome = .ok 0) :
    ∃ count t, info.smbusOp.size.bytes = some count ∧ transfers ((runInfo b fuel argv info).exec kernel s).trace = [t] ∧
      (info.smbusOp.performOp = .write → ∃ arg, argv[4]? = some arg ∧
        (t.wire.sent b = toLittle count (operandValue b info.smbusOp.size arg.text) ↔
          OrderHidden b info.smbusOp.size (toLittle count (operandValue b info.smbusOp.size arg.text)))) ∧
      (info.smbusOp.performOp = .read → ∀ bytes, bytes.length = count → Delivered b info.smbusOp.size t.data bytes →
        (printed ((runInfo b fuel argv info).exec kernel s).trace = valueText (2 * count) (ofLittle bytes) ↔
          OrderHidden b info.smbusOp.size bytes)) := by
  have served := (smbus_served b fuel argv member).exec kernel s
  rw [zero] at served
  obtain ⟨params,t,accepted,single,asked,ends⟩ := served.success
  obtain ⟨count,sized,fixed⟩ := wide_bytes wide
  refine ⟨count,t,sized,single,?_,?_⟩
  · intro writes
    have index : info.smbusOp.operandIndex = some 4 := by
      revert wide
      unfold SmbusOp.operandIndex SmbusSize.wide
      rw [writes]
      cases info.smbusOp.size <;> simp
    obtain ⟨arg,found,stored⟩ := operand_stored fixed index accepted
    have same : info.smbusOp = ⟨info.smbusOp.size,.write⟩ := by rw [← writes]
    rw [same] at asked
    exact ⟨arg,found,by rw [asked]; exact sent_written_iff b wide sized stored⟩
  · intro reads bytes whole delivered
    have text : AcceptRead b info.smbusOp.size t (printed ((runInfo b fuel argv info).exec kernel s).trace) := by
      simpa only [acceptOf,reads] using ends
    have free : Bounded info.smbusOp.size t.data := by
      rintro (block | block) <;> simp [block,SmbusSize.wide] at wide
    rw [text.2 free]
    exact answerText_iff b wide sized whole delivered

def blockDevice : I2cSmbusData := Buffer.zero.patch 0 [4,0x44,0x33,0x22,0x11]

def write32Info : CmdInfo :=
  makeCmdWithParams "smbus_write32" .smbusWrite (.smbusOp ⟨.size32,.write⟩) smbusWriteParams
def read32Info : CmdInfo := makeCmdWithParams "smbus_read32" .smbusRead (.smbusOp ⟨.size32,.read⟩) smbusReadParams

theorem smbus_32_reversed_on_big_endian :
    let written := (runInfo .ppc64 0 (["smbus_write32","0","0x50","0x00","0x11223344"].map Arg.of) write32Info).exec smooth ()
    let read := (runInfo .ppc64 0 (["smbus_read32","0","0x50","0x00"].map Arg.of) read32Info).exec (answering blockDevice) ()
    write32Info ∈ smbusCmds ∧ read32Info ∈ smbusCmds ∧ written.outcome = .ok 0 ∧ read.outcome = .ok 0 ∧
    (transfers written.trace).map (fun t => t.wire.sent .ppc64) = [[0x11,0x22,0x33,0x44]] ∧
    toLittle 4 0x11223344 = [0x44,0x33,0x22,0x11] ∧ Delivered .ppc64 .size32 blockDevice (toLittle 4 0x11223344) ∧
    printed read.trace = "0x44332211\n".toList ∧ valueText 8 (ofLittle (toLittle 4 0x11223344)) = "0x11223344\n".toList := by
  refine ⟨?_,?_,?_,?_,?_,?_,?_,?_,?_⟩
  all_goals decide +kernel

theorem smbus_byte_order_iff_palindrome :
    let argv := ["smbus_write32","0","0x50","0x00","0x11222211"].map Arg.of
    let run := (runInfo .ppc64 0 argv write32Info).exec smooth ()
    run.outcome = .ok 0 ∧ OrderHidden .ppc64 .size32 (toLittle 4 0x11222211) ∧
    ∃ count t, SmbusSize.bytes .size32 = some count ∧ transfers run.trace = [t] ∧
      (PerformOp.write = .write → ∃ arg, argv[4]? = some arg ∧
        (t.wire.sent .ppc64 = toLittle count (operandValue .ppc64 .size32 arg.text) ↔
          OrderHidden .ppc64 .size32 (toLittle count (operandValue .ppc64 .size32 arg.text)))) ∧
      (PerformOp.write = .read → ∀ bytes, bytes.length = count → Delivered .ppc64 .size32 t.data bytes →
        (printed run.trace = valueText (2 * count) (ofLittle bytes) ↔ OrderHidden .ppc64 .size32 bytes)) :=
  ⟨by decide +kernel,by decide +kernel,
    smbus_byte_order_iff .ppc64 0 _ write32Info (by decide) (by decide) smooth () (by decide +kernel)⟩

end Iotools
