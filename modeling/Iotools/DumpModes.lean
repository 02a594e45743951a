import Iotools.DumpText

namespace Iotools
open Bytes Numeral Interaction

-- Reading a dump back: the words of each line behind the address, and the bytes
-- a word stands for.
def decodeWord (order : Endian) (word : Text) : List UInt8 :=
  encode order ((word.drop 2).length / 2) (magnitude 16 (word.drop 2))

def decodeLine (order : Endian) (line : Text) : List UInt8 := ((line.splitOn ' ').drop 1).flatMap (decodeWord order)

def decodeDump (order : Endian) (text : Text) : List UInt8 := (text.splitOn '\n').flatMap (decodeLine order)

def DumpField.word (field : DumpField) : Text := "0x".toList ++ hexLower (field.size * 2) field.value

theorem DumpField.text_word (field : DumpField) : field.text = ' ' :: field.word := rfl

theorem DumpField.word_plain (field : DumpField) : ' ' ∉ field.word := by
  have digits : ' ' ∉ hexLower (field.size * 2) field.value := hexLower_notMem rfl
  have zero : "0x".toList = ['0','x'] := rfl
  simp [DumpField.word,zero,digits]

theorem decodeWord_field (order : Endian) (field : DumpField) (some_ : 0 < field.size)
    (fits : field.value < 256 ^ field.size) : decodeWord order field.word = field.bytes order := by
  have digits : field.word.drop 2 = hexLower (field.size * 2) field.value := rfl
  have small : field.value < 16 ^ (field.size * 2) := by
    rw [mul_comm,pow_mul]
    exact fits
  unfold decodeWord
  rw [digits,hexLower_length (by omega) small,magnitude_hexLower,Nat.mul_div_cancel _ (by decide)]
  rfl

theorem words_line (head : Text) (plain : ' ' ∉ head) (fields : List DumpField) :
    (head ++ fields.flatMap DumpField.text).splitOn ' ' = head :: fields.map DumpField.word := by
  induction fields generalizing head with
  | nil =>
    rw [List.flatMap_nil,List.append_nil]
    exact List.splitOn_eq_singleton plain
  | cons field rest ih =>
    rw [List.flatMap_cons,DumpField.text_word,List.cons_append,List.splitOn_append_cons_self,
      List.splitOn_eq_singleton plain,ih field.word field.word_plain]
    rfl

def DumpLine.Fits (line : DumpLine) : Prop := ∀ field ∈ line.fields, 0 < field.size ∧ field.value < 256 ^ field.size

theorem decodeLine_line (order : Endian) (line : DumpLine) (fits : line.Fits) :
    decodeLine order (DumpLine.label line.address ++ line.fields.flatMap DumpField.text) =
      line.fields.flatMap (DumpField.bytes order) := by
  unfold decodeLine
  rw [words_line _ (label_plain line.address).2,List.drop_one,List.tail_cons,List.flatMap_map]
  apply congrArg List.flatten
  apply List.map_congr_left
  intro field member
  exact decodeWord_field order field (fits field member).1 (fits field member).2

theorem decodeDump_lines (order : Endian) (lines : List DumpLine) (fits : ∀ line ∈ lines, line.Fits) :
    decodeDump order (lines.flatMap DumpLine.text) = (lines.flatMap DumpLine.fields).flatMap (DumpField.bytes order) := by
  induction lines with
  | nil => rfl
  | cons line rest ih =>
    have plain : '\n' ∉ DumpLine.label line.address ++ line.fields.flatMap DumpField.text := by
      simp [(label_plain line.address).1,field_plain]
    have cut : (line :: rest).flatMap DumpLine.text =
        (DumpLine.label line.address ++ line.fields.flatMap DumpField.text) ++ '\n' :: rest.flatMap DumpLine.text := by
      rw [List.flatMap_cons,DumpLine.text,List.append_assoc]
      rfl
    have later := ih (fun other member => fits other (by simp [member]))
    unfold decodeDump at later ⊢
    rw [cut,List.splitOn_append_cons_self,List.splitOn_eq_singleton plain,List.flatMap_append,later,
      List.flatMap_cons,List.flatMap_nil,List.append_nil,decodeLine_line order line (fits line (by simp))]
    simp

theorem decodeDump_dumpedText (order : Endian) (small : start < 2 ^ 64) (bytes : List UInt8) :
    decodeDump order (dumpedText order start bytes) = bytes := by
  have fields : ((linesOf start (fieldsOf order bytes)).map DumpLine.wrap).flatMap DumpLine.fields = fieldsOf order bytes := by
    rw [List.flatMap_map]
    exact linesOf_fields start _
  have fits : ∀ line ∈ (linesOf start (fieldsOf order bytes)).map DumpLine.wrap, line.Fits := by
    intro line member field there
    apply fieldsOf_fit order bytes
    rw [← fields]
    exact List.mem_flatMap.mpr ⟨line,member,there⟩
  rw [dumpedText_lines order small,decodeDump_lines order _ fits,fields,fieldsOf_bytes]

def written (trace : Trace Sys) : List UInt8 := trace.flatMap (fun e =>
  match e with
  | ⟨.fwrite bytes,_⟩ => bytes
  | _ => [])

end Iotools
