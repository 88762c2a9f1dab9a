import Multicast.Bier.Header
import Mathlib.Algebra.Group.Nat.Defs

/-!
Headers read back. Main statements: a header is read from the bytes it is written as, whatever follows
them, so a copy carries the positions it was sent with; any bytes that are enough for a header are what
is written for one; and too few bytes stay where they are.
-/

namespace Multicast

/-! ## Numbers as bytes -/

theorem length_littleEndian (count value : Nat) : (littleEndian count value).length = count := by
  simp [littleEndian]

theorem length_bigEndian (count value : Nat) : (bigEndian count value).length = count := by
  simp [bigEndian, length_littleEndian]

theorem littleEndian_succ (count value : Nat) :
    littleEndian (count + 1) value = UInt8.ofNat value :: littleEndian count (value >>> 8) := by
  unfold littleEndian
  rw [List.range_succ_eq_map, List.map_cons, List.map_map]
  congr 1
  apply List.map_congr_left
  intro index _
  rw [Function.comp_apply, ← Nat.shiftRight_add, Nat.mul_succ, Nat.add_comm]

theorem ofLittleEndian_littleEndian (count value : Nat) :
    ofLittleEndian (littleEndian count value) = value % 256 ^ count := by
  induction count generalizing value with
  | zero => simp [littleEndian, ofLittleEndian, Nat.mod_one]
  | succ count ih =>
    have power : 256 ^ (count + 1) = 256 * 256 ^ count := Nat.pow_succ'
    rw [littleEndian_succ, ofLittleEndian, ih, Nat.shiftRight_eq_div_pow, power, Nat.mod_mul]
    simp

theorem ofBigEndian_bigEndian (count value : Nat) :
    ofBigEndian (bigEndian count value) = value % 256 ^ count := by
  unfold ofBigEndian bigEndian
  rw [List.reverse_reverse]
  exact ofLittleEndian_littleEndian count value

theorem ofLittleEndian_lt (bytes : Bytes) : ofLittleEndian bytes < 256 ^ bytes.length := by
  induction bytes with
  | nil => decide
  | cons byte rest ih =>
    have small := byte.toNat_lt
    rw [ofLittleEndian, List.length_cons, Nat.pow_succ]
    omega

theorem littleEndian_ofLittleEndian (bytes : Bytes) :
    littleEndian bytes.length (ofLittleEndian bytes) = bytes := by
  induction bytes with
  | nil => rfl
  | cons byte rest ih =>
    have small := byte.toNat_lt
    have low : UInt8.ofNat (byte.toNat + 256 * ofLittleEndian rest) = byte := by
      apply UInt8.toNat_inj.1
      rw [UInt8.toNat_ofNat']
      omega
    have high : (byte.toNat + 256 * ofLittleEndian rest) >>> 8 = ofLittleEndian rest := by
      rw [Nat.shiftRight_eq_div_pow]
      omega
    rw [List.length_cons, littleEndian_succ, ofLittleEndian, low, high, ih]

theorem bigEndian_ofBigEndian (bytes : Bytes) :
    bigEndian bytes.length (ofBigEndian bytes) = bytes := by
  unfold bigEndian ofBigEndian
  rw [← bytes.length_reverse, littleEndian_ofLittleEndian, List.reverse_reverse]

theorem littleEndian_mod (count value : Nat) :
    littleEndian count (value % 256 ^ count) = littleEndian count value := by
  have same := littleEndian_ofLittleEndian (littleEndian count value)
  rwa [length_littleEndian, ofLittleEndian_littleEndian] at same

theorem littleEndian_add (count more value : Nat) :
    littleEndian (count + more) value =
      littleEndian count value ++ littleEndian more (value >>> (8 * count)) := by
  unfold littleEndian
  rw [List.range_add, List.map_append, List.map_map]
  congr 1
  apply List.map_congr_left
  intro index _
  rw [Function.comp_apply, ← Nat.shiftRight_add, Nat.mul_add]

theorem getElem?_littleEndian (count value index : Nat) (inside : index < count) :
    (littleEndian count value)[index]? = some (UInt8.ofNat (value >>> (8 * index))) := by
  simp [littleEndian, inside]

theorem getElem?_bigEndian (count value index : Nat) (inside : index < count) :
    (bigEndian count value)[index]? = some (UInt8.ofNat (value >>> (8 * (count - 1 - index)))) := by
  unfold bigEndian
  rw [List.getElem?_reverse (by rwa [length_littleEndian]), length_littleEndian]
  exact getElem?_littleEndian count value _ (by omega)

/-! ## Writing and taking -/

/-- A way to write values and to take them off a buffer: what is written is as wide as all else, it is
taken for the value, whatever follows, and there are no other bytes of the width. -/
structure Codec {α : Type} (take : StateM Bytes α) (write : α → Bytes) (width : Nat) : Prop where
  length_write (value : α) : (write value).length = width
  take_write (value : α) (rest : Bytes) : take.run (write value ++ rest) = (value, rest)
  exists_write (bytes : Bytes) (wide : bytes.length = width) : ∃ value, write value = bytes

theorem takeSized_short {α : Type} (take : StateM Bytes α) (needed : Nat) (bytes : Bytes)
    (short : bytes.length < needed) :
    takeSized needed take bytes = (.error (.truncated needed bytes.length), bytes) := if_pos short

namespace Codec

section
variable {α β γ : Type} {take : StateM Bytes α} {write : α → Bytes} {width : Nat}
variable {take' : StateM Bytes β} {write' : β → Bytes} {width' : Nat}

theorem both (one : Codec take write width) (other : Codec take' write' width')
    (join : α → β → γ) (left : γ → α) (right : γ → β)
    (left_join : ∀ value value', left (join value value') = value)
    (right_join : ∀ value value', right (join value value') = value')
    (join_parts : ∀ value, join (left value) (right value) = value) :
    Codec (do
      let value ← take
      let value' ← take'
      return join value value') (fun value => write (left value) ++ write' (right value))
      (width + width') where
  length_write value := by rw [List.length_append, one.length_write, other.length_write]
  take_write value rest := by
    rw [List.append_assoc, StateT.run_bind, one.take_write]
    change (take'.run (write' (right value) ++ rest) >>= fun taken =>
      (pure (join (left value) taken.1, taken.2) : Id _)) = _
    rw [other.take_write]
    change (join (left value) (right value), rest) = _
    rw [join_parts]
  exists_write bytes wide := by
    obtain ⟨value, front⟩ := one.exists_write (bytes.take width) (by rw [List.length_take]; omega)
    obtain ⟨value', back⟩ := other.exists_write (bytes.drop width) (by rw [List.length_drop]; omega)
    refine ⟨join value value', ?_⟩
    rw [left_join, right_join, front, back, List.take_append_drop]

theorem takeSized_write (codec : Codec take write width) (value : α) (rest : Bytes) :
    takeSized width take (write value ++ rest) = (.ok value, rest) := by
  have long : ¬(write value ++ rest).length < width := by
    rw [List.length_append, codec.length_write]
    omega
  unfold takeSized
  rw [if_neg long, codec.take_write]

theorem takeSized_long (codec : Codec take write width) (bytes : Bytes)
    (long : width ≤ bytes.length) :
    ∃ value, takeSized width take bytes = (.ok value, bytes.drop width) ∧
      write value = bytes.take width := by
  obtain ⟨value, written⟩ := codec.exists_write (bytes.take width) (List.length_take_of_le long)
  refine ⟨value, ?_, written⟩
  have taken := codec.takeSized_write value (bytes.drop width)
  rwa [written, List.take_append_drop] at taken

/-- A value is taken exactly off the buffers that begin with what is written for it. -/
theorem takeSized_eq_ok (codec : Codec take write width) (bytes rest : Bytes) (value : α) :
    takeSized width take bytes = (.ok value, rest) ↔ bytes = write value ++ rest := by
  constructor
  · intro taken
    rcases Nat.lt_or_ge bytes.length width with short | long
    · rw [takeSized_short take width bytes short] at taken
      cases taken
    · obtain ⟨found, taken', written⟩ := codec.takeSized_long bytes long
      cases taken'.symm.trans taken
      rw [written, List.take_append_drop]
  · rintro rfl
    exact codec.takeSized_write value rest

end

end Codec

theorem codec_takeNumber : Codec takeNumber (fun number => bigEndian 8 number.toNat) 8 where
  length_write number := length_bigEndian 8 number.toNat
  take_write number rest := by
    have wide := length_bigEndian 8 number.toNat
    have small : number.toNat < 256 ^ 8 := number.toNat_lt
    change (UInt64.ofNat (ofBigEndian ((bigEndian 8 number.toNat ++ rest).take 8)),
      (bigEndian 8 number.toNat ++ rest).drop 8) = _
    rw [List.take_left' wide, List.drop_left' wide, ofBigEndian_bigEndian,
      Nat.mod_eq_of_lt small, UInt64.ofNat_toNat]
  exists_write bytes wide := by
    have small : ofBigEndian bytes < 2 ^ 64 := by
      have bounded := ofLittleEndian_lt bytes.reverse
      rwa [List.length_reverse, wide] at bounded
    refine ⟨UInt64.ofNat (ofBigEndian bytes), ?_⟩
    rw [UInt64.toNat_ofNat', Nat.mod_eq_of_lt small, ← wide, bigEndian_ofBigEndian]

theorem codec_takeWord : Codec takeWord (fun word => littleEndian 4 word.toNat) 4 where
  length_write word := length_littleEndian 4 word.toNat
  take_write word rest := by
    have wide := length_littleEndian 4 word.toNat
    have small : word.toNat < 256 ^ 4 := word.toNat_lt
    change (UInt32.ofNat (ofLittleEndian ((littleEndian 4 word.toNat ++ rest).take 4)),
      (littleEndian 4 word.toNat ++ rest).drop 4) = _
    rw [List.take_left' wide, List.drop_left' wide, ofLittleEndian_littleEndian,
      Nat.mod_eq_of_lt small, UInt32.ofNat_toNat]
  exists_write bytes wide := by
    have small : ofLittleEndian bytes < 2 ^ 32 := by
      have bounded := ofLittleEndian_lt bytes
      rwa [wide] at bounded
    refine ⟨UInt32.ofNat (ofLittleEndian bytes), ?_⟩
    rw [UInt32.toNat_ofNat', Nat.mod_eq_of_lt small, ← wide, littleEndian_ofLittleEndian]

namespace Bitstring

def wordFrom (first : Nat) (bitstring : Bitstring) : UInt32 := ⟨bitstring.bits.extractLsb' first 32⟩

theorem ofWords_wordFrom (bitstring : Bitstring) :
    ofWords (bitstring.wordFrom 0) (bitstring.wordFrom 32) (bitstring.wordFrom 64)
      (bitstring.wordFrom 96) = bitstring := by
  have upper : bitstring.bits.extractLsb' 96 32 ++ bitstring.bits.extractLsb' 64 32 =
      bitstring.bits.extractLsb' 64 64 := BitVec.extractLsb'_append_extractLsb'_eq_extractLsb' rfl
  have most : bitstring.bits.extractLsb' 64 64 ++ bitstring.bits.extractLsb' 32 32 =
      bitstring.bits.extractLsb' 32 96 := BitVec.extractLsb'_append_extractLsb'_eq_extractLsb' rfl
  have all : bitstring.bits.extractLsb' 32 96 ++ bitstring.bits.extractLsb' 0 32 =
      bitstring.bits.extractLsb' 0 128 := BitVec.extractLsb'_append_extractLsb'_eq_extractLsb' rfl
  unfold ofWords wordFrom
  rw [upper, most, all, BitVec.extractLsb'_eq_self]

theorem extractLsb'_append_add {width : Nat} (high : BitVec width) (low : BitVec 32) (first : Nat) :
    (high ++ low).extractLsb' (first + 32) 32 = high.extractLsb' first 32 := by
  rw [BitVec.extractLsb'_append_eq_of_le (Nat.le_add_left 32 first), Nat.add_sub_cancel]

theorem extractLsb'_append_zero {width : Nat} (high : BitVec width) (low : BitVec 32) :
    (high ++ low).extractLsb' 0 32 = low := by
  rw [BitVec.extractLsb'_append_eq_of_add_le (Nat.le_refl 32), BitVec.extractLsb'_eq_self]

section
variable (first second third fourth : UInt32)

theorem wordFrom_zero_ofWords : (ofWords first second third fourth).wordFrom 0 = first :=
  congrArg UInt32.ofBitVec (extractLsb'_append_zero ..)

theorem wordFrom_32_ofWords : (ofWords first second third fourth).wordFrom 32 = second := by
  unfold wordFrom ofWords
  congr 1
  rw [extractLsb'_append_add _ _ 0, extractLsb'_append_zero]

theorem wordFrom_64_ofWords : (ofWords first second third fourth).wordFrom 64 = third := by
  unfold wordFrom ofWords
  congr 1
  rw [extractLsb'_append_add _ _ 32, extractLsb'_append_add _ _ 0, extractLsb'_append_zero]

theorem wordFrom_96_ofWords : (ofWords first second third fourth).wordFrom 96 = fourth := by
  unfold wordFrom ofWords
  congr 1
  rw [extractLsb'_append_add _ _ 64, extractLsb'_append_add _ _ 32, extractLsb'_append_add _ _ 0,
    BitVec.extractLsb'_eq_self]

end

def bytes (bitstring : Bitstring) : Bytes :=
  bitstring.words.flatMap fun word => littleEndian 4 word.toNat

theorem bytes_eq_append (bitstring : Bitstring) : bitstring.bytes =
    (littleEndian 4 (bitstring.wordFrom 0).toNat ++ littleEndian 4 (bitstring.wordFrom 32).toNat) ++
      (littleEndian 4 (bitstring.wordFrom 64).toNat ++
        littleEndian 4 (bitstring.wordFrom 96).toNat) := by
  simp [bytes, words, wordFrom]

theorem bytes_eq_littleEndian (bitstring : Bitstring) :
    bitstring.bytes = littleEndian 16 bitstring.bits.toNat := by
  have word (first : Nat) : littleEndian 4 (bitstring.wordFrom first).toNat =
      littleEndian 4 (bitstring.bits.toNat >>> first) := by
    have cut : (bitstring.wordFrom first).toNat = (bitstring.bits.toNat >>> first) % 256 ^ 4 :=
      BitVec.extractLsb'_toNat first 32 bitstring.bits
    rw [cut, littleEndian_mod]
  rw [bytes_eq_append, word, word, word, word, littleEndian_add 8 8, littleEndian_add 4 4,
    littleEndian_add 4 4, ← Nat.shiftRight_add]
  rfl

/-- Position `p` is bit `p % 8` of byte `p / 8`. -/
theorem testBit_bytes (bitstring : Bitstring) (position : Nat) (inside : position < bitCount) :
    ∃ byte, bitstring.bytes[position / 8]? = some byte ∧
      byte.toNat.testBit (position % 8) = bitstring.test position := by
  have place : 8 * (position / 8) + position % 8 = position := Nat.div_add_mod position 8
  have low : position % 8 < 8 := Nat.mod_lt position (by decide)
  refine ⟨UInt8.ofNat (bitstring.bits.toNat >>> (8 * (position / 8))), ?_, ?_⟩
  · rw [bytes_eq_littleEndian]
    exact getElem?_littleEndian 16 _ _ (Nat.div_lt_of_lt_mul inside)
  · rw [UInt8.toNat_ofNat', Nat.testBit_mod_two_pow, decide_eq_true low, Bool.true_and,
      Nat.testBit_shiftRight, place]
    rfl

theorem codec : Codec BierHeader.takeBitstring bytes 16 := by
  have pair := codec_takeWord.both codec_takeWord (fun low high => (low, high)) Prod.fst Prod.snd
    (fun _ _ => rfl) (fun _ _ => rfl) (fun _ => rfl)
  have words := pair.both pair (fun low high => ofWords low.1 low.2 high.1 high.2)
    (fun bitstring => (bitstring.wordFrom 0, bitstring.wordFrom 32))
    (fun bitstring => (bitstring.wordFrom 64, bitstring.wordFrom 96))
    (fun low high => by rw [wordFrom_zero_ofWords, wordFrom_32_ofWords])
    (fun low high => by rw [wordFrom_64_ofWords, wordFrom_96_ofWords]) ofWords_wordFrom
  rw [show bytes = _ from funext bytes_eq_append]
  exact words

end Bitstring

namespace PacketHeader

theorem codec : Codec take encode size :=
  codec_takeNumber.both codec_takeNumber PacketHeader.mk request sequence (fun _ _ => rfl)
    (fun _ _ => rfl) (fun _ => rfl)

theorem length_encode (header : PacketHeader) : header.encode.length = 16 := codec.length_write header

theorem decode_encode (header : PacketHeader) : decode header.encode = .ok (header, []) := by
  have read := codec.takeSized_write header []
  rw [List.append_nil] at read
  unfold decode decodeInPlace
  rw [read]

theorem getElem?_encode (header : PacketHeader) (index : Nat) (inside : index < 8) :
    header.encode[index]? = some (UInt8.ofNat (header.request.toNat >>> (8 * (7 - index)))) ∧
      header.encode[8 + index]? =
        some (UInt8.ofNat (header.sequence.toNat >>> (8 * (7 - index)))) := by
  have wide := length_bigEndian 8 header.request.toNat
  unfold encode
  constructor
  · rw [List.getElem?_append_left (by rwa [wide])]
    exact getElem?_bigEndian 8 _ index inside
  · rw [List.getElem?_append_right (by omega), wide, Nat.add_sub_cancel_left]
    exact getElem?_bigEndian 8 _ index inside

end PacketHeader

namespace BierHeader

theorem codec : Codec take encode size := by
  have parts := PacketHeader.codec.both Bitstring.codec
    (fun numbers bitstring => BierHeader.mk numbers.request numbers.sequence bitstring)
    (fun header => PacketHeader.mk header.request header.sequence) bitstring (fun _ _ => rfl)
    (fun _ _ => rfl) (fun _ => rfl)
  exact parts

theorem decode_encode (header : BierHeader) : decode header.encode = .ok (header, []) := by
  have read := codec.takeSized_write header []
  rw [List.append_nil] at read
  unfold decode decodeInPlace
  rw [read]

theorem encode_eq (header : BierHeader) : header.encode =
    PacketHeader.encode ⟨header.request, header.sequence⟩ ++ header.bitstring.bytes := rfl

theorem testBit_encode (header : BierHeader) (position : Nat) (inside : position < bitCount) :
    ∃ byte, header.encode[16 + position / 8]? = some byte ∧
      byte.toNat.testBit (position % 8) = header.bitstring.test position := by
  have wide := PacketHeader.length_encode ⟨header.request, header.sequence⟩
  rw [encode_eq, List.getElem?_append_right (by omega), wide, Nat.add_sub_cancel_left]
  exact header.bitstring.testBit_bytes position inside

theorem decodeInPlace_take (bytes rest : Bytes) (header : BierHeader)
    (read : decodeInPlace bytes = (.ok header, rest)) :
    PacketHeader.decodeInPlace (bytes.take 16) =
      (.ok ⟨header.request, header.sequence⟩, []) := by
  have wide := PacketHeader.length_encode ⟨header.request, header.sequence⟩
  have whole := (codec.takeSized_eq_ok bytes rest header).1 read
  rw [encode_eq, List.append_assoc] at whole
  apply (PacketHeader.codec.takeSized_eq_ok _ _ _).2
  rw [whole, List.take_left' wide, List.append_nil]

end BierHeader

/-- Headers of 16 bytes, and of 32 with a bitstring, are read back from what is written for them, and
what follows is left. All bytes of these lengths are written for some header. Fewer bytes are refused and
left where they are. The first 16 bytes of a header with a bitstring are one without it. Numbers are
written with the highest byte first, and position `p` is bit `p % 8` of byte `p / 8` behind them. -/
theorem headers_read_back :
    (∀ (header : PacketHeader) (rest : Bytes), header.encode.length = 16 ∧
      PacketHeader.decodeInPlace (header.encode ++ rest) = (.ok header, rest)) ∧
    (∀ (header : BierHeader) (rest : Bytes), header.encode.length = 32 ∧
      BierHeader.decodeInPlace (header.encode ++ rest) = (.ok header, rest)) ∧
    (∀ bytes : Bytes, 16 ≤ bytes.length → ∃ header,
      PacketHeader.decodeInPlace bytes = (.ok header, bytes.drop 16) ∧
        header.encode = bytes.take 16) ∧
    (∀ bytes : Bytes, 32 ≤ bytes.length → ∃ header,
      BierHeader.decodeInPlace bytes = (.ok header, bytes.drop 32) ∧
        header.encode = bytes.take 32) ∧
    (∀ bytes : Bytes, bytes.length < 16 →
      PacketHeader.decodeInPlace bytes = (.error (.truncated 16 bytes.length), bytes)) ∧
    (∀ bytes : Bytes, bytes.length < 32 →
      BierHeader.decodeInPlace bytes = (.error (.truncated 32 bytes.length), bytes)) ∧
    (∀ bytes header rest, BierHeader.decodeInPlace bytes = (.ok header, rest) →
      PacketHeader.decodeInPlace (bytes.take 16) =
        (.ok ⟨header.request, header.sequence⟩, [])) ∧
    (∀ header : PacketHeader, ∀ index < 8,
      header.encode[index]? = some (UInt8.ofNat (header.request.toNat >>> (8 * (7 - index)))) ∧
      header.encode[8 + index]? = some (UInt8.ofNat (header.sequence.toNat >>> (8 * (7 - index))))) ∧
    ∀ header : BierHeader, ∀ position < bitCount, ∃ byte,
      header.encode[16 + position / 8]? = some byte ∧
        byte.toNat.testBit (position % 8) = header.bitstring.test position := by
  refine ⟨fun header rest => ?_, fun header rest => ?_, PacketHeader.codec.takeSized_long,
    BierHeader.codec.takeSized_long, takeSized_short PacketHeader.take PacketHeader.size,
    takeSized_short BierHeader.take BierHeader.size,
    fun bytes header rest => BierHeader.decodeInPlace_take bytes rest header,
    PacketHeader.getElem?_encode, BierHeader.testBit_encode⟩
  · exact ⟨header.length_encode, PacketHeader.codec.takeSized_write header rest⟩
  · exact ⟨BierHeader.codec.length_write header, BierHeader.codec.takeSized_write header rest⟩

def sevenPositions : BierHeader := ⟨7, 258, .ofWords 0x01020304 0 0 0x80000001⟩

theorem headers_read_back_sevenPositions :
    sevenPositions.encode = [0, 0, 0, 0, 0, 0, 0, 7, 0, 0, 0, 0, 0, 0, 1, 2, 4, 3, 2, 1, 0, 0, 0, 0,
      0, 0, 0, 0, 1, 0, 0, 128] ∧
    BierHeader.decodeInPlace (sevenPositions.encode ++ [9, 8]) = (.ok sevenPositions, [9, 8]) ∧
    PacketHeader.decodeInPlace ((sevenPositions.encode ++ [9, 8]).take 16) = (.ok ⟨7, 258⟩, []) ∧
    BierHeader.decodeInPlace (sevenPositions.encode.take 31) =
      (.error (.truncated 32 31), sevenPositions.encode.take 31) := by
  obtain ⟨_, read, _, _, _, short, front, _⟩ := headers_read_back
  exact ⟨by decide, (read sevenPositions [9, 8]).2, front _ _ _ (read sevenPositions [9, 8]).2,
    short _ (by decide)⟩

end Multicast
