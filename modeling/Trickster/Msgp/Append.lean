import Trickster.Msgp.Wire

namespace Msgp

/-- `AppendArrayHeader`. -/
def appendArrayHeader (b : Bytes) (sz : BitVec 32) : Bytes :=
  if sz.toNat ≤ 15 then b ++ [wfixarray sz.toNat]
  else if sz.toNat ≤ 0xffff then b ++ 0xdc :: putUint 2 sz.toNat
  else b ++ 0xdd :: putUint 4 sz.toNat

/-- `AppendString`; the `str32` prefix is `uint32(sz)`, the low four bytes of the length. -/
def appendString (b : Bytes) (s : Bytes) : Bytes :=
  let sz := s.length
  if sz ≤ 31 then b ++ wfixstr sz :: s
  else if sz ≤ 0xff then b ++ 0xd9 :: BitVec.ofNat 8 sz :: s
  else if sz ≤ 0xffff then b ++ 0xda :: (putUint 2 sz ++ s)
  else b ++ 0xdb :: (putUint 4 sz ++ s)

/-- `AppendUint64`. -/
def appendUint64 (b : Bytes) (u : BitVec 64) : Bytes :=
  if u.toNat ≤ 0x7f then b ++ [wfixint u.toNat]
  else if u.toNat ≤ 0xff then b ++ [0xcc, BitVec.ofNat 8 u.toNat]
  else if u.toNat ≤ 0xffff then b ++ 0xcd :: putUint 2 u.toNat
  else if u.toNat ≤ 0xffffffff then b ++ 0xce :: putUint 4 u.toNat
  else b ++ 0xcf :: putUint 8 u.toNat

/-- `AppendByte`, which is `AppendUint8`, which is `AppendUint64(b, uint64(u))`. -/
def appendByte (b : Bytes) (u : BitVec 8) : Bytes := appendUint64 b (u.setWidth 64)

/-- `AppendInt64`; `putMint16/32/64` write the low bytes of the two's complement value. -/
def appendInt64 (b : Bytes) (i : BitVec 64) : Bytes :=
  let v := i.toInt
  if 0 ≤ v then
    if v ≤ 0x7f then b ++ [wfixint i.toNat]
    else if v ≤ 0x7fff then b ++ 0xd1 :: putUint 2 i.toNat
    else if v ≤ 0x7fffffff then b ++ 0xd2 :: putUint 4 i.toNat
    else b ++ 0xd3 :: putUint 8 i.toNat
  else
    if -32 ≤ v then b ++ [wnfixint v]
    else if -0x80 ≤ v then b ++ [0xd0, BitVec.ofInt 8 v]
    else if -0x8000 ≤ v then b ++ 0xd1 :: putUint 2 i.toNat
    else if -0x80000000 ≤ v then b ++ 0xd2 :: putUint 4 i.toNat
    else b ++ 0xd3 :: putUint 8 i.toNat

/-- `AppendInt`: a Go `int` is 64 bits wide here. -/
def appendInt (b : Bytes) (i : BitVec 64) : Bytes := appendInt64 b i

theorem appendArrayHeader_eq_append (b : Bytes) (sz : BitVec 32) :
    appendArrayHeader b sz = b ++ appendArrayHeader [] sz := by
  unfold appendArrayHeader; simp only [apply_ite (b ++ ·), List.nil_append]

theorem appendString_eq_append (b s : Bytes) : appendString b s = b ++ appendString [] s := by
  unfold appendString; simp only [apply_ite (b ++ ·), List.nil_append]

theorem appendUint64_eq_append (b : Bytes) (u : BitVec 64) :
    appendUint64 b u = b ++ appendUint64 [] u := by
  unfold appendUint64; simp only [apply_ite (b ++ ·), List.nil_append]

theorem appendByte_eq_append (b : Bytes) (u : BitVec 8) : appendByte b u = b ++ appendByte [] u :=
  appendUint64_eq_append b _

theorem appendInt_eq_append (b : Bytes) (i : BitVec 64) : appendInt b i = b ++ appendInt [] i := by
  unfold appendInt appendInt64; simp only [apply_ite (b ++ ·), List.nil_append]

@[simp] theorem appendArrayHeader_append (b c : Bytes) (sz : BitVec 32) :
    appendArrayHeader (b ++ c) sz = b ++ appendArrayHeader c sz := by
  rw [appendArrayHeader_eq_append, appendArrayHeader_eq_append c, List.append_assoc]

@[simp] theorem appendString_append (b c s : Bytes) :
    appendString (b ++ c) s = b ++ appendString c s := by
  rw [appendString_eq_append, appendString_eq_append c, List.append_assoc]

@[simp] theorem appendString_cons (x : BitVec 8) (c s : Bytes) :
    appendString (x :: c) s = x :: appendString c s := appendString_append [x] c s

@[simp] theorem appendByte_append (b c : Bytes) (u : BitVec 8) :
    appendByte (b ++ c) u = b ++ appendByte c u := by
  rw [appendByte_eq_append, appendByte_eq_append c, List.append_assoc]

@[simp] theorem appendByte_cons (x : BitVec 8) (c : Bytes) (u : BitVec 8) :
    appendByte (x :: c) u = x :: appendByte c u := appendByte_append [x] c u

@[simp] theorem appendInt_append (b c : Bytes) (i : BitVec 64) :
    appendInt (b ++ c) i = b ++ appendInt c i := by
  rw [appendInt_eq_append, appendInt_eq_append c, List.append_assoc]

@[simp] theorem appendInt_cons (x : BitVec 8) (c : Bytes) (i : BitVec 64) :
    appendInt (x :: c) i = x :: appendInt c i := appendInt_append [x] c i

theorem appendArrayHeader_length (sz : BitVec 32) :
    (appendArrayHeader [] sz).length ≤ arrayHeaderSize := by
  unfold appendArrayHeader arrayHeaderSize; split_ifs <;> simp

theorem appendString_length (s : Bytes) :
    (appendString [] s).length ≤ stringPrefixSize + s.length := by
  unfold appendString stringPrefixSize; dsimp only; split_ifs <;> simp <;> omega

theorem appendByte_length (u : BitVec 8) : (appendByte [] u).length ≤ byteSize := by
  unfold appendByte appendUint64 byteSize
  have bound : (u.setWidth 64).toNat < 256 := by simp; omega
  split_ifs <;> simp <;> omega

theorem appendInt_length (i : BitVec 64) : (appendInt [] i).length ≤ intSize := by
  unfold appendInt appendInt64 intSize; simp [apply_ite List.length, apply_ite (· ≤ 9)]

structure Writer where
  written : Bytes

namespace Writer

/-- `Append(b...)`. -/
def append (w : Writer) (bytes : Bytes) : Writer := ⟨w.written ++ bytes⟩

/-- `push`, `prefix8/16/32/64`: a lead byte followed by a big-endian prefix. -/
def prefixed (w : Writer) (lead : BitVec 8) (width n : Nat) : Writer :=
  ⟨w.written ++ lead :: putUint width n⟩

/-- `WriteString` of a writer not in compat mode. -/
def writeString (w : Writer) (s : Bytes) : Writer :=
  let sz := s.length % 2 ^ 32
  let w :=
    if sz ≤ 31 then w.append [wfixstr sz]
    else if sz ≤ 0xff then w.prefixed 0xd9 1 sz
    else if sz ≤ 0xffff then w.prefixed 0xda 2 sz
    else w.prefixed 0xdb 4 sz
  w.append s

/-- `WriteUint64`. -/
def writeUint64 (w : Writer) (u : BitVec 64) : Writer :=
  if u.toNat ≤ 0x7f then w.append [wfixint u.toNat]
  else if u.toNat ≤ 0xff then w.prefixed 0xcc 1 u.toNat
  else if u.toNat ≤ 0xffff then w.prefixed 0xcd 2 u.toNat
  else if u.toNat ≤ 0xffffffff then w.prefixed 0xce 4 u.toNat
  else w.prefixed 0xcf 8 u.toNat

/-- `WriteByte`, which is `WriteUint8`, which is `WriteUint64(uint64(u))`. -/
def writeByte (w : Writer) (u : BitVec 8) : Writer := w.writeUint64 (u.setWidth 64)

/-- `WriteInt64`. -/
def writeInt64 (w : Writer) (i : BitVec 64) : Writer :=
  let v := i.toInt
  if 0 ≤ v then
    if v ≤ 0x7f then w.append [wfixint i.toNat]
    else if v ≤ 0x7fff then w.prefixed 0xd1 2 i.toNat
    else if v ≤ 0x7fffffff then w.prefixed 0xd2 4 i.toNat
    else w.prefixed 0xd3 8 i.toNat
  else
    if -32 ≤ v then w.append [wnfixint v]
    else if -0x80 ≤ v then w.prefixed 0xd0 1 i.toNat
    else if -0x8000 ≤ v then w.prefixed 0xd1 2 i.toNat
    else if -0x80000000 ≤ v then w.prefixed 0xd2 4 i.toNat
    else w.prefixed 0xd3 8 i.toNat

/-- `WriteInt`. -/
def writeInt (w : Writer) (i : BitVec 64) : Writer := w.writeInt64 i

/-- `WriteArrayHeader`. -/
def writeArrayHeader (w : Writer) (sz : BitVec 32) : Writer :=
  if sz.toNat ≤ 15 then w.append [wfixarray sz.toNat]
  else if sz.toNat ≤ 0xffff then w.prefixed 0xdc 2 sz.toNat
  else w.prefixed 0xdd 4 sz.toNat

@[simp] theorem append_written (w : Writer) (bytes : Bytes) :
    (w.append bytes).written = w.written ++ bytes := rfl

theorem putUint_one (n : Nat) : putUint 1 n = [BitVec.ofNat 8 n] := rfl

theorem writeString_written (w : Writer) (s : Bytes) (short : s.length < 2 ^ 32) :
    (w.writeString s).written = appendString w.written s := by
  unfold writeString appendString prefixed
  rw [Nat.mod_eq_of_lt short]
  dsimp only
  split_ifs <;> simp [putUint_one]

theorem writeByte_written (w : Writer) (u : BitVec 8) :
    (w.writeByte u).written = appendByte w.written u := by
  unfold writeByte writeUint64 appendByte appendUint64 prefixed
  simp only [apply_ite written, append_written, putUint_one]

theorem writeInt_written (w : Writer) (i : BitVec 64) :
    (w.writeInt i).written = appendInt w.written i := by
  have low : BitVec.ofInt 8 i.toInt = BitVec.ofNat 8 i.toNat := by
    apply BitVec.eq_of_toNat_eq
    rw [BitVec.toNat_ofInt, BitVec.toNat_ofNat, BitVec.toInt_eq_toNat_cond]
    split <;> omega
  unfold writeInt writeInt64 appendInt appendInt64 prefixed
  simp only [apply_ite written, append_written, putUint_one, low]

theorem writeArrayHeader_written (w : Writer) (sz : BitVec 32) :
    (w.writeArrayHeader sz).written = appendArrayHeader w.written sz := by
  unfold writeArrayHeader appendArrayHeader prefixed
  split_ifs <;> simp

end Writer

end Msgp
