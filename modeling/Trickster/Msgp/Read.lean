import Trickster.Msgp.Append

namespace Msgp

def readPrefixed (width : Nat) (b : Bytes) : Except MsgpError (Nat × Bytes) :=
  if b.length < width then .error .shortBytes else .ok (getUint (b.take width), b.drop width)

/-- The `read` payload bytes after a length prefix: `len(b) < read` is `ErrShortBytes`. -/
def readBody (read : Nat) (b : Bytes) : Except MsgpError (Bytes × Bytes) :=
  if b.length < read then .error .shortBytes else .ok (b.take read, b.drop read)

def signed (bits v : Nat) : Int := if v < 2 ^ (bits - 1) then v else v - 2 ^ bits

/-- `ReadMapHeaderBytes`. -/
def readMapHeaderBytes : Bytes → Except MsgpError (Nat × Bytes)
  | [] => .error .shortBytes
  | lead :: rest =>
    if isfixmap lead then .ok (rfixmap lead, rest)
    else if lead = 0xde then readPrefixed 2 rest
    else if lead = 0xdf then readPrefixed 4 rest
    else .error (badPrefix .map lead)

/-- `ReadArrayHeaderBytes`. -/
def readArrayHeaderBytes : Bytes → Except MsgpError (Nat × Bytes)
  | [] => .error .shortBytes
  | lead :: rest =>
    if isfixarray lead then .ok (rfixarray lead, rest)
    else if lead = 0xdc then readPrefixed 2 rest
    else if lead = 0xdd then readPrefixed 4 rest
    else .error (badPrefix .array lead)

/-- `ReadStringZC`. -/
def readStringZC : Bytes → Except MsgpError (Bytes × Bytes)
  | [] => .error .shortBytes
  | lead :: rest =>
    if isfixstr lead then readBody (rfixstr lead) rest
    else if lead = 0xd9 then readPrefixed 1 rest >>= fun (read, body) => readBody read body
    else if lead = 0xda then readPrefixed 2 rest >>= fun (read, body) => readBody read body
    else if lead = 0xdb then readPrefixed 4 rest >>= fun (read, body) => readBody read body
    else .error (.typeError .str (getType lead) "")

/-- `ReadStringBytes`: `string(v)` of `ReadStringZC`. -/
def readStringBytes (b : Bytes) : Except MsgpError (Bytes × Bytes) := readStringZC b

/-- `ReadBytesZC`. -/
def readBytesZC : Bytes → Except MsgpError (Bytes × Bytes)
  | [] => .error .shortBytes
  | lead :: rest =>
    if lead = 0xc4 then readPrefixed 1 rest >>= fun (read, body) => readBody read body
    else if lead = 0xc5 then readPrefixed 2 rest >>= fun (read, body) => readBody read body
    else if lead = 0xc6 then readPrefixed 4 rest >>= fun (read, body) => readBody read body
    else .error (badPrefix .bin lead)

/-- `ReadMapKeyZC`: a `str` key, or a `bin` key when the `str` read names `BinType`. -/
def readMapKeyZC (b : Bytes) : Except MsgpError (Bytes × Bytes) :=
  match readStringZC b with
  | .error (.typeError _ .bin _) => readBytesZC b
  | result => result

/-- The signed leads of `ReadUint64Bytes`: a negative value is `UintBelowZero`. -/
def nonNegative (bits : Nat) (field : Nat × Bytes) : Except MsgpError (Nat × Bytes) :=
  if signed bits field.1 < 0 then .error (.uintBelowZero (signed bits field.1) "") else .ok field

/-- `ReadUint64Bytes`. -/
def readUint64Bytes : Bytes → Except MsgpError (Nat × Bytes)
  | [] => .error .shortBytes
  | lead :: rest =>
    if isfixint lead then .ok (lead.toNat, rest)
    else if lead = 0xd0 then readPrefixed 1 rest >>= nonNegative 8
    else if lead = 0xcc then readPrefixed 1 rest
    else if lead = 0xd1 then readPrefixed 2 rest >>= nonNegative 16
    else if lead = 0xcd then readPrefixed 2 rest
    else if lead = 0xd2 then readPrefixed 4 rest >>= nonNegative 32
    else if lead = 0xce then readPrefixed 4 rest
    else if lead = 0xd3 then readPrefixed 8 rest >>= nonNegative 64
    else if lead = 0xcf then readPrefixed 8 rest
    else if isnfixint lead then .error (.uintBelowZero (signed 8 lead.toNat) "")
    else .error (badPrefix .uint lead)

/-- `ReadUint8Bytes`, which `ReadByteBytes` is. -/
def readByteBytes (b : Bytes) : Except MsgpError (BitVec 8 × Bytes) :=
  readUint64Bytes b >>= fun (v, o) =>
    if v > 0xff then .error (.uintOverflow v 8 "") else .ok (BitVec.ofNat 8 v, o)

/-- `int64(intN(...))` of a signed field of `bits` bits. -/
def signedField (bits : Nat) (field : Nat × Bytes) : BitVec 64 × Bytes :=
  (BitVec.ofInt 64 (signed bits field.1), field.2)

/-- `int64(uintN(...))` of an unsigned field narrower than 64 bits. -/
def unsignedField (field : Nat × Bytes) : BitVec 64 × Bytes := (BitVec.ofNat 64 field.1, field.2)

/-- `ReadInt64Bytes`. -/
def readInt64Bytes : Bytes → Except MsgpError (BitVec 64 × Bytes)
  | [] => .error .shortBytes
  | lead :: rest =>
    if isfixint lead then .ok (BitVec.ofNat 64 lead.toNat, rest)
    else if isnfixint lead then .ok (BitVec.ofInt 64 (signed 8 lead.toNat), rest)
    else if lead = 0xd0 then signedField 8 <$> readPrefixed 1 rest
    else if lead = 0xcc then unsignedField <$> readPrefixed 1 rest
    else if lead = 0xd1 then signedField 16 <$> readPrefixed 2 rest
    else if lead = 0xcd then unsignedField <$> readPrefixed 2 rest
    else if lead = 0xd2 then signedField 32 <$> readPrefixed 4 rest
    else if lead = 0xce then unsignedField <$> readPrefixed 4 rest
    else if lead = 0xd3 then signedField 64 <$> readPrefixed 8 rest
    else if lead = 0xcf then readPrefixed 8 rest >>= fun (u, o) =>
      if u > 2 ^ 63 - 1 then .error (.uintOverflow u 64 "") else .ok (BitVec.ofNat 64 u, o)
    else .error (badPrefix .int lead)

/-- `ReadIntBytes` on a 64-bit platform. -/
def readIntBytes (b : Bytes) : Except MsgpError (BitVec 64 × Bytes) := readInt64Bytes b

theorem readPrefixed_putUint (width n : Nat) (rest : Bytes) :
    readPrefixed width (putUint width n ++ rest) = .ok (n % 256 ^ width, rest) := by
  simp [readPrefixed, getUint_putUint]

theorem readPrefixed_putUint_of_lt (width n : Nat) (bound : n < 256 ^ width) (rest : Bytes) :
    readPrefixed width (putUint width n ++ rest) = .ok (n, rest) := by
  rw [readPrefixed_putUint, Nat.mod_eq_of_lt bound]

theorem readPrefixed_one (b : BitVec 8) (rest : Bytes) :
    readPrefixed 1 (b :: rest) = .ok (b.toNat, rest) := by
  simp [readPrefixed, getUint]

theorem readBody_append (s rest : Bytes) : readBody s.length (s ++ rest) = .ok (s, rest) := by
  simp [readBody]

theorem wfixint_toNat (n : Nat) (small : n < 0x80) : (wfixint n).toNat = n := by
  revert n; decide

theorem wfixstr_toNat (n : Nat) (small : n < 0x20) : (wfixstr n).toNat = 0xa0 + n := by
  revert n; decide

theorem wfixarray_toNat (n : Nat) (small : n < 0x10) : (wfixarray n).toNat = 0x90 + n := by
  revert n; decide

theorem rfixstr_of_isfixstr : ∀ b : BitVec 8, isfixstr b = true → rfixstr b = b.toNat - 0xa0 := by
  decide

theorem rfixarray_of_isfixarray :
    ∀ b : BitVec 8, isfixarray b = true → rfixarray b = b.toNat - 0x90 := by
  decide

theorem readStringZC_fixstr (lead : BitVec 8) (s rest : Bytes) (fix : isfixstr lead = true)
    (size : lead.toNat = 0xa0 + s.length) : readStringZC (lead :: (s ++ rest)) = .ok (s, rest) := by
  have read : rfixstr lead = s.length := by rw [rfixstr_of_isfixstr lead fix]; omega
  simp only [readStringZC, fix, if_true, read, readBody_append]

theorem readStringZC_appendString (s rest : Bytes) (short : s.length < 2 ^ 32) :
    readStringZC (appendString [] s ++ rest) = .ok (s, rest) := by
  unfold appendString
  dsimp only
  split_ifs with fix str8 str16
  · have lead := wfixstr_toNat s.length (by omega)
    have isfix : isfixstr (wfixstr s.length) = true := by rw [isfixstr_iff, lead]; simp; omega
    simpa using readStringZC_fixstr _ s rest isfix lead
  · have read : (BitVec.ofNat 8 s.length).toNat = s.length := by simp; omega
    simp [readStringZC, isfixstr, Bind.bind, Except.bind, readPrefixed_one, read, readBody_append]
  · have read := readPrefixed_putUint_of_lt 2 s.length (by omega)
    simp [readStringZC, isfixstr, Bind.bind, Except.bind, read, readBody_append]
  · have read := readPrefixed_putUint_of_lt 4 s.length (by omega)
    simp [readStringZC, isfixstr, Bind.bind, Except.bind, read, readBody_append]

theorem readArrayHeaderBytes_appendArrayHeader (sz : BitVec 32) (rest : Bytes) :
    readArrayHeaderBytes (appendArrayHeader [] sz ++ rest) = .ok (sz.toNat, rest) := by
  have bound := sz.isLt
  unfold appendArrayHeader
  split_ifs with fix array16
  · have lead := wfixarray_toNat sz.toNat (by omega)
    have isfix : isfixarray (wfixarray sz.toNat) = true := by rw [isfixarray_iff, lead]; simp; omega
    have read : rfixarray (wfixarray sz.toNat) = sz.toNat := by
      rw [rfixarray_of_isfixarray _ isfix]; omega
    simp [readArrayHeaderBytes, isfix, read]
  · have read := readPrefixed_putUint_of_lt 2 sz.toNat (by omega)
    simp [readArrayHeaderBytes, isfixarray, read]
  · have read := readPrefixed_putUint_of_lt 4 sz.toNat (by omega)
    simp [readArrayHeaderBytes, isfixarray, read]

theorem readByteBytes_appendByte (u : BitVec 8) (rest : Bytes) :
    readByteBytes (appendByte [] u ++ rest) = .ok (u, rest) := by
  have bound := u.isLt
  have wide : (u.setWidth 64).toNat = u.toNat := by simp; omega
  unfold appendByte appendUint64
  rw [wide]
  split_ifs with fix
  · have lead := wfixint_toNat u.toNat (by omega)
    have isfix : isfixint (wfixint u.toNat) = true := by rw [isfixint_iff, lead]; simp; omega
    simp [readByteBytes, readUint64Bytes, isfix, lead, Bind.bind, Except.bind]
    omega
  · simp [readByteBytes, readUint64Bytes, isfixint, readPrefixed_one, Bind.bind, Except.bind]
    omega
  all_goals omega

theorem ofInt_signed_low (bits : Nat) (i : BitVec 64) (width : bits = 8 ∨ bits = 16 ∨ bits = 32 ∨ bits = 64)
    (lower : -2 ^ (bits - 1) ≤ i.toInt) (upper : i.toInt < 2 ^ (bits - 1)) :
    BitVec.ofInt 64 (signed bits (i.toNat % 2 ^ bits)) = i := by
  have bound := i.isLt
  rw [BitVec.toInt_eq_toNat_cond] at lower upper
  apply BitVec.eq_of_toNat_eq
  rw [BitVec.toNat_ofInt]
  unfold signed
  rcases width with rfl | rfl | rfl | rfl <;> simp only [Nat.reducePow, Nat.reduceSub] at * <;>
    split_ifs at * <;> omega

theorem wnfixint_toNat (v : Int) (lower : -32 ≤ v) (negative : v < 0) :
    (wnfixint v).toNat = (v + 256).toNat := by
  have byOffset : ∀ k : Nat, k < 32 → (wnfixint (-1 - k)).toNat = (-1 - (k : Int) + 256).toNat := by
    decide
  obtain ⟨k, rfl⟩ : ∃ k : Nat, v = -1 - k := ⟨(-1 - v).toNat, by omega⟩
  exact byOffset k (by omega)

theorem readInt64Bytes_putUint (lead : BitVec 8) (bits width : Nat) (i : BitVec 64) (rest : Bytes)
    (sized : (lead, bits, width) = (0xd1, 16, 2) ∨ (lead, bits, width) = (0xd2, 32, 4) ∨
      (lead, bits, width) = (0xd3, 64, 8))
    (lower : -2 ^ (bits - 1) ≤ i.toInt) (upper : i.toInt < 2 ^ (bits - 1)) :
    readInt64Bytes (lead :: (putUint width i.toNat ++ rest)) = .ok (i, rest) := by
  rcases sized with sized | sized | sized <;> obtain ⟨rfl, rfl, rfl⟩ := Prod.mk.inj_iff.mp sized <;>
    simpa [readInt64Bytes, isfixint, isnfixint, readPrefixed_putUint, signedField, Functor.map,
      Except.map] using ofInt_signed_low _ i (by simp) lower upper

theorem readIntBytes_appendInt (i : BitVec 64) (rest : Bytes) :
    readIntBytes (appendInt [] i ++ rest) = .ok (i, rest) := by
  have bound := i.isLt
  have value := BitVec.toInt_eq_toNat_cond i
  unfold appendInt appendInt64 readIntBytes
  dsimp only
  by_cases positive : 0 ≤ i.toInt
  · rw [if_pos positive]
    by_cases fix : i.toInt ≤ 0x7f
    · rw [if_pos fix]
      have lead := wfixint_toNat i.toNat (by split_ifs at value <;> omega)
      have isfix : isfixint (wfixint i.toNat) = true := by rw [isfixint_iff, lead]; simp; omega
      simp [readInt64Bytes, isfix, lead]
    rw [if_neg fix]
    by_cases int16 : i.toInt ≤ 0x7fff
    · rw [if_pos int16]
      exact readInt64Bytes_putUint 0xd1 16 2 i rest (.inl rfl) (by omega) (by omega)
    rw [if_neg int16]
    by_cases int32 : i.toInt ≤ 0x7fffffff
    · rw [if_pos int32]
      exact readInt64Bytes_putUint 0xd2 32 4 i rest (.inr (.inl rfl)) (by omega) (by omega)
    rw [if_neg int32]
    exact readInt64Bytes_putUint 0xd3 64 8 i rest (.inr (.inr rfl)) (by omega) (by omega)
  rw [if_neg positive]
  by_cases nfix : -32 ≤ i.toInt
  · rw [if_pos nfix]
    have lead := wnfixint_toNat i.toInt nfix (by omega)
    have notFix : isfixint (wnfixint i.toInt) = false := by rw [isfixint_iff, lead]; simp; omega
    have isNeg : isnfixint (wnfixint i.toInt) = true := by rw [isnfixint_iff, lead]; simp; omega
    have low : (i.toInt + 256).toNat = i.toNat % 2 ^ 8 := by split_ifs at value <;> omega
    simpa [readInt64Bytes, notFix, isNeg, lead, low] using
      ofInt_signed_low 8 i (by simp) (by omega) (by omega)
  rw [if_neg nfix]
  by_cases int8 : -0x80 ≤ i.toInt
  · rw [if_pos int8]
    have low : (BitVec.ofInt 8 i.toInt).toNat = i.toNat % 2 ^ 8 := by
      rw [BitVec.toNat_ofInt]; split_ifs at value <;> omega
    simpa [readInt64Bytes, isfixint, isnfixint, readPrefixed_one, low, signedField, Functor.map,
      Except.map] using ofInt_signed_low 8 i (by simp) (by omega) (by omega)
  rw [if_neg int8]
  by_cases int16 : -0x8000 ≤ i.toInt
  · rw [if_pos int16]
    exact readInt64Bytes_putUint 0xd1 16 2 i rest (.inl rfl) (by omega) (by omega)
  rw [if_neg int16]
  by_cases int32 : -0x80000000 ≤ i.toInt
  · rw [if_pos int32]
    exact readInt64Bytes_putUint 0xd2 32 4 i rest (.inr (.inl rfl)) (by omega) (by omega)
  rw [if_neg int32]
  exact readInt64Bytes_putUint 0xd3 64 8 i rest (.inr (.inr rfl)) (by omega) (by omega)

end Msgp
