import Trickster.Msgp.Skip

namespace Msgp

/-- `msgp.Reader` over a byte stream: the bytes not yet consumed. A read decodes the same wire
format as the `...Bytes` functions and reports running out of input as `io.ErrUnexpectedEOF`. -/
structure Reader where
  unread : Bytes

namespace Reader

def lift {α : Type} (read : Bytes → Except MsgpError (α × Bytes)) (r : Reader) :
    Except MsgpError (α × Reader) :=
  match read r.unread with
  | .ok (value, rest) => .ok (value, ⟨rest⟩)
  | .error .shortBytes => .error .eof
  | .error err => .error err

/-- `ReadMapHeader`. -/
def readMapHeader (r : Reader) : Except MsgpError (Nat × Reader) := lift readMapHeaderBytes r

/-- `ReadArrayHeader`. -/
def readArrayHeader (r : Reader) : Except MsgpError (Nat × Reader) := lift readArrayHeaderBytes r

/-- `ReadString`. -/
def readString (r : Reader) : Except MsgpError (Bytes × Reader) := lift readStringBytes r

/-- `ReadByte`, which is `ReadUint8`. -/
def readByte (r : Reader) : Except MsgpError (BitVec 8 × Reader) := lift readByteBytes r

/-- `ReadInt`. -/
def readInt (r : Reader) : Except MsgpError (BitVec 64 × Reader) := lift readIntBytes r

/-- `Skip`. -/
def skip (r : Reader) : Except MsgpError Reader :=
  match Msgp.skip r.unread with
  | .ok rest => .ok ⟨rest⟩
  | .error .shortBytes => .error .eof
  | .error err => .error err

/-- `ReadMapKeyPtr`: a `str` or `bin` key read in place; unlike `ReadMapKeyZC` it refuses an
empty key with `ErrShortBytes`. -/
def readMapKeyPtr (r : Reader) : Except MsgpError (Bytes × Reader) :=
  match r.unread with
  | [] => .error .eof
  | lead :: rest =>
    let header : Except MsgpError (Nat × Bytes) :=
      if isfixstr lead then .ok (rfixstr lead, rest)
      else if lead = 0xd9 ∨ lead = 0xc4 then readPrefixed 1 rest
      else if lead = 0xda ∨ lead = 0xc5 then readPrefixed 2 rest
      else if lead = 0xdb ∨ lead = 0xc6 then readPrefixed 4 rest
      else .error (badPrefix .str lead)
    match header with
    | .error .shortBytes => .error .eof
    | .error err => .error err
    | .ok (read, body) =>
      if read = 0 then .error .shortBytes
      else if body.length < read then .error .eof
      else .ok (body.take read, ⟨body.drop read⟩)

theorem lift_ok {α : Type} {read : Bytes → Except MsgpError (α × Bytes)} {r : Reader} {value : α}
    {rest : Bytes} (h : read r.unread = .ok (value, rest)) : lift read r = .ok (value, ⟨rest⟩) := by
  simp [lift, h]

theorem readMapKeyPtr_fixstr (lead : BitVec 8) (key rest : Bytes) (fix : isfixstr lead = true)
    (size : lead.toNat = 0xa0 + key.length) (nonempty : key ≠ []) :
    readMapKeyPtr ⟨lead :: (key ++ rest)⟩ = .ok (key, ⟨rest⟩) := by
  have read : rfixstr lead = key.length := by rw [rfixstr_of_isfixstr lead fix]; omega
  have positive : key.length ≠ 0 := by simpa using nonempty
  simp [readMapKeyPtr, fix, read, positive]

end Reader

end Msgp
