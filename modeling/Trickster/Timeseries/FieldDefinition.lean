import Trickster.Msgp.Reader

namespace Timeseries

open Msgp

/-- `FieldDataType`, a Go `byte`. -/
abbrev FieldDataType := BitVec 8

namespace FieldDataType

/-- `FieldDataType.MarshalMsg`. -/
def marshalMsg (z : FieldDataType) (b : Bytes) : Bytes := appendByte b z

/-- `FieldDataType.UnmarshalMsg`: the receiver and the unread bytes, or the error. -/
def unmarshalMsg (z : FieldDataType) (bts : Bytes) : FieldDataType × Except MsgpError Bytes :=
  match readByteBytes bts with
  | .ok (v, bts) => (v, .ok bts)
  | .error err => (z, .error (wrapError err []))

/-- `FieldDataType.Msgsize`. -/
def msgsize (_ : FieldDataType) : Nat := byteSize

/-- `FieldDataType.EncodeMsg`. -/
def encodeMsg (z : FieldDataType) (en : Writer) : Writer := en.writeByte z

/-- `FieldDataType.DecodeMsg`. -/
def decodeMsg (z : FieldDataType) (dc : Reader) : FieldDataType × Except MsgpError Reader :=
  match dc.readByte with
  | .ok (v, dc) => (v, .ok dc)
  | .error err => (z, .error (wrapError err []))

end FieldDataType

/-- `FieldDefinition`: the five fields its msgp codec writes, under the keys `name`, `type`,
`pos`, `stype` and `provider1`. A Go `int` is 64 bits wide. -/
structure FieldDefinition where
  name : Bytes
  dataType : FieldDataType
  outputPosition : BitVec 64
  sDataType : Bytes
  providerData1 : BitVec 64
  deriving DecidableEq, Repr

instance : Inhabited FieldDefinition := ⟨⟨[], 0, 0, [], 0⟩⟩

namespace FieldDefinition

@[simp] theorem ascii_name : ascii "name" = [0x6e, 0x61, 0x6d, 0x65] := rfl
@[simp] theorem ascii_type : ascii "type" = [0x74, 0x79, 0x70, 0x65] := rfl
@[simp] theorem ascii_pos : ascii "pos" = [0x70, 0x6f, 0x73] := rfl
@[simp] theorem ascii_stype : ascii "stype" = [0x73, 0x74, 0x79, 0x70, 0x65] := rfl
@[simp] theorem ascii_provider1 :
    ascii "provider1" = [0x70, 0x72, 0x6f, 0x76, 0x69, 0x64, 0x65, 0x72, 0x31] := rfl

def decodeInto {σ α : Type} (read : σ → Except MsgpError (α × σ))
    (set : FieldDefinition → α → FieldDefinition) (reset : FieldDefinition → FieldDefinition)
    (context : String) (z : FieldDefinition) (source : σ) : FieldDefinition × Except MsgpError σ :=
  match read source with
  | .ok (v, source) => (set z v, .ok source)
  | .error err => (reset z, .error (wrapError err [context]))

/-- `switch msgp.UnsafeString(field)` in `UnmarshalMsg`: the value after the key `field`. -/
def unmarshalValue (z : FieldDefinition) (field bts : Bytes) :
    FieldDefinition × Except MsgpError Bytes :=
  if field = ascii "name" then
    decodeInto readStringBytes (fun z v => { z with name := v }) (fun z => { z with name := [] })
      "Name" z bts
  else if field = ascii "type" then
    decodeInto readByteBytes (fun z v => { z with dataType := v }) id "DataType" z bts
  else if field = ascii "pos" then
    decodeInto readIntBytes (fun z v => { z with outputPosition := v })
      (fun z => { z with outputPosition := 0 }) "OutputPosition" z bts
  else if field = ascii "stype" then
    decodeInto readStringBytes (fun z v => { z with sDataType := v })
      (fun z => { z with sDataType := [] }) "SDataType" z bts
  else if field = ascii "provider1" then
    decodeInto readIntBytes (fun z v => { z with providerData1 := v })
      (fun z => { z with providerData1 := 0 }) "ProviderData1" z bts
  else
    match skip bts with
    | .ok bts => (z, .ok bts)
    | .error err => (z, .error (wrapError err []))

def unmarshalField (z : FieldDefinition) (bts : Bytes) : FieldDefinition × Except MsgpError Bytes :=
  match readMapKeyZC bts with
  | .error err => (z, .error (wrapError err []))
  | .ok (field, bts) => z.unmarshalValue field bts

def unmarshalFields : Nat → FieldDefinition → Bytes → FieldDefinition × Except MsgpError Bytes
  | 0, z, bts => (z, .ok bts)
  | count + 1, z, bts =>
    match z.unmarshalField bts with
    | (z, .ok bts) => unmarshalFields count z bts
    | (z, .error err) => (z, .error err)

/-- `FieldDefinition.UnmarshalMsg`: the receiver after the call, and the unread bytes or the
error. -/
def unmarshalMsg (z : FieldDefinition) (bts : Bytes) : FieldDefinition × Except MsgpError Bytes :=
  match readMapHeaderBytes bts with
  | .error err => (z, .error (wrapError err []))
  | .ok (count, bts) => unmarshalFields count z bts

/-- `FieldDefinition.MarshalMsg`; `msgp.Require` only reserves capacity, and no step can fail. -/
def marshalMsg (z : FieldDefinition) (b : Bytes) : Bytes :=
  let o := b ++ [0x85, 0xa4, 0x6e, 0x61, 0x6d, 0x65]
  let o := appendString o z.name
  let o := o ++ [0xa4, 0x74, 0x79, 0x70, 0x65]
  let o := appendByte o z.dataType
  let o := o ++ [0xa3, 0x70, 0x6f, 0x73]
  let o := appendInt o z.outputPosition
  let o := o ++ [0xa5, 0x73, 0x74, 0x79, 0x70, 0x65]
  let o := appendString o z.sDataType
  let o := o ++ [0xa9, 0x70, 0x72, 0x6f, 0x76, 0x69, 0x64, 0x65, 0x72, 0x31]
  appendInt o z.providerData1

/-- `FieldDefinition.Msgsize`. -/
def msgsize (z : FieldDefinition) : Nat :=
  1 + 5 + stringPrefixSize + z.name.length + 5 + byteSize + 4 + intSize + 6 + stringPrefixSize +
    z.sDataType.length + 10 + intSize

/-- `FieldDefinition.EncodeMsg` on a writer that never fails. -/
def encodeMsg (z : FieldDefinition) (en : Writer) : Writer :=
  let en := en.append [0x85, 0xa4, 0x6e, 0x61, 0x6d, 0x65]
  let en := en.writeString z.name
  let en := en.append [0xa4, 0x74, 0x79, 0x70, 0x65]
  let en := en.writeByte z.dataType
  let en := en.append [0xa3, 0x70, 0x6f, 0x73]
  let en := en.writeInt z.outputPosition
  let en := en.append [0xa5, 0x73, 0x74, 0x79, 0x70, 0x65]
  let en := en.writeString z.sDataType
  let en := en.append [0xa9, 0x70, 0x72, 0x6f, 0x76, 0x69, 0x64, 0x65, 0x72, 0x31]
  en.writeInt z.providerData1

/-- `switch msgp.UnsafeString(field)` in `DecodeMsg`. -/
def decodeValue (z : FieldDefinition) (field : Bytes) (dc : Reader) :
    FieldDefinition × Except MsgpError Reader :=
  if field = ascii "name" then
    decodeInto Reader.readString (fun z v => { z with name := v }) (fun z => { z with name := [] })
      "Name" z dc
  else if field = ascii "type" then
    decodeInto Reader.readByte (fun z v => { z with dataType := v }) id "DataType" z dc
  else if field = ascii "pos" then
    decodeInto Reader.readInt (fun z v => { z with outputPosition := v })
      (fun z => { z with outputPosition := 0 }) "OutputPosition" z dc
  else if field = ascii "stype" then
    decodeInto Reader.readString (fun z v => { z with sDataType := v })
      (fun z => { z with sDataType := [] }) "SDataType" z dc
  else if field = ascii "provider1" then
    decodeInto Reader.readInt (fun z v => { z with providerData1 := v })
      (fun z => { z with providerData1 := 0 }) "ProviderData1" z dc
  else
    match dc.skip with
    | .ok dc => (z, .ok dc)
    | .error err => (z, .error (wrapError err []))

def decodeField (z : FieldDefinition) (dc : Reader) : FieldDefinition × Except MsgpError Reader :=
  match dc.readMapKeyPtr with
  | .error err => (z, .error (wrapError err []))
  | .ok (field, dc) => z.decodeValue field dc

def decodeFields : Nat → FieldDefinition → Reader → FieldDefinition × Except MsgpError Reader
  | 0, z, dc => (z, .ok dc)
  | count + 1, z, dc =>
    match z.decodeField dc with
    | (z, .ok dc) => decodeFields count z dc
    | (z, .error err) => (z, .error err)

/-- `FieldDefinition.DecodeMsg`: the receiver after the call, and the reader or the error. -/
def decodeMsg (z : FieldDefinition) (dc : Reader) : FieldDefinition × Except MsgpError Reader :=
  match dc.readMapHeader with
  | .error err => (z, .error (wrapError err []))
  | .ok (count, dc) => decodeFields count z dc

end FieldDefinition

/-- `FieldDefinitions`, a Go slice: the backing array, whose length is the capacity, and the
slice's length. -/
structure FieldDefinitions where
  backing : List FieldDefinition
  len : Nat
  len_le : len ≤ backing.length

namespace FieldDefinitions

def elements (z : FieldDefinitions) : List FieldDefinition := z.backing.take z.len

/-- `(*z)[:n]` when `cap(*z) >= n`, else `make(FieldDefinitions, n)`. -/
def resize (z : FieldDefinitions) (n : Nat) : FieldDefinitions :=
  if room : n ≤ z.backing.length then ⟨z.backing, n, room⟩
  else ⟨List.replicate n default, n, by simp⟩

def set (z : FieldDefinitions) (i : Nat) (fd : FieldDefinition) : FieldDefinitions :=
  ⟨z.backing.set i fd, z.len, by simpa using z.len_le⟩

/-- `for zb0001 := range *z` in `UnmarshalMsg`: element `i` onwards, decoded in place. -/
def unmarshalElements : Nat → Nat → FieldDefinitions → Bytes →
    FieldDefinitions × Except MsgpError Bytes
  | 0, _, z, bts => (z, .ok bts)
  | remaining + 1, i, z, bts =>
    match (z.backing.getD i default).unmarshalMsg bts with
    | (fd, .ok bts) => unmarshalElements remaining (i + 1) (z.set i fd) bts
    | (fd, .error err) => (z.set i fd, .error (wrapError err [toString i]))

/-- `FieldDefinitions.UnmarshalMsg`. -/
def unmarshalMsg (z : FieldDefinitions) (bts : Bytes) : FieldDefinitions × Except MsgpError Bytes :=
  match readArrayHeaderBytes bts with
  | .error err => (z, .error (wrapError err []))
  | .ok (n, bts) => unmarshalElements n 0 (z.resize n) bts

/-- `FieldDefinitions.MarshalMsg`: the header carries `uint32(len(z))`. -/
def marshalMsg (z : FieldDefinitions) (b : Bytes) : Bytes :=
  z.elements.foldl (fun o fd => fd.marshalMsg o) (appendArrayHeader b (BitVec.ofNat 32 z.len))

/-- `FieldDefinitions.Msgsize`. -/
def msgsize (z : FieldDefinitions) : Nat :=
  z.elements.foldl (fun s fd => s + fd.msgsize) arrayHeaderSize

/-- `FieldDefinitions.EncodeMsg`. -/
def encodeMsg (z : FieldDefinitions) (en : Writer) : Writer :=
  z.elements.foldl (fun en fd => fd.encodeMsg en) (en.writeArrayHeader (BitVec.ofNat 32 z.len))

/-- `for zb0001 := range *z` in `DecodeMsg`. -/
def decodeElements : Nat → Nat → FieldDefinitions → Reader →
    FieldDefinitions × Except MsgpError Reader
  | 0, _, z, dc => (z, .ok dc)
  | remaining + 1, i, z, dc =>
    match (z.backing.getD i default).decodeMsg dc with
    | (fd, .ok dc) => decodeElements remaining (i + 1) (z.set i fd) dc
    | (fd, .error err) => (z.set i fd, .error (wrapError err [toString i]))

/-- `FieldDefinitions.DecodeMsg`. -/
def decodeMsg (z : FieldDefinitions) (dc : Reader) : FieldDefinitions × Except MsgpError Reader :=
  match dc.readArrayHeader with
  | .error err => (z, .error (wrapError err []))
  | .ok (n, dc) => decodeElements n 0 (z.resize n) dc

end FieldDefinitions

end Timeseries
