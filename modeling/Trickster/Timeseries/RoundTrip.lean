import Trickster.Timeseries.StreamDecode

namespace Timeseries

open Msgp

/-- Both codecs of `FieldDataType` round trip every byte into any receiver: `UnmarshalMsg` and
`DecodeMsg` read back what `MarshalMsg` appends and `EncodeMsg` writes, and stop where it ends. -/
theorem FieldDataType.codecs_round_trip (v z : FieldDataType) (en : Writer) (rest : Bytes) :
    z.unmarshalMsg (v.marshalMsg [] ++ rest) = (v, .ok rest) ∧
      (v.encodeMsg en).written = en.written ++ v.marshalMsg [] ∧
      z.decodeMsg ⟨v.marshalMsg [] ++ rest⟩ = (v, .ok ⟨rest⟩) := by
  have read := readByteBytes_appendByte v rest
  refine ⟨?_, ?_, ?_⟩
  · simp only [FieldDataType.unmarshalMsg, FieldDataType.marshalMsg, read]
  · rw [FieldDataType.encodeMsg, Writer.writeByte_written, appendByte_eq_append]
    rfl
  · simp only [FieldDataType.decodeMsg, Reader.readByte, FieldDataType.marshalMsg, Reader.lift_ok read]

namespace FieldDefinition

theorem marshalMsg_eq (z : FieldDefinition) (b : Bytes) :
    z.marshalMsg b = b ++ 0x85 :: (0xa4 :: (ascii "name" ++ (appendString [] z.name ++
      (0xa4 :: (ascii "type" ++ (appendByte [] z.dataType ++
      (0xa3 :: (ascii "pos" ++ (appendInt [] z.outputPosition ++
      (0xa5 :: (ascii "stype" ++ (appendString [] z.sDataType ++
      (0xa9 :: (ascii "provider1" ++ appendInt [] z.providerData1)))))))))))))) := by
  simp [marshalMsg]

theorem marshalMsg_eq_append (z : FieldDefinition) (b : Bytes) :
    z.marshalMsg b = b ++ z.marshalMsg [] := by
  rw [marshalMsg_eq, marshalMsg_eq z []]; rfl

theorem unmarshalField_fixstr (z : FieldDefinition) (lead : BitVec 8) (key rest : Bytes)
    (fix : isfixstr lead = true) (size : lead.toNat = 0xa0 + key.length) :
    z.unmarshalField (lead :: (key ++ rest)) = z.unmarshalValue key rest := by
  simp [unmarshalField, readMapKeyZC, readStringZC_fixstr lead key rest fix size]

theorem unmarshalField_name (z : FieldDefinition) (s more : Bytes) (short : s.length < 2 ^ 32) :
    z.unmarshalField (0xa4 :: (ascii "name" ++ (appendString [] s ++ more))) =
      ({ z with name := s }, .ok more) := by
  rw [unmarshalField_fixstr z _ _ _ (by decide) (by decide)]
  simp [unmarshalValue, decodeInto, readStringBytes, readStringZC_appendString s more short]

theorem unmarshalField_type (z : FieldDefinition) (u : BitVec 8) (more : Bytes) :
    z.unmarshalField (0xa4 :: (ascii "type" ++ (appendByte [] u ++ more))) =
      ({ z with dataType := u }, .ok more) := by
  rw [unmarshalField_fixstr z _ _ _ (by decide) (by decide)]
  simp [unmarshalValue, decodeInto, readByteBytes_appendByte]

theorem unmarshalField_pos (z : FieldDefinition) (i : BitVec 64) (more : Bytes) :
    z.unmarshalField (0xa3 :: (ascii "pos" ++ (appendInt [] i ++ more))) =
      ({ z with outputPosition := i }, .ok more) := by
  rw [unmarshalField_fixstr z _ _ _ (by decide) (by decide)]
  simp [unmarshalValue, decodeInto, readIntBytes_appendInt]

theorem unmarshalField_stype (z : FieldDefinition) (s more : Bytes) (short : s.length < 2 ^ 32) :
    z.unmarshalField (0xa5 :: (ascii "stype" ++ (appendString [] s ++ more))) =
      ({ z with sDataType := s }, .ok more) := by
  rw [unmarshalField_fixstr z _ _ _ (by decide) (by decide)]
  simp [unmarshalValue, decodeInto, readStringBytes, readStringZC_appendString s more short]

theorem unmarshalField_provider1 (z : FieldDefinition) (i : BitVec 64) (more : Bytes) :
    z.unmarshalField (0xa9 :: (ascii "provider1" ++ (appendInt [] i ++ more))) =
      ({ z with providerData1 := i }, .ok more) := by
  rw [unmarshalField_fixstr z _ _ _ (by decide) (by decide)]
  simp [unmarshalValue, decodeInto, readIntBytes_appendInt]

theorem readMapHeaderBytes_five (rest : Bytes) : readMapHeaderBytes (0x85 :: rest) = .ok (5, rest) := by
  simp [readMapHeaderBytes, isfixmap, rfixmap]

theorem unmarshalMsg_marshalMsg (fd z : FieldDefinition) (rest : Bytes)
    (short : fd.name.length < 2 ^ 32) (short' : fd.sDataType.length < 2 ^ 32) :
    z.unmarshalMsg (fd.marshalMsg [] ++ rest) = (fd, .ok rest) := by
  rw [marshalMsg_eq]
  simp only [List.nil_append, List.cons_append, List.append_assoc]
  simp only [unmarshalMsg, readMapHeaderBytes_five, unmarshalFields, unmarshalField_name _ _ _ short,
    unmarshalField_type, unmarshalField_pos, unmarshalField_stype _ _ _ short',
    unmarshalField_provider1]

theorem decodeValue_of_unmarshalValue {z z' : FieldDefinition} {field bts more : Bytes}
    (h : z.unmarshalValue field bts = (z', .ok more)) :
    z.decodeValue field ⟨bts⟩ = (z', .ok ⟨more⟩) := by
  rcases decodeValue_agrees z field bts with ⟨err, -, failed, -⟩ | ⟨z'', rest, found, found'⟩
  · rw [h] at failed
    cases failed
  · rw [h] at found
    cases found
    exact found'

theorem decodeField_fixstr {z z' : FieldDefinition} {lead : BitVec 8} {key rest more : Bytes}
    (fix : isfixstr lead = true) (size : lead.toNat = 0xa0 + key.length) (nonempty : key ≠ [])
    (h : z.unmarshalField (lead :: (key ++ rest)) = (z', .ok more)) :
    z.decodeField ⟨lead :: (key ++ rest)⟩ = (z', .ok ⟨more⟩) := by
  rw [unmarshalField_fixstr z lead key rest fix size] at h
  simp only [decodeField, Reader.readMapKeyPtr_fixstr lead key rest fix size nonempty]
  exact decodeValue_of_unmarshalValue h

theorem decodeField_name (z : FieldDefinition) (s more : Bytes) (short : s.length < 2 ^ 32) :
    z.decodeField ⟨0xa4 :: (ascii "name" ++ (appendString [] s ++ more))⟩ =
      ({ z with name := s }, .ok ⟨more⟩) :=
  decodeField_fixstr (by decide) (by decide) (by decide) (unmarshalField_name z s more short)

theorem decodeField_type (z : FieldDefinition) (u : BitVec 8) (more : Bytes) :
    z.decodeField ⟨0xa4 :: (ascii "type" ++ (appendByte [] u ++ more))⟩ =
      ({ z with dataType := u }, .ok ⟨more⟩) :=
  decodeField_fixstr (by decide) (by decide) (by decide) (unmarshalField_type z u more)

theorem decodeField_pos (z : FieldDefinition) (i : BitVec 64) (more : Bytes) :
    z.decodeField ⟨0xa3 :: (ascii "pos" ++ (appendInt [] i ++ more))⟩ =
      ({ z with outputPosition := i }, .ok ⟨more⟩) :=
  decodeField_fixstr (by decide) (by decide) (by decide) (unmarshalField_pos z i more)

theorem decodeField_stype (z : FieldDefinition) (s more : Bytes) (short : s.length < 2 ^ 32) :
    z.decodeField ⟨0xa5 :: (ascii "stype" ++ (appendString [] s ++ more))⟩ =
      ({ z with sDataType := s }, .ok ⟨more⟩) :=
  decodeField_fixstr (by decide) (by decide) (by decide) (unmarshalField_stype z s more short)

theorem decodeField_provider1 (z : FieldDefinition) (i : BitVec 64) (more : Bytes) :
    z.decodeField ⟨0xa9 :: (ascii "provider1" ++ (appendInt [] i ++ more))⟩ =
      ({ z with providerData1 := i }, .ok ⟨more⟩) :=
  decodeField_fixstr (by decide) (by decide) (by decide) (unmarshalField_provider1 z i more)

theorem decodeMsg_marshalMsg (fd z : FieldDefinition) (rest : Bytes)
    (short : fd.name.length < 2 ^ 32) (short' : fd.sDataType.length < 2 ^ 32) :
    z.decodeMsg ⟨fd.marshalMsg [] ++ rest⟩ = (fd, .ok ⟨rest⟩) := by
  rw [marshalMsg_eq]
  simp only [List.nil_append, List.cons_append, List.append_assoc]
  simp only [decodeMsg, Reader.readMapHeader, Reader.lift_ok (readMapHeaderBytes_five _),
    decodeFields, decodeField_name _ _ _ short, decodeField_type, decodeField_pos,
    decodeField_stype _ _ _ short', decodeField_provider1]

theorem encodeMsg_written (z : FieldDefinition) (en : Writer)
    (short : z.name.length < 2 ^ 32) (short' : z.sDataType.length < 2 ^ 32) :
    (z.encodeMsg en).written = z.marshalMsg en.written := by
  simp only [encodeMsg, marshalMsg, Writer.append_written, Writer.writeString_written _ _ short,
    Writer.writeString_written _ _ short', Writer.writeByte_written, Writer.writeInt_written]

end FieldDefinition

namespace FieldDefinitions

theorem elements_length (z : FieldDefinitions) : z.elements.length = z.len := by
  simp [elements, z.len_le]

@[simp] theorem resize_len (z : FieldDefinitions) (n : Nat) : (z.resize n).len = n := by
  unfold resize; split <;> rfl

theorem resize_room (z : FieldDefinitions) (n : Nat) : n ≤ (z.resize n).backing.length := by
  unfold resize; split <;> simp_all

@[simp] theorem set_backing (z : FieldDefinitions) (i : Nat) (fd : FieldDefinition) :
    (z.set i fd).backing = z.backing.set i fd := rfl

@[simp] theorem set_len (z : FieldDefinitions) (i : Nat) (fd : FieldDefinition) :
    (z.set i fd).len = z.len := rfl

theorem foldl_marshalMsg (l : List FieldDefinition) (b : Bytes) :
    l.foldl (fun o fd => fd.marshalMsg o) b = b ++ (l.map (·.marshalMsg [])).flatten := by
  induction l generalizing b with
  | nil => simp
  | cons fd l ih => simp [ih, FieldDefinition.marshalMsg_eq_append fd b]

theorem marshalMsg_eq (z : FieldDefinitions) (b : Bytes) :
    z.marshalMsg b = b ++ (appendArrayHeader [] (BitVec.ofNat 32 z.len) ++
      (z.elements.map (·.marshalMsg [])).flatten) := by
  simp [marshalMsg, foldl_marshalMsg, appendArrayHeader_eq_append b]

def overwrite (backing : List FieldDefinition) (i : Nat) (fs : List FieldDefinition) :
    List FieldDefinition :=
  backing.take i ++ fs ++ backing.drop (i + fs.length)

theorem overwrite_nil (backing : List FieldDefinition) (i : Nat) : overwrite backing i [] = backing := by
  simp [overwrite]

theorem overwrite_cons (backing : List FieldDefinition) (i : Nat) (fd : FieldDefinition)
    (fs : List FieldDefinition) (room : i < backing.length) :
    overwrite (backing.set i fd) (i + 1) fs = overwrite backing i (fd :: fs) := by
  have prefixLength : (backing.take i).length = i := by simp; omega
  have whole : (backing.take i).take (i + 1) = backing.take i :=
    List.take_of_length_le (by omega)
  have past : (backing.take i).drop (i + (fs.length + 1)) = [] :=
    List.drop_eq_nil_of_le (by omega)
  rw [overwrite, overwrite, List.set_eq_take_append_cons_drop, if_pos room,
    List.take_append_eq_append_take, List.drop_append_eq_append_drop, prefixLength]
  simp [whole, past, show i + 1 + fs.length - i = fs.length + 1 by omega, List.drop_drop,
    Nat.add_comm, Nat.add_left_comm]

theorem unmarshalElements_marshalMsg (fs : List FieldDefinition) (i : Nat) (z : FieldDefinitions)
    (rest : Bytes) (room : i + fs.length ≤ z.backing.length)
    (short : ∀ fd ∈ fs, fd.name.length < 2 ^ 32 ∧ fd.sDataType.length < 2 ^ 32) :
    let result := unmarshalElements fs.length i z ((fs.map (·.marshalMsg [])).flatten ++ rest)
    result.1.backing = overwrite z.backing i fs ∧ result.1.len = z.len ∧ result.2 = .ok rest := by
  induction fs generalizing i z with
  | nil => simp [unmarshalElements, overwrite_nil]
  | cons fd fs ih =>
    have fits := short fd (List.mem_cons_self _ _)
    have decoded := FieldDefinition.unmarshalMsg_marshalMsg fd (z.backing.getD i default)
      ((fs.map (·.marshalMsg [])).flatten ++ rest) fits.1 fits.2
    simp only [List.length_cons, List.map_cons, List.flatten_cons, List.append_assoc,
      unmarshalElements, decoded]
    have later := ih (i + 1) (z.set i fd) (by simp at room ⊢; omega)
      (fun fd' member => short fd' (List.mem_cons_of_mem _ member))
    simp only [set_backing, set_len] at later
    rw [overwrite_cons _ _ _ _ (by simp at room; omega)] at later
    exact later

theorem decodeElements_marshalMsg (fs : List FieldDefinition) (i : Nat) (z : FieldDefinitions)
    (rest : Bytes) (room : i + fs.length ≤ z.backing.length)
    (short : ∀ fd ∈ fs, fd.name.length < 2 ^ 32 ∧ fd.sDataType.length < 2 ^ 32) :
    let result := decodeElements fs.length i z ⟨(fs.map (·.marshalMsg [])).flatten ++ rest⟩
    result.1.backing = overwrite z.backing i fs ∧ result.1.len = z.len ∧ result.2 = .ok ⟨rest⟩ := by
  induction fs generalizing i z with
  | nil => simp [decodeElements, overwrite_nil]
  | cons fd fs ih =>
    have fits := short fd (List.mem_cons_self _ _)
    have decoded := FieldDefinition.decodeMsg_marshalMsg fd (z.backing.getD i default)
      ((fs.map (·.marshalMsg [])).flatten ++ rest) fits.1 fits.2
    simp only [List.length_cons, List.map_cons, List.flatten_cons, List.append_assoc,
      decodeElements, decoded]
    have later := ih (i + 1) (z.set i fd) (by simp at room ⊢; omega)
      (fun fd' member => short fd' (List.mem_cons_of_mem _ member))
    simp only [set_backing, set_len] at later
    rw [overwrite_cons _ _ _ _ (by simp at room; omega)] at later
    exact later

theorem overwrite_take (backing fs : List FieldDefinition) :
    (overwrite backing 0 fs).take fs.length = fs := by
  simp [overwrite]

theorem readArrayHeaderBytes_marshalMsg (fs : FieldDefinitions) (count : fs.len < 2 ^ 32)
    (rest : Bytes) :
    readArrayHeaderBytes (appendArrayHeader [] (BitVec.ofNat 32 fs.len) ++ rest) =
      .ok (fs.elements.length, rest) := by
  rw [readArrayHeaderBytes_appendArrayHeader, elements_length, BitVec.toNat_ofNat,
    Nat.mod_eq_of_lt count]

theorem unmarshalMsg_marshalMsg (fs z : FieldDefinitions) (rest : Bytes) (count : fs.len < 2 ^ 32)
    (short : ∀ fd ∈ fs.elements, fd.name.length < 2 ^ 32 ∧ fd.sDataType.length < 2 ^ 32) :
    (z.unmarshalMsg (fs.marshalMsg [] ++ rest)).2 = .ok rest ∧
      (z.unmarshalMsg (fs.marshalMsg [] ++ rest)).1.elements = fs.elements := by
  have loop := unmarshalElements_marshalMsg fs.elements 0 (z.resize fs.elements.length) rest
    (by simpa using resize_room z fs.elements.length) short
  rw [marshalMsg_eq, List.nil_append, List.append_assoc]
  simp only [unmarshalMsg, readArrayHeaderBytes_marshalMsg fs count]
  refine ⟨loop.2.2, ?_⟩
  rw [elements, loop.1, loop.2.1, resize_len, overwrite_take]

/-- `FieldDefinitions.MarshalMsg` appends to any prefix, and `UnmarshalMsg` reads its bytes back
into any receiver slice, whatever its length, capacity and stale elements, stopping where they
end. -/
theorem marshal_unmarshal_round_trip (fs z : FieldDefinitions) (rest : Bytes)
    (count : fs.len < 2 ^ 32)
    (short : ∀ fd ∈ fs.elements, fd.name.length < 2 ^ 32 ∧ fd.sDataType.length < 2 ^ 32) :
    (∀ b, fs.marshalMsg b = b ++ fs.marshalMsg []) ∧
      (z.unmarshalMsg (fs.marshalMsg [] ++ rest)).2 = .ok rest ∧
      (z.unmarshalMsg (fs.marshalMsg [] ++ rest)).1.elements = fs.elements :=
  ⟨fun b => by rw [marshalMsg_eq, marshalMsg_eq fs []]; rfl, unmarshalMsg_marshalMsg fs z rest count short⟩

theorem marshal_unmarshal_round_trip_two :
    let fs : FieldDefinitions :=
      ⟨[⟨ascii "time", 1, 0, ascii "int64", 300⟩, ⟨ascii "value", 2, 1, ascii "float64", 0⟩], 2,
        by decide⟩
    let z : FieldDefinitions := ⟨[default, default, default], 1, by decide⟩
    fs.len < 2 ^ 32 ∧
      (∀ fd ∈ fs.elements, fd.name.length < 2 ^ 32 ∧ fd.sDataType.length < 2 ^ 32) ∧
      (∀ b, fs.marshalMsg b = b ++ fs.marshalMsg []) ∧
      (z.unmarshalMsg (fs.marshalMsg [] ++ [0xc0])).2 = .ok [0xc0] ∧
      (z.unmarshalMsg (fs.marshalMsg [] ++ [0xc0])).1.elements = fs.elements :=
  ⟨by decide, by decide, marshal_unmarshal_round_trip _ _ _ (by decide) (by decide)⟩

theorem foldl_encodeMsg_written (l : List FieldDefinition) (w : Writer)
    (short : ∀ fd ∈ l, fd.name.length < 2 ^ 32 ∧ fd.sDataType.length < 2 ^ 32) :
    (l.foldl (fun en fd => fd.encodeMsg en) w).written =
      l.foldl (fun o fd => fd.marshalMsg o) w.written := by
  induction l generalizing w with
  | nil => rfl
  | cons fd l ih =>
    have first := short fd (List.mem_cons_self _ _)
    rw [List.foldl_cons, List.foldl_cons, ih _ fun fd' member => short fd' (List.mem_cons_of_mem _ member),
      FieldDefinition.encodeMsg_written fd w first.1 first.2]

/-- The stream codec agrees with the buffer codec: `EncodeMsg` writes `MarshalMsg`'s bytes, and
`DecodeMsg` reads them back into any receiver and leaves exactly what follows unread. -/
theorem stream_codec_agrees_with_buffer_codec (fs z : FieldDefinitions) (en : Writer)
    (rest : Bytes) (count : fs.len < 2 ^ 32)
    (short : ∀ fd ∈ fs.elements, fd.name.length < 2 ^ 32 ∧ fd.sDataType.length < 2 ^ 32) :
    (fs.encodeMsg en).written = en.written ++ fs.marshalMsg [] ∧
      (z.decodeMsg ⟨fs.marshalMsg [] ++ rest⟩).2 = .ok ⟨rest⟩ ∧
      (z.decodeMsg ⟨fs.marshalMsg [] ++ rest⟩).1.elements = fs.elements := by
  have loop := decodeElements_marshalMsg fs.elements 0 (z.resize fs.elements.length) rest
    (by simpa using resize_room z fs.elements.length) short
  refine ⟨?_, ?_⟩
  · rw [encodeMsg, foldl_encodeMsg_written _ _ short, Writer.writeArrayHeader_written, ← marshalMsg, marshalMsg_eq,
      marshalMsg_eq fs []]
    simp
  · rw [marshalMsg_eq, List.nil_append, List.append_assoc]
    simp only [decodeMsg, Reader.readArrayHeader,
      Reader.lift_ok (readArrayHeaderBytes_marshalMsg fs count _)]
    refine ⟨loop.2.2, ?_⟩
    rw [elements, loop.1, loop.2.1, resize_len, overwrite_take]

theorem stream_codec_agrees_on_one :
    let fs : FieldDefinitions := ⟨[⟨ascii "time", 1, 0, ascii "int64", 300⟩], 1, by decide⟩
    let z : FieldDefinitions := ⟨[], 0, by decide⟩
    fs.len < 2 ^ 32 ∧
      (∀ fd ∈ fs.elements, fd.name.length < 2 ^ 32 ∧ fd.sDataType.length < 2 ^ 32) ∧
      (fs.encodeMsg ⟨[0x01]⟩).written = [0x01] ++ fs.marshalMsg [] ∧
      (z.decodeMsg ⟨fs.marshalMsg [] ++ [0xc0]⟩).2 = .ok ⟨[0xc0]⟩ ∧
      (z.decodeMsg ⟨fs.marshalMsg [] ++ [0xc0]⟩).1.elements = fs.elements :=
  ⟨by decide, by decide, stream_codec_agrees_with_buffer_codec _ _ _ _ (by decide) (by decide)⟩

theorem foldl_msgsize (l : List FieldDefinition) (start : Nat) :
    l.foldl (fun s fd => s + fd.msgsize) start = start + (l.map (·.msgsize)).sum := by
  induction l generalizing start with
  | nil => simp
  | cons fd l ih => simp [ih]; omega

end FieldDefinitions

theorem FieldDefinition.marshalMsg_length_le (fd : FieldDefinition) :
    (fd.marshalMsg []).length ≤ fd.msgsize := by
  have name := appendString_length fd.name
  have stype := appendString_length fd.sDataType
  have dataType := appendByte_length fd.dataType
  have pos := appendInt_length fd.outputPosition
  have provider := appendInt_length fd.providerData1
  rw [FieldDefinition.marshalMsg_eq]
  simp only [FieldDefinition.msgsize, List.length_append, List.length_cons, List.nil_append,
    FieldDefinition.ascii_name, FieldDefinition.ascii_type, FieldDefinition.ascii_pos,
    FieldDefinition.ascii_stype, FieldDefinition.ascii_provider1, List.length_nil] at *
  omega

theorem FieldDefinitions.flatten_marshalMsg_length_le (l : List FieldDefinition) :
    ((l.map (·.marshalMsg [])).flatten).length ≤ (l.map (·.msgsize)).sum := by
  induction l with
  | nil => simp
  | cons fd l ih =>
    have first := FieldDefinition.marshalMsg_length_le fd
    simp only [List.map_cons, List.flatten_cons, List.length_append, List.sum_cons]
    omega

/-- `Msgsize` bounds the bytes `MarshalMsg` appends, for one definition and for a slice. -/
theorem msgsize_bounds_marshalMsg :
    (∀ fd : FieldDefinition, (fd.marshalMsg []).length ≤ fd.msgsize) ∧
      ∀ fs : FieldDefinitions, (fs.marshalMsg []).length ≤ fs.msgsize := by
  refine ⟨FieldDefinition.marshalMsg_length_le, fun fs => ?_⟩
  have header := appendArrayHeader_length (BitVec.ofNat 32 fs.len)
  have elements := FieldDefinitions.flatten_marshalMsg_length_le fs.elements
  rw [FieldDefinitions.marshalMsg_eq, FieldDefinitions.msgsize, FieldDefinitions.foldl_msgsize]
  simp only [List.nil_append, List.length_append]
  omega

end Timeseries
