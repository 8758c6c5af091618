import Trickster.Msgp.Accepts
import Trickster.Timeseries.RoundTrip

namespace Msgp

namespace Reader

theorem lift_ok_unread {α : Type} {read : Bytes → Except MsgpError (α × Bytes)} {r r' : Reader}
    {a : α} (found : lift read r = .ok (a, r')) : read r.unread = .ok (a, r'.unread) := by
  unfold lift at found
  split at found
  · next a' rest found' =>
    obtain ⟨rfl, rfl⟩ := Prod.mk.inj (Except.ok.inj found)
    exact found'
  · cases found
  · cases found

theorem readMapKeyPtr_ok_unread {r r' : Reader} {key : Bytes} (found : r.readMapKeyPtr = .ok (key, r')) :
    readMapKeyZC r.unread = .ok (key, r'.unread) := by
  obtain ⟨_ | ⟨lead, rest⟩⟩ := r
  · cases found
  simp only [readMapKeyPtr] at found
  split at found
  · cases found
  · cases found
  · next read body header =>
    split_ifs at found with empty short
    obtain ⟨rfl, rfl⟩ := Prod.mk.inj (Except.ok.inj found)
    rcases readMapKeyZC_eq_header header.symm with keyRead | ⟨⟨_, failed⟩, -⟩
    · rw [keyRead]
      show readBody read body = _
      rw [readBody, if_neg short]
    · cases failed

end Reader

end Msgp

namespace Timeseries

open Msgp

namespace FieldDefinition

theorem decodeInto_consumed {α : Type} {read : Bytes → Except MsgpError (α × Bytes)}
    (reads : ReadsHead read fun _ => 0) {set : FieldDefinition → α → FieldDefinition}
    {reset : FieldDefinition → FieldDefinition} {context : String} {z fd : FieldDefinition}
    {bts rest : Bytes} (decoded : decodeInto read set reset context z bts = (fd, .ok rest)) :
    Consumed 1 bts rest := by
  unfold decodeInto at decoded
  split at decoded
  · next a rest' found =>
    cases (Prod.mk.inj decoded).2
    exact reads.consumed found
  · cases (Prod.mk.inj decoded).2

theorem unmarshalValue_consumed {z fd : FieldDefinition} {field bts rest : Bytes}
    (decoded : z.unmarshalValue field bts = (fd, .ok rest)) : Consumed 1 bts rest := by
  unfold unmarshalValue at decoded
  split_ifs at decoded
  · exact decodeInto_consumed readStringZC_readsHead decoded
  · exact decodeInto_consumed readByteBytes_readsHead decoded
  · exact decodeInto_consumed readInt64Bytes_readsHead decoded
  · exact decodeInto_consumed readStringZC_readsHead decoded
  · exact decodeInto_consumed readInt64Bytes_readsHead decoded
  · split at decoded
    · next rest' skipped =>
      cases (Prod.mk.inj decoded).2
      exact skip_consumed skipped
    · cases (Prod.mk.inj decoded).2

theorem unmarshalField_consumed {z fd : FieldDefinition} {bts rest : Bytes}
    (decoded : z.unmarshalField bts = (fd, .ok rest)) : Consumed 2 bts rest := by
  unfold unmarshalField at decoded
  split at decoded
  · cases (Prod.mk.inj decoded).2
  · next field mid found =>
    exact (readMapKeyZC_readsHead.consumed found).trans (unmarshalValue_consumed decoded)

theorem unmarshalFields_consumed {count : Nat} {z fd : FieldDefinition} {bts rest : Bytes}
    (decoded : unmarshalFields count z bts = (fd, .ok rest)) : Consumed (2 * count) bts rest := by
  induction count generalizing z bts with
  | zero =>
    cases (Prod.mk.inj decoded).2
    exact .refl _
  | succ count ih =>
    rw [unmarshalFields] at decoded
    split at decoded
    · next z' mid found =>
      rw [Nat.mul_succ, Nat.add_comm]
      exact (unmarshalField_consumed found).trans (ih decoded)
    · cases (Prod.mk.inj decoded).2

theorem unmarshalMsg_consumed {z fd : FieldDefinition} {bts rest : Bytes}
    (decoded : z.unmarshalMsg bts = (fd, .ok rest)) : Consumed 1 bts rest := by
  unfold unmarshalMsg at decoded
  split at decoded
  · cases (Prod.mk.inj decoded).2
  · next count mid found =>
    obtain ⟨h, rfl, head⟩ := (readMapHeaderBytes_readsHead bts).ok count mid found
    exact head.consumed (unmarshalFields_consumed decoded)

theorem decodeField_unread {z fd : FieldDefinition} {dc dc' : Reader}
    (decoded : z.decodeField dc = (fd, .ok dc')) : z.unmarshalField dc.unread = (fd, .ok dc'.unread) := by
  unfold decodeField at decoded
  split at decoded
  · cases (Prod.mk.inj decoded).2
  · next field mid found =>
    rw [unmarshalField, Reader.readMapKeyPtr_ok_unread found]
    rcases decodeValue_agrees z field mid.unread with ⟨err, err', -, failed⟩ | ⟨z', rest, same, same'⟩
    · rw [decoded] at failed
      cases failed
    · rw [decoded] at same'
      obtain ⟨rfl, left⟩ := Prod.mk.inj same'
      cases left
      exact same

theorem decodeFields_unread {count : Nat} {z fd : FieldDefinition} {dc dc' : Reader}
    (decoded : decodeFields count z dc = (fd, .ok dc')) :
    unmarshalFields count z dc.unread = (fd, .ok dc'.unread) := by
  induction count generalizing z dc with
  | zero =>
    obtain ⟨rfl, same⟩ := Prod.mk.inj decoded
    cases same
    rfl
  | succ count ih =>
    rw [decodeFields] at decoded
    split at decoded
    · next z' mid found =>
      rw [unmarshalFields, decodeField_unread found]
      exact ih decoded
    · cases (Prod.mk.inj decoded).2

theorem decodeMsg_unread {z fd : FieldDefinition} {dc dc' : Reader}
    (decoded : z.decodeMsg dc = (fd, .ok dc')) : z.unmarshalMsg dc.unread = (fd, .ok dc'.unread) := by
  unfold decodeMsg at decoded
  split at decoded
  · cases (Prod.mk.inj decoded).2
  · next count mid found =>
    rw [unmarshalMsg, Reader.lift_ok_unread found]
    exact decodeFields_unread decoded

end FieldDefinition

namespace FieldDefinitions

theorem unmarshalElements_consumed {n i : Nat} {z z' : FieldDefinitions} {bts rest : Bytes}
    (decoded : unmarshalElements n i z bts = (z', .ok rest)) : Consumed n bts rest := by
  induction n generalizing i z bts with
  | zero =>
    cases (Prod.mk.inj decoded).2
    exact .refl _
  | succ n ih =>
    rw [unmarshalElements] at decoded
    split at decoded
    · next fd mid found =>
      rw [Nat.add_comm]
      exact (FieldDefinition.unmarshalMsg_consumed found).trans (ih decoded)
    · cases (Prod.mk.inj decoded).2

theorem unmarshalMsg_consumed {z z' : FieldDefinitions} {bts rest : Bytes}
    (decoded : z.unmarshalMsg bts = (z', .ok rest)) : Consumed 1 bts rest := by
  unfold unmarshalMsg at decoded
  split at decoded
  · cases (Prod.mk.inj decoded).2
  · next n mid found =>
    obtain ⟨h, rfl, head⟩ := (readArrayHeaderBytes_readsHead bts).ok n mid found
    exact head.consumed (unmarshalElements_consumed decoded)

/-- `FieldDefinitions.UnmarshalMsg` accepts only well-formed MessagePack: whenever it succeeds,
the bytes it consumed are one object of the format spec's grammar, and what it leaves is what
`Skip` leaves. -/
theorem unmarshalMsg_accepts_one_object (z : FieldDefinitions) (bts : Bytes) {z' : FieldDefinitions}
    {rest : Bytes} (decoded : z.unmarshalMsg bts = (z', .ok rest)) :
    (∃ v, bts = v ++ rest ∧ Objects 1 v) ∧ skip bts = .ok rest := by
  obtain ⟨v, rfl, objects⟩ := unmarshalMsg_consumed decoded
  exact ⟨⟨v, rfl, objects⟩, skip_object objects rest⟩

theorem unmarshalMsg_accepts_one_object_of_name :
    (∃ v, [0x91, 0x81, 0xa4, 0x6e, 0x61, 0x6d, 0x65, 0xa1, 0x78, 0x07] = v ++ [0x07] ∧ Objects 1 v) ∧
      skip [0x91, 0x81, 0xa4, 0x6e, 0x61, 0x6d, 0x65, 0xa1, 0x78, 0x07] = .ok [0x07] :=
  unmarshalMsg_accepts_one_object ⟨[], 0, le_refl 0⟩ _ (show _ = (_, Except.ok [0x07]) from rfl)

/-- `FieldDefinitions.UnmarshalMsg` rejects every truncation of a well-formed object: cut short
anywhere, the bytes never decode. -/
theorem unmarshalMsg_rejects_truncation (z : FieldDefinitions) {v cut tail : Bytes} (wellFormed : Objects 1 v)
    (truncated : cut ++ tail = v) (nonempty : tail ≠ []) : ∃ err, (z.unmarshalMsg cut).2 = .error err := by
  rcases decoded : z.unmarshalMsg cut with ⟨z', _ | rest⟩
  · exact ⟨_, rfl⟩
  · obtain ⟨w, rfl, part⟩ := unmarshalMsg_consumed decoded
    have empty := objects_prefix_free wellFormed part (by rw [← truncated, List.append_assoc])
    exact absurd (List.append_eq_nil.mp empty).2 nonempty

theorem unmarshalMsg_rejects_truncation_of_array :
    Objects 1 [0x91, 0xc0] ∧ ∃ err, ((⟨[], 0, le_refl 0⟩ : FieldDefinitions).unmarshalMsg [0x91]).2 = .error err :=
  have wellFormed : Objects 1 [0x91, 0xc0] := .fixedCollection (by decide) (objects_single (by decide))
  ⟨wellFormed, unmarshalMsg_rejects_truncation ⟨[], 0, le_refl 0⟩ wellFormed
    (show [0x91] ++ [0xc0] = [0x91, 0xc0] from rfl) (by decide)⟩

/-- `FieldDefinitions.MarshalMsg` writes one well-formed MessagePack object, by the format spec's
grammar, for every slice whose length and strings fit their 32-bit headers. -/
theorem marshalMsg_well_formed (fs : FieldDefinitions) (count : fs.len < 2 ^ 32)
    (short : ∀ fd ∈ fs.elements, fd.name.length < 2 ^ 32 ∧ fd.sDataType.length < 2 ^ 32) :
    Objects 1 (fs.marshalMsg []) := by
  have decoded := (unmarshalMsg_marshalMsg fs fs [] count short).1
  obtain ⟨w, split, objects⟩ := unmarshalMsg_consumed
    (show fs.unmarshalMsg (fs.marshalMsg [] ++ []) = (_, .ok []) from Prod.ext rfl decoded)
  rw [List.append_cancel_right split]
  exact objects

theorem marshalMsg_well_formed_two :
    let fs : FieldDefinitions :=
      ⟨[⟨ascii "time", 1, 0, ascii "int64", 300⟩, ⟨ascii "value", 2, 1, ascii "float64", 0⟩], 2, by decide⟩
    fs.len < 2 ^ 32 ∧ (∀ fd ∈ fs.elements, fd.name.length < 2 ^ 32 ∧ fd.sDataType.length < 2 ^ 32) ∧
      Objects 1 (fs.marshalMsg []) :=
  have count : 2 < 2 ^ 32 := by decide
  have short : ∀ fd ∈ [(⟨ascii "time", 1, 0, ascii "int64", 300⟩ : FieldDefinition),
      ⟨ascii "value", 2, 1, ascii "float64", 0⟩], fd.name.length < 2 ^ 32 ∧ fd.sDataType.length < 2 ^ 32 := by
    decide
  ⟨count, short, marshalMsg_well_formed _ count short⟩

theorem decodeElements_unread {n i : Nat} {z z' : FieldDefinitions} {dc dc' : Reader}
    (decoded : decodeElements n i z dc = (z', .ok dc')) :
    unmarshalElements n i z dc.unread = (z', .ok dc'.unread) := by
  induction n generalizing i z dc with
  | zero =>
    obtain ⟨rfl, same⟩ := Prod.mk.inj decoded
    cases same
    rfl
  | succ n ih =>
    rw [decodeElements] at decoded
    split at decoded
    · next fd mid found =>
      rw [unmarshalElements, FieldDefinition.decodeMsg_unread found]
      exact ih decoded
    · cases (Prod.mk.inj decoded).2

/-- The stream decoder accepts no more than the buffer decoder: whatever `DecodeMsg` decodes
from a `msgp.Reader`, `UnmarshalMsg` decodes from the same bytes into the same receiver, to the
same slice and with the same bytes left. -/
theorem decodeMsg_refines_unmarshalMsg (z : FieldDefinitions) (dc : Reader) {z' : FieldDefinitions}
    {dc' : Reader} (decoded : z.decodeMsg dc = (z', .ok dc')) :
    z.unmarshalMsg dc.unread = (z', .ok dc'.unread) := by
  unfold decodeMsg at decoded
  split at decoded
  · cases (Prod.mk.inj decoded).2
  · next n mid found =>
    rw [unmarshalMsg, Reader.lift_ok_unread found]
    exact decodeElements_unread decoded

theorem decodeMsg_refines_unmarshalMsg_of_name :
    ∃ z', FieldDefinitions.decodeMsg ⟨[], 0, le_refl 0⟩ ⟨[0x91, 0x81, 0xa4, 0x6e, 0x61, 0x6d, 0x65, 0xa1, 0x78, 0x07]⟩ =
        (z', .ok ⟨[0x07]⟩) ∧
      FieldDefinitions.unmarshalMsg ⟨[], 0, le_refl 0⟩ [0x91, 0x81, 0xa4, 0x6e, 0x61, 0x6d, 0x65, 0xa1, 0x78, 0x07] =
        (z', .ok [0x07]) :=
  ⟨_, rfl, decodeMsg_refines_unmarshalMsg _ _ rfl⟩

end FieldDefinitions

end Timeseries
