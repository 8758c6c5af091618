import Trickster.Msgp.Accepts
import Trickster.Timeseries.RoundTrip

namespace Timeseries

open Msgp

def fieldContext (field : Bytes) : List String :=
  if field = ascii "name" then ["Name"]
  else if field = ascii "type" then ["DataType"]
  else if field = ascii "pos" then ["OutputPosition"]
  else if field = ascii "stype" then ["SDataType"]
  else if field = ascii "provider1" then ["ProviderData1"]
  else []

def goFieldNames : List String := ["Name", "DataType", "OutputPosition", "SDataType", "ProviderData1"]

theorem fieldContext_cases (field : Bytes) :
    fieldContext field = [] ∨ ∃ name ∈ goFieldNames, fieldContext field = [name] := by
  unfold fieldContext
  split_ifs <;> simp [goFieldNames]

/-- The error a reader's own error `own` becomes through the `WrapError` calls with contexts
`calls`, the outermost first. -/
def wrapAll (own : MsgpError) (calls : List (List String)) : MsgpError :=
  calls.foldr (fun ctx err => wrapError err ctx) own

/-- How a failed decode reports where it failed: `ErrShortBytes`, or a reader's own error taken
through `WrapError` calls whose contexts `allowed` admits. -/
def Located (err : MsgpError) (allowed : List (List String) → Prop) : Prop :=
  err = .shortBytes ∨
    ∃ own calls, own.hasPath = false ∧ own ≠ .shortBytes ∧ err = wrapAll own calls ∧ allowed calls

namespace Located

variable {err : MsgpError} {allowed allowed' : List (List String) → Prop}

theorem wrap_own (own : err.hasPath = false) (ctx : List String) : Located (wrapError err ctx) (· = [ctx]) := by
  by_cases short : err = .shortBytes
  · exact .inl (by rw [short]; rfl)
  · exact .inr ⟨err, [ctx], own, short, rfl, rfl⟩

theorem wrap (located : Located err allowed) (ctx : List String) :
    Located (wrapError err ctx) fun calls => ∃ inner, allowed inner ∧ calls = ctx :: inner := by
  rcases located with rfl | ⟨own, calls, fresh, notShort, rfl, admitted⟩
  · exact .inl rfl
  · exact .inr ⟨own, ctx :: calls, fresh, notShort, rfl, calls, admitted, rfl⟩

theorem mono (located : Located err allowed) (weaker : ∀ calls, allowed calls → allowed' calls) :
    Located err allowed' := by
  rcases located with short | ⟨own, calls, fresh, notShort, same, admitted⟩
  · exact .inl short
  · exact .inr ⟨own, calls, fresh, notShort, same, weaker calls admitted⟩

end Located

namespace FieldDefinition

theorem decodeInto_located {α : Type} {read : Bytes → Except MsgpError (α × Bytes)}
    (reads : ReadsHead read fun _ => 0) {set : FieldDefinition → α → FieldDefinition}
    {reset : FieldDefinition → FieldDefinition} {context : String} {z fd : FieldDefinition}
    {bts : Bytes} {err : MsgpError} (failed : decodeInto read set reset context z bts = (fd, .error err)) :
    Located err (· = [[context]]) := by
  unfold decodeInto at failed
  split at failed
  · cases (Prod.mk.inj failed).2
  · next e found =>
    cases (Prod.mk.inj failed).2
    exact .wrap_own ((reads bts).error e found) _

theorem unmarshalValue_located {z fd : FieldDefinition} {field bts : Bytes} {err : MsgpError}
    (failed : z.unmarshalValue field bts = (fd, .error err)) : Located err (· = [fieldContext field]) := by
  unfold unmarshalValue at failed
  unfold fieldContext
  split_ifs at failed ⊢
  · exact decodeInto_located readStringZC_readsHead failed
  · exact decodeInto_located readByteBytes_readsHead failed
  · exact decodeInto_located readInt64Bytes_readsHead failed
  · exact decodeInto_located readStringZC_readsHead failed
  · exact decodeInto_located readInt64Bytes_readsHead failed
  · split at failed
    · cases (Prod.mk.inj failed).2
    · next e skipped =>
      cases (Prod.mk.inj failed).2
      exact .wrap_own (skipObjects_own skipped) _

/-- The `WrapError` calls of a `FieldDefinition` decode: one with no context for its map header, a
key or a skipped value, or one naming the Go field it could not read. -/
def FieldCalls (calls : List (List String)) : Prop := calls = [[]] ∨ ∃ name ∈ goFieldNames, calls = [[name]]

theorem unmarshalField_located {z fd : FieldDefinition} {bts : Bytes} {err : MsgpError}
    (failed : z.unmarshalField bts = (fd, .error err)) : Located err FieldCalls := by
  unfold unmarshalField at failed
  split at failed
  · next e found =>
    cases (Prod.mk.inj failed).2
    exact (Located.wrap_own ((readMapKeyZC_readsHead bts).error e found) []).mono fun _ => .inl
  · next field mid found =>
    refine (unmarshalValue_located failed).mono fun calls same => ?_
    rcases fieldContext_cases field with empty | ⟨name, known, named⟩
    · exact .inl (by rw [same, empty])
    · exact .inr ⟨name, known, by rw [same, named]⟩

theorem unmarshalFields_located {count : Nat} {z fd : FieldDefinition} {bts : Bytes} {err : MsgpError}
    (failed : unmarshalFields count z bts = (fd, .error err)) : Located err FieldCalls := by
  induction count generalizing z bts with
  | zero => cases (Prod.mk.inj failed).2
  | succ count ih =>
    rw [unmarshalFields] at failed
    split at failed
    · exact ih failed
    · next z' e found =>
      cases (Prod.mk.inj failed).2
      exact unmarshalField_located found

theorem unmarshalMsg_located {z fd : FieldDefinition} {bts : Bytes} {err : MsgpError}
    (failed : z.unmarshalMsg bts = (fd, .error err)) : Located err FieldCalls := by
  unfold unmarshalMsg at failed
  split at failed
  · next e found =>
    cases (Prod.mk.inj failed).2
    exact (Located.wrap_own ((readMapHeaderBytes_readsHead bts).error e found) []).mono fun _ => .inl
  · exact unmarshalFields_located failed

end FieldDefinition

namespace FieldDefinitions

/-- The `WrapError` calls of a `FieldDefinitions` decode of `len` elements: one with no context
for its array header, or one naming the index of the element that failed around the calls of
that element's decode. -/
def ElementCalls (len : Nat) (calls : List (List String)) : Prop :=
  calls = [[]] ∨ ∃ i < len, ∃ inner, FieldDefinition.FieldCalls inner ∧ calls = [toString i] :: inner

theorem unmarshalElements_len (n i : Nat) (z : FieldDefinitions) (bts : Bytes) :
    (unmarshalElements n i z bts).1.len = z.len := by
  induction n generalizing i z bts with
  | zero => rfl
  | succ n ih =>
    rw [unmarshalElements]
    split
    · next found => rw [ih]; rfl
    · rfl

theorem unmarshalElements_located {n i : Nat} {z z' : FieldDefinitions} {bts : Bytes} {err : MsgpError}
    (failed : unmarshalElements n i z bts = (z', .error err)) :
    Located err fun calls =>
      ∃ j, i ≤ j ∧ j < i + n ∧ ∃ inner, FieldDefinition.FieldCalls inner ∧ calls = [toString j] :: inner := by
  induction n generalizing i z bts with
  | zero => cases (Prod.mk.inj failed).2
  | succ n ih =>
    rw [unmarshalElements] at failed
    split at failed
    · exact (ih failed).mono fun calls ⟨j, after, below, rest⟩ => ⟨j, by omega, by omega, rest⟩
    · next fd e found =>
      cases (Prod.mk.inj failed).2
      exact ((FieldDefinition.unmarshalMsg_located found).wrap _).mono
        fun calls ⟨inner, admitted, same⟩ => ⟨i, le_refl i, by omega, inner, admitted, same⟩

theorem unmarshalMsg_located {z z' : FieldDefinitions} {bts : Bytes} {err : MsgpError}
    (failed : z.unmarshalMsg bts = (z', .error err)) : Located err (ElementCalls z'.len) := by
  unfold unmarshalMsg at failed
  split at failed
  · next e found =>
    cases (Prod.mk.inj failed).2
    exact (Located.wrap_own ((readArrayHeaderBytes_readsHead bts).error e found) []).mono fun _ => .inl
  · next n rest found =>
    have len : z'.len = n := by
      rw [← (Prod.mk.inj failed).1, unmarshalElements_len, resize_len]
    refine (unmarshalElements_located failed).mono fun calls ⟨j, _, below, inner, admitted, same⟩ => ?_
    exact .inr ⟨j, by omega, inner, admitted, same⟩

example : (FieldDefinitions.unmarshalMsg ⟨[], 0, le_refl 0⟩ ([0x91, 0x81, 0xa4] ++ ascii "type" ++ [0xff])).2 =
    .error (.uintBelowZero (-1) "0") := rfl

example : (FieldDefinitions.unmarshalMsg ⟨[], 0, le_refl 0⟩ ([0x91, 0x81, 0xa4] ++ ascii "type" ++ [0xa0])).2 =
    .error (.typeError .uint .str "0/DataType") := rfl

end FieldDefinitions

end Timeseries
