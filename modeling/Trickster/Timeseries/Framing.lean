import Trickster.Msgp.Accepts
import Trickster.Timeseries.FieldDefinition

namespace Msgp

/-- `read` reads a frame: when it succeeds on `b` leaving `rest`, `b` is a prefix `h` before
`rest`, and on `h` before any bytes it reads the same value and leaves those bytes. -/
def Framed {α : Type} (read : Bytes → Except MsgpError (α × Bytes)) : Prop :=
  ∀ b a rest, read b = .ok (a, rest) → ∃ h, b = h ++ rest ∧ ∀ tail, read (h ++ tail) = .ok (a, tail)

section Framed

variable {α : Type} {read : Bytes → Except MsgpError (α × Bytes)}

theorem Framed.then (framed : Framed read) {b mid m rest : Bytes} {a : α} (found : read b = .ok (a, mid))
    (split : mid = m ++ rest) : ∃ k, b = k ++ m ++ rest ∧ ∀ tail, read (k ++ m ++ tail) = .ok (a, m ++ tail) := by
  obtain ⟨k, rfl, again⟩ := framed b a mid found
  subst split
  exact ⟨k, (List.append_assoc _ _ _).symm, fun tail => by rw [List.append_assoc]; exact again _⟩

theorem framed_ok (a : α) : Framed fun rest => (Except.ok (a, rest) : Except MsgpError _) := by
  intro b a' rest found
  obtain ⟨rfl, rfl⟩ := Prod.mk.inj (Except.ok.inj found)
  exact ⟨[], rfl, fun _ => rfl⟩

theorem framed_error (err : MsgpError) : Framed fun _ => (Except.error err : Except MsgpError (α × Bytes)) :=
  fun _ _ _ found => nomatch found

theorem framed_ite {c : Prop} [Decidable c] {yes no : Bytes → Except MsgpError (α × Bytes)}
    (framedYes : c → Framed yes) (framedNo : ¬c → Framed no) : Framed fun b => if c then yes b else no b := by
  by_cases h : c
  · simpa only [if_pos h] using framedYes h
  · simpa only [if_neg h] using framedNo h

theorem framed_cons (empty : ∀ a rest, read [] ≠ .ok (a, rest))
    (lead : ∀ c, Framed fun rest => read (c :: rest)) : Framed read := by
  rintro (_ | ⟨c, b⟩) a rest found
  · exact absurd found (empty a rest)
  · obtain ⟨h, rfl, again⟩ := lead c b a rest found
    exact ⟨c :: h, rfl, again⟩

theorem framed_of_readsWithin (within : ReadsWithin read) (reads : ReadsHead read fun _ => 0) : Framed read := by
  intro b a rest found
  obtain ⟨h, rfl, head⟩ := (reads b).ok a rest found
  have whole : Objects 1 h := by simpa using head 0 [] .nil
  rcases within h whole with ⟨err, failed⟩ | ⟨a', again⟩
  · cases (failed rest).symm.trans found
  · obtain ⟨rfl, -⟩ := Prod.mk.inj (Except.ok.inj ((again rest).symm.trans found))
    exact ⟨h, rfl, again⟩

end Framed

theorem readPrefixed_framed (width : Nat) : Framed (readPrefixed width) := by
  intro b a rest found
  obtain ⟨long, rfl, rfl⟩ := readPrefixed_ok found
  exact ⟨b.take width, (List.take_append_drop _ _).symm, readPrefixed_exact (by simp; omega)⟩

theorem readMapHeaderBytes_framed : Framed readMapHeaderBytes :=
  framed_cons (fun _ _ found => nomatch found) fun _ =>
    framed_ite (fun _ => framed_ok _) fun _ => framed_ite (fun _ => readPrefixed_framed 2) fun _ =>
      framed_ite (fun _ => readPrefixed_framed 4) fun _ => framed_error _

theorem readArrayHeaderBytes_framed : Framed readArrayHeaderBytes :=
  framed_cons (fun _ _ found => nomatch found) fun _ =>
    framed_ite (fun _ => framed_ok _) fun _ => framed_ite (fun _ => readPrefixed_framed 2) fun _ =>
      framed_ite (fun _ => readPrefixed_framed 4) fun _ => framed_error _

end Msgp

namespace Timeseries

open Msgp

def DecodesFramed {σ : Type} (decode : σ → Bytes → σ × Except MsgpError Bytes) : Prop :=
  ∀ z b z' rest, decode z b = (z', .ok rest) → ∃ h, b = h ++ rest ∧ ∀ tail, decode z (h ++ tail) = (z', .ok tail)

section DecodesFramed

variable {σ : Type} {decode : σ → Bytes → σ × Except MsgpError Bytes}

theorem DecodesFramed.then (framed : DecodesFramed decode) {z z' : σ} {b mid m rest : Bytes}
    (found : decode z b = (z', .ok mid)) (split : mid = m ++ rest) :
    ∃ k, b = k ++ m ++ rest ∧ ∀ tail, decode z (k ++ m ++ tail) = (z', .ok (m ++ tail)) := by
  obtain ⟨k, rfl, again⟩ := framed z b z' mid found
  subst split
  exact ⟨k, (List.append_assoc _ _ _).symm, fun tail => by rw [List.append_assoc]; exact again _⟩

theorem decodesFramed_done : DecodesFramed fun (z : σ) b => (z, .ok b) := by
  intro z b z' rest decoded
  obtain ⟨rfl, same⟩ := Prod.mk.inj decoded
  cases same
  exact ⟨[], rfl, fun _ => rfl⟩

end DecodesFramed

namespace FieldDefinition

theorem decodeInto_framed {α : Type} {read : Bytes → Except MsgpError (α × Bytes)} (framed : Framed read)
    (set : FieldDefinition → α → FieldDefinition) (reset : FieldDefinition → FieldDefinition)
    (context : String) : DecodesFramed (decodeInto read set reset context) := by
  intro z b z' rest decoded
  unfold decodeInto at decoded
  split at decoded
  · next a rest' found =>
    obtain ⟨h, rfl, again⟩ := framed b a rest' found
    obtain ⟨rfl, same⟩ := Prod.mk.inj decoded
    cases same
    exact ⟨h, rfl, fun tail => by rw [decodeInto, again tail]⟩
  · cases (Prod.mk.inj decoded).2

theorem unmarshalValue_framed (field : Bytes) : DecodesFramed fun (z : FieldDefinition) bts => z.unmarshalValue field bts := by
  have string := framed_of_readsWithin readStringZC_readsWithin readStringZC_readsHead
  have int := framed_of_readsWithin readInt64Bytes_readsWithin readInt64Bytes_readsHead
  intro z b z' rest decoded
  dsimp only at decoded ⊢
  unfold unmarshalValue at decoded ⊢
  split_ifs at decoded ⊢
  · exact decodeInto_framed string _ _ _ z b z' rest decoded
  · exact decodeInto_framed (framed_of_readsWithin readByteBytes_readsWithin readByteBytes_readsHead)
      _ _ _ z b z' rest decoded
  · exact decodeInto_framed int _ _ _ z b z' rest decoded
  · exact decodeInto_framed string _ _ _ z b z' rest decoded
  · exact decodeInto_framed int _ _ _ z b z' rest decoded
  · split at decoded
    · next rest' skipped =>
      obtain ⟨rfl, same⟩ := Prod.mk.inj decoded
      cases same
      obtain ⟨v, rfl, objects⟩ := skip_consumed skipped
      exact ⟨v, rfl, fun tail => by rw [skip_object objects tail]⟩
    · cases (Prod.mk.inj decoded).2

theorem unmarshalField_framed : DecodesFramed unmarshalField := by
  intro z b z' rest decoded
  unfold unmarshalField at decoded
  split at decoded
  · cases (Prod.mk.inj decoded).2
  · next field mid found =>
    obtain ⟨m, rfl, value⟩ := unmarshalValue_framed field z mid z' rest decoded
    obtain ⟨k, rfl, key⟩ := (framed_of_readsWithin readMapKeyZC_readsWithin readMapKeyZC_readsHead).then found rfl
    exact ⟨k ++ m, rfl, fun tail => by rw [unmarshalField, key]; exact value tail⟩

theorem unmarshalFields_framed (count : Nat) : DecodesFramed (unmarshalFields count) := by
  induction count with
  | zero => exact decodesFramed_done
  | succ count ih =>
    intro z b z' rest decoded
    rw [unmarshalFields] at decoded
    split at decoded
    · next z₁ mid found =>
      obtain ⟨m, rfl, fields⟩ := ih z₁ mid z' rest decoded
      obtain ⟨k, rfl, field⟩ := unmarshalField_framed.then found rfl
      exact ⟨k ++ m, rfl, fun tail => by rw [unmarshalFields, field]; exact fields tail⟩
    · cases (Prod.mk.inj decoded).2

theorem unmarshalMsg_framed : DecodesFramed unmarshalMsg := by
  intro z b z' rest decoded
  unfold unmarshalMsg at decoded
  split at decoded
  · cases (Prod.mk.inj decoded).2
  · next count mid found =>
    obtain ⟨m, rfl, fields⟩ := unmarshalFields_framed count z mid z' rest decoded
    obtain ⟨k, rfl, header⟩ := readMapHeaderBytes_framed.then found rfl
    exact ⟨k ++ m, rfl, fun tail => by rw [unmarshalMsg, header]; exact fields tail⟩

end FieldDefinition

namespace FieldDefinitions

theorem unmarshalElements_framed (n i : Nat) : DecodesFramed (unmarshalElements n i) := by
  induction n generalizing i with
  | zero => exact decodesFramed_done
  | succ n ih =>
    intro z b z' rest decoded
    rw [unmarshalElements] at decoded
    split at decoded
    · next fd mid found =>
      obtain ⟨m, rfl, elements⟩ := ih (i + 1) _ mid z' rest decoded
      obtain ⟨k, rfl, element⟩ := FieldDefinition.unmarshalMsg_framed.then found rfl
      exact ⟨k ++ m, rfl, fun tail => by rw [unmarshalElements, element]; exact elements tail⟩
    · cases (Prod.mk.inj decoded).2

theorem unmarshalMsg_framed : DecodesFramed unmarshalMsg := by
  intro z b z' rest decoded
  unfold unmarshalMsg at decoded
  split at decoded
  · cases (Prod.mk.inj decoded).2
  · next n mid found =>
    obtain ⟨m, rfl, elements⟩ := unmarshalElements_framed n 0 _ mid z' rest decoded
    obtain ⟨k, rfl, header⟩ := readArrayHeaderBytes_framed.then found rfl
    exact ⟨k ++ m, rfl, fun tail => by rw [unmarshalMsg, header]; exact elements tail⟩

/-- `FieldDefinitions.UnmarshalMsg` reads nothing past the object it decodes: whenever it
succeeds on `v` before `rest`, leaving `rest`, it decodes `v` before any other bytes to the same
slice and leaves those bytes. Encodings laid end to end in one buffer decode one after another. -/
theorem unmarshalMsg_reads_no_further (z : FieldDefinitions) {v rest : Bytes} {z' : FieldDefinitions}
    (decoded : z.unmarshalMsg (v ++ rest) = (z', .ok rest)) (tail : Bytes) :
    z.unmarshalMsg (v ++ tail) = (z', .ok tail) := by
  obtain ⟨h, split, again⟩ := unmarshalMsg_framed z _ z' rest decoded
  rw [List.append_cancel_right split]
  exact again tail

theorem unmarshalMsg_reads_no_further_of_name :
    ∃ z', FieldDefinitions.unmarshalMsg ⟨[], 0, le_refl 0⟩
        ([0x91, 0x81, 0xa4, 0x6e, 0x61, 0x6d, 0x65, 0xa1, 0x78] ++ [0x07]) = (z', .ok [0x07]) ∧
      FieldDefinitions.unmarshalMsg ⟨[], 0, le_refl 0⟩
        ([0x91, 0x81, 0xa4, 0x6e, 0x61, 0x6d, 0x65, 0xa1, 0x78] ++ [0xc0, 0x01]) = (z', .ok [0xc0, 0x01]) :=
  ⟨_, rfl, unmarshalMsg_reads_no_further _ rfl _⟩

end FieldDefinitions

end Timeseries
