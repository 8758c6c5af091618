import Trickster.Timeseries.RoundTrip

namespace Timeseries

open Msgp FieldDefinition

namespace FieldDefinitions

theorem elements_getD (z : FieldDefinitions) {i : Nat} (inside : i < z.len) :
    z.elements.getD i default = z.backing.getD i default := by
  simp only [elements, List.getD_eq_getElem?_getD, List.getElem?_take_of_lt inside]

theorem resize_getD (z : FieldDefinitions) (n i : Nat) :
    (z.resize n).backing.getD i default = if n ≤ z.backing.length then z.backing.getD i default else default := by
  unfold resize
  split_ifs <;> simp only [List.getD_eq_getElem?_getD, List.getElem?_getD_replicate_default_eq]

theorem unmarshalElements_getD_below {n i : Nat} {z z' : FieldDefinitions} {bts : Bytes}
    {r : Except MsgpError Bytes} (decoded : unmarshalElements n i z bts = (z', r)) {p : Nat} (below : p < i) :
    z'.backing.getD p default = z.backing.getD p default := by
  induction n generalizing i z bts with
  | zero => cases (Prod.mk.inj decoded).1; rfl
  | succ n ih =>
    rw [unmarshalElements] at decoded
    have other : i ≠ p := by omega
    split at decoded
    · rw [ih decoded (by omega), set_backing]
      simp only [List.getD_eq_getElem?_getD, List.getElem?_set_ne other]
    · rw [← (Prod.mk.inj decoded).1, set_backing]
      simp only [List.getD_eq_getElem?_getD, List.getElem?_set_ne other]

theorem unmarshalElements_merges (maps : List EncodedMap) (formed : ∀ m ∈ maps, m.WellFormed) (rest : Bytes)
    (i : Nat) (z : FieldDefinitions) (room : i + maps.length ≤ z.backing.length) {z' : FieldDefinitions}
    {rest' : Bytes} (decoded : unmarshalElements maps.length i z (maps.flatMap EncodedMap.bytes ++ rest) = (z', .ok rest')) :
    rest' = rest ∧ z'.len = z.len ∧ ∀ j (below : j < maps.length) k, (∀ e ∈ maps[j].entries, e.field ≠ some k) →
      SameAt k (z'.backing.getD (i + j) default) (z.backing.getD (i + j) default) := by
  induction maps generalizing i z with
  | nil =>
    obtain ⟨rfl, same⟩ := Prod.mk.inj decoded
    cases same
    exact ⟨rfl, rfl, fun j below => absurd below (Nat.not_lt_zero j)⟩
  | cons m maps ih =>
    simp only [List.length_cons] at room
    rw [List.flatMap_cons, List.append_assoc, List.length_cons, unmarshalElements] at decoded
    split at decoded
    · next fd mid found =>
      obtain ⟨rfl, kept⟩ := unmarshalMsg_merges _ m (formed m (.head _)) _ found
      have room' : i + 1 + maps.length ≤ (z.set i fd).backing.length := by
        rw [set_backing, List.length_set]; omega
      obtain ⟨rfl, len, later⟩ := ih (fun m mem => formed m (.tail _ mem)) (i + 1) _ room' decoded
      refine ⟨rfl, len, fun j below k unnamed => ?_⟩
      cases j with
      | zero =>
        rw [Nat.add_zero, unmarshalElements_getD_below decoded (Nat.lt_succ_self i), set_backing,
          List.getD_eq_getElem?_getD, List.getElem?_set_self (by omega), Option.getD_some]
        exact kept k unnamed
      | succ j =>
        have cell := later j (by simpa using below) k unnamed
        rw [set_backing, List.getD_eq_getElem?_getD (z.backing.set i fd), List.getElem?_set_ne (by omega),
          ← List.getD_eq_getElem?_getD] at cell
        rwa [show i + (j + 1) = i + 1 + j by omega]
    · cases (Prod.mk.inj decoded).2

/-- `FieldDefinitions.UnmarshalMsg` reuses the receiver's backing array, past the slice's length
too: when the array has room for the elements the header announces, element `i` is decoded into
its cell at index `i`, and otherwise into a zero `FieldDefinition`. A decode of well-formed maps
that succeeds leaves the bytes after them, and every field the `i`th map does not name keeps that
cell's value, so a receiver of length 0 can hand back what an earlier use left in its array. -/
theorem unmarshalMsg_reuses_backing (z : FieldDefinitions) (h : Bytes) (maps : List EncodedMap) (rest : Bytes)
    (header : ∀ tail, readArrayHeaderBytes (h ++ tail) = .ok (maps.length, tail))
    (formed : ∀ m ∈ maps, m.WellFormed) {z' : FieldDefinitions} {rest' : Bytes}
    (decoded : z.unmarshalMsg (h ++ maps.flatMap EncodedMap.bytes ++ rest) = (z', .ok rest')) :
    rest' = rest ∧ z'.len = maps.length ∧ ∀ i (below : i < maps.length) k, (∀ e ∈ maps[i].entries, e.field ≠ some k) →
      SameAt k (z'.elements.getD i default)
        (if maps.length ≤ z.backing.length then z.backing.getD i default else default) := by
  rw [List.append_assoc, unmarshalMsg, header] at decoded
  obtain ⟨rfl, len, kept⟩ :=
    unmarshalElements_merges maps formed rest 0 (z.resize maps.length) (by simpa using resize_room z _) decoded
  rw [resize_len] at len
  refine ⟨rfl, len, fun i below k unnamed => ?_⟩
  have cell := kept i below k unnamed
  rwa [Nat.zero_add, resize_getD, ← elements_getD z' (len ▸ below)] at cell

theorem unmarshalMsg_reuses_backing_past_len :
    let z : FieldDefinitions := ⟨[{ (default : FieldDefinition) with name := [0x61] }], 0, Nat.zero_le _⟩
    let empty : EncodedMap := ⟨[0x80], []⟩
    (∀ tail, readArrayHeaderBytes ([0x91] ++ tail) = .ok ([empty].length, tail)) ∧ (∀ m ∈ [empty], m.WellFormed) ∧
      z.unmarshalMsg ([0x91] ++ [empty].flatMap EncodedMap.bytes ++ []) = (⟨z.backing, 1, le_refl 1⟩, .ok []) ∧
      ([] : Bytes) = [] ∧ (⟨z.backing, 1, le_refl 1⟩ : FieldDefinitions).len = [empty].length ∧
      ∀ i (below : i < [empty].length) k, (∀ e ∈ [empty][i].entries, e.field ≠ some k) →
        SameAt k ((⟨z.backing, 1, le_refl 1⟩ : FieldDefinitions).elements.getD i default)
          (if [empty].length ≤ z.backing.length then z.backing.getD i default else default) :=
  have header : ∀ tail, readArrayHeaderBytes ([0x91] ++ tail) = .ok (1, tail) := fun _ => rfl
  have formed : ∀ m ∈ [(⟨[0x80], []⟩ : EncodedMap)], m.WellFormed :=
    List.forall_mem_singleton.mpr ⟨fun _ => rfl, nofun⟩
  have decoded : (⟨[{ (default : FieldDefinition) with name := [0x61] }], 0, Nat.zero_le _⟩ : FieldDefinitions).unmarshalMsg
      ([0x91] ++ [(⟨[0x80], []⟩ : EncodedMap)].flatMap EncodedMap.bytes ++ []) =
        (⟨[{ (default : FieldDefinition) with name := [0x61] }], 1, le_refl 1⟩, .ok []) := rfl
  ⟨header, formed, decoded, unmarshalMsg_reuses_backing _ [0x91] [⟨[0x80], []⟩] [] header formed decoded⟩

end FieldDefinitions

end Timeseries
