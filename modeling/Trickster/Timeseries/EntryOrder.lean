import Trickster.Msgp.Locality
import Trickster.Timeseries.FieldDefinition

namespace Msgp

/-- One entry of an encoded map: the bytes of its key object and of its value object. -/
structure MapEntry where
  key : Bytes
  value : Bytes
  deriving DecidableEq, Repr

namespace MapEntry

def bytes (e : MapEntry) : Bytes := e.key ++ e.value

def WellFormed (e : MapEntry) : Prop := Objects 1 e.key ∧ Objects 1 e.value

def field (e : MapEntry) : Option Bytes :=
  match readMapKeyZC e.key with
  | .ok (key, _) => some key
  | .error _ => none

theorem field_of_read {e : MapEntry} {key : Bytes}
    (read : ∀ tail, readMapKeyZC (e.key ++ tail) = .ok (key, tail)) : e.field = some key := by
  have whole := read []
  rw [List.append_nil] at whole
  simp only [field, whole]

theorem field_of_failed {e : MapEntry} {err : MsgpError}
    (failed : ∀ tail, readMapKeyZC (e.key ++ tail) = .error err) : e.field = none := by
  have whole := failed []
  rw [List.append_nil] at whole
  simp only [field, whole]

end MapEntry

/-- `h` is a map header announcing `n` entries, whatever follows it. -/
def IsMapHeader (h : Bytes) (n : Nat) : Prop :=
  ∀ rest, readMapHeaderBytes (h ++ rest) = .ok (n, rest)

/-- One encoded map: its header and its entries. -/
structure EncodedMap where
  header : Bytes
  entries : List MapEntry
  deriving DecidableEq, Repr

namespace EncodedMap

def bytes (m : EncodedMap) : Bytes := m.header ++ m.entries.flatMap MapEntry.bytes

def WellFormed (m : EncodedMap) : Prop := IsMapHeader m.header m.entries.length ∧ ∀ e ∈ m.entries, e.WellFormed

end EncodedMap

end Msgp

namespace Timeseries

open Msgp

namespace FieldDefinition

def fieldNames : List Bytes :=
  [ascii "name", ascii "type", ascii "pos", ascii "stype", ascii "provider1"]

inductive Patch
  | name (v : Bytes)
  | dataType (v : FieldDataType)
  | outputPosition (v : BitVec 64)
  | sDataType (v : Bytes)
  | providerData1 (v : BitVec 64)
  | keep
  deriving DecidableEq, Repr

namespace Patch

def apply : Patch → FieldDefinition → FieldDefinition
  | name v, z => { z with name := v }
  | dataType v, z => { z with dataType := v }
  | outputPosition v, z => { z with outputPosition := v }
  | sDataType v, z => { z with sDataType := v }
  | providerData1 v, z => { z with providerData1 := v }
  | keep, z => z

def field : Patch → Option Bytes
  | name _ => some (ascii "name")
  | dataType _ => some (ascii "type")
  | outputPosition _ => some (ascii "pos")
  | sDataType _ => some (ascii "stype")
  | providerData1 _ => some (ascii "provider1")
  | keep => none

theorem field_mem {p : Patch} {k : Bytes} (named : p.field = some k) : k ∈ fieldNames := by
  cases p <;> cases named <;> decide

theorem apply_comm (p q : Patch) (z : FieldDefinition)
    (apart : ∀ k, p.field = some k → q.field ≠ some k) : p.apply (q.apply z) = q.apply (p.apply z) := by
  cases p <;> cases q <;> first | rfl | exact absurd rfl (apart _ rfl)

end Patch

def Decodes (run : FieldDefinition → Bytes → FieldDefinition × Except MsgpError Bytes) :
    Option Patch → Prop
  | none => ∀ z tail, ∃ err, (run z tail).2 = .error err
  | some p => ∀ z tail, run z tail = (p.apply z, .ok tail)

/-- `run` decodes an entry under `key` with one outcome: a patch it applies sets the field `key`
names, and under a key outside the switch it keeps the receiver. -/
def DecodesAs (key : Option Bytes)
    (run : FieldDefinition → Bytes → FieldDefinition × Except MsgpError Bytes) : Prop :=
  ∃ p, Decodes run p ∧ (∀ q, p = some q → ∀ k, q.field = some k → key = some k) ∧
    ∀ k, key = some k → k ∉ fieldNames → p = some .keep

section Cases

variable {key : Bytes} {value : Bytes}

theorem decodeInto_decodesAs {α : Type} {read : Bytes → Except MsgpError (α × Bytes)}
    (settled : Settled fun tail => read (value ++ tail)) {set : FieldDefinition → α → FieldDefinition}
    {reset : FieldDefinition → FieldDefinition} {context : String} (patch : α → Patch)
    (sets : ∀ z v, set z v = (patch v).apply z) (named : ∀ v, (patch v).field = some key)
    (known : key ∈ fieldNames) :
    DecodesAs (some key) fun z tail => decodeInto read set reset context z (value ++ tail) := by
  rcases settled with ⟨err, failed⟩ | ⟨v, read⟩
  · exact ⟨none, fun z tail => ⟨wrapError err [context], by simp only [decodeInto, failed]⟩, nofun,
      fun _ same unknown => absurd (Option.some.inj same ▸ known) unknown⟩
  · refine ⟨some (patch v), fun z tail => by simp only [decodeInto, read, sets], ?_,
      fun _ same unknown => absurd (Option.some.inj same ▸ known) unknown⟩
    rintro q ⟨⟩ k field
    exact (named v).symm.trans field

theorem decodesAs_ite {k : Option Bytes} {c : Prop} [Decidable c]
    {yes no : FieldDefinition → Bytes → FieldDefinition × Except MsgpError Bytes}
    (decodesYes : c → DecodesAs k yes) (decodesNo : ¬c → DecodesAs k no) :
    DecodesAs k fun z tail => if c then yes z tail else no z tail := by
  by_cases h : c
  · simpa only [h, if_true] using decodesYes h
  · simpa only [h, if_false] using decodesNo h

theorem skip_decodesAs (wellFormed : Objects 1 value) :
    DecodesAs (some key) fun z tail =>
      match skip (value ++ tail) with
      | .ok bts => (z, .ok bts)
      | .error err => (z, .error (wrapError err [])) := by
  refine ⟨some .keep, fun z tail => ?_, fun _ same _ named => ?_, fun _ _ _ => rfl⟩
  · simp only [skip_object wellFormed tail]; rfl
  · cases same; cases named

theorem unmarshalValue_decodesAs (key : Bytes) (wellFormed : Objects 1 value) :
    DecodesAs (some key) fun z tail => z.unmarshalValue key (value ++ tail) := by
  unfold unmarshalValue
  refine decodesAs_ite (fun name => ?_) fun _ => decodesAs_ite (fun type => ?_) fun _ =>
    decodesAs_ite (fun pos => ?_) fun _ => decodesAs_ite (fun stype => ?_) fun _ =>
    decodesAs_ite (fun provider1 => ?_) fun _ => skip_decodesAs wellFormed
  · subst name
    exact decodeInto_decodesAs (readStringZC_readsWithin value wellFormed) .name
      (fun _ _ => rfl) (fun _ => rfl) (by decide)
  · subst type
    exact decodeInto_decodesAs (readByteBytes_readsWithin value wellFormed) .dataType
      (fun _ _ => rfl) (fun _ => rfl) (by decide)
  · subst pos
    exact decodeInto_decodesAs (readInt64Bytes_readsWithin value wellFormed) .outputPosition
      (fun _ _ => rfl) (fun _ => rfl) (by decide)
  · subst stype
    exact decodeInto_decodesAs (readStringZC_readsWithin value wellFormed) .sDataType
      (fun _ _ => rfl) (fun _ => rfl) (by decide)
  · subst provider1
    exact decodeInto_decodesAs (readInt64Bytes_readsWithin value wellFormed) .providerData1
      (fun _ _ => rfl) (fun _ => rfl) (by decide)

end Cases

theorem unmarshalField_decodesAs {e : MapEntry} (wellFormed : e.WellFormed) :
    DecodesAs e.field fun z tail => z.unmarshalField (e.bytes ++ tail) := by
  rcases readMapKeyZC_readsWithin e.key wellFormed.1 with ⟨err, failed⟩ | ⟨key, read⟩
  · dsimp only at failed
    have unread := MapEntry.field_of_failed failed
    refine ⟨none, fun z tail => ⟨wrapError err [], ?_⟩, nofun, fun _ same => nomatch unread ▸ same⟩
    simp only [unmarshalField, MapEntry.bytes, List.append_assoc, failed]
  · dsimp only at read
    have named := MapEntry.field_of_read read
    simpa only [unmarshalField, MapEntry.bytes, List.append_assoc, read, named] using
      unmarshalValue_decodesAs key wellFormed.2

theorem unmarshalFields_flatMap {l : List MapEntry} {patch : MapEntry → Patch}
    (decodes : ∀ e ∈ l, Decodes (fun z tail => z.unmarshalField (e.bytes ++ tail)) (some (patch e)))
    (z : FieldDefinition) (tail : Bytes) :
    unmarshalFields l.length z (l.flatMap MapEntry.bytes ++ tail) =
      (l.foldl (fun z e => (patch e).apply z) z, .ok tail) := by
  induction l generalizing z with
  | nil => rfl
  | cons e l ih =>
    have step := decodes e (.head l) z
    dsimp only at step
    rw [List.flatMap_cons, List.append_assoc, List.length_cons, unmarshalFields, step]
    exact ih (fun e mem => decodes e (.tail _ mem)) _

theorem unmarshalFields_flatMap_error {l : List MapEntry} {outcome : MapEntry → Option Patch}
    (decodes : ∀ e ∈ l, Decodes (fun z tail => z.unmarshalField (e.bytes ++ tail)) (outcome e))
    (failing : ∃ e ∈ l, outcome e = none) (z : FieldDefinition) (tail : Bytes) :
    ∃ err, (unmarshalFields l.length z (l.flatMap MapEntry.bytes ++ tail)).2 = .error err := by
  induction l generalizing z with
  | nil => obtain ⟨_, ⟨⟩, _⟩ := failing
  | cons e l ih =>
    rw [List.flatMap_cons, List.append_assoc, List.length_cons, unmarshalFields]
    have step := decodes e (.head l)
    cases found : outcome e with
    | none =>
      rw [found] at step
      obtain ⟨err, failed⟩ := step z (l.flatMap MapEntry.bytes ++ tail)
      dsimp only at failed
      rw [← @Prod.mk.eta _ _ (z.unmarshalField _), failed]
      exact ⟨err, rfl⟩
    | some q =>
      rw [found] at step
      have step := step z
      dsimp only at step
      rw [step]
      obtain ⟨e', mem, none'⟩ := failing
      rcases List.mem_cons.mp mem with rfl | later
      · rw [found] at none'; cases none'
      · exact ih (fun e mem => decodes e (.tail _ mem)) ⟨e', later, none'⟩ _

theorem foldl_apply_of_fixed {l : List MapEntry} {patch : MapEntry → Patch}
    (fixes : ∀ e ∈ l, ∀ z, (patch e).apply z = z) (z : FieldDefinition) :
    l.foldl (fun z e => (patch e).apply z) z = z := by
  induction l with
  | nil => rfl
  | cons e l ih => rw [List.foldl_cons, fixes e (.head l), ih fun e mem => fixes e (.tail _ mem)]

theorem unmarshalMsg_header {h : Bytes} {n : Nat} (header : IsMapHeader h n) (z : FieldDefinition)
    (b : Bytes) : z.unmarshalMsg (h ++ b) = unmarshalFields n z b := by
  simp only [unmarshalMsg, header b]

theorem patches_apart {entries : List MapEntry} {patch : MapEntry → Patch}
    (once : entries.Pairwise fun e e' => ∀ k ∈ fieldNames, e.field = some k → e'.field ≠ some k)
    (named : ∀ e ∈ entries, ∀ k, (patch e).field = some k → e.field = some k) :
    ∀ x ∈ entries, ∀ y ∈ entries, x ≠ y → ∀ k, (patch x).field = some k → (patch y).field ≠ some k := by
  intro x old y old' different k field field'
  have symmetric : Symmetric fun e e' : MapEntry =>
      ∀ k ∈ fieldNames, e.field = some k → e'.field ≠ some k :=
    fun e e' distinct k mem field' field => distinct k mem field field'
  exact once.forall symmetric old old' different k (Patch.field_mem field) (named x old k field)
    (named y old' k field')

theorem foldl_apply_reordered {entries foreign shuffled : List MapEntry} {patch : MapEntry → Patch}
    (reordered : shuffled.Perm (entries ++ foreign))
    (apart : ∀ x ∈ entries, ∀ y ∈ entries, x ≠ y → ∀ k, (patch x).field = some k → (patch y).field ≠ some k)
    (fixes : ∀ e ∈ foreign, ∀ z, (patch e).apply z = z) (z : FieldDefinition) :
    shuffled.foldl (fun z e => (patch e).apply z) z = entries.foldl (fun z e => (patch e).apply z) z := by
  have comm : ∀ x ∈ shuffled, ∀ y ∈ shuffled, ∀ z,
      (patch y).apply ((patch x).apply z) = (patch x).apply ((patch y).apply z) := by
    intro x memX y memY z
    rcases List.mem_append.mp (reordered.subset memX) with oldX | newX
    · rcases List.mem_append.mp (reordered.subset memY) with oldY | newY
      · by_cases same : x = y
        · rw [same]
        · exact (Patch.apply_comm _ _ z (apart x oldX y oldY same)).symm
      · rw [fixes y newY, fixes y newY]
    · rw [fixes x newX, fixes x newX]
  rw [reordered.foldl_eq' comm, List.foldl_append, foldl_apply_of_fixed fixes]

/-- Decoding a map does not depend on the order of its entries, and entries under `str` or `bin`
keys outside the switch, with well-formed values, change nothing. -/
theorem unmarshalMsg_reordered (z : FieldDefinition) (entries foreign shuffled : List MapEntry)
    (h h' rest : Bytes) (wellFormed : ∀ e ∈ entries, e.WellFormed)
    (once : entries.Pairwise fun e e' => ∀ k ∈ fieldNames, e.field = some k → e'.field ≠ some k)
    (inserted : ∀ e ∈ foreign, e.WellFormed ∧ ∃ k, e.field = some k ∧ k ∉ fieldNames)
    (reordered : shuffled.Perm (entries ++ foreign)) (header : IsMapHeader h entries.length)
    (header' : IsMapHeader h' shuffled.length) :
    (∃ err err', (z.unmarshalMsg (h ++ entries.flatMap MapEntry.bytes ++ rest)).2 = .error err ∧
        (z.unmarshalMsg (h' ++ shuffled.flatMap MapEntry.bytes ++ rest)).2 = .error err') ∨
      ∃ fd, z.unmarshalMsg (h ++ entries.flatMap MapEntry.bytes ++ rest) = (fd, .ok rest) ∧
        z.unmarshalMsg (h' ++ shuffled.flatMap MapEntry.bytes ++ rest) = (fd, .ok rest) := by
  rw [List.append_assoc, List.append_assoc, unmarshalMsg_header header, unmarshalMsg_header header']
  have formed : ∀ e ∈ shuffled, e.WellFormed := fun e mem => by
    rcases List.mem_append.mp (reordered.subset mem) with old | new
    exacts [wellFormed e old, (inserted e new).1]
  have kept : ∀ e ∈ entries, e ∈ shuffled := fun e mem =>
    reordered.symm.subset (List.mem_append_left _ mem)
  choose! outcome decodes named skipped using fun (e : MapEntry) (formedE : e.WellFormed) =>
    unmarshalField_decodesAs formedE
  by_cases failing : ∃ e ∈ entries, outcome e = none
  · obtain ⟨e, mem, none'⟩ := failing
    obtain ⟨err, failed⟩ := unmarshalFields_flatMap_error (fun e mem => decodes e (wellFormed e mem))
      ⟨e, mem, none'⟩ z rest
    obtain ⟨err', failed'⟩ := unmarshalFields_flatMap_error (fun e mem => decodes e (formed e mem))
      ⟨e, kept e mem, none'⟩ z rest
    exact .inl ⟨err, err', failed, failed'⟩
  push_neg at failing
  -- every entry decodes to a patch; the inserted ones keep the receiver
  have keeps : ∀ e ∈ foreign, outcome e = some .keep := fun e mem =>
    let ⟨formedE, k, field, unknown⟩ := inserted e mem
    skipped e formedE k field unknown
  let patch e := (outcome e).getD Patch.keep
  have patched : ∀ e ∈ shuffled, outcome e = some (patch e) := fun e mem => by
    rcases List.mem_append.mp (reordered.subset mem) with old | new
    · exact (Option.getD_of_ne_none (failing e old) _).symm
    · simp only [patch, keeps e new, Option.getD_some]
  have decoded : ∀ e ∈ shuffled, Decodes (fun z tail => z.unmarshalField (e.bytes ++ tail))
      (some (patch e)) := fun e mem => patched e mem ▸ decodes e (formed e mem)
  refine .inr ⟨_, unmarshalFields_flatMap (fun e mem => decoded e (kept e mem)) z rest, ?_⟩
  rw [unmarshalFields_flatMap decoded z rest, foldl_apply_reordered reordered
    (patches_apart once fun e mem => named e (wellFormed e mem) _ (patched e (kept e mem)))
    fun e mem z => by simp only [patch, keeps e mem, Option.getD_some]; rfl]

theorem unmarshalMsg_reordered_foreign_first :
    let name : MapEntry := ⟨[0xa4, 0x6e, 0x61, 0x6d, 0x65], [0xa1, 0x61]⟩
    let other : MapEntry := ⟨[0xa1, 0x78], [0xc0]⟩
    (∀ e ∈ [name], e.WellFormed) ∧
      [name].Pairwise (fun e e' => ∀ k ∈ fieldNames, e.field = some k → e'.field ≠ some k) ∧
      (∀ e ∈ [other], e.WellFormed ∧ ∃ k, e.field = some k ∧ k ∉ fieldNames) ∧
      [other, name].Perm ([name] ++ [other]) ∧ IsMapHeader [0x81] [name].length ∧
      IsMapHeader [0x82] [other, name].length ∧
      ((∃ err err', ((default : FieldDefinition).unmarshalMsg
            ([0x81] ++ [name].flatMap MapEntry.bytes ++ [])).2 = .error err ∧
          ((default : FieldDefinition).unmarshalMsg
            ([0x82] ++ [other, name].flatMap MapEntry.bytes ++ [])).2 = .error err') ∨
        ∃ fd, (default : FieldDefinition).unmarshalMsg
            ([0x81] ++ [name].flatMap MapEntry.bytes ++ []) = (fd, .ok []) ∧
          (default : FieldDefinition).unmarshalMsg
            ([0x82] ++ [other, name].flatMap MapEntry.bytes ++ []) = (fd, .ok [])) :=
  have formed := List.forall_mem_singleton.mpr ⟨objects_single (by decide), objects_single (by decide)⟩
  have inserted := List.forall_mem_singleton.mpr
    ⟨⟨objects_single (by decide), objects_single (by decide)⟩, [0x78], rfl, by decide⟩
  ⟨formed, List.pairwise_singleton _ _, inserted, List.Perm.swap _ _ _, fun _ => rfl, fun _ => rfl,
    unmarshalMsg_reordered default _ _ _ _ _ [] formed (List.pairwise_singleton _ _) inserted
      (List.Perm.swap _ _ _) (fun _ => rfl) fun _ => rfl⟩

/-- An entry under an integer key, inserted into an empty map, makes the decode fail where the
empty map decodes: `ReadMapKeyZC` reads only `str` and `bin` keys. -/
theorem unmarshalMsg_rejects_inserted_int_key :
    let inserted : MapEntry := ⟨[0x01], [0xc0]⟩
    IsMapHeader [0x80] 0 ∧ IsMapHeader [0x81] 1 ∧ inserted.WellFormed ∧ inserted.field = none ∧
      (default : FieldDefinition).unmarshalMsg
        ([0x80] ++ ([] : List MapEntry).flatMap MapEntry.bytes ++ []) = (default, .ok []) ∧
      ∃ err, ((default : FieldDefinition).unmarshalMsg
        ([0x81] ++ [inserted].flatMap MapEntry.bytes ++ [])).2 = .error err :=
  ⟨fun _ => rfl, fun _ => rfl, ⟨objects_single (by decide), objects_single (by decide)⟩, rfl, rfl,
    _, rfl⟩

/-- `fd` holds `z`'s value in the field the key `k` names; under a key outside the switch any two
definitions agree. -/
def SameAt (k : Bytes) (fd z : FieldDefinition) : Prop :=
  (k = ascii "name" → fd.name = z.name) ∧ (k = ascii "type" → fd.dataType = z.dataType) ∧
    (k = ascii "pos" → fd.outputPosition = z.outputPosition) ∧
    (k = ascii "stype" → fd.sDataType = z.sDataType) ∧
    (k = ascii "provider1" → fd.providerData1 = z.providerData1)

theorem SameAt.refl (k : Bytes) (z : FieldDefinition) : SameAt k z z :=
  ⟨fun _ => rfl, fun _ => rfl, fun _ => rfl, fun _ => rfl, fun _ => rfl⟩

theorem SameAt.trans {k : Bytes} {a b c : FieldDefinition} (first : SameAt k a b) (second : SameAt k b c) :
    SameAt k a c :=
  ⟨fun h => (first.1 h).trans (second.1 h), fun h => (first.2.1 h).trans (second.2.1 h),
    fun h => (first.2.2.1 h).trans (second.2.2.1 h), fun h => (first.2.2.2.1 h).trans (second.2.2.2.1 h),
    fun h => (first.2.2.2.2 h).trans (second.2.2.2.2 h)⟩

theorem Patch.apply_sameAt (p : Patch) (z : FieldDefinition) {k : Bytes} (other : p.field ≠ some k) :
    SameAt k (p.apply z) z := by
  cases p <;> refine ⟨fun h => ?_, fun h => ?_, fun h => ?_, fun h => ?_, fun h => ?_⟩ <;>
    first | rfl | exact absurd (h ▸ rfl) other

theorem foldl_apply_sameAt {l : List MapEntry} {patch : MapEntry → Patch} {k : Bytes}
    (apart : ∀ e ∈ l, (patch e).field ≠ some k) (z : FieldDefinition) :
    SameAt k (l.foldl (fun z e => (patch e).apply z) z) z := by
  induction l generalizing z with
  | nil => exact SameAt.refl k z
  | cons e l ih =>
    exact (ih (fun e mem => apart e (.tail _ mem)) _).trans ((patch e).apply_sameAt z (apart e (.head l)))

theorem unmarshalFields_patches {entries : List MapEntry} (wellFormed : ∀ e ∈ entries, e.WellFormed)
    (z : FieldDefinition) (rest : Bytes) :
    (∃ err, (unmarshalFields entries.length z (entries.flatMap MapEntry.bytes ++ rest)).2 = .error err) ∨
      ∃ patch : MapEntry → Patch, (∀ e ∈ entries, ∀ k, (patch e).field = some k → e.field = some k) ∧
        unmarshalFields entries.length z (entries.flatMap MapEntry.bytes ++ rest) =
          (entries.foldl (fun z e => (patch e).apply z) z, .ok rest) := by
  choose! outcome decodes named _ using fun (e : MapEntry) (formedE : e.WellFormed) =>
    unmarshalField_decodesAs formedE
  by_cases failing : ∃ e ∈ entries, outcome e = none
  · exact .inl (unmarshalFields_flatMap_error (fun e mem => decodes e (wellFormed e mem)) failing z rest)
  push_neg at failing
  have patched : ∀ e ∈ entries, outcome e = some ((outcome e).getD .keep) := fun e mem =>
    (Option.getD_of_ne_none (failing e mem) _).symm
  exact .inr ⟨fun e => (outcome e).getD .keep, fun e mem => named e (wellFormed e mem) _ (patched e mem),
    unmarshalFields_flatMap (fun e mem => patched e mem ▸ decodes e (wellFormed e mem)) z rest⟩

theorem unmarshalMsg_merges (z : FieldDefinition) (m : EncodedMap) (formed : m.WellFormed) (rest : Bytes)
    {fd : FieldDefinition} {rest' : Bytes} (decoded : z.unmarshalMsg (m.bytes ++ rest) = (fd, .ok rest')) :
    rest' = rest ∧ ∀ k, (∀ e ∈ m.entries, e.field ≠ some k) → SameAt k fd z := by
  rw [EncodedMap.bytes, List.append_assoc, unmarshalMsg_header formed.1] at decoded
  rcases unmarshalFields_patches formed.2 z rest with ⟨err, failed⟩ | ⟨patch, named, applied⟩
  · rw [decoded] at failed
    cases failed
  rw [applied, Prod.mk.injEq, Except.ok.injEq] at decoded
  obtain ⟨rfl, rfl⟩ := decoded
  exact ⟨rfl, fun k unnamed => foldl_apply_sameAt (fun e mem field => unnamed e mem (named e mem k field)) z⟩

/-- `UnmarshalMsg` merges a map into the receiver: a decode of well-formed entries that succeeds
leaves exactly the bytes after them, and every field whose key no entry carries keeps the
receiver's value. -/
theorem unmarshalMsg_keeps_unnamed_fields (z : FieldDefinition) (entries : List MapEntry) (h rest : Bytes)
    (header : IsMapHeader h entries.length) (wellFormed : ∀ e ∈ entries, e.WellFormed)
    {fd : FieldDefinition} {rest' : Bytes}
    (decoded : z.unmarshalMsg (h ++ entries.flatMap MapEntry.bytes ++ rest) = (fd, .ok rest')) :
    rest' = rest ∧ ∀ k, (∀ e ∈ entries, e.field ≠ some k) → SameAt k fd z :=
  unmarshalMsg_merges z ⟨h, entries⟩ ⟨header, wellFormed⟩ rest decoded

theorem unmarshalMsg_keeps_unnamed_fields_of_pos :
    let pos : MapEntry := ⟨[0xa3, 0x70, 0x6f, 0x73], [0x05]⟩
    let z : FieldDefinition := { (default : FieldDefinition) with name := [0x61] }
    IsMapHeader [0x81] [pos].length ∧ (∀ e ∈ [pos], e.WellFormed) ∧
      z.unmarshalMsg ([0x81] ++ [pos].flatMap MapEntry.bytes ++ []) = ({ z with outputPosition := 5 }, .ok []) ∧
      ([] : Bytes) = [] ∧ ∀ k, (∀ e ∈ [pos], e.field ≠ some k) → SameAt k { z with outputPosition := 5 } z :=
  have formed := List.forall_mem_singleton.mpr ⟨objects_single (by decide), objects_single (by decide)⟩
  have decoded : ({ (default : FieldDefinition) with name := [0x61] } : FieldDefinition).unmarshalMsg
      ([0x81] ++ [(⟨[0xa3, 0x70, 0x6f, 0x73], [0x05]⟩ : MapEntry)].flatMap MapEntry.bytes ++ []) =
        ({ (default : FieldDefinition) with name := [0x61], outputPosition := 5 }, .ok []) := rfl
  have header : IsMapHeader [0x81] 1 := fun _ => rfl
  ⟨header, formed, decoded, unmarshalMsg_keeps_unnamed_fields _ [⟨[0xa3, 0x70, 0x6f, 0x73], [0x05]⟩] _ []
    header formed decoded⟩

end FieldDefinition

end Timeseries
