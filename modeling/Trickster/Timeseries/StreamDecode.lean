import Trickster.Timeseries.EntryOrder

namespace Msgp

namespace Reader

def Agrees {α : Type} (r : Except MsgpError (α × Bytes)) (r' : Except MsgpError (α × Reader)) :
    Prop :=
  (∃ err err', r = .error err ∧ r' = .error err') ∨ ∃ a rest, r = .ok (a, rest) ∧ r' = .ok (a, ⟨rest⟩)

theorem agrees_lift {α : Type} (read : Bytes → Except MsgpError (α × Bytes)) (b : Bytes) :
    Agrees (read b) (lift read ⟨b⟩) := by
  unfold lift
  split
  · next a rest found => exact .inr ⟨a, rest, found, rfl⟩
  · next found => exact .inl ⟨_, _, found, rfl⟩
  · next err _ found => exact .inl ⟨err, err, found, rfl⟩

theorem skip_agrees (b : Bytes) :
    (∃ err err', Msgp.skip b = .error err ∧ skip ⟨b⟩ = .error err') ∨
      ∃ rest, Msgp.skip b = .ok rest ∧ skip ⟨b⟩ = .ok ⟨rest⟩ := by
  unfold skip
  split
  · next rest found => exact .inr ⟨rest, found, rfl⟩
  · next found => exact .inl ⟨_, _, found, rfl⟩
  · next err _ found => exact .inl ⟨err, err, found, rfl⟩

theorem getType_eq_bin : ∀ lead : BitVec 8, getType lead = .bin →
    lead = 0xc4 ∨ lead = 0xc5 ∨ lead = 0xc6 := by
  decide

theorem readBody_error {read : Nat} {body : Bytes} {err : MsgpError}
    (failed : readBody read body = .error err) : err = .shortBytes := by
  unfold readBody at failed
  split_ifs at failed
  cases failed; rfl

theorem readPrefixed_readBody_error {width : Nat} {rest : Bytes} {err : MsgpError}
    (failed : (readPrefixed width rest >>= fun (read, body) => readBody read body) = .error err) :
    err = .shortBytes := by
  unfold readPrefixed at failed
  split_ifs at failed
  · cases failed; rfl
  · exact readBody_error failed

theorem readMapKeyZC_of_str {b : Bytes} (noBin : ∀ t c, readStringZC b ≠ .error (.typeError t .bin c)) :
    readMapKeyZC b = readStringZC b := by
  unfold readMapKeyZC
  split
  · next t c found => exact absurd found (noBin t c)
  · rfl

theorem readMapKeyZC_eq_header {lead : BitVec 8} {rest : Bytes} {hd : Except MsgpError (Nat × Bytes)}
    (header : hd =
      if isfixstr lead then .ok (rfixstr lead, rest)
      else if lead = 0xd9 ∨ lead = 0xc4 then readPrefixed 1 rest
      else if lead = 0xda ∨ lead = 0xc5 then readPrefixed 2 rest
      else if lead = 0xdb ∨ lead = 0xc6 then readPrefixed 4 rest
      else .error (badPrefix .str lead)) :
    readMapKeyZC (lead :: rest) = (hd >>= fun (read, body) => readBody read body) ∨
      (∃ err, hd = .error err) ∧ ∃ err, readMapKeyZC (lead :: rest) = .error err := by
  have sized : ∀ width, (hd = readPrefixed width rest) →
      readStringZC (lead :: rest) = (readPrefixed width rest >>= fun (read, body) => readBody read body) →
      readMapKeyZC (lead :: rest) = (hd >>= fun (read, body) => readBody read body) := by
    intro width header string
    rw [header, readMapKeyZC_of_str fun _ _ found => by
      cases readPrefixed_readBody_error (string.symm.trans found)]
    exact string
  by_cases fix : isfixstr lead
  · left
    rw [header, if_pos fix, readMapKeyZC_of_str fun _ _ found => by
      simp only [readStringZC.eq_2, fix, if_true] at found; cases readBody_error found]
    simp only [readStringZC.eq_2, fix, if_true]; rfl
  by_cases str8 : lead = 0xd9
  · subst str8; exact .inl (sized 1 header rfl)
  by_cases str16 : lead = 0xda
  · subst str16; exact .inl (sized 2 header rfl)
  by_cases str32 : lead = 0xdb
  · subst str32; exact .inl (sized 4 header rfl)
  by_cases bin8 : lead = 0xc4
  · subst bin8; exact .inl (by rw [show hd = readPrefixed 1 rest from header]; rfl)
  by_cases bin16 : lead = 0xc5
  · subst bin16; exact .inl (by rw [show hd = readPrefixed 2 rest from header]; rfl)
  by_cases bin32 : lead = 0xc6
  · subst bin32; exact .inl (by rw [show hd = readPrefixed 4 rest from header]; rfl)
  -- any other lead is refused by both readers
  have string : readStringZC (lead :: rest) = .error (.typeError .str (getType lead) "") := by
    simp only [readStringZC.eq_2, fix, str8, str16, str32, Bool.false_eq_true, ↓reduceIte]
  refine .inr ⟨⟨badPrefix .str lead, ?_⟩, .typeError .str (getType lead) "", ?_⟩
  · simp only [header, fix, str8, str16, str32, bin8, bin16, bin32, or_self, Bool.false_eq_true,
      ↓reduceIte]
  · rw [readMapKeyZC_of_str fun _ _ found => ?_, string]
    rw [string, Except.error.injEq, MsgpError.typeError.injEq] at found
    rcases getType_eq_bin lead found.2.1 with same | same | same <;> contradiction

theorem agrees_readBody (read : Nat) (body : Bytes) (nonempty : ∀ rest, readBody read body ≠ .ok ([], rest)) :
    Agrees (readBody read body) (if read = 0 then .error .shortBytes
      else if body.length < read then .error .eof else .ok (body.take read, ⟨body.drop read⟩)) := by
  unfold readBody at nonempty ⊢
  by_cases empty : read = 0
  · subst empty; exact absurd (by simp) (nonempty body)
  by_cases short : body.length < read
  · exact .inl ⟨.shortBytes, .eof, by simp only [short, if_true],
      by simp only [empty, short, if_true, if_false]⟩
  · exact .inr ⟨body.take read, body.drop read, by simp only [short, if_false],
      by simp only [empty, short, if_false]⟩

theorem readMapKeyPtr_agrees (b : Bytes) (nonempty : ∀ rest, readMapKeyZC b ≠ .ok ([], rest)) :
    Agrees (readMapKeyZC b) (readMapKeyPtr ⟨b⟩) := by
  rcases b with _ | ⟨lead, rest⟩
  · exact .inl ⟨_, _, rfl, rfl⟩
  simp only [readMapKeyPtr]
  split
  · next found =>
    rcases readMapKeyZC_eq_header found.symm with key | ⟨-, err, key⟩
    exacts [.inl ⟨_, _, key, rfl⟩, .inl ⟨_, _, key, rfl⟩]
  · next err _ found =>
    rcases readMapKeyZC_eq_header found.symm with key | ⟨-, err, key⟩
    exacts [.inl ⟨_, _, key, rfl⟩, .inl ⟨_, _, key, rfl⟩]
  · next read body found =>
    rcases readMapKeyZC_eq_header found.symm with key | ⟨⟨_, failed⟩, -⟩
    · rw [key] at nonempty ⊢
      exact agrees_readBody read body nonempty
    · cases failed

end Reader

/-- A map object as the bytes of its header and its entries. -/
structure MapObject where
  header : Bytes
  entries : List MapEntry

namespace MapObject

def bytes (o : MapObject) : Bytes := o.header ++ o.entries.flatMap MapEntry.bytes

def Readable (o : MapObject) : Prop :=
  IsMapHeader o.header o.entries.length ∧ (∀ e ∈ o.entries, e.WellFormed) ∧ ∀ e ∈ o.entries, e.field ≠ some []

end MapObject

/-- `h` is an array header counting `n` objects, whatever follows it. -/
def IsArrayHeader (h : Bytes) (n : Nat) : Prop :=
  ∀ rest, readArrayHeaderBytes (h ++ rest) = .ok (n, rest)

end Msgp

namespace Timeseries

open Msgp

namespace FieldDefinition

def ResultsAgree (r : FieldDefinition × Except MsgpError Bytes)
    (r' : FieldDefinition × Except MsgpError Reader) : Prop :=
  (∃ err err', r.2 = .error err ∧ r'.2 = .error err') ∨
    ∃ z rest, r = (z, .ok rest) ∧ r' = (z, .ok ⟨rest⟩)

theorem decodeInto_agrees {α : Type} {read : Bytes → Except MsgpError (α × Bytes)}
    {read' : Reader → Except MsgpError (α × Reader)} {b : Bytes}
    (agree : Reader.Agrees (read b) (read' ⟨b⟩)) (set : FieldDefinition → α → FieldDefinition)
    (reset : FieldDefinition → FieldDefinition) (context : String) (z : FieldDefinition) :
    ResultsAgree (decodeInto read set reset context z b) (decodeInto read' set reset context z ⟨b⟩) := by
  rcases agree with ⟨err, err', found, found'⟩ | ⟨v, rest, found, found'⟩
  · exact .inl ⟨wrapError err [context], wrapError err' [context], by simp only [decodeInto, found],
      by simp only [decodeInto, found']⟩
  · exact .inr ⟨set z v, rest, by simp only [decodeInto, found], by simp only [decodeInto, found']⟩

theorem resultsAgree_ite {c : Prop} [Decidable c] {r s : FieldDefinition × Except MsgpError Bytes}
    {r' s' : FieldDefinition × Except MsgpError Reader} (yes : c → ResultsAgree r r')
    (no : ¬c → ResultsAgree s s') : ResultsAgree (if c then r else s) (if c then r' else s') := by
  by_cases h : c
  · simpa only [h, if_true] using yes h
  · simpa only [h, if_false] using no h

theorem decodeValue_agrees (z : FieldDefinition) (field b : Bytes) :
    ResultsAgree (z.unmarshalValue field b) (z.decodeValue field ⟨b⟩) := by
  unfold unmarshalValue decodeValue
  refine resultsAgree_ite (fun _ => decodeInto_agrees (Reader.agrees_lift _ b) _ _ _ _) fun _ =>
    resultsAgree_ite (fun _ => decodeInto_agrees (Reader.agrees_lift _ b) _ _ _ _) fun _ =>
    resultsAgree_ite (fun _ => decodeInto_agrees (Reader.agrees_lift _ b) _ _ _ _) fun _ =>
    resultsAgree_ite (fun _ => decodeInto_agrees (Reader.agrees_lift _ b) _ _ _ _) fun _ =>
    resultsAgree_ite (fun _ => decodeInto_agrees (Reader.agrees_lift _ b) _ _ _ _) fun _ => ?_
  rcases Reader.skip_agrees b with ⟨err, err', skipped, skipped'⟩ | ⟨rest, skipped, skipped'⟩
  · simp only [skipped, skipped']
    exact .inl ⟨_, _, rfl, rfl⟩
  · simp only [skipped, skipped']
    exact .inr ⟨z, rest, rfl, rfl⟩

theorem decodeField_agrees (z : FieldDefinition) (b : Bytes)
    (nonempty : ∀ rest, readMapKeyZC b ≠ .ok ([], rest)) :
    ResultsAgree (z.unmarshalField b) (z.decodeField ⟨b⟩) := by
  rcases Reader.readMapKeyPtr_agrees b nonempty with ⟨err, err', found, found'⟩ |
    ⟨key, rest, found, found'⟩
  · exact .inl ⟨wrapError err [], wrapError err' [], by simp only [unmarshalField, found],
      by simp only [decodeField, found']⟩
  · simp only [unmarshalField, decodeField, found, found']
    exact decodeValue_agrees z key rest

theorem readMapKeyZC_ne_empty {e : MapEntry} (wellFormed : e.WellFormed) (nonempty : e.field ≠ some [])
    (tail rest : Bytes) : readMapKeyZC (e.bytes ++ tail) ≠ .ok ([], rest) := by
  intro read
  rw [MapEntry.bytes, List.append_assoc] at read
  rcases readMapKeyZC_readsWithin e.key wellFormed.1 with ⟨err, failed⟩ | ⟨key, found⟩
  · dsimp only at failed
    rw [failed] at read
    cases read
  · dsimp only at found
    rw [found, Except.ok.injEq, Prod.mk.injEq] at read
    exact nonempty (read.1 ▸ MapEntry.field_of_read found)

theorem decodeFields_agrees {l : List MapEntry} (wellFormed : ∀ e ∈ l, e.WellFormed)
    (nonempty : ∀ e ∈ l, e.field ≠ some []) (z : FieldDefinition) (tail : Bytes) :
    (∃ err err', (unmarshalFields l.length z (l.flatMap MapEntry.bytes ++ tail)).2 = .error err ∧
        (decodeFields l.length z ⟨l.flatMap MapEntry.bytes ++ tail⟩).2 = .error err') ∨
      ∃ fd, unmarshalFields l.length z (l.flatMap MapEntry.bytes ++ tail) = (fd, .ok tail) ∧
        decodeFields l.length z ⟨l.flatMap MapEntry.bytes ++ tail⟩ = (fd, .ok ⟨tail⟩) := by
  induction l generalizing z with
  | nil => exact .inr ⟨z, rfl, rfl⟩
  | cons e l ih =>
    have formed := wellFormed e (.head l)
    rw [List.flatMap_cons, List.append_assoc, List.length_cons, unmarshalFields, decodeFields]
    rcases decodeField_agrees z _ (readMapKeyZC_ne_empty formed (nonempty e (.head l)) _) with
      ⟨err, err', failed, failed'⟩ | ⟨z', rest, found, found'⟩
    · rw [← @Prod.mk.eta _ _ (z.unmarshalField _), failed, ← @Prod.mk.eta _ _ (z.decodeField _), failed']
      exact .inl ⟨err, err', rfl, rfl⟩
    · rw [found, found']
      -- the entry is read exactly, so both loops go on after it
      obtain ⟨p, decodes, -, -⟩ := unmarshalField_decodesAs formed
      have after : rest = l.flatMap MapEntry.bytes ++ tail := by
        cases p with
        | none =>
          obtain ⟨err, failed⟩ := decodes z (l.flatMap MapEntry.bytes ++ tail)
          dsimp only at failed
          rw [found] at failed
          cases failed
        | some q =>
          have read := decodes z (l.flatMap MapEntry.bytes ++ tail)
          dsimp only at read
          rw [found, Prod.mk.injEq, Except.ok.injEq] at read
          exact read.2
      subst after
      exact ih (fun e mem => wellFormed e (.tail _ mem)) (fun e mem => nonempty e (.tail _ mem)) z'

theorem decodeMsg_agrees_of_readable (z : FieldDefinition) (o : MapObject) (readable : o.Readable) (rest : Bytes) :
    (∃ err err', (z.unmarshalMsg (o.bytes ++ rest)).2 = .error err ∧
        (z.decodeMsg ⟨o.bytes ++ rest⟩).2 = .error err') ∨
      ∃ fd, z.unmarshalMsg (o.bytes ++ rest) = (fd, .ok rest) ∧ z.decodeMsg ⟨o.bytes ++ rest⟩ = (fd, .ok ⟨rest⟩) := by
  obtain ⟨header, wellFormed, nonempty⟩ := readable
  have stream : z.decodeMsg ⟨o.header ++ (o.entries.flatMap MapEntry.bytes ++ rest)⟩ =
      decodeFields o.entries.length z ⟨o.entries.flatMap MapEntry.bytes ++ rest⟩ := by
    simp only [decodeMsg, Reader.readMapHeader, Reader.lift_ok (header _)]
  rw [MapObject.bytes, List.append_assoc, unmarshalMsg_header header, stream]
  exact decodeFields_agrees wellFormed nonempty z rest

/-- `DecodeMsg` over a `msgp.Reader` and `UnmarshalMsg` over the same bytes agree on every map of
well-formed entries whose keys are not empty. -/
theorem decodeMsg_agrees_unmarshalMsg (z : FieldDefinition) (entries : List MapEntry) (h rest : Bytes)
    (header : IsMapHeader h entries.length) (wellFormed : ∀ e ∈ entries, e.WellFormed)
    (nonempty : ∀ e ∈ entries, e.field ≠ some []) :
    (∃ err err', (z.unmarshalMsg (h ++ entries.flatMap MapEntry.bytes ++ rest)).2 = .error err ∧
        (z.decodeMsg ⟨h ++ entries.flatMap MapEntry.bytes ++ rest⟩).2 = .error err') ∨
      ∃ fd, z.unmarshalMsg (h ++ entries.flatMap MapEntry.bytes ++ rest) = (fd, .ok rest) ∧
        z.decodeMsg ⟨h ++ entries.flatMap MapEntry.bytes ++ rest⟩ = (fd, .ok ⟨rest⟩) :=
  decodeMsg_agrees_of_readable z ⟨h, entries⟩ ⟨header, wellFormed, nonempty⟩ rest

theorem decodeMsg_agrees_on_name :
    let name : MapEntry := ⟨[0xa4, 0x6e, 0x61, 0x6d, 0x65], [0xa1, 0x61]⟩
    IsMapHeader [0x81] [name].length ∧ (∀ e ∈ [name], e.WellFormed) ∧ (∀ e ∈ [name], e.field ≠ some []) ∧
      ((∃ err err', ((default : FieldDefinition).unmarshalMsg
            ([0x81] ++ [name].flatMap MapEntry.bytes ++ [])).2 = .error err ∧
          ((default : FieldDefinition).decodeMsg
            ⟨[0x81] ++ [name].flatMap MapEntry.bytes ++ []⟩).2 = .error err') ∨
        ∃ fd, (default : FieldDefinition).unmarshalMsg
            ([0x81] ++ [name].flatMap MapEntry.bytes ++ []) = (fd, .ok []) ∧
          (default : FieldDefinition).decodeMsg
            ⟨[0x81] ++ [name].flatMap MapEntry.bytes ++ []⟩ = (fd, .ok ⟨[]⟩)) :=
  have formed := List.forall_mem_singleton.mpr ⟨objects_single (by decide), objects_single (by decide)⟩
  have nonempty := List.forall_mem_singleton.mpr (by decide)
  ⟨fun _ => rfl, formed, nonempty, decodeMsg_agrees_unmarshalMsg default _ _ [] (fun _ => rfl) formed nonempty⟩

/- The boundary: a map whose only key is the empty string decodes with `UnmarshalMsg`, which skips
the entry, and fails with `DecodeMsg`, whose `ReadMapKeyPtr` refuses the empty key. -/
example : (default : FieldDefinition).unmarshalMsg [0x81, 0xa0, 0xc0] = (default, .ok []) ∧
    (default : FieldDefinition).decodeMsg ⟨[0x81, 0xa0, 0xc0]⟩ = (default, .error .shortBytes) := by
  have skipped : skip [0xc0] = .ok [] :=
    skip_object (objects_single (show layout 0xc0 = .fixed ([] : Bytes).length by decide)) []
  refine ⟨?_, rfl⟩
  rw [show ([0x81, 0xa0, 0xc0] : Bytes) = [0x81] ++ [0xa0, 0xc0] from rfl,
    unmarshalMsg_header (show IsMapHeader [0x81] 1 from fun _ => rfl)]
  rw [unmarshalFields, unmarshalField, show readMapKeyZC [0xa0, 0xc0] = .ok ([], [0xc0]) from rfl]
  simp only [unmarshalValue, ascii_name, ascii_type, ascii_pos, ascii_stype, ascii_provider1,
    reduceCtorEq, ↓reduceIte, skipped, unmarshalFields]

end FieldDefinition

namespace FieldDefinitions

theorem decodeElements_agrees {maps : List MapObject} (readable : ∀ o ∈ maps, o.Readable) (i : Nat)
    (z : FieldDefinitions) (rest : Bytes) :
    (∃ err err', (unmarshalElements maps.length i z (maps.flatMap MapObject.bytes ++ rest)).2 = .error err ∧
        (decodeElements maps.length i z ⟨maps.flatMap MapObject.bytes ++ rest⟩).2 = .error err') ∨
      ∃ fds, unmarshalElements maps.length i z (maps.flatMap MapObject.bytes ++ rest) = (fds, .ok rest) ∧
        decodeElements maps.length i z ⟨maps.flatMap MapObject.bytes ++ rest⟩ = (fds, .ok ⟨rest⟩) := by
  induction maps generalizing i z with
  | nil => exact .inr ⟨z, rfl, rfl⟩
  | cons o maps ih =>
    rw [List.flatMap_cons, List.append_assoc, List.length_cons, unmarshalElements, decodeElements]
    rcases FieldDefinition.decodeMsg_agrees_of_readable (z.backing.getD i default) o (readable o (.head maps))
        (maps.flatMap MapObject.bytes ++ rest) with ⟨err, err', failed, failed'⟩ | ⟨fd, found, found'⟩
    · rw [← @Prod.mk.eta _ _ (FieldDefinition.unmarshalMsg _ _), failed,
        ← @Prod.mk.eta _ _ (FieldDefinition.decodeMsg _ _), failed']
      exact .inl ⟨_, _, rfl, rfl⟩
    · rw [found, found']
      exact ih (fun o mem => readable o (.tail _ mem)) (i + 1) (z.set i fd)

/-- `FieldDefinitions.DecodeMsg` over a `msgp.Reader` and `UnmarshalMsg` over the same bytes agree
on every array of readable maps, into any receiver: both fail, or both build the same slice and
leave the same bytes unread. -/
theorem decodeMsg_agrees_elementwise (z : FieldDefinitions) (h : Bytes) (maps : List MapObject)
    (rest : Bytes) (header : IsArrayHeader h maps.length) (readable : ∀ o ∈ maps, o.Readable) :
    (∃ err err', (z.unmarshalMsg (h ++ maps.flatMap MapObject.bytes ++ rest)).2 = .error err ∧
        (z.decodeMsg ⟨h ++ maps.flatMap MapObject.bytes ++ rest⟩).2 = .error err') ∨
      ∃ fds, z.unmarshalMsg (h ++ maps.flatMap MapObject.bytes ++ rest) = (fds, .ok rest) ∧
        z.decodeMsg ⟨h ++ maps.flatMap MapObject.bytes ++ rest⟩ = (fds, .ok ⟨rest⟩) := by
  have buffer : z.unmarshalMsg (h ++ (maps.flatMap MapObject.bytes ++ rest)) =
      unmarshalElements maps.length 0 (z.resize maps.length) (maps.flatMap MapObject.bytes ++ rest) := by
    simp only [unmarshalMsg, header _]
  have stream : z.decodeMsg ⟨h ++ (maps.flatMap MapObject.bytes ++ rest)⟩ =
      decodeElements maps.length 0 (z.resize maps.length) ⟨maps.flatMap MapObject.bytes ++ rest⟩ := by
    simp only [decodeMsg, Reader.readArrayHeader, Reader.lift_ok (header _)]
  rw [List.append_assoc, buffer, stream]
  exact decodeElements_agrees readable 0 _ rest

theorem decodeMsg_agrees_elementwise_on_name :
    let name : MapObject := ⟨[0x81], [⟨[0xa4, 0x6e, 0x61, 0x6d, 0x65], [0xa1, 0x61]⟩]⟩
    let z : FieldDefinitions := ⟨[], 0, le_refl 0⟩
    IsArrayHeader [0x91] [name].length ∧ (∀ o ∈ [name], o.Readable) ∧
      ((∃ err err', (z.unmarshalMsg ([0x91] ++ [name].flatMap MapObject.bytes ++ [])).2 = .error err ∧
          (z.decodeMsg ⟨[0x91] ++ [name].flatMap MapObject.bytes ++ []⟩).2 = .error err') ∨
        ∃ fds, z.unmarshalMsg ([0x91] ++ [name].flatMap MapObject.bytes ++ []) = (fds, .ok []) ∧
          z.decodeMsg ⟨[0x91] ++ [name].flatMap MapObject.bytes ++ []⟩ = (fds, .ok ⟨[]⟩)) :=
  have readable : ∀ o ∈ [(⟨[0x81], [⟨[0xa4, 0x6e, 0x61, 0x6d, 0x65], [0xa1, 0x61]⟩]⟩ : MapObject)], o.Readable :=
    List.forall_mem_singleton.mpr ⟨fun _ => rfl,
      List.forall_mem_singleton.mpr ⟨objects_single (by decide), objects_single (by decide)⟩,
      List.forall_mem_singleton.mpr (by decide)⟩
  ⟨fun _ => rfl, readable, decodeMsg_agrees_elementwise _ _ _ [] (fun _ => rfl) readable⟩

end FieldDefinitions

end Timeseries
