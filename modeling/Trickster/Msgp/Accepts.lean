import Trickster.Msgp.Locality

namespace Msgp

/-- `bts` is `n` well-formed objects in front of `rest`. -/
def Consumed (n : Nat) (bts rest : Bytes) : Prop := ∃ v, bts = v ++ rest ∧ Objects n v

def MsgpError.hasPath : MsgpError → Bool
  | .typeError _ _ ctx | .uintOverflow _ _ ctx | .uintBelowZero _ ctx => ctx != ""
  | .wrapped _ _ => true
  | _ => false

theorem badPrefix_hasPath (want : MsgType) (lead : BitVec 8) : (badPrefix want lead).hasPath = false := by
  unfold badPrefix
  split <;> rfl

theorem Objects.append {m k : Nat} {v w : Bytes} (first : Objects m v) (second : Objects k w) :
    Objects (m + k) (v ++ w) := by
  induction first with
  | nil => simpa using second
  | fixed shape _ ih =>
    rw [Nat.add_right_comm, List.cons_append, List.append_assoc]
    exact .fixed shape ih
  | sized shape bound size _ ih =>
    rw [Nat.add_right_comm]
    simp only [List.cons_append, List.append_assoc]
    exact .sized shape bound size ih
  | fixedCollection shape _ ih =>
    rw [Nat.add_right_comm, List.cons_append]
    exact .fixedCollection shape (by rwa [Nat.add_assoc] at ih)
  | collection shape bound _ ih =>
    rw [Nat.add_right_comm, List.cons_append, List.append_assoc]
    exact .collection shape bound (by rwa [Nat.add_assoc] at ih)

namespace Consumed

theorem refl (bts : Bytes) : Consumed 0 bts bts := ⟨[], rfl, .nil⟩

theorem trans {m k : Nat} {bts mid rest : Bytes} (first : Consumed m bts mid)
    (second : Consumed k mid rest) : Consumed (m + k) bts rest :=
  let ⟨v, split, objects⟩ := first
  let ⟨w, split', objects'⟩ := second
  ⟨v ++ w, by rw [split, split', List.append_assoc], objects.append objects'⟩

end Consumed

/-- `h` is the head of an object with `children` child objects: with them, and with any objects
after them, it forms one object more. A scalar is a head with no children. -/
def Starts (h : Bytes) (children : Nat) : Prop :=
  ∀ k v, Objects (children + k) v → Objects (k + 1) (h ++ v)

theorem Starts.consumed {h mid rest : Bytes} {children n : Nat} (head : Starts h children)
    (body : Consumed (children + n) mid rest) : Consumed (n + 1) (h ++ mid) rest :=
  let ⟨v, split, objects⟩ := body
  ⟨h ++ v, by rw [split, List.append_assoc], head n v objects⟩

section Heads

variable {lead : BitVec 8}

theorem starts_fixed {payload : Bytes} (shape : layout lead = .fixed payload.length) :
    Starts (lead :: payload) 0 :=
  fun k _ more => .fixed shape (by rwa [Nat.zero_add] at more)

theorem starts_sized {width extra : Nat} {field data : Bytes} (shape : layout lead = .sized width extra)
    (wide : field.length = width) (size : data.length = getUint field + extra) :
    Starts (lead :: (field ++ data)) 0 := by
  intro k v more
  subst wide
  have sized := Objects.sized shape (getUint_lt field) size (by rwa [Nat.zero_add] at more)
  rw [putUint_getUint] at sized
  simpa only [List.cons_append, List.append_assoc] using sized

theorem starts_fixedCollection {count : Nat} (shape : layout lead = .fixedCollection count) :
    Starts [lead] count :=
  fun _ _ more => .fixedCollection shape more

theorem starts_collection {width perEntry : Nat} {field : Bytes}
    (shape : layout lead = .collection width perEntry) (wide : field.length = width) :
    Starts (lead :: field) (perEntry * getUint field) := by
  intro k v more
  subst wide
  have collection := Objects.collection shape (getUint_lt field) more
  rwa [putUint_getUint] at collection

end Heads

theorem getSize_cons_ok {lead : BitVec 8} {rest : Bytes} {size count : Nat}
    (found : getSize (lead :: rest) = .ok (size, count)) :
    (sizes lead).size ≠ 0 ∧ (size, count) = extraSize (sizes lead).size rest (sizes lead).extra := by
  rw [getSize] at found
  split at found
  · cases found
  · next nonzero =>
    refine ⟨nonzero, ?_⟩
    split at found
    · next children extra => rw [extra]; exact (Except.ok.inj found).symm
    · split at found
      · cases found
      · exact (Except.ok.inj found).symm

theorem getSize_starts {b : Bytes} {size count : Nat} (found : getSize b = .ok (size, count))
    (long : size ≤ b.length) : Starts (b.take size) count := by
  obtain _ | ⟨lead, rest⟩ := b
  · cases found
  obtain ⟨nonzero, split⟩ := getSize_cons_ok found
  have agree := sizes_layout lead
  cases shape : layout lead with
  | unused => rw [shape] at agree; exact absurd agree nonzero
  | fixed payload =>
    rw [shape] at agree
    rw [agree.1, agree.2] at split
    obtain ⟨rfl, rfl⟩ := Prod.mk.inj split
    have taken : (rest.take payload).length = payload := by simp at long ⊢; omega
    rw [Nat.add_comm, List.take_succ_cons]
    exact starts_fixed (by rw [taken]; exact shape)
  | fixedCollection children =>
    rw [shape] at agree
    rw [agree.1, agree.2] at split
    obtain ⟨rfl, rfl⟩ := Prod.mk.inj split
    exact starts_fixedCollection shape
  | sized width extra =>
    rw [shape] at agree
    obtain ⟨spec, mode⟩ := agree
    have sized : size = 1 + width + extra + getUint (rest.take width) → count = 0 →
        Starts ((lead :: rest).take size) count := by
      rintro rfl rfl
      have wide : (rest.take width).length = width := by simp at long ⊢; omega
      rw [show 1 + width + extra + getUint (rest.take width) =
        width + (getUint (rest.take width) + extra) + 1 by omega, List.take_succ_cons, List.take_add]
      exact starts_sized shape wide (by simp at long ⊢; omega)
    rcases mode with ⟨rfl, mode⟩ | ⟨rfl, mode⟩ | ⟨rfl, mode⟩ <;>
    · rw [spec, mode] at split
      exact sized (Prod.mk.inj split).1 (Prod.mk.inj split).2
  | collection width perEntry =>
    rw [shape] at agree
    obtain ⟨spec, mode⟩ := agree
    have collection : size = 1 + width → count = perEntry * getUint (rest.take width) →
        Starts ((lead :: rest).take size) count := by
      rintro rfl rfl
      have wide : (rest.take width).length = width := by simp at long ⊢; omega
      rw [Nat.add_comm, List.take_succ_cons]
      exact starts_collection shape wide
    rcases mode with ⟨rfl, rfl, mode⟩ | ⟨rfl, rfl, mode⟩ | ⟨rfl, rfl, mode⟩ | ⟨rfl, rfl, mode⟩ <;>
    · rw [spec, mode] at split
      exact collection (Prod.mk.inj split).1 (by simp only [(Prod.mk.inj split).2, extraSize, Nat.one_mul])

theorem skipObjects_succ_failed {n : Nat} {b : Bytes} {err : MsgpError} (failed : getSize b = .error err) :
    skipObjects (n + 1) b = .error err := by
  rw [skipObjects]
  split
  · next found => rw [failed] at found; cases found; rfl
  · next found => rw [failed] at found; cases found

theorem skipObjects_succ_found {n size count : Nat} {b : Bytes} (found : getSize b = .ok (size, count)) :
    skipObjects (n + 1) b = if b.length < size then .error .shortBytes else skipObjects (count + n) (b.drop size) := by
  rw [skipObjects]
  split
  · next found' => rw [found] at found'; cases found'
  · next found' => rw [found] at found'; cases found'; rfl

theorem skipObjects_consumed {n : Nat} {b rest : Bytes} (skipped : skipObjects n b = .ok rest) :
    Consumed n b rest := by
  induction n, b using skipObjects.induct with
  | case1 b =>
    rw [skipObjects] at skipped
    cases skipped
    exact .refl _
  | case2 n b err failed => rw [skipObjects_succ_failed failed] at skipped; cases skipped
  | case3 n b size count found short => rw [skipObjects_succ_found found, if_pos short] at skipped; cases skipped
  | case4 n b size count found long ih =>
    rw [skipObjects_succ_found found, if_neg long] at skipped
    simpa only [List.take_append_drop] using (getSize_starts found (by omega)).consumed (ih skipped)

theorem skip_consumed {b rest : Bytes} (skipped : skip b = .ok rest) : Consumed 1 b rest :=
  skipObjects_consumed skipped

theorem objects_prefix_free {v w y : Bytes} (whole : Objects 1 v) (part : Objects 1 w) (split : w ++ y = v) :
    y = [] := by
  have once := skip_object whole []
  have twice := skip_object part y
  rw [List.append_nil] at once
  rw [split, once] at twice
  exact (Except.ok.inj twice).symm

theorem getSize_own {b : Bytes} {err : MsgpError} (failed : getSize b = .error err) :
    err.hasPath = false := by
  unfold getSize at failed
  split at failed
  · cases failed; rfl
  · split at failed
    · cases failed; rfl
    · split at failed
      · cases failed
      · split at failed
        · cases failed; rfl
        · cases failed

theorem skipObjects_own {n : Nat} {b : Bytes} {err : MsgpError} (failed : skipObjects n b = .error err) :
    err.hasPath = false := by
  induction n, b using skipObjects.induct with
  | case1 b =>
    rw [skipObjects] at failed
    cases failed
  | case2 n b e found =>
    rw [skipObjects_succ_failed found] at failed
    cases failed
    exact getSize_own found
  | case3 n b size count found short =>
    rw [skipObjects_succ_found found, if_pos short] at failed
    cases failed
    rfl
  | case4 n b size count found long ih =>
    rw [skipObjects_succ_found found, if_neg long] at failed
    exact ih failed

structure HeadOf {α : Type} (b : Bytes) (children : α → Nat) (r : Except MsgpError (α × Bytes)) :
    Prop where
  ok : ∀ a rest, r = .ok (a, rest) → ∃ h, b = h ++ rest ∧ Starts h (children a)
  error : ∀ err, r = .error err → err.hasPath = false

/-- `read` reads the head of one object, or fails with an error of its own. -/
def ReadsHead {α : Type} (read : Bytes → Except MsgpError (α × Bytes)) (children : α → Nat) : Prop :=
  ∀ b, HeadOf b children (read b)

theorem ReadsHead.consumed {α : Type} {read : Bytes → Except MsgpError (α × Bytes)}
    (reads : ReadsHead read fun _ => 0) {b rest : Bytes} {a : α} (found : read b = .ok (a, rest)) :
    Consumed 1 b rest := by
  obtain ⟨h, rfl, head⟩ := (reads b).ok a rest found
  exact head.consumed (.refl rest)

theorem readPrefixed_ok {width n : Nat} {rest rest' : Bytes}
    (found : readPrefixed width rest = .ok (n, rest')) :
    width ≤ rest.length ∧ n = getUint (rest.take width) ∧ rest' = rest.drop width := by
  unfold readPrefixed at found
  split_ifs at found with short
  obtain ⟨rfl, rfl⟩ := Prod.mk.inj (Except.ok.inj found)
  exact ⟨by omega, rfl, rfl⟩

theorem readPrefixed_fails {width : Nat} {rest : Bytes} {err : MsgpError}
    (failed : readPrefixed width rest = .error err) : err = .shortBytes := by
  unfold readPrefixed at failed
  split_ifs at failed
  exact (Except.error.inj failed).symm

theorem readBody_ok {read : Nat} {body s rest' : Bytes} (found : readBody read body = .ok (s, rest')) :
    read ≤ body.length ∧ s = body.take read ∧ rest' = body.drop read := by
  unfold readBody at found
  split_ifs at found with short
  obtain ⟨rfl, rfl⟩ := Prod.mk.inj (Except.ok.inj found)
  exact ⟨by omega, rfl, rfl⟩

theorem readBody_fails {read : Nat} {body : Bytes} {err : MsgpError}
    (failed : readBody read body = .error err) : err = .shortBytes := by
  unfold readBody at failed
  split_ifs at failed
  exact (Except.error.inj failed).symm

section HeadOf

variable {α β : Type} {b : Bytes} {children : α → Nat} {lead : BitVec 8} {rest : Bytes}

theorem headOf_error {err : MsgpError} (own : err.hasPath = false) : HeadOf b children (.error err) :=
  ⟨fun _ _ found => (nomatch found), fun _ failed => by cases failed; exact own⟩

theorem headOf_ite {c : Prop} [Decidable c] {yes no : Except MsgpError (α × Bytes)}
    (headYes : c → HeadOf b children yes) (headNo : ¬c → HeadOf b children no) :
    HeadOf b children (if c then yes else no) := by
  by_cases h : c
  · rw [if_pos h]; exact headYes h
  · rw [if_neg h]; exact headNo h

theorem headOf_if_lead {c : BitVec 8} {yes no : Except MsgpError (α × Bytes)}
    (headYes : HeadOf (c :: rest) children yes) (headNo : HeadOf (lead :: rest) children no) :
    HeadOf (lead :: rest) children (if lead = c then yes else no) :=
  headOf_ite (fun same => same ▸ headYes) fun _ => headNo

theorem headOf_bind {r : Except MsgpError (α × Bytes)} {next : α × Bytes → Except MsgpError (β × Bytes)}
    (first : HeadOf b (fun _ => 0) r)
    (keeps : ∀ a rest a' rest', next (a, rest) = .ok (a', rest') → rest' = rest)
    (own : ∀ p err, next p = .error err → err.hasPath = false) : HeadOf b (fun _ => 0) (r >>= next) := by
  constructor
  · intro a' rest' found
    cases r with
    | error err => cases found
    | ok read =>
      obtain ⟨a, rest⟩ := read
      rw [keeps a rest a' rest' found]
      exact first.ok a rest rfl
  · intro err failed
    cases r with
    | error err' => cases failed; exact first.error _ rfl
    | ok read => exact own read err failed

theorem headOf_map {r : Except MsgpError (α × Bytes)} {f : α × Bytes → β × Bytes}
    (first : HeadOf b (fun _ => 0) r) (keeps : ∀ p, (f p).2 = p.2) : HeadOf b (fun _ => 0) (f <$> r) := by
  constructor
  · intro a' rest' found
    cases r with
    | error err => cases found
    | ok read =>
      obtain ⟨a, rest⟩ := read
      have kept := keeps (a, rest)
      rw [Except.ok.inj found] at kept
      subst kept
      exact first.ok a _ rfl
  · intro err failed
    cases r with
    | error err' => cases failed; exact first.error _ rfl
    | ok read => cases failed

theorem headOf_lead (shape : layout lead = .fixed 0) (a : α) :
    HeadOf (lead :: rest) (fun _ => 0) (.ok (a, rest)) := by
  refine ⟨?_, fun _ failed => nomatch failed⟩
  rintro _ _ ⟨⟩
  exact ⟨[lead], rfl, starts_fixed shape⟩

theorem headOf_payload {width : Nat} (shape : layout lead = .fixed width) {r : Except MsgpError (α × Bytes)}
    (takes : ∀ a rest', r = .ok (a, rest') → width ≤ rest.length ∧ rest' = rest.drop width)
    (short : ∀ err, r = .error err → err = .shortBytes) : HeadOf (lead :: rest) (fun _ => 0) r := by
  refine ⟨fun a rest' found => ?_, fun err failed => by rw [short err failed]; rfl⟩
  obtain ⟨long, rfl⟩ := takes a rest' found
  have taken : (rest.take width).length = width := by simp; omega
  exact ⟨lead :: rest.take width, by simp, starts_fixed (by rw [taken]; exact shape)⟩

theorem headOf_readPrefixed {width : Nat} (shape : layout lead = .fixed width) :
    HeadOf (lead :: rest) (fun _ => 0) (readPrefixed width rest) :=
  headOf_payload shape (fun _ _ found =>
    let ⟨long, _, rest'⟩ := readPrefixed_ok found
    ⟨long, rest'⟩) fun _ => readPrefixed_fails

theorem headOf_readBody {width : Nat} (shape : layout lead = .fixed width) :
    HeadOf (lead :: rest) (fun _ => 0) (readBody width rest) :=
  headOf_payload shape (fun _ _ found =>
    let ⟨long, _, rest'⟩ := readBody_ok found
    ⟨long, rest'⟩) fun _ => readBody_fails

theorem headOf_sized {width : Nat} (shape : layout lead = .sized width 0) :
    HeadOf (lead :: rest) (fun _ => 0)
      (readPrefixed width rest >>= fun (read, body) => readBody read body) := by
  constructor
  · intro s rest' found
    cases prefixed : readPrefixed width rest with
    | error err => rw [prefixed] at found; cases found
    | ok field =>
      obtain ⟨len, body⟩ := field
      rw [prefixed] at found
      obtain ⟨long, rfl, rfl⟩ := readPrefixed_ok prefixed
      obtain ⟨long', -, rfl⟩ := readBody_ok found
      have wide : (rest.take width).length = width := by simp; omega
      refine ⟨lead :: (rest.take width ++ (rest.drop width).take (getUint (rest.take width))), ?_,
        starts_sized shape wide (by simp at long' ⊢; omega)⟩
      simp only [List.cons_append, List.append_assoc, List.take_append_drop]
  · intro err failed
    cases prefixed : readPrefixed width rest with
    | error err' => rw [prefixed] at failed; cases failed; rw [readPrefixed_fails prefixed]; rfl
    | ok field => rw [prefixed] at failed; rw [readBody_fails failed]; rfl

theorem headOf_fixedCollection {a : α} (shape : layout lead = .fixedCollection (children a)) :
    HeadOf (lead :: rest) children (.ok (a, rest)) := by
  refine ⟨?_, fun _ failed => nomatch failed⟩
  rintro _ _ ⟨⟩
  exact ⟨[lead], rfl, starts_fixedCollection shape⟩

theorem headOf_collection {width perEntry : Nat} {count : Nat → Nat}
    (shape : layout lead = .collection width perEntry) (entries : ∀ n, count n = perEntry * n) :
    HeadOf (lead :: rest) count (readPrefixed width rest) := by
  refine ⟨fun n rest' found => ?_, fun err failed => by rw [readPrefixed_fails failed]; rfl⟩
  obtain ⟨long, rfl, rfl⟩ := readPrefixed_ok found
  have wide : (rest.take width).length = width := by simp; omega
  exact ⟨lead :: rest.take width, by simp, entries _ ▸ starts_collection shape wide⟩

end HeadOf

theorem layout_dc : layout 0xdc = .collection 2 1 := by decide
theorem layout_dd : layout 0xdd = .collection 4 1 := by decide
theorem layout_de : layout 0xde = .collection 2 2 := by decide
theorem layout_df : layout 0xdf = .collection 4 2 := by decide

theorem layout_of_isfixmap : ∀ lead : BitVec 8, isfixmap lead = true →
    layout lead = .fixedCollection (2 * rfixmap lead) := by
  decide

theorem layout_of_isfixarray : ∀ lead : BitVec 8, isfixarray lead = true →
    layout lead = .fixedCollection (rfixarray lead) := by
  decide

theorem readMapHeaderBytes_readsHead : ReadsHead readMapHeaderBytes (2 * ·) := by
  rintro (_ | ⟨lead, rest⟩)
  · exact headOf_error rfl
  rw [readMapHeaderBytes]
  exact headOf_ite (fun fix => headOf_fixedCollection (layout_of_isfixmap lead fix)) fun _ =>
    headOf_if_lead (headOf_collection layout_de fun _ => rfl) <|
    headOf_if_lead (headOf_collection layout_df fun _ => rfl) (headOf_error (badPrefix_hasPath _ _))

theorem readArrayHeaderBytes_readsHead : ReadsHead readArrayHeaderBytes id := by
  rintro (_ | ⟨lead, rest⟩)
  · exact headOf_error rfl
  rw [readArrayHeaderBytes]
  exact headOf_ite (fun fix => headOf_fixedCollection (layout_of_isfixarray lead fix)) fun _ =>
    headOf_if_lead (headOf_collection layout_dc fun n => (Nat.one_mul n).symm) <|
    headOf_if_lead (headOf_collection layout_dd fun n => (Nat.one_mul n).symm)
      (headOf_error (badPrefix_hasPath _ _))

theorem readStringZC_readsHead : ReadsHead readStringZC fun _ => 0 := by
  rintro (_ | ⟨lead, rest⟩)
  · exact headOf_error rfl
  rw [readStringZC]
  exact headOf_ite (fun fix => headOf_readBody (layout_of_isfixstr lead fix)) fun _ =>
    headOf_if_lead (headOf_sized layout_d9) <| headOf_if_lead (headOf_sized layout_da) <|
    headOf_if_lead (headOf_sized layout_db) (headOf_error rfl)

theorem readBytesZC_readsHead : ReadsHead readBytesZC fun _ => 0 := by
  rintro (_ | ⟨lead, rest⟩)
  · exact headOf_error rfl
  rw [readBytesZC]
  exact headOf_if_lead (headOf_sized layout_c4) <| headOf_if_lead (headOf_sized layout_c5) <|
    headOf_if_lead (headOf_sized layout_c6) (headOf_error (badPrefix_hasPath _ _))

theorem readMapKeyZC_readsHead : ReadsHead readMapKeyZC fun _ => 0 := by
  intro b
  refine ⟨fun key rest found => ?_, fun err failed => ?_⟩ <;> unfold readMapKeyZC at * <;> split at *
  · exact (readBytesZC_readsHead b).ok key rest found
  · exact (readStringZC_readsHead b).ok key rest found
  · exact (readBytesZC_readsHead b).error err failed
  · exact (readStringZC_readsHead b).error err failed

theorem nonNegative_keeps (bits : Nat) (a : Nat) (rest : Bytes) (a' : Nat) (rest' : Bytes)
    (found : nonNegative bits (a, rest) = .ok (a', rest')) : rest' = rest := by
  unfold nonNegative at found
  split_ifs at found
  exact (Prod.mk.inj (Except.ok.inj found)).2.symm

theorem nonNegative_own (bits : Nat) (field : Nat × Bytes) (err : MsgpError)
    (failed : nonNegative bits field = .error err) : err.hasPath = false := by
  unfold nonNegative at failed
  split_ifs at failed
  cases failed
  rfl

theorem readUint64Bytes_readsHead : ReadsHead readUint64Bytes fun _ => 0 := by
  rintro (_ | ⟨lead, rest⟩)
  · exact headOf_error rfl
  rw [readUint64Bytes]
  exact headOf_ite (fun fix => headOf_lead (layout_of_isfixint lead fix) _) fun _ =>
    headOf_if_lead (headOf_bind (headOf_readPrefixed layout_d0) (nonNegative_keeps 8) (nonNegative_own 8)) <|
    headOf_if_lead (headOf_readPrefixed layout_cc) <|
    headOf_if_lead (headOf_bind (headOf_readPrefixed layout_d1) (nonNegative_keeps 16) (nonNegative_own 16)) <|
    headOf_if_lead (headOf_readPrefixed layout_cd) <|
    headOf_if_lead (headOf_bind (headOf_readPrefixed layout_d2) (nonNegative_keeps 32) (nonNegative_own 32)) <|
    headOf_if_lead (headOf_readPrefixed layout_ce) <|
    headOf_if_lead (headOf_bind (headOf_readPrefixed layout_d3) (nonNegative_keeps 64) (nonNegative_own 64)) <|
    headOf_if_lead (headOf_readPrefixed layout_cf) <|
    headOf_ite (fun _ => headOf_error rfl) fun _ => headOf_error (badPrefix_hasPath _ _)

theorem narrowed_keeps {β : Type} (bound : Nat) (narrow : Nat → β) (overflow : Nat → MsgpError)
    (a : Nat) (rest : Bytes) (a' : β) (rest' : Bytes)
    (found : (if a > bound then .error (overflow a) else .ok (narrow a, rest) :
      Except MsgpError (β × Bytes)) = .ok (a', rest')) : rest' = rest := by
  split_ifs at found
  exact (Prod.mk.inj (Except.ok.inj found)).2.symm

theorem narrowed_own {β : Type} (bound bits : Nat) (narrow : Nat → β) (field : Nat × Bytes) (err : MsgpError)
    (failed : (if field.1 > bound then .error (.uintOverflow field.1 bits "") else .ok (narrow field.1, field.2) :
      Except MsgpError (β × Bytes)) = .error err) : err.hasPath = false := by
  split_ifs at failed
  cases failed
  rfl

theorem readByteBytes_readsHead : ReadsHead readByteBytes fun _ => 0 := fun b =>
  headOf_bind (readUint64Bytes_readsHead b) (narrowed_keeps 0xff _ _) (narrowed_own 0xff 8 _)

theorem readInt64Bytes_readsHead : ReadsHead readInt64Bytes fun _ => 0 := by
  rintro (_ | ⟨lead, rest⟩)
  · exact headOf_error rfl
  rw [readInt64Bytes]
  exact headOf_ite (fun fix => headOf_lead (layout_of_isfixint lead fix) _) fun _ =>
    headOf_ite (fun nfix => headOf_lead (layout_of_isnfixint lead nfix) _) fun _ =>
    headOf_if_lead (headOf_map (headOf_readPrefixed layout_d0) fun _ => rfl) <|
    headOf_if_lead (headOf_map (headOf_readPrefixed layout_cc) fun _ => rfl) <|
    headOf_if_lead (headOf_map (headOf_readPrefixed layout_d1) fun _ => rfl) <|
    headOf_if_lead (headOf_map (headOf_readPrefixed layout_cd) fun _ => rfl) <|
    headOf_if_lead (headOf_map (headOf_readPrefixed layout_d2) fun _ => rfl) <|
    headOf_if_lead (headOf_map (headOf_readPrefixed layout_ce) fun _ => rfl) <|
    headOf_if_lead (headOf_map (headOf_readPrefixed layout_d3) fun _ => rfl) <|
    headOf_if_lead (headOf_bind (headOf_readPrefixed layout_cf) (narrowed_keeps (2 ^ 63 - 1) _ _)
      (narrowed_own (2 ^ 63 - 1) 64 _)) (headOf_error (badPrefix_hasPath _ _))

end Msgp
