import Trickster.Msgp.Read

namespace Msgp

def extraSize (size : Nat) (rest : Bytes) : Extra → Nat × Nat
  | .objects count => (size, count)
  | .extra8 => (size + getUint (rest.take 1), 0)
  | .extra16 => (size + getUint (rest.take 2), 0)
  | .extra32 => (size + getUint (rest.take 4), 0)
  | .map16v => (size, 2 * getUint (rest.take 2))
  | .map32v => (size, 2 * getUint (rest.take 4))
  | .array16v => (size, getUint (rest.take 2))
  | .array32v => (size, getUint (rest.take 4))

/-- `getSize`: the bytes the object at the front of `b` occupies before its children, and how
many child objects follow it. Fixed composites (`mode >= 0`) skip the length check. -/
def getSize : Bytes → Except MsgpError (Nat × Nat)
  | [] => .error .shortBytes
  | lead :: rest =>
    if (sizes lead).size = 0 then .error (.invalidPrefix lead)
    else match (sizes lead).extra with
      | .objects count => .ok ((sizes lead).size, count)
      | mode =>
        if rest.length + 1 < (sizes lead).size then .error .shortBytes
        else .ok (extraSize (sizes lead).size rest mode)

theorem extraSize_size (size : Nat) (rest : Bytes) (mode : Extra) :
    size ≤ (extraSize size rest mode).1 := by
  cases mode <;> simp [extraSize]

theorem getSize_pos {b : Bytes} {size count : Nat} (h : getSize b = .ok (size, count)) :
    0 < size := by
  match b with
  | [] => simp [getSize] at h
  | lead :: rest =>
    simp only [getSize] at h
    split at h
    · cases h
    rename_i empty
    split at h
    · cases h
      omega
    · split at h
      · cases h
      · have atLeast := extraSize_size (sizes lead).size rest (sizes lead).extra
        rw [Except.ok.inj h] at atLeast
        omega

/-- `Skip`: msgp recurses once per child object; the recursion is flattened here into the
number of objects still to skip, which is how `Skip`'s loop over `asz` unwinds. -/
def skipObjects : Nat → Bytes → Except MsgpError Bytes
  | 0, b => .ok b
  | n + 1, b =>
    match found : getSize b with
    | .error e => .error e
    | .ok (size, count) =>
      if b.length < size then .error .shortBytes else skipObjects (count + n) (b.drop size)
termination_by _ b => b.length
decreasing_by
  have := getSize_pos found
  simp only [List.length_drop]
  omega

/-- `Skip(b)`: drop one whole object. -/
def skip (b : Bytes) : Except MsgpError Bytes := skipObjects 1 b

inductive Layout
  | fixed (payload : Nat)
  | sized (width extra : Nat)
  | fixedCollection (objects : Nat)
  | collection (width perEntry : Nat)
  | unused
  deriving DecidableEq, Repr

def layout (lead : BitVec 8) : Layout :=
  let n := lead.toNat
  if n < 0x80 then .fixed 0
  else if n < 0x90 then .fixedCollection (2 * (n - 0x80))
  else if n < 0xa0 then .fixedCollection (n - 0x90)
  else if n < 0xc0 then .fixed (n - 0xa0)
  else if 0xe0 ≤ n then .fixed 0
  else match n with
    | 0xc0 | 0xc2 | 0xc3 => .fixed 0
    | 0xc4 => .sized 1 0
    | 0xc5 => .sized 2 0
    | 0xc6 => .sized 4 0
    | 0xc7 => .sized 1 1
    | 0xc8 => .sized 2 1
    | 0xc9 => .sized 4 1
    | 0xca => .fixed 4
    | 0xcb => .fixed 8
    | 0xcc | 0xd0 => .fixed 1
    | 0xcd | 0xd1 => .fixed 2
    | 0xce | 0xd2 => .fixed 4
    | 0xcf | 0xd3 => .fixed 8
    | 0xd4 => .fixed 2
    | 0xd5 => .fixed 3
    | 0xd6 => .fixed 5
    | 0xd7 => .fixed 9
    | 0xd8 => .fixed 17
    | 0xd9 => .sized 1 0
    | 0xda => .sized 2 0
    | 0xdb => .sized 4 0
    | 0xdc => .collection 2 1
    | 0xdd => .collection 4 1
    | 0xde => .collection 2 2
    | 0xdf => .collection 4 2
    | _ => .unused

/-- `Objects n b`: `b` is exactly `n` consecutive well-formed MessagePack objects. -/
inductive Objects : Nat → Bytes → Prop
  | nil : Objects 0 []
  | fixed {lead : BitVec 8} {payload rest : Bytes} {n : Nat} :
      layout lead = .fixed payload.length → Objects n rest →
      Objects (n + 1) (lead :: (payload ++ rest))
  | sized {lead : BitVec 8} {width extra len : Nat} {data rest : Bytes} {n : Nat} :
      layout lead = .sized width extra → len < 256 ^ width → data.length = len + extra →
      Objects n rest → Objects (n + 1) (lead :: (putUint width len ++ (data ++ rest)))
  | fixedCollection {lead : BitVec 8} {count n : Nat} {rest : Bytes} :
      layout lead = .fixedCollection count → Objects (count + n) rest →
      Objects (n + 1) (lead :: rest)
  | collection {lead : BitVec 8} {width perEntry count n : Nat} {rest : Bytes} :
      layout lead = .collection width perEntry → count < 256 ^ width →
      Objects (perEntry * count + n) rest →
      Objects (n + 1) (lead :: (putUint width count ++ rest))

def SizesAgree (spec : ByteSpec) : Layout → Prop
  | .fixed payload => spec.size = 1 + payload ∧ spec.extra = .objects 0
  | .sized width extra => spec.size = 1 + width + extra ∧
      (width = 1 ∧ spec.extra = .extra8 ∨ width = 2 ∧ spec.extra = .extra16 ∨
        width = 4 ∧ spec.extra = .extra32)
  | .fixedCollection count => spec.size = 1 ∧ spec.extra = .objects count
  | .collection width perEntry => spec.size = 1 + width ∧
      (width = 2 ∧ perEntry = 1 ∧ spec.extra = .array16v ∨
        width = 4 ∧ perEntry = 1 ∧ spec.extra = .array32v ∨
        width = 2 ∧ perEntry = 2 ∧ spec.extra = .map16v ∨
        width = 4 ∧ perEntry = 2 ∧ spec.extra = .map32v)
  | .unused => spec.size = 0

instance (spec : ByteSpec) : (l : Layout) → Decidable (SizesAgree spec l)
  | .fixed _ => inferInstanceAs (Decidable (_ ∧ _))
  | .sized _ _ => inferInstanceAs (Decidable (_ ∧ _))
  | .fixedCollection _ => inferInstanceAs (Decidable (_ ∧ _))
  | .collection _ _ => inferInstanceAs (Decidable (_ ∧ _))
  | .unused => inferInstanceAs (Decidable (_ = _))

theorem sizes_layout : ∀ lead : BitVec 8, SizesAgree (sizes lead) (layout lead) := by decide

theorem getSize_fixed {lead : BitVec 8} {payload : Nat} (shape : layout lead = .fixed payload)
    (more : Bytes) : getSize (lead :: more) = .ok (1 + payload, 0) := by
  have agree := sizes_layout lead
  rw [shape] at agree
  simp [getSize, agree.1, agree.2]

theorem getSize_fixedCollection {lead : BitVec 8} {count : Nat}
    (shape : layout lead = .fixedCollection count) (more : Bytes) :
    getSize (lead :: more) = .ok (1, count) := by
  have agree := sizes_layout lead
  rw [shape] at agree
  simp [getSize, agree.1, agree.2]

theorem getSize_sized {lead : BitVec 8} {width extra len : Nat} (shape : layout lead = .sized width extra)
    (bound : len < 256 ^ width) (more : Bytes) (long : extra ≤ more.length) :
    getSize (lead :: (putUint width len ++ more)) = .ok (1 + width + extra + len, 0) := by
  have agree := sizes_layout lead
  rw [shape] at agree
  obtain ⟨size, mode⟩ := agree
  have read := getUint_putUint_of_lt bound
  rcases mode with ⟨rfl, mode⟩ | ⟨rfl, mode⟩ | ⟨rfl, mode⟩ <;>
    simp [getSize, size, mode, extraSize, read] <;> omega

theorem getSize_collection {lead : BitVec 8} {width perEntry count : Nat}
    (shape : layout lead = .collection width perEntry) (bound : count < 256 ^ width) (more : Bytes) :
    getSize (lead :: (putUint width count ++ more)) = .ok (1 + width, perEntry * count) := by
  have agree := sizes_layout lead
  rw [shape] at agree
  obtain ⟨size, mode⟩ := agree
  have read := getUint_putUint_of_lt bound
  rcases mode with ⟨rfl, rfl, mode⟩ | ⟨rfl, rfl, mode⟩ | ⟨rfl, rfl, mode⟩ | ⟨rfl, rfl, mode⟩ <;>
    simp [getSize, size, mode, extraSize, read]

theorem skipObjects_step {n size count : Nat} {b : Bytes} (found : getSize b = .ok (size, count))
    (long : size ≤ b.length) : skipObjects (n + 1) b = skipObjects (count + n) (b.drop size) := by
  rw [skipObjects]
  split
  · simp_all
  · rename_i size' count' found'
    rw [found] at found'
    cases found'
    simp [Nat.not_lt.mpr long]

theorem drop_header (lead : BitVec 8) (header rest : Bytes) {k : Nat} (size : k = 1 + header.length) :
    (lead :: (header ++ rest)).drop k = rest := by
  subst size
  rw [Nat.add_comm, List.drop_succ_cons, List.drop_left]

theorem skipObjects_objects {n : Nat} {b : Bytes} (wellFormed : Objects n b) (tail : Bytes) :
    skipObjects n (b ++ tail) = .ok tail := by
  induction wellFormed with
  | nil => simp [skipObjects]
  | @fixed lead payload rest n shape _ ih =>
    simp only [List.cons_append, List.append_assoc]
    rw [skipObjects_step (getSize_fixed shape _) (by simp; omega),
      drop_header lead payload _ rfl, Nat.zero_add, ih]
  | @sized lead width extra len data rest n shape bound size _ ih =>
    simp only [List.cons_append, List.append_assoc]
    rw [skipObjects_step (getSize_sized shape bound _ (by simp; omega)) (by simp; omega),
      ← List.append_assoc, drop_header lead _ _ (by simp; omega), Nat.zero_add, ih]
  | @fixedCollection lead count n rest shape _ ih =>
    simp only [List.cons_append]
    rw [skipObjects_step (getSize_fixedCollection shape _) (by simp)]
    simpa using ih
  | @collection lead width perEntry count n rest shape bound _ ih =>
    simp only [List.cons_append, List.append_assoc]
    rw [skipObjects_step (getSize_collection shape bound _) (by simp; omega),
      drop_header lead _ _ (by simp), ih]

theorem skip_object {b : Bytes} (wellFormed : Objects 1 b) (tail : Bytes) :
    skip (b ++ tail) = .ok tail :=
  skipObjects_objects wellFormed tail

end Msgp
