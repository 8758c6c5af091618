import Trickster.Msgp.Reader

namespace Msgp

def Settled {α : Type} (read : Bytes → Except MsgpError (α × Bytes)) : Prop :=
  (∃ err, ∀ tail, read tail = .error err) ∨ ∃ a, ∀ tail, read tail = .ok (a, tail)

def ReadsWithin {α : Type} (read : Bytes → Except MsgpError (α × Bytes)) : Prop :=
  ∀ v, Objects 1 v → Settled fun tail => read (v ++ tail)

section Settled

variable {α β : Type}

theorem settled_error (err : MsgpError) :
    Settled fun _ => (Except.error err : Except MsgpError (α × Bytes)) :=
  .inl ⟨err, fun _ => rfl⟩

theorem settled_ok (a : α) : Settled fun tail => (Except.ok (a, tail) : Except MsgpError _) :=
  .inr ⟨a, fun _ => rfl⟩

theorem settled_bind {read : Bytes → Except MsgpError (α × Bytes)}
    {next : α × Bytes → Except MsgpError (β × Bytes)} (first : Settled read)
    (andThen : ∀ a, Settled fun tail => next (a, tail)) : Settled fun tail => read tail >>= next := by
  rcases first with ⟨err, failed⟩ | ⟨a, read⟩
  · exact .inl ⟨err, fun tail => by dsimp only; rw [failed]; rfl⟩
  · simpa only [read] using andThen a

theorem settled_map {read : Bytes → Except MsgpError (α × Bytes)} (first : Settled read)
    (f : α × Bytes → β × Bytes) (keep : ∀ a tail, f (a, tail) = ((f (a, [])).1, tail)) :
    Settled fun tail => f <$> read tail := by
  rcases first with ⟨err, failed⟩ | ⟨a, read⟩
  · exact .inl ⟨err, fun tail => by dsimp only; rw [failed]; rfl⟩
  · exact .inr ⟨(f (a, [])).1, fun tail => by dsimp only; rw [read, ← keep]; rfl⟩

theorem settled_ite {c : Prop} [Decidable c] {yes no : Bytes → Except MsgpError (α × Bytes)}
    (settledYes : c → Settled yes) (settledNo : ¬c → Settled no) :
    Settled fun tail => if c then yes tail else no tail := by
  by_cases h : c
  · simpa only [h, if_true] using settledYes h
  · simpa only [h, if_false] using settledNo h

theorem settled_nonNegative (bits n : Nat) : Settled fun tail => nonNegative bits (n, tail) := by
  unfold nonNegative
  by_cases negative : signed bits n < 0
  · simpa [negative] using settled_error _
  · simpa [negative] using settled_ok n

end Settled

theorem objects_nil : ¬Objects 1 [] := nofun

theorem objects_single {lead : BitVec 8} {payload : Bytes} (shape : layout lead = .fixed payload.length) :
    Objects 1 (lead :: payload) := by
  simpa using Objects.fixed shape .nil

theorem objects_fixed {lead : BitVec 8} {rest : Bytes} {payload : Nat}
    (wellFormed : Objects 1 (lead :: rest)) (shape : layout lead = .fixed payload) :
    rest.length = payload := by
  cases wellFormed with
  | fixed shape' more => cases more; rw [shape] at shape'; cases shape'; simp
  | sized shape' => rw [shape] at shape'; cases shape'
  | fixedCollection shape' => rw [shape] at shape'; cases shape'
  | collection shape' => rw [shape] at shape'; cases shape'

theorem objects_sized {lead : BitVec 8} {rest : Bytes} {width extra : Nat}
    (wellFormed : Objects 1 (lead :: rest)) (shape : layout lead = .sized width extra) :
    ∃ len data, rest = putUint width len ++ data ∧ len < 256 ^ width ∧ data.length = len + extra := by
  cases wellFormed with
  | sized shape' bound size more =>
    cases more; rw [shape] at shape'; cases shape'; exact ⟨_, _, by simp, bound, size⟩
  | fixed shape' => rw [shape] at shape'; cases shape'
  | fixedCollection shape' => rw [shape] at shape'; cases shape'
  | collection shape' => rw [shape] at shape'; cases shape'

theorem layout_c4 : layout 0xc4 = .sized 1 0 := by decide
theorem layout_c5 : layout 0xc5 = .sized 2 0 := by decide
theorem layout_c6 : layout 0xc6 = .sized 4 0 := by decide
theorem layout_cc : layout 0xcc = .fixed 1 := by decide
theorem layout_cd : layout 0xcd = .fixed 2 := by decide
theorem layout_ce : layout 0xce = .fixed 4 := by decide
theorem layout_cf : layout 0xcf = .fixed 8 := by decide
theorem layout_d0 : layout 0xd0 = .fixed 1 := by decide
theorem layout_d1 : layout 0xd1 = .fixed 2 := by decide
theorem layout_d2 : layout 0xd2 = .fixed 4 := by decide
theorem layout_d3 : layout 0xd3 = .fixed 8 := by decide
theorem layout_d9 : layout 0xd9 = .sized 1 0 := by decide
theorem layout_da : layout 0xda = .sized 2 0 := by decide
theorem layout_db : layout 0xdb = .sized 4 0 := by decide

theorem layout_of_isfixstr : ∀ lead : BitVec 8, isfixstr lead = true →
    layout lead = .fixed (rfixstr lead) := by
  intro lead fix
  rw [rfixstr_of_isfixstr lead fix]
  rw [isfixstr_iff, Bool.and_eq_true, decide_eq_true_eq, decide_eq_true_eq] at fix
  unfold layout
  rw [if_neg (by omega), if_neg (by omega), if_neg (by omega), if_pos fix.2]
theorem layout_of_isfixint : ∀ lead : BitVec 8, isfixint lead = true → layout lead = .fixed 0 := by
  intro lead fix
  rw [isfixint_iff, decide_eq_true_eq] at fix
  unfold layout
  rw [if_pos fix]
theorem layout_of_isnfixint : ∀ lead : BitVec 8, isnfixint lead = true → layout lead = .fixed 0 := by
  intro lead fix
  rw [isnfixint_iff, decide_eq_true_eq] at fix
  unfold layout
  rw [if_neg (by omega), if_neg (by omega), if_neg (by omega), if_neg (by omega), if_pos fix]

theorem readBody_exact {data : Bytes} {read : Nat} (size : data.length = read) (tail : Bytes) :
    readBody read (data ++ tail) = .ok (data, tail) := by
  subst size; exact readBody_append data tail

theorem readPrefixed_exact {payload : Bytes} {width : Nat} (size : payload.length = width)
    (tail : Bytes) : readPrefixed width (payload ++ tail) = .ok (getUint payload, tail) := by
  subst size; simp [readPrefixed]

theorem readPrefixed_readBody {width len : Nat} {data : Bytes} (bound : len < 256 ^ width)
    (size : data.length = len) (tail : Bytes) :
    (readPrefixed width (putUint width len ++ (data ++ tail)) >>= fun (read, body) =>
      readBody read body) = .ok (data, tail) := by
  rw [readPrefixed_putUint_of_lt width len bound]
  exact readBody_exact size tail

section Branches

variable {α : Type} {lead : BitVec 8} {rest : Bytes}

theorem settled_fixed {width : Nat} (wellFormed : Objects 1 (lead :: rest))
    (shape : layout lead = .fixed width) : Settled fun tail => readPrefixed width (rest ++ tail) :=
  .inr ⟨_, readPrefixed_exact (objects_fixed wellFormed shape)⟩

theorem settled_lead {a : α} (wellFormed : Objects 1 (lead :: rest)) (shape : layout lead = .fixed 0) :
    Settled fun tail => (Except.ok (a, rest ++ tail) : Except MsgpError _) := by
  rw [List.length_eq_zero.mp (objects_fixed wellFormed shape)]
  exact settled_ok a

theorem settled_sized {width : Nat} (wellFormed : Objects 1 (lead :: rest))
    (shape : layout lead = .sized width 0) :
    Settled fun tail => readPrefixed width (rest ++ tail) >>= fun (read, body) => readBody read body := by
  obtain ⟨len, data, rfl, bound, size⟩ := objects_sized wellFormed shape
  exact .inr ⟨data, fun tail => by
    dsimp only; rw [List.append_assoc]; exact readPrefixed_readBody bound (by simpa using size) tail⟩

theorem settled_if_lead {c : BitVec 8} {yes no : Bytes → Except MsgpError (α × Bytes)}
    (wellFormed : Objects 1 (lead :: rest)) (settledYes : Objects 1 (c :: rest) → Settled yes)
    (settledNo : Settled no) : Settled fun tail => if lead = c then yes tail else no tail :=
  settled_ite (fun same => settledYes (same ▸ wellFormed)) fun _ => settledNo

end Branches

theorem readStringZC_readsWithin : ReadsWithin readStringZC := by
  rintro (_ | ⟨lead, rest⟩) wellFormed
  · exact absurd wellFormed objects_nil
  simp only [List.cons_append, readStringZC.eq_2]
  exact settled_ite (fun fix => .inr ⟨rest, readBody_exact
      (objects_fixed wellFormed (layout_of_isfixstr lead fix))⟩) fun _ =>
    settled_if_lead wellFormed (settled_sized · layout_d9) <|
    settled_if_lead wellFormed (settled_sized · layout_da) <|
    settled_if_lead wellFormed (settled_sized · layout_db) (settled_error _)

theorem readBytesZC_readsWithin : ReadsWithin readBytesZC := by
  rintro (_ | ⟨lead, rest⟩) wellFormed
  · exact absurd wellFormed objects_nil
  simp only [List.cons_append, readBytesZC.eq_2]
  exact settled_if_lead wellFormed (settled_sized · layout_c4) <|
    settled_if_lead wellFormed (settled_sized · layout_c5) <|
    settled_if_lead wellFormed (settled_sized · layout_c6) (settled_error _)

theorem readMapKeyZC_readsWithin : ReadsWithin readMapKeyZC := by
  intro v wellFormed
  rcases readStringZC_readsWithin v wellFormed with ⟨err, str⟩ | ⟨key, str⟩
  · by_cases bin : ∃ expected ctx, err = .typeError expected .bin ctx
    · obtain ⟨expected, ctx, rfl⟩ := bin
      simpa only [readMapKeyZC, str] using readBytesZC_readsWithin v wellFormed
    · refine .inl ⟨err, fun tail => ?_⟩
      simp only [readMapKeyZC, str]
      split
      · next expected ctx same => exact absurd ⟨expected, ctx, Except.error.inj same⟩ bin
      · rfl
  · exact .inr ⟨key, fun tail => by simp only [readMapKeyZC, str]⟩

theorem readUint64Bytes_readsWithin : ReadsWithin readUint64Bytes := by
  rintro (_ | ⟨lead, rest⟩) wellFormed
  · exact absurd wellFormed objects_nil
  simp only [List.cons_append, readUint64Bytes.eq_2]
  exact settled_ite (fun fix => settled_lead wellFormed (layout_of_isfixint lead fix)) fun _ =>
    settled_if_lead wellFormed
      (fun wellFormed => settled_bind (settled_fixed wellFormed layout_d0) (settled_nonNegative 8)) <|
    settled_if_lead wellFormed (settled_fixed · layout_cc) <|
    settled_if_lead wellFormed
      (fun wellFormed => settled_bind (settled_fixed wellFormed layout_d1) (settled_nonNegative 16)) <|
    settled_if_lead wellFormed (settled_fixed · layout_cd) <|
    settled_if_lead wellFormed
      (fun wellFormed => settled_bind (settled_fixed wellFormed layout_d2) (settled_nonNegative 32)) <|
    settled_if_lead wellFormed (settled_fixed · layout_ce) <|
    settled_if_lead wellFormed
      (fun wellFormed => settled_bind (settled_fixed wellFormed layout_d3) (settled_nonNegative 64)) <|
    settled_if_lead wellFormed (settled_fixed · layout_cf) <|
    settled_ite (fun _ => settled_error _) fun _ => settled_error _

theorem readByteBytes_readsWithin : ReadsWithin readByteBytes := fun v wellFormed =>
  settled_bind (readUint64Bytes_readsWithin v wellFormed) fun _ =>
    settled_ite (fun _ => settled_error _) fun _ => settled_ok _

theorem readInt64Bytes_readsWithin : ReadsWithin readInt64Bytes := by
  rintro (_ | ⟨lead, rest⟩) wellFormed
  · exact absurd wellFormed objects_nil
  simp only [List.cons_append, readInt64Bytes.eq_2]
  exact settled_ite (fun fix => settled_lead wellFormed (layout_of_isfixint lead fix)) fun _ =>
    settled_ite (fun nfix => settled_lead wellFormed (layout_of_isnfixint lead nfix)) fun _ =>
    settled_if_lead wellFormed
      (fun wellFormed => settled_map (settled_fixed wellFormed layout_d0) _ fun _ _ => rfl) <|
    settled_if_lead wellFormed
      (fun wellFormed => settled_map (settled_fixed wellFormed layout_cc) _ fun _ _ => rfl) <|
    settled_if_lead wellFormed
      (fun wellFormed => settled_map (settled_fixed wellFormed layout_d1) _ fun _ _ => rfl) <|
    settled_if_lead wellFormed
      (fun wellFormed => settled_map (settled_fixed wellFormed layout_cd) _ fun _ _ => rfl) <|
    settled_if_lead wellFormed
      (fun wellFormed => settled_map (settled_fixed wellFormed layout_d2) _ fun _ _ => rfl) <|
    settled_if_lead wellFormed
      (fun wellFormed => settled_map (settled_fixed wellFormed layout_ce) _ fun _ _ => rfl) <|
    settled_if_lead wellFormed
      (fun wellFormed => settled_map (settled_fixed wellFormed layout_d3) _ fun _ _ => rfl) <|
    settled_if_lead wellFormed
      (fun wellFormed => settled_bind (settled_fixed wellFormed layout_cf) fun _ => by
        dsimp only; exact settled_ite (fun _ => settled_error _) fun _ => settled_ok _)
      (settled_error _)

end Msgp
