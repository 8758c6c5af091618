import Mathlib

namespace Byterange

/-- Modelled from the spec: `byterange.Range`, whose package is not among this repository's
sources. Both ends are inclusive; `start = -1` is the suffix range of the last `end` bytes. -/
structure Range where
  start : Int
  «end» : Int
  deriving DecidableEq, Repr

/-- Modelled from the spec: `byterange.Ranges`. -/
abbrev Ranges := List Range

namespace Range

def Covers (r : Range) (p : Int) : Prop := r.start ≤ p ∧ p ≤ r.end

instance (r : Range) (p : Int) : Decidable (r.Covers p) := inferInstanceAs (Decidable (_ ∧ _))

def StartLE (a b : Range) : Prop := a.start ≤ b.start

instance : DecidableRel StartLE := fun a b => inferInstanceAs (Decidable (a.start ≤ b.start))

instance : IsTotal Range StartLE := ⟨fun a b => le_total a.start b.start⟩

instance : IsTrans Range StartLE := ⟨fun _ _ _ => le_trans⟩

end Range

def Covers (rs : Ranges) (p : Int) : Prop := ∃ r ∈ rs, r.Covers p

instance (rs : Ranges) (p : Int) : Decidable (Covers rs p) :=
  inferInstanceAs (Decidable (∃ r ∈ rs, r.Covers p))

@[simp] theorem covers_nil (p : Int) : ¬Covers [] p := by simp [Covers]

@[simp] theorem covers_cons (r : Range) (rs : Ranges) (p : Int) :
    Covers (r :: rs) p ↔ r.Covers p ∨ Covers rs p := by simp [Covers]

@[simp] theorem covers_append (rs ss : Ranges) (p : Int) :
    Covers (rs ++ ss) p ↔ Covers rs p ∨ Covers ss p := by simp [Covers, or_and_right, exists_or]

theorem covers_perm {rs ss : Ranges} (perm : rs.Perm ss) (p : Int) : Covers rs p ↔ Covers ss p := by
  simp only [Covers, perm.mem_iff]

theorem covers_bounded (rs : Ranges) : ∃ b, ∀ p, b < p → ¬Covers rs p := by
  induction rs with
  | nil => exact ⟨0, fun p _ => covers_nil p⟩
  | cons r rs ih =>
    obtain ⟨b, past⟩ := ih
    refine ⟨max b r.end, fun p above => ?_⟩
    rw [covers_cons, not_or, Range.Covers]
    exact ⟨by omega, past p (lt_of_le_of_lt (le_max_left _ _) above)⟩

def Canonical : Ranges → Prop
  | [] => True
  | r :: rest => r.start ≤ r.end ∧ (∀ s ∈ rest.head?, r.end + 1 < s.start) ∧ Canonical rest

def coalesceFrom (current : Range) : Ranges → Ranges
  | [] => [current]
  | next :: rest =>
    if next.start ≤ current.end + 1 then coalesceFrom ⟨current.start, max current.end next.end⟩ rest
    else current :: coalesceFrom next rest

def coalesce : Ranges → Ranges
  | [] => []
  | r :: rest => coalesceFrom r rest

/-- Modelled from the spec: normalization drops ranges that hold no byte, sorts by `start` and
merges ranges that overlap or touch. -/
def normalize (rs : Ranges) : Ranges :=
  coalesce ((rs.filter fun r => decide (r.start ≤ r.end)).insertionSort Range.StartLE)

/-- Modelled from the spec: `Ranges.Equal`, sequence equality after normalization. -/
def equal (rs ss : Ranges) : Bool := normalize rs == normalize ss

theorem covers_coalesceFrom (current : Range) (rest : Ranges)
    (sorted : (current :: rest).Sorted Range.StartLE) (p : Int) :
    Covers (coalesceFrom current rest) p ↔ Covers (current :: rest) p := by
  induction rest generalizing current with
  | nil => rfl
  | cons next rest ih =>
    have first : current.start ≤ next.start := (List.sorted_cons.mp sorted).1 next (by simp)
    have later : (next :: rest).Sorted Range.StartLE := (List.sorted_cons.mp sorted).2
    rw [coalesceFrom]
    split_ifs with touching
    · have merged : (⟨current.start, max current.end next.end⟩ :: rest).Sorted Range.StartLE :=
        List.sorted_cons.mpr ⟨fun s mem => le_trans first
          ((List.sorted_cons.mp later).1 s mem), (List.sorted_cons.mp later).2⟩
      have union : (current.start ≤ p ∧ p ≤ max current.end next.end) ↔
          current.Covers p ∨ next.Covers p := by
        simp only [Range.Covers]; omega
      simp only [ih _ merged, covers_cons, Range.Covers] at union ⊢
      rw [union, or_assoc]
    · simp only [covers_cons, ih next later]

theorem canonical_head_le {r : Range} {rest : Ranges} (canonical : Canonical (r :: rest)) {p : Int}
    (covered : Covers (r :: rest) p) : r.start ≤ p := by
  induction rest generalizing r with
  | nil => simp [Range.Covers] at covered; omega
  | cons s rest ih =>
    obtain ⟨nonempty, gap, next⟩ := canonical
    have past : r.end + 1 < s.start := gap s rfl
    rcases (covers_cons _ _ _).mp covered with here | there
    · exact here.1
    · have := ih next there
      omega

theorem canonical_tail_after {r : Range} {rest : Ranges} (canonical : Canonical (r :: rest))
    {p : Int} (covered : Covers rest p) : r.end + 1 < p := by
  cases rest with
  | nil => simp at covered
  | cons s rest =>
    have past : r.end + 1 < s.start := canonical.2.1 s rfl
    have := canonical_head_le canonical.2.2 covered
    omega

theorem canonical_covers_head {r : Range} {rest : Ranges} (canonical : Canonical (r :: rest)) :
    Covers (r :: rest) r.start :=
  (covers_cons _ _ _).mpr (.inl ⟨le_refl _, canonical.1⟩)

theorem covers_tail_iff {r : Range} {rest : Ranges} (canonical : Canonical (r :: rest)) (p : Int) :
    Covers rest p ↔ Covers (r :: rest) p ∧ r.end < p := by
  constructor
  · intro covered
    have := canonical_tail_after canonical covered
    exact ⟨(covers_cons _ _ _).mpr (.inr covered), by omega⟩
  · rintro ⟨covered, past⟩
    rcases (covers_cons _ _ _).mp covered with here | there
    · exact absurd here.2 (by omega)
    · exact there

theorem canonical_unique : ∀ {rs ss : Ranges}, Canonical rs → Canonical ss →
    (∀ p, Covers rs p ↔ Covers ss p) → rs = ss
  | [], [], _, _, _ => rfl
  | [], s :: _, _, canonical, same => absurd ((same _).mpr (canonical_covers_head canonical)) (by simp)
  | r :: _, [], canonical, _, same => absurd ((same _).mp (canonical_covers_head canonical)) (by simp)
  | r :: rest, s :: others, left, right, same => by
    have starts : r.start = s.start := le_antisymm
      (canonical_head_le left ((same _).mpr (canonical_covers_head right)))
      (canonical_head_le right ((same _).mp (canonical_covers_head left)))
    have ends : r.end = s.end := by
      by_contra differ
      rcases lt_or_gt_of_ne differ with shorter | longer
      · have inS : Covers (s :: others) (r.end + 1) :=
          (covers_cons _ _ _).mpr (.inl ⟨by have := left.1; omega, by omega⟩)
        have := (covers_tail_iff left _).mpr ⟨(same _).mpr inS, by omega⟩
        have := canonical_tail_after left this
        omega
      · have inR : Covers (r :: rest) (s.end + 1) :=
          (covers_cons _ _ _).mpr (.inl ⟨by have := right.1; omega, by omega⟩)
        have := (covers_tail_iff right _).mpr ⟨(same _).mp inR, by omega⟩
        have := canonical_tail_after right this
        omega
    have heads : r = s := by cases r; cases s; simp_all
    subst heads
    have tails : ∀ p, Covers rest p ↔ Covers others p := fun p => by
      rw [covers_tail_iff left, covers_tail_iff right, same]
    rw [canonical_unique left.2.2 right.2.2 tails]

theorem coalesceFrom_head (current : Range) (rest : Ranges) :
    ∃ last tail, coalesceFrom current rest = ⟨current.start, last⟩ :: tail ∧ current.end ≤ last := by
  induction rest generalizing current with
  | nil => exact ⟨current.end, [], rfl, le_refl _⟩
  | cons next rest ih =>
    rw [coalesceFrom]
    split_ifs
    · obtain ⟨last, tail, eq, grows⟩ := ih ⟨current.start, max current.end next.end⟩
      exact ⟨last, tail, eq, le_trans (le_max_left _ _) grows⟩
    · exact ⟨current.end, _, rfl, le_refl _⟩

theorem canonical_coalesceFrom (current : Range) (rest : Ranges)
    (sorted : (current :: rest).Sorted Range.StartLE)
    (nonempty : ∀ r ∈ current :: rest, r.start ≤ r.end) : Canonical (coalesceFrom current rest) := by
  induction rest generalizing current with
  | nil => exact ⟨nonempty current (by simp), by simp, trivial⟩
  | cons next rest ih =>
    have first : current.start ≤ next.start := (List.sorted_cons.mp sorted).1 next (by simp)
    have later : (next :: rest).Sorted Range.StartLE := (List.sorted_cons.mp sorted).2
    rw [coalesceFrom]
    split_ifs with touching
    · apply ih
      · exact List.sorted_cons.mpr ⟨fun s mem => le_trans first
          ((List.sorted_cons.mp later).1 s mem), (List.sorted_cons.mp later).2⟩
      · intro r mem
        rcases List.mem_cons.mp mem with rfl | mem
        · exact le_trans (nonempty current (by simp)) (le_max_left _ _)
        · exact nonempty r (by simp [mem])
    · obtain ⟨last, tail, eq, _⟩ := coalesceFrom_head next rest
      refine ⟨nonempty current (by simp), ?_, ih next later fun r mem => nonempty r (by simp [mem])⟩
      rw [eq]
      simp only [Option.mem_def, List.head?_cons, Option.some.injEq, forall_eq']
      omega

theorem normalize_eq (rs : Ranges) :
    normalize rs = coalesce ((rs.filter fun r => decide (r.start ≤ r.end)).insertionSort Range.StartLE) :=
  rfl

theorem covers_sorted (rs : Ranges) (p : Int) :
    Covers ((rs.filter fun r => decide (r.start ≤ r.end)).insertionSort Range.StartLE) p ↔
      Covers rs p := by
  rw [covers_perm (List.perm_insertionSort _ _)]
  simp only [Covers, List.mem_filter, decide_eq_true_eq, Range.Covers]
  constructor
  · rintro ⟨r, ⟨mem, _⟩, covered⟩
    exact ⟨r, mem, covered⟩
  · rintro ⟨r, mem, covered⟩
    exact ⟨r, ⟨mem, le_trans covered.1 covered.2⟩, covered⟩

@[simp] theorem covers_normalize (rs : Ranges) (p : Int) : Covers (normalize rs) p ↔ Covers rs p := by
  rw [normalize_eq, ← covers_sorted rs p]
  generalize sorted : List.insertionSort Range.StartLE _ = sortedList
  have order : sortedList.Sorted Range.StartLE := sorted ▸ List.sorted_insertionSort _ _
  cases sortedList with
  | nil => rfl
  | cons r rest => exact covers_coalesceFrom r rest order p

theorem canonical_normalize (rs : Ranges) : Canonical (normalize rs) := by
  rw [normalize_eq]
  have nonempty : ∀ r ∈ (rs.filter fun r => decide (r.start ≤ r.end)).insertionSort Range.StartLE,
      r.start ≤ r.end := fun r mem => by
    simpa using (List.mem_filter.mp ((List.perm_insertionSort _ _).mem_iff.mp mem)).2
  generalize sorted : List.insertionSort Range.StartLE _ = sortedList at nonempty
  have order : sortedList.Sorted Range.StartLE := sorted ▸ List.sorted_insertionSort _ _
  cases sortedList with
  | nil => trivial
  | cons r rest => exact canonical_coalesceFrom r rest order nonempty

theorem equal_iff (rs ss : Ranges) : equal rs ss = true ↔ ∀ p, Covers rs p ↔ Covers ss p := by
  rw [equal, beq_iff_eq]
  constructor
  · intro same p
    rw [← covers_normalize rs, same, covers_normalize]
  · intro same
    exact canonical_unique (canonical_normalize rs) (canonical_normalize ss) fun p => by
      rw [covers_normalize, covers_normalize, same]

theorem normalize_eq_nil_iff (rs : Ranges) : normalize rs = [] ↔ ∀ p, ¬Covers rs p := by
  constructor
  · intro empty p covered
    rw [← covers_normalize, empty] at covered
    exact covers_nil p covered
  · intro none
    have canonical := canonical_normalize rs
    cases normalized : normalize rs with
    | nil => rfl
    | cons r rest =>
      rw [normalized] at canonical
      have := canonical_covers_head canonical
      rw [← normalized, covers_normalize] at this
      exact absurd this (none _)

end Byterange
