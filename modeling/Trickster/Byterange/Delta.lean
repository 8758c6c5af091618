import Trickster.Byterange.Normalize

namespace Byterange

namespace Range

/-- Modelled from the spec: a suffix range `{-1, n}` resolved to the last `n` bytes of an object of
`contentLength` bytes. With the length unknown (`-1`) it resolves to no byte of the object, where
the spec says `Error`: `QueryCache` takes `CalculateDelta`'s one result (line 135), so no error
could reach it. -/
def resolve (contentLength : Int) (r : Range) : Range :=
  if r.start = -1 then ⟨contentLength - r.end, contentLength - 1⟩ else r

/-- Modelled from the spec: a wanted range clamped to the object, when its length is known. -/
def clamp (contentLength : Int) (r : Range) : Range :=
  if 0 ≤ contentLength then ⟨max 0 r.start, min r.end (contentLength - 1)⟩ else ⟨max 0 r.start, r.end⟩

def subtract (r s : Range) : Ranges :=
  [⟨r.start, min r.end (s.start - 1)⟩, ⟨max r.start (s.end + 1), r.end⟩]

theorem covers_subtract (r s : Range) (p : Int) :
    Byterange.Covers (r.subtract s) p ↔ r.Covers p ∧ ¬s.Covers p := by
  simp only [subtract, covers_cons, covers_nil, Covers, or_false, le_min_iff, max_le_iff]
  omega

end Range

def subtractAll (haves : Ranges) (r : Range) : Ranges :=
  haves.foldl (fun pieces s => pieces.flatMap (·.subtract s)) [r]

/-- Modelled from the spec: `Ranges.CalculateDelta`. Suffix ranges are resolved against the
content length and wanted ranges clamped to it; each wanted range then loses the stored bytes,
left to right, and the pieces are normalized. -/
def calculateDelta (rs haves : Ranges) (contentLength : Int) : Ranges :=
  normalize ((rs.map fun r => (r.resolve contentLength).clamp contentLength).flatMap
    (subtractAll (haves.map (Range.resolve contentLength))))

/-- The bytes a wanted set asks for, once resolved and clamped as `CalculateDelta` does. -/
def Wanted (rs : Ranges) (contentLength : Int) (p : Int) : Prop :=
  Covers (rs.map fun r => (r.resolve contentLength).clamp contentLength) p

theorem covers_flatMap (f : Range → Ranges) (rs : Ranges) (p : Int) :
    Covers (rs.flatMap f) p ↔ ∃ r ∈ rs, Covers (f r) p := by
  induction rs with
  | nil => simp
  | cons r rs ih => simp [List.flatMap_cons, ih]

theorem covers_foldl_subtract (haves pieces : Ranges) (p : Int) :
    Covers (haves.foldl (fun pieces s => pieces.flatMap (·.subtract s)) pieces) p ↔
      Covers pieces p ∧ ¬Covers haves p := by
  induction haves generalizing pieces with
  | nil => simp
  | cons s haves ih =>
    rw [List.foldl_cons, ih, covers_flatMap, covers_cons]
    simp only [Range.covers_subtract]
    constructor
    · rintro ⟨⟨r, mem, covered, notS⟩, notRest⟩
      exact ⟨⟨r, mem, covered⟩, not_or.mpr ⟨notS, notRest⟩⟩
    · rintro ⟨⟨r, mem, covered⟩, notEither⟩
      exact ⟨⟨r, mem, covered, (not_or.mp notEither).1⟩, (not_or.mp notEither).2⟩

theorem covers_subtractAll (haves : Ranges) (r : Range) (p : Int) :
    Covers (subtractAll haves r) p ↔ r.Covers p ∧ ¬Covers haves p := by
  rw [subtractAll, covers_foldl_subtract]
  simp

theorem covers_calculateDelta (rs haves : Ranges) (contentLength p : Int) :
    Covers (calculateDelta rs haves contentLength) p ↔
      Wanted rs contentLength p ∧ ¬Covers (haves.map (Range.resolve contentLength)) p := by
  rw [calculateDelta, covers_normalize, covers_flatMap, Wanted, Covers]
  simp only [covers_subtractAll]
  constructor
  · rintro ⟨r, mem, covered, notStored⟩
    exact ⟨⟨r, mem, covered⟩, notStored⟩
  · rintro ⟨⟨r, mem, covered⟩, notStored⟩
    exact ⟨r, mem, covered, notStored⟩

end Byterange
