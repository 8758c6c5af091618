import Trickster.Engines.Store

namespace Engines

open Msgp Byterange

variable {σ : Type}

/-- The store's entry for `key` is a hit that yields `doc`: a reference to it in the heap, or bytes
that decode to it. -/
inductive HitDecodes (x : Collaborators) (c : Cache σ) (s : σ) (heap : Heap) (key : String) :
    HTTPDocument → Prop
  | reference {pointer : Nat} : c.cacheType = "memory" →
      c.retrieveReference s key true = (.document (some pointer), .hit, none) →
      pointer < heap.length → HitDecodes x c s heap key (heap.read pointer)
  | bytes {bytes : Bytes} {decoded : HTTPDocument} : c.cacheType ≠ "memory" →
      c.retrieve s key true = (bytes, .hit, none) →
      x.unmarshalMsg {} (inflatePayload x bytes) = (decoded, none) →
      HitDecodes x c s heap key decoded

/-- The bytes the cache holds for a document: every byte when it holds the whole body. -/
def Have (doc : HTTPDocument) (p : Int) : Prop :=
  doc.ranges = [] ∨ Covers (doc.ranges.map (Range.resolve doc.contentLength)) p

/-- The bytes a request wants: those of its ranges as `CalculateDelta` resolves and clamps them,
or the whole object when it names none. -/
def Want (doc : HTTPDocument) (ranges : Ranges) (p : Int) : Prop :=
  if ranges = [] then 0 ≤ p ∧ p < doc.contentLength else Wanted ranges doc.contentLength p

/-- The ranges `QueryCache` compares the delta with: the request, or the whole object on a
fulfillment. -/
def requested (doc : HTTPDocument) (ranges : Ranges) : Ranges :=
  if doc.ranges ≠ [] ∧ ranges = [] then [⟨0, doc.contentLength - 1⟩] else ranges

theorem hitDecodes_queryCache {x : Collaborators} {c : Cache σ} {s : σ} {heap : Heap}
    {key : String} {doc : HTTPDocument} (found : HitDecodes x c s heap key doc) :
    ∃ heap₁ d, heap₁.read d = doc ∧ ∀ ranges,
      queryCache x c s heap key ranges = queryCacheRanges heap₁ (some d) .hit ranges := by
  cases found with
  | @reference pointer memory retrieved bound =>
    exact ⟨_, pointer, Heap.read_alloc_old _ bound,
      fun ranges => queryCache_memory_document x c s heap key ranges memory retrieved⟩
  | bytes other retrieved decoded =>
    exact ⟨_, heap.length, Heap.read_write_self _ (by simp),
      fun ranges => queryCache_bytes_decoded x c s heap key ranges other retrieved decoded⟩

theorem wanted_requested {doc : HTTPDocument} {ranges : Ranges} (stored : doc.ranges ≠ []) (p : Int) :
    Wanted (requested doc ranges) doc.contentLength p ↔ Want doc ranges p := by
  by_cases whole : ranges = []
  · simp only [Wanted, Range.clamp, Range.resolve, Int.reduceNeg, requested, ne_eq, stored, not_false_eq_true,
      whole, and_self, ↓reduceIte, List.map_cons, zero_eq_neg, one_ne_zero, max_self, min_self, ite_self,
      List.map_nil, covers_cons, Range.Covers, covers_nil, or_false, Want, and_congr_right_iff]
    omega
  · simp [requested, Want, whole]

theorem covers_missing {doc : HTTPDocument} {ranges : Ranges} (stored : doc.ranges ≠ []) (p : Int) :
    Covers (calculateDelta (requested doc ranges) doc.ranges doc.contentLength) p ↔
      Want doc ranges p ∧ ¬Have doc p := by
  rw [covers_calculateDelta, wanted_requested stored, Have]
  simp [stored]

theorem exists_not_have {doc : HTTPDocument} (stored : doc.ranges ≠ []) : ∃ p, ¬Have doc p := by
  obtain ⟨b, past⟩ := covers_bounded (doc.ranges.map (Range.resolve doc.contentLength))
  exact ⟨b + 1, fun held => past _ (by omega) (held.resolve_left stored)⟩

theorem calculateDelta_eq_nil_iff (rs haves : Ranges) (contentLength : Int) :
    calculateDelta rs haves contentLength = [] ↔ ∀ p, ¬Covers (calculateDelta rs haves contentLength) p := by
  constructor
  · intro empty p
    simp [empty]
  · intro none
    rw [calculateDelta, normalize_eq_nil_iff]
    intro p covered
    exact none p ((covers_normalize _ p).mpr covered)

/-- The status `QueryCache` gives a delta computed against the ranges it asked for. -/
def rangeStatus (delta requested : Ranges) (lookupStatus : LookupStatus) : LookupStatus :=
  if delta ≠ [] then (if equal delta requested then .rangeMiss else .partialHit) else lookupStatus

theorem queryCacheRanges_full {heap : Heap} {d : Nat} (lookupStatus : LookupStatus) (ranges : Ranges)
    (full : (heap.read d).ranges = []) : ∃ heap',
      queryCacheRanges heap (some d) lookupStatus ranges = some (heap', ⟨some d, lookupStatus, [], none⟩) := by
  simp [queryCacheRanges_some, full]

theorem queryCacheRanges_stored {heap : Heap} {d : Nat} (lookupStatus : LookupStatus) (ranges : Ranges)
    (stored : (heap.read d).ranges ≠ []) : ∃ heap',
      let delta := calculateDelta (requested (heap.read d) ranges) (heap.read d).ranges
        (heap.read d).contentLength
      queryCacheRanges heap (some d) lookupStatus ranges = some (heap',
        ⟨some d, rangeStatus delta (requested (heap.read d) ranges) lookupStatus, delta, none⟩) := by
  simp [queryCacheRanges_some, stored, requested, rangeStatus]

theorem rangeStatus_eq_hit (delta requested : Ranges) :
    rangeStatus delta requested .hit = .hit ↔ delta = [] := by
  unfold rangeStatus; split_ifs <;> simp_all

theorem rangeStatus_eq_rangeMiss (delta requested : Ranges) :
    rangeStatus delta requested .hit = .rangeMiss ↔ delta ≠ [] ∧ equal delta requested = true := by
  unfold rangeStatus; split_ifs <;> simp_all

theorem rangeStatus_eq_partialHit (delta requested : Ranges) :
    rangeStatus delta requested .hit = .partialHit ↔ delta ≠ [] ∧ equal delta requested = false := by
  unfold rangeStatus; split_ifs <;> simp_all

/-- The status and the missing set of a lookup that found a document: the missing set is the
wanted bytes the cache does not hold; a hit means nothing is missing; a range miss means what is
missing is the whole request as written; otherwise the hit is partial. A whole-body request for a
document of unknown length that holds ranges is a hit with nothing missing: line 131 inflates it
to the inverted range `{0, -2}`. -/
theorem queryCache_classifies_coverage (x : Collaborators) (c : Cache σ) (s : σ) (heap : Heap)
    (key : String) (doc : HTTPDocument) (ranges : Ranges) (found : HitDecodes x c s heap key doc) :
    ∃ heap' r, queryCache x c s heap key ranges = some (heap', r) ∧ r.err = none ∧
      (ranges = [] → doc.ranges ≠ [] → doc.contentLength < 0 →
        r.status = .hit ∧ r.missing = [] ∧ ∃ p, ¬Have doc p) ∧
      (∀ p, Covers r.missing p ↔ Want doc ranges p ∧ ¬Have doc p) ∧
      (r.status = .hit ↔ ∀ p, Want doc ranges p → Have doc p) ∧
      (r.status = .rangeMiss ↔ (∃ p, Want doc ranges p ∧ ¬Have doc p) ∧
        ∀ p, Want doc ranges p ∧ ¬Have doc p ↔ Covers (requested doc ranges) p) ∧
      (r.status = .partialHit ↔ (∃ p, Want doc ranges p ∧ ¬Have doc p) ∧
        ¬∀ p, Want doc ranges p ∧ ¬Have doc p ↔ Covers (requested doc ranges) p) := by
  obtain ⟨heap₁, d, read, lookup⟩ := hitDecodes_queryCache found
  subst read
  by_cases stored : (heap₁.read d).ranges = []
  · obtain ⟨heap', result⟩ := queryCacheRanges_full .hit ranges stored
    have holds : ∀ p, Have (heap₁.read d) p := fun p => .inl stored
    exact ⟨heap', _, by rw [lookup, result], rfl, fun _ held => absurd stored held, by simp [holds]⟩
  · obtain ⟨heap', result⟩ := queryCacheRanges_stored .hit ranges stored
    have missing := @covers_missing (heap₁.read d) ranges stored
    have empty := (calculateDelta_eq_nil_iff _ _ _).trans (forall_congr' fun p => not_congr (missing p))
    have same := (equal_iff _ (requested (heap₁.read d) ranges)).trans
      (forall_congr' fun p => iff_congr (missing p) Iff.rfl)
    have nothing (whole : ranges = []) (negative : (heap₁.read d).contentLength < 0) :=
      empty.mpr fun p ⟨wanted, _⟩ => by rw [Want, if_pos whole] at wanted; omega
    rw [lookup, result]
    refine ⟨heap', _, rfl, ?_⟩
    dsimp only
    refine ⟨rfl, fun whole _ negative =>
      ⟨(rangeStatus_eq_hit _ _).mpr (nothing whole negative), nothing whole negative, exists_not_have stored⟩,
      missing, ?_⟩
    simp only [rangeStatus_eq_hit, rangeStatus_eq_rangeMiss, rangeStatus_eq_partialHit, empty,
      ← Bool.not_eq_true, same, Ne, not_and, not_not, not_forall, Classical.not_imp, exists_prop, iff_self, and_self]

theorem queryCache_classifies_unknown_length :
    let doc : HTTPDocument := { contentLength := -1, ranges := [⟨0, 4⟩] }
    let s : MapStore := { objects := [("k", .document (some 0))] }
    HitDecodes referenceOnly (mapCache "memory") s [doc] "k" doc ∧
      ∃ heap' r, queryCache referenceOnly (mapCache "memory") s [doc] "k" [] = some (heap', r) ∧
        r.err = none ∧
        ([] = ([] : Ranges) → doc.ranges ≠ [] → doc.contentLength < 0 →
          r.status = .hit ∧ r.missing = [] ∧ ∃ p, ¬Have doc p) ∧
        (∀ p, Covers r.missing p ↔ Want doc [] p ∧ ¬Have doc p) ∧
        (r.status = .hit ↔ ∀ p, Want doc [] p → Have doc p) ∧
        (r.status = .rangeMiss ↔ (∃ p, Want doc [] p ∧ ¬Have doc p) ∧
          ∀ p, Want doc [] p ∧ ¬Have doc p ↔ Covers (requested doc []) p) ∧
        (r.status = .partialHit ↔ (∃ p, Want doc [] p ∧ ¬Have doc p) ∧
          ¬∀ p, Want doc [] p ∧ ¬Have doc p ↔ Covers (requested doc []) p) :=
  have found : HitDecodes referenceOnly (mapCache "memory") { objects := [("k", .document (some 0))] }
      [{ contentLength := -1, ranges := [⟨0, 4⟩] }] "k" { contentLength := -1, ranges := [⟨0, 4⟩] } :=
    @HitDecodes.reference _ _ _ _ _ _ 0 rfl rfl (by decide)
  ⟨found, queryCache_classifies_coverage _ _ _ _ _ _ _ found⟩

/- A request reaching past the end of the object, for bytes the cache does not hold, is a partial
hit: the delta is clamped to the object and so differs from the request. -/
example : ∃ heap', queryCache referenceOnly (mapCache "memory") { objects := [("k", .document (some 0))] }
    [{ contentLength := 100, ranges := [⟨0, 9⟩] }] "k" [⟨90, 199⟩] =
      some (heap', ⟨some 0, .partialHit, [⟨90, 99⟩], none⟩) :=
  ⟨_, rfl⟩

end Engines
