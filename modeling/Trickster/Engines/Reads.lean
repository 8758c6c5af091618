import Trickster.Engines.Store

namespace Engines

open Msgp Byterange

variable {σ : Type}

theorem queryCacheRanges_ne_none (heap : Heap) (d : Nat) (lookupStatus : LookupStatus)
    (ranges : Ranges) : queryCacheRanges heap (some d) lookupStatus ranges ≠ none := by
  simp [queryCacheRanges_some]

/-- `QueryCache` panics exactly when a reference store hits with a value that is not a non-nil
`*HTTPDocument`: the type assertion at line 73 discards its `ok`, and line 125 dereferences the
nil it leaves. -/
theorem queryCache_eq_none_iff (x : Collaborators) (c : Cache σ) (s : σ) (heap : Heap) (key : String)
    (ranges : Ranges) :
    queryCache x c s heap key ranges = none ↔ c.cacheType = "memory" ∧
      (c.retrieveReference s key true = (.other, .hit, none) ∨
        c.retrieveReference s key true = (.document none, .hit, none)) := by
  by_cases memory : c.cacheType = "memory"
  · rcases found : c.retrieveReference s key true with ⟨ifc, lookupStatus, err⟩
    by_cases missed : err.isSome ∨ lookupStatus ≠ .hit
    · rw [queryCache_memory_missed x c s heap key ranges memory found missed]
      rcases missed with some | other <;> cases err <;> simp_all
    · obtain ⟨rfl, rfl⟩ : err = none ∧ lookupStatus = .hit := by
        cases err <;> simp_all
      rcases ifc with _ | (_ | d) | _
      · simp [queryCache_memory_nil x c s heap key ranges memory found]
      · simp [queryCache_memory_document x c s heap key ranges memory found, memory, queryCacheRanges]
      · simp [queryCache_memory_document x c s heap key ranges memory found, queryCacheRanges_ne_none]
      · simp [queryCache_memory_other x c s heap key ranges memory found, memory]
  · simp only [memory, false_and, iff_false]
    rcases found : c.retrieve s key true with ⟨bytes, lookupStatus, err⟩
    by_cases missed : err.isSome ∨ lookupStatus ≠ .hit
    · simp [queryCache_bytes_missed x c s heap key ranges memory found missed]
    · obtain ⟨rfl, rfl⟩ : err = none ∧ lookupStatus = .hit := by
        cases err <;> simp_all
      rcases decoded : x.unmarshalMsg {} (inflatePayload x bytes) with ⟨decoded, failure⟩
      cases failure with
      | none => simp [queryCache_bytes_decoded x c s heap key ranges memory found decoded,
          queryCacheRanges_ne_none]
      | some err => simp [queryCache_bytes_undecoded x c s heap key ranges memory found decoded]

theorem queryCache_panics_on_foreign_reference (x : Collaborators) (c : Cache σ) (s : σ) (heap : Heap)
    (key : String) (ranges : Ranges) {ifc : Reference} (memory : c.cacheType = "memory")
    (found : c.retrieveReference s key true = (ifc, .hit, none))
    (foreign : ifc = .other ∨ ifc = .document none) :
    queryCache x c s heap key ranges = none :=
  (queryCache_eq_none_iff x c s heap key ranges).mpr ⟨memory, by
    rcases foreign with rfl | rfl
    exacts [.inl found, .inr found]⟩

theorem queryCache_panics_on_string_reference :
    (mapCache "memory").cacheType = "memory" ∧
      (mapCache "memory").retrieveReference { objects := [("k", .other)] } "k" true =
        (.other, .hit, none) ∧
      queryCache referenceOnly (mapCache "memory") { objects := [("k", .other)] } [] "k" [⟨0, 9⟩] = none :=
  ⟨rfl, rfl, queryCache_panics_on_foreign_reference _ _ _ _ _ _ rfl rfl (.inl rfl)⟩

/-- A byte store's entry that fails to decode is reported as a `KeyMiss` carrying the document as
far as the decoder filled it. -/
theorem queryCache_keyMiss_keeps_decoded (x : Collaborators) (c : Cache σ) (s : σ) (heap : Heap)
    (key : String) (ranges : Ranges) {bytes : Bytes} {decoded : HTTPDocument} {err : MsgpError}
    (other : c.cacheType ≠ "memory") (found : c.retrieve s key true = (bytes, .hit, none))
    (failed : x.unmarshalMsg {} (inflatePayload x bytes) = (decoded, some err)) :
    ∃ heap', queryCache x c s heap key ranges =
        some (heap', ⟨some heap.length, .keyMiss, ranges, some (.msgp err)⟩) ∧
      heap'.read heap.length = decoded :=
  ⟨_, queryCache_bytes_undecoded x c s heap key ranges other found failed,
    Heap.read_write_self _ (by simp)⟩

theorem queryCache_keyMiss_keeps_status :
    let payload : Bytes := [0x82, 0xa6] ++ ascii "status" ++ [0xa6] ++ ascii "200 OK"
    let x : Collaborators :=
      { referenceOnly with
        unmarshalMsg := fun d bts =>
          if bts = payload then ({ d with status := "200 OK" }, some .shortBytes) else (d, some .shortBytes) }
    let s : MapStore := { blobs := [("k", 0x00 :: payload)] }
    (mapCache "bytes").cacheType ≠ "memory" ∧
      (mapCache "bytes").retrieve s "k" true = (0x00 :: payload, .hit, none) ∧
      x.unmarshalMsg {} (inflatePayload x (0x00 :: payload)) = ({ status := "200 OK" }, some .shortBytes) ∧
      ∃ heap', queryCache x (mapCache "bytes") s [] "k" [] =
          some (heap', ⟨some 0, .keyMiss, [], some (.msgp .shortBytes)⟩) ∧
        heap'.read 0 = { status := "200 OK" } :=
  ⟨by decide, rfl, by simp [inflatePayload],
    queryCache_keyMiss_keeps_decoded _ _ _ [] _ _ (by decide) rfl (by simp [inflatePayload])⟩

/-- A read through a reference store writes the fulfillment flag into the stored document itself,
and touches no other cell but the fresh one it allocates. -/
theorem queryCache_writes_stored_document (x : Collaborators) (c : Cache σ) (s : σ) (heap : Heap)
    (key : String) (ranges : Ranges) {d : Nat} (memory : c.cacheType = "memory")
    (found : c.retrieveReference s key true = (.document (some d), .hit, none)) :
    ∃ r, queryCache x c s heap key ranges =
      some (((heap.alloc {}).1.write d { (heap.alloc {}).1.read d with
        isFulfillment := decide (((heap.alloc {}).1.read d).ranges ≠ [] ∧ ranges = []) }), r) := by
  rw [queryCache_memory_document x c s heap key ranges memory found, queryCacheRanges_some]
  exact ⟨_, rfl⟩

theorem queryCache_flips_shared_fulfillment :
    let doc : HTTPDocument := { contentLength := 10, ranges := [⟨0, 4⟩] }
    let s : MapStore := { objects := [("k", .document (some 0))] }
    (mapCache "memory").cacheType = "memory" ∧
      (mapCache "memory").retrieveReference s "k" true = (.document (some 0), .hit, none) ∧
      (∃ r, queryCache referenceOnly (mapCache "memory") s [doc] "k" [] =
        some ([{ doc with isFulfillment := true }, {}], r)) ∧
      ∃ r, queryCache referenceOnly (mapCache "memory") s [{ doc with isFulfillment := true }, {}] "k"
        [⟨5, 9⟩] = some ([doc, {}, {}], r) :=
  have first := @queryCache_writes_stored_document _ referenceOnly (mapCache "memory")
    { objects := [("k", .document (some 0))] } [{ contentLength := 10, ranges := [⟨0, 4⟩] }] "k" []
    0 rfl rfl
  have second := @queryCache_writes_stored_document _ referenceOnly (mapCache "memory")
    { objects := [("k", .document (some 0))] }
    [{ contentLength := 10, ranges := [⟨0, 4⟩], isFulfillment := true }, {}] "k" [⟨5, 9⟩] 0 rfl rfl
  ⟨rfl, rfl, first, second⟩

/-- Every miss but one returns the empty document it allocated, and a `KeyMiss` asks for every
wanted range: the exception is a byte store's entry that fails to decode, whose miss carries the
document as far as the decoder filled it. -/
theorem queryCache_miss_empty_unless_undecoded (x : Collaborators) (c : Cache σ) (s : σ)
    (heap : Heap) (key : String) (ranges : Ranges) {heap' : Heap} {r : Lookup}
    (result : queryCache x c s heap key ranges = some (heap', r)) :
    (r.status = .keyMiss → r.missing = ranges) ∧
      (r.err.isSome ∨ r.status = .keyMiss ∨ r.status = .error →
        heap'.read heap.length = {} ∧ r.document = some heap.length ∨
        c.cacheType ≠ "memory" ∧ ∃ bytes decoded err, c.retrieve s key true = (bytes, .hit, none) ∧
          x.unmarshalMsg {} (inflatePayload x bytes) = (decoded, some err) ∧
          heap'.read heap.length = decoded ∧ r.document = some heap.length) := by
  rcases queryCache_some x c s heap key ranges result with ⟨rfl, lookupStatus, err, rfl⟩ |
    ⟨heap₁, d, classify⟩ | ⟨memory, bytes, decoded, err, found, failed, rfl, rfl⟩
  · refine ⟨fun keyMiss => ?_, fun _ => .inl ⟨Heap.read_alloc_new heap {}, rfl⟩⟩
    by_cases none : ranges = [] <;> simp_all [missLookup]
  · -- classifying a hit reports neither an error nor a miss
    obtain ⟨r', result', -, err, notMiss, notError, -⟩ := queryCacheRanges_hit heap₁ d ranges
    rw [classify, Option.some.injEq, Prod.mk.injEq] at result'
    rw [result'.2]
    simp only [err, notMiss, notError, Option.isSome_none, Bool.false_eq_true, or_self, false_implies,
      and_self]
  · exact ⟨fun _ => rfl, fun _ => .inr ⟨memory, bytes, decoded, err, found, failed,
      Heap.read_write_self _ (by simp), rfl⟩⟩

theorem queryCache_miss_empty_on_absent_key :
    queryCache referenceOnly (mapCache "memory") {} [] "k" [⟨0, 9⟩] =
        some ([{}], ⟨some 0, .keyMiss, [⟨0, 9⟩], none⟩) ∧
      (LookupStatus.keyMiss = .keyMiss → [⟨0, 9⟩] = ([⟨0, 9⟩] : Ranges)) ∧
      (Option.isSome (none : Option Error) ∨ LookupStatus.keyMiss = .keyMiss ∨
          LookupStatus.keyMiss = .error →
        Heap.read [{}] 0 = {} ∧ some 0 = some 0 ∨
        (mapCache "memory").cacheType ≠ "memory" ∧ ∃ bytes decoded err,
          (mapCache "memory").retrieve {} "k" true = (bytes, .hit, none) ∧
          referenceOnly.unmarshalMsg {} (inflatePayload referenceOnly bytes) = (decoded, some err) ∧
          Heap.read [{}] 0 = decoded ∧ some 0 = some 0) :=
  have result : queryCache referenceOnly (mapCache "memory") {} [] "k" [⟨0, 9⟩] =
      some ([{}], ⟨some 0, .keyMiss, [⟨0, 9⟩], none⟩) := rfl
  ⟨result, queryCache_miss_empty_unless_undecoded _ _ _ [] _ _ result⟩

end Engines
