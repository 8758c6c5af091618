import Trickster.Engines.Document

namespace Engines

open Msgp Byterange

variable {σ : Type}

/-- What `QueryCache` returns: the document, the lookup status, the ranges still missing and the
error. -/
structure Lookup where
  document : Option Nat
  status : LookupStatus
  missing : Ranges
  err : Option Error
  deriving DecidableEq, Repr

/-- The early return of `QueryCache` on an error or a status other than a hit: the empty document,
the status, and the wanted ranges when the key is missing. -/
def missLookup (d : Nat) (lookupStatus : LookupStatus) (ranges : Ranges) (err : Option Error) :
    Lookup :=
  ⟨some d, lookupStatus, if lookupStatus = .keyMiss ∧ ranges ≠ [] then ranges else [], err⟩

/-- The end of `QueryCache` (lines 119-146): the fulfillment rewrite and the classification of
the wanted ranges against the document `d` points to. `none` is the panic of a nil `d`. -/
def queryCacheRanges (heap : Heap) (d : Option Nat) (lookupStatus : LookupStatus) (ranges : Ranges) :
    Option (Heap × Lookup) :=
  match d with
  | none => none
  | some d =>
    let doc := heap.read d
    let isFulfillment := decide (doc.ranges ≠ [] ∧ ranges = [])
    let heap := heap.write d { doc with isFulfillment }
    let ranges := if isFulfillment then [⟨0, doc.contentLength - 1⟩] else ranges
    if ranges ≠ [] ∧ doc.ranges ≠ [] then
      let delta := calculateDelta ranges doc.ranges doc.contentLength
      let lookupStatus :=
        if delta ≠ [] then (if equal delta ranges then .rangeMiss else .partialHit) else lookupStatus
      some (heap, ⟨some d, lookupStatus, delta, none⟩)
    else some (heap, ⟨some d, lookupStatus, [], none⟩)

/-- Lines 91-106 of `QueryCache`: the compression bit peeled off, and the rest inflated when the
bit is 1 and it decodes. -/
def inflatePayload (x : Collaborators) : Bytes → Bytes
  | [] => []
  | bit :: rest => if bit = 1 then (x.snappyDecode rest).getD rest else rest

/-- `QueryCache`. Tracing and logging are left out; they change no result. -/
def queryCache (x : Collaborators) (c : Cache σ) (s : σ) (heap : Heap) (key : String)
    (ranges : Ranges) : Option (Heap × Lookup) :=
  let (heap, d) := heap.alloc {}
  if c.cacheType = "memory" then
    let (ifc, lookupStatus, err) := c.retrieveReference s key true
    if err.isSome ∨ lookupStatus ≠ .hit then some (heap, missLookup d lookupStatus ranges err)
    else
      match ifc with
      | .nil => some (heap, ⟨some d, .keyMiss, ranges, err⟩)
      | .document pointer => queryCacheRanges heap pointer lookupStatus ranges
      | .other => queryCacheRanges heap none lookupStatus ranges
  else
    let (bytes, lookupStatus, err) := c.retrieve s key true
    if err.isSome ∨ lookupStatus ≠ .hit then some (heap, missLookup d lookupStatus ranges err)
    else
      let (decoded, err) := x.unmarshalMsg (heap.read d) (inflatePayload x bytes)
      let heap := heap.write d decoded
      match err with
      | some err => some (heap, ⟨some d, .keyMiss, ranges, some (.msgp err)⟩)
      | none => queryCacheRanges heap (some d) lookupStatus ranges

/-- Lines 168-171 of `WriteCache`: the volatile headers deleted from the document's own map. -/
def stripHeaders (h : Header) : Header :=
  (((h.del nameDate).del nameTransferEncoding).del nameContentRange).del nameTricksterResult

/-- Lines 179-187 of `WriteCache`: compress an identity-encoded body that the policy lets be
transformed and whose media type is listed. -/
def compressible (x : Collaborators) (d : HTTPDocument) (ce : String) (compressTypes : List String) :
    Bool :=
  (ce == "" || ce == "identity") && d.cachingPolicy.all (fun p => !p.noTransform) &&
    match x.parseMediaType d.contentType with
    | some mt => compressTypes.contains mt
    | none => false

/-- Lines 194-202 of `WriteCache`: what a reference store's document is reset to, so that a
reader sees what a fresh decode would give. -/
def resetTransient (d : HTTPDocument) : HTTPDocument :=
  { d with
    rangePartsLoaded := false
    isFulfillment := false
    isLoaded := false
    rangeParts := []
    cachingPolicy := d.cachingPolicy.map CachingPolicy.resetClientConditionals }

@[simp] theorem resetTransient_stored (d : HTTPDocument) : (resetTransient d).stored = d.stored := by
  cases policy : d.cachingPolicy <;>
    simp [HTTPDocument.stored, resetTransient, policy, CachingPolicy.resetClientConditionals]

/-- Lines 217-222 of `WriteCache`: the compression bit in front of the payload. -/
def framePayload (x : Collaborators) (compress : Bool) (bytes : Bytes) : Bytes :=
  if compress then 1 :: x.snappyEncode bytes else 0 :: bytes

/-- `WriteCache` of the document `d` points to. The error of `MarshalMsg` is only logged. -/
def writeCache (x : Collaborators) (c : Cache σ) (s : σ) (heap : Heap) (key : String) (d : Nat)
    (ttl : Nat) (compressTypes : List String) : σ × Heap × Option Error :=
  let doc := { heap.read d with headers := stripHeaders (heap.read d).headers }
  let heap := heap.write d doc
  let compress := compressible x doc (doc.headers.get nameContentEncoding) compressTypes
  if c.cacheType = "memory" then
    let (s, err) := c.storeReference s key (.document (some d)) ttl
    (s, heap.write d (resetTransient doc), err)
  else
    let (bytes, _) := x.marshalMsg doc
    let (s, err) := c.store s key (framePayload x compress bytes) ttl
    (s, heap, err)

section Paths

variable (x : Collaborators) (c : Cache σ) (s : σ) (heap : Heap) (key : String) (ranges : Ranges)

theorem queryCache_memory_missed {ifc : Reference} {lookupStatus : LookupStatus} {err : Option Error}
    (memory : c.cacheType = "memory")
    (found : c.retrieveReference s key true = (ifc, lookupStatus, err))
    (missed : err.isSome ∨ lookupStatus ≠ .hit) :
    queryCache x c s heap key ranges =
      some ((heap.alloc {}).1, missLookup heap.length lookupStatus ranges err) := by
  simp only [queryCache, memory, found, Heap.alloc]
  simp [missed]

theorem queryCache_memory_nil (memory : c.cacheType = "memory")
    (found : c.retrieveReference s key true = (.nil, .hit, none)) :
    queryCache x c s heap key ranges =
      some ((heap.alloc {}).1, ⟨some heap.length, .keyMiss, ranges, none⟩) := by
  simp [queryCache, memory, found, Heap.alloc]

theorem queryCache_memory_document {pointer : Option Nat} (memory : c.cacheType = "memory")
    (found : c.retrieveReference s key true = (.document pointer, .hit, none)) :
    queryCache x c s heap key ranges = queryCacheRanges (heap.alloc {}).1 pointer .hit ranges := by
  simp [queryCache, memory, found, Heap.alloc]

theorem queryCache_memory_other (memory : c.cacheType = "memory")
    (found : c.retrieveReference s key true = (.other, .hit, none)) :
    queryCache x c s heap key ranges = none := by
  simp [queryCache, memory, found, Heap.alloc, queryCacheRanges]

theorem queryCache_bytes_missed {bytes : Bytes} {lookupStatus : LookupStatus} {err : Option Error}
    (other : c.cacheType ≠ "memory") (found : c.retrieve s key true = (bytes, lookupStatus, err))
    (missed : err.isSome ∨ lookupStatus ≠ .hit) :
    queryCache x c s heap key ranges =
      some ((heap.alloc {}).1, missLookup heap.length lookupStatus ranges err) := by
  simp only [queryCache, other, found, Heap.alloc]
  simp [missed]

theorem queryCache_bytes_undecoded {bytes : Bytes} {decoded : HTTPDocument} {err : MsgpError}
    (other : c.cacheType ≠ "memory") (found : c.retrieve s key true = (bytes, .hit, none))
    (failed : x.unmarshalMsg {} (inflatePayload x bytes) = (decoded, some err)) :
    queryCache x c s heap key ranges =
      some (((heap.alloc {}).1.write heap.length decoded),
        ⟨some heap.length, .keyMiss, ranges, some (.msgp err)⟩) := by
  have fresh := Heap.read_alloc_new heap {}
  simp only [Heap.alloc] at fresh
  simp [queryCache, other, found, Heap.alloc, fresh, failed]

theorem queryCache_bytes_decoded {bytes : Bytes} {decoded : HTTPDocument}
    (other : c.cacheType ≠ "memory") (found : c.retrieve s key true = (bytes, .hit, none))
    (ok : x.unmarshalMsg {} (inflatePayload x bytes) = (decoded, none)) :
    queryCache x c s heap key ranges =
      queryCacheRanges ((heap.alloc {}).1.write heap.length decoded) (some heap.length) .hit ranges := by
  have fresh := Heap.read_alloc_new heap {}
  simp only [Heap.alloc] at fresh
  simp [queryCache, other, found, Heap.alloc, fresh, ok]

theorem missLookup_keyMiss (d : Nat) : missLookup d .keyMiss ranges none = ⟨some d, .keyMiss, ranges, none⟩ := by
  cases ranges <;> simp [missLookup]

theorem queryCache_cases {heap' : Heap} {r : Lookup}
    (result : queryCache x c s heap key ranges = some (heap', r)) :
    (heap' = (heap.alloc {}).1 ∧ ∃ lookupStatus err, r = missLookup heap.length lookupStatus ranges err) ∨
      (c.cacheType = "memory" ∧ ∃ d, queryCacheRanges (heap.alloc {}).1 (some d) .hit ranges = some (heap', r)) ∨
      c.cacheType ≠ "memory" ∧ ∃ bytes decoded, c.retrieve s key true = (bytes, .hit, none) ∧
        ((∃ err, x.unmarshalMsg {} (inflatePayload x bytes) = (decoded, some err) ∧
          heap' = (heap.alloc {}).1.write heap.length decoded ∧
          r = ⟨some heap.length, .keyMiss, ranges, some (.msgp err)⟩) ∨
        x.unmarshalMsg {} (inflatePayload x bytes) = (decoded, none) ∧
          queryCacheRanges ((heap.alloc {}).1.write heap.length decoded) (some heap.length) .hit ranges =
            some (heap', r)) := by
  by_cases memory : c.cacheType = "memory"
  · rcases found : c.retrieveReference s key true with ⟨ifc, lookupStatus, err⟩
    by_cases missed : err.isSome ∨ lookupStatus ≠ .hit
    · rw [queryCache_memory_missed x c s heap key ranges memory found missed] at result
      cases result
      exact .inl ⟨rfl, _, _, rfl⟩
    obtain ⟨rfl, rfl⟩ : err = none ∧ lookupStatus = .hit := by
      cases err <;> simp_all
    rcases ifc with _ | (_ | d) | _
    · rw [queryCache_memory_nil x c s heap key ranges memory found] at result
      cases result
      exact .inl ⟨rfl, _, _, (missLookup_keyMiss ranges _).symm⟩
    · rw [queryCache_memory_document x c s heap key ranges memory found] at result
      cases result
    · rw [queryCache_memory_document x c s heap key ranges memory found] at result
      exact .inr (.inl ⟨memory, d, result⟩)
    · rw [queryCache_memory_other x c s heap key ranges memory found] at result
      cases result
  · rcases found : c.retrieve s key true with ⟨bytes, lookupStatus, err⟩
    by_cases missed : err.isSome ∨ lookupStatus ≠ .hit
    · rw [queryCache_bytes_missed x c s heap key ranges memory found missed] at result
      cases result
      exact .inl ⟨rfl, _, _, rfl⟩
    obtain ⟨rfl, rfl⟩ : err = none ∧ lookupStatus = .hit := by
      cases err <;> simp_all
    rcases decodes : x.unmarshalMsg {} (inflatePayload x bytes) with ⟨decoded, failure⟩
    cases failure with
    | none =>
      rw [queryCache_bytes_decoded x c s heap key ranges memory found decodes] at result
      exact .inr (.inr ⟨memory, bytes, decoded, rfl, .inr ⟨decodes, result⟩⟩)
    | some err =>
      rw [queryCache_bytes_undecoded x c s heap key ranges memory found decodes] at result
      cases result
      exact .inr (.inr ⟨memory, bytes, decoded, rfl, .inl ⟨err, decodes, rfl, rfl⟩⟩)

theorem queryCache_some {heap' : Heap} {r : Lookup}
    (result : queryCache x c s heap key ranges = some (heap', r)) :
    (heap' = (heap.alloc {}).1 ∧ ∃ lookupStatus err, r = missLookup heap.length lookupStatus ranges err) ∨
      (∃ heap₁ d, queryCacheRanges heap₁ (some d) .hit ranges = some (heap', r)) ∨
      c.cacheType ≠ "memory" ∧ ∃ bytes decoded err, c.retrieve s key true = (bytes, .hit, none) ∧
        x.unmarshalMsg {} (inflatePayload x bytes) = (decoded, some err) ∧
        heap' = (heap.alloc {}).1.write heap.length decoded ∧
        r = ⟨some heap.length, .keyMiss, ranges, some (.msgp err)⟩ := by
  rcases queryCache_cases x c s heap key ranges result with missed | ⟨-, d, classify⟩ |
    ⟨other, bytes, decoded, found, ⟨err, failed, rfl, rfl⟩ | ⟨-, classify⟩⟩
  · exact .inl missed
  · exact .inr (.inl ⟨_, d, classify⟩)
  · exact .inr (.inr ⟨other, bytes, decoded, err, found, failed, rfl, rfl⟩)
  · exact .inr (.inl ⟨_, _, classify⟩)

end Paths

theorem queryCacheRanges_some (heap : Heap) (d : Nat) (lookupStatus : LookupStatus) (ranges : Ranges) :
    queryCacheRanges heap (some d) lookupStatus ranges =
      let doc := heap.read d
      let requested := if doc.ranges ≠ [] ∧ ranges = [] then [⟨0, doc.contentLength - 1⟩] else ranges
      let delta := calculateDelta requested doc.ranges doc.contentLength
      some (heap.write d { doc with isFulfillment := decide (doc.ranges ≠ [] ∧ ranges = []) },
        if doc.ranges = [] then ⟨some d, lookupStatus, [], none⟩
        else ⟨some d, if delta ≠ [] then (if equal delta requested then .rangeMiss else .partialHit)
          else lookupStatus, delta, none⟩) := by
  simp only [queryCacheRanges, decide_eq_true_eq]
  by_cases full : (heap.read d).ranges = []
  · simp [full]
  · by_cases whole : ranges = [] <;> simp [full, whole]

theorem queryCacheRanges_hit (heap : Heap) (d : Nat) (ranges : Ranges) :
    ∃ r, queryCacheRanges heap (some d) .hit ranges = some (heap.write d { heap.read d with
        isFulfillment := decide ((heap.read d).ranges ≠ [] ∧ ranges = []) }, r) ∧
      r.document = some d ∧ r.err = none ∧ r.status ≠ .keyMiss ∧ r.status ≠ .error ∧
      ((heap.read d).ranges = [] → r.status = .hit ∧ r.missing = []) := by
  rw [queryCacheRanges_some]
  refine ⟨_, rfl, ?_⟩
  by_cases full : (heap.read d).ranges = []
  · simp [full]
  · simp only [full, if_false]
    split_ifs <;> simp

theorem queryCacheRanges_hit_keeps (heap : Heap) (d : Nat) (bound : d < heap.length) :
    ∃ heap' r, queryCacheRanges heap (some d) .hit [] = some (heap', r) ∧ r.err = none ∧
      r.status ≠ .keyMiss ∧ r.status ≠ .error ∧ r.document = some d ∧
      (heap'.read d).stored = (heap.read d).stored ∧ (heap'.read d).isLoaded = (heap.read d).isLoaded ∧
      (heap'.read d).rangePartsLoaded = (heap.read d).rangePartsLoaded ∧
      ((heap.read d).ranges = [] → r.status = .hit ∧ r.missing = []) := by
  obtain ⟨r, result, document, err, notMiss, notError, full⟩ := queryCacheRanges_hit heap d []
  refine ⟨_, r, result, err, notMiss, notError, document, ?_⟩
  rw [Heap.read_write_self _ bound]
  exact ⟨HTTPDocument.stored_isFulfillment _ _, rfl, rfl, full⟩

end Engines
