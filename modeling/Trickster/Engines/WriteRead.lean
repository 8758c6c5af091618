import Trickster.Engines.Coverage

namespace Engines

open Msgp Byterange

variable {σ : Type}

/-- What a write-then-read round trip assumes of the collaborators: snappy's decoder inverts its
encoder, and the generated decoder rebuilds in a zero document the stored fields of whatever the
encoder encoded without error. -/
structure Inverts (x : Collaborators) : Prop where
  snappyDecode_snappyEncode : ∀ b, x.snappyDecode (x.snappyEncode b) = some b
  unmarshalMsg_marshalMsg : ∀ d, (x.marshalMsg d).2 = none →
    x.unmarshalMsg {} (x.marshalMsg d).1 = (HTTPDocument.ofStored d.stored, none)

theorem inflatePayload_framePayload {x : Collaborators} (inverts : Inverts x) (compress : Bool)
    (bytes : Bytes) : inflatePayload x (framePayload x compress bytes) = bytes := by
  cases compress <;> simp [framePayload, inflatePayload, inverts.snappyDecode_snappyEncode]

/-- The document `WriteCache` persists: its own, with the volatile headers deleted. -/
def scrubbed (d : HTTPDocument) : HTTPDocument := { d with headers := stripHeaders d.headers }

theorem writeCache_memory (x : Collaborators) (c : Cache σ) (s : σ) (heap : Heap) (key : String)
    (d ttl : Nat) (compressTypes : List String) (memory : c.cacheType = "memory") :
    writeCache x c s heap key d ttl compressTypes =
      ((c.storeReference s key (.document (some d)) ttl).1,
        (heap.write d (scrubbed (heap.read d))).write d (resetTransient (scrubbed (heap.read d))),
        (c.storeReference s key (.document (some d)) ttl).2) := by
  simp [writeCache, memory, scrubbed]

theorem writeCache_bytes (x : Collaborators) (c : Cache σ) (s : σ) (heap : Heap) (key : String)
    (d ttl : Nat) (compressTypes : List String) (other : c.cacheType ≠ "memory") :
    ∃ compress, writeCache x c s heap key d ttl compressTypes =
      ((c.store s key (framePayload x compress (x.marshalMsg (scrubbed (heap.read d))).1) ttl).1,
        heap.write d (scrubbed (heap.read d)),
        (c.store s key (framePayload x compress (x.marshalMsg (scrubbed (heap.read d))).1) ttl).2) :=
  ⟨compressible x (scrubbed (heap.read d)) ((stripHeaders (heap.read d).headers).get nameContentEncoding)
    compressTypes, by simp [writeCache, other, scrubbed]⟩

/-- A document stored in `WriteCache`'s shape reads back, through either kind of store. -/
theorem writeCache_queryCache (x : Collaborators) (c : Cache σ) (s : σ) (heap : Heap) (key : String)
    (d ttl : Nat) (compressTypes : List String) (inverts : Inverts x) (stores : RoundTrips c)
    (bound : d < heap.length)
    (marshalled : c.cacheType ≠ "memory" → (x.marshalMsg (scrubbed (heap.read d))).2 = none)
    {s' : σ} {heap' : Heap} (written : writeCache x c s heap key d ttl compressTypes = (s', heap', none)) :
    ∃ heap'' r, queryCache x c s' heap' key [] = some (heap'', r) ∧ r.err = none ∧
      r.status ≠ .keyMiss ∧ r.status ≠ .error ∧
      ∃ p, r.document = some p ∧ (heap''.read p).stored = (scrubbed (heap.read d)).stored ∧
        (heap''.read p).isLoaded = false ∧ (heap''.read p).rangePartsLoaded = false ∧
        ((heap.read d).ranges = [] → r.status = .hit ∧ r.missing = []) := by
  by_cases memory : c.cacheType = "memory"
  · rw [writeCache_memory x c s heap key d ttl compressTypes memory, Prod.mk.injEq, Prod.mk.injEq] at written
    obtain ⟨rfl, rfl, failure⟩ := written
    have found := stores.retrieveReference_storeReference s key _ ttl _ (Prod.ext rfl failure)
    rw [queryCache_memory_document x c _ _ key [] memory found]
    have inside : d < (((heap.write d (scrubbed (heap.read d))).write d
        (resetTransient (scrubbed (heap.read d)))).alloc {}).1.length := by simp; omega
    obtain ⟨heap'', r, result, err, notMiss, notError, document, stored, loaded, parts, full⟩ :=
      queryCacheRanges_hit_keeps _ d inside
    rw [Heap.read_alloc_old _ (by simpa using bound), Heap.read_write_self _ (by simpa using bound)]
      at stored loaded parts full
    exact ⟨heap'', r, result, err, notMiss, notError, d, document, stored.trans (resetTransient_stored _),
      loaded, parts, full⟩
  · obtain ⟨compress, frame⟩ := writeCache_bytes x c s heap key d ttl compressTypes memory
    rw [frame, Prod.mk.injEq, Prod.mk.injEq] at written
    obtain ⟨rfl, rfl, failure⟩ := written
    have found := stores.retrieve_store s key _ ttl _ (Prod.ext rfl failure)
    have decoded : x.unmarshalMsg {} (inflatePayload x (framePayload x compress
        (x.marshalMsg (scrubbed (heap.read d))).1)) =
          (HTTPDocument.ofStored (scrubbed (heap.read d)).stored, none) := by
      rw [inflatePayload_framePayload inverts]
      exact inverts.unmarshalMsg_marshalMsg _ (marshalled memory)
    rw [queryCache_bytes_decoded x c _ _ key [] memory found decoded]
    have fresh : (heap.write d (scrubbed (heap.read d))).length <
        (((heap.write d (scrubbed (heap.read d))).alloc {}).1.write
          (heap.write d (scrubbed (heap.read d))).length
          (HTTPDocument.ofStored (scrubbed (heap.read d)).stored)).length := by simp
    obtain ⟨heap'', r, result, err, notMiss, notError, document, stored, loaded, parts, full⟩ :=
      queryCacheRanges_hit_keeps _ _ fresh
    rw [Heap.read_write_self _ (by simp)] at stored loaded parts full
    exact ⟨heap'', r, result, err, notMiss, notError, _, document, stored.trans (HTTPDocument.ofStored_stored _),
      loaded, parts, full⟩

/-- Collaborators whose `MarshalMsg` fails on every document, leaving no bytes, and whose decoder
then finds nothing to read; snappy's frames are the identity. They meet `Inverts`, the codec
part vacuously. -/
def marshalFails : Collaborators :=
  { referenceOnly with
    marshalMsg := fun _ => ([], some (.typeError .map .invalid ""))
    unmarshalMsg := fun d _ => (d, some .shortBytes) }

theorem marshalFails_inverts : Inverts marshalFails :=
  ⟨fun _ => rfl, fun _ failed => by simp [marshalFails] at failed⟩

/-- Collaborators whose `MarshalMsg` encodes the documents with stored fields `f` as the byte `0x01`
and fails on any other, and whose decoder reads `0x01` back as `f`; snappy's frames are the
identity. They meet `Inverts`. -/
def storesOnly (f : StoredFields) : Collaborators :=
  { referenceOnly with
    marshalMsg := fun d => if d.stored = f then ([0x01], none) else ([], some (.typeError .map .invalid ""))
    unmarshalMsg := fun z bts => if bts = [0x01] then (HTTPDocument.ofStored f, none) else (z, some .shortBytes) }

theorem storesOnly_inverts (f : StoredFields) : Inverts (storesOnly f) := by
  refine ⟨fun _ => rfl, fun d encoded => ?_⟩
  by_cases same : d.stored = f
  · simp [storesOnly, same]
  · simp [storesOnly, same] at encoded

theorem writeCache_queryCache_of_both_stores :
    let doc : HTTPDocument := { status := "200 OK", ranges := [⟨0, 4⟩], contentLength := 10 }
    let x := storesOnly (scrubbed doc).stored
    (Inverts marshalFails ∧ RoundTrips (mapCache "memory") ∧ 0 < [doc].length ∧
      ((mapCache "memory").cacheType ≠ "memory" → (marshalFails.marshalMsg (scrubbed doc)).2 = none) ∧
      writeCache marshalFails (mapCache "memory") {} [doc] "k" 0 0 [] =
        ({ objects := [("k", .document (some 0))] }, [doc], none) ∧
      ∃ heap'' r, queryCache marshalFails (mapCache "memory") { objects := [("k", .document (some 0))] }
          [doc] "k" [] = some (heap'', r) ∧ r.err = none ∧
        r.status ≠ .keyMiss ∧ r.status ≠ .error ∧
        ∃ p, r.document = some p ∧ (heap''.read p).stored = (scrubbed doc).stored ∧
          (heap''.read p).isLoaded = false ∧ (heap''.read p).rangePartsLoaded = false ∧
          (doc.ranges = [] → r.status = .hit ∧ r.missing = [])) ∧
    (Inverts x ∧ RoundTrips (mapCache "bytes") ∧ 0 < [doc].length ∧
      ((mapCache "bytes").cacheType ≠ "memory" → (x.marshalMsg (scrubbed doc)).2 = none) ∧
      writeCache x (mapCache "bytes") {} [doc] "k" 0 0 [] = ({ blobs := [("k", [0x00, 0x01])] }, [doc], none) ∧
      ∃ heap'' r, queryCache x (mapCache "bytes") { blobs := [("k", [0x00, 0x01])] } [doc] "k" [] = some (heap'', r) ∧
        r.err = none ∧ r.status ≠ .keyMiss ∧ r.status ≠ .error ∧
        ∃ p, r.document = some p ∧ (heap''.read p).stored = (scrubbed doc).stored ∧
          (heap''.read p).isLoaded = false ∧ (heap''.read p).rangePartsLoaded = false ∧
          (doc.ranges = [] → r.status = .hit ∧ r.missing = [])) :=
  have written : writeCache marshalFails (mapCache "memory") {}
      [{ status := "200 OK", ranges := [⟨0, 4⟩], contentLength := 10 }] "k" 0 0 [] =
        ({ objects := [("k", .document (some 0))] },
          [{ status := "200 OK", ranges := [⟨0, 4⟩], contentLength := 10 }], none) := rfl
  have stored : writeCache (storesOnly (scrubbed { status := "200 OK", ranges := [⟨0, 4⟩], contentLength := 10 }).stored)
      (mapCache "bytes") {} [{ status := "200 OK", ranges := [⟨0, 4⟩], contentLength := 10 }] "k" 0 0 [] =
        ({ blobs := [("k", [0x00, 0x01])] }, [{ status := "200 OK", ranges := [⟨0, 4⟩], contentLength := 10 }], none) :=
    rfl
  ⟨⟨marshalFails_inverts, mapCache_roundTrips _, by decide, fun other => absurd rfl other, written,
    writeCache_queryCache _ _ _ _ _ _ _ _ marshalFails_inverts (mapCache_roundTrips _) (by decide)
      (fun other => absurd rfl other) written⟩,
  ⟨storesOnly_inverts _, mapCache_roundTrips _, by decide, fun _ => rfl, stored,
    writeCache_queryCache _ _ _ _ _ _ _ _ (storesOnly_inverts _) (mapCache_roundTrips _) (by decide)
      (by intro; rfl) stored⟩⟩

end Engines
