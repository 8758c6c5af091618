import Trickster.Engines.WriteRead

namespace Engines

open Msgp Byterange

abbrev Contents := List (String × StoredFields)

theorem lookup_cons_ite {α : Type} (m : List (String × α)) (key key' : String) (v : α) :
    ((key, v) :: m).lookup key' = if key' = key then some v else m.lookup key' := by
  by_cases same : key' = key
  · subst same
    simp [List.lookup]
  · simp [List.lookup, beq_false_of_ne same, same]

/-- The calls a client makes on a map store of type `cacheType`, from an empty store, beside the
contents they should leave. A write hands over a live document and, to a byte store, one that
`MarshalMsg` encodes without error; a lookup is any `QueryCache` that completes. -/
inductive Reachable (x : Collaborators) (cacheType : String) : MapStore → Heap → Contents → Prop
  | empty (heap : Heap) : Reachable x cacheType {} heap []
  | write {s s' : MapStore} {heap heap' : Heap} {m : Contents} {err : Option Error} (key : String)
      (d ttl : Nat) (compressTypes : List String) (before : Reachable x cacheType s heap m)
      (live : d < heap.length)
      (marshalled : cacheType ≠ "memory" → (x.marshalMsg (scrubbed (heap.read d))).2 = none)
      (written : writeCache x (mapCache cacheType) s heap key d ttl compressTypes = (s', heap', err)) :
      Reachable x cacheType s' heap' ((key, (scrubbed (heap.read d)).stored) :: m)
  | query {s : MapStore} {heap heap' : Heap} {m : Contents} {r : Lookup} (key : String)
      (ranges : Ranges) (before : Reachable x cacheType s heap m)
      (read : queryCache x (mapCache cacheType) s heap key ranges = some (heap', r)) :
      Reachable x cacheType s heap' m

/-- `heap'` extends `heap` and holds its documents, each changed at most in its fulfillment flag. -/
def FlagsOnly (heap heap' : Heap) : Prop :=
  heap.length ≤ heap'.length ∧
    ∀ p < heap.length, heap'.read p = { heap.read p with isFulfillment := (heap'.read p).isFulfillment }

namespace FlagsOnly

theorem refl (heap : Heap) : FlagsOnly heap heap := ⟨le_refl _, fun _ _ => rfl⟩

theorem trans {heap heap₁ heap' : Heap} (first : FlagsOnly heap heap₁) (second : FlagsOnly heap₁ heap') :
    FlagsOnly heap heap' := by
  refine ⟨first.1.trans second.1, fun p live => ?_⟩
  rw [second.2 p (lt_of_lt_of_le live first.1), first.2 p live]

theorem alloc (heap : Heap) (d : HTTPDocument) : FlagsOnly heap (heap.alloc d).1 :=
  ⟨by simp, fun _ live => by rw [Heap.read_alloc_old _ live]⟩

theorem write_past {heap heap₁ : Heap} {q : Nat} (d : HTTPDocument) (kept : FlagsOnly heap heap₁)
    (past : heap.length ≤ q) : FlagsOnly heap (heap₁.write q d) :=
  ⟨by simpa using kept.1, fun p live => by rw [Heap.read_write_ne _ _ (by omega)]; exact kept.2 p live⟩

theorem write_flag (heap : Heap) (q : Nat) (b : Bool) :
    FlagsOnly heap (heap.write q { heap.read q with isFulfillment := b }) := by
  refine ⟨by simp, fun p live => ?_⟩
  by_cases same : q = p
  · subst same
    rw [Heap.read_write_self _ live]
  · rw [Heap.read_write_ne _ _ same]

theorem of_queryCacheRanges {heap heap' : Heap} {d : Nat} {lookupStatus : LookupStatus}
    {ranges : Ranges} {r : Lookup} (classify : queryCacheRanges heap (some d) lookupStatus ranges = some (heap', r)) :
    FlagsOnly heap heap' := by
  rw [queryCacheRanges_some, Option.some.injEq, Prod.mk.injEq] at classify
  rw [← classify.1]
  exact write_flag heap d _

end FlagsOnly

variable {x : Collaborators} {σ : Type} {c : Cache σ} {s : σ} {heap heap' : Heap} {key : String}
  {ranges : Ranges} {r : Lookup}

theorem queryCache_flagsOnly (result : queryCache x c s heap key ranges = some (heap', r)) :
    FlagsOnly heap heap' := by
  have fresh : FlagsOnly heap (heap.alloc {}).1 := FlagsOnly.alloc heap {}
  rcases queryCache_cases x c s heap key ranges result with ⟨rfl, -⟩ | ⟨-, d, classify⟩ |
    ⟨-, bytes, decoded, -, ⟨err, -, rfl, -⟩ | ⟨-, classify⟩⟩
  · exact fresh
  · exact fresh.trans (FlagsOnly.of_queryCacheRanges classify)
  · exact FlagsOnly.write_past _ fresh (le_refl _)
  · exact (FlagsOnly.write_past _ fresh (le_refl _)).trans (FlagsOnly.of_queryCacheRanges classify)

theorem stripHeaders_stripHeaders (h : Header) : stripHeaders (stripHeaders h) = stripHeaders h := by
  simp only [stripHeaders, Header.del, List.filter_filter]
  apply List.filter_congr
  intro entry _
  cases decide (entry.1 ≠ nameContentRange) <;> cases decide (entry.1 ≠ nameDate) <;>
    cases decide (entry.1 ≠ nameTransferEncoding) <;> cases decide (entry.1 ≠ nameTricksterResult) <;> rfl

def Resting (d : HTTPDocument) : Prop :=
  stripHeaders d.headers = d.headers ∧ d.isLoaded = false ∧ d.rangePartsLoaded = false

theorem resting_resetTransient (d : HTTPDocument) : Resting (resetTransient (scrubbed d)) :=
  ⟨stripHeaders_stripHeaders _, rfl, rfl⟩

theorem Resting.flag {d : HTTPDocument} (resting : Resting d) (b : Bool) :
    Resting { d with isFulfillment := b } :=
  resting

theorem Resting.scrubbed_eq {d : HTTPDocument} (resting : Resting d) : scrubbed d = d := by
  cases d
  simp_all [Resting, scrubbed]

/-- How a map store and the heap keep the contents. A key never written is in neither map. A
written key holds, in a store of references, a live resting document whose stored fields are the
contents, and in a byte store the frame of an encoding `MarshalMsg` produced without error from a
document with those fields. -/
structure Holds (x : Collaborators) (cacheType : String) (s : MapStore) (heap : Heap) (m : Contents) :
    Prop where
  absent : ∀ key, m.lookup key = none → s.objects.lookup key = none ∧ s.blobs.lookup key = none
  byReference : cacheType = "memory" → ∀ key F, m.lookup key = some F → ∃ p, p < heap.length ∧
    s.objects.lookup key = some (.document (some p)) ∧ (heap.read p).stored = F ∧ Resting (heap.read p)
  asBytes : cacheType ≠ "memory" → ∀ key F, m.lookup key = some F → ∃ doc compress,
    s.blobs.lookup key = some (framePayload x compress (x.marshalMsg doc).1) ∧
    (x.marshalMsg doc).2 = none ∧ doc.stored = F

variable {cacheType : String} {st st' : MapStore} {m : Contents}

theorem holds_empty (heap : Heap) : Holds x cacheType {} heap [] :=
  ⟨fun _ _ => ⟨rfl, rfl⟩, fun _ _ _ found => (nomatch found), fun _ _ _ found => nomatch found⟩

theorem Holds.flagsOnly (holds : Holds x cacheType st heap m) (kept : FlagsOnly heap heap') :
    Holds x cacheType st heap' m := by
  refine ⟨holds.absent, fun memory key F found => ?_, holds.asBytes⟩
  obtain ⟨p, live, stored, fields, resting⟩ := holds.byReference memory key F found
  have same := kept.2 p live
  refine ⟨p, lt_of_lt_of_le live kept.1, stored, ?_⟩
  rw [same, HTTPDocument.stored_isFulfillment, fields]
  exact ⟨rfl, resting.flag _⟩

theorem Holds.query (holds : Holds x cacheType st heap m)
    (read : queryCache x (mapCache cacheType) st heap key ranges = some (heap', r)) :
    Holds x cacheType st heap' m :=
  holds.flagsOnly (queryCache_flagsOnly read)

theorem Holds.write (holds : Holds x cacheType st heap m) {d ttl : Nat} {compressTypes : List String}
    {err : Option Error} (live : d < heap.length)
    (marshalled : cacheType ≠ "memory" → (x.marshalMsg (scrubbed (heap.read d))).2 = none)
    (written : writeCache x (mapCache cacheType) st heap key d ttl compressTypes = (st', heap', err)) :
    Holds x cacheType st' heap' ((key, (scrubbed (heap.read d)).stored) :: m) := by
  by_cases memory : cacheType = "memory"
  · rw [writeCache_memory x (mapCache cacheType) st heap key d ttl compressTypes memory, Prod.mk.injEq,
      Prod.mk.injEq] at written
    obtain ⟨rfl, rfl, -⟩ := written
    have reads : ∀ p, ((heap.write d (scrubbed (heap.read d))).write d
        (resetTransient (scrubbed (heap.read d)))).read p =
          if d = p then resetTransient (scrubbed (heap.read d)) else heap.read p := by
      intro p
      split_ifs with same
      · subst same
        exact Heap.read_write_self _ (by simpa using live)
      · rw [Heap.read_write_ne _ _ same, Heap.read_write_ne _ _ same]
    refine ⟨fun key' none => ?_, fun _ key' F found => ?_, fun other => absurd memory other⟩
    · rw [lookup_cons_ite] at none
      split_ifs at none with other
      simpa only [mapCache, lookup_cons_ite, if_neg other] using holds.absent key' none
    · rw [lookup_cons_ite] at found
      split_ifs at found with same
      · cases found
        refine ⟨d, by simpa using live, by simp [mapCache, lookup_cons_ite, same], ?_⟩
        rw [reads, if_pos rfl]
        exact ⟨resetTransient_stored _, resting_resetTransient _⟩
      · obtain ⟨p, inside, stored, fields, resting⟩ := holds.byReference memory key' F found
        refine ⟨p, by simpa using inside, by simp [mapCache, lookup_cons_ite, same, stored], ?_⟩
        rw [reads]
        split_ifs with shared
        · subst shared
          exact ⟨by rw [resetTransient_stored, resting.scrubbed_eq, fields], resting_resetTransient _⟩
        · exact ⟨fields, resting⟩
  · obtain ⟨compress, frame⟩ := writeCache_bytes x (mapCache cacheType) st heap key d ttl compressTypes memory
    rw [frame, Prod.mk.injEq, Prod.mk.injEq] at written
    obtain ⟨rfl, rfl, -⟩ := written
    refine ⟨fun key' none => ?_, fun other => absurd other memory, fun _ key' F found => ?_⟩
    · rw [lookup_cons_ite] at none
      split_ifs at none with other
      simpa only [mapCache, lookup_cons_ite, if_neg other] using holds.absent key' none
    · rw [lookup_cons_ite] at found
      split_ifs at found with same
      · cases found
        exact ⟨_, compress, by simp [mapCache, lookup_cons_ite, same], marshalled memory, rfl⟩
      · obtain ⟨doc, compress', blob, fine, fields⟩ := holds.asBytes memory key' F found
        exact ⟨doc, compress', by simp [mapCache, lookup_cons_ite, same, blob], fine, fields⟩

theorem Reachable.holds (reached : Reachable x cacheType st heap m) : Holds x cacheType st heap m := by
  induction reached with
  | empty heap => exact holds_empty heap
  | write key d ttl compressTypes _ live marshalled written holds => exact holds.write live marshalled written
  | query key ranges _ read holds => exact holds.query read

/-- What a lookup of the contents `F` should answer when `ranges` are wanted: a plain hit with
nothing missing for a whole body; otherwise the part of the request, or of the whole body when
nothing is wanted, that the held ranges leave out, classified against the request. -/
def expectedLookup (F : StoredFields) (ranges : Ranges) : LookupStatus × Ranges :=
  if F.ranges = [] then (.hit, [])
  else
    let requested := if ranges = [] then [⟨0, F.contentLength - 1⟩] else ranges
    let delta := calculateDelta requested F.ranges F.contentLength
    (if delta ≠ [] then (if equal delta requested then .rangeMiss else .partialHit) else .hit, delta)

theorem queryCacheRanges_expected {heap heap' : Heap} {d : Nat} {ranges : Ranges} {r : Lookup}
    (classify : queryCacheRanges heap (some d) .hit ranges = some (heap', r)) :
    r = ⟨some d, (expectedLookup (heap.read d).stored ranges).1,
      (expectedLookup (heap.read d).stored ranges).2, none⟩ := by
  rw [queryCacheRanges_some, Option.some.injEq, Prod.mk.injEq] at classify
  rw [← classify.2]
  by_cases full : (heap.read d).ranges = [] <;> simp [expectedLookup, HTTPDocument.stored, full]

theorem Holds.queryCache_absent (holds : Holds x cacheType st heap m) (found : m.lookup key = none)
    (ranges : Ranges) :
    queryCache x (mapCache cacheType) st heap key ranges =
      some ((heap.alloc {}).1, missLookup heap.length .keyMiss ranges none) := by
  obtain ⟨noObject, noBlob⟩ := holds.absent key found
  by_cases memory : cacheType = "memory"
  · exact queryCache_memory_missed x (mapCache cacheType) st heap key ranges memory
      (show _ = (.nil, .keyMiss, none) by simp [mapCache, noObject]) (by simp)
  · exact queryCache_bytes_missed x (mapCache cacheType) st heap key ranges memory
      (show _ = ([], .keyMiss, none) by simp [mapCache, noBlob]) (by simp)

theorem Holds.queryCache_present (holds : Holds x cacheType st heap m) (inverts : Inverts x)
    {F : StoredFields} (found : m.lookup key = some F) (ranges : Ranges) :
    ∃ heap₁ p, p < heap₁.length ∧ (heap₁.read p).stored = F ∧ (heap₁.read p).isLoaded = false ∧
      (heap₁.read p).rangePartsLoaded = false ∧
      queryCache x (mapCache cacheType) st heap key ranges = queryCacheRanges heap₁ (some p) .hit ranges := by
  by_cases memory : cacheType = "memory"
  · obtain ⟨p, live, stored, fields, -, loaded, partsLoaded⟩ := holds.byReference memory key F found
    rw [← Heap.read_alloc_old {} live] at fields loaded partsLoaded
    exact ⟨_, p, by simp; omega, fields, loaded, partsLoaded,
      queryCache_memory_document x (mapCache cacheType) st heap key ranges memory (by simp [mapCache, stored])⟩
  · obtain ⟨doc, compress, blob, fine, fields⟩ := holds.asBytes memory key F found
    have decoded : x.unmarshalMsg {} (inflatePayload x (framePayload x compress (x.marshalMsg doc).1)) =
        (HTTPDocument.ofStored doc.stored, none) := by
      rw [inflatePayload_framePayload inverts]
      exact inverts.unmarshalMsg_marshalMsg doc fine
    have fresh : ((heap.alloc {}).1.write heap.length (HTTPDocument.ofStored doc.stored)).read heap.length =
        HTTPDocument.ofStored doc.stored := Heap.read_write_self _ (by simp)
    exact ⟨_, heap.length, by simp, by rw [fresh, HTTPDocument.ofStored_stored, fields], by rw [fresh]; rfl,
      by rw [fresh]; rfl,
      queryCache_bytes_decoded x (mapCache cacheType) st heap key ranges memory (by simp [mapCache, blob]) decoded⟩

theorem Holds.queryCache_answers (holds : Holds x cacheType st heap m) (inverts : Inverts x) (key : String)
    (ranges : Ranges) :
    ∃ heap' r, queryCache x (mapCache cacheType) st heap key ranges = some (heap', r) ∧
      (∀ F, m.lookup key = some F → ∃ p,
        r = ⟨some p, (expectedLookup F ranges).1, (expectedLookup F ranges).2, none⟩ ∧
        (heap'.read p).stored = F ∧ (heap'.read p).isLoaded = false ∧ (heap'.read p).rangePartsLoaded = false) ∧
      (m.lookup key = none → r = ⟨some heap.length, .keyMiss, ranges, none⟩ ∧ heap'.read heap.length = {}) := by
  cases found : m.lookup key with
  | none =>
    exact ⟨_, _, holds.queryCache_absent found ranges, fun _ none => (nomatch none),
      fun _ => ⟨missLookup_keyMiss ranges _, Heap.read_alloc_new heap {}⟩⟩
  | some F =>
    obtain ⟨heap₁, p, inside, fields, loaded, partsLoaded, classify⟩ := holds.queryCache_present inverts found ranges
    obtain ⟨r, result, -⟩ := queryCacheRanges_hit heap₁ p ranges
    have reread := (FlagsOnly.of_queryCacheRanges result).2 p inside
    refine ⟨_, r, classify.trans result, fun F' same => ?_, fun none => nomatch none⟩
    cases same
    refine ⟨p, fields ▸ queryCacheRanges_expected result, ?_⟩
    rw [reread, HTTPDocument.stored_isFulfillment]
    exact ⟨fields, loaded, partsLoaded⟩

/-- Over any interleaving of `WriteCache` and `QueryCache` calls on either kind of store, a lookup
completes and answers from the contents alone: for a written key the status and missing ranges
its contents call for, with no error, and a document with the stored fields of the one last
written under it and its load flags clear; for a key never written a `KeyMiss` asking for every
wanted range, with the empty document it allocated. -/
theorem queryCache_refines_contents (inverts : Inverts x) (reached : Reachable x cacheType st heap m)
    (key : String) (ranges : Ranges) :
    ∃ heap' r, queryCache x (mapCache cacheType) st heap key ranges = some (heap', r) ∧
      (∀ F, m.lookup key = some F → ∃ p,
        r = ⟨some p, (expectedLookup F ranges).1, (expectedLookup F ranges).2, none⟩ ∧
        (heap'.read p).stored = F ∧ (heap'.read p).isLoaded = false ∧ (heap'.read p).rangePartsLoaded = false) ∧
      (m.lookup key = none → r = ⟨some heap.length, .keyMiss, ranges, none⟩ ∧ heap'.read heap.length = {}) :=
  reached.holds.queryCache_answers inverts key ranges

theorem writeThenMiss_reachable : Reachable marshalFails "memory" { objects := [("k", .document (some 0))] }
    [{ status := "200 OK", ranges := [⟨0, 4⟩], contentLength := 10 }, {}]
    [("k", (scrubbed { status := "200 OK", ranges := [⟨0, 4⟩], contentLength := 10 }).stored)] :=
  .query "other" [] (.write "k" 0 0 [] (.empty [{ status := "200 OK", ranges := [⟨0, 4⟩], contentLength := 10 }])
    (by decide) (fun other => absurd rfl other) rfl) rfl

theorem writeThenMiss_bytes_reachable :
    Reachable (storesOnly (scrubbed { status := "200 OK", ranges := [⟨0, 4⟩], contentLength := 10 }).stored) "bytes"
      { blobs := [("k", [0x00, 0x01])] } [{ status := "200 OK", ranges := [⟨0, 4⟩], contentLength := 10 }, {}]
      [("k", (scrubbed { status := "200 OK", ranges := [⟨0, 4⟩], contentLength := 10 }).stored)] :=
  .query "other" [] (.write "k" 0 0 [] (.empty [{ status := "200 OK", ranges := [⟨0, 4⟩], contentLength := 10 }])
    (by decide) (by intro; rfl) rfl) rfl

theorem queryCache_refines_contents_after_miss :
    let doc : HTTPDocument := { status := "200 OK", ranges := [⟨0, 4⟩], contentLength := 10 }
    let s : MapStore := { objects := [("k", .document (some 0))] }
    let b : MapStore := { blobs := [("k", [0x00, 0x01])] }
    let m : Contents := [("k", (scrubbed doc).stored)]
    let x := storesOnly (scrubbed doc).stored
    (Inverts marshalFails ∧ Reachable marshalFails "memory" s [doc, {}] m ∧
      ∃ heap' r, queryCache marshalFails (mapCache "memory") s [doc, {}] "k" [] = some (heap', r) ∧
        (∀ F, m.lookup "k" = some F → ∃ p,
          r = ⟨some p, (expectedLookup F []).1, (expectedLookup F []).2, none⟩ ∧
          (heap'.read p).stored = F ∧ (heap'.read p).isLoaded = false ∧ (heap'.read p).rangePartsLoaded = false) ∧
        (m.lookup "k" = none →
          r = ⟨some [doc, {}].length, .keyMiss, [], none⟩ ∧ heap'.read [doc, {}].length = {})) ∧
    (Inverts x ∧ Reachable x "bytes" b [doc, {}] m ∧
      ∃ heap' r, queryCache x (mapCache "bytes") b [doc, {}] "k" [] = some (heap', r) ∧
        (∀ F, m.lookup "k" = some F → ∃ p,
          r = ⟨some p, (expectedLookup F []).1, (expectedLookup F []).2, none⟩ ∧
          (heap'.read p).stored = F ∧ (heap'.read p).isLoaded = false ∧ (heap'.read p).rangePartsLoaded = false) ∧
        (m.lookup "k" = none →
          r = ⟨some [doc, {}].length, .keyMiss, [], none⟩ ∧ heap'.read [doc, {}].length = {})) :=
  ⟨⟨marshalFails_inverts, writeThenMiss_reachable,
    queryCache_refines_contents marshalFails_inverts writeThenMiss_reachable "k" []⟩,
  ⟨storesOnly_inverts _, writeThenMiss_bytes_reachable,
    queryCache_refines_contents (storesOnly_inverts _) writeThenMiss_bytes_reachable "k" []⟩⟩

theorem Holds.of_bytes (holds : Holds x cacheType st heap m) (bytes : cacheType ≠ "memory") (heap' : Heap) :
    Holds x cacheType st heap' m :=
  ⟨holds.absent, fun memory => absurd memory bytes, holds.asBytes⟩

/-- What the owner of a cached document writes to it afterwards reaches a store of references and
no byte store. In a byte store a written key keeps its contents whatever is then written to the
heap; in a store of references it names a cell, and whatever document is then written there is
what the next lookup of the key returns. -/
theorem owner_writes_reach_reference_stores_only (inverts : Inverts x)
    (reached : Reachable x cacheType st heap m) (key : String) {F : StoredFields}
    (found : m.lookup key = some F) (ranges : Ranges) :
    (cacheType ≠ "memory" → ∀ p doc, ∃ heap' r q,
      queryCache x (mapCache cacheType) st (heap.write p doc) key ranges = some (heap', r) ∧
        r.document = some q ∧ (heap'.read q).stored = F) ∧
    (cacheType = "memory" → ∃ q, ∀ doc, ∃ heap' r,
      queryCache x (mapCache cacheType) st (heap.write q doc) key ranges = some (heap', r) ∧
        r.document = some q ∧ (heap'.read q).stored = doc.stored) := by
  have holds := reached.holds
  refine ⟨fun bytes p doc => ?_, fun memory => ?_⟩
  · obtain ⟨heap', r, result, written, -⟩ :=
      (holds.of_bytes bytes (heap.write p doc)).queryCache_answers inverts key ranges
    obtain ⟨q, rfl, fields, -⟩ := written F found
    exact ⟨heap', _, q, result, rfl, fields⟩
  · obtain ⟨q, live, stored, -⟩ := holds.byReference memory key F found
    refine ⟨q, fun doc => ?_⟩
    have inside : q < ((heap.write q doc).alloc {}).1.length := by simp; omega
    obtain ⟨r, result, document, -⟩ := queryCacheRanges_hit ((heap.write q doc).alloc {}).1 q ranges
    have answered := queryCache_memory_document x (mapCache cacheType) st (heap.write q doc) key ranges memory
      (show _ = (.document (some q), .hit, none) by simp [mapCache, stored])
    refine ⟨_, r, answered.trans result, document, ?_⟩
    rw [Heap.read_write_self _ inside, HTTPDocument.stored_isFulfillment,
      Heap.read_alloc_old _ (by simpa using live), Heap.read_write_self _ live]

theorem owner_writes_reach_reference_stores_only_of_both :
    let doc : HTTPDocument := { status := "200 OK", ranges := [⟨0, 4⟩], contentLength := 10 }
    let s : MapStore := { objects := [("k", .document (some 0))] }
    let b : MapStore := { blobs := [("k", [0x00, 0x01])] }
    let m : Contents := [("k", (scrubbed doc).stored)]
    let x := storesOnly (scrubbed doc).stored
    (Inverts marshalFails ∧ Reachable marshalFails "memory" s [doc, {}] m ∧ m.lookup "k" = some (scrubbed doc).stored ∧
      ("memory" ≠ "memory" → ∀ p d, ∃ heap' r q,
        queryCache marshalFails (mapCache "memory") s (Heap.write [doc, {}] p d) "k" [] = some (heap', r) ∧
          r.document = some q ∧ (heap'.read q).stored = (scrubbed doc).stored) ∧
      ("memory" = "memory" → ∃ q, ∀ d, ∃ heap' r,
        queryCache marshalFails (mapCache "memory") s (Heap.write [doc, {}] q d) "k" [] = some (heap', r) ∧
          r.document = some q ∧ (heap'.read q).stored = d.stored)) ∧
    (Inverts x ∧ Reachable x "bytes" b [doc, {}] m ∧ m.lookup "k" = some (scrubbed doc).stored ∧
      ("bytes" ≠ "memory" → ∀ p d, ∃ heap' r q,
        queryCache x (mapCache "bytes") b (Heap.write [doc, {}] p d) "k" [] = some (heap', r) ∧
          r.document = some q ∧ (heap'.read q).stored = (scrubbed doc).stored) ∧
      ("bytes" = "memory" → ∃ q, ∀ d, ∃ heap' r,
        queryCache x (mapCache "bytes") b (Heap.write [doc, {}] q d) "k" [] = some (heap', r) ∧
          r.document = some q ∧ (heap'.read q).stored = d.stored)) :=
  ⟨⟨marshalFails_inverts, writeThenMiss_reachable, rfl,
    owner_writes_reach_reference_stores_only marshalFails_inverts writeThenMiss_reachable "k" rfl []⟩,
  ⟨storesOnly_inverts _, writeThenMiss_bytes_reachable, rfl,
    owner_writes_reach_reference_stores_only (storesOnly_inverts _) writeThenMiss_bytes_reachable "k" rfl []⟩⟩

end Engines
