import Trickster.Msgp.Wire
import Trickster.Byterange.Delta

namespace Engines

open Msgp Byterange

/-- Modelled from the spec: `status.LookupStatus`, whose package is not among the sources. -/
inductive LookupStatus
  | hit | partialHit | rangeMiss | keyMiss | revalidated | proxied | error
  deriving DecidableEq, Repr

inductive Error
  | cache (message : String)
  | msgp (err : MsgpError)
  deriving DecidableEq, Repr

abbrev Header := List (String × List String)

namespace Header

/-- `Header.Del` of a canonical name. -/
def del (h : Header) (name : String) : Header := h.filter fun entry => entry.1 ≠ name

/-- `Header.Get` of a canonical name: its first value, or the empty string. -/
def get (h : Header) (name : String) : String :=
  match h.lookup name with
  | some (value :: _) => value
  | _ => ""

end Header

/-- Modelled from the spec: the names of `headers` that `WriteCache` reads or strips. -/
def nameDate : String := "Date"
def nameTransferEncoding : String := "Transfer-Encoding"
def nameContentRange : String := "Content-Range"
def nameTricksterResult : String := "X-Trickster-Result"
def nameContentEncoding : String := "Content-Encoding"

/-- Modelled from the spec: the part of `CachingPolicy` the pipeline touches, `NoTransform` and the
client-conditional state that `ResetClientConditionals` clears before a document is cached. -/
structure CachingPolicy where
  noTransform : Bool
  isClientConditional : Bool
  deriving DecidableEq, Repr

/-- Modelled from the spec: `ResetClientConditionals`. -/
def CachingPolicy.resetClientConditionals (p : CachingPolicy) : CachingPolicy :=
  { p with isClientConditional := false }

/-- Modelled from the spec: a `RangePart`, the content of one stored range. -/
structure RangePart where
  range : Range
  content : Bytes
  deriving DecidableEq, Repr

/-- Modelled from the spec: `HTTPDocument`, with its three unexported transient flags. -/
structure HTTPDocument where
  statusCode : Int := 0
  status : String := ""
  headers : Header := []
  body : Bytes := []
  contentLength : Int := 0
  contentType : String := ""
  cachingPolicy : Option CachingPolicy := none
  ranges : Ranges := []
  rangeParts : List RangePart := []
  rangePartsLoaded : Bool := false
  isFulfillment : Bool := false
  isLoaded : Bool := false
  deriving DecidableEq, Repr

/-- Modelled from the spec: what the document's binary map encoding carries. The transient flags
are never serialized, the client-conditional state belongs to one request, and the range parts
come back empty on load, as `WriteCache` notes where it clears them for reference stores. -/
structure StoredFields where
  statusCode : Int
  status : String
  headers : Header
  body : Bytes
  contentLength : Int
  contentType : String
  noTransform : Option Bool
  ranges : Ranges
  deriving DecidableEq, Repr

namespace HTTPDocument

def stored (d : HTTPDocument) : StoredFields :=
  ⟨d.statusCode, d.status, d.headers, d.body, d.contentLength, d.contentType,
    d.cachingPolicy.map (·.noTransform), d.ranges⟩

def ofStored (f : StoredFields) : HTTPDocument :=
  { statusCode := f.statusCode, status := f.status, headers := f.headers, body := f.body,
    contentLength := f.contentLength, contentType := f.contentType,
    cachingPolicy := f.noTransform.map fun noTransform => ⟨noTransform, false⟩, ranges := f.ranges }

@[simp] theorem ofStored_stored (f : StoredFields) : (ofStored f).stored = f := by
  cases f with
  | mk statusCode status headers body contentLength contentType noTransform ranges =>
    cases noTransform <;> rfl

@[simp] theorem stored_isFulfillment (d : HTTPDocument) (b : Bool) :
    ({ d with isFulfillment := b } : HTTPDocument).stored = d.stored := rfl

end HTTPDocument

/-- Go's heap of documents: a `*HTTPDocument` is an index into it. Go has no dangling pointer,
so reading outside the heap never happens; it reads the zero document. -/
abbrev Heap := List HTTPDocument

namespace Heap

def read (heap : Heap) (pointer : Nat) : HTTPDocument := heap.getD pointer {}

def write (heap : Heap) (pointer : Nat) (d : HTTPDocument) : Heap := heap.set pointer d

/-- `&HTTPDocument{...}`: a new cell at the end of the heap. -/
def alloc (heap : Heap) (d : HTTPDocument) : Heap × Nat := (heap ++ [d], heap.length)

theorem read_write_self {heap : Heap} {pointer : Nat} (d : HTTPDocument)
    (bound : pointer < heap.length) : (heap.write pointer d).read pointer = d := by
  simp [read, write, bound]

@[simp] theorem read_write_ne (heap : Heap) {pointer other : Nat} (d : HTTPDocument)
    (different : pointer ≠ other) : (heap.write pointer d).read other = heap.read other := by
  simp [read, write, different]

@[simp] theorem length_write (heap : Heap) (pointer : Nat) (d : HTTPDocument) :
    (heap.write pointer d).length = heap.length := List.length_set _ _ _

theorem read_alloc_new (heap : Heap) (d : HTTPDocument) :
    (heap.alloc d).1.read (heap.alloc d).2 = d := by
  simp [read, alloc]

theorem read_alloc_old {heap : Heap} {pointer : Nat} (d : HTTPDocument)
    (bound : pointer < heap.length) : (heap.alloc d).1.read pointer = heap.read pointer := by
  simp [read, alloc, List.getElem?_append_left bound]

@[simp] theorem length_alloc (heap : Heap) (d : HTTPDocument) :
    (heap.alloc d).1.length = heap.length + 1 := by
  simp [alloc]

end Heap

/-- The dynamic value in the `interface{}` that `RetrieveReference` returns. -/
inductive Reference
  | nil
  | document (pointer : Option Nat)
  | other
  deriving DecidableEq, Repr

/-- `cache.Cache` and `cache.MemoryCache` as the pipeline calls them, over the store's state `σ`:
each lookup returns a value, a status and an error; each write returns an error. -/
structure Cache (σ : Type) where
  cacheType : String
  retrieve : σ → String → Bool → Bytes × LookupStatus × Option Error
  store : σ → String → Bytes → Nat → σ × Option Error
  retrieveReference : σ → String → Bool → Reference × LookupStatus × Option Error
  storeReference : σ → String → Reference → Nat → σ × Option Error

/-- What the pipeline calls from packages outside this repository's sources: the document's
generated codec, `snappy` and `mime.ParseMediaType`. A failed call returns its error. -/
structure Collaborators where
  marshalMsg : HTTPDocument → Bytes × Option MsgpError
  unmarshalMsg : HTTPDocument → Bytes → HTTPDocument × Option MsgpError
  snappyEncode : Bytes → Bytes
  snappyDecode : Bytes → Option Bytes
  parseMediaType : String → Option String

end Engines
