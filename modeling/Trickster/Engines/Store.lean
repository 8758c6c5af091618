import Trickster.Engines.Cache

namespace Engines

open Msgp

variable {σ : Type}

/-- Modelled from the spec: a store of the storage contract holding the last value written under
each key, by reference and as bytes. Expiry is left out, as every lookup allows expired entries. -/
structure MapStore where
  objects : List (String × Reference) := []
  blobs : List (String × Bytes) := []

/-- Modelled from the spec: `Retrieve`, `Store`, `RetrieveReference` and `StoreReference` of such a
store. A key never written is a `KeyMiss`; no call fails. -/
def mapCache (cacheType : String) : Cache MapStore where
  cacheType := cacheType
  retrieve s key _ :=
    match s.blobs.lookup key with
    | some bytes => (bytes, .hit, none)
    | none => ([], .keyMiss, none)
  store s key bytes _ := ({ s with blobs := (key, bytes) :: s.blobs }, none)
  retrieveReference s key _ :=
    match s.objects.lookup key with
    | some r => (r, .hit, none)
    | none => (.nil, .keyMiss, none)
  storeReference s key r _ := ({ s with objects := (key, r) :: s.objects }, none)

/-- A store whose lookups hand back what the last successful write of the key received. -/
structure RoundTrips (c : Cache σ) : Prop where
  retrieve_store : ∀ s key bytes ttl s', c.store s key bytes ttl = (s', none) →
    c.retrieve s' key true = (bytes, .hit, none)
  retrieveReference_storeReference : ∀ s key r ttl s', c.storeReference s key r ttl = (s', none) →
    c.retrieveReference s' key true = (r, .hit, none)

theorem mapCache_roundTrips (cacheType : String) : RoundTrips (mapCache cacheType) where
  retrieve_store s key bytes ttl s' stored := by
    cases stored
    simp [mapCache]
  retrieveReference_storeReference s key r ttl s' stored := by
    cases stored
    simp [mapCache]

def referenceOnly : Collaborators := ⟨fun _ => ([], none), fun d _ => (d, none), id, some, fun _ => none⟩

end Engines
