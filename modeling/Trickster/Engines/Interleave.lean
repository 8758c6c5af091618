import Trickster.Engines.Runs

namespace Engines

open Byterange

/-- Where a lookup stands in the tail of `QueryCache`: before the write of the fulfillment flag
(line 125), before its read (line 127), before the classification of the ranges that read left
(lines 134-144), or done with its answer. -/
inductive Phase where
  | fulfill
  | check
  | classify (ranges : Ranges)
  | done (r : Lookup)
  deriving DecidableEq, Repr

/-- A lookup in the tail of `QueryCache` (lines 119-146), which the goroutines serving requests
run concurrently on the document a memory store shares: the cell `d` that `RetrieveReference`
returned, the lookup's status, the ranges it wants and where it stands. The part before the tail
only reads the store and writes the lookup's own fresh document. -/
structure Query where
  d : Nat
  lookupStatus : LookupStatus
  ranges : Ranges
  phase : Phase
  deriving DecidableEq, Repr

/-- Line 125: the flag a lookup writes, set when the document holds ranges and the lookup wants
the whole body. -/
def Query.fulfillment (q : Query) (doc : HTTPDocument) : Bool := decide (doc.ranges ≠ [] ∧ q.ranges = [])

/-- Line 131: the one range of the whole body. -/
def wholeBody (doc : HTTPDocument) : Ranges := [⟨0, doc.contentLength - 1⟩]

/-- Lines 134-144: the classification of `ranges` against the document `doc` in cell `d`. -/
def classifyLookup (doc : HTTPDocument) (d : Nat) (lookupStatus : LookupStatus) (ranges : Ranges) : Lookup :=
  if ranges ≠ [] ∧ doc.ranges ≠ [] then
    let delta := calculateDelta ranges doc.ranges doc.contentLength
    ⟨some d, if delta ≠ [] then (if equal delta ranges then .rangeMiss else .partialHit) else lookupStatus,
      delta, none⟩
  else ⟨some d, lookupStatus, [], none⟩

def Query.step (q : Query) (heap : Heap) : Heap × Query :=
  let doc := heap.read q.d
  match q.phase with
  | .fulfill => (heap.write q.d { doc with isFulfillment := q.fulfillment doc }, { q with phase := .check })
  | .check => (heap, { q with phase := .classify (if doc.isFulfillment then wholeBody doc else q.ranges) })
  | .classify ranges => (heap, { q with phase := .done (classifyLookup doc q.d q.lookupStatus ranges) })
  | .done _ => (heap, q)

structure Lookups where
  heap : Heap
  queries : List Query

namespace Lookups

/-- The scheduler runs one step of lookup `i`; an index with no lookup changes nothing. -/
def step (s : Lookups) (i : Nat) : Lookups :=
  match s.queries[i]? with
  | none => s
  | some q => ⟨(q.step s.heap).1, s.queries.set i (q.step s.heap).2⟩

def run (s : Lookups) (schedule : List Nat) : Lookups := schedule.foldl step s

end Lookups

namespace Query

variable (q : Query) (heap : Heap)

theorem with_phase_self {phase : Phase} (current : q.phase = phase) : { q with phase } = q := by
  cases q
  cases current
  rfl

theorem step_fulfill : ({ q with phase := .fulfill } : Query).step heap =
    (heap.write q.d { heap.read q.d with isFulfillment := q.fulfillment (heap.read q.d) }, { q with phase := .check }) :=
  rfl

theorem step_check : ({ q with phase := .check } : Query).step heap =
    (heap, { q with phase := .classify (if (heap.read q.d).isFulfillment then wholeBody (heap.read q.d) else q.ranges) }) :=
  rfl

theorem step_classify (ranges : Ranges) : ({ q with phase := .classify ranges } : Query).step heap =
    (heap, { q with phase := .done (classifyLookup (heap.read q.d) q.d q.lookupStatus ranges) }) :=
  rfl

theorem step_heap_of_written (written : q.phase ≠ .fulfill) : (q.step heap).1 = heap := by
  obtain ⟨d, lookupStatus, ranges, _ | _ | _ | _⟩ := q
  · exact absurd rfl written
  all_goals rfl

theorem step_written : (q.step heap).2.phase ≠ .fulfill := by
  obtain ⟨d, lookupStatus, ranges, _ | _ | _ | _⟩ := q <;> nofun

theorem step_flagsOnly : FlagsOnly heap (q.step heap).1 := by
  obtain ⟨d, lookupStatus, ranges, _ | _ | _ | _⟩ := q
  · exact FlagsOnly.write_flag heap d _
  all_goals exact FlagsOnly.refl heap

end Query

theorem queryCacheRanges_classifyLookup (heap : Heap) (q : Query) :
    queryCacheRanges heap (some q.d) q.lookupStatus q.ranges =
      some (heap.write q.d { heap.read q.d with isFulfillment := q.fulfillment (heap.read q.d) },
        classifyLookup (heap.read q.d) q.d q.lookupStatus
          (if q.fulfillment (heap.read q.d) then wholeBody (heap.read q.d) else q.ranges)) := by
  simp only [queryCacheRanges, classifyLookup, Query.fulfillment, wholeBody]
  split_ifs <;> rfl

section FlagsOnly

variable {heap₀ heap : Heap} {p : Nat}

theorem FlagsOnly.read_ranges (kept : FlagsOnly heap₀ heap) (live : p < heap₀.length) :
    (heap.read p).ranges = (heap₀.read p).ranges ∧ (heap.read p).contentLength = (heap₀.read p).contentLength := by
  rw [kept.2 p live]
  exact ⟨rfl, rfl⟩

theorem FlagsOnly.fulfillment (kept : FlagsOnly heap₀ heap) (live : p < heap₀.length) (q : Query) :
    q.fulfillment (heap.read p) = q.fulfillment (heap₀.read p) := by
  simp only [Query.fulfillment, (kept.read_ranges live).1]

theorem FlagsOnly.wholeBody (kept : FlagsOnly heap₀ heap) (live : p < heap₀.length) :
    wholeBody (heap.read p) = wholeBody (heap₀.read p) := by
  simp only [Engines.wholeBody, (kept.read_ranges live).2]

theorem FlagsOnly.classifyLookup (kept : FlagsOnly heap₀ heap) (live : p < heap₀.length) :
    classifyLookup (heap.read p) = classifyLookup (heap₀.read p) := by
  funext
  simp only [Engines.classifyLookup, kept.read_ranges live]

end FlagsOnly

namespace Lookups

theorem run_cons (s : Lookups) (i : Nat) (schedule : List Nat) : s.run (i :: schedule) = (s.step i).run schedule :=
  rfl

theorem step_of_get {s : Lookups} {i : Nat} {q : Query} (found : s.queries[i]? = some q) :
    s.step i = ⟨(q.step s.heap).1, s.queries.set i (q.step s.heap).2⟩ := by
  simp only [step, found]

theorem step_get_self {s : Lookups} {i : Nat} {q : Query} (found : s.queries[i]? = some q) :
    (s.step i).queries[i]? = some (q.step s.heap).2 := by
  rw [step_of_get found, List.getElem?_set_self', found]
  rfl

theorem step_get_ne (s : Lookups) {i j : Nat} (other : i ≠ j) : (s.step i).queries[j]? = s.queries[j]? := by
  unfold step
  split
  · rfl
  · exact List.getElem?_set_ne other

theorem step_length (s : Lookups) (i : Nat) : (s.step i).queries.length = s.queries.length := by
  unfold step
  split
  · rfl
  · exact List.length_set _ _ _

theorem step_flagsOnly (s : Lookups) (i : Nat) : FlagsOnly s.heap (s.step i).heap := by
  unfold step
  split
  · exact FlagsOnly.refl _
  · exact Query.step_flagsOnly _ _

theorem run_invariant {Inv : Lookups → Prop} (kept : ∀ s i, Inv s → Inv (s.step i)) :
    ∀ (schedule : List Nat) (s : Lookups), Inv s → Inv (s.run schedule)
  | [], _, holds => holds
  | i :: schedule, s, holds => run_invariant kept schedule (s.step i) (kept s i holds)

theorem run_alone (s : Lookups) {i : Nat} {q : Query} (found : s.queries[i]? = some { q with phase := .fulfill })
    (live : q.d < s.heap.length) :
    ∃ heap' r, queryCacheRanges s.heap (some q.d) q.lookupStatus q.ranges = some (heap', r) ∧
      s.run [i, i, i] = ⟨heap', s.queries.set i { q with phase := .done r }⟩ := by
  have written : (s.heap.write q.d { s.heap.read q.d with isFulfillment := q.fulfillment (s.heap.read q.d) }).read q.d =
      { s.heap.read q.d with isFulfillment := q.fulfillment (s.heap.read q.d) } :=
    Heap.read_write_self _ live
  refine ⟨_, _, queryCacheRanges_classifyLookup s.heap q, ?_⟩
  have first := step_get_self found
  rw [Query.step_fulfill] at first
  have second := step_get_self first
  rw [Query.step_check] at second
  rw [run_cons, run_cons, run_cons, run, List.foldl_nil, step_of_get second, step_of_get first, step_of_get found,
    Query.step_classify, Query.step_check, Query.step_fulfill]
  simp only [List.set_set, written]
  rfl

end Lookups

def Reaches (heap : Heap) (q : Query) : Phase → Prop
  | .fulfill | .check => True
  | .classify ranges => ranges = q.ranges ∨ ranges = wholeBody (heap.read q.d)
  | .done r => r = classifyLookup (heap.read q.d) q.d q.lookupStatus q.ranges ∨
      r = classifyLookup (heap.read q.d) q.d q.lookupStatus (wholeBody (heap.read q.d))

structure Sound (heap₀ : Heap) (queries₀ : List Query) (s : Lookups) : Prop where
  flagsOnly : FlagsOnly heap₀ s.heap
  each : ∀ (i : Nat) (q : Query), queries₀[i]? = some q → ∃ phase, s.queries[i]? = some { q with phase } ∧ Reaches heap₀ q phase

theorem Sound.step {heap₀ : Heap} {queries₀ : List Query} (live : ∀ q ∈ queries₀, q.d < heap₀.length)
    {s : Lookups} (sound : Sound heap₀ queries₀ s) (i : Nat) : Sound heap₀ queries₀ (s.step i) := by
  refine ⟨sound.flagsOnly.trans (s.step_flagsOnly i), fun j q found => ?_⟩
  obtain ⟨phase, current, reaches⟩ := sound.each j q found
  by_cases same : i = j
  · subst same
    have inside := live q (List.getElem?_mem found)
    rw [s.step_get_self current]
    cases phase with
    | fulfill => exact ⟨.check, rfl, trivial⟩
    | check =>
      refine ⟨_, rfl, ?_⟩
      rw [sound.flagsOnly.wholeBody inside]
      split_ifs
      exacts [.inr rfl, .inl rfl]
    | classify ranges =>
      refine ⟨_, rfl, ?_⟩
      rw [sound.flagsOnly.classifyLookup inside]
      rcases reaches with rfl | rfl
      exacts [.inl rfl, .inr rfl]
    | done r => exact ⟨_, rfl, reaches⟩
  · exact ⟨phase, (s.step_get_ne same).trans current, reaches⟩

/-- Over every interleaving of lookups that start at the fulfillment write on live cells, each
lookup keeps its request and, once done, answers for the ranges it wanted or for the whole body;
documents change at most in their fulfillment flags. -/
theorem lookups_answer_request_or_whole_body (heap : Heap) (queries : List Query)
    (start : ∀ q ∈ queries, q.phase = .fulfill ∧ q.d < heap.length) (schedule : List Nat) :
    FlagsOnly heap (Lookups.run ⟨heap, queries⟩ schedule).heap ∧
      ∀ (i : Nat) (q : Query), queries[i]? = some q → ∃ phase, (Lookups.run ⟨heap, queries⟩ schedule).queries[i]? = some { q with phase } ∧
        ∀ r, phase = .done r → r = classifyLookup (heap.read q.d) q.d q.lookupStatus q.ranges ∨
          r = classifyLookup (heap.read q.d) q.d q.lookupStatus (wholeBody (heap.read q.d)) := by
  have initial : Sound heap queries ⟨heap, queries⟩ :=
    ⟨FlagsOnly.refl heap, fun i q found =>
      ⟨.fulfill, by rw [found, q.with_phase_self (start q (List.getElem?_mem found)).1], trivial⟩⟩
  have sound := Lookups.run_invariant (fun s i sound => sound.step (fun q mem => (start q mem).2) i) schedule _ initial
  refine ⟨sound.flagsOnly, fun i q found => ?_⟩
  obtain ⟨phase, current, reaches⟩ := sound.each i q found
  exact ⟨phase, current, fun r done => by subst done; exact reaches⟩

theorem lookups_answer_request_or_whole_body_of_two :
    let doc : HTTPDocument := { ranges := [⟨0, 4⟩], contentLength := 10 }
    let queries : List Query := [⟨0, .hit, [], .fulfill⟩, ⟨0, .hit, [⟨0, 4⟩], .fulfill⟩]
    (∀ q ∈ queries, q.phase = .fulfill ∧ q.d < [doc].length) ∧
      FlagsOnly [doc] (Lookups.run ⟨[doc], queries⟩ [0, 1, 0, 0]).heap ∧
      ∀ (i : Nat) (q : Query), queries[i]? = some q → ∃ phase,
        (Lookups.run ⟨[doc], queries⟩ [0, 1, 0, 0]).queries[i]? = some { q with phase } ∧
        ∀ r, phase = .done r → r = classifyLookup (Heap.read [doc] q.d) q.d q.lookupStatus q.ranges ∨
          r = classifyLookup (Heap.read [doc] q.d) q.d q.lookupStatus (wholeBody (Heap.read [doc] q.d)) :=
  have start : ∀ q ∈ [(⟨0, .hit, [], .fulfill⟩ : Query), ⟨0, .hit, [⟨0, 4⟩], .fulfill⟩],
      q.phase = .fulfill ∧ q.d < [({ ranges := [⟨0, 4⟩], contentLength := 10 } : HTTPDocument)].length := by
    decide
  ⟨start, lookups_answer_request_or_whole_body _ _ start _⟩

def Undisturbed (heap₀ heap : Heap) (q : Query) : Phase → Prop
  | .fulfill => True
  | .check => (heap.read q.d).isFulfillment = q.fulfillment (heap₀.read q.d)
  | .classify ranges => ranges = if q.fulfillment (heap₀.read q.d) then wholeBody (heap₀.read q.d) else q.ranges
  | .done r => (queryCacheRanges heap₀ (some q.d) q.lookupStatus q.ranges).map Prod.snd = some r

structure Agreeing (heap₀ : Heap) (queries₀ : List Query) (s : Lookups) : Prop where
  flagsOnly : FlagsOnly heap₀ s.heap
  length : s.queries.length = queries₀.length
  each : ∀ (i : Nat) (q : Query), queries₀[i]? = some q →
    ∃ phase, s.queries[i]? = some { q with phase } ∧ Undisturbed heap₀ s.heap q phase

namespace Agreeing

variable {heap₀ : Heap} {queries₀ : List Query} {s : Lookups}

theorem step_heap (agreeing : Agreeing heap₀ queries₀ s) (i : Nat) :
    (s.step i).heap = s.heap ∨ ∃ q ∈ queries₀,
      (s.step i).heap = s.heap.write q.d { s.heap.read q.d with isFulfillment := q.fulfillment (s.heap.read q.d) } := by
  cases found : s.queries[i]? with
  | none => simp only [Lookups.step, found, true_or]
  | some q' =>
    have inside : i < queries₀.length := agreeing.length ▸ (List.getElem?_eq_some_iff.mp found).1
    obtain ⟨phase, current, -⟩ := agreeing.each i _ (List.getElem?_eq_getElem inside)
    rw [found, Option.some.injEq] at current
    rw [Lookups.step_of_get found, current]
    cases phase with
    | fulfill => exact .inr ⟨_, List.getElem_mem inside, rfl⟩
    | _ => exact .inl rfl

theorem step (live : ∀ q ∈ queries₀, q.d < heap₀.length)
    (agree : ∀ q ∈ queries₀, ∀ q' ∈ queries₀, q.d = q'.d → q.fulfillment (heap₀.read q.d) = q'.fulfillment (heap₀.read q.d))
    (agreeing : Agreeing heap₀ queries₀ s) (i : Nat) : Agreeing heap₀ queries₀ (s.step i) := by
  have kept := agreeing.flagsOnly
  refine ⟨kept.trans (s.step_flagsOnly i), (s.step_length i).trans agreeing.length, fun j q found => ?_⟩
  obtain ⟨phase, current, undisturbed⟩ := agreeing.each j q found
  have mem := List.getElem?_mem found
  have inside := live q mem
  have long : q.d < s.heap.length := lt_of_lt_of_le inside kept.1
  by_cases same : i = j
  · subst same
    rw [s.step_get_self current]
    cases phase with
    | fulfill =>
      refine ⟨_, rfl, ?_⟩
      show ((s.step i).heap.read q.d).isFulfillment = _
      rw [Lookups.step_of_get current, Query.step_fulfill]
      show (Heap.read (s.heap.write q.d _) q.d).isFulfillment = _
      rw [Heap.read_write_self _ long, kept.fulfillment inside]
    | check =>
      refine ⟨_, rfl, ?_⟩
      dsimp only [Undisturbed]
      rw [undisturbed, kept.wholeBody inside]
    | classify ranges =>
      refine ⟨_, rfl, ?_⟩
      show _ = some (classifyLookup (s.heap.read q.d) q.d q.lookupStatus ranges)
      rw [queryCacheRanges_classifyLookup, kept.classifyLookup inside, undisturbed]
      rfl
    | done r => exact ⟨_, rfl, undisturbed⟩
  · refine ⟨phase, (s.step_get_ne same).trans current, ?_⟩
    cases phase with
    | check =>
      show ((s.step i).heap.read q.d).isFulfillment = _
      rcases agreeing.step_heap i with unchanged | ⟨q', mem', written⟩
      · rw [unchanged]
        exact undisturbed
      · rw [written]
        by_cases cell : q'.d = q.d
        · have shared := agree q' mem' q mem cell
          rw [cell] at shared
          rw [cell, Heap.read_write_self _ long, kept.fulfillment inside]
          exact shared
        · rw [Heap.read_write_ne _ _ cell]
          exact undisturbed
    | _ => exact undisturbed

end Agreeing

/-- Lookups of a document that write the same fulfillment flag never disturb one another: over
every interleaving of lookups that start at the fulfillment write on live cells, where any two
lookups of one cell write the same flag, each lookup keeps its request and, once done, answers
what `queryCacheRanges` answers for it alone on the starting heap. -/
theorem agreeing_lookups_answer_as_alone (heap : Heap) (queries : List Query)
    (start : ∀ q ∈ queries, q.phase = .fulfill ∧ q.d < heap.length)
    (agree : ∀ q ∈ queries, ∀ q' ∈ queries, q.d = q'.d → q.fulfillment (heap.read q.d) = q'.fulfillment (heap.read q.d))
    (schedule : List Nat) :
    ∀ (i : Nat) (q : Query), queries[i]? = some q → ∃ phase,
      (Lookups.run ⟨heap, queries⟩ schedule).queries[i]? = some { q with phase } ∧
        ∀ r, phase = .done r → (queryCacheRanges heap (some q.d) q.lookupStatus q.ranges).map Prod.snd = some r := by
  have initial : Agreeing heap queries ⟨heap, queries⟩ :=
    ⟨FlagsOnly.refl heap, rfl, fun i q found =>
      ⟨.fulfill, by rw [found, q.with_phase_self (start q (List.getElem?_mem found)).1], trivial⟩⟩
  have agreeing := Lookups.run_invariant
    (fun s i agreeing => agreeing.step (fun q mem => (start q mem).2) agree i) schedule _ initial
  intro i q found
  obtain ⟨phase, current, undisturbed⟩ := agreeing.each i q found
  exact ⟨phase, current, fun r done => by subst done; exact undisturbed⟩

theorem agreeing_lookups_answer_as_alone_of_ranges :
    let doc : HTTPDocument := { ranges := [⟨0, 4⟩], contentLength := 10 }
    let queries : List Query := [⟨0, .hit, [⟨0, 4⟩], .fulfill⟩, ⟨0, .hit, [⟨2, 7⟩], .fulfill⟩]
    (∀ q ∈ queries, q.phase = .fulfill ∧ q.d < [doc].length) ∧
      (∀ q ∈ queries, ∀ q' ∈ queries, q.d = q'.d →
        q.fulfillment (Heap.read [doc] q.d) = q'.fulfillment (Heap.read [doc] q.d)) ∧
      ∀ (i : Nat) (q : Query), queries[i]? = some q → ∃ phase,
        (Lookups.run ⟨[doc], queries⟩ [0, 1, 0, 1, 0, 1]).queries[i]? = some { q with phase } ∧
        ∀ r, phase = .done r → (queryCacheRanges [doc] (some q.d) q.lookupStatus q.ranges).map Prod.snd = some r :=
  have start : ∀ q ∈ [(⟨0, .hit, [⟨0, 4⟩], .fulfill⟩ : Query), ⟨0, .hit, [⟨2, 7⟩], .fulfill⟩],
      q.phase = .fulfill ∧ q.d < [({ ranges := [⟨0, 4⟩], contentLength := 10 } : HTTPDocument)].length := by
    decide
  have agree : ∀ q ∈ [(⟨0, .hit, [⟨0, 4⟩], .fulfill⟩ : Query), ⟨0, .hit, [⟨2, 7⟩], .fulfill⟩],
      ∀ q' ∈ [(⟨0, .hit, [⟨0, 4⟩], .fulfill⟩ : Query), ⟨0, .hit, [⟨2, 7⟩], .fulfill⟩], q.d = q'.d →
        q.fulfillment (Heap.read [({ ranges := [⟨0, 4⟩], contentLength := 10 } : HTTPDocument)] q.d) =
          q'.fulfillment (Heap.read [({ ranges := [⟨0, 4⟩], contentLength := 10 } : HTTPDocument)] q.d) := by
    decide
  ⟨start, agree, agreeing_lookups_answer_as_alone _ _ start agree _⟩

namespace Lookups

theorem run_get_ne (s : Lookups) {i : Nat} {schedule : List Nat} (others : i ∉ schedule) :
    (s.run schedule).queries[i]? = s.queries[i]? := by
  induction schedule generalizing s with
  | nil => rfl
  | cons j schedule ih =>
    rw [List.mem_cons, not_or] at others
    rw [run_cons, ih _ others.2, step_get_ne _ (Ne.symm others.1)]

theorem run_append (s : Lookups) (first second : List Nat) : s.run (first ++ second) = (s.run first).run second :=
  List.foldl_append _ _ _ _

theorem run_flagsOnly (s : Lookups) (schedule : List Nat) : FlagsOnly s.heap (s.run schedule).heap :=
  run_invariant (fun s' i (kept : FlagsOnly s.heap s'.heap) => kept.trans (s'.step_flagsOnly i)) schedule s
    (FlagsOnly.refl _)

theorem step_idle (s : Lookups) {i : Nat} (beyond : s.queries.length ≤ i) : s.step i = s := by
  simp only [step, List.getElem?_eq_none beyond]

theorem run_idle (s : Lookups) {schedule : List Nat} (idle : ∀ i ∈ schedule, s.queries.length ≤ i) :
    s.run schedule = s := by
  induction schedule with
  | nil => rfl
  | cons i schedule ih => rw [run_cons, s.step_idle (idle i (.head _)), ih fun j mem => idle j (.tail _ mem)]

theorem run_written (s : Lookups) (written : ∀ q ∈ s.queries, q.phase ≠ .fulfill) (schedule : List Nat) :
    (s.run schedule).heap = s.heap ∧ ∀ i, (s.run schedule).queries[i]? =
      (s.queries[i]?).map (fun q : Query => (q.step s.heap).2)^[schedule.count i] := by
  induction schedule generalizing s with
  | nil => exact ⟨rfl, fun i => Option.map_id'.symm⟩
  | cons j schedule ih =>
    cases found : s.queries[j]? with
    | none =>
      have idle : s.step j = s := by simp only [step, found]
      obtain ⟨unchanged, each⟩ := ih s written
      rw [run_cons, idle]
      refine ⟨unchanged, fun i => ?_⟩
      by_cases here : j = i
      · subst here
        rw [each, found]
        rfl
      · rw [each, List.count_cons_of_ne (Ne.symm here)]
    | some q =>
      have same : (s.step j).heap = s.heap := by
        rw [step_of_get found]
        exact q.step_heap_of_written s.heap (written q (List.getElem?_mem found))
      have written' : ∀ q' ∈ (s.step j).queries, q'.phase ≠ .fulfill := by
        rw [step_of_get found]
        intro q' mem
        rcases List.mem_or_eq_of_mem_set mem with old | rfl
        exacts [written q' old, q.step_written s.heap]
      obtain ⟨unchanged, each⟩ := ih (s.step j) written'
      rw [same] at unchanged each
      refine ⟨unchanged, fun i => ?_⟩
      rw [run_cons, each i]
      by_cases here : j = i
      · subst here
        rw [step_get_self found, found, List.count_cons_self, Option.map_some', Option.map_some',
          Function.iterate_succ_apply]
      · rw [step_get_ne _ here, List.count_cons_of_ne (Ne.symm here)]

theorem run_alone_answer {heap₀ : Heap} (s : Lookups) {i : Nat} {q : Query}
    (found : s.queries[i]? = some { q with phase := .fulfill }) (live : q.d < heap₀.length)
    (kept : FlagsOnly heap₀ s.heap) :
    (s.run [i, i, i]).queries[i]? = some { q with phase := .done (classifyLookup (heap₀.read q.d) q.d q.lookupStatus
      (if q.fulfillment (heap₀.read q.d) then wholeBody (heap₀.read q.d) else q.ranges)) } := by
  obtain ⟨heap', r, answer, ran⟩ := s.run_alone found (lt_of_lt_of_le live kept.1)
  rw [queryCacheRanges_classifyLookup, Option.some.injEq, Prod.mk.injEq] at answer
  rw [ran, ← answer.2, kept.fulfillment live, kept.wholeBody live, kept.classifyLookup live,
    List.getElem?_set_self (List.getElem?_eq_some_iff.mp found).1]

end Lookups

/-- Two lookups of one document that holds ranges, one of the whole body and one of some ranges.
In every schedule where the lookup of ranges writes the flag between the whole-body lookup's write
and its read, the whole-body lookup is answered as a plain hit with nothing missing. Run one after
the other, in either order, it is answered for the whole body, which misses what the held ranges
leave out. -/
theorem whole_body_lookup_races_to_hit (heap : Heap) (p : Nat) (live : p < heap.length)
    (holds : (heap.read p).ranges ≠ []) (wholeStatus rangesStatus : LookupStatus) (wanted : Ranges)
    (nonempty : wanted ≠ [])
    (uncovered : calculateDelta (wholeBody (heap.read p)) (heap.read p).ranges (heap.read p).contentLength ≠ [])
    (pre mid post : List Nat) (neither : ∀ i ∈ pre ++ mid, i ≠ 0 ∧ i ≠ 1) (finishes : 2 ≤ post.count 0) :
    let whole : Query := ⟨p, wholeStatus, [], .fulfill⟩
    let part : Query := ⟨p, rangesStatus, wanted, .fulfill⟩
    (Lookups.run ⟨heap, [whole, part]⟩ (pre ++ [0] ++ mid ++ [1] ++ post)).queries[0]? =
        some { whole with phase := .done ⟨some p, wholeStatus, [], none⟩ } ∧
      ∃ r : Lookup, r.missing ≠ [] ∧
        (Lookups.run ⟨heap, [whole, part]⟩ [0, 0, 0, 1, 1, 1]).queries[0]? = some { whole with phase := .done r } ∧
        (Lookups.run ⟨heap, [whole, part]⟩ [1, 1, 1, 0, 0, 0]).queries[0]? = some { whole with phase := .done r } := by
  intro whole part
  have wants : whole.fulfillment (heap.read whole.d) = true := by simpa [Query.fulfillment] using holds
  refine ⟨?_, classifyLookup (heap.read p) p wholeStatus (wholeBody (heap.read p)), ?_, ?_, ?_⟩
  · -- `whole` writes `true`, `part` overwrites it with `false`, and `whole` reads `false`
    have idle : ∀ s : Lookups, s.queries.length = 2 → ∀ σ, (∀ i ∈ σ, i ≠ 0 ∧ i ≠ 1) → s.run σ = s :=
      fun s two σ other => s.run_idle fun i mem => by have := other i mem; omega
    let first : Lookups := Lookups.step ⟨heap, [whole, part]⟩ 0
    let second : Lookups := first.step 1
    have two : second.queries = [{ whole with phase := .check }, { part with phase := .check }] := rfl
    have written : ∀ q ∈ second.queries, q.phase ≠ .fulfill := by
      rw [two]
      exact List.forall_mem_cons.mpr ⟨nofun, List.forall_mem_singleton.mpr nofun⟩
    have flag : (second.heap.read whole.d).isFulfillment = false := by
      simp [second, first, whole, part, Lookups.step, Query.step, Query.fulfillment, Heap.read_write_self, live, nonempty]
    have done (r : Lookup) : (({ whole with phase := .done r } : Query).step second.heap).2 = { whole with phase := .done r } :=
      rfl
    obtain ⟨n, count⟩ : ∃ n, post.count 0 = n + 2 := ⟨post.count 0 - 2, by omega⟩
    simp only [Lookups.run_append]
    rw [idle ⟨heap, [whole, part]⟩ rfl pre fun i mem => neither i (List.mem_append_left _ mem),
      show Lookups.run ⟨heap, [whole, part]⟩ [0] = first from rfl,
      idle first rfl mid fun i mem => neither i (List.mem_append_right _ mem),
      show first.run [1] = second from rfl, (second.run_written written post).2 0, count, two,
      List.getElem?_cons_zero, Option.map_some', Function.iterate_succ_apply, Function.iterate_succ_apply,
      Query.step_check, flag, if_neg Bool.false_ne_true, Query.step_classify, Function.iterate_fixed (done _)]
    rfl
  · simpa [classifyLookup, wholeBody, holds] using uncovered
  · have found : (⟨heap, [whole, part]⟩ : Lookups).queries[0]? = some { whole with phase := .fulfill } := rfl
    have alone := Lookups.run_alone_answer _ found live (FlagsOnly.refl heap)
    rw [wants, if_pos rfl] at alone
    rw [show [0, 0, 0, 1, 1, 1] = [0, 0, 0] ++ [1, 1, 1] from rfl, Lookups.run_append, Lookups.run_get_ne _ (by decide),
      alone]
  · have found : (Lookups.run ⟨heap, [whole, part]⟩ [1, 1, 1]).queries[0]? = some { whole with phase := .fulfill } :=
      Lookups.run_get_ne _ (by decide)
    have alone := Lookups.run_alone_answer _ found live (Lookups.run_flagsOnly ⟨heap, [whole, part]⟩ [1, 1, 1])
    rw [wants, if_pos rfl] at alone
    rw [show [1, 1, 1, 0, 0, 0] = [1, 1, 1] ++ [0, 0, 0] from rfl, Lookups.run_append, alone]

theorem whole_body_lookup_races_to_hit_of_half :
    let doc : HTTPDocument := { ranges := [⟨0, 4⟩], contentLength := 10 }
    0 < [doc].length ∧ (Heap.read [doc] 0).ranges ≠ [] ∧ ([⟨0, 4⟩] : Ranges) ≠ [] ∧
      calculateDelta (wholeBody (Heap.read [doc] 0)) (Heap.read [doc] 0).ranges (Heap.read [doc] 0).contentLength ≠ [] ∧
      (∀ i ∈ [2] ++ [3], i ≠ 0 ∧ i ≠ 1) ∧ 2 ≤ [0, 1, 0].count 0 ∧
      let whole : Query := ⟨0, .hit, [], .fulfill⟩
      let part : Query := ⟨0, .hit, [⟨0, 4⟩], .fulfill⟩
      (Lookups.run ⟨[doc], [whole, part]⟩ ([2] ++ [0] ++ [3] ++ [1] ++ [0, 1, 0])).queries[0]? =
          some { whole with phase := .done ⟨some 0, .hit, [], none⟩ } ∧
        ∃ r : Lookup, r.missing ≠ [] ∧
          (Lookups.run ⟨[doc], [whole, part]⟩ [0, 0, 0, 1, 1, 1]).queries[0]? = some { whole with phase := .done r } ∧
          (Lookups.run ⟨[doc], [whole, part]⟩ [1, 1, 1, 0, 0, 0]).queries[0]? = some { whole with phase := .done r } :=
  have live : 0 < [({ ranges := [⟨0, 4⟩], contentLength := 10 } : HTTPDocument)].length := by decide
  have holds : (Heap.read [({ ranges := [⟨0, 4⟩], contentLength := 10 } : HTTPDocument)] 0).ranges ≠ [] := by decide
  have nonempty : ([⟨0, 4⟩] : Ranges) ≠ [] := by decide
  have uncovered : calculateDelta (wholeBody (Heap.read [({ ranges := [⟨0, 4⟩], contentLength := 10 } : HTTPDocument)] 0))
      (Heap.read [({ ranges := [⟨0, 4⟩], contentLength := 10 } : HTTPDocument)] 0).ranges
      (Heap.read [({ ranges := [⟨0, 4⟩], contentLength := 10 } : HTTPDocument)] 0).contentLength ≠ [] := by
    decide
  have neither : ∀ i ∈ [2] ++ [3], i ≠ 0 ∧ i ≠ 1 := by decide
  have finishes : 2 ≤ [0, 1, 0].count 0 := by decide
  ⟨live, holds, nonempty, uncovered, neither, finishes,
    whole_body_lookup_races_to_hit _ 0 live holds .hit .hit _ nonempty uncovered _ _ _ neither finishes⟩

/-- The race spoils answers, never what the cache holds. After any interleaving of concurrent
lookups on a state reached by `WriteCache` and `QueryCache` calls, the documents still hold the
contents, so a lookup that follows answers from them as `queryCache_refines_contents` describes:
for a written key the status and missing ranges its contents call for, and for a key never
written a `KeyMiss`. -/
theorem lookups_keep_contents {x : Collaborators} {cacheType : String} {st : MapStore} {heap : Heap}
    {m : Contents} (inverts : Inverts x) (reached : Reachable x cacheType st heap m) (queries : List Query)
    (schedule : List Nat) (key : String) (ranges : Ranges) :
    let heap₁ := (Lookups.run ⟨heap, queries⟩ schedule).heap
    ∃ heap' r, queryCache x (mapCache cacheType) st heap₁ key ranges = some (heap', r) ∧
      (∀ F, m.lookup key = some F → ∃ p,
        r = ⟨some p, (expectedLookup F ranges).1, (expectedLookup F ranges).2, none⟩ ∧
        (heap'.read p).stored = F ∧ (heap'.read p).isLoaded = false ∧ (heap'.read p).rangePartsLoaded = false) ∧
      (m.lookup key = none → r = ⟨some heap₁.length, .keyMiss, ranges, none⟩ ∧ heap'.read heap₁.length = {}) :=
  (reached.holds.flagsOnly (Lookups.run_flagsOnly ⟨heap, queries⟩ schedule)).queryCache_answers inverts key ranges

theorem lookups_keep_contents_after_race :
    let doc : HTTPDocument := { status := "200 OK", ranges := [⟨0, 4⟩], contentLength := 10 }
    let s : MapStore := { objects := [("k", .document (some 0))] }
    let b : MapStore := { blobs := [("k", [0x00, 0x01])] }
    let m : Contents := [("k", (scrubbed doc).stored)]
    let x := storesOnly (scrubbed doc).stored
    let heap₁ := (Lookups.run ⟨[doc, {}], [⟨0, .hit, [], .fulfill⟩, ⟨0, .hit, [⟨0, 4⟩], .fulfill⟩]⟩ [0, 1, 0, 0]).heap
    (Inverts marshalFails ∧ Reachable marshalFails "memory" s [doc, {}] m ∧
      ∃ heap' r, queryCache marshalFails (mapCache "memory") s heap₁ "k" [] = some (heap', r) ∧
        (∀ F, m.lookup "k" = some F → ∃ p,
          r = ⟨some p, (expectedLookup F []).1, (expectedLookup F []).2, none⟩ ∧
          (heap'.read p).stored = F ∧ (heap'.read p).isLoaded = false ∧ (heap'.read p).rangePartsLoaded = false) ∧
        (m.lookup "k" = none → r = ⟨some heap₁.length, .keyMiss, [], none⟩ ∧ heap'.read heap₁.length = {})) ∧
    (Inverts x ∧ Reachable x "bytes" b [doc, {}] m ∧
      ∃ heap' r, queryCache x (mapCache "bytes") b heap₁ "k" [] = some (heap', r) ∧
        (∀ F, m.lookup "k" = some F → ∃ p,
          r = ⟨some p, (expectedLookup F []).1, (expectedLookup F []).2, none⟩ ∧
          (heap'.read p).stored = F ∧ (heap'.read p).isLoaded = false ∧ (heap'.read p).rangePartsLoaded = false) ∧
        (m.lookup "k" = none → r = ⟨some heap₁.length, .keyMiss, [], none⟩ ∧ heap'.read heap₁.length = {})) :=
  ⟨⟨marshalFails_inverts, writeThenMiss_reachable,
    lookups_keep_contents marshalFails_inverts writeThenMiss_reachable _ [0, 1, 0, 0] "k" []⟩,
  ⟨storesOnly_inverts _, writeThenMiss_bytes_reachable,
    lookups_keep_contents (storesOnly_inverts _) writeThenMiss_bytes_reachable _ [0, 1, 0, 0] "k" []⟩⟩

end Engines
