/-! # Weak-reference phases

`process_weak_refs` keeps the phase in a global that outlives a collection, and its own result says
whether it is called again. `runCollections` drives it through collection after collection as
mmtk-core does. -/

namespace MmtkArt

inductive RefProcessingPhase
  /-- Forward soft references if we are not going to clear them -/
  | phase1
  /-- Clear soft and weak references with unmarked referents, enqueue finalizer references -/
  | phase2
  /-- Clear the references reachable only by finalizers and all phantom references, and sweep
  system weaks -/
  | phase3
  deriving DecidableEq, Repr

/-- What one call of `process_weak_refs` reads, besides the phase. -/
structure WeakRefsCall (Worker : Type) where
  worker : Worker
  isEmergencyCollection : Bool
  isZygoteProcess : Bool

/-- The upcalls of `process_weak_refs` to the runtime. -/
inductive WeakRefsUpcall (Worker : Type)
  | sweepSystemWeaks
  | processReferences (worker : Worker) (phase : RefProcessingPhase) (clearSoftReferences : Bool)
  deriving DecidableEq, Repr

variable {Worker : Type}

/-- Always clear soft references if we are the Zygote process. -/
def WeakRefsCall.clearSoftReferences (call : WeakRefsCall Worker) : Bool :=
  call.isEmergencyCollection || call.isZygoteProcess

/-- `process_weak_refs`: the result, the upcalls, and `CURRENT_WEAK_REF_PHASE` afterwards. -/
def processWeakRefs (isNurseryCollection : Bool) (call : WeakRefsCall Worker)
    (currentPhase : RefProcessingPhase) :
    Bool × List (WeakRefsUpcall Worker) × RefProcessingPhase :=
  if isNurseryCollection then
    (false, [.sweepSystemWeaks], currentPhase)
  else
    match currentPhase with
    | .phase1 => (true, [.processReferences call.worker .phase1 call.clearSoftReferences], .phase2)
    | .phase2 => (true, [.processReferences call.worker .phase2 call.clearSoftReferences], .phase3)
    | .phase3 =>
      (false, [.processReferences call.worker .phase3 call.clearSoftReferences], .phase1)

/-- A collection: its kind, and what its calls of `process_weak_refs` read, the first one first. -/
structure Collection (Worker : Type) where
  isNurseryCollection : Bool
  calls : Nat → WeakRefsCall Worker

/-- What a collection does with weak references: the phase it starts in, and the upcalls and the
result of every call. -/
structure WeakRefsTrace (Worker : Type) where
  startPhase : RefProcessingPhase
  calls : List (List (WeakRefsUpcall Worker) × Bool)

/-- Call number `n` and those after it, called again as long as the result is `true`. `none` when
the fuel does not suffice. -/
def driveWeakRefs (c : Collection Worker) : Nat → Nat → RefProcessingPhase →
    Option (List (List (WeakRefsUpcall Worker) × Bool) × RefProcessingPhase)
  | 0, _, _ => none
  | fuel + 1, n, currentPhase =>
    let (again, upcalls, nextPhase) :=
      processWeakRefs c.isNurseryCollection (c.calls n) currentPhase
    if again then do
      let (rest, endPhase) ← driveWeakRefs c fuel (n + 1) nextPhase
      return ((upcalls, again) :: rest, endPhase)
    else
      some ([(upcalls, again)], nextPhase)

/-- The collections one after the other, from a value of `CURRENT_WEAK_REF_PHASE`. -/
def runCollections (fuel : Nat) : List (Collection Worker) → RefProcessingPhase →
    Option (List (WeakRefsTrace Worker) × RefProcessingPhase)
  | [], currentPhase => some ([], currentPhase)
  | c :: cs, startPhase => do
    let (calls, endPhase) ← driveWeakRefs c fuel 0 startPhase
    let (traces, lastPhase) ← runCollections fuel cs endPhase
    return (⟨startPhase, calls⟩ :: traces, lastPhase)

/-- The three phases in order, each with what its own call reads. -/
def Collection.fullCalls (c : Collection Worker) :
    List (List (WeakRefsUpcall Worker) × Bool) :=
  [([.processReferences (c.calls 0).worker .phase1 (c.calls 0).clearSoftReferences], true),
    ([.processReferences (c.calls 1).worker .phase2 (c.calls 1).clearSoftReferences], true),
    ([.processReferences (c.calls 2).worker .phase3 (c.calls 2).clearSoftReferences], false)]

/-- What the collection is meant to do. -/
def Collection.trace (c : Collection Worker) : WeakRefsTrace Worker where
  startPhase := .phase1
  calls := if c.isNurseryCollection then [([.sweepSystemWeaks], false)] else c.fullCalls

/-! ### One collection -/

/-- A nursery collection leaves the phase alone, whatever it is. -/
theorem driveWeakRefs_nursery {c : Collection Worker} (hc : c.isNurseryCollection = true)
    (fuel n : Nat) (currentPhase : RefProcessingPhase) :
    driveWeakRefs c (fuel + 1) n currentPhase =
      some ([([.sweepSystemWeaks], false)], currentPhase) := by
  simp [driveWeakRefs, processWeakRefs, hc]

theorem driveWeakRefs_full {c : Collection Worker} (hc : c.isNurseryCollection = false)
    (fuel : Nat) : driveWeakRefs c (fuel + 3) 0 .phase1 = some (c.fullCalls, .phase1) := by
  simp [driveWeakRefs, processWeakRefs, hc, Collection.fullCalls]

/-- A collection that starts in `phase1` ends in `phase1`. -/
theorem driveWeakRefs_phase1 (c : Collection Worker) (fuel : Nat) :
    driveWeakRefs c (fuel + 3) 0 .phase1 = some (c.trace.calls, .phase1) := by
  cases hc : c.isNurseryCollection with
  | true => rw [driveWeakRefs_nursery hc, Collection.trace, hc]; rfl
  | false => rw [driveWeakRefs_full hc, Collection.trace, hc]; rfl

/-! ### All collections -/

/-- **Weak-reference phases never leak between collections.** Three calls always suffice, and every
collection of a run does what it is meant to do, starting in `phase1`. -/
theorem runCollections_traces (fuel : Nat) (cs : List (Collection Worker)) :
    runCollections (fuel + 3) cs .phase1 = some (cs.map Collection.trace, .phase1) := by
  induction cs with
  | nil => rfl
  | cons c cs ih =>
    rw [runCollections, driveWeakRefs_phase1]
    simp only [Option.bind_eq_bind, Option.bind_some, ih]
    rfl

end MmtkArt
