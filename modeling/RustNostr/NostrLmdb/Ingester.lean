import Mathlib
import RustNostr.NostrLmdb.Observation

/-!
# The ingester

Runs a batch of operations in one transaction and answers each of them
(`nostr-lmdb/src/store/ingester.rs`). LMDB may fail to open the transaction, in
the middle of any operation, and to commit; when and how is part of the input.
-/

set_option autoImplicit false

namespace RustNostr.NostrLmdb.Ingester

open Library Transaction Lmdb

/-- `StoreError`, with the variants for LMDB and for the rest of a failed batch. -/
inductive BatchError where
  | store (error : StoreError)
  | heed
  | batchTransactionFailed
  deriving DecidableEq

abbrev Answer := Except BatchError OperationResult

def isErr : Answer → Bool
  | .error _ => true
  | .ok _ => false

/-- An operation, the iteration order of its hash sets and, where LMDB fails in
the middle of it, how that leaves the tables of the transaction. -/
structure IngesterItem where
  operation : IngesterOperation
  order : HashOrder := .id
  fault : Option (Lmdb → Lmdb) := none

/-- Whether LMDB opens and commits the transaction of the batch. -/
structure Environment where
  opens : Bool := true
  commits : Bool := true

def process (externals : Externals) (options : LmdbOptions) (item : IngesterItem) (db : Lmdb) :
    Answer × Lmdb :=
  match item.fault with
  | some leave => (.error .heed, leave db)
  | none =>
      match (processOperation externals options item.order item.operation).run db with
      | (.ok result, after) => (.ok result, after)
      | (.error error, after) => (.error (.store error), after)

/-- The operations whose errors abort the batch. -/
def abortsOnError : IngesterOperation → Bool
  | .saveEvent _ => true
  | .delete _ => true
  | .reindex => false
  | .wipe => false

def markAllAsFailed (results : List Answer) : List Answer :=
  results.map fun _ => .error .batchTransactionFailed

/-- How the loop over the batch ends. -/
inductive LoopEnd where
  | finished (results : List Answer) (db : Lmdb)
  | aborted (results : List Answer)

/-- Collects the results. The first error that aborts is the result of every
operation, of those already run and of those that are left. -/
def processItems (externals : Externals) (options : LmdbOptions) :
    List IngesterItem → List Answer → Lmdb → LoopEnd
  | [], results, db => .finished results db
  | item :: rest, results, db =>
      let (result, after) := process externals options item db
      let results := results ++ [result]
      if abortsOnError item.operation && isErr result then
        .aborted (markAllAsFailed results ++ rest.map fun _ => .error .batchTransactionFailed)
      else processItems externals options rest results after

structure BatchOutcome where
  results : List Answer
  db : Lmdb
  committed : Bool

def processBatchInTransaction (externals : Externals) (options : LmdbOptions)
    (environment : Environment) (batch : List IngesterItem) (db : Lmdb) : BatchOutcome :=
  if !environment.opens then
    { results := batch.map fun _ => .error .batchTransactionFailed, db, committed := false }
  else
    match processItems externals options batch [] db with
    | .aborted results => { results, db, committed := false }
    | .finished results after =>
        if environment.commits then { results, db := after, committed := true }
        else { results := markAllAsFailed results, db, committed := false }

/-! ## What a batch should do -/

/-- The operations one after the other, whatever becomes of each. -/
def inSequence (externals : Externals) (options : LmdbOptions) :
    List IngesterItem → Lmdb → List Answer × Lmdb
  | [], db => ([], db)
  | item :: rest, db =>
      let (result, middle) := process externals options item db
      let (results, after) := inSequence externals options rest middle
      (result :: results, after)

/-- All or nothing: either the whole batch takes effect, and every operation is
told so, or none of it does, and every operation is told that. -/
structure Atomic (externals : Externals) (options : LmdbOptions) (batch : List IngesterItem)
    (db : Lmdb) (outcome : BatchOutcome) : Prop where
  answered : outcome.results.length = batch.length
  committed : outcome.committed = true →
    (outcome.results, outcome.db) = inSequence externals options batch db ∧
      ∀ result ∈ outcome.results, isErr result = false
  reverted : outcome.committed = false →
    outcome.db = db ∧ ∀ result ∈ outcome.results, isErr result = true

/-- No save and no filter deletion of the batch fails. -/
def Proceeds (externals : Externals) (options : LmdbOptions) : List IngesterItem → Lmdb → Prop
  | [], _ => True
  | item :: rest, db =>
      (abortsOnError item.operation = true →
        isErr (process externals options item db).1 = false) ∧
      Proceeds externals options rest (process externals options item db).2

/-- Of the batch, only saves and filter deletions may meet a fault. -/
def ResetsWork (batch : List IngesterItem) : Prop :=
  ∀ item ∈ batch, abortsOnError item.operation = false → item.fault = none

section Batch

variable {externals : Externals} {options : LmdbOptions}

/-! ## Failed results -/

theorem isErr_markAllAsFailed {results : List Answer} {result : Answer}
    (member : result ∈ markAllAsFailed results) : isErr result = true := by
  obtain ⟨_, _, same⟩ := List.mem_map.mp member
  rw [← same]
  rfl

@[simp] theorem markAllAsFailed_length (results : List Answer) :
    (markAllAsFailed results).length = results.length := List.length_map _

/-! ## The loop -/

theorem inSequence_length (batch : List IngesterItem) (db : Lmdb) :
    (inSequence externals options batch db).1.length = batch.length := by
  induction batch generalizing db with
  | nil => rfl
  | cons item batch ih => exact congrArg Nat.succ (ih _)

/-- Where nothing aborts, the loop is the plain sequence. -/
theorem processItems_proceeds {batch : List IngesterItem} {db : Lmdb}
    (proceeds : Proceeds externals options batch db) (results : List Answer) :
    processItems externals options batch results db =
      .finished (results ++ (inSequence externals options batch db).1)
        (inSequence externals options batch db).2 := by
  induction batch generalizing db results with
  | nil => simp [processItems, inSequence]
  | cons item batch ih =>
      obtain ⟨succeeds, rest⟩ := proceeds
      have goesOn : (abortsOnError item.operation &&
          isErr (process externals options item db).1) = false := by
        cases aborts : abortsOnError item.operation with
        | false => rfl
        | true => simp [succeeds aborts]
      unfold processItems inSequence
      dsimp only
      rw [goesOn, if_neg Bool.false_ne_true, ih rest, List.append_assoc]
      rfl

theorem processItems_aborts {batch : List IngesterItem} {db : Lmdb}
    (aborts : ¬ Proceeds externals options batch db) (results : List Answer) :
    ∃ failed, processItems externals options batch results db = .aborted failed ∧
      failed.length = results.length + batch.length ∧ ∀ result ∈ failed, isErr result = true := by
  induction batch generalizing db results with
  | nil => exact absurd trivial aborts
  | cons item batch ih =>
      unfold processItems
      dsimp only
      cases stops : abortsOnError item.operation && isErr (process externals options item db).1 with
      | true =>
          refine ⟨_, if_pos rfl, ?_, fun result member => ?_⟩
          · simp only [List.length_append, markAllAsFailed_length, List.length_map, List.length_cons,
              List.length_nil]
            omega
          · rcases List.mem_append.mp member with earlier | later
            · exact isErr_markAllAsFailed earlier
            · obtain ⟨_, _, same⟩ := List.mem_map.mp later
              rw [← same]
              rfl
      | false =>
          have later : ¬ Proceeds externals options batch (process externals options item db).2 := by
            intro rest
            refine aborts ⟨fun strict => ?_, rest⟩
            rwa [strict, Bool.true_and] at stops
          obtain ⟨failed, ended, length, errors⟩ :=
            ih later (results ++ [(process externals options item db).1])
          refine ⟨failed, ?_, ?_, errors⟩
          · rw [if_neg Bool.false_ne_true, ended]
          · rw [length, List.length_append, List.length_cons, List.length_cons, List.length_nil]
            omega

/-! ## Resets -/

/-- A reindex or a wipe fails only where LMDB does. -/
theorem isErr_reset {item : IngesterItem} (reset : abortsOnError item.operation = false)
    (db : Lmdb) : isErr (process externals options item db).1 = item.fault.isSome := by
  unfold process
  cases item.fault with
  | some leave => rfl
  | none =>
      cases operation : item.operation with
      | reindex => rfl
      | wipe => rfl
      | saveEvent event =>
          rw [operation] at reset
          cases reset
      | delete filter =>
          rw [operation] at reset
          cases reset

theorem inSequence_succeeds_iff {batch : List IngesterItem} {db : Lmdb}
    (proceeds : Proceeds externals options batch db) :
    (∀ result ∈ (inSequence externals options batch db).1, isErr result = false) ↔
      ResetsWork batch := by
  induction batch generalizing db with
  | nil => simp [inSequence, ResetsWork]
  | cons item batch ih =>
      obtain ⟨succeeds, rest⟩ := proceeds
      have head : isErr (process externals options item db).1 = false ↔
          (abortsOnError item.operation = false → item.fault = none) := by
        cases aborts : abortsOnError item.operation with
        | true => simp [succeeds aborts]
        | false => simp [isErr_reset aborts db]
      unfold inSequence
      dsimp only
      rw [List.forall_mem_cons, head, ih rest]
      simp only [ResetsWork, List.forall_mem_cons]

/-! ## The whole batch -/

section Outcome

variable {environment : Environment} {batch : List IngesterItem} {db : Lmdb}

/-- Nothing is committed and every operation failed. -/
theorem Atomic.of_reverted {results : List Answer} (length : results.length = batch.length)
    (errors : ∀ result ∈ results, isErr result = true) :
    Atomic externals options batch db { results, db, committed := false } where
  answered := length
  committed commits := by cases commits
  reverted _ := ⟨rfl, errors⟩

theorem atomic_of_closed (closed : environment.opens = false) :
    Atomic externals options batch db
      (processBatchInTransaction externals options environment batch db) := by
  unfold processBatchInTransaction
  rw [closed]
  apply Atomic.of_reverted (List.length_map _)
  intro result member
  obtain ⟨_, _, same⟩ := List.mem_map.mp member
  rw [← same]
  rfl

theorem atomic_of_aborts (opens : environment.opens = true)
    (aborts : ¬ Proceeds externals options batch db) :
    Atomic externals options batch db
      (processBatchInTransaction externals options environment batch db) := by
  obtain ⟨failed, ended, length, errors⟩ := processItems_aborts aborts []
  unfold processBatchInTransaction
  rw [opens, ended]
  apply Atomic.of_reverted _ errors
  rw [length, List.length_nil, Nat.zero_add]

/-- The loop went through; what is left is the commit. -/
theorem processBatch_of_proceeds (opens : environment.opens = true)
    (proceeds : Proceeds externals options batch db) :
    processBatchInTransaction externals options environment batch db =
      if environment.commits then
        { results := (inSequence externals options batch db).1
          db := (inSequence externals options batch db).2
          committed := true }
      else
        { results := markAllAsFailed (inSequence externals options batch db).1
          db
          committed := false } := by
  unfold processBatchInTransaction
  rw [opens, processItems_proceeds proceeds]
  rfl

theorem atomic_of_lost (opens : environment.opens = true) (lost : environment.commits = false)
    (proceeds : Proceeds externals options batch db) :
    Atomic externals options batch db
      (processBatchInTransaction externals options environment batch db) := by
  rw [processBatch_of_proceeds opens proceeds, lost]
  apply Atomic.of_reverted _ fun result member => isErr_markAllAsFailed member
  rw [markAllAsFailed_length, inSequence_length]

end Outcome

end Batch

/-- A batch is atomic if and only if, where its transaction is committed, no
reindex and no wipe of it failed. -/
theorem processBatchInTransaction_atomic_iff (externals : Externals) (options : LmdbOptions)
    (environment : Environment) (batch : List IngesterItem) (db : Lmdb) :
    Atomic externals options batch db
        (processBatchInTransaction externals options environment batch db) ↔
      (environment.opens = true → environment.commits = true →
        Proceeds externals options batch db → ResetsWork batch) := by
  constructor
  · intro atomic opens commits proceeds
    rw [processBatch_of_proceeds opens proceeds, commits] at atomic
    exact (inSequence_succeeds_iff proceeds).mp (atomic.committed rfl).2
  · intro condition
    cases opens : environment.opens with
    | false => exact atomic_of_closed opens
    | true =>
        by_cases proceeds : Proceeds externals options batch db
        · cases commits : environment.commits with
          | false => exact atomic_of_lost opens commits proceeds
          | true =>
              have works := (inSequence_succeeds_iff proceeds).mpr (condition opens commits proceeds)
              rw [processBatch_of_proceeds opens proceeds, commits]
              exact ⟨inSequence_length batch db, fun _ => ⟨rfl, works⟩, fun reverted => by cases reverted⟩
        · exact atomic_of_aborts opens proceeds

/-- A wipe fails after clearing the events, and the note that follows it in the
batch is saved: both effects are committed. -/
theorem processBatchInTransaction_not_atomic : ¬ ∀ externals options environment batch db,
    Atomic externals options batch db
      (processBatchInTransaction externals options environment batch db) := by
  intro atomic
  let batch : List IngesterItem := [
    { operation := .wipe, fault := some fun db => { db with events := .empty } },
    { operation := .saveEvent note }]
  have outcome := (atomic hexExternals {} {} batch {}).committed (by decide +kernel)
  have failed : ∃ result ∈ (processBatchInTransaction hexExternals {} {} batch {}).results,
      isErr result = true := by decide +kernel
  obtain ⟨result, member, failed⟩ := failed
  cases failed.symm.trans (outcome.2 result member)

end RustNostr.NostrLmdb.Ingester
