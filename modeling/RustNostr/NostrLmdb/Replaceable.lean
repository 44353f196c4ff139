import Mathlib
import RustNostr.NostrLmdb.RangeScan

/-!
# Replaceable events

At most one event of an author and replaceable kind is stored, as long as every
saved event recognises its own kind: `Kind::is_replaceable` looks at the variant
for the three classic kinds, so `Kind::Custom(0)` is not replaceable, although
its number is.
-/

set_option autoImplicit false

namespace RustNostr.NostrLmdb.Lmdb

open Library Transaction

/-- The kind of the event is replaceable exactly if its number is. -/
def RecognisesKind (event : Event) : Prop :=
  event.kind.isReplaceable = (Kind.fromU16 event.kind.asU16).isReplaceable

/-- The range scans from the start of time reach the event. -/
def InRange (event : DatabaseEvent) : Prop := event.orderingKey < sinceBound .min

def OnePerReplaceable (db : Lmdb) : Prop :=
  ∀ left right, db.Stored left → db.Stored right → InRange left → InRange right →
    left.pubkey = right.pubkey → left.kind = right.kind →
    (Kind.fromU16 left.kind).isReplaceable = true → left = right

/-- If the event is replaceable, nothing that it would replace is stored. -/
def NoVersion (event : Event) (db : Lmdb) : Prop :=
  (Kind.fromU16 event.kind.asU16).isReplaceable = true →
    ∀ stored, db.Stored stored → InRange stored → stored.pubkey = event.pubkey →
      stored.kind ≠ event.kind.asU16

theorem Durable.and_of_stored {keeps : Lmdb → Prop} (durable : Durable keeps)
    {about : Lmdb → Prop}
    (shrinks : ∀ db db' : Lmdb, (∀ event, db'.Stored event → db.Stored event) → about db → about db') :
    Durable fun db => keeps db ∧ about db where
  coherent db held := durable.coherent db held.1
  remove db event held stored := ⟨durable.remove db event held.1 stored,
    shrinks db _ (fun _ otherStored => (stored_remove.mp otherStored).1) held.2⟩
  tombstones db ids byAuthor coordinates publicKeys held :=
    ⟨durable.tombstones db ids byAuthor coordinates publicKeys held.1,
      shrinks db _ (fun _ stored => stored) held.2⟩

theorem OnePerReplaceable.durable : Durable fun db => db.Coherent ∧ db.OnePerReplaceable :=
  Coherent.durable.and_of_stored fun _ _ shrinks once left right leftStored rightStored =>
    once left right (shrinks left leftStored) (shrinks right rightStored)

theorem NoVersion.durable (event : Event) :
    Durable fun db => (db.Coherent ∧ db.OnePerReplaceable) ∧ db.NoVersion event :=
  OnePerReplaceable.durable.and_of_stored fun _ _ shrinks none replaceable stored storedThere =>
    none replaceable stored (shrinks stored storedThere)

theorem stored_removeAll {db : Lmdb} {events : List DatabaseEvent} {event : DatabaseEvent} :
    (db.removeAll (events.map EventIndexKeys.new)).Stored event ↔
      db.Stored event ∧ ∀ removed ∈ events, event.id ≠ removed.id := by
  induction events generalizing db with
  | nil => simp [removeAll]
  | cons removed events ih =>
      rw [List.map_cons, removeAll, List.foldl_cons]
      refine ih.trans ?_
      rw [stored_remove, List.forall_mem_cons, and_assoc]

/-- The newest version of a replaceable event is the head of its listing. -/
theorem findReplaceableEvent_newest {db : Lmdb} (coherent : db.Coherent) {author : PublicKey}
    {kind : Kind} {newest : Option DatabaseEvent}
    (found : db.findReplaceableEvent author kind = .ok newest) :
    ∀ event, db.Stored event → InRange event → event.pubkey = author → event.kind = kind.asU16 →
      ∃ head, newest = some head ∧ event.createdAt ≤ head.createdAt := by
  intro event stored inRange owner ofKind
  unfold findReplaceableEvent at found
  split at found
  · cases found
  obtain ⟨events, listed, sorted⟩ := akcIter_lists coherent author kind.asU16 .min .max
  have member : event ∈ events :=
    (listed.mem event).mpr ⟨stored, ⟨owner, ofKind⟩, Timestamp.le_max _, inRange⟩
  rw [listed.ids_eq] at found
  cases events with
  | nil => cases member
  | cons head rest =>
      have headStored : db.getEventById head.id = some head :=
        ((listed.mem head).mp List.mem_cons_self).1
      rw [List.map_cons] at found
      dsimp only at found
      rw [headStored] at found
      cases found
      refine ⟨head, rfl, ?_⟩
      cases List.mem_cons.mp member with
      | inl same => exact same ▸ le_refl _
      | inr later =>
          have before := (List.pairwise_cons.mp sorted).1 event later
          rw [DatabaseEvent.orderingKey, DatabaseEvent.orderingKey,
            Prod.Lex.toLex_lt_toLex] at before
          cases before with
          | inl newer => exact le_of_lt newer
          | inr same => exact le_of_eq (OrderDual.toDual.injective same.1).symm

theorem removeReplaceable_clears {db : Lmdb} (coherent : db.Coherent) {coordinate : Coordinate}
    {until_ : Timestamp} (replaceable : coordinate.kind.isReplaceable = true)
    (event : DatabaseEvent)
    (stored : ((removeReplaceable coordinate until_).run db).2.Stored event)
    (inRange : InRange event) (owner : event.pubkey = coordinate.publicKey)
    (ofKind : event.kind = coordinate.kind.asU16) : db.Stored event ∧ until_ < event.createdAt := by
  have ran : ((removeReplaceable coordinate until_).run db).2 = db.removeAll
      (((db.akcIter coordinate.publicKey coordinate.kind.asU16 .min until_).filterMap
        db.getEventById).map EventIndexKeys.new) := by
    unfold removeReplaceable
    rw [replaceable]
    rfl
  obtain ⟨events, listed, _⟩ :=
    akcIter_lists coherent coordinate.publicKey coordinate.kind.asU16 .min until_
  rw [ran, stored_removeAll, listed.ids_eq,
    filterMap_getEventById fun event member => ((listed.mem event).mp member).1] at stored
  refine ⟨stored.1, not_le.mp fun early => ?_⟩
  have member := (listed.mem event).mpr ⟨stored.1, ⟨owner, ofKind⟩, early, inRange⟩
  exact stored.2 event member rfl

/-- A replaceable event that is not itself outdated leaves no other version. -/
theorem replaceReplaceable_clears {event : Event} (recognises : RecognisesKind event) :
    Triple (fun db => db.Coherent ∧ db.OnePerReplaceable) (replaceReplaceable event)
      fun outcome db => (db.Coherent ∧ db.OnePerReplaceable) ∧
        (outcome = .ok false → (db.Coherent ∧ db.OnePerReplaceable) ∧ db.NoVersion event) := by
  have kept := OnePerReplaceable.durable.preserves_replaceReplaceable event
  suffices clears : Triple (fun db => db.Coherent ∧ db.OnePerReplaceable) (replaceReplaceable event)
      fun outcome db => outcome = .ok false → db.NoVersion event from
    (kept.and clears).consequence (fun _ held => held) fun _ _ reached =>
      ⟨reached.1, fun stops => ⟨reached.1, reached.2 stops⟩⟩
  refine Triple.ite (fun replaceable => ?_) fun other db held _ isReplaceable => ?_
  · refine Triple.read_bind (fun db newest held found => ?_) fun _ _ _ _ fails => by cases fails
    have newestOf := findReplaceableEvent_newest held.1 found
    cases newest with
    | none =>
        intro _ same _ _ stored storedThere inRange owner ofKind
        subst same
        obtain ⟨head, present, _⟩ := newestOf stored storedThere inRange owner ofKind
        cases present
    | some head =>
        refine Triple.ite (fun _ _ _ stays => by cases stays) fun newer => ?_
        refine Triple.bind (fun _ db => db.NoVersion event) ?_ ?_
        rotate_left
        · intro _ _ noVersion _
          exact noVersion
        intro _ same
        subst same
        have clears := @removeReplaceable_clears _ held.1
          { kind := event.kind, publicKey := event.pubkey, identifier := "" } event.createdAt
          replaceable
        revert clears
        rcases (removeReplaceable _ event.createdAt).run _ with ⟨outcome, after⟩
        intro clears
        cases outcome with
        | error error => exact fun fails => by cases fails
        | ok _ =>
            intro _ stored storedThere inRange owner ofKind
            obtain ⟨storedBefore, late⟩ := clears stored storedThere inRange owner ofKind
            obtain ⟨_, present, notLater⟩ := newestOf stored storedBefore inRange owner ofKind
            cases present
            apply newer
            rw [hasEventBeenReplaced, if_pos (late.trans_le notLater)]
  · rw [← recognises] at isReplaceable
    exact absurd isReplaceable other

theorem OnePerReplaceable.store {db : Lmdb} (once : db.OnePerReplaceable) {event : Event}
    (noVersion : db.NoVersion event) (absent : db.events.get? event.id = none) :
    (db.store (.ofEvent event)).OnePerReplaceable := by
  intro left right leftStored rightStored leftRange rightRange owner ofKind replaceable
  have absent : db.events.get? (DatabaseEvent.ofEvent event).id = none := absent
  cases (stored_store absent).mp leftStored with
  | inl leftNew =>
      cases (stored_store absent).mp rightStored with
      | inl rightNew => exact leftNew.trans rightNew.symm
      | inr rightOld =>
          subst leftNew
          exact absurd ofKind.symm (noVersion replaceable right rightOld rightRange owner.symm)
  | inr leftOld =>
      cases (stored_store absent).mp rightStored with
      | inl rightNew =>
          subst rightNew
          rw [ofKind] at replaceable
          exact absurd ofKind (noVersion replaceable left leftOld leftRange owner)
      | inr rightOld =>
          exact once left right leftOld rightOld leftRange rightRange owner ofKind replaceable

theorem run_onePerReplaceable (externals : Externals) (options : LmdbOptions)
    (operations : List (HashOrder × IngesterOperation))
    (recognised : ∀ order event, (order, .saveEvent event) ∈ operations → RecognisesKind event) :
    (run externals options operations).OnePerReplaceable := by
  have durable := OnePerReplaceable.durable
  refine (run_keeps durable externals options RecognisesKind ⟨empty_coherent, ?_⟩ ?_ ?_
    operations recognised).2
  · intro left _ stored
    cases stored
  · intro order event recognises
    refine saveEventWithTxn_preserves durable (NoVersion.durable event) externals options order
      event (fun db held => held.1) (replaceReplaceable_clears recognises) ?_ ?_
    · have kept := (NoVersion.durable event).preserves_replaceAddressable event
      exact kept.consequence (fun _ held => held) fun _ _ held => ⟨held.1, fun _ => held⟩
    · exact fun db held absent => ⟨held.1.1.store absent, held.1.2.store held.2 absent⟩
  · intro db held
    refine ⟨held.1.reindex, fun left right leftStored rightStored => ?_⟩
    rw [Stored, db.reindex_indexed.2] at leftStored rightStored
    exact held.2 left right leftStored rightStored

end RustNostr.NostrLmdb.Lmdb
