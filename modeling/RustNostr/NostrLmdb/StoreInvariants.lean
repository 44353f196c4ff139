import Mathlib
import RustNostr.NostrLmdb.Coherence

/-!
# Invariants of the store

Inside a transaction the operations change the stored events in two ways only:
they remove stored events with all their keys, and they store the new event of a
save. An invariant that survives both survives every operation.
-/

set_option autoImplicit false

namespace RustNostr.NostrLmdb.Lmdb

open Library Transaction

/-! ## Queries yield stored events -/

private theorem output_insert_keeps {output : Output} {event : DatabaseEvent}
    {keeps : DatabaseEvent → Prop} (held : ∀ found ∈ output.values, keeps found)
    (added : keeps event) : ∀ found ∈ (output.insert event).values, keeps found := by
  intro found member
  obtain ⟨key, present⟩ := SortedTable.mem_values.mp member
  rw [Output.insert, SortedTable.get?_putNew] at present
  split at present
  · cases known : output.get? event.orderingKey with
    | none =>
        rw [known] at present
        cases present
        exact added
    | some old =>
        rw [known] at present
        cases present
        exact held _ (SortedTable.mem_values.mpr ⟨_, known⟩)
  · exact held found (SortedTable.mem_values.mpr ⟨key, present⟩)

theorem takeLimit_subset {α : Type} (limit : Option Nat) (items : List α) :
    takeLimit limit items ⊆ items := by
  cases limit with
  | none => exact List.Subset.refl items
  | some limit => exact List.take_subset limit items

def OutputStored (db : Lmdb) (output : Output) : Prop := ∀ event ∈ output.values, db.Stored event

/-- A part of a query plan that only ever collects stored events. -/
def CollectsStored (db : Lmdb) (plan : QueryState → Except StoreError QueryState) : Prop :=
  ∀ state final, OutputStored db state.output → plan state = .ok final →
    OutputStored db final.output

namespace CollectsStored

variable {db : Lmdb} {filter : DatabaseFilter} {limit : Option Nat}

theorem scan (coherent : db.Coherent) (firstOnly : Bool) (ids : QueryState → List EventId) :
    CollectsStored db fun state => db.scan filter limit firstOnly (ids state) 0 state := by
  have each : ∀ (ids : List EventId) (count : Nat) (state final : QueryState),
      OutputStored db state.output →
      db.scan filter limit firstOnly ids count state = .ok final →
      OutputStored db final.output := by
    intro ids
    induction ids with
    | nil =>
        intro count state final start scanned
        cases scanned
        exact start
    | cons id ids ih =>
        intro count state final start scanned
        unfold Lmdb.scan at scanned
        cases found : db.getEventById id with
        | none =>
            rw [found] at scanned
            cases scanned
        | some event =>
            have collected : OutputStored db (state.output.insert event) :=
              output_insert_keeps start (coherent.stored found)
            rw [found] at scanned
            dsimp only at scanned
            split at scanned
            · cases scanned
              exact start
            · split at scanned
              · split at scanned
                · cases scanned
                  exact collected
                · split at scanned
                  · cases scanned
                    exact collected
                  · exact ih _ _ _ collected scanned
              · exact ih _ _ _ start scanned
  exact fun state final => each (ids state) 0 state final

theorem foldlM {β : Type} (items : List β)
    {body : QueryState → β → Except StoreError QueryState}
    (each : ∀ item, CollectsStored db fun state => body state item) :
    CollectsStored db fun state => items.foldlM body state := fun _ _ start folded =>
  foldlM_keeps (fun state => OutputStored db state.output)
    (fun state item next _ held stepped => each item state next held stepped) start folded

theorem forTagValues {body : QueryState → SingleLetterTag → String → Except StoreError QueryState}
    (each : ∀ tagName tagValue, CollectsStored db fun state => body state tagName tagValue) :
    CollectsStored db fun state => Lmdb.forTagValues filter body state :=
  foldlM _ fun (tagName, _) => foldlM _ fun tagValue => each tagName tagValue

theorem finish {plan : QueryState → Except StoreError QueryState} (collects : CollectsStored db plan)
    {since : Timestamp} {events : List DatabaseEvent}
    (finished : (plan { since, output := .empty }).map
      (fun state => takeLimit limit state.output.values) = .ok events) :
    ∀ event ∈ events, db.Stored event := by
  cases planned : plan { since, output := .empty } with
  | error error =>
      rw [planned] at finished
      cases finished
  | ok final =>
      rw [planned] at finished
      cases finished
      intro event member
      have none : OutputStored db .empty := fun event member => by cases member
      exact collects _ final none planned event (takeLimit_subset _ _ member)

end CollectsStored

theorem queryByIds_stored {db : Lmdb} (coherent : db.Coherent) {filter : DatabaseFilter}
    {limit : Option Nat} {ids : List EventId} {output : Output} (start : OutputStored db output) :
    OutputStored db (db.queryByIds filter limit ids output) := by
  induction ids generalizing output with
  | nil => exact start
  | cons id ids ih =>
      unfold queryByIds
      split
      · exact start
      · cases found : db.getEventById id with
        | none => exact ih start
        | some event =>
            dsimp only
            split
            · exact ih (output_insert_keeps start (coherent.stored found))
            · exact ih start

theorem query_stored {db : Lmdb} (coherent : db.Coherent) {order : HashOrder} {filter : Filter}
    {events : List DatabaseEvent} (queried : db.query order filter = .ok events) :
    ∀ event ∈ events, db.Stored event := by
  unfold query at queried
  split at queried
  · cases queried
    exact fun event member => by cases member
  · dsimp only at queried
    split at queried
    · cases queried
      intro event member
      have none : OutputStored db .empty := fun event member => by cases member
      exact queryByIds_stored coherent none event (takeLimit_subset _ _ member)
    · exact (CollectsStored.foldlM _ fun author => .foldlM _ fun kind =>
        .scan coherent _ _).finish queried
    · exact (CollectsStored.foldlM _ fun author => .forTagValues fun tagName tagValue =>
        .scan coherent _ _).finish queried
    · exact (CollectsStored.foldlM _ fun author => .foldlM _ fun kind state =>
        CollectsStored.forTagValues (fun tagName tagValue => .scan coherent _ _) state).finish queried
    · exact (CollectsStored.foldlM _ fun kind => .forTagValues fun tagName tagValue =>
        .scan coherent _ _).finish queried
    · exact (CollectsStored.forTagValues fun tagName tagValue => .scan coherent _ _).finish queried
    · exact (CollectsStored.foldlM _ fun author => .scan coherent _ _).finish queried
    · exact (CollectsStored.foldlM _ fun kind => .scan coherent _ _).finish queried
    · cases queried
      intro event member
      have scanned := (List.mem_filter.mp (takeLimit_subset _ _ member)).1
      obtain ⟨id, _, found⟩ := List.mem_filterMap.mp scanned
      exact coherent.stored found

/-! ## Durable invariants -/

theorem Coherent.remove_absent {db : Lmdb} (coherent : db.Coherent) {event : DatabaseEvent}
    (absent : db.events.get? event.id = none) : db.remove (EventIndexKeys.new event) = db := by
  have unowned : ∀ {prefixesOf : DatabaseEvent → List Bytes} {index : SortedTable Bytes EventId},
      (indexSchema prefixesOf).Image db.Stored index →
      index.deleteAll ((indexSchema prefixesOf).keysOf event) = index := by
    intro prefixesOf index image
    apply SortedTable.ext_get?
    intro key
    rw [SortedTable.get?_deleteAll]
    split
    · next owns =>
        symm
        rw [Option.eq_none_iff_forall_ne_some]
        intro id found
        obtain ⟨other, stored, otherOwns, _⟩ := (image key id).mp found
        have same : other.id = event.id :=
          (indexSchema prefixesOf).owned other event key otherOwns owns
        rw [Stored, same, absent] at stored
        cases stored
    · rfl
  have events : db.events.delete event.id = db.events := by
    apply SortedTable.ext_get?
    intro id
    rw [SortedTable.get?_delete]
    split
    · next same => rw [same, absent]
    · rfl
  rw [remove_eq, events, ciSchema, unowned coherent.indexed.ci, akcSchema,
    unowned coherent.indexed.akc, acSchema, unowned coherent.indexed.ac, kcSchema,
    unowned coherent.indexed.kc, atcSchema, unowned coherent.indexed.atc, ktcSchema,
    unowned coherent.indexed.ktc, tcSchema, unowned coherent.indexed.tc]

/-- An invariant of coherent stores that survives the removal of a stored event
and does not look at tombstones. -/
structure Durable (keeps : Lmdb → Prop) : Prop where
  coherent : ∀ db, keeps db → db.Coherent
  remove : ∀ db event, keeps db → db.Stored event → keeps (db.remove (EventIndexKeys.new event))
  tombstones : ∀ (db : Lmdb) ids byAuthor coordinates publicKeys, keeps db → keeps { db with
    deletedIds := ids
    deletedIdsByAuthor := byAuthor
    deletedCoordinates := coordinates
    vanishedPublicKeys := publicKeys }

theorem Coherent.durable : Durable Coherent where
  coherent _ coherent := coherent
  remove _ _ coherent stored := coherent.remove fun _ other same => other.unique stored same
  tombstones _ _ _ _ _ coherent := ⟨coherent.keyed, { coherent.indexed with }⟩

/-- While an event is not stored, removals do not bring it in. -/
theorem Durable.absent {keeps : Lmdb → Prop} (durable : Durable keeps) (id : EventId) :
    Durable fun db => keeps db ∧ db.events.get? id = none where
  coherent db held := durable.coherent db held.1
  remove db event held stored := by
    refine ⟨durable.remove db event held.1 stored, ?_⟩
    rw [remove_eq]
    simp [SortedTable.get?_delete, held.2]
  tombstones db ids byAuthor coordinates publicKeys held :=
    ⟨durable.tombstones db ids byAuthor coordinates publicKeys held.1, held.2⟩

/-- What is stored or absent is so when an event has been removed. -/
theorem present_remove {db : Lmdb} (event : DatabaseEvent) {other : DatabaseEvent}
    (present : db.Stored other ∨ db.events.get? other.id = none) :
    (db.remove (EventIndexKeys.new event)).Stored other ∨
      (db.remove (EventIndexKeys.new event)).events.get? other.id = none := by
  rw [stored_remove, remove_eq]
  simp only [SortedTable.get?_delete]
  by_cases same : other.id = event.id
  · exact .inr (if_pos same)
  · rw [if_neg same]
    exact present.imp_left fun stored => ⟨stored, same⟩

/-- An ID of a deletion request that is not refused: nothing is stored under it, or an event of
the author. -/
theorem collectTargets_cons {db : Lmdb} {author : PublicKey} {id : EventId} {ids : List EventId}
    {known : List (EventId × EventIndexKeys)} {unknown : List EventId}
    (collected : db.collectTargets author (id :: ids) = some (known, unknown)) :
    (∃ others, db.getEventById id = none ∧ db.collectTargets author ids = some (known, others) ∧
      unknown = id :: others) ∨
    ∃ target others, db.getEventById id = some target ∧ target.pubkey = author ∧
      db.collectTargets author ids = some (others, unknown) ∧ known = (id, EventIndexKeys.new target) :: others := by
  unfold collectTargets at collected
  cases found : db.getEventById id with
  | none =>
      rw [found] at collected
      obtain ⟨⟨known', others⟩, rest, same⟩ := Option.map_eq_some_iff.mp collected
      cases same
      exact .inl ⟨others, rfl, rest, rfl⟩
  | some target =>
      rw [found] at collected
      dsimp only at collected
      split at collected
      · cases collected
      · next owner =>
          obtain ⟨⟨others, unknown'⟩, rest, same⟩ := Option.map_eq_some_iff.mp collected
          cases same
          exact .inr ⟨target, others, rfl, not_not.mp owner, rest, rfl⟩

namespace Durable

variable {keeps : Lmdb → Prop} (durable : Durable keeps)

include durable

/-- Events that were stored when their keys were collected may be removed one
after the other, repetitions included. -/
theorem removeAll {db : Lmdb} (held : keeps db) {events : List DatabaseEvent}
    (stored : ∀ event ∈ events, db.Stored event) :
    keeps (db.removeAll (events.map EventIndexKeys.new)) := by
  have each : ∀ (events : List DatabaseEvent) (db : Lmdb), keeps db →
      (∀ event ∈ events, db.Stored event ∨ db.events.get? event.id = none) →
      keeps (db.removeAll (events.map EventIndexKeys.new)) := by
    intro events
    induction events with
    | nil => exact fun _ held _ => held
    | cons event events ih =>
        intro db held present
        rw [List.map_cons, Lmdb.removeAll, List.foldl_cons]
        rcases present event List.mem_cons_self with stored | absent
        · exact ih _ (durable.remove db event held stored) fun other member =>
            present_remove event (present other (.tail _ member))
        · rw [(durable.coherent db held).remove_absent absent]
          exact ih db held fun other member => present other (.tail _ member)
  exact each events db held fun event member => .inl (stored event member)

theorem preserves_delete (order : HashOrder) (filter : Filter) :
    Preserves keeps (delete order filter) := by
  refine Preserves.read_bind fun db events held queried => ?_
  rintro _ rfl
  exact durable.removeAll held (query_stored (durable.coherent _ held) queried)

theorem scanned_stored {db : Lmdb} (held : keeps db) (ids : List EventId) :
    ∀ event ∈ ids.filterMap db.getEventById, db.Stored event := by
  intro event member
  obtain ⟨id, _, found⟩ := List.mem_filterMap.mp member
  exact (durable.coherent db held).stored found

theorem preserves_removeReplaceable (coordinate : Coordinate) (until_ : Timestamp) :
    Preserves keeps (removeReplaceable coordinate until_) := by
  refine Preserves.ite (Preserves.throw _) ?_
  exact Preserves.modify fun db held => durable.removeAll held (durable.scanned_stored held _)

theorem preserves_removeAddressable (coordinate : Coordinate) (until_ : Timestamp) :
    Preserves keeps (removeAddressable coordinate until_) := by
  refine Preserves.ite (Preserves.throw _) ?_
  refine Preserves.modify fun db held => durable.removeAll held fun event member => ?_
  exact durable.scanned_stored held _ event (List.mem_filter.mp member).1

theorem markDeleted {db : Lmdb} (held : keeps db) (id : EventId) :
    keeps (db.markDeleted id) := durable.tombstones db _ _ _ _ held

theorem preserves_handleRequestToVanish (externals : Externals) (order : HashOrder)
    (pubkey : PublicKey) : Preserves keeps (handleRequestToVanish externals order pubkey) := by
  refine Preserves.bind (Preserves.modify fun db held => ?_) fun _ => ?_
  · exact durable.tombstones db _ _ _ _ held
  · exact Preserves.bind (durable.preserves_delete _ _) fun _ => durable.preserves_delete _ _

theorem preserves_deleteCoordinate (createdAt : Timestamp) (coordinate : Coordinate) :
    Preserves keeps (deleteCoordinate createdAt coordinate) := by
  refine Preserves.bind ?_ fun _ => ?_
  · refine Preserves.ite (Preserves.throw _) (Preserves.modify fun db held => ?_)
    exact durable.tombstones db _ _ _ _ held
  · exact Preserves.ite (durable.preserves_removeReplaceable _ _)
      (Preserves.ite (durable.preserves_removeAddressable _ _) (Preserves.pure _))

theorem processTargets {targets : List (EventId × EventIndexKeys)} {db : Lmdb}
    (held : keeps db) {events : List DatabaseEvent}
    (infos : targets.map Prod.snd = events.map EventIndexKeys.new)
    (present : ∀ event ∈ events, db.Stored event ∨ db.events.get? event.id = none) :
    keeps (targets.foldl (fun db (id, info) => (db.markDeleted id).remove info) db) := by
  induction targets generalizing db events with
  | nil => exact held
  | cons target targets ih =>
      cases events with
      | nil => cases infos
      | cons event events =>
          obtain ⟨id, info⟩ := target
          obtain ⟨rfl, rest⟩ := List.cons.inj infos
          have marked := durable.markDeleted held id
          rw [List.foldl_cons]
          dsimp only
          rcases present event List.mem_cons_self with stored | absent
          · exact ih (durable.remove _ event marked stored) rest fun other member =>
              @present_remove (db.markDeleted id) event other (present other (.tail _ member))
          · rw [(durable.coherent _ marked).remove_absent absent]
            exact ih marked rest fun other member => present other (.tail _ member)

omit durable in
theorem collectTargets_stored {db : Lmdb} (coherent : db.Coherent) {author : PublicKey}
    {ids : List EventId} {known : List (EventId × EventIndexKeys)} {unknown : List EventId}
    (collected : db.collectTargets author ids = some (known, unknown)) :
    ∃ events : List DatabaseEvent, known.map Prod.snd = events.map EventIndexKeys.new ∧
      ∀ event ∈ events, db.Stored event ∧ event.pubkey = author ∧ event.id ∈ ids := by
  induction ids generalizing known unknown with
  | nil =>
      cases collected
      exact ⟨[], rfl, fun event member => by cases member⟩
  | cons id ids ih =>
      rcases collectTargets_cons collected with ⟨others, _, rest, _⟩ | ⟨target, others, found, owner, rest, shape⟩
      · obtain ⟨events, infos, stored⟩ := ih rest
        exact ⟨events, infos, fun event member =>
          ⟨(stored event member).1, (stored event member).2.1, .tail _ (stored event member).2.2⟩⟩
      · obtain ⟨events, infos, stored⟩ := ih rest
        refine ⟨target :: events, by simp [shape, infos], fun event member => ?_⟩
        rcases List.mem_cons.mp member with rfl | member
        · refine ⟨coherent.stored found, owner, ?_⟩
          rw [coherent.keyed id event found]
          exact List.mem_cons_self
        · exact ⟨(stored event member).1, (stored event member).2.1, .tail _ (stored event member).2.2⟩

theorem markUnknown {db : Lmdb} (held : keeps db) (ids : List EventId)
    (author : PublicKey) :
    keeps (ids.foldl (fun db id => db.markDeletedByAuthor id author) db) ∧
      (ids.foldl (fun db id => db.markDeletedByAuthor id author) db).events = db.events := by
  induction ids generalizing db with
  | nil => exact ⟨held, rfl⟩
  | cons id ids ih => exact ih (durable.tombstones db _ _ _ _ held)

theorem preserves_handleDeletionEvent (externals : Externals) (event : Event) :
    Preserves keeps (handleDeletionEvent externals event) := by
  refine Preserves.ite (Preserves.pure _) ?_
  refine Preserves.get_bind fun db held => ?_
  cases collected : db.collectTargets event.pubkey (Tags.eventIds externals event.tags) with
  | none =>
      rintro _ rfl
      exact held
  | some targets =>
      obtain ⟨known, unknown⟩ := targets
      obtain ⟨events, infos, stored⟩ :=
        collectTargets_stored (durable.coherent db held) collected
      -- The targets are still stored after the unknown IDs are marked.
      refine Triple.bind (fun _ current => keeps current ∧ current.events = db.events) ?_ fun _ => ?_
      · rintro _ rfl
        exact durable.markUnknown held unknown event.pubkey
      · refine Triple.bind (fun _ => keeps) ?_ fun _ => ?_
        · rintro current ⟨held, sameEvents⟩
          refine durable.processTargets held infos fun target member => .inl ?_
          rw [Stored, sameEvents]
          exact (stored target member).1
        · exact Preserves.bind (Preserves.forM fun coordinate _ =>
            durable.preserves_deleteCoordinate event.createdAt coordinate)
            fun _ => Preserves.pure _

theorem preserves_replaceReplaceable (event : Event) :
    Preserves keeps (replaceReplaceable event) := by
  refine Preserves.ite (Preserves.read_bind fun db stored held _ => ?_) (Preserves.pure _)
  cases stored with
  | none => exact (Preserves.pure _).from_state held
  | some stored =>
      refine Preserves.from_state (Preserves.ite (Preserves.pure _) ?_) held
      exact Preserves.bind (durable.preserves_removeReplaceable _ _) fun _ => Preserves.pure _

theorem preserves_replaceAddressable (event : Event) :
    Preserves keeps (replaceAddressable event) := by
  refine Preserves.ite ?_ (Preserves.pure _)
  cases Tags.identifier event.tags with
  | none => exact Preserves.pure _
  | some identifier =>
      refine Preserves.read_bind fun db stored held _ => ?_
      cases stored with
      | none => exact (Preserves.pure _).from_state held
      | some stored =>
          refine Preserves.from_state (Preserves.ite (Preserves.pure _) ?_) held
          exact Preserves.bind (durable.preserves_removeAddressable _ _) fun _ => Preserves.pure _

end Durable

/-- Saving keeps an invariant that survives removals and, once the versions that
the new event replaces are gone, its storing. `middle` and `replaced` say what
is known after the two replacement steps. -/
theorem saveEventWithTxn_preserves {keeps middle replaced : Lmdb → Prop} (durable : Durable keeps)
    (durableReplaced : Durable replaced) (externals : Externals) (options : LmdbOptions) (order : HashOrder) (event : Event)
    (weaker : ∀ db, replaced db → keeps db)
    (replaces : Triple keeps (replaceReplaceable event) fun outcome db =>
      keeps db ∧ (outcome = .ok false → middle db))
    (replacesAddressable : Triple middle (replaceAddressable event) fun outcome db =>
      keeps db ∧ (outcome = .ok false → replaced db))
    (stores : ∀ db, replaced db → db.events.get? event.id = none →
      keeps (db.store (.ofEvent event))) :
    Preserves keeps (saveEventWithTxn externals options order event) := by
  have absent {keeps : Lmdb → Prop} (durable : Durable keeps) := durable.absent event.id
  refine Preserves.ite (Preserves.pure _) (Preserves.get_bind fun db held => ?_)
  refine Triple.ite (fun _ => (Preserves.pure _).from_state held) fun fresh => ?_
  have unknown : db.events.get? event.id = none := by
    simpa [hasEvent, getEventById] using fresh
  refine Triple.get_bind fun _ same => ?_
  subst same
  refine Triple.ite (fun _ => (Preserves.pure _).from_state held) fun _ => ?_
  refine Triple.get_bind fun _ same => ?_
  subst same
  refine Triple.ite (fun _ => ?_) fun _ => ?_
  · refine Preserves.from_state (?_ : Preserves keeps _) held
    exact Preserves.bind (Preserves.modify fun db held => durable.markDeleted held event.id)
      fun _ => Preserves.pure _
  refine Triple.get_bind fun _ same => ?_
  subst same
  refine Triple.ite (fun _ => (Preserves.pure _).from_state held) fun _ => ?_
  refine Triple.get_bind fun _ same => ?_
  subst same
  refine Triple.ite (fun _ => (Preserves.pure _).from_state held) fun _ => ?_
  -- From here on the new event stays unknown while older versions go.
  refine Triple.bind (fun stays db =>
      (keeps db ∧ db.events.get? event.id = none) ∧ (stays = false → middle db)) ?_ fun stays => ?_
  · rintro _ rfl
    have kept := (absent durable).preserves_replaceReplaceable event _ ⟨held, unknown⟩
    have reached := replaces _ held
    revert kept reached
    rcases (replaceReplaceable event).run _ with ⟨outcome, after⟩
    cases outcome with
    | error error => exact fun kept _ => kept.1
    | ok stays => exact fun kept reached => ⟨kept, fun stops => reached.2 (stops ▸ rfl)⟩
  refine Triple.ite (fun _ db held => held.1.1) fun moves => ?_
  have moves : stays = false := by simpa using moves
  refine Triple.bind (fun stays db =>
      (keeps db ∧ db.events.get? event.id = none) ∧ (stays = false → replaced db)) ?_ fun stays => ?_
  · rintro before ⟨⟨held, unknown⟩, middleHeld⟩
    have kept := (absent durable).preserves_replaceAddressable event before ⟨held, unknown⟩
    have reached := replacesAddressable before (middleHeld moves)
    revert kept reached
    rcases (replaceAddressable event).run before with ⟨outcome, after⟩
    cases outcome with
    | error error => exact fun kept _ => kept.1
    | ok stays => exact fun kept reached => ⟨kept, fun stops => reached.2 (stops ▸ rfl)⟩
  refine Triple.ite (fun _ db held => held.1.1) fun moves => ?_
  have moves : stays = false := by simpa using moves
  have ready : ∀ db, ((keeps db ∧ db.events.get? event.id = none) ∧ (stays = false → replaced db)) →
      replaced db ∧ db.events.get? event.id = none :=
    fun db held => ⟨held.2 moves, held.1.2⟩
  have last : Triple (fun db => replaced db ∧ db.events.get? event.id = none)
      (do modify fun db => db.store (.ofEvent event); return .success : Txn SaveEventStatus)
      fun _ db => keeps db :=
    Triple.bind (fun _ => keeps) (fun db held => stores db held.1 held.2) fun _ =>
      Preserves.pure _
  have vanish : Triple (fun db => replaced db ∧ db.events.get? event.id = none)
      (do
        if options.processNip62 && event.kind == .requestToVanish &&
            Nip62.isValidVanishRequestForRelay externals event.tags options.relayUrl then
          handleRequestToVanish externals order event.pubkey
        modify fun db => db.store (.ofEvent event)
        return .success : Txn SaveEventStatus) fun _ db => keeps db := by
    refine Triple.ite (fun _ => ?_) fun _ => last
    refine Triple.bind (fun _ db => replaced db ∧ db.events.get? event.id = none) ?_ fun _ => last
    intro db held
    have kept := (absent durableReplaced).preserves_handleRequestToVanish externals order
      event.pubkey db held
    revert kept
    rcases (handleRequestToVanish externals order event.pubkey).run db with ⟨outcome, after⟩
    cases outcome with
    | error error => exact fun kept => weaker _ kept.1
    | ok _ => exact fun kept => kept
  refine Triple.consequence ?_ ready fun _ _ kept => kept
  refine Triple.ite (fun _ => ?_) fun _ => vanish
  refine Triple.bind (fun _ db => replaced db ∧ db.events.get? event.id = none) ?_ fun invalid => ?_
  · intro db held
    have kept := (absent durableReplaced).preserves_handleDeletionEvent externals event db held
    revert kept
    rcases (handleDeletionEvent externals event).run db with ⟨outcome, after⟩
    cases outcome with
    | error error => exact fun kept => weaker _ kept.1
    | ok _ => exact fun kept => kept
  · exact Triple.ite (fun _ db held => weaker _ held.1) fun _ => vanish

/-- Saving keeps an invariant that does not depend on what a save replaces. -/
theorem saveEventWithTxn_preserves_simple {keeps : Lmdb → Prop} (durable : Durable keeps)
    (externals : Externals) (options : LmdbOptions) (order : HashOrder) (event : Event)
    (stores : ∀ db, keeps db → db.events.get? event.id = none →
      keeps (db.store (.ofEvent event))) :
    Preserves keeps (saveEventWithTxn externals options order event) :=
  saveEventWithTxn_preserves durable durable externals options order event (fun _ held => held)
    ((durable.preserves_replaceReplaceable event).and
      ((durable.preserves_replaceReplaceable event).consequence (fun _ held => held)
        fun _ _ kept _ => kept))
    ((durable.preserves_replaceAddressable event).and
      ((durable.preserves_replaceAddressable event).consequence (fun _ held => held)
        fun _ _ kept _ => kept))
    stores

/-! ## Runs -/

/-- What the empty store satisfies and every operation keeps holds in every
state that a sequence of operations reaches. -/
theorem run_keeps {keeps : Lmdb → Prop} (durable : Durable keeps) (externals : Externals)
    (options : LmdbOptions) (accepted : Event → Prop) (start : keeps {})
    (saves : ∀ order event, accepted event →
      Preserves keeps (saveEventWithTxn externals options order event))
    (reindexes : ∀ db, keeps db → keeps db.reindex)
    (operations : List (HashOrder × IngesterOperation))
    (saved : ∀ order event, (order, .saveEvent event) ∈ operations → accepted event) :
    keeps (run externals options operations) := by
  have each : ∀ (operations : List (HashOrder × IngesterOperation)) (db : Lmdb),
      (∀ order event, (order, .saveEvent event) ∈ operations → accepted event) → keeps db →
      keeps (operations.foldl (fun db step =>
        ((processOperation externals options step.1 step.2).run db).2) db) := by
    intro operations
    induction operations with
    | nil => exact fun db _ held => held
    | cons operation operations ih =>
        intro db saved held
        obtain ⟨order, operation⟩ := operation
        refine ih _ (fun order event member => saved order event (.tail _ member)) ?_
        refine (?_ : Preserves keeps (processOperation externals options order operation)) db held
        cases operation with
        | reindex => exact Preserves.bind (Preserves.modify reindexes) fun _ => Preserves.pure _
        | saveEvent event =>
            exact Preserves.bind (saves order event (saved order event List.mem_cons_self))
              fun _ => Preserves.pure _
        | delete filter =>
            exact Preserves.bind (durable.preserves_delete order filter) fun _ => Preserves.pure _
        | wipe =>
            exact Preserves.bind (Preserves.modify fun _ _ => start) fun _ => Preserves.pure _
  exact each operations {} saved start

theorem run_coherent (externals : Externals) (options : LmdbOptions)
    (operations : List (HashOrder × IngesterOperation)) :
    (run externals options operations).Coherent :=
  run_keeps Coherent.durable externals options (fun _ => True) empty_coherent
    (fun order event _ => saveEventWithTxn_preserves_simple Coherent.durable externals options
      order event fun _ held absent => held.store absent)
    (fun _ held => held.reindex) operations fun _ _ _ => trivial

/-- An index table maps each listed key of each stored event to the event's ID,
and has no other entry. -/
def IndexedBy (db : Lmdb) (index : SortedTable Bytes EventId)
    (keysOf : EventIndexKeys → List Bytes) : Prop :=
  ∀ key id, index.get? key = some id ↔
    ∃ event, db.Stored event ∧ key ∈ keysOf (EventIndexKeys.new event) ∧ event.id = id

/-- The secondary indexes are exactly the image of the events table. -/
structure IndexesMatchEvents (db : Lmdb) : Prop where
  keyed : ∀ id event, db.events.get? id = some event → event.id = id
  ci : db.IndexedBy db.ciIndex fun keys => [keys.ciIndex]
  ac : db.IndexedBy db.acIndex fun keys => [keys.acIndex]
  akc : db.IndexedBy db.akcIndex fun keys => [keys.akcIndex]
  kc : db.IndexedBy db.kcIndex fun keys => [keys.kcIndex]
  atc : db.IndexedBy db.atcIndex fun keys => keys.tags.map TagIndexKeySet.atcIndex
  ktc : db.IndexedBy db.ktcIndex fun keys => keys.tags.map TagIndexKeySet.ktcIndex
  tc : db.IndexedBy db.tcIndex fun keys => keys.tags.map TagIndexKeySet.tcIndex
  /-- One entry per event, although the keys are of the store's making. -/
  oncePerEvent : db.ciIndex.len = db.events.len ∧ db.acIndex.len = db.events.len ∧
    db.akcIndex.len = db.events.len ∧ db.kcIndex.len = db.events.len

private theorem len_eq_events {db : Lmdb} (coherent : db.Coherent)
    {prefixOf : DatabaseEvent → Bytes} {index : SortedTable Bytes EventId}
    (image : (indexSchema fun event => [prefixOf event]).Image db.Stored index) :
    index.len = db.events.len := by
  refine SortedTable.len_eq_of_image
    (fun entry => (prefixOf entry.2 ++ makeCiIndexKey entry.2.createdAt entry.2.id, entry.2.id))
    ?_ ?_
  · rintro ⟨left, leftEvent⟩ leftMember ⟨right, rightEvent⟩ rightMember same
    have leftFound := SortedTable.get?_eq_some.mpr leftMember
    have rightFound := SortedTable.get?_eq_some.mpr rightMember
    have sameId : leftEvent.id = rightEvent.id := congrArg Prod.snd same
    have sameEvent := (coherent.stored leftFound).unique (coherent.stored rightFound) sameId
    rw [← coherent.keyed left leftEvent leftFound, ← coherent.keyed right rightEvent rightFound,
      sameEvent]
  · rintro ⟨key, id⟩
    rw [← SortedTable.get?_eq_some, image key id]
    constructor
    · rintro ⟨event, stored, owns, rfl⟩
      obtain rfl : key = prefixOf event ++ makeCiIndexKey event.createdAt event.id := by
        simpa [indexSchema] using owns
      exact ⟨(event.id, event), SortedTable.get?_eq_some.mp stored, rfl⟩
    · rintro ⟨⟨id', event⟩, member, same⟩
      cases same
      refine ⟨event, coherent.stored (SortedTable.get?_eq_some.mpr member), ?_, rfl⟩
      simp [indexSchema]

private theorem indexedBy {db : Lmdb} {prefixesOf : DatabaseEvent → List Bytes}
    {index : SortedTable Bytes EventId} {keysOf : EventIndexKeys → List Bytes}
    (listed : ∀ event, (indexSchema prefixesOf).keysOf event = keysOf (EventIndexKeys.new event))
    (image : (indexSchema prefixesOf).Image db.Stored index) : db.IndexedBy index keysOf := by
  intro key id
  rw [image key id]
  simp only [listed, indexSchema_idOf]

theorem Coherent.indexesMatchEvents {db : Lmdb} (coherent : db.Coherent) :
    db.IndexesMatchEvents := by
  have indexed := coherent.indexed
  exact {
    keyed := coherent.keyed
    ci := indexedBy ciSchema_keysOf indexed.ci
    ac := indexedBy acSchema_keysOf indexed.ac
    akc := indexedBy akcSchema_keysOf indexed.akc
    kc := indexedBy kcSchema_keysOf indexed.kc
    atc := indexedBy atcSchema_keysOf indexed.atc
    ktc := indexedBy ktcSchema_keysOf indexed.ktc
    tc := indexedBy tcSchema_keysOf indexed.tc
    oncePerEvent := ⟨len_eq_events coherent indexed.ci, len_eq_events coherent indexed.ac,
      len_eq_events coherent indexed.akc, len_eq_events coherent indexed.kc⟩ }

/-- In every state that operations reach, the indexes are the image of the
events, and removing any one event keeps it so. -/
theorem run_indexesMatchEvents (externals : Externals) (options : LmdbOptions)
    (operations : List (HashOrder × IngesterOperation)) :
    (run externals options operations).IndexesMatchEvents ∧
    ∀ event, (run externals options operations).Stored event →
      ((run externals options operations).remove (EventIndexKeys.new event)).IndexesMatchEvents := by
  have coherent := run_coherent externals options operations
  exact ⟨coherent.indexesMatchEvents, fun event stored =>
    (Coherent.durable.remove _ event coherent stored).indexesMatchEvents⟩

end RustNostr.NostrLmdb.Lmdb
