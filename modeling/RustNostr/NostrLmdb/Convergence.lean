import Mathlib
import RustNostr.NostrLmdb.Coordinates

/-!
# Convergence of replaceable events

Whatever the order in which the events of an author and replaceable kind are
saved, the same one stays. The range scans leave out one key, the oldest time
with the greatest ID, and that is where it fails.
-/

set_option autoImplicit false

namespace RustNostr.NostrLmdb.Lmdb

open Library Transaction

/-! ## Saving several events -/

def saveEach (externals : Externals) (options : LmdbOptions)
    (entries : List (HashOrder × Event)) (db : Lmdb) : Lmdb :=
  (perform externals options (entries.map fun entry => (entry.1, .saveEvent entry.2)) db).2

/-- The store after one save. -/
def saveOne (externals : Externals) (options : LmdbOptions) (entry : HashOrder × Event)
    (db : Lmdb) : Lmdb :=
  ((processOperation externals options entry.1 (.saveEvent entry.2)).commit db).2

def OfKind (author : PublicKey) (kind : Kind) (event : DatabaseEvent) : Prop :=
  event.pubkey = author ∧ event.kind = kind.asU16

/-- Events of one author and kind. Nothing in the store speaks against any of
them, and it holds no other of that author and kind. -/
structure Newcomers (options : LmdbOptions) (author : PublicKey) (kind : Kind)
    (entries : List (HashOrder × Event)) (db : Lmdb) : Prop where
  owner : ∀ entry ∈ entries, entry.2.pubkey = author
  sameKind : ∀ entry ∈ entries, entry.2.kind = kind
  admits : ∀ entry ∈ entries, Admits options db entry.2
  alone : ∀ stored, db.Stored stored → ¬ OfKind author kind stored

/-- What is stored of the author and kind has been saved since the start. -/
structure Since (author : PublicKey) (kind : Kind) (start : Lmdb)
    (seen : List (HashOrder × Event)) (db : Lmdb) : Prop where
  coherent : db.Coherent
  tombstones : SameTombstones start db
  versions : ∀ stored, db.Stored stored → OfKind author kind stored →
    ∃ entry ∈ seen, stored = .ofEvent entry.2
  others : ∀ stored, db.Stored stored → ¬ OfKind author kind stored → start.Stored stored

/-- What one save of a replaceable event does. -/
inductive SaveStep (author : PublicKey) (kind : Kind) (event : Event) (db : Lmdb) : Lmdb → Prop where
  | known (stored : DatabaseEvent) (present : db.Stored stored)
      (ofKind : OfKind author kind stored) (same : stored.id = event.id) :
      SaveStep author kind event db db
  | beaten (stored : DatabaseEvent) (present : db.Stored stored)
      (ofKind : OfKind author kind stored) (beats : Beats stored event) :
      SaveStep author kind event db db
  | replaces (after : Lmdb)
      (clear : ∀ stored, db.Stored stored → OfKind author kind stored → InRange stored →
        ¬ Beats stored event)
      (fresh : ∀ stored, db.Stored stored → stored.id ≠ event.id)
      (coherent : after.Coherent) (tombstones : SameTombstones db after)
      (stored : ∀ stored, after.Stored stored ↔ stored = .ofEvent event ∨
        db.Stored stored ∧ ¬ (OfKind author kind stored ∧ InRange stored)) :
      SaveStep author kind event db after

section Steps

variable {externals : Externals} {options : LmdbOptions} {author : PublicKey} {kind : Kind}
  {start db : Lmdb}

theorem versionsOf_iff_ofKind {event : Event} (owner : event.pubkey = author)
    (sameKind : event.kind = kind) (replaceable : kind.isReplaceable = true)
    {stored : DatabaseEvent} :
    versionsOf event stored ↔ OfKind author kind stored ∧ InRange stored := by
  subst owner sameKind
  simp [versionsOf, replaceable, Kind.not_isAddressable_of_isReplaceable replaceable, Version,
    OfKind, and_assoc]

theorem saveStep {seen : List (HashOrder × Event)} (since : Since author kind start seen db)
    (replaceable : kind.isReplaceable = true) {entry : HashOrder × Event}
    (owner : entry.2.pubkey = author) (sameKind : entry.2.kind = kind)
    (admitted : Admits options start entry.2) :
    SaveStep author kind entry.2 db (saveOne externals options entry db) := by
  obtain ⟨notEphemeral, fresh, clear⟩ := admits_iff.mp admitted
  have spared : tombstoneAgainst options db entry.2 = false := by
    rw [since.tombstones.tombstoneAgainst, clear]
  have versions : ∀ {stored}, versionsOf entry.2 stored ↔ _ :=
    versionsOf_iff_ofKind owner sameKind replaceable
  cases found : db.getEventById entry.2.id with
  | some stored =>
      have sameId : stored.id = entry.2.id := since.coherent.keyed _ _ found
      have present : db.Stored stored := since.coherent.stored found
      have refuses : ¬ Admits options db entry.2 := by
        intro admits
        have absent := admits.absent
        cases absent.symm.trans found
      obtain ⟨reason, after, _, ran, kept⟩ :=
        @save_of_not_admits externals options entry.1 entry.2 db refuses
      have unchanged : saveOne externals options entry db = db := by
        rw [saveOne, commit_save ran]
        rcases kept with same | promoted
        · exact same
        · simp [tombstoneAgainst, promoted.1, promoted.2.1, promoted.2.2.1] at spared
      have ofKind : OfKind author kind stored := by
        by_contra other
        have before := since.others stored present other
        have absent := admitted.absent
        rw [Stored, sameId] at before
        cases absent.symm.trans before
      rw [unchanged]
      exact .known stored present ofKind sameId
  | none =>
      have admits : Admits options db entry.2 :=
        admits_iff.mpr ⟨notEphemeral, by rw [hasEvent, found, Option.isSome_none], spared⟩
      by_cases beaten : ∃ stored, db.Stored stored ∧ versionsOf entry.2 stored ∧
          hasEventBeenReplaced stored entry.2 = true
      · have ran := (@replaceAndStore_run externals options entry.1 entry.2 db since.coherent).1
          beaten
        rw [← save_of_admits admits] at ran
        have unchanged : saveOne externals options entry db = db := by rw [saveOne, commit_save ran]
        obtain ⟨stored, present, version, beats⟩ := beaten
        rw [unchanged]
        exact .beaten stored present (versions.mp version).1 (beats_iff.mpr beats)
      · have ordinary := Kind.not_special_of_isReplaceable replaceable
        rw [← sameKind] at ordinary
        obtain ⟨after, ran, coherent, tombstones, storedAfter⟩ := @save_ordinary_succeeds externals
          options entry.1 entry.2 db since.coherent ordinary admits fun stored present version =>
            Bool.eq_false_iff.mpr fun beats => beaten ⟨stored, present, version, beats⟩
        have reached : saveOne externals options entry db = after := by rw [saveOne, commit_save ran]
        rw [reached]
        refine .replaces after (fun stored present ofKind inRange beats => ?_)
          (fun stored present sameId => ?_) coherent tombstones fun stored => ?_
        · exact beaten ⟨stored, present, versions.mpr ⟨ofKind, inRange⟩, beats_iff.mp beats⟩
        · rw [Stored, sameId] at present
          cases present.symm.trans found
        · rw [storedAfter, versions]

theorem Since.step {seen : List (HashOrder × Event)} (since : Since author kind start seen db)
    {entry : HashOrder × Event} (ofKind : OfKind author kind (.ofEvent entry.2)) {after : Lmdb}
    (step : SaveStep author kind entry.2 db after) :
    Since author kind start (seen ++ [entry]) after := by
  have earlier : ∀ stored, db.Stored stored → OfKind author kind stored →
      ∃ known ∈ seen ++ [entry], stored = .ofEvent known.2 := by
    intro stored present ofKind
    obtain ⟨known, member, same⟩ := since.versions stored present ofKind
    exact ⟨known, List.mem_append_left _ member, same⟩
  cases step with
  | known | beaten => exact ⟨since.coherent, since.tombstones, earlier, since.others⟩
  | replaces after clear fresh coherent tombstones storedAfter =>
      refine ⟨coherent, since.tombstones.trans tombstones, fun stored present ofKind => ?_,
        fun stored present other => ?_⟩
      · rcases (storedAfter stored).mp present with new | old
        · exact ⟨entry, by simp, new⟩
        · exact earlier stored old.1 ofKind
      · rcases (storedAfter stored).mp present with new | old
        · exact absurd (new ▸ ofKind) other
        · exact since.others stored old.1 other

theorem Newcomers.since {entries : List (HashOrder × Event)}
    (newcomers : Newcomers options author kind entries start) (coherent : start.Coherent) :
    Since author kind start [] start where
  coherent := coherent
  tombstones := .refl start
  versions stored present ofKind := absurd ofKind (newcomers.alone stored present)
  others _ present _ := present

theorem Newcomers.ofKind {entries : List (HashOrder × Event)}
    (newcomers : Newcomers options author kind entries start) {entry : HashOrder × Event}
    (member : entry ∈ entries) : OfKind author kind (.ofEvent entry.2) :=
  ⟨newcomers.owner entry member, congrArg Kind.asU16 (newcomers.sameKind entry member)⟩

theorem Newcomers.subset {entries fewer : List (HashOrder × Event)}
    (newcomers : Newcomers options author kind entries start) (subset : fewer ⊆ entries) :
    Newcomers options author kind fewer start where
  owner entry member := newcomers.owner entry (subset member)
  sameKind entry member := newcomers.sameKind entry (subset member)
  admits entry member := newcomers.admits entry (subset member)
  alone := newcomers.alone

/-- What every single save keeps, a sequence of saves keeps. -/
theorem saveEach_keeps (replaceable : kind.isReplaceable = true)
    {keeps : List (HashOrder × Event) → Lmdb → Prop} {entries : List (HashOrder × Event)}
    (newcomers : Newcomers options author kind entries start)
    (each : ∀ seen entry db after, entry ∈ entries → Since author kind start seen db →
      SaveStep author kind entry.2 db after → keeps seen db → keeps (seen ++ [entry]) after)
    {seen : List (HashOrder × Event)} (since : Since author kind start seen db)
    (held : keeps seen db) :
    Since author kind start (seen ++ entries) (saveEach externals options entries db) ∧
      keeps (seen ++ entries) (saveEach externals options entries db) := by
  induction entries generalizing seen db with
  | nil =>
      rw [List.append_nil]
      exact ⟨since, held⟩
  | cons entry rest ih =>
      have first := List.mem_cons_self (a := entry) (l := rest)
      have step := @saveStep externals options author kind start db seen since replaceable entry
        (newcomers.owner entry first) (newcomers.sameKind entry first)
        (newcomers.admits entry first)
      have result := ih (newcomers.subset (List.subset_cons_self entry rest))
        (fun seen entry db after member => each seen entry db after (.tail _ member))
        (since.step (newcomers.ofKind first) step) (each seen entry db _ first since step held)
      rwa [List.append_assoc] at result

end Steps

/-! ## Convergence -/

/-- Saved in any order, the events leave one of them: the newest, and among
these the one with the smallest ID. -/
def Converges (externals : Externals) (options : LmdbOptions) (author : PublicKey) (kind : Kind)
    (entries : List (HashOrder × Event)) (db : Lmdb) : Prop :=
  ∀ shuffled : List (HashOrder × Event), shuffled.Perm entries → ∃ best ∈ entries,
    (∀ entry ∈ entries, best.2.orderingKey ≤ entry.2.orderingKey) ∧
    ∀ stored, (saveEach externals options shuffled db).Stored stored ∧ OfKind author kind stored ↔
      stored = .ofEvent best.2

/-- An event with the ID of a best one is as new as that. -/
def BestIdDecides (entries : List (HashOrder × Event)) : Prop :=
  ∀ best ∈ entries, (∀ entry ∈ entries, best.2.orderingKey ≤ entry.2.orderingKey) →
    ∀ entry ∈ entries, entry.2.id = best.2.id → entry.2.createdAt = best.2.createdAt

/-- If the range scans leave out one of the events, they leave out all. -/
def ListedAlike (entries : List (HashOrder × Event)) : Prop :=
  (∃ entry ∈ entries, ¬ InRange (.ofEvent entry.2)) →
    ∀ entry ∈ entries, ¬ InRange (.ofEvent entry.2)

theorem exists_best {entries : List (HashOrder × Event)} (nonempty : entries ≠ []) :
    ∃ best ∈ entries, ∀ entry ∈ entries, best.2.orderingKey ≤ entry.2.orderingKey := by
  let key (entry : HashOrder × Event) := entry.2.orderingKey
  cases found : entries.argmin key with
  | none => exact absurd (List.argmin_eq_none.mp found) nonempty
  | some best =>
      exact ⟨best, List.argmin_mem found, fun entry member =>
        List.le_of_mem_argmin (f := key) member found⟩

theorem orderingKey_ofEvent (event : Event) :
    (DatabaseEvent.ofEvent event).orderingKey = event.orderingKey := rfl

theorem beats_iff_lt {stored : DatabaseEvent} {event : Event} :
    Beats stored event ↔ stored.orderingKey < event.orderingKey :=
  beats_iff.trans hasEventBeenReplaced_iff

/-- The one key that is out of range is the last of all. -/
theorem lt_of_not_inRange {left right : DatabaseEvent} (outside : ¬ InRange right)
    (inside : InRange left) : left.orderingKey < right.orderingKey :=
  lt_of_lt_of_le inside (not_lt.mp outside)

theorem not_inRange_iff {event : DatabaseEvent} :
    ¬ InRange event ↔ event.createdAt = .min ∧ event.id = eventIdAll255 := by
  have earliest := Timestamp.min_le event.createdAt
  have greatest : event.id ≤ eventIdAll255 := FixedBytes.le_replicate_max event.id
  rw [InRange, orderingKey_lt_sinceBound, not_or, not_lt, not_and, not_lt]
  constructor
  · intro outside
    have oldest := le_antisymm outside.1 earliest
    exact ⟨oldest, le_antisymm greatest (outside.2 oldest)⟩
  · intro last
    exact ⟨last.1.le, fun _ => last.2.ge⟩

/-- At most one version is stored, and the best one if it has been saved. -/
structure Register (author : PublicKey) (kind : Kind) (best : HashOrder × Event)
    (seen : List (HashOrder × Event)) (db : Lmdb) : Prop where
  once : ∀ left right, db.Stored left → db.Stored right → OfKind author kind left →
    OfKind author kind right → left = right
  kept : best ∈ seen → ∃ stored, db.Stored stored ∧ OfKind author kind stored ∧
    stored.orderingKey = best.2.orderingKey

section Sufficient

variable {author : PublicKey} {kind : Kind} {start db after : Lmdb}
  {entries seen : List (HashOrder × Event)} {best entry : HashOrder × Event}

/-- A save that changes nothing has a version that is as good as the event. -/
theorem Register.unchanged (register : Register author kind best seen db)
    (asGood : entry = best → ∃ stored, db.Stored stored ∧ OfKind author kind stored ∧
      stored.orderingKey = best.2.orderingKey) :
    Register author kind best (seen ++ [entry]) db where
  once := register.once
  kept member := by
    rcases List.mem_append.mp member with before | now
    · exact register.kept before
    · exact asGood (List.mem_singleton.mp now).symm

theorem Register.step (best_le : ∀ entry ∈ entries, best.2.orderingKey ≤ entry.2.orderingKey)
    (decides : ∀ entry ∈ entries, entry.2.id = best.2.id → entry.2.createdAt = best.2.createdAt)
    (alike : (∀ entry ∈ entries, InRange (.ofEvent entry.2)) ∨
      ∀ entry ∈ entries, ¬ InRange (.ofEvent entry.2))
    (seenBefore : ∀ entry ∈ seen, entry ∈ entries) (member : entry ∈ entries)
    (ofKind : OfKind author kind (.ofEvent entry.2))
    (since : Since author kind start seen db) (step : SaveStep author kind entry.2 db after)
    (register : Register author kind best seen db) :
    Register author kind best (seen ++ [entry]) after := by
  cases step with
  | known stored present version sameId =>
      refine register.unchanged fun isBest => ⟨stored, present, version, ?_⟩
      obtain ⟨earlier, earlierSeen, same⟩ := since.versions stored present version
      subst isBest same
      have sameTime := decides earlier (seenBefore earlier earlierSeen) sameId
      rw [orderingKey_ofEvent, Event.orderingKey, Event.orderingKey, sameTime]
      exact congrArg (fun id => toLex (OrderDual.toDual entry.2.createdAt, id)) sameId
  | beaten stored present version beats =>
      refine register.unchanged fun isBest => ?_
      obtain ⟨earlier, earlierSeen, same⟩ := since.versions stored present version
      subst isBest same
      have notBetter := best_le earlier (seenBefore earlier earlierSeen)
      exact absurd (beats_iff_lt.mp beats) (not_lt.mpr notBetter)
  | replaces after clear fresh coherent tombstones storedAfter =>
      -- Nothing of the kind is left, as all of it is in range or has the same ID.
      have onlyNew : ∀ stored, after.Stored stored → OfKind author kind stored →
          stored = .ofEvent entry.2 := by
        intro stored present version
        rcases (storedAfter stored).mp present with new | old
        · exact new
        · obtain ⟨earlier, earlierSeen, same⟩ := since.versions stored old.1 version
          have earlierMember := seenBefore earlier earlierSeen
          subst same
          rcases alike with inside | outside
          · exact absurd ⟨version, inside earlier earlierMember⟩ old.2
          · have lastEarlier := not_inRange_iff.mp (outside earlier earlierMember)
            have lastEntry := not_inRange_iff.mp (outside entry member)
            exact absurd (lastEarlier.2.trans lastEntry.2.symm) (fresh _ old.1)
      have newStored : after.Stored (.ofEvent entry.2) := (storedAfter _).mpr (.inl rfl)
      refine ⟨fun left right leftStored rightStored leftKind rightKind => ?_, fun saved => ?_⟩
      · exact (onlyNew left leftStored leftKind).trans (onlyNew right rightStored rightKind).symm
      · refine ⟨_, newStored, ofKind, ?_⟩
        rcases List.mem_append.mp saved with before | now
        · obtain ⟨stored, present, version, sameKey⟩ := register.kept before
          apply le_antisymm _ (best_le entry member)
          rw [← sameKey]
          by_cases inRange : InRange stored
          · exact not_lt.mp fun better =>
              clear stored present version inRange (beats_iff_lt.mpr better)
          · have stays := (storedAfter stored).mpr (.inr ⟨present, fun held => inRange held.2⟩)
            rw [onlyNew stored stays version, orderingKey_ofEvent]
        · rw [List.mem_singleton.mp now, orderingKey_ofEvent]

end Sufficient

section Order

variable {externals : Externals} {options : LmdbOptions} {author : PublicKey} {kind : Kind}
  {db : Lmdb} {entries : List (HashOrder × Event)}

theorem converges_of_decides (coherent : db.Coherent) (replaceable : kind.isReplaceable = true)
    (nonempty : entries ≠ []) (newcomers : Newcomers options author kind entries db)
    (decides : BestIdDecides entries) (alike : ListedAlike entries) :
    Converges externals options author kind entries db := by
  intro shuffled perm
  obtain ⟨best, bestMember, best_le⟩ := exists_best nonempty
  have sides : (∀ entry ∈ entries, InRange (.ofEvent entry.2)) ∨
      ∀ entry ∈ entries, ¬ InRange (.ofEvent entry.2) := by
    by_cases outside : ∃ entry ∈ entries, ¬ InRange (.ofEvent entry.2)
    · exact .inr (alike outside)
    · exact .inl fun entry member => not_not.mp fun out => outside ⟨entry, member, out⟩
  let keeps (seen : List (HashOrder × Event)) (db : Lmdb) :=
    (∀ entry ∈ seen, entry ∈ entries) ∧ Register author kind best seen db
  have empty : keeps [] db := by
    constructor
    · intro entry member
      cases member
    · constructor
      · exact fun left _ present _ version => absurd version (newcomers.alone left present)
      · intro member
        cases member
  have shuffledNewcomers := newcomers.subset perm.subset
  obtain ⟨since, _, register⟩ := @saveEach_keeps externals options author kind db db replaceable
    keeps shuffled shuffledNewcomers (by
      intro seen entry before after member since step held
      refine ⟨fun known knownMember => ?_, held.2.step best_le (decides best bestMember best_le) sides
        held.1 (perm.subset member) (shuffledNewcomers.ofKind member) since step⟩
      rcases List.mem_append.mp knownMember with earlier | now
      · exact held.1 known earlier
      · exact List.mem_singleton.mp now ▸ perm.subset member) [] (newcomers.since coherent) empty
  obtain ⟨stored, present, version, sameKey⟩ := register.kept (perm.mem_iff.mpr bestMember)
  obtain ⟨winner, winnerMember, same⟩ := since.versions stored present version
  subst same
  refine ⟨winner, perm.subset winnerMember, fun entry member => ?_, fun other => ?_⟩
  · exact sameKey.trans_le (best_le entry member)
  · constructor
    · exact fun held => register.once other _ held.1 present held.2 version
    · intro same
      exact same ▸ ⟨present, version⟩

/-- The first of the newcomers is stored. -/
theorem saveOne_first (replaceable : kind.isReplaceable = true) (coherent : db.Coherent)
    {first : HashOrder × Event} (newcomers : Newcomers options author kind entries db)
    (member : first ∈ entries) :
    Since author kind db [first] (saveOne externals options first db) ∧
      (saveOne externals options first db).Stored (.ofEvent first.2) := by
  have since := newcomers.since coherent
  have step := @saveStep externals options author kind db db [] since replaceable first
    (newcomers.owner first member) (newcomers.sameKind first member)
    (newcomers.admits first member)
  refine ⟨since.step (newcomers.ofKind member) step, ?_⟩
  generalize saveOne externals options first db = after at step
  cases step with
  | known stored present version => exact absurd version (newcomers.alone stored present)
  | beaten stored present version => exact absurd version (newcomers.alone stored present)
  | replaces after clear fresh coherent tombstones storedAfter =>
      exact (storedAfter _).mpr (.inl rfl)

theorem saveEach_append (left right : List (HashOrder × Event)) (db : Lmdb) :
    saveEach externals options (left ++ right) db =
      saveEach externals options right (saveEach externals options left db) := by
  induction left generalizing db with
  | nil => rfl
  | cons entry left ih => exact ih _

/-- An event with the ID of the best one keeps it out if it comes first. -/
theorem Converges.bestIdDecides (replaceable : kind.isReplaceable = true) (coherent : db.Coherent)
    (newcomers : Newcomers options author kind entries db)
    (converges : Converges externals options author kind entries db) : BestIdDecides entries := by
  intro best bestMember best_le entry member sameId
  by_contra otherTime
  obtain ⟨front, back, split⟩ := List.append_of_mem member
  let others := front ++ back
  let twins := others.filter fun other => other.2.id = best.2.id
  let rivals := others.filter fun other => ¬ other.2.id = best.2.id
  have perm : (entry :: (twins ++ rivals)).Perm entries := by
    have parts : (twins ++ rivals).Perm others := by
      simpa [twins, rivals] using others.filter_append_perm fun other => other.2.id = best.2.id
    rw [split]
    exact (parts.cons entry).trans List.perm_middle.symm
  obtain ⟨winner, winnerMember, winner_le, holds⟩ := converges _ perm
  have within : twins ++ rivals ⊆ entries :=
    fun other otherMember => perm.subset (List.mem_cons_of_mem entry otherMember)
  obtain ⟨since, first⟩ := @saveOne_first externals options author kind db entries replaceable
    coherent entry newcomers member
  -- The events with its ID come next, and are known already.
  have twinsKnown : saveEach externals options twins (saveOne externals options entry db) =
      saveOne externals options entry db := by
    have stays := (@saveEach_keeps externals options author kind db _ replaceable
      (fun _ current => current = saveOne externals options entry db) twins
      (newcomers.subset fun twin twinMember => within (List.mem_append_left _ twinMember)) (by
        intro seen twin before after twinMember _ step unchanged
        cases step with
        | known | beaten => exact unchanged
        | replaces after clear fresh =>
            have twinId : twin.2.id = best.2.id := by simpa using (List.mem_filter.mp twinMember).2
            exact absurd (sameId.trans twinId.symm) (fresh _ (unchanged ▸ first)))
      [entry] since rfl).2
    exact stays
  have last := (@saveEach_keeps externals options author kind db _ replaceable
    (fun _ _ => True) rivals
    (newcomers.subset fun rival rivalMember => within (List.mem_append_right _ rivalMember))
    (fun _ _ _ _ _ _ _ _ => trivial) [entry] since trivial).1
  have ended : saveEach externals options (entry :: (twins ++ rivals)) db =
      saveEach externals options rivals (saveOne externals options entry db) := by
    change saveEach externals options (twins ++ rivals) (saveOne externals options entry db) = _
    rw [saveEach_append, twinsKnown]
  rw [ended] at holds
  obtain ⟨present, version⟩ := (holds _).mpr rfl
  obtain ⟨known, knownMember, same⟩ := last.versions _ present version
  have sameKey : winner.2.orderingKey = best.2.orderingKey :=
    le_antisymm (winner_le best bestMember) (best_le winner winnerMember)
  have knownKey : known.2.orderingKey = best.2.orderingKey :=
    (congrArg DatabaseEvent.orderingKey same).symm.trans sameKey
  have knownId : known.2.id = best.2.id :=
    congrArg (fun key : OrderingKey => (ofLex key).2) knownKey
  rcases List.mem_cons.mp knownMember with isFirst | isRival
  · rw [isFirst] at knownKey
    exact otherTime (congrArg (fun key : OrderingKey => OrderDual.ofDual (ofLex key).1) knownKey)
  · have otherId : known.2.id ≠ best.2.id := by simpa using (List.mem_filter.mp isRival).2
    exact otherId knownId

/-- An event that the range scans leave out is never replaced. -/
theorem Converges.listedAlike (replaceable : kind.isReplaceable = true) (coherent : db.Coherent)
    (newcomers : Newcomers options author kind entries db)
    (converges : Converges externals options author kind entries db) : ListedAlike entries := by
  intro some inside insideMember inRange
  obtain ⟨entry, member, outside⟩ := some
  obtain ⟨front, back, split⟩ := List.append_of_mem member
  have perm : (entry :: (front ++ back)).Perm entries := by
    rw [split]
    exact List.perm_middle.symm
  obtain ⟨winner, winnerMember, winner_le, holds⟩ := converges _ perm
  obtain ⟨since, first⟩ := @saveOne_first externals options author kind db entries replaceable
    coherent entry newcomers member
  have stays := (@saveEach_keeps externals options author kind db _ replaceable
    (fun _ current => current.Stored (.ofEvent entry.2)) (front ++ back)
    (newcomers.subset fun other otherMember => perm.subset (.tail entry otherMember)) (by
      intro seen other before after _ _ step stored
      cases step with
      | known | beaten => exact stored
      | replaces after clear fresh coherent tombstones storedAfter =>
          exact (storedAfter _).mpr (.inr ⟨stored, fun held => outside held.2⟩))
    [entry] since first).2
  have isWinner := (holds _).mp ⟨stays, newcomers.ofKind member⟩
  have better := lt_of_not_inRange outside inRange
  rw [isWinner] at better
  exact absurd (winner_le inside insideMember) (not_le.mpr better)

/-- In every reached store, new events of an author and replaceable kind
converge if and only if the ID of the best one is that of no older event and the
range scans list all of them or none. -/
theorem run_converges_iff (externals : Externals) (options : LmdbOptions)
    (operations : List (HashOrder × IngesterOperation)) (author : PublicKey) (kind : Kind)
    (replaceable : kind.isReplaceable = true) (entries : List (HashOrder × Event))
    (nonempty : entries ≠ [])
    (newcomers : Newcomers options author kind entries (run externals options operations)) :
    Converges externals options author kind entries (run externals options operations) ↔
      BestIdDecides entries ∧ ListedAlike entries := by
  have coherent := run_coherent externals options operations
  constructor
  · exact fun converges => ⟨converges.bestIdDecides replaceable coherent newcomers,
      converges.listedAlike replaceable coherent newcomers⟩
  · exact fun decides => converges_of_decides coherent replaceable nonempty newcomers decides.1
      decides.2

end Order

/-! ## Two profiles -/

def profile (id : UInt8) (createdAt : Timestamp) : HashOrder × Event :=
  (.id, sampleEvent id createdAt .metadata [])

theorem newcomers_profiles {entries : List (HashOrder × Event)}
    (owner : ∀ entry ∈ entries, entry.2.pubkey = sampleAuthor)
    (sameKind : ∀ entry ∈ entries, entry.2.kind = .metadata) :
    Newcomers {} sampleAuthor .metadata entries {} where
  owner := owner
  sameKind := sameKind
  admits entry member := by
    apply admits_iff.mpr
    refine ⟨?_, rfl, tombstoneAgainst_empty _ _⟩
    rw [sameKind entry member]
    rfl
  alone stored present := by cases present

theorem run_converges_profiles : Converges sampleExternals {} sampleAuthor .metadata
    [profile 1 10, profile 2 20] (run sampleExternals {} []) := by
  have newcomers : Newcomers {} sampleAuthor .metadata [profile 1 10, profile 2 20]
      (run sampleExternals {} []) := by
    apply newcomers_profiles
    · simp [profile, sampleEvent]
    · simp [profile, sampleEvent]
  apply (run_converges_iff sampleExternals {} [] sampleAuthor .metadata rfl _
    (List.cons_ne_nil _ _) newcomers).mpr
  constructor
  · intro best bestMember _ entry member sameId
    simp only [List.mem_cons, List.not_mem_nil, or_false] at bestMember member
    rcases bestMember with first | second
    · rcases member with same | other
      · rw [same, first]
      · rw [other, first] at sameId
        exact absurd sameId (by decide)
    · rcases member with other | same
      · rw [other, second] at sameId
        exact absurd sameId (by decide)
      · rw [same, second]
  · intro some
    obtain ⟨entry, member, outside⟩ := some
    simp only [List.mem_cons, List.not_mem_nil, or_false] at member
    have last := (not_inRange_iff.mp outside).1
    rcases member with first | second
    · rw [first] at last
      exact absurd last (by decide)
    · rw [second] at last
      exact absurd last (by decide)

/-- The first one has the key that the range scans leave out. -/
theorem saveEach_not_converges : ¬ ∀ externals options author kind entries,
    kind.isReplaceable = true → entries ≠ [] →
    Newcomers options author kind entries {} →
    Converges externals options author kind entries {} := by
  intro converges
  have newcomers : Newcomers {} sampleAuthor .metadata [profile 255 0, profile 1 10] {} := by
    apply newcomers_profiles
    · simp [profile, sampleEvent]
    · simp [profile, sampleEvent]
  obtain ⟨winner, _, _, holds⟩ := converges sampleExternals {} sampleAuthor .metadata
    [profile 255 0, profile 1 10] rfl (List.cons_ne_nil _ _) newcomers _ (List.Perm.refl _)
  have both : (saveEach sampleExternals {} [profile 255 0, profile 1 10] {}).Stored
        (.ofEvent (profile 255 0).2) ∧
      (saveEach sampleExternals {} [profile 255 0, profile 1 10] {}).Stored
        (.ofEvent (profile 1 10).2) := by
    unfold Stored
    decide +kernel
  have first := (holds _).mp ⟨both.1, rfl, rfl⟩
  have second := (holds _).mp ⟨both.2, rfl, rfl⟩
  cases congrArg DatabaseEvent.createdAt (first.trans second.symm)

end RustNostr.NostrLmdb.Lmdb
