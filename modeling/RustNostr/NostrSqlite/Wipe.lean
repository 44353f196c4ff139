import Mathlib
import RustNostr.NostrLmdb.QueryRuns
import RustNostr.NostrSqlite.Runs

/-!
# Wiping the SQLite store

Whether what is asked of a wiped database can tell it from a new one.
-/

set_option autoImplicit false

namespace RustNostr.NostrSqlite

open Library

/-- What is asked of a database. -/
inductive Request where
  | save (event : Event)
  | query (filter : Filter)
  | count (filter : Filter)

inductive Answer where
  | status (status : SaveEventStatus)
  | events (events : List Event)
  | number (number : Option Nat)
  deriving DecidableEq

namespace Database

variable (externals : Externals) (options : NostrSqliteOptions)

def answer (db : Database) : Engine × Request → Answer × Database
  | (engine, .save event) =>
      let (status, after) := db.saveEventSync externals options engine event
      (.status status, after)
  | (engine, .query filter) => (.events (db.query engine filter), db)
  | (engine, .count filter) => (.number (db.count engine filter), db)

/-- The answers to a sequence of requests. -/
def answers (db : Database) : List (Engine × Request) → List Answer
  | [] => []
  | request :: requests =>
      let (first, after) := db.answer externals options request
      first :: answers after requests

variable {externals : Externals} {options : NostrSqliteOptions} {engine : Engine}
variable {db after : Database} {event : Event}

/-! ## Who has vanished -/

theorem saveTransaction_vanishedPublicKeys
    (accepted : db.saveTransaction externals options engine event = .ok after) :
    after.vanishedPublicKeys = if isVanishRequest externals options event then
      db.vanishedPublicKeys.insert event.pubkey else db.vanishedPublicKeys := by
  obtain ⟨replaced, replaces, cleared, clears, middle, requests, inserts⟩ :=
    saveTransaction_ok.mp accepted
  obtain ⟨_, _, inserted⟩ := inserted_eq_some.mp inserts
  have before : middle.vanishedPublicKeys = db.vanishedPublicKeys :=
    (requested_keeps requests).trans
      ((replaceReplaceable_same replaces).trans (replaceAddressable_same clears)).vanishedPublicKeys
  have last : after.vanishedPublicKeys =
      (middle.vanished externals options event).vanishedPublicKeys := by
    rw [← inserted]
    exact .refl _
  rw [last, vanished]
  split
  · rw [← before]
    exact .refl _
  · exact before

theorem insert_ne_empty (set : SortedSet PublicKey) (pubkey : PublicKey) :
    set.insert pubkey ≠ .empty := by
  intro empty
  have present : (set.insert pubkey).get? pubkey = some () := by
    rw [SortedSet.insert, SortedTable.get?_put, if_pos (.refl _)]
  rw [empty] at present
  cases present

/-- The operation is an accepted request to vanish. -/
def Vanishes (externals : Externals) (options : NostrSqliteOptions) (db : Database)
    (step : Engine × Operation) : Prop :=
  ∃ engine event, step = (engine, .save event) ∧
    (db.saveEventSync externals options engine event).1 = .success ∧
    isVanishRequest externals options event = true

theorem perform_vanishedPublicKeys (step : Engine × Operation) :
    (db.perform externals options step).vanishedPublicKeys = .empty ↔
      db.vanishedPublicKeys = .empty ∧ ¬ Vanishes externals options db step := by
  obtain ⟨engine, operation⟩ := step
  cases operation with
  | save event =>
      by_cases accepted : (db.saveEventSync externals options engine event).1 = .success
      · have after := saveTransaction_vanishedPublicKeys (saveEventSync_success.mp accepted).2
        rw [perform, after]
        split
        next vanishes =>
          have vanishes : Vanishes externals options db (engine, .save event) :=
            ⟨engine, event, .refl _, accepted, vanishes⟩
          simp only [insert_ne_empty, vanishes, not_true_eq_false, and_false]
        next ordinary =>
          have stays : ¬ Vanishes externals options db (engine, .save event) := by
            rintro ⟨_, _, same, _, vanishes⟩
            cases same
            exact ordinary vanishes
          simp only [stays, not_false_eq_true, and_true]
      · have stays : ¬ Vanishes externals options db (engine, .save event) := by
          rintro ⟨_, _, same, accepted', _⟩
          cases same
          exact accepted accepted'
        rw [perform, saveEventSync_rejected accepted]
        simp only [stays, not_false_eq_true, and_true]
  | delete filter =>
      have stays : ¬ Vanishes externals options db (engine, .delete filter) := by
        rintro ⟨_, _, same, _⟩
        cases same
      simp only [stays, not_false_eq_true, and_true]
      exact .refl _
  | wipe =>
      have stays : ¬ Vanishes externals options db (engine, .wipe) := by
        rintro ⟨_, _, same, _⟩
        cases same
      simp only [stays, not_false_eq_true, and_true]
      exact .refl _

/-- The runs after which nobody has vanished: wipes do not matter to this. -/
theorem run_vanishedPublicKeys_iff (externals : Externals) (options : NostrSqliteOptions)
    (operations : List (Engine × Operation)) :
    (run externals options operations).vanishedPublicKeys = .empty ↔
      ∀ earlier step, earlier ++ [step] <+: operations →
        ¬ Vanishes externals options (run externals options earlier) step := by
  induction operations using List.reverseRecOn with
  | nil =>
      simp only [List.prefix_nil, List.append_eq_nil_iff, List.cons_ne_nil, and_false,
        false_implies, implies_true, iff_true]
      exact .refl _
  | append_singleton operations last ih =>
      rw [run, List.foldl_concat, perform_vanishedPublicKeys, ← run, ih]
      constructor
      · intro stays earlier step reached
        cases List.prefix_concat_iff.mp reached with
        | inl whole =>
            obtain ⟨same, is_last⟩ := List.append_inj' whole (.refl _)
            cases List.singleton_inj.mp is_last
            exact same ▸ stays.2
        | inr before => exact stays.1 earlier step before
      · intro stays
        refine ⟨fun earlier step reached => ?_, stays operations last (List.prefix_refl _)⟩
        exact stays earlier step (reached.trans (List.prefix_append _ _))

/-! ## Asking a wiped database -/

theorem wipe_eq_new (nobody : db.vanishedPublicKeys = .empty) : db.wipe = {} := by
  rw [wipe, nobody]

def noteBy (pubkey : PublicKey) : Event where
  id := .replicate 32 0
  pubkey := pubkey
  createdAt := 1
  kind := .custom 1
  tags := []
  content := ""
  sig := .replicate 64 0

theorem save_noteBy_new (pubkey : PublicKey) :
    (saveEventSync {} externals options engine (noteBy pubkey)).1 = .success := by
  have unrefused : refusal {} (noteBy pubkey) = none := .refl _
  have ordinary : isVanishRequest externals options (noteBy pubkey) = false := by
    unfold isVanishRequest
    rw [Bool.and_eq_false_iff, Bool.and_eq_false_iff]
    exact .inl (.inr (.refl _))
  have unrequested : requested externals options {} (noteBy pubkey) = some {} := by
    unfold requested
    rw [if_neg]
    rw [Bool.and_eq_true]
    exact fun deletion => Bool.false_ne_true deletion.2
  have inserts : ∃ after, inserted (vanished externals options {} (noteBy pubkey)) (noteBy pubkey) =
      some after := by
    rw [vanished, ordinary]
    exact ⟨_, .refl _⟩
  obtain ⟨after, inserts⟩ := inserts
  have committed : saveTransaction {} externals options engine (noteBy pubkey) = .ok after :=
    saveTransaction_ok.mpr ⟨{}, .refl _, {}, .refl _, {}, unrequested, inserts⟩
  rw [saveEventSync, unrefused, committed]

theorem save_noteBy_vanished {pubkey : PublicKey} (vanished : db.pubkeyIsVanished pubkey = true) :
    (db.wipe.saveEventSync externals options engine (noteBy pubkey)).1 = .rejected .vanished := by
  have refused : db.wipe.refusal (noteBy pubkey) = some .vanished := by
    have still : db.wipe.pubkeyIsVanished (noteBy pubkey).pubkey = true := vanished
    rw [refusal, still]
    exact .refl _
  rw [saveEventSync, refused]

theorem exists_vanished (somebody : db.vanishedPublicKeys ≠ .empty) :
    ∃ pubkey, db.pubkeyIsVanished pubkey = true := by
  by_contra nobody
  apply somebody
  apply SortedTable.ext_get?
  intro pubkey
  cases found : db.vanishedPublicKeys.get? pubkey with
  | none => exact .refl _
  | some _ =>
      refine absurd ⟨pubkey, ?_⟩ nobody
      rw [pubkeyIsVanished, found]
      exact .refl _

/-- In every reachable state, a wiped database answers every sequence of requests
like a new one if and only if nobody has vanished. -/
theorem run_wipe_answers_iff (externals : Externals) (options : NostrSqliteOptions)
    (operations : List (Engine × Operation)) :
    (∀ requests, answers externals options (run externals options operations).wipe requests =
      answers externals options {} requests) ↔
      (run externals options operations).vanishedPublicKeys = .empty := by
  generalize run externals options operations = db
  constructor
  · intro same
    by_contra somebody
    obtain ⟨pubkey, vanished⟩ := exists_vanished somebody
    have first := same [(.plain, .save (noteBy pubkey))]
    simp only [answers, answer, save_noteBy_new, save_noteBy_vanished vanished] at first
    cases first
  · intro nobody requests
    rw [wipe_eq_new nobody]

open NostrLmdb.Lmdb (sampleExternals sampleEvent sampleTag)

def sampleVanish : Event :=
  sampleEvent 1 10 .requestToVanish [sampleTag "relay" "ALL_RELAYS"]

/-- After the wipe, the author's note is still rejected. -/
theorem run_wipe_not_answersLikeNew : ¬ ∀ externals options operations requests,
    answers externals options (run externals options operations).wipe requests =
      answers externals options {} requests := by
  intro same
  have answered := same sampleExternals {} [(.plain, .save sampleVanish)]
    [(.plain, .save (sampleEvent 2 20 (.custom 1) []))]
  revert answered
  decide +kernel

end Database

end RustNostr.NostrSqlite
