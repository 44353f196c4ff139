import Mathlib
import RustNostr.Library.CyclicWindow
import RustNostr.Library.Run
import RustNostr.Library.SortedTable
import RustNostr.NostrGossip.Interface

/-!
# The background refresher of gossip

Which of the tracked public keys each round looks at
(`nostr-sdk/src/client/gossip/refresher.rs`). The keys of a list kind are a cycle, and an
atomic counter is the cursor into it.
-/

set_option autoImplicit false

namespace RustNostr.NostrSdk.Gossip

open Library NostrGossip

abbrev NonZeroUsize : Type := { number : UInt64 // number ≠ 0 }

structure GossipBackgroundRefresher where
  nip65RefreshCursor : UInt64 := 0
  nip17RefreshCursor : UInt64 := 0
  nip65SeenPublicKeys : SortedSet PublicKey := .empty
  nip17SeenPublicKeys : SortedSet PublicKey := .empty

namespace GossipBackgroundRefresher

def trackedPublicKeys (refresher : GossipBackgroundRefresher) : GossipListKind → SortedSet PublicKey
  | .nip65 => refresher.nip65SeenPublicKeys
  | .nip17 => refresher.nip17SeenPublicKeys

def cursor (refresher : GossipBackgroundRefresher) : GossipListKind → UInt64
  | .nip65 => refresher.nip65RefreshCursor
  | .nip17 => refresher.nip17RefreshCursor

/-- `set.extend` -/
def extend (set : SortedSet PublicKey) (publicKeys : List PublicKey) : SortedSet PublicKey :=
  publicKeys.foldl SortedSet.insert set

def trackPublicKeys (refresher : GossipBackgroundRefresher) (kind : GossipListKind)
    (publicKeys : List PublicKey) : GossipBackgroundRefresher :=
  match kind with
  | .nip65 => { refresher with nip65SeenPublicKeys := extend refresher.nip65SeenPublicKeys publicKeys }
  | .nip17 => { refresher with nip17SeenPublicKeys := extend refresher.nip17SeenPublicKeys publicKeys }

/-- `fetch_add`, which wraps around. -/
def fetchAdd (refresher : GossipBackgroundRefresher) (kind : GossipListKind) (limit : UInt64) :
    GossipBackgroundRefresher :=
  match kind with
  | .nip65 => { refresher with nip65RefreshCursor := refresher.nip65RefreshCursor + limit }
  | .nip17 => { refresher with nip17RefreshCursor := refresher.nip17RefreshCursor + limit }

/-- The keys from the cursor on, and the refresher behind them. -/
def nextTrackedPublicKeysForRefresh (refresher : GossipBackgroundRefresher) (kind : GossipListKind)
    (limit : NonZeroUsize) : List PublicKey × GossipBackgroundRefresher :=
  let trackedPublicKeys := (refresher.trackedPublicKeys kind).elems
  if trackedPublicKeys.isEmpty then ([], refresher)
  else
    let start := (refresher.cursor kind).toNat % trackedPublicKeys.length
    let count := min trackedPublicKeys.length limit.val.toNat
    let selected := (List.range count).filterMap fun offset =>
      trackedPublicKeys[(start + offset) % trackedPublicKeys.length]?
    (selected, refresher.fetchAdd kind limit.val)

/-! ## Runs -/

inductive Call where
  | track (kind : GossipListKind) (publicKeys : List PublicKey)
  | next (kind : GossipListKind) (limit : NonZeroUsize) (selected : List PublicKey)

/-- What a call gives, if it is one for the next keys of the kind. -/
def Call.selected? (kind : GossipListKind) : Call → Option (List PublicKey)
  | .track _ _ => none
  | .next asked _ selected => if asked = kind then some selected else none

inductive Step : GossipBackgroundRefresher → Call → GossipBackgroundRefresher → Prop where
  | track (refresher : GossipBackgroundRefresher) (kind : GossipListKind) (publicKeys : List PublicKey) :
      Step refresher (.track kind publicKeys) (refresher.trackPublicKeys kind publicKeys)
  | next (refresher : GossipBackgroundRefresher) (kind : GossipListKind) (limit : NonZeroUsize) :
      Step refresher (.next kind limit (refresher.nextTrackedPublicKeysForRefresh kind limit).1)
        (refresher.nextTrackedPublicKeysForRefresh kind limit).2

/-- The rounds of a kind, by the keys they are given. -/
def rounds (kind : GossipListKind) (calls : List Call) : List (List PublicKey) :=
  calls.filterMap (Call.selected? kind)

/-- The keys of the kind stay the same, and all its rounds have one limit. -/
structure Steady (kind : GossipListKind) (limit : NonZeroUsize) (refresher : GossipBackgroundRefresher)
    (calls : List Call) : Prop where
  tracked : ∀ publicKeys, .track kind publicKeys ∈ calls →
    ∀ publicKey ∈ publicKeys, publicKey ∈ (refresher.trackedPublicKeys kind).elems
  limited : ∀ limit' selected, .next kind limit' selected ∈ calls → limit' = limit

theorem rounds_concat (kind : GossipListKind) (calls : List Call) (last : Call) :
    rounds kind (calls ++ [last]) = rounds kind calls ++ (last.selected? kind).toList := by
  rw [rounds, List.filterMap_append]
  cases given : last.selected? kind <;> simp [rounds, given]

theorem Steady.initial {kind : GossipListKind} {limit : NonZeroUsize} {refresher : GossipBackgroundRefresher}
    {calls : List Call} {last : Call} (steady : Steady kind limit refresher (calls ++ [last])) :
    Steady kind limit refresher calls where
  tracked publicKeys member := steady.tracked publicKeys (List.mem_append_left _ member)
  limited limit' selected member := steady.limited limit' selected (List.mem_append_left _ member)

section Windows

variable {kind kind' : GossipListKind} {limit : NonZeroUsize} {refresher : GossipBackgroundRefresher}

theorem extend_of_subset {set : SortedSet PublicKey} {publicKeys : List PublicKey}
    (known : ∀ publicKey ∈ publicKeys, publicKey ∈ set.elems) : extend set publicKeys = set := by
  induction publicKeys with
  | nil => rfl
  | cons publicKey rest ih =>
      obtain ⟨first, later⟩ := List.forall_mem_cons.mp known
      have same : set.insert publicKey = set := SortedTable.put_same (SortedSet.mem_elems.mp first)
      rw [extend, List.foldl_cons, same]
      exact ih later

theorem trackedPublicKeys_trackPublicKeys {publicKeys : List PublicKey}
    (known : kind' = kind → ∀ publicKey ∈ publicKeys, publicKey ∈ (refresher.trackedPublicKeys kind).elems) :
    (refresher.trackPublicKeys kind' publicKeys).trackedPublicKeys kind = refresher.trackedPublicKeys kind := by
  cases kind' <;> cases kind
  case nip17.nip17 | nip65.nip65 => exact extend_of_subset (known rfl)
  all_goals rfl

theorem cursor_trackPublicKeys (publicKeys : List PublicKey) :
    (refresher.trackPublicKeys kind' publicKeys).cursor kind = refresher.cursor kind := by
  cases kind' <;> cases kind <;> rfl

theorem trackedPublicKeys_fetchAdd (number : UInt64) :
    (refresher.fetchAdd kind' number).trackedPublicKeys kind = refresher.trackedPublicKeys kind := by
  cases kind' <;> cases kind <;> rfl

theorem cursor_fetchAdd_self (number : UInt64) :
    (refresher.fetchAdd kind number).cursor kind = refresher.cursor kind + number := by
  cases kind <;> rfl

theorem cursor_fetchAdd_of_ne (other : kind' ≠ kind) (number : UInt64) :
    (refresher.fetchAdd kind' number).cursor kind = refresher.cursor kind := by
  cases kind' <;> cases kind
  case nip17.nip17 | nip65.nip65 => exact absurd rfl other
  all_goals rfl

theorem trackedPublicKeys_next :
    (refresher.nextTrackedPublicKeysForRefresh kind' limit).2.trackedPublicKeys kind =
      refresher.trackedPublicKeys kind := by
  unfold nextTrackedPublicKeysForRefresh
  by_cases empty : (refresher.trackedPublicKeys kind').elems = []
  · simp [empty]
  · simp [empty, trackedPublicKeys_fetchAdd]

theorem cursor_next_self (some : (refresher.trackedPublicKeys kind).elems ≠ []) :
    (refresher.nextTrackedPublicKeysForRefresh kind limit).2.cursor kind = refresher.cursor kind + limit.val := by
  unfold nextTrackedPublicKeysForRefresh
  simp [some, cursor_fetchAdd_self]

theorem cursor_next_of_ne (other : kind' ≠ kind) :
    (refresher.nextTrackedPublicKeysForRefresh kind' limit).2.cursor kind = refresher.cursor kind := by
  unfold nextTrackedPublicKeysForRefresh
  by_cases empty : (refresher.trackedPublicKeys kind').elems = []
  · simp [empty]
  · simp [empty, cursor_fetchAdd_of_ne other]

/-- The keys that a cursor shows. -/
def window (publicKeys : List PublicKey) (cursor size : Nat) : List PublicKey :=
  (List.range (min publicKeys.length size)).filterMap fun offset =>
    publicKeys[(cursor + offset) % publicKeys.length]?

theorem selected_eq_window :
    (refresher.nextTrackedPublicKeysForRefresh kind limit).1 =
      window (refresher.trackedPublicKeys kind).elems (refresher.cursor kind).toNat limit.val.toNat := by
  unfold nextTrackedPublicKeysForRefresh window
  by_cases empty : (refresher.trackedPublicKeys kind).elems = []
  · simp [empty]
  · simp [empty, Nat.mod_add_mod]

theorem mem_window {publicKeys : List PublicKey} {cursor size : Nat} {publicKey : PublicKey} :
    publicKey ∈ window publicKeys cursor size ↔ ∃ offset < min publicKeys.length size,
      publicKeys[(cursor + offset) % publicKeys.length]? = some publicKey := by
  simp only [window, List.mem_filterMap, List.mem_range]

theorem window_nil (cursor size : Nat) : window [] cursor size = [] := by
  simp [window]

theorem length_window_le (publicKeys : List PublicKey) (cursor size : Nat) :
    (window publicKeys cursor size).length ≤ size := by
  refine (List.length_filterMap_le _ _).trans ?_
  rw [List.length_range]
  exact min_le_right _ _

/-- A window does not come around to where it starts. -/
theorem window_nodup {publicKeys : List PublicKey} (distinct : publicKeys.Nodup) (cursor size : Nat) :
    (window publicKeys cursor size).Nodup := by
  rw [window, List.Nodup, List.pairwise_filterMap]
  refine (List.pairwise_lt_range).imp_of_mem fun {before after} early late less => ?_
  rw [List.mem_range, lt_min_iff] at early late
  intro publicKey shown publicKey' shown' same
  subst same
  have some : 0 < publicKeys.length := by omega
  have place := (List.getElem?_inj (Nat.mod_lt _ some) distinct).mp (shown.trans shown'.symm)
  exact mod_ne_of_near (by omega) (by omega) place

end Windows

/-- What the rounds of a kind have been given, and where its cursor stands. -/
structure Shown (kind : GossipListKind) (limit : NonZeroUsize) (refresher : GossipBackgroundRefresher)
    (calls : List Call) (finish : GossipBackgroundRefresher) : Prop where
  tracked : finish.trackedPublicKeys kind = refresher.trackedPublicKeys kind
  cursor : (refresher.trackedPublicKeys kind).elems ≠ [] → (finish.cursor kind).toNat =
    cursorAfter UInt64.size (refresher.cursor kind).toNat limit.val.toNat (rounds kind calls).length
  given : rounds kind calls = (List.range (rounds kind calls).length).map fun round =>
    window (refresher.trackedPublicKeys kind).elems
      (cursorAfter UInt64.size (refresher.cursor kind).toNat limit.val.toNat round) limit.val.toNat

section Runs

variable {kind : GossipListKind} {limit : NonZeroUsize} {refresher middle finish : GossipBackgroundRefresher}
  {calls : List Call} {call : Call}

theorem cursorAfter_succ (word cursor size rounds : Nat) :
    (cursorAfter word cursor size rounds + size) % word = cursorAfter word cursor size (rounds + 1) := by
  rw [cursorAfter, cursorAfter, Nat.mod_add_mod, Nat.add_mul, Nat.one_mul, Nat.add_assoc]

theorem Shown.step (shown : Shown kind limit refresher calls middle) (step : Step middle call finish)
    (steady : Steady kind limit refresher (calls ++ [call])) :
    Shown kind limit refresher (calls ++ [call]) finish := by
  have last : call ∈ calls ++ [call] := List.mem_append_right _ List.mem_cons_self
  cases step with
  | track kind' publicKeys =>
      have same : rounds kind (calls ++ [.track kind' publicKeys]) = rounds kind calls := by
        rw [rounds_concat]
        exact List.append_nil _
      have known : kind' = kind →
          ∀ publicKey ∈ publicKeys, publicKey ∈ (middle.trackedPublicKeys kind).elems := by
        intro own
        rw [shown.tracked]
        exact steady.tracked publicKeys (own ▸ last)
      constructor
      · rw [trackedPublicKeys_trackPublicKeys known, shown.tracked]
      · intro some
        rw [cursor_trackPublicKeys, same, shown.cursor some]
      · rw [same]
        exact shown.given
  | next kind' limit' =>
      by_cases own : kind' = kind
      · subst own
        cases steady.limited limit' _ last
        have next : rounds kind' (calls ++ [.next kind' limit
            (middle.nextTrackedPublicKeysForRefresh kind' limit).1]) =
            rounds kind' calls ++ [(middle.nextTrackedPublicKeysForRefresh kind' limit).1] := by
          rw [rounds_concat, Call.selected?, if_pos rfl]
          rfl
        constructor
        · rw [trackedPublicKeys_next, shown.tracked]
        · intro some
          have added := shown.cursor some
          rw [← shown.tracked] at some
          rw [cursor_next_self some, UInt64.toNat_add, added, next, List.length_append, List.length_singleton]
          exact cursorAfter_succ _ _ _ _
        · rw [next, List.length_append, List.length_singleton, List.range_succ, List.map_append,
            ← shown.given, List.map_singleton, selected_eq_window, shown.tracked]
          by_cases empty : (refresher.trackedPublicKeys kind').elems = []
          · rw [empty, window_nil, window_nil]
          · rw [shown.cursor empty]
      · have same : rounds kind (calls ++ [.next kind' limit'
            (middle.nextTrackedPublicKeysForRefresh kind' limit').1]) = rounds kind calls := by
          rw [rounds_concat, Call.selected?, if_neg own]
          exact List.append_nil _
        constructor
        · rw [trackedPublicKeys_next, shown.tracked]
        · intro some
          rw [cursor_next_of_ne own, same, shown.cursor some]
        · rw [same]
          exact shown.given

theorem shown_of_run (run : Run Step refresher calls finish) (steady : Steady kind limit refresher calls) :
    Shown kind limit refresher calls finish := by
  induction run with
  | nil =>
      have start : cursorAfter UInt64.size (refresher.cursor kind).toNat limit.val.toNat 0 =
          (refresher.cursor kind).toNat := by
        rw [cursorAfter, Nat.zero_mul, Nat.add_zero]
        exact Nat.mod_eq_of_lt (UInt64.toNat_lt_size _)
      exact ⟨rfl, fun _ => start.symm, rfl⟩
  | snoc _ step ih => exact (ih steady.initial).step step steady

end Runs

/-- While the tracked keys and the limit stay as they are, each round is given distinct
keys, as many as the limit at most. The rounds that it takes to show each key once are
given every key exactly if the cursor does not reach the end of its word before the last
of them, or leaves no more of the keys over there than the rounds show twice. -/
theorem nextTrackedPublicKeysForRefresh_covers_iff {kind : GossipListKind} {limit : NonZeroUsize}
    {refresher finish : GossipBackgroundRefresher} {calls : List Call} (run : Run Step refresher calls finish)
    (steady : Steady kind limit refresher calls)
    (fits : 32 * (refresher.trackedPublicKeys kind).elems.length < 2 ^ 63)
    (enough : (rounds kind calls).length =
      roundsFor (refresher.trackedPublicKeys kind).elems.length limit.val.toNat) :
    ((∀ publicKey ∈ (refresher.trackedPublicKeys kind).elems, ∃ selected ∈ rounds kind calls,
        publicKey ∈ selected) ∧
      ∀ selected ∈ rounds kind calls, selected.Nodup ∧ selected.length ≤ limit.val.toNat) ↔
    ShowsAll UInt64.size (refresher.trackedPublicKeys kind).elems.length (refresher.cursor kind).toNat
      limit.val.toNat := by
  have given := (shown_of_run run steady).given
  have distinct := SortedSet.elems_nodup (refresher.trackedPublicKeys kind)
  generalize (refresher.trackedPublicKeys kind).elems = tracked at *
  have positive : 0 < limit.val.toNat := by
    rw [Nat.pos_iff_ne_zero]
    intro zero
    exact limit.property (UInt64.toNat_inj.mp zero)
  have bounded : ∀ selected ∈ rounds kind calls, selected.Nodup ∧ selected.length ≤ limit.val.toNat := by
    intro selected member
    rw [given] at member
    obtain ⟨round, _, rfl⟩ := List.mem_map.mp member
    exact ⟨window_nodup distinct _ _, length_window_le _ _ _⟩
  rw [and_iff_left bounded, ← showsPlace_iff positive (UInt64.toNat_lt_size _) (by
    change tracked.length ≤ 2 ^ 64
    omega), given, enough]
  constructor
  · intro covers place inside
    obtain ⟨selected, member, found⟩ := covers tracked[place] (List.getElem_mem inside)
    obtain ⟨round, early, rfl⟩ := List.mem_map.mp member
    obtain ⟨offset, near, there⟩ := mem_window.mp found
    have some : 0 < tracked.length := by omega
    rw [← List.getElem?_eq_getElem inside] at there
    exact ⟨round, List.mem_range.mp early, offset, near,
      (List.getElem?_inj (Nat.mod_lt _ some) distinct).mp there⟩
  · intro covers publicKey member
    obtain ⟨place, inside, rfl⟩ := List.getElem_of_mem member
    obtain ⟨round, early, offset, near, there⟩ := covers place inside
    refine ⟨_, List.mem_map.mpr ⟨round, List.mem_range.mpr early, rfl⟩, mem_window.mpr ⟨offset, near, ?_⟩⟩
    rw [there, List.getElem?_eq_getElem inside]

/-! ## Three keys -/

def threeKeys : SortedSet PublicKey :=
  SortedSet.ofList [.replicate 32 1, .replicate 32 2, .replicate 32 3]

def startingAt (cursor : UInt64) : GossipBackgroundRefresher where
  nip65RefreshCursor := cursor
  nip65SeenPublicKeys := threeKeys

def one : NonZeroUsize := ⟨1, by decide⟩

/-- What three rounds of one key are given. -/
def threeRounds (cursor : UInt64) : List Call :=
  let first := (startingAt cursor).nextTrackedPublicKeysForRefresh .nip65 one
  let second := first.2.nextTrackedPublicKeysForRefresh .nip65 one
  let third := second.2.nextTrackedPublicKeysForRefresh .nip65 one
  [.next .nip65 one first.1, .next .nip65 one second.1, .next .nip65 one third.1]

theorem run_threeRounds (cursor : UInt64) :
    ∃ finish, Run Step (startingAt cursor) (threeRounds cursor) finish :=
  ⟨_, ((Run.nil.snoc (.next _ .nip65 one)).snoc (.next _ .nip65 one)).snoc (.next _ .nip65 one)⟩

theorem steady_threeRounds (cursor : UInt64) :
    Steady .nip65 one (startingAt cursor) (threeRounds cursor) where
  tracked publicKeys member := by simp [threeRounds] at member
  limited limit' selected member := by
    simp only [threeRounds, List.mem_cons, Call.next.injEq, List.not_mem_nil, or_false] at member
    rcases member with found | found | found <;> exact found.2.1

theorem elems_threeKeys : threeKeys.elems = [.replicate 32 1, .replicate 32 2, .replicate 32 3] := by
  decide +kernel

theorem nextTrackedPublicKeysForRefresh_covers_threeKeys : ShowsAll UInt64.size threeKeys.elems.length 0 1 ∧
    ∀ publicKey ∈ threeKeys.elems, ∃ selected ∈ rounds .nip65 (threeRounds 0), publicKey ∈ selected := by
  obtain ⟨finish, run⟩ := run_threeRounds 0
  have tracked : (startingAt 0).trackedPublicKeys .nip65 = threeKeys := rfl
  have three : threeKeys.elems.length = 3 := by
    rw [elems_threeKeys]
    rfl
  have shows : ShowsAll UInt64.size threeKeys.elems.length 0 1 := by
    rw [three]
    decide
  refine ⟨shows, ((nextTrackedPublicKeysForRefresh_covers_iff run (steady_threeRounds 0) ?_ ?_).mpr shows).1⟩
  · rw [tracked, three]
    decide
  · rw [tracked, three]
    rfl

/-- One before the end of the word, the first key is shown twice and the last one is left out. -/
theorem nextTrackedPublicKeysForRefresh_leaves_out : ¬ ∀ cursor finish,
    Run Step (startingAt cursor) (threeRounds cursor) finish →
    ∀ publicKey ∈ threeKeys.elems, ∃ selected ∈ rounds .nip65 (threeRounds cursor), publicKey ∈ selected := by
  intro covers
  obtain ⟨finish, run⟩ := run_threeRounds 18446744073709551615
  have third : (FixedBytes.replicate 32 3 : PublicKey) ∈ threeKeys.elems := by
    rw [elems_threeKeys]
    simp
  obtain ⟨selected, member, found⟩ := covers _ finish run _ third
  have given : rounds .nip65 (threeRounds 18446744073709551615) =
      [[.replicate 32 1], [.replicate 32 1], [.replicate 32 2]] := by decide +kernel
  rw [given] at member
  revert selected
  decide +kernel

end GossipBackgroundRefresher

end RustNostr.NostrSdk.Gossip
