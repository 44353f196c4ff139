import Mathlib

/-!
# Maps with an order of their own

Maps kept as lists of entries with different keys: in the order in which the keys were
inserted, or with the most recently used key first.
-/

set_option autoImplicit false

namespace RustNostr.Library

variable {κ ν : Type} [DecidableEq κ]

theorem lookup_cons_eq {key other : κ} {value : ν} {entries : List (κ × ν)} :
    ((other, value) :: entries).lookup key = if key = other then some value else entries.lookup key := by
  rw [List.lookup_cons]
  by_cases same : key = other
  · simp [same]
  · simp only [same, beq_eq_false_iff_ne.mpr same, if_false]

theorem mem_of_lookup {key : κ} {value : ν} {entries : List (κ × ν)}
    (found : entries.lookup key = some value) : (key, value) ∈ entries := by
  induction entries with
  | nil => cases found
  | cons entry entries ih =>
      rw [lookup_cons_eq] at found
      split at found
      next same =>
        cases found
        rw [same]
        exact List.mem_cons_self
      next => exact List.mem_cons_of_mem entry (ih found)

theorem lookup_of_mem {key : κ} {value : ν} {entries : List (κ × ν)}
    (nodup : (entries.map Prod.fst).Nodup) (member : (key, value) ∈ entries) :
    entries.lookup key = some value := by
  induction entries with
  | nil => cases member
  | cons entry entries ih =>
      obtain ⟨absent, others⟩ := List.nodup_cons.mp nodup
      rw [lookup_cons_eq]
      cases List.mem_cons.mp member with
      | inl here =>
          cases here
          rw [if_pos rfl]
      | inr behind =>
          have different : key ≠ entry.1 := by
            intro same
            exact absent (same ▸ List.mem_map_of_mem behind)
          rw [if_neg different, ih others behind]

/-! ## In the order of insertion -/

/-- `indexmap::IndexMap` -/
structure IndexMap (κ ν : Type) [DecidableEq κ] where
  entries : List (κ × ν)
  nodup : (entries.map Prod.fst).Nodup

namespace IndexMap

def empty : IndexMap κ ν := ⟨[], List.nodup_nil⟩

def get? (map : IndexMap κ ν) (key : κ) : Option ν := map.entries.lookup key

def len (map : IndexMap κ ν) : Nat := map.entries.length

def upsertEntries (key : κ) (change : Option ν → ν) : List (κ × ν) → List (κ × ν)
  | [] => [(key, change none)]
  | (other, value) :: rest =>
      if key = other then (other, change (some value)) :: rest
      else (other, value) :: upsertEntries key change rest

theorem keys_upsertEntries (key : κ) (change : Option ν → ν) (entries : List (κ × ν)) :
    (upsertEntries key change entries).map Prod.fst =
      if key ∈ entries.map Prod.fst then entries.map Prod.fst else entries.map Prod.fst ++ [key] := by
  induction entries with
  | nil => simp [upsertEntries]
  | cons entry entries ih =>
      unfold upsertEntries
      by_cases same : key = entry.1
      · simp [same]
      · simp only [same, if_false, List.map_cons, ih, List.mem_cons, false_or]
        split
        next => rfl
        next => rfl

/-- Changes the value of the key in its place, or appends a new one. -/
def upsert (map : IndexMap κ ν) (key : κ) (change : Option ν → ν) : IndexMap κ ν where
  entries := upsertEntries key change map.entries
  nodup := by
    rw [keys_upsertEntries]
    split
    next => exact map.nodup
    next absent =>
      exact List.nodup_append.mpr ⟨map.nodup, List.nodup_singleton key, by
        intro other member key' single same
        rw [List.mem_singleton.mp single] at same
        exact absent (same ▸ member)⟩

theorem lookup_upsertEntries (key other : κ) (change : Option ν → ν) (entries : List (κ × ν)) :
    (upsertEntries key change entries).lookup other =
      if other = key then some (change (entries.lookup key)) else entries.lookup other := by
  induction entries with
  | nil =>
      rw [upsertEntries, lookup_cons_eq]
      rfl
  | cons entry entries ih =>
      obtain ⟨first, value⟩ := entry
      unfold upsertEntries
      by_cases same : key = first
      · subst same
        rw [if_pos rfl, lookup_cons_eq, lookup_cons_eq, lookup_cons_eq, if_pos rfl]
        split
        next => rfl
        next => rfl
      · rw [if_neg same, lookup_cons_eq, ih, lookup_cons_eq, lookup_cons_eq, if_neg same]
        by_cases here : other = first
        · have different : ¬ first = key := fun equal => same equal.symm
          rw [if_pos here, if_pos here, here, if_neg different]
        · rw [if_neg here, if_neg here]

def keys (map : IndexMap κ ν) : Finset κ := (map.entries.map Prod.fst).toFinset

theorem card_keys (map : IndexMap κ ν) : map.keys.card = map.len := by
  rw [keys, List.toFinset_card_of_nodup map.nodup, List.length_map]
  rfl

@[simp] theorem keys_upsert (map : IndexMap κ ν) (key : κ) (change : Option ν → ν) :
    (map.upsert key change).keys = insert key map.keys := by
  ext other
  simp only [keys, upsert, keys_upsertEntries, List.mem_toFinset, Finset.mem_insert]
  split
  next present =>
    constructor
    · exact Or.inr
    · intro member
      cases member with
      | inl same => exact same ▸ present
      | inr member => exact member
  next => rw [List.mem_append, List.mem_singleton, or_comm]

theorem get?_upsert (map : IndexMap κ ν) (key other : κ) (change : Option ν → ν) :
    (map.upsert key change).get? other =
      if other = key then some (change (map.get? key)) else map.get? other :=
  lookup_upsertEntries key other change map.entries

@[simp] theorem get?_empty (key : κ) : (empty : IndexMap κ ν).get? key = none := rfl

/-- Of many changes, a key sees its own, one after the other. -/
theorem get?_foldl_upsert {β : Type} (changes : List (κ × β)) (change : β → Option ν → ν)
    (map : IndexMap κ ν) (key : κ) :
    (changes.foldl (fun map entry => map.upsert entry.1 (change entry.2)) map).get? key =
      ((changes.filter fun entry => entry.1 = key).map Prod.snd).foldl
        (fun known entry => some (change entry known)) (map.get? key) := by
  induction changes generalizing map with
  | nil => rfl
  | cons entry changes ih =>
      rw [List.foldl_cons, ih, get?_upsert, List.filter_cons]
      by_cases same : entry.1 = key
      · simp [same]
      · have other : ¬ key = entry.1 := fun equal => same equal.symm
        simp [same, other]

end IndexMap

/-! ## Most recent first -/

/-- `lru::LruCache`; without a capacity it is unbounded. -/
structure LruMap (κ ν : Type) [DecidableEq κ] where
  cap : Option Nat
  cap_pos : ∀ limit, cap = some limit → 0 < limit
  entries : List (κ × ν)
  nodup : (entries.map Prod.fst).Nodup
  len_le : ∀ limit, cap = some limit → entries.length ≤ limit

namespace LruMap

def unbounded : LruMap κ ν where
  cap := none
  cap_pos := fun _ impossible => nomatch impossible
  entries := []
  nodup := List.nodup_nil
  len_le := fun _ impossible => nomatch impossible

def bounded (limit : Nat) (positive : 0 < limit) : LruMap κ ν where
  cap := some limit
  cap_pos := fun _ same => by
    cases same
    exact positive
  entries := []
  nodup := List.nodup_nil
  len_le := fun _ _ => Nat.zero_le _

def peek (map : LruMap κ ν) (key : κ) : Option ν := map.entries.lookup key

/-- The entries of the other keys that stay next to the key. -/
def others (map : LruMap κ ν) (key : κ) : List (κ × ν) :=
  let rest := map.entries.filter fun entry => entry.1 ≠ key
  map.cap.elim rest fun limit => rest.take (limit - 1)

theorem others_sublist (map : LruMap κ ν) (key : κ) :
    (map.others key).Sublist (map.entries.filter fun entry => entry.1 ≠ key) := by
  unfold others
  cases map.cap with
  | none => exact List.Sublist.refl _
  | some limit => exact List.take_sublist _ _

/-- Makes the key the most recent one, and changes its value; a new key in a full map
evicts the least recent one. -/
def touch (map : LruMap κ ν) (key : κ) (change : Option ν → ν) : LruMap κ ν where
  cap := map.cap
  cap_pos := map.cap_pos
  entries := (key, change (map.peek key)) :: map.others key
  nodup := by
    have others := map.others_sublist key
    refine List.nodup_cons.mpr ⟨?_, ?_⟩
    · intro member
      obtain ⟨entry, kept, same⟩ := List.mem_map.mp member
      have different := (List.mem_filter.mp (others.subset kept)).2
      exact absurd same (of_decide_eq_true different)
    · exact map.nodup.sublist ((others.trans List.filter_sublist).map Prod.fst)
  len_le := by
    intro limit bounded
    have positive := map.cap_pos limit bounded
    rw [others, bounded, List.length_cons]
    have fits := List.length_take_le (limit - 1) (map.entries.filter fun entry => entry.1 ≠ key)
    change (List.take (limit - 1) _).length + 1 ≤ limit
    omega

theorem peek_touch_self (map : LruMap κ ν) (key : κ) (change : Option ν → ν) :
    (map.touch key change).peek key = some (change (map.peek key)) := by
  rw [peek, touch, lookup_cons_eq, if_pos rfl]

theorem lookup_filter_ne {entries : List (κ × ν)} {key other : κ} (different : other ≠ key) :
    (entries.filter fun entry => entry.1 ≠ key).lookup other = entries.lookup other := by
  induction entries with
  | nil => rfl
  | cons entry entries ih =>
      rw [List.filter_cons]
      by_cases same : entry.1 = key
      · have elsewhere : other ≠ entry.1 := fun equal => different (equal.trans same)
        rw [if_neg (by simpa using same), ih, lookup_cons_eq, if_neg elsewhere]
      · rw [if_pos (by simpa using same), lookup_cons_eq, lookup_cons_eq, ih]

theorem lookup_of_sublist {entries entries' : List (κ × ν)} (nodup : (entries.map Prod.fst).Nodup)
    (sublist : entries'.Sublist entries) {key : κ} {value : ν} (found : entries'.lookup key = some value) :
    entries.lookup key = some value :=
  lookup_of_mem nodup (sublist.subset (mem_of_lookup found))

/-- Another key that is still there has the value that it had. -/
theorem peek_of_peek_touch {map : LruMap κ ν} {key other : κ} (different : other ≠ key)
    {change : Option ν → ν} {value : ν} (found : (map.touch key change).peek other = some value) :
    map.peek other = some value := by
  rw [peek, touch, lookup_cons_eq, if_neg different] at found
  exact lookup_of_sublist map.nodup (map.others_sublist key |>.trans List.filter_sublist) found

/-- The key is there already, or there is room for one more. -/
def Room (map : LruMap κ ν) (key : κ) : Prop :=
  (map.peek key).isSome ∨ ∀ limit, map.cap = some limit → map.entries.length < limit

/-- With room for the key nothing is evicted. -/
theorem peek_touch_of_room {map : LruMap κ ν} {key : κ} (room : map.Room key) (other : κ)
    (change : Option ν → ν) : (map.touch key change).peek other =
      if other = key then some (change (map.peek key)) else map.peek other := by
  rw [peek, touch, lookup_cons_eq]
  split
  next => rfl
  next different =>
    have all : map.others key = map.entries.filter fun entry => entry.1 ≠ key := by
      unfold others
      cases bounded : map.cap with
      | none => rfl
      | some limit =>
          apply List.take_of_length_le
          have fits := map.len_le limit bounded
          cases room with
          | inl present =>
              obtain ⟨value, found⟩ := Option.isSome_iff_exists.mp present
              have fewer : (map.entries.filter fun entry => entry.1 ≠ key).length < map.entries.length :=
                List.length_filter_lt_length_iff_exists.mpr
                  ⟨(key, value), mem_of_lookup found, by simp⟩
              omega
          | inr more =>
              have shorter := List.length_filter_le (fun entry => decide (entry.1 ≠ key)) map.entries
              have free := more limit bounded
              omega
    rw [all]
    exact lookup_filter_ne different

end LruMap

end RustNostr.Library
