import Mathlib
import RustNostr.Library.SortedTable

/-!
# Groups by key

Tables that hold under each key the set of its elements, and what is left of
several such tables when each takes the place of the ones before it.
-/

set_option autoImplicit false

namespace RustNostr.Library

namespace SortedTable

variable {κ ν μ : Type} [LinearOrder κ]

/-- Takes over the entries of the other table; under a key of both, its value replaces
the one that was there. -/
def extend (table other : SortedTable κ ν) : SortedTable κ ν :=
  other.entries.foldl (fun table entry => table.put entry.1 entry.2) table

theorem get?_foldl_put {entries : List (κ × ν)}
    (different : entries.Pairwise fun left right => left.1 ≠ right.1) (table : SortedTable κ ν)
    (key : κ) (value : ν) :
    (entries.foldl (fun table entry => table.put entry.1 entry.2) table).get? key = some value ↔
      (key, value) ∈ entries ∨ (∀ value, (key, value) ∉ entries) ∧ table.get? key = some value := by
  induction entries generalizing table with
  | nil => simp
  | cons entry entries ih =>
      obtain ⟨apart, others⟩ := List.pairwise_cons.mp different
      rw [List.foldl_cons, ih others, get?_put]
      by_cases same : key = entry.1
      · subst same
        have absent : ∀ value, (entry.1, value) ∉ entries := fun value member =>
          apart (entry.1, value) member rfl
        have here : (entry.1, value) = entry ↔ entry.2 = value :=
          ⟨fun same => congrArg Prod.snd same.symm, fun same => Prod.ext rfl same.symm⟩
        have notNone : ¬ ∀ value, ¬ (entry.1, value) = entry := fun none => none entry.2 rfl
        simp only [absent, notNone, here, not_false_eq_true, implies_true, true_and, false_and,
          false_or, or_false, if_true, Option.some.injEq, List.mem_cons]
      · have other : ∀ value, (key, value) ≠ entry := fun value here =>
          same (congrArg Prod.fst here)
        simp only [same, if_false, List.mem_cons, other, false_or]

theorem get?_extend (table other : SortedTable κ ν) (key : κ) :
    (table.extend other).get? key = (other.get? key).or (table.get? key) := by
  ext value
  rw [extend, get?_foldl_put (other.sorted.imp ne_of_lt)]
  simp only [← get?_eq_some]
  cases other.get? key with
  | none => simp
  | some found => simp

/-- The same keys with other values. -/
def mapValues (table : SortedTable κ ν) (change : κ → ν → μ) : SortedTable κ μ where
  entries := table.entries.map fun entry => (entry.1, change entry.1 entry.2)
  sorted := List.pairwise_map.mpr table.sorted

theorem get?_mapValues (table : SortedTable κ ν) (change : κ → ν → μ) (key : κ) :
    (table.mapValues change).get? key = (table.get? key).map (change key) := by
  ext value
  rw [get?_eq_some, Option.map_eq_some_iff]
  simp only [get?_eq_some, mapValues, List.mem_map, Prod.mk.injEq]
  constructor
  · intro found
    obtain ⟨entry, member, sameKey, sameValue⟩ := found
    subst sameKey
    exact ⟨entry.2, member, sameValue⟩
  · intro found
    obtain ⟨value, member, same⟩ := found
    exact ⟨(key, value), member, rfl, same⟩

end SortedTable

abbrev Groups (κ α : Type) [LinearOrder κ] [LinearOrder α] := SortedTable κ (SortedSet α)

namespace Groups

variable {κ α : Type} [LinearOrder κ] [LinearOrder α]

def add (groups : Groups κ α) (key : κ) (element : α) : Groups κ α :=
  groups.put key (((groups.get? key).getD .empty).insert element)

/-- The element in the group of every one of the keys. -/
def addAll (groups : Groups κ α) (keys : List κ) (element : α) : Groups κ α :=
  keys.foldl (fun groups key => groups.add key element) groups

def Has (groups : Groups κ α) (key : κ) (element : α) : Prop :=
  ∃ set, groups.get? key = some set ∧ element ∈ set.elems

/-- No group is empty. -/
def Inhabits (groups : Groups κ α) : Prop :=
  ∀ key set, groups.get? key = some set → ∃ element, element ∈ set.elems

theorem not_has_empty (key : κ) (element : α) : ¬ Has (.empty : Groups κ α) key element := by
  intro found
  obtain ⟨set, here, _⟩ := found
  cases here

theorem Inhabits.empty : Inhabits (.empty : Groups κ α) := fun _ _ here => nomatch here

theorem mem_elems_insert {set : SortedSet α} {element other : α} :
    other ∈ (set.insert element).elems ↔ other = element ∨ other ∈ set.elems := by
  rw [SortedSet.mem_elems, SortedSet.insert, SortedTable.get?_put]
  split
  next same => simp [same]
  next different => simp [different, SortedSet.mem_elems]

theorem has_add {groups : Groups κ α} {key other : κ} {element member : α} :
    (groups.add key element).Has other member ↔
      other = key ∧ member = element ∨ groups.Has other member := by
  simp only [Has, add, SortedTable.get?_put]
  by_cases same : other = key
  · subst same
    simp only [if_true, Option.some.injEq, exists_eq_left', mem_elems_insert, true_and]
    cases groups.get? other with
    | none => simp [SortedSet.mem_elems]
    | some set => simp
  · simp [same]

theorem Inhabits.add {groups : Groups κ α} (inhabited : groups.Inhabits) (key : κ) (element : α) :
    (groups.add key element).Inhabits := by
  intro other set found
  rw [Groups.add, SortedTable.get?_put] at found
  split at found
  next =>
    cases found
    exact ⟨element, mem_elems_insert.mpr (.inl rfl)⟩
  next => exact inhabited other set found

theorem has_addAll {groups : Groups κ α} {keys : List κ} {key : κ} {element member : α} :
    (groups.addAll keys element).Has key member ↔
      key ∈ keys ∧ member = element ∨ groups.Has key member := by
  induction keys generalizing groups with
  | nil => simp [addAll]
  | cons first keys ih =>
      change ((groups.add first element).addAll keys element).Has key member ↔ _
      rw [ih, has_add, List.mem_cons]
      tauto

theorem Inhabits.addAll {groups : Groups κ α} (inhabited : groups.Inhabits) (keys : List κ)
    (element : α) : (groups.addAll keys element).Inhabits := by
  induction keys generalizing groups with
  | nil => exact inhabited
  | cons first keys ih => exact ih (inhabited.add first element)

theorem Inhabits.get?_eq_none {groups : Groups κ α} (inhabited : groups.Inhabits) {key : κ} :
    groups.get? key = none ↔ ∀ element, ¬ groups.Has key element := by
  constructor
  · intro absent element found
    obtain ⟨set, here, _⟩ := found
    rw [absent] at here
    cases here
  · intro nothing
    cases found : groups.get? key with
    | none => rfl
    | some set =>
        obtain ⟨element, member⟩ := inhabited key set found
        exact absurd ⟨set, found, member⟩ (nothing element)

theorem Inhabits.extend {groups other : Groups κ α} (inhabited : groups.Inhabits)
    (inhabited' : other.Inhabits) : Inhabits (SortedTable.extend groups other) := by
  intro key set found
  rw [SortedTable.get?_extend, Option.or_eq_some_iff] at found
  cases found with
  | inl later => exact inhabited' key set later
  | inr earlier => exact inhabited key set earlier.2

theorem has_extend {groups other : Groups κ α} (inhabited : other.Inhabits) {key : κ} {element : α} :
    Has (SortedTable.extend groups other) key element ↔
      other.Has key element ∨ (∀ member, ¬ other.Has key member) ∧ groups.Has key element := by
  rw [← inhabited.get?_eq_none]
  simp only [Has, SortedTable.get?_extend]
  cases other.get? key with
  | none => simp
  | some set => simp

end Groups

/-! ## Rounds -/

section Rounds

variable {σ κ α : Type}

/-- Of the rounds that give the key anything, the last gives it this element. -/
def KeptBy (gives : σ → κ → α → Prop) : List σ → κ → α → Prop
  | [], _, _ => False
  | round :: rest, key, element =>
      KeptBy gives rest key element ∨
        gives round key element ∧ ∀ later ∈ rest, ∀ other, ¬ gives later key other

variable {gives : σ → κ → α → Prop}

theorem KeptBy.exists_gives {rounds : List σ} {key : κ} {element : α}
    (kept : KeptBy gives rounds key element) : ∃ round ∈ rounds, gives round key element := by
  induction rounds with
  | nil => exact kept.elim
  | cons round rest ih =>
      cases kept with
      | inl later =>
          obtain ⟨last, member, given⟩ := ih later
          exact ⟨last, List.mem_cons_of_mem round member, given⟩
      | inr here => exact ⟨round, List.mem_cons_self, here.1⟩

theorem keptBy_congr {τ : Type} {gives' : τ → κ → α → Prop} {rounds : List σ} {rounds' : List τ}
    (same : List.Forall₂ (fun round round' => ∀ key element, gives round key element ↔
      gives' round' key element) rounds rounds') (key : κ) (element : α) :
    KeptBy gives rounds key element ↔ KeptBy gives' rounds' key element := by
  induction same with
  | nil => rfl
  | @cons round round' rest rest' head tail ih =>
      have nothing : (∀ later ∈ rest, ∀ other, ¬ gives later key other) ↔
          ∀ later ∈ rest', ∀ other, ¬ gives' later key other := by
        clear ih head
        induction tail with
        | nil => simp
        | cons head tail ih => simp only [List.forall_mem_cons, head, ih]
      simp only [KeptBy, ih, head, nothing]

variable [LinearOrder κ] [LinearOrder α]

/-- Of tables that replace each other's groups, the last group of a key is left. -/
theorem Groups.has_foldl_extend {rounds : List (Groups κ α)}
    (inhabited : ∀ groups ∈ rounds, groups.Inhabits) (first : Groups κ α) (key : κ) (element : α) :
    Has (rounds.foldl SortedTable.extend first) key element ↔
      KeptBy Has (first :: rounds) key element := by
  induction rounds generalizing first with
  | nil => simp [KeptBy]
  | cons round rest ih =>
      obtain ⟨here, behind⟩ := List.forall_mem_cons.mp inhabited
      rw [List.foldl_cons, ih behind]
      simp only [KeptBy, has_extend here, List.forall_mem_cons]
      by_cases given : ∀ other, ¬ round.Has key other
      · simp only [given element, false_or, given, not_false_eq_true, implies_true, true_and, false_and,
          or_false]
      · simp only [given, false_and, and_false, or_false]

end Rounds

end RustNostr.Library
