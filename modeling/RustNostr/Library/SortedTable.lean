import Mathlib

/-! Finite tables whose entries stand in strictly increasing key order. The
order is part of the type, so a table has one representation, a key has at most
one entry, and a range scan yields its entries in key order. -/

set_option autoImplicit false

namespace RustNostr.Library

/-- A finite map kept as its entries in strictly increasing key order. -/
structure SortedTable (κ ν : Type) [LinearOrder κ] where
  entries : List (κ × ν)
  sorted : entries.Pairwise fun left right => left.1 < right.1

namespace SortedTable

variable {κ ν : Type} [LinearOrder κ]

def empty : SortedTable κ ν := ⟨[], .nil⟩

instance : Inhabited (SortedTable κ ν) := ⟨empty⟩

def get? (table : SortedTable κ ν) (key : κ) : Option ν :=
  (table.entries.find? fun entry => entry.1 = key).map Prod.snd

def len (table : SortedTable κ ν) : Nat := table.entries.length

def values (table : SortedTable κ ν) : List ν := table.entries.map Prod.snd

private def insertEntry (key : κ) (value : ν) : List (κ × ν) → List (κ × ν)
  | [] => [(key, value)]
  | entry :: rest =>
      if key < entry.1 then (key, value) :: entry :: rest
      else if key = entry.1 then (key, value) :: rest
      else entry :: insertEntry key value rest

private theorem mem_insertEntry (key : κ) (value : ν) (entry : κ × ν)
    (entries : List (κ × ν))
    (sorted : entries.Pairwise fun left right => left.1 < right.1) :
    entry ∈ insertEntry key value entries ↔
      entry = (key, value) ∨ entry ∈ entries ∧ entry.1 ≠ key := by
  induction entries with
  | nil => simp [insertEntry]
  | cons head rest ih =>
      obtain ⟨below, restSorted⟩ := List.pairwise_cons.mp sorted
      have above : key ≤ head.1 → entry ∈ rest → entry.1 ≠ key :=
        fun bound member => ne_of_gt (lt_of_le_of_lt bound (below entry member))
      unfold insertEntry
      split
      · next smaller =>
          have headNe : head.1 ≠ key := ne_of_gt smaller
          simp only [List.mem_cons]
          constructor
          · rintro (same | rfl | member)
            · exact .inl same
            · exact .inr ⟨.inl rfl, headNe⟩
            · exact .inr ⟨.inr member, above smaller.le member⟩
          · rintro (same | ⟨member, _⟩)
            · exact .inl same
            · exact .inr member
      · split
        · next same =>
            simp only [List.mem_cons]
            constructor
            · rintro (same' | member)
              · exact .inl same'
              · exact .inr ⟨.inr member, above same.le member⟩
            · rintro (same' | ⟨rfl | member, different⟩)
              · exact .inl same'
              · exact absurd same.symm different
              · exact .inr member
        · next notEqual =>
            simp only [List.mem_cons, ih restSorted]
            constructor
            · rintro (rfl | same | ⟨member, different⟩)
              · exact .inr ⟨.inl rfl, fun equal => notEqual equal.symm⟩
              · exact .inl same
              · exact .inr ⟨.inr member, different⟩
            · rintro (same | ⟨rfl | member, different⟩)
              · exact .inr (.inl same)
              · exact .inl rfl
              · exact .inr (.inr ⟨member, different⟩)

private theorem insertEntry_sorted (key : κ) (value : ν) (entries : List (κ × ν))
    (sorted : entries.Pairwise fun left right => left.1 < right.1) :
    (insertEntry key value entries).Pairwise fun left right => left.1 < right.1 := by
  induction entries with
  | nil => simp [insertEntry]
  | cons head rest ih =>
      obtain ⟨below, restSorted⟩ := List.pairwise_cons.mp sorted
      unfold insertEntry
      split
      · next smaller =>
          refine List.pairwise_cons.mpr ⟨fun entry member => ?_, sorted⟩
          rcases List.mem_cons.mp member with rfl | member
          · exact smaller
          · exact lt_trans smaller (below entry member)
      · next notSmaller =>
          split
          · next same =>
              refine List.pairwise_cons.mpr ⟨fun entry member => ?_, restSorted⟩
              exact same ▸ below entry member
          · next notEqual =>
              refine List.pairwise_cons.mpr ⟨fun entry member => ?_, ih restSorted⟩
              rcases (mem_insertEntry key value entry rest restSorted).mp member with
                rfl | ⟨member, _⟩
              · exact lt_of_le_of_ne (not_lt.mp notSmaller) (Ne.symm notEqual)
              · exact below entry member

def put (table : SortedTable κ ν) (key : κ) (value : ν) : SortedTable κ ν :=
  ⟨insertEntry key value table.entries,
    insertEntry_sorted key value table.entries table.sorted⟩

/-- Insertion that keeps the value already stored under the key. -/
def putNew (table : SortedTable κ ν) (key : κ) (value : ν) : SortedTable κ ν :=
  match table.get? key with
  | some _ => table
  | none => table.put key value

def delete (table : SortedTable κ ν) (key : κ) : SortedTable κ ν :=
  ⟨table.entries.filter fun entry => entry.1 ≠ key, table.sorted.filter _⟩

/-- The entries that are to be kept. -/
def filter (table : SortedTable κ ν) (keep : κ → ν → Bool) : SortedTable κ ν :=
  ⟨table.entries.filter fun entry => keep entry.1 entry.2, table.sorted.filter _⟩

/-- The entries from `low` on and strictly below `high`, in key order. -/
def range (table : SortedTable κ ν) (low high : κ) : List (κ × ν) :=
  table.entries.filter fun entry => low ≤ entry.1 ∧ entry.1 < high

theorem get?_eq_some {table : SortedTable κ ν} {key : κ} {value : ν} :
    table.get? key = some value ↔ (key, value) ∈ table.entries := by
  have firstMatch : ∀ entries : List (κ × ν),
      (entries.Pairwise fun left right => left.1 < right.1) →
      ((entries.find? fun entry => entry.1 = key).map Prod.snd = some value ↔
        (key, value) ∈ entries) := by
    intro entries sorted
    induction entries with
    | nil => simp
    | cons head rest ih =>
        obtain ⟨below, restSorted⟩ := List.pairwise_cons.mp sorted
        by_cases same : head.1 = key
        · have absent : (key, value) ∉ rest := fun member =>
            absurd (below _ member) (by simp [same])
          simp only [List.find?_cons, same, decide_true, Option.map_some,
            Option.some.injEq, List.mem_cons, absent, or_false]
          constructor
          · rintro rfl
            exact Prod.ext same.symm rfl
          · intro equal
            rw [← equal]
        · simp only [List.find?_cons, same, decide_false, ih restSorted, List.mem_cons]
          constructor
          · exact .inr
          · rintro (equal | member)
            · exact absurd (congrArg Prod.fst equal).symm same
            · exact member
  exact firstMatch table.entries table.sorted

@[simp] theorem get?_empty (key : κ) : (empty : SortedTable κ ν).get? key = none := rfl

/-- Two tables that answer every lookup alike are the same table. -/
theorem ext_get? {left right : SortedTable κ ν}
    (same : ∀ key, left.get? key = right.get? key) : left = right := by
  have members : ∀ entry, entry ∈ left.entries ↔ entry ∈ right.entries := fun ⟨key, value⟩ => by
    rw [← get?_eq_some, ← get?_eq_some, same]
  have nodup : ∀ table : SortedTable κ ν, table.entries.Nodup := fun table =>
    table.sorted.imp fun less equal => absurd less (by simp [equal])
  have perm := (List.perm_ext_iff_of_nodup (nodup left) (nodup right)).mpr members
  have entries : left.entries = right.entries := perm.eq_of_pairwise
    (fun _ _ _ _ forward backward => absurd forward (not_lt.mpr backward.le))
    left.sorted right.sorted
  cases left
  cases right
  simpa using entries

theorem get?_put (table : SortedTable κ ν) (key other : κ) (value : ν) :
    (table.put key value).get? other = if other = key then some value else table.get? other := by
  ext found
  rw [get?_eq_some]
  simp only [put, mem_insertEntry _ _ _ _ table.sorted, Prod.mk.injEq]
  by_cases same : other = key
  · simp [same, eq_comm]
  · simp [same, get?_eq_some]

theorem put_same {table : SortedTable κ ν} {key : κ} {value : ν}
    (found : table.get? key = some value) : table.put key value = table := by
  apply ext_get?
  intro other
  rw [get?_put]
  split
  next same => rw [same, found]
  next => rfl

theorem get?_putNew (table : SortedTable κ ν) (key other : κ) (value : ν) :
    (table.putNew key value).get? other =
      if other = key then some ((table.get? key).getD value) else table.get? other := by
  unfold putNew
  cases present : table.get? key with
  | none => simpa using table.get?_put key other value
  | some kept =>
      by_cases same : other = key
      · simp [same, present]
      · simp [same]

theorem get?_delete (table : SortedTable κ ν) (key other : κ) :
    (table.delete key).get? other = if other = key then none else table.get? other := by
  ext found
  rw [get?_eq_some]
  by_cases same : other = key
  · simp [delete, same]
  · simp [delete, same, get?_eq_some]

theorem get?_filter (table : SortedTable κ ν) (keep : κ → ν → Bool) (key : κ) :
    (table.filter keep).get? key = (table.get? key).filter (keep key) := by
  ext found
  rw [get?_eq_some, Option.filter_eq_some_iff, get?_eq_some]
  exact List.mem_filter

theorem mem_range {table : SortedTable κ ν} {low high key : κ} {value : ν} :
    (key, value) ∈ table.range low high ↔
      table.get? key = some value ∧ low ≤ key ∧ key < high := by
  simp [range, get?_eq_some]

theorem range_sorted (table : SortedTable κ ν) (low high : κ) :
    (table.range low high).Pairwise fun left right => left.1 < right.1 :=
  table.sorted.filter _

theorem entries_nodup (table : SortedTable κ ν) : table.entries.Nodup :=
  table.sorted.imp fun less equal => absurd less (by simp [equal])

theorem mem_values {table : SortedTable κ ν} {value : ν} :
    value ∈ table.values ↔ ∃ key, table.get? key = some value := by
  simp [values, get?_eq_some]

theorem len_le_of_get? {left right : SortedTable κ ν}
    (fewer : ∀ key value, left.get? key = some value → right.get? key = some value) :
    left.len ≤ right.len := by
  have subset : left.entries ⊆ right.entries := fun ⟨key, value⟩ member =>
    get?_eq_some.mp (fewer key value (get?_eq_some.mpr member))
  exact (List.subperm_of_subset left.entries_nodup subset).length_le

/-- Collects entries, where a later one takes the place of an earlier one. -/
def ofEntries (entries : List (κ × ν)) : SortedTable κ ν :=
  entries.foldl (fun table entry => table.put entry.1 entry.2) empty

theorem ofEntries_concat (entries : List (κ × ν)) (last : κ × ν) :
    ofEntries (entries ++ [last]) = (ofEntries entries).put last.1 last.2 := by
  rw [ofEntries, List.foldl_concat, ofEntries]

/-- Entries with different keys are all collected. -/
theorem get?_ofEntries {entries : List (κ × ν)}
    (different : entries.Pairwise fun left right => left.1 ≠ right.1) (key : κ) (value : ν) :
    (ofEntries entries).get? key = some value ↔ (key, value) ∈ entries := by
  induction entries using List.reverseRecOn with
  | nil => simp [ofEntries]
  | append_singleton entries last ih =>
      obtain ⟨earlier, _, apart⟩ := List.pairwise_append.mp different
      rw [ofEntries_concat, get?_put, List.mem_append, List.mem_singleton]
      split
      next same =>
        have absent : (key, value) ∉ entries := fun member =>
          apart _ member last (List.mem_singleton_self _) same
        rw [or_iff_right absent, Option.some.injEq]
        constructor
        · intro kept
          exact Prod.ext same kept.symm
        · intro here
          rw [← here]
      next other =>
        rw [ih earlier]
        constructor
        · exact .inl
        · intro member
          cases member with
          | inl before => exact before
          | inr here => exact absurd (congrArg Prod.fst here) other

theorem ofEntries_entries (table : SortedTable κ ν) : ofEntries table.entries = table := by
  apply ext_get?
  intro key
  ext value
  rw [get?_ofEntries (table.sorted.imp ne_of_lt), get?_eq_some]

/-- A table whose entries are the images of another table's entries under an
injective map has as many entries. -/
theorem len_eq_of_image {κ' ν' : Type} [LinearOrder κ'] {table : SortedTable κ ν}
    {source : SortedTable κ' ν'} (image : κ' × ν' → κ × ν)
    (injective : ∀ left ∈ source.entries, ∀ right ∈ source.entries,
      image left = image right → left = right)
    (entries : ∀ entry, entry ∈ table.entries ↔ ∃ origin ∈ source.entries, image origin = entry) :
    table.len = source.len := by
  have nodup : (source.entries.map image).Nodup :=
    List.Nodup.map_on injective source.entries_nodup
  have perm := (List.perm_ext_iff_of_nodup table.entries_nodup nodup).mpr fun entry => by
    rw [entries, List.mem_map]
  simpa [len] using perm.length_eq

end SortedTable

/-- A finite set kept as its elements in strictly increasing order. -/
abbrev SortedSet (α : Type) [LinearOrder α] := SortedTable α Unit

namespace SortedSet

variable {α : Type} [LinearOrder α]

def elems (set : SortedSet α) : List α := set.entries.map Prod.fst

def isEmpty (set : SortedSet α) : Bool := set.entries.isEmpty

def insert (set : SortedSet α) (element : α) : SortedSet α := set.put element ()

theorem mem_elems {set : SortedSet α} {element : α} :
    element ∈ set.elems ↔ set.get? element = some () := by
  simp only [SortedTable.get?_eq_some, elems, List.mem_map, Prod.exists, exists_and_right,
    exists_eq_right]
  exact ⟨fun ⟨_, member⟩ => member, fun member => ⟨(), member⟩⟩

theorem elems_nodup (set : SortedSet α) : set.elems.Nodup := by
  refine List.pairwise_map.mpr (set.sorted.imp ?_)
  exact fun less => less.ne

def ofList (elements : List α) : SortedSet α := elements.foldl insert .empty

theorem ofList_concat (elements : List α) (last : α) :
    ofList (elements ++ [last]) = (ofList elements).insert last := by
  rw [ofList, List.foldl_concat, ofList]

theorem get?_ofList (elements : List α) (element : α) :
    (ofList elements).get? element = some () ↔ element ∈ elements := by
  induction elements using List.reverseRecOn with
  | nil => simp [ofList]
  | append_singleton elements last ih =>
      rw [ofList_concat, insert, SortedTable.get?_put, List.mem_append, List.mem_singleton]
      split
      next same => simp [same]
      next other => simp [other, ih]

theorem ofList_elems (set : SortedSet α) : ofList set.elems = set := by
  apply SortedTable.ext_get?
  intro element
  ext
  rw [get?_ofList, mem_elems]

end SortedSet

end RustNostr.Library
