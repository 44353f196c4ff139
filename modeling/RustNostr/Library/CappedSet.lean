import Mathlib
import RustNostr.Library.SortedTable

/-! Ordered sets of bounded size that give up their greatest element when they
grow beyond it. Elements are stored under the keys they are ordered by. Nothing
is said about whether an element that would itself be the greatest is inserted
and given up at once, or refused. -/

set_option autoImplicit false

namespace RustNostr.Library

variable {κ ν : Type} [LinearOrder κ]

namespace SortedTable

/-- The greatest key of the table, with its value. -/
structure IsLast (table : SortedTable κ ν) (key : κ) (value : ν) : Prop where
  found : table.get? key = some value
  greatest : ∀ other value', table.get? other = some value' → other ≤ key

variable {table : SortedTable κ ν} {key : κ} {value : ν}

theorem isLast_of_getLast? (last : table.entries.getLast? = some (key, value)) :
    table.IsLast key value where
  found := get?_eq_some.mpr (List.mem_of_getLast? last)
  greatest := by
    intro other value' found
    obtain ⟨earlier, split⟩ := List.getLast?_eq_some_iff.mp last
    have member := get?_eq_some.mp found
    have sorted := table.sorted
    rw [split] at member sorted
    cases List.mem_append.mp member with
    | inl before =>
        exact ((List.pairwise_append.mp sorted).2.2 _ before _ (List.mem_singleton_self _)).le
    | inr here =>
        cases List.mem_singleton.mp here
        exact le_rfl

/-- Without its greatest key a table holds all its other entries in order. -/
theorem entries_delete_last (last : table.IsLast key value) :
    (table.delete key).entries = table.entries.take (table.len - 1) := by
  have present := get?_eq_some.mp last.found
  obtain ⟨earlier, later, split⟩ := List.append_of_mem present
  have sorted := table.sorted
  rw [split] at sorted
  have none_later : later = [] := by
    rw [List.eq_nil_iff_forall_not_mem]
    intro entry member
    have above := (List.pairwise_cons.mp (List.pairwise_append.mp sorted).2.1).1 entry member
    have found : table.get? entry.1 = some entry.2 := get?_eq_some.mpr (by simp [split, member])
    exact absurd above (not_lt.mpr (last.greatest _ _ found))
  subst none_later
  have different : ∀ entry ∈ earlier, entry.1 ≠ key := fun entry member =>
    ((List.pairwise_append.mp sorted).2.2 entry member _ (List.mem_singleton_self _)).ne
  have count : table.len - 1 = earlier.length := by simp [len, split]
  simp only [delete, split, List.filter_append, count]
  simpa using different

theorem len_put (table : SortedTable κ ν) {key : κ} (absent : table.get? key = none) (value : ν) :
    (table.put key value).len = table.len + 1 := by
  have perm : (table.put key value).entries.Perm ((key, value) :: table.entries) := by
    have fresh : (key, value) ∉ table.entries := fun member => by
      rw [get?_eq_some.mpr member] at absent
      cases absent
    apply (List.perm_ext_iff_of_nodup (entries_nodup _)
      (List.nodup_cons.mpr ⟨fresh, table.entries_nodup⟩)).mpr
    rintro ⟨other, value'⟩
    rw [← get?_eq_some, get?_put, List.mem_cons, ← get?_eq_some, Prod.mk.injEq]
    by_cases same : other = key
    · simp [same, absent, eq_comm]
    · simp [same]
  simpa [len] using perm.length_eq

theorem len_delete_lt (last : table.IsLast key value) : (table.delete key).len < table.len := by
  have positive : 0 < table.len := List.length_pos_of_mem (get?_eq_some.mp last.found)
  unfold len at *
  rw [entries_delete_last last, List.length_take]
  unfold len
  omega

end SortedTable

structure CappedInsert (κ ν : Type) [LinearOrder κ] where
  inserted : Bool
  pop : Option ν
  set : SortedTable κ ν

/-- How an insertion into a full set that lacks the key may end, if `last` is
the greatest key with the new one counted in. -/
inductive CappedInsert.Full (key : κ) (value : ν) (last : κ) (lastValue : ν) :
    CappedInsert κ ν → Prop where
  | evicted {set : SortedTable κ ν} :
      last ≠ key → Full key value last lastValue ⟨true, some lastValue, set⟩
  | passed {set : SortedTable κ ν} :
      last = key → Full key value last lastValue ⟨true, some value, set⟩
  | refused {set : SortedTable κ ν} {pop : Option ν} :
      last = key → (∀ popped, pop = some popped → popped = value) →
      Full key value last lastValue ⟨false, pop, set⟩

/-- A set whose `insert` keeps the smallest elements and returns the one it
gives up. -/
structure CappedSet (κ ν : Type) [LinearOrder κ] where
  insert : Option ℕ+ → SortedTable κ ν → κ → ν → CappedInsert κ ν
  present : ∀ max set key value, (set.get? key).isSome = true →
    insert max set key value = ⟨false, none, set⟩
  room : ∀ max set key value, set.get? key = none →
    (∀ bound : ℕ+, max = some bound → set.len < (bound : ℕ)) →
    insert max set key value = ⟨true, none, set.put key value⟩
  full : ∀ (max : ℕ+) set key value, set.get? key = none → set.len = (max : ℕ) →
    ∃ last lastValue, (set.put key value).IsLast last lastValue ∧
      (insert (some max) set key value).set = (set.put key value).delete last ∧
      CappedInsert.Full key value last lastValue (insert (some max) set key value)

namespace CappedSet

/-- Inserts first and then gives up the greatest element. -/
def popLast : CappedSet κ ν where
  insert max set key value :=
    if (set.get? key).isSome then ⟨false, none, set⟩
    else if max.all fun bound : ℕ+ => decide (set.len < (bound : ℕ)) then ⟨true, none, set.put key value⟩
    else
      match (set.put key value).entries.getLast? with
      | some (last, lastValue) => ⟨true, some lastValue, (set.put key value).delete last⟩
      | none => ⟨true, none, set.put key value⟩
  present := by
    intro max set key value found
    rw [if_pos found]
  room := by
    intro max set key value absent fits
    have below : (max.all fun bound : ℕ+ => decide (set.len < (bound : ℕ))) = true := by
      cases max with
      | none => rfl
      | some bound => simpa using fits bound rfl
    simp [absent, below]
  full := by
    intro max set key value absent filled
    have nonempty : (set.put key value).entries ≠ [] := by
      have present : (set.put key value).get? key = some value := by simp [SortedTable.get?_put]
      exact List.ne_nil_of_mem (SortedTable.get?_eq_some.mp present)
    obtain ⟨⟨last, lastValue⟩, found⟩ :=
      Option.isSome_iff_exists.mp (List.getLast?_isSome.mpr nonempty)
    have isLast := SortedTable.isLast_of_getLast? found
    refine ⟨last, lastValue, isLast, ?_, ?_⟩
    · simp [absent, filled, found]
    · simp only [absent, Option.isSome_none, Bool.false_eq_true, if_false, filled, Option.all_some,
        lt_irrefl, decide_false, found]
      by_cases same : last = key
      · have value_same : lastValue = value := by
          have there := isLast.found
          rw [SortedTable.get?_put, if_pos same] at there
          exact (Option.some.inj there).symm
        rw [value_same]
        exact .passed same
      · exact .evicted same

end CappedSet

end RustNostr.Library
