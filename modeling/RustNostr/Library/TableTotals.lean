import Mathlib
import RustNostr.Library.SortedTable

/-! Sums of weights over the values of sorted tables, and their lengths, under
the operations that put and delete one entry. -/

set_option autoImplicit false

namespace RustNostr.Library.SortedTable

variable {κ ν : Type} [LinearOrder κ]

/-- The sum of the weights of all values. -/
def total (table : SortedTable κ ν) (weight : ν → Nat) : Nat := (table.values.map weight).sum

variable {table : SortedTable κ ν} {key : κ} {value : ν}

/-- What is put in replaces what was there under its key. -/
theorem entries_put_perm (table : SortedTable κ ν) (key : κ) (value : ν) :
    (table.put key value).entries.Perm ((key, value) :: (table.delete key).entries) := by
  refine (List.perm_ext_iff_of_nodup (entries_nodup _) ?_).mpr ?_
  · refine List.nodup_cons.mpr ⟨fun member => ?_, entries_nodup _⟩
    simp [← get?_eq_some, get?_delete] at member
  · rintro ⟨other, found⟩
    rw [List.mem_cons, ← get?_eq_some, ← get?_eq_some, get?_put, get?_delete]
    by_cases same : other = key
    · simp [same, eq_comm]
    · simp [same]

theorem total_put (table : SortedTable κ ν) (weight : ν → Nat) (key : κ) (value : ν) :
    (table.put key value).total weight = weight value + (table.delete key).total weight := by
  have perm := ((table.entries_put_perm key value).map Prod.snd).map weight
  simpa [total, values] using perm.sum_eq

theorem len_put_delete (table : SortedTable κ ν) (key : κ) (value : ν) :
    (table.put key value).len = (table.delete key).len + 1 :=
  (table.entries_put_perm key value).length_eq

theorem total_eq_delete (weight : ν → Nat) (found : table.get? key = some value) :
    table.total weight = weight value + (table.delete key).total weight := by
  rw [← total_put table weight key value, put_same found]

theorem len_eq_delete (found : table.get? key = some value) :
    table.len = (table.delete key).len + 1 := by
  rw [← len_put_delete table key value, put_same found]

theorem delete_of_absent (absent : table.get? key = none) : table.delete key = table := by
  apply ext_get?
  intro other
  rw [get?_delete]
  split
  next same => rw [same, absent]
  next => rfl

theorem total_delete_le (table : SortedTable κ ν) (weight : ν → Nat) (key : κ) :
    (table.delete key).total weight ≤ table.total weight := by
  cases found : table.get? key with
  | none => rw [delete_of_absent found]
  | some value =>
      rw [total_eq_delete weight found]
      exact Nat.le_add_left _ _

theorem len_delete_le : (table.delete key).len ≤ table.len := List.length_filter_le _ _

/-- A table grows by one entry if the key is a new one, and else it does not. -/
theorem len_put_eq : (table.put key value).len =
    if (table.get? key).isSome then table.len else table.len + 1 := by
  rw [len_put_delete]
  cases found : table.get? key with
  | none => simp [delete_of_absent found]
  | some value => simp [len_eq_delete found]

end RustNostr.Library.SortedTable
