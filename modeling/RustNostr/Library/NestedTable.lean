import Mathlib
import RustNostr.Library.SortedTable

/-! Tables of tables. An inner table that runs empty stays in its place, which
no lookup by both keys can tell. -/

set_option autoImplicit false

namespace RustNostr.Library

variable {α κ ν : Type} [LinearOrder α] [LinearOrder κ]

namespace SortedTable

def getInner? (table : SortedTable α (SortedTable κ ν)) (outer : α) (inner : κ) : Option ν :=
  (table.get? outer).bind fun entry => entry.get? inner

/-- `entry(outer).or_default().insert(..)` -/
def putInner (table : SortedTable α (SortedTable κ ν)) (outer : α) (inner : κ) (value : ν) :
    SortedTable α (SortedTable κ ν) :=
  table.put outer (((table.get? outer).getD .empty).putNew inner value)

/-- `if let Some(entry) = get_mut(outer) { entry.remove(..) }` -/
def deleteInner (table : SortedTable α (SortedTable κ ν)) (outer : α) (inner : κ) :
    SortedTable α (SortedTable κ ν) :=
  match table.get? outer with
  | some entry => table.put outer (entry.delete inner)
  | none => table

@[simp] theorem getInner?_empty (outer : α) (inner : κ) :
    (empty : SortedTable α (SortedTable κ ν)).getInner? outer inner = none := rfl

theorem getInner?_put (table : SortedTable α (SortedTable κ ν)) (outer outer' : α)
    (entry : SortedTable κ ν) (inner : κ) :
    (table.put outer entry).getInner? outer' inner =
      if outer' = outer then entry.get? inner else table.getInner? outer' inner := by
  unfold getInner?
  rw [get?_put]
  split <;> rfl

theorem getInner?_getD (table : SortedTable α (SortedTable κ ν)) (outer : α) (inner : κ) :
    ((table.get? outer).getD .empty).get? inner = table.getInner? outer inner := by
  unfold getInner?
  cases table.get? outer <;> rfl

theorem getInner?_putInner {table : SortedTable α (SortedTable κ ν)} {outer : α} {inner : κ}
    (absent : table.getInner? outer inner = none) (value : ν) (outer' : α) (inner' : κ) :
    (table.putInner outer inner value).getInner? outer' inner' =
      if outer' = outer ∧ inner' = inner then some value
      else table.getInner? outer' inner' := by
  unfold putInner
  rw [getInner?_put, get?_putNew, getInner?_getD, getInner?_getD, absent]
  by_cases same : outer' = outer
  · by_cases same' : inner' = inner <;> simp [same, same']
  · simp [same]

theorem getInner?_deleteInner (table : SortedTable α (SortedTable κ ν)) (outer outer' : α)
    (inner inner' : κ) :
    (table.deleteInner outer inner).getInner? outer' inner' =
      if outer' = outer ∧ inner' = inner then none else table.getInner? outer' inner' := by
  unfold deleteInner
  split
  next entry found =>
    rw [getInner?_put, get?_delete]
    by_cases same : outer' = outer
    · subst same
      by_cases same' : inner' = inner <;> simp [getInner?, found, same']
    · simp [same]
  next absent =>
    split
    next same =>
      obtain ⟨rfl, rfl⟩ := same
      simp [getInner?, absent]
    next => rfl

theorem mem_values_inner {table : SortedTable α (SortedTable κ ν)} {outer : α}
    {entry : SortedTable κ ν} (found : table.get? outer = some entry) (value : ν) :
    value ∈ entry.values ↔ ∃ inner, table.getInner? outer inner = some value := by
  simp only [mem_values, getInner?, found, Option.bind_some]

theorem getInner?_eq_none {table : SortedTable α (SortedTable κ ν)} {outer : α}
    (absent : table.get? outer = none) (inner : κ) : table.getInner? outer inner = none := by
  simp only [getInner?, absent, Option.bind_none]

end SortedTable

end RustNostr.Library
