import Mathlib

/-! Rows in an order that is only in part prescribed. A statement that orders its
rows by a key says nothing about rows with one key, so whoever executes it picks
one of several orders, and a limit may cut between rows that the key does not
tell apart. -/

set_option autoImplicit false

namespace RustNostr.Library

variable {α β : Type} [LinearOrder β]

/-- The rows in some order of their keys. -/
structure Arrangement (key : α → β) where
  arrange : List α → List α
  perm : ∀ rows, (arrange rows).Perm rows
  sorted : ∀ rows, (arrange rows).Pairwise fun left right => key left ≤ key right

namespace Arrangement

variable {key : α → β}

/-- Rows with one key stay as they stand. -/
def stable (key : α → β) : Arrangement key where
  arrange rows := rows.insertionSort fun left right => key left ≤ key right
  perm rows := List.perm_insertionSort _ rows
  sorted rows := by
    have total : Std.Total fun left right : α => key left ≤ key right :=
      ⟨fun left right => le_total _ _⟩
    have trans : IsTrans α fun left right : α => key left ≤ key right :=
      ⟨fun _ _ _ => le_trans⟩
    exact List.pairwise_insertionSort _ rows

/-- Puts these rows in this order. -/
def picking [DecidableEq α] {rows picked : List α} (perm : picked.Perm rows)
    (sorted : picked.Pairwise fun left right => key left ≤ key right) : Arrangement key where
  arrange others := if others = rows then picked else (stable key).arrange others
  perm others := by
    split
    next same => rw [same]; exact perm
    next => exact (stable key).perm others
  sorted others := by
    split
    next => exact sorted
    next => exact (stable key).sorted others

theorem arrange_picking [DecidableEq α] {rows picked : List α} (perm : picked.Perm rows)
    (sorted : picked.Pairwise fun left right => key left ≤ key right) :
    (picking perm sorted).arrange rows = picked := if_pos rfl

theorem mem_arrange (arrangement : Arrangement key) (rows : List α) (row : α) :
    row ∈ arrangement.arrange rows ↔ row ∈ rows := (arrangement.perm rows).mem_iff

end Arrangement

/-- A limit of rows, where a negative one is none. -/
def limitRows (limit : Int) (rows : List α) : List α :=
  if limit < 0 then rows else rows.take limit.toNat

theorem limitRows_sublist (limit : Int) (rows : List α) : (limitRows limit rows).Sublist rows := by
  unfold limitRows
  split
  · exact .refl rows
  · exact List.take_sublist _ rows

/-! ## Choosing after a limit -/

section Choosing

variable {γ : Type} {choose : α → Option γ} {rows picked : List α} {page limit : Nat}

/-- The first `page` rows hold as many that are chosen as are wanted, or no row after them
is chosen. -/
def PageSuffices (choose : α → Option γ) (rows : List α) (page limit : Nat) : Prop :=
  limit ≤ ((rows.take page).filterMap choose).length ∨ (rows.drop page).filterMap choose = []

theorem filterMap_split (choose : α → Option γ) (rows : List α) (page : Nat) :
    rows.filterMap choose = (rows.take page).filterMap choose ++ (rows.drop page).filterMap choose := by
  rw [← List.filterMap_append, List.take_append_drop]

/-- A page that suffices gives the first of all rows that are chosen. -/
theorem PageSuffices.take_eq (roomy : PageSuffices choose rows page limit) :
    ((rows.take page).filterMap choose).take limit = (rows.filterMap choose).take limit := by
  rw [filterMap_split choose rows page]
  cases roomy with
  | inl enough => rw [List.take_append_of_le_length enough]
  | inr none => rw [none, List.append_nil]

/-- A page that does not suffice gives too few, whatever the order of the rows. -/
theorem pageSuffices_of_take_eq (perm : picked.Perm rows)
    (same : ((rows.take page).filterMap choose).take limit = (picked.filterMap choose).take limit) :
    PageSuffices choose rows page limit := by
  have lengths := congrArg List.length same
  rw [List.length_take, List.length_take, (perm.filterMap choose).length_eq,
    filterMap_split choose rows page, List.length_append] at lengths
  by_cases enough : limit ≤ ((rows.take page).filterMap choose).length
  · exact .inl enough
  · exact .inr (List.length_eq_zero_iff.mp (by omega))

end Choosing

/-! ## Cutting -/

variable {key : α → β} {rows picked : List α} {count : Nat}

/-- The key tells the rows before the cut from those after it. -/
def CutsCleanly (key : α → β) (rows : List α) (count : Nat) : Prop :=
  ∀ before ∈ rows.take count, ∀ after ∈ rows.drop count, key before ≠ key after

omit [LinearOrder β] in
theorem CutsCleanly.of_length_le (within : rows.length ≤ count) : CutsCleanly key rows count := by
  intro before _ after member
  rw [List.drop_of_length_le within] at member
  cases member

theorem CutsCleanly.lt (clean : CutsCleanly key rows count)
    (sorted : rows.Pairwise fun left right => key left ≤ key right) {before after : α}
    (member : before ∈ rows.take count) (member' : after ∈ rows.drop count) :
    key before < key after := by
  rw [← List.take_append_drop count rows] at sorted
  exact lt_of_le_of_ne ((List.pairwise_append.mp sorted).2.2 before member after member')
    (clean before member after member')

/-- A clean cut leaves every arrangement the same rows. -/
theorem CutsCleanly.mem_take (clean : CutsCleanly key rows count)
    (sorted : rows.Pairwise fun left right => key left ≤ key right) (nodup : rows.Nodup)
    (perm : picked.Perm rows) (sorted' : picked.Pairwise fun left right => key left ≤ key right)
    (row : α) : row ∈ picked.take count ↔ row ∈ rows.take count := by
  have nodup' : picked.Nodup := perm.nodup_iff.mpr nodup
  have length : (picked.take count).length = (rows.take count).length := by
    rw [List.length_take, List.length_take, perm.length_eq]
  have split : ∀ row, row ∈ rows ↔ row ∈ rows.take count ∨ row ∈ rows.drop count := fun row => by
    rw [← List.mem_append, List.take_append_drop]
  have within : rows.take count ⊆ picked.take count := by
    by_contra left_out
    obtain ⟨before, member, absent⟩ : ∃ before ∈ rows.take count, before ∉ picked.take count := by
      simpa [List.subset_def] using left_out
    have later : before ∈ picked.drop count := by
      have there := perm.mem_iff.mpr ((split before).mpr (.inl member))
      rw [← List.take_append_drop count picked] at there
      exact (List.mem_append.mp there).resolve_left absent
    -- As many rows stand before the cut, so one from behind it has come there.
    obtain ⟨after, member', absent'⟩ :
        ∃ after ∈ picked.take count, after ∉ rows.take count := by
      by_contra none_moved
      have subset : picked.take count ⊆ rows.take count := fun row there => by
        by_contra absent'
        exact none_moved ⟨row, there, absent'⟩
      have same := (List.subperm_of_subset (nodup'.sublist (List.take_sublist _ _)) subset).perm_of_length_le
        length.ge
      exact absent (same.mem_iff.mpr member)
    have behind : after ∈ rows.drop count := by
      have there := perm.mem_iff.mp (List.mem_of_mem_take member')
      exact ((split after).mp there).resolve_left absent'
    have below := clean.lt sorted member behind
    rw [← List.take_append_drop count picked] at sorted'
    exact absurd ((List.pairwise_append.mp sorted').2.2 after member' before later)
      (not_le.mpr below)
  have same := (List.subperm_of_subset (nodup.sublist (List.take_sublist _ _)) within).perm_of_length_le
    length.le
  exact same.symm.mem_iff

/-- Where the key does not tell two rows apart, they can change places across
the cut. -/
theorem exists_other_cut (sorted : rows.Pairwise fun left right => key left ≤ key right)
    (nodup : rows.Nodup) (unclean : ¬ CutsCleanly key rows count) :
    ∃ picked : List α, picked.Perm rows ∧
      (picked.Pairwise fun left right => key left ≤ key right) ∧
      ∃ row ∈ picked.take count, row ∉ rows.take count := by
  obtain ⟨before, member, after, member', same⟩ :
      ∃ before ∈ rows.take count, ∃ after ∈ rows.drop count, key before = key after := by
    simpa [CutsCleanly] using unclean
  obtain ⟨first, second, taken⟩ := List.append_of_mem member
  obtain ⟨third, fourth, dropped⟩ := List.append_of_mem member'
  have whole : rows = (first ++ before :: second) ++ (third ++ after :: fourth) := by
    rw [← taken, ← dropped, List.take_append_drop]
  have full : (first ++ after :: second).length = count := by
    have enough : count < rows.length := by
      by_contra short
      rw [List.drop_of_length_le (not_lt.mp short)] at member'
      cases member'
    have length := List.length_take_of_le enough.le
    rw [taken] at length
    simpa using length
  refine ⟨(first ++ after :: second) ++ (third ++ before :: fourth), ?_, ?_, after, ?_, ?_⟩
  · classical
    rw [whole, List.perm_iff_count]
    intro row
    simp only [List.count_append, List.count_cons]
    omega
  · rw [← List.pairwise_map (f := key) (R := fun left right => left ≤ right)]
    rw [whole, ← List.pairwise_map (f := key) (R := fun left right => left ≤ right)] at sorted
    simpa only [List.map_append, List.map_cons, same] using sorted
  · rw [List.take_left' full]
    simp
  · rw [taken]
    intro there
    rw [whole] at nodup
    exact (List.nodup_append.mp nodup).2.2 after there after (by simp) rfl

end RustNostr.Library
