import Mathlib

/-!
# Splitting at a separator

Taking a label off the front of a sequence and cutting a sequence at the first
place where a separator stands.
-/

set_option autoImplicit false

namespace RustNostr.Library

variable {α β : Type} [DecidableEq α]

/-! ## Labels -/

def stripPrefix (label text : List α) : Option (List α) :=
  if label <+: text then some (text.drop label.length) else none

@[simp] theorem stripPrefix_append (label rest : List α) :
    stripPrefix label (label ++ rest) = some rest := by
  rw [stripPrefix, if_pos (List.prefix_append label rest), List.drop_left]

theorem stripPrefix_eq_none {label text : List α} :
    stripPrefix label text = none ↔ ¬ label <+: text := by
  rw [stripPrefix]
  split
  next begins => simp [begins]
  next otherwise => simp [otherwise]

theorem stripPrefix_eq_some {label text rest : List α} :
    stripPrefix label text = some rest ↔ text = label ++ rest := by
  constructor
  · intro stripped
    rw [stripPrefix] at stripped
    split at stripped
    next begins =>
      obtain ⟨after, shape⟩ := begins
      rw [← shape, List.drop_left, Option.some.injEq] at stripped
      rw [← shape, stripped]
    next => cases stripped
  · intro shape
    rw [shape, stripPrefix_append]

/-- Takes the label off as often as it stands there, at most so many times. -/
def stripUpTo (label : List α) : Nat → List α → List α
  | 0, text => text
  | count + 1, text => (stripPrefix label text).elim text (stripUpTo label count)

def stripAll (label text : List α) : List α := stripUpTo label text.length text

theorem stripUpTo_of_not {label text : List α} (other : ¬ label <+: text) (count : Nat) :
    stripUpTo label count text = text := by
  cases count with
  | zero => rfl
  | succ count => rw [stripUpTo, stripPrefix_eq_none.mpr other, Option.elim_none]

theorem not_stripUpTo {label text : List α} (some_ : label ≠ []) {count : Nat} (enough : text.length ≤ count) :
    ¬ label <+: stripUpTo label count text := by
  induction count generalizing text with
  | zero =>
      rw [List.length_eq_zero_iff.mp (Nat.le_zero.mp enough)]
      exact fun begins => some_ (List.prefix_nil.mp begins)
  | succ count ih =>
      rw [stripUpTo]
      cases stripped : stripPrefix label text with
      | none => exact stripPrefix_eq_none.mp stripped
      | some rest =>
          have lengths := congrArg List.length (stripPrefix_eq_some.mp stripped)
          have labelLength := List.length_pos_of_ne_nil some_
          rw [List.length_append] at lengths
          exact ih (by omega)

theorem not_stripAll {label : List α} (some_ : label ≠ []) (text : List α) : ¬ label <+: stripAll label text :=
  not_stripUpTo some_ (Nat.le_refl _)

/-- One label goes, and the rest stays as it is, exactly when the rest does not begin with another. -/
theorem stripAll_append_iff {label : List α} (some_ : label ≠ []) (rest : List α) :
    stripAll label (label ++ rest) = rest ↔ ¬ label <+: rest := by
  obtain ⟨others, length⟩ : ∃ others, (label ++ rest).length = others + 1 ∧ rest.length ≤ others := by
    have labelLength := List.length_pos_of_ne_nil some_
    refine ⟨(label ++ rest).length - 1, ?_⟩
    rw [List.length_append]
    omega
  rw [stripAll, length.1, stripUpTo, stripPrefix_append, Option.elim_some]
  constructor
  · intro same
    exact same ▸ not_stripUpTo some_ length.2
  · intro other
    exact stripUpTo_of_not other others

/-- The entry of the first label that a text begins with, and the rest of the text. -/
def findLabel (entries : List (List α × β)) (text : List α) : Option (β × List α) :=
  entries.findSome? fun entry => (stripPrefix entry.1 text).map fun rest => (entry.2, rest)

theorem findLabel_eq_none {entries : List (List α × β)} {text : List α} :
    findLabel entries text = none ↔ ∀ entry ∈ entries, ¬ entry.1 <+: text := by
  simp only [findLabel, List.findSome?_eq_none_iff, Option.map_eq_none_iff, stripPrefix_eq_none]

theorem exists_of_findLabel {entries : List (List α × β)} {text rest : List α} {value : β}
    (found : findLabel entries text = some (value, rest)) :
    ∃ label, (label, value) ∈ entries ∧ text = label ++ rest := by
  obtain ⟨entry, member, stripped⟩ := List.exists_of_findSome?_eq_some found
  obtain ⟨after, cut, same⟩ := Option.map_eq_some_iff.mp stripped
  cases same
  exact ⟨entry.1, member, stripPrefix_eq_some.mp cut⟩

/-- None of the labels begins another, so no two begin the same text. -/
def PrefixFree (entries : List (List α × β)) : Prop :=
  entries.Pairwise fun earlier later => ¬ earlier.1 <+: later.1 ∧ ¬ later.1 <+: earlier.1

instance (entries : List (List α × β)) : Decidable (PrefixFree entries) :=
  inferInstanceAs (Decidable (List.Pairwise _ _))

theorem findLabel_append {entries : List (List α × β)} {label : List α} {value : β}
    (free : PrefixFree entries) (member : (label, value) ∈ entries) (rest : List α) :
    findLabel entries (label ++ rest) = some (value, rest) := by
  induction entries with
  | nil => cases member
  | cons first entries ih =>
      obtain ⟨apart, free⟩ := List.pairwise_cons.mp free
      rw [findLabel, List.findSome?_cons]
      rcases List.mem_cons.mp member with same | later
      · subst same
        rw [stripPrefix_append]
        rfl
      · have other : stripPrefix first.1 (label ++ rest) = none := by
          rw [stripPrefix_eq_none]
          intro begins
          rcases List.prefix_or_prefix_of_prefix begins (List.prefix_append label rest)
            with shorter | longer
          · exact (apart _ later).1 shorter
          · exact (apart _ later).2 longer
        rw [other]
        exact ih free later

/-! ## Cutting once -/

/-- What stands before and after the first place of a separator. -/
def splitOnce (separator : List α) : List α → Option (List α × List α)
  | [] => if separator = [] then some ([], []) else none
  | first :: rest =>
      if separator <+: first :: rest then some ([], (first :: rest).drop separator.length)
      else (splitOnce separator rest).map fun parts => (first :: parts.1, parts.2)

variable {separator : List α}

theorem eq_append_of_splitOnce {text before after : List α}
    (split : splitOnce separator text = some (before, after)) :
    text = before ++ (separator ++ after) := by
  induction text generalizing before with
  | nil =>
      rw [splitOnce] at split
      split at split
      next none =>
        cases split
        simp [none]
      next => cases split
  | cons first rest ih =>
      rw [splitOnce] at split
      split at split
      next begins =>
        obtain ⟨tail, shape⟩ := begins
        rw [← shape, List.drop_left] at split
        cases split
        exact shape.symm
      next =>
        obtain ⟨parts, cut, same⟩ := Option.map_eq_some_iff.mp split
        cases same
        exact congrArg (List.cons first) (ih cut)

theorem splitOnce_eq_none {text : List α} :
    splitOnce separator text = none ↔ ¬ separator <:+: text := by
  induction text with
  | nil =>
      rw [splitOnce]
      split
      next none => simp [none]
      next some => simpa using some
  | cons first rest ih =>
      rw [splitOnce, List.infix_cons_iff]
      split
      next begins => simp [begins]
      next otherwise => simp [otherwise, ih]

theorem splitOnce_of_starts (nonempty : separator ≠ []) (after : List α) :
    splitOnce separator (separator ++ after) = some ([], after) := by
  cases separator with
  | nil => exact absurd rfl nonempty
  | cons first rest =>
      rw [List.cons_append, splitOnce, ← List.cons_append, if_pos (List.prefix_append _ after),
        List.drop_left]

/-- A text is cut at the separator it was joined with, if none stands before. -/
theorem splitOnce_append (nonempty : separator ≠ []) (before after : List α) :
    splitOnce separator (before ++ (separator ++ after)) = some (before, after) ↔
      ¬ separator <:+: before ++ separator.dropLast := by
  have positive : 0 < separator.length := List.length_pos_of_ne_nil nonempty
  induction before with
  | nil =>
      refine iff_of_true (splitOnce_of_starts nonempty after) fun inside => ?_
      have length := inside.length_le
      rw [List.nil_append, List.length_dropLast] at length
      omega
  | cons first before ih =>
      have early : separator <+: first :: (before ++ (separator ++ after)) ↔
          separator <+: first :: (before ++ separator.dropLast) := by
        have cut : separator.dropLast <+: separator ++ after :=
          (List.dropLast_prefix separator).trans (List.prefix_append separator after)
        have shorter : first :: (before ++ separator.dropLast) <+:
            first :: (before ++ (separator ++ after)) :=
          List.cons_prefix_cons.mpr ⟨rfl, (List.prefix_append_right_inj before).mpr cut⟩
        refine ⟨fun begins => ?_, fun begins => begins.trans shorter⟩
        refine List.prefix_of_prefix_length_le begins shorter ?_
        rw [List.length_cons, List.length_append, List.length_dropLast]
        omega
      rw [List.cons_append, List.cons_append, splitOnce, List.infix_cons_iff]
      by_cases begins : separator <+: first :: (before ++ (separator ++ after))
      · rw [if_pos begins]
        exact iff_of_false (by simp) fun apart => apart (.inl (early.mp begins))
      · rw [if_neg begins]
        have apart : ¬ separator <+: first :: (before ++ separator.dropLast) :=
          fun inside => begins (early.mpr inside)
        simp only [apart, false_or, ← ih, Option.map_eq_some_iff]
        constructor
        · intro found
          obtain ⟨parts, cut, same⟩ := found
          cases same
          exact cut
        · intro cut
          exact ⟨_, cut, rfl⟩

omit [DecidableEq α] in
/-- What begins with an element that a text lacks does not begin in that text. -/
theorem infix_right_of_notMem {first : α} {rest before after : List α} (apart : first ∉ before)
    (inside : first :: rest <:+: before ++ after) : first :: rest <:+: after := by
  obtain ⟨left, right, shape⟩ := inside
  rw [List.append_assoc] at shape
  rcases List.append_eq_append_iff.mp shape with ⟨middle, whole, tail⟩ | ⟨middle, _, tail⟩
  · cases middle with
    | nil => exact ⟨[], right, by simpa using tail⟩
    | cons head middle =>
        rw [List.cons_append, List.cons_append, List.cons.injEq] at tail
        exact absurd (by simp [whole, tail.1]) apart
  · exact ⟨middle, right, by rw [tail, List.append_assoc]⟩

/-! ## Removing -/

/-- `removeAll` with a number of elements that a place before takes with it. -/
def removeFrom (first : α) (rest : List α) : Nat → List α → List α
  | _, [] => []
  | skip + 1, _ :: text => removeFrom first rest skip text
  | 0, head :: text =>
      if first :: rest <+: head :: text then removeFrom first rest rest.length text
      else head :: removeFrom first rest 0 text

/-- The text without the places where `first :: rest` stands. -/
def removeAll (first : α) (rest text : List α) : List α := removeFrom first rest 0 text

theorem removeFrom_length (first : α) (rest text : List α) :
    removeFrom first rest text.length text = [] := by
  induction text with
  | nil => rfl
  | cons head text ih => exact ih

/-- Behind a text that lacks its first element the ending is all that is removed. -/
theorem removeAll_append {first : α} {before : List α} (apart : first ∉ before) (rest : List α) :
    removeAll first rest (before ++ first :: rest) = before := by
  rw [removeAll]
  induction before with
  | nil =>
      rw [List.nil_append, removeFrom, if_pos (List.prefix_refl _)]
      exact removeFrom_length first rest rest
  | cons head before ih =>
      rw [List.mem_cons, not_or] at apart
      have other : ¬ first :: rest <+: head :: (before ++ first :: rest) := fun begins =>
        apart.1 (List.cons_prefix_cons.mp begins).1
      rw [List.cons_append, removeFrom, if_neg other, ih apart.2]

/-! ## Cutting everywhere -/

theorem splitOn_append_of_notMem {separator : α} {front : List α}
    (apart : separator ∉ front) (text : List α) :
    (front ++ text).splitOn separator = (text.splitOn separator).modifyHead (front ++ ·) := by
  induction front with
  | nil =>
      rw [List.nil_append]
      cases text.splitOn separator <;> rfl
  | cons first front ih =>
      have other : (first == separator) = false := by
        rw [beq_eq_false_iff_ne]
        intro same
        exact apart (same ▸ List.mem_cons_self)
      rw [List.cons_append, List.splitOn_cons_eq_if_modifyHead, other, if_neg (by decide),
        ih fun member => apart (.tail _ member)]
      cases text.splitOn separator <;> rfl

/-- The pieces are no longer than the text, and shorter if it was cut. -/
theorem length_of_mem_splitOn {separator : α} {text piece : List α}
    (member : piece ∈ text.splitOn separator) :
    piece.length + (if separator ∈ text then 1 else 0) ≤ text.length := by
  induction text generalizing piece with
  | nil =>
      cases List.mem_singleton.mp member
      exact Nat.le_refl _
  | cons first text ih =>
      rw [List.splitOn_cons_eq_if_modifyHead] at member
      by_cases same : first = separator
      · subst same
        rw [if_pos (beq_self_eq_true _)] at member
        rw [if_pos List.mem_cons_self, List.length_cons]
        rcases List.mem_cons.mp member with rfl | member
        · simp
        · have shorter := ih member
          omega
      · rw [if_neg (by simpa using same)] at member
        have present : separator ∈ first :: text ↔ separator ∈ text := by simp [Ne.symm same]
        simp only [present, List.length_cons]
        cases pieces : text.splitOn separator with
        | nil =>
            rw [pieces] at member
            cases member
        | cons head tail =>
            rw [pieces, List.modifyHead_cons] at member
            rcases List.mem_cons.mp member with rfl | member
            · have shorter := ih (pieces ▸ List.mem_cons_self)
              rw [List.length_cons]
              omega
            · have shorter := ih (pieces ▸ List.mem_cons_of_mem _ member)
              omega

end RustNostr.Library
