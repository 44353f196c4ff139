import Mathlib

/-!
# Reading a sequence element by element

A reader takes elements off the front of a sequence that may break off. It reads back
what was written if it does so whatever follows, and it is stable if elements that
follow do not change what it reads.
-/

set_option autoImplicit false

namespace RustNostr.Library

/-- The elements that are left, and the error behind the last of them, if the input
breaks off there. -/
structure Elements (ν ε : Type) where
  values : List ν
  broken : Option ε := none

def Elements.extend {ν ε : Type} (elements : Elements ν ε) (more : List ν) : Elements ν ε :=
  { elements with values := elements.values ++ more }

abbrev SeqReader (ν ε α : Type) := StateT (Elements ν ε) (Except ε) α

namespace SeqReader

variable {ν ε α β : Type}

/-- `SeqAccess::next_element` -/
def nextElement (read : ν → Except ε α) : SeqReader ν ε (Option α) := fun elements =>
  match elements.values with
  | value :: rest => (read value).map fun value => (some value, { elements with values := rest })
  | [] =>
      match elements.broken with
      | some error => .error error
      | none => .ok (none, elements)

/-- The next element, which must be there. -/
def next (missing : ε) (read : ν → Except ε α) : SeqReader ν ε α := do
  match ← nextElement read with
  | some value => pure value
  | none => throw missing

/-- The elements that are left are passed over. -/
def drain : SeqReader ν ε Unit := fun elements =>
  match elements.broken with
  | some error => .error error
  | none => .ok ((), { elements with values := [] })

/-- What is wanted is read, and the rest is passed over. -/
def leading (reader : SeqReader ν ε α) : SeqReader ν ε α := do
  let value ← reader
  drain
  pure value

theorem bind_of_ok {reader : SeqReader ν ε α} {behind : α → SeqReader ν ε β} {elements later : Elements ν ε}
    {value : α} (ran : reader elements = .ok (value, later)) :
    (reader >>= behind) elements = behind value later := by
  change reader elements >>= (fun result => behind result.1 result.2) = _
  rw [ran]
  rfl

theorem exists_of_bind_ok {reader : SeqReader ν ε α} {behind : α → SeqReader ν ε β}
    {elements later : Elements ν ε} {result : β} (ran : (reader >>= behind) elements = .ok (result, later)) :
    ∃ value between, reader elements = .ok (value, between) ∧ behind value between = .ok (result, later) := by
  change reader elements >>= (fun result => behind result.1 result.2) = _ at ran
  cases first : reader elements with
  | error error =>
      rw [first] at ran
      cases ran
  | ok outcome =>
      obtain ⟨value, between⟩ := outcome
      rw [first] at ran
      exact ⟨value, between, rfl, ran⟩

/-! ## What was written is read back -/

def Reads (reader : SeqReader ν ε α) (written : List ν) (value : α) : Prop :=
  ∀ rest broken, reader ⟨written ++ rest, broken⟩ = .ok (value, ⟨rest, broken⟩)

theorem Reads.pure (value : α) : Reads (pure value : SeqReader ν ε α) [] value := fun _ _ => rfl

theorem Reads.bind {reader : SeqReader ν ε α} {behind : α → SeqReader ν ε β} {front back : List ν}
    {first : α} {second : β} (reads : Reads reader front first) (readsBehind : Reads (behind first) back second) :
    Reads (reader >>= behind) (front ++ back) second := by
  intro rest broken
  have one := reads (back ++ rest) broken
  rw [← List.append_assoc] at one
  rw [bind_of_ok one]
  exact readsBehind rest broken

theorem Reads.next {missing : ε} {read : ν → Except ε α} {written : ν} {value : α}
    (reads : read written = .ok value) : Reads (next missing read) [written] value := by
  intro rest broken
  have one : nextElement read ⟨[written] ++ rest, broken⟩ = .ok (some value, ⟨rest, broken⟩) := by
    rw [nextElement, List.singleton_append]
    dsimp only
    rw [reads]
    rfl
  change nextElement read _ >>= _ = _
  rw [one]
  rfl

/-- One element in front. -/
theorem Reads.next_bind {missing : ε} {read : ν → Except ε α} {behind : α → SeqReader ν ε β} {written : ν}
    {back : List ν} {first : α} {second : β} (reads : read written = .ok first)
    (readsBehind : Reads (behind first) back second) :
    Reads (SeqReader.next missing read >>= behind) (written :: back) second :=
  (Reads.next reads).bind readsBehind

/-! ## What follows does not matter -/

def Stable (reader : SeqReader ν ε α) : Prop :=
  ∀ elements value later, reader elements = .ok (value, later) →
    ∀ more, reader (elements.extend more) = .ok (value, later.extend more)

theorem Stable.pure (value : α) : Stable (pure value : SeqReader ν ε α) := by
  intro elements result later ran more
  cases ran
  rfl

theorem Stable.throw (error : ε) : Stable (throw error : SeqReader ν ε α) := by
  intro elements result later ran
  cases ran

theorem Stable.bind {reader : SeqReader ν ε α} {behind : α → SeqReader ν ε β} (stable : Stable reader)
    (stableBehind : ∀ value, Stable (behind value)) : Stable (reader >>= behind) := by
  intro elements result later ran more
  obtain ⟨value, between, first, second⟩ := exists_of_bind_ok ran
  rw [bind_of_ok (stable elements value between first more)]
  exact stableBehind value between result later second more

theorem Stable.next (missing : ε) (read : ν → Except ε α) : Stable (SeqReader.next missing read) := by
  intro elements result later ran more
  obtain ⟨values, broken⟩ := elements
  change nextElement read _ >>= _ = _ at ran
  change nextElement read _ >>= _ = _
  cases values with
  | nil => cases broken <;> cases ran
  | cons value rest =>
      rw [nextElement] at ran
      rw [Elements.extend, nextElement, List.cons_append]
      dsimp only at ran ⊢
      cases reads : read value with
      | error error =>
          rw [reads] at ran
          cases ran
      | ok found =>
          rw [reads] at ran
          cases ran
          rfl

theorem leading_ok {reader : SeqReader ν ε α} {elements later : Elements ν ε} {value : α} :
    leading reader elements = .ok (value, later) ↔
      ∃ between, reader elements = .ok (value, between) ∧ between.broken = none ∧
        later = { between with values := [] } := by
  change reader elements >>= _ = _ ↔ _
  cases reader elements with
  | error error =>
      constructor
      · intro impossible
        cases impossible
      · intro impossible
        obtain ⟨_, impossible, _⟩ := impossible
        cases impossible
  | ok outcome =>
      obtain ⟨found, ⟨values, broken⟩⟩ := outcome
      cases broken with
      | some error =>
          constructor
          · intro impossible
            cases impossible
          · intro impossible
            obtain ⟨_, same, whole, _⟩ := impossible
            cases same
            cases whole
      | none =>
          constructor
          · intro same
            cases same
            exact ⟨_, rfl, rfl, rfl⟩
          · intro ran
            obtain ⟨_, same, _, rfl⟩ := ran
            cases same
            rfl

theorem Reads.leading {reader : SeqReader ν ε α} {written : List ν} {value : α}
    (reads : Reads reader written value) :
    SeqReader.leading reader ⟨written, none⟩ = .ok (value, ⟨[], none⟩) := by
  have ran := reads [] none
  rw [List.append_nil] at ran
  exact leading_ok.mpr ⟨_, ran, rfl, rfl⟩

/-- What is passed over may be more. -/
theorem Stable.leading {reader : SeqReader ν ε α} (stable : Stable reader) {elements later : Elements ν ε}
    {value : α} (ran : SeqReader.leading reader elements = .ok (value, later)) (more : List ν) :
    SeqReader.leading reader (elements.extend more) = .ok (value, later) := by
  obtain ⟨between, read, whole, rfl⟩ := leading_ok.mp ran
  exact leading_ok.mpr ⟨_, stable elements value between read more, whole, rfl⟩

end SeqReader

end RustNostr.Library
