import Mathlib

/-! Partial correctness of computations that read and change a state and may
fail in the middle, leaving the state as it is there. -/

set_option autoImplicit false

namespace RustNostr.Library

variable {ε σ α β : Type}

/-- A sequence succeeds where its first part and what follows do. -/
theorem ok_of_bind {first : Except ε α} {rest : α → Except ε β} {outcome : β}
    (accepted : (first >>= rest) = .ok outcome) :
    ∃ value, first = .ok value ∧ rest value = .ok outcome := by
  cases first with
  | error error => cases accepted
  | ok value => exact ⟨value, rfl, accepted⟩

/-- A computation over a state that may fail. -/
abbrev Transaction (ε σ α : Type) := ExceptT ε (StateM σ) α

namespace Transaction

/-- Looks at the state with a function that may fail. -/
def read (look : σ → Except ε α) : Transaction ε σ α :=
  ExceptT.mk fun state => (look state, state)

/-- From a state with `before`, the outcome and the state left behind, also
after a failure, are related by `after`. -/
def Triple (before : σ → Prop) (program : Transaction ε σ α)
    (after : Except ε α → σ → Prop) : Prop :=
  ∀ state, before state → after (program.run state).1 (program.run state).2

theorem run_bind (program : Transaction ε σ α) (next : α → Transaction ε σ β) (state : σ) :
    (program >>= next).run state =
      match program.run state with
      | (.ok value, state') => (next value).run state'
      | (.error error, state') => (.error error, state') := by
  change ExceptT.bindCont next (program.run state).1 (program.run state).2 = _
  rcases program.run state with ⟨outcome, state'⟩
  cases outcome <;> rfl

theorem run_read_bind (look : σ → Except ε α) {value : α} {state : σ}
    (found : look state = .ok value) (next : α → Transaction ε σ β) :
    (read look >>= next).run state = (next value).run state := by
  rw [run_bind]
  change (match (look state, state) with
    | (.ok value, state') => (next value).run state'
    | (.error error, state') => (.error error, state')) = _
  rw [found]

theorem run_tryCatch (program : Transaction ε σ α) (handler : ε → Transaction ε σ α) (state : σ) :
    (tryCatch program handler).run state =
      match program.run state with
      | (.ok value, state') => (.ok value, state')
      | (.error error, state') => (handler error).run state' := by
  rw [ExceptT.run_tryCatch]
  simp only [Bind.bind, StateT.bind]
  rcases program.run state with ⟨outcome, state'⟩
  cases outcome <;> rfl

theorem run_ofExcept_ok_bind (value : α) (next : α → Transaction ε σ β) (state : σ) :
    ((ofExcept (.ok value : Except ε α) : Transaction ε σ α) >>= next).run state =
      (next value).run state := rfl

theorem run_ofExcept_error_bind (error : ε) (next : α → Transaction ε σ β) (state : σ) :
    ((ofExcept (.error error : Except ε α) : Transaction ε σ α) >>= next).run state =
      (.error error, state) := rfl

theorem run_get_bind (next : σ → Transaction ε σ α) (state : σ) :
    ((get : Transaction ε σ σ) >>= next).run state = (next state).run state := rfl

theorem run_eq_of_outcome {program : Transaction ε σ α} {state : σ} {outcome : Except ε α}
    (ran : (program.run state).1 = outcome) :
    program.run state = (outcome, (program.run state).2) := by
  subst ran
  rfl

namespace Triple

variable {before before' : σ → Prop} {program : Transaction ε σ α}
  {after after' : Except ε α → σ → Prop}

theorem consequence (triple : Triple before program after)
    (stronger : ∀ state, before' state → before state)
    (weaker : ∀ outcome state, after outcome state → after' outcome state) :
    Triple before' program after' :=
  fun state holds => weaker _ _ (triple state (stronger state holds))

theorem pure (value : α) :
    Triple (fun state => after (.ok value) state) (Pure.pure value : Transaction ε σ α) after :=
  fun _ holds => holds

theorem throw (error : ε) :
    Triple (fun state => after (.error error) state) (throw error : Transaction ε σ α) after :=
  fun _ holds => holds

theorem modify {after : Except ε PUnit → σ → Prop} (change : σ → σ) :
    Triple (fun state => after (.ok ()) (change state))
      (modify change : Transaction ε σ PUnit) after :=
  fun _ holds => holds

theorem bind (middle : α → σ → Prop) {after : Except ε β → σ → Prop}
    {next : α → Transaction ε σ β}
    (first : Triple before program fun outcome state => match outcome with
      | .ok value => middle value state
      | .error error => after (.error error) state)
    (rest : ∀ value, Triple (middle value) (next value) after) :
    Triple before (program >>= next) after := by
  intro state holds
  have reached := first state holds
  rw [run_bind]
  revert reached
  rcases program.run state with ⟨outcome, state'⟩
  cases outcome with
  | ok value => exact rest value state'
  | error error => exact id

theorem and (left : Triple before program after)
    (right : Triple before program after') :
    Triple before program fun outcome state => after outcome state ∧ after' outcome state :=
  fun state holds => ⟨left state holds, right state holds⟩

/-- Reading the state first lets the rest of the program be judged state by
state. -/
theorem get_bind {after : Except ε β → σ → Prop} {next : σ → Transaction ε σ β}
    (rest : ∀ state, before state → Triple (fun current => current = state) (next state) after) :
    Triple before (get >>= next) after :=
  fun state holds => rest state holds state rfl

theorem read_bind {after : Except ε β → σ → Prop} {look : σ → Except ε α}
    {next : α → Transaction ε σ β}
    (found : ∀ state value, before state → look state = .ok value →
      Triple (fun current => current = state) (next value) after)
    (failed : ∀ state error, before state → look state = .error error → after (.error error) state) :
    Triple before (read look >>= next) after := by
  intro state holds
  have ran : (read look).run state = (look state, state) := rfl
  rw [run_bind, ran]
  cases looked : look state with
  | ok value => exact found state value holds looked state rfl
  | error error => exact failed state error holds looked

theorem ite {condition : Prop} [Decidable condition] {yes no : Transaction ε σ α}
    (whenTrue : condition → Triple before yes after)
    (whenFalse : ¬ condition → Triple before no after) :
    Triple before (if condition then yes else no) after := by
  split
  · next holds => exact whenTrue holds
  · next fails => exact whenFalse fails

end Triple

/-- The program keeps an invariant, whether it succeeds or fails. -/
def Preserves (invariant : σ → Prop) (program : Transaction ε σ α) : Prop :=
  Triple invariant program fun _ => invariant

namespace Preserves

variable {invariant : σ → Prop}

theorem pure (value : α) : Preserves invariant (Pure.pure value : Transaction ε σ α) :=
  fun _ holds => holds

theorem throw (error : ε) : Preserves invariant (throw error : Transaction ε σ α) :=
  fun _ holds => holds

theorem modify {change : σ → σ} (keeps : ∀ state, invariant state → invariant (change state)) :
    Preserves invariant (modify change : Transaction ε σ PUnit) :=
  keeps

theorem bind {program : Transaction ε σ α} {next : α → Transaction ε σ β}
    (first : Preserves invariant program) (rest : ∀ value, Preserves invariant (next value)) :
    Preserves invariant (program >>= next) := by
  refine Triple.bind (fun _ => invariant) ?_ rest
  intro state holds
  have kept := first state holds
  revert kept
  cases (program.run state).1 <;> exact id

theorem from_state {program : Transaction ε σ α} (preserves : Preserves invariant program)
    {state : σ} (holds : invariant state) :
    Triple (fun current => current = state) program fun _ => invariant :=
  preserves.consequence (fun _ same => same ▸ holds) fun _ _ kept => kept

theorem get_bind {next : σ → Transaction ε σ β}
    (rest : ∀ state, invariant state →
      Triple (fun current => current = state) (next state) fun _ => invariant) :
    Preserves invariant (get >>= next) :=
  Triple.get_bind rest

theorem read_bind {look : σ → Except ε α} {next : α → Transaction ε σ β}
    (found : ∀ state value, invariant state → look state = .ok value →
      Triple (fun current => current = state) (next value) fun _ => invariant) :
    Preserves invariant (read look >>= next) :=
  Triple.read_bind found fun _ _ holds _ => holds

theorem ite {condition : Prop} [Decidable condition] {yes no : Transaction ε σ α}
    (whenTrue : Preserves invariant yes) (whenFalse : Preserves invariant no) :
    Preserves invariant (if condition then yes else no) :=
  Triple.ite (fun _ => whenTrue) (fun _ => whenFalse)

/-- The rule for a reading after which what was read does not matter. -/
theorem get_then {next : σ → Transaction ε σ β} (rest : ∀ state, Preserves invariant (next state)) :
    Preserves invariant (get >>= next) :=
  fun state holds => rest state state holds

theorem ofExcept (result : Except ε α) :
    Preserves invariant (ofExcept result : Transaction ε σ α) := by
  cases result with
  | ok value => exact pure value
  | error error => exact throw error

theorem tryCatch {program : Transaction ε σ α} {handler : ε → Transaction ε σ α}
    (tried : Preserves invariant program) (handled : ∀ error, Preserves invariant (handler error)) :
    Preserves invariant (tryCatch program handler) := by
  intro state holds
  have kept := tried state holds
  rw [run_tryCatch]
  revert kept
  rcases program.run state with ⟨outcome, state'⟩
  cases outcome with
  | ok value => exact id
  | error error => exact handled error state'

theorem forM {items : List β} {body : β → Transaction ε σ PUnit}
    (step : ∀ item ∈ items, Preserves invariant (body item)) :
    Preserves invariant (items.forM body) := by
  induction items with
  | nil => exact pure _
  | cons item items ih =>
      exact bind (step item List.mem_cons_self) fun _ =>
        ih fun later member => step later (List.mem_cons_of_mem _ member)

/-- What the first part preserves, the second part may start from. -/
theorem then_triple {program : Transaction ε σ α} {next : α → Transaction ε σ β}
    {after : Except ε β → σ → Prop} (first : Preserves invariant program)
    (failed : ∀ error state, invariant state → after (.error error) state)
    (rest : ∀ value, Triple invariant (next value) after) :
    Triple invariant (program >>= next) after := by
  refine Triple.bind (fun _ => invariant) ?_ rest
  intro state holds
  have kept := first state holds
  revert kept
  cases (program.run state).1 with
  | ok value => exact id
  | error error => exact failed error _

end Preserves

/-- The program keeps an invariant, and what it returns has a property. -/
def Establishes (invariant : σ → Prop) (program : Transaction ε σ α) (fact : α → Prop) : Prop :=
  Triple invariant program fun outcome state =>
    invariant state ∧ ∀ value, outcome = .ok value → fact value

namespace Establishes

variable {invariant : σ → Prop} {fact : α → Prop}

theorem pure {value : α} (holds : fact value) :
    Establishes invariant (Pure.pure value : Transaction ε σ α) fact := by
  intro state kept
  refine ⟨kept, fun other same => ?_⟩
  cases same
  exact holds

theorem of_preserves {program : Transaction ε σ α} (kept : Preserves invariant program)
    (holds : ∀ value, fact value) : Establishes invariant program fact :=
  fun state before => ⟨kept state before, fun value _ => holds value⟩

theorem bind {program : Transaction ε σ α} {next : α → Transaction ε σ β} {fact' : β → Prop}
    (first : Establishes invariant program fact)
    (rest : ∀ value, fact value → Establishes invariant (next value) fact') :
    Establishes invariant (program >>= next) fact' := by
  refine Triple.bind (fun value state => invariant state ∧ fact value) ?_ ?_
  · intro state holds
    obtain ⟨kept, established⟩ := first state holds
    revert kept established
    cases (program.run state).1 with
    | ok value => exact fun kept established => ⟨kept, established value rfl⟩
    | error error => exact fun kept _ => ⟨kept, fun _ absurd => (by cases absurd)⟩
  · intro value state reached
    exact rest value reached.2 state reached.1

theorem preserves {program : Transaction ε σ α} (established : Establishes invariant program fact) :
    Preserves invariant program :=
  Triple.consequence established (fun _ => id) fun _ _ kept => kept.1

theorem bind_preserves {program : Transaction ε σ α} {next : α → Transaction ε σ β}
    (first : Establishes invariant program fact)
    (rest : ∀ value, fact value → Preserves invariant (next value)) :
    Preserves invariant (program >>= next) := by
  have whole : Establishes invariant (program >>= next) fun _ => True :=
    bind first fun value known => of_preserves (rest value known) fun _ => trivial
  exact whole.preserves

/-- What each step of a map over a list establishes, the map does of all
results. -/
theorem mapM {items : List β} {body : β → Transaction ε σ α}
    (each : ∀ item ∈ items, Establishes invariant (body item) fact) :
    Establishes invariant (items.mapM body) fun values => ∀ value ∈ values, fact value := by
  induction items with
  | nil => exact Establishes.pure (by simp)
  | cons item items ih =>
      rw [List.mapM_cons]
      refine bind (each item List.mem_cons_self) fun value known => ?_
      refine bind (ih fun other member => each other (List.mem_cons_of_mem _ member)) fun values facts => ?_
      exact pure fun other member => by
        cases List.mem_cons.mp member with
        | inl same => exact same ▸ known
        | inr later => exact facts other later

end Establishes

/-- Related states give the same outcome and stay related. -/
def Respects (related : σ → σ → Prop) (program : Transaction ε σ α) : Prop :=
  ∀ left right, related left right → (program.run right).1 = (program.run left).1 ∧
    related (program.run left).2 (program.run right).2

namespace Respects

variable {related : σ → σ → Prop}

theorem pure (value : α) : Respects related (Pure.pure value : Transaction ε σ α) :=
  fun _ _ holds => ⟨rfl, holds⟩

theorem throw (error : ε) : Respects related (throw error : Transaction ε σ α) :=
  fun _ _ holds => ⟨rfl, holds⟩

theorem modify {step : σ → σ}
    (keeps : ∀ left right, related left right → related (step left) (step right)) :
    Respects related (modify step : Transaction ε σ PUnit) :=
  fun left right holds => ⟨rfl, keeps left right holds⟩

theorem bind {program : Transaction ε σ α} {next : α → Transaction ε σ β}
    (first : Respects related program) (rest : ∀ value, Respects related (next value)) :
    Respects related (program >>= next) := by
  intro left right holds
  obtain ⟨same, reached⟩ := first left right holds
  rw [run_bind, run_bind]
  revert same reached
  rcases program.run left with ⟨leftOutcome, leftMiddle⟩
  rcases program.run right with ⟨rightOutcome, rightMiddle⟩
  rintro rfl reached
  cases rightOutcome with
  | ok value => exact rest value leftMiddle rightMiddle reached
  | error error => exact ⟨rfl, reached⟩

theorem read_bind {look : σ → Except ε α} {next : α → Transaction ε σ β}
    (same : ∀ left right, related left right → look right = look left)
    (rest : ∀ value, Respects related (next value)) : Respects related (read look >>= next) :=
  bind (fun left right holds => ⟨same left right holds, holds⟩) rest

/-- Reading the state first lets the rest of the program be judged for two
related states at a time. -/
theorem get_bind {next : σ → Transaction ε σ β}
    (rest : ∀ left right, related left right →
      ((next right).run right).1 = ((next left).run left).1 ∧
        related ((next left).run left).2 ((next right).run right).2) :
    Respects related (get >>= next) := by
  intro left right holds
  rw [run_get_bind, run_get_bind]
  exact rest left right holds

theorem get_bind_same {next : σ → Transaction ε σ β}
    (same : ∀ left right, related left right → next right = next left)
    (rest : ∀ state, Respects related (next state)) : Respects related (get >>= next) := by
  refine get_bind fun left right holds => ?_
  rw [same left right holds]
  exact rest left left right holds

theorem ite {condition : Prop} [Decidable condition] {yes no : Transaction ε σ α}
    (whenTrue : Respects related yes) (whenFalse : Respects related no) :
    Respects related (if condition then yes else no) := by
  split
  · exact whenTrue
  · exact whenFalse

theorem forM {items : List β} {body : β → Transaction ε σ PUnit}
    (each : ∀ item ∈ items, Respects related (body item)) : Respects related (items.forM body) := by
  induction items with
  | nil => exact pure _
  | cons item items ih =>
      exact bind (each item List.mem_cons_self) fun _ =>
        ih fun later member => each later (List.mem_cons_of_mem _ member)

end Respects

/-- Runs the program in a transaction of its own, which is aborted if the
program fails. -/
def commit (program : Transaction ε σ α) (state : σ) : Except ε α × σ :=
  match program.run state with
  | (.ok value, after) => (.ok value, after)
  | (.error error, _) => (.error error, state)

theorem commit_of_run {program : Transaction ε σ α} {state after : σ} {value : α}
    (ran : program.run state = (.ok value, after)) : program.commit state = (.ok value, after) := by
  rw [commit, ran]

theorem Respects.commit {related : σ → σ → Prop} {program : Transaction ε σ α}
    (respects : Respects related program) {left right : σ} (holds : related left right) :
    (program.commit right).1 = (program.commit left).1 ∧
      related (program.commit left).2 (program.commit right).2 := by
  obtain ⟨same, reached⟩ := respects left right holds
  unfold Transaction.commit
  revert same reached
  rcases program.run left with ⟨leftOutcome, leftAfter⟩
  rcases program.run right with ⟨rightOutcome, rightAfter⟩
  rintro rfl reached
  cases rightOutcome with
  | ok value => exact ⟨rfl, reached⟩
  | error error => exact ⟨rfl, holds⟩

end Transaction

/-- What every successful step of a fold keeps, a successful fold keeps. -/
theorem foldlM_keeps (keeps : α → Prop) {items : List β} {step : α → β → Except ε α}
    (each : ∀ state item next, item ∈ items → keeps state → step state item = .ok next → keeps next)
    {initial final : α} (start : keeps initial) (folded : items.foldlM step initial = .ok final) :
    keeps final := by
  induction items generalizing initial with
  | nil =>
      simp only [List.foldlM_nil, pure, Except.pure, Except.ok.injEq] at folded
      exact folded ▸ start
  | cons item items ih =>
      rw [List.foldlM_cons] at folded
      cases stepped : step initial item with
      | error error =>
          rw [stepped] at folded
          cases folded
      | ok next =>
          rw [stepped] at folded
          exact ih (fun state item' next' member => each state item' next' (.tail _ member))
            (each initial item next (.head _) start stepped) folded

end RustNostr.Library
