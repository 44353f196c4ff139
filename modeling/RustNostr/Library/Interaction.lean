import Mathlib

/-!
# Programs that ask

A program whose calls are answered from outside, and may fail: what it has asked
and been told stands in a log, for every way of answering. What is true of every
log holds whatever the surroundings do between two calls.
-/

set_option autoImplicit false

namespace RustNostr.Library

inductive Interaction (Call : Type) (Answer : Call → Type) (ε α : Type) where
  | ok (result : α)
  | error (failure : ε)
  | ask (call : Call) (next : Answer call → Interaction Call Answer ε α)

namespace Interaction

variable {Call : Type} {Answer : Call → Type} {ε α β σ : Type}

def bind : Interaction Call Answer ε α → (α → Interaction Call Answer ε β) → Interaction Call Answer ε β
  | .ok result, next => next result
  | .error failure, _ => .error failure
  | .ask call answered, next => .ask call fun answer => (answered answer).bind next

instance : Monad (Interaction Call Answer ε) where
  pure := .ok
  bind := bind

@[simp] theorem pure_eq (result : α) : (pure result : Interaction Call Answer ε α) = .ok result := rfl

@[simp] theorem bind_eq (program : Interaction Call Answer ε α) (next : α → Interaction Call Answer ε β) :
    program >>= next = program.bind next := rfl

@[simp] theorem ok_bind (result : α) (next : α → Interaction Call Answer ε β) :
    (.ok result : Interaction Call Answer ε α).bind next = next result := rfl

theorem bind_assoc {γ : Type} (program : Interaction Call Answer ε α) (next : α → Interaction Call Answer ε β)
    (last : β → Interaction Call Answer ε γ) :
    (program.bind next).bind last = program.bind fun middle => (next middle).bind last := by
  induction program with
  | ok result => rfl
  | error failure => rfl
  | ask call answered ih => exact congrArg _ (funext ih)

def call (call : Call) : Interaction Call Answer ε (Answer call) := .ask call .ok

def ofExcept : Except ε α → Interaction Call Answer ε α
  | .ok result => .ok result
  | .error failure => .error failure

/-- `?` on what the program returns. -/
def orFail (program : Interaction Call Answer ε (Except ε α)) : Interaction Call Answer ε α :=
  program.bind ofExcept

/-! ## Logs -/

/-- The program has come to its end, after what stands in the log. -/
def Returns : Interaction Call Answer ε α → List (Sigma Answer) → Except ε α → Prop
  | .ok result, log, outcome => log = [] ∧ outcome = .ok result
  | .error failure, log, outcome => log = [] ∧ outcome = .error failure
  | .ask call next, log, outcome =>
      ∃ answer rest, log = ⟨call, answer⟩ :: rest ∧ (next answer).Returns rest outcome

/-- After what stands in the log, the program makes the call. -/
def Asks : Interaction Call Answer ε α → List (Sigma Answer) → Call → Prop
  | .ok _, _, _ | .error _, _, _ => False
  | .ask call next, log, asked =>
      log = [] ∧ asked = call ∨ ∃ answer rest, log = ⟨call, answer⟩ :: rest ∧ (next answer).Asks rest asked

/-- Answers every call in the same way. -/
def runWith (answers : (call : Call) → Answer call) :
    Interaction Call Answer ε α → List (Sigma Answer) × Except ε α
  | .ok result => ([], .ok result)
  | .error failure => ([], .error failure)
  | .ask call next =>
      let (log, outcome) := (next (answers call)).runWith answers
      (⟨call, answers call⟩ :: log, outcome)

theorem returns_runWith (answers : (call : Call) → Answer call) (program : Interaction Call Answer ε α) :
    program.Returns (program.runWith answers).1 (program.runWith answers).2 := by
  induction program with
  | ok result => exact ⟨rfl, rfl⟩
  | error failure => exact ⟨rfl, rfl⟩
  | ask call next ih => exact ⟨answers call, _, rfl, ih (answers call)⟩

theorem eq_of_mem_runWith {answers : (call : Call) → Answer call} {program : Interaction Call Answer ε α}
    {entry : Sigma Answer} (member : entry ∈ (program.runWith answers).1) : entry = ⟨entry.1, answers entry.1⟩ := by
  induction program with
  | ok result => cases member
  | error failure => cases member
  | ask call next ih =>
    rcases List.mem_cons.mp member with rfl | later
    · rfl
    · exact ih (answers call) later

theorem outcome_bind (answers : (call : Call) → Answer call) (program : Interaction Call Answer ε α)
    (next : α → Interaction Call Answer ε β) :
    ((program.bind next).runWith answers).2 = (program.runWith answers).2 >>= fun middle =>
      ((next middle).runWith answers).2 := by
  induction program with
  | ok result => rfl
  | error failure => rfl
  | ask call answered ih => exact ih (answers call)

theorem outcome_ofExcept (answers : (call : Call) → Answer call) (value : Except ε α) :
    ((ofExcept value : Interaction Call Answer ε α).runWith answers).2 = value := by
  cases value <;> rfl

/-- Every call of a log was made after what stands before it. -/
theorem asks_of_returns {program : Interaction Call Answer ε α} {log : List (Sigma Answer)} {outcome : Except ε α}
    (returns : program.Returns log outcome) {before after : List (Sigma Answer)} {asked : Sigma Answer}
    (split : log = before ++ asked :: after) : program.Asks before asked.1 := by
  induction program generalizing log before with
  | ok result => simp [returns.1] at split
  | error failure => simp [returns.1] at split
  | ask call next ih =>
    obtain ⟨answer, rest, rfl, later⟩ := returns
    cases before with
    | nil =>
      obtain ⟨rfl, rfl⟩ := List.cons.inj split
      exact .inl ⟨rfl, rfl⟩
    | cons first others =>
      obtain ⟨rfl, behind⟩ := List.cons.inj split
      exact .inr ⟨answer, others, rfl, ih answer later behind⟩

/-! ## Sequences -/

section Sequences

variable {program : Interaction Call Answer ε α} {next : α → Interaction Call Answer ε β}
  {log : List (Sigma Answer)} {asked : Call}

/-- The first part fails, or it comes to its end and the log goes on with the second. -/
theorem returns_bind {outcome : Except ε β} : (program.bind next).Returns log outcome ↔
    (∃ failure, outcome = .error failure ∧ program.Returns log (.error failure)) ∨
      ∃ middle front back, log = front ++ back ∧ program.Returns front (.ok middle) ∧
        (next middle).Returns back outcome := by
  induction program generalizing log with
  | ok value => simp [bind, Returns]
  | error failure => simp [bind, Returns, and_comm]
  | ask call answered ih =>
    constructor
    · rintro ⟨answer, rest, rfl, returns⟩
      rcases (ih answer).mp returns with ⟨failure, rfl, first⟩ | ⟨middle, front, back, rfl, first, second⟩
      · exact .inl ⟨failure, rfl, answer, rest, rfl, first⟩
      · exact .inr ⟨middle, ⟨call, answer⟩ :: front, back, rfl, ⟨answer, front, rfl, first⟩, second⟩
    · rintro (⟨failure, rfl, answer, rest, rfl, first⟩ |
        ⟨middle, _, back, rfl, ⟨answer, front, rfl, first⟩, second⟩)
      · exact ⟨answer, rest, rfl, (ih answer).mpr (.inl ⟨failure, rfl, first⟩)⟩
      · exact ⟨answer, front ++ back, rfl, (ih answer).mpr (.inr ⟨middle, front, back, rfl, first, second⟩)⟩

theorem returns_bind_ok {result : β} : (program.bind next).Returns log (.ok result) ↔
    ∃ middle front back, log = front ++ back ∧ program.Returns front (.ok middle) ∧
      (next middle).Returns back (.ok result) := by
  simp [returns_bind]

theorem asks_bind : (program.bind next).Asks log asked ↔ program.Asks log asked ∨
    ∃ middle front back, log = front ++ back ∧ program.Returns front (.ok middle) ∧
      (next middle).Asks back asked := by
  induction program generalizing log with
  | ok value => simp [bind, Asks, Returns]
  | error failure => simp [bind, Asks, Returns]
  | ask call answered ih =>
    constructor
    · rintro (first | ⟨answer, rest, rfl, asks⟩)
      · exact .inl (.inl first)
      · rcases (ih answer).mp asks with early | ⟨middle, front, back, rfl, returns, late⟩
        · exact .inl (.inr ⟨answer, rest, rfl, early⟩)
        · exact .inr ⟨middle, ⟨call, answer⟩ :: front, back, rfl, ⟨answer, front, rfl, returns⟩, late⟩
    · rintro ((first | ⟨answer, rest, rfl, early⟩) | ⟨middle, _, back, rfl, ⟨answer, front, rfl, returns⟩, late⟩)
      · exact .inl first
      · exact .inr ⟨answer, rest, rfl, (ih answer).mpr (.inl early)⟩
      · exact .inr ⟨answer, front ++ back, rfl, (ih answer).mpr (.inr ⟨middle, front, back, rfl, returns, late⟩)⟩

end Sequences

section Steps

variable {log : List (Sigma Answer)} {asked : Call}

@[simp] theorem returns_ok {value : α} {outcome : Except ε α} :
    (.ok value : Interaction Call Answer ε α).Returns log outcome ↔ log = [] ∧ outcome = .ok value := Iff.rfl

@[simp] theorem returns_error {failure : ε} {outcome : Except ε α} :
    (.error failure : Interaction Call Answer ε α).Returns log outcome ↔ log = [] ∧ outcome = .error failure := Iff.rfl

@[simp] theorem returns_ofExcept {value outcome : Except ε α} :
    (ofExcept value : Interaction Call Answer ε α).Returns log outcome ↔ log = [] ∧ outcome = value := by
  cases value <;> rfl

theorem returns_call {question : Call} {outcome : Except ε (Answer question)} :
    (call question : Interaction Call Answer ε (Answer question)).Returns log outcome ↔
      ∃ answer, log = [⟨question, answer⟩] ∧ outcome = .ok answer := by
  constructor
  · rintro ⟨answer, _, rfl, rfl, told⟩
    exact ⟨answer, rfl, told⟩
  · rintro ⟨answer, rfl, told⟩
    exact ⟨answer, [], rfl, rfl, told⟩

theorem asks_call {question : Call} :
    (call question : Interaction Call Answer ε (Answer question)).Asks log asked ↔ log = [] ∧ asked = question := by
  simp [call, Asks]

theorem returns_orFail {program : Interaction Call Answer ε (Except ε α)} {result : α} :
    program.orFail.Returns log (.ok result) ↔ program.Returns log (.ok (.ok result)) := by
  simp only [orFail, returns_bind_ok, returns_ofExcept]
  constructor
  · rintro ⟨_, front, _, rfl, returns, rfl, rfl⟩
    simpa using returns
  · exact fun returns => ⟨_, log, [], by simp, returns, rfl, rfl⟩

end Steps

/-! ## Loops -/

section Loops

variable {step : σ → α → Interaction Call Answer ε σ}

/-- The invariant of a loop, on what it has gone through and the log of it. -/
theorem foldlM_invariant (holds : List α → List (Sigma Answer) → σ → Prop) {items : List α} {start finish : σ}
    {log : List (Sigma Answer)}
    (turn : ∀ {past item log state more after}, holds past log state → (step state item).Returns more (.ok after) →
      holds (past ++ [item]) (log ++ more) after)
    (begun : holds [] [] start) (returns : (items.foldlM step start).Returns log (.ok finish)) :
    holds items log finish := by
  have goes : ∀ past before, holds past before start → holds (past ++ items) (before ++ log) finish := by
    clear begun
    induction items generalizing start log with
    | nil =>
      obtain ⟨rfl, same⟩ := returns
      cases same
      simp
    | cons item items ih =>
      intro past before here
      obtain ⟨middle, front, back, rfl, first, others⟩ := returns_bind_ok.mp returns
      simpa using ih others (past ++ [item]) (before ++ front) (turn here first)
  exact goes [] [] begun

end Loops

/-! ## Which calls -/

/-- The program makes no other calls, whatever it is told. -/
def OnlyAsks (allowed : Call → Prop) : Interaction Call Answer ε α → Prop
  | .ok _ | .error _ => True
  | .ask call next => allowed call ∧ ∀ answer, (next answer).OnlyAsks allowed

section OnlyAsks

variable {allowed : Call → Prop} {program : Interaction Call Answer ε α} {log : List (Sigma Answer)}

theorem OnlyAsks.mono {more : Call → Prop} (only : program.OnlyAsks allowed)
    (wider : ∀ asked, allowed asked → more asked) : program.OnlyAsks more := by
  induction program with
  | ok result => trivial
  | error failure => trivial
  | ask call next ih => exact ⟨wider call only.1, fun answer => ih answer (only.2 answer)⟩

theorem OnlyAsks.of_asks (only : program.OnlyAsks allowed) {asked : Call} (asks : program.Asks log asked) :
    allowed asked := by
  induction program generalizing log with
  | ok result => exact asks.elim
  | error failure => exact asks.elim
  | ask call next ih =>
    rcases asks with ⟨_, rfl⟩ | ⟨answer, _, _, later⟩
    · exact only.1
    · exact ih answer (only.2 answer) later

theorem OnlyAsks.of_returns (only : program.OnlyAsks allowed) {outcome : Except ε α}
    (returns : program.Returns log outcome) : ∀ entry ∈ log, allowed entry.1 := by
  intro entry member
  obtain ⟨before, after, split⟩ := List.append_of_mem member
  exact only.of_asks (asks_of_returns returns split)

theorem OnlyAsks.bind {next : α → Interaction Call Answer ε β} (first : program.OnlyAsks allowed)
    (others : ∀ middle, (next middle).OnlyAsks allowed) : (program.bind next).OnlyAsks allowed := by
  induction program with
  | ok result => exact others result
  | error failure => trivial
  | ask call answered ih => exact ⟨first.1, fun answer => ih answer (first.2 answer)⟩

theorem OnlyAsks.call {question : Call} (this : allowed question) :
    (call question : Interaction Call Answer ε (Answer question)).OnlyAsks allowed :=
  ⟨this, fun _ => trivial⟩

theorem OnlyAsks.ofExcept (value : Except ε α) :
    (ofExcept value : Interaction Call Answer ε α).OnlyAsks allowed := by
  cases value <;> trivial

theorem OnlyAsks.orFail {program : Interaction Call Answer ε (Except ε α)} (only : program.OnlyAsks allowed) :
    program.orFail.OnlyAsks allowed :=
  only.bind fun value => .ofExcept value

theorem OnlyAsks.foldlM {step : σ → α → Interaction Call Answer ε σ}
    (turn : ∀ state item, (step state item).OnlyAsks allowed) (items : List α) (start : σ) :
    (items.foldlM step start).OnlyAsks allowed := by
  induction items generalizing start with
  | nil => trivial
  | cons item items ih => exact (turn start item).bind ih

end OnlyAsks

end Interaction

end RustNostr.Library
