import Mathlib
import RustNostr.NostrSdk.Pool.RelayPool

/-!
# Shutting the pool down

The pool stays within its limit in every run, and shutting it down is final
unless a call of `add_relay` gets the lock after the shutdown that it had looked
for before.
-/

set_option autoImplicit false

namespace RustNostr.NostrSdk

open Library NostrGossip

/-! ## The limit -/

namespace RelayPool

variable {options : PoolOptions} {pool : RelayPool}

/-- No more relays than there may be. -/
def Bounded (options : PoolOptions) (pool : RelayPool) : Prop :=
  ∀ max, options.maxRelays = some max → pool.relays.len ≤ max

theorem Bounded.of_len_le {pool' : RelayPool} (bounded : pool.Bounded options)
    (fewer : pool'.relays.len ≤ pool.relays.len) : pool'.Bounded options :=
  fun max limit => fewer.trans (bounded max limit)

theorem len_put_le (table : SortedTable RelayUrl RelayCapabilities) (url : RelayUrl)
    (capabilities : RelayCapabilities) : (table.put url capabilities).len ≤ table.len + 1 := by
  rw [SortedTable.len_put_eq]
  split <;> omega

theorem Bounded.addRelay {call : AddRelay} (bounded : pool.Bounded options) :
    (pool.addRelay options call).pool.Bounded options := by
  unfold RelayPool.addRelay
  cases found : pool.relays.get? call.url with
  | some current =>
      apply bounded.of_len_le
      simp [SortedTable.len_put_eq, found]
  | none =>
      simp only
      split
      · exact bounded
      · next room =>
          intro max limit
          have below : pool.relays.len < max := by simpa [PoolOptions.isFull, limit] using room
          exact (len_put_le pool.relays call.url call.capabilities).trans below

theorem len_removeRelay_le (url : RelayUrl) (force : Bool) :
    (pool.removeRelay url force).pool.relays.len ≤ pool.relays.len := by
  unfold removeRelay
  cases found : pool.relays.get? url with
  | none => exact Nat.le_refl _
  | some capabilities =>
      cases force with
      | true => exact SortedTable.len_delete_le
      | false =>
          cases blocked : cannotRemove capabilities with
          | none =>
              simp only [blocked]
              exact SortedTable.len_delete_le
          | some left => simp [blocked, SortedTable.len_put_eq, found]

theorem len_foldl_removeOrPutBack (entries : List (RelayUrl × RelayCapabilities))
    (locked : Locked Unit) : (entries.foldl removeOrPutBack locked).pool.relays.len ≤
      locked.pool.relays.len + entries.length := by
  induction entries generalizing locked with
  | nil => exact Nat.le_refl _
  | cons entry entries ih =>
      have first : (removeOrPutBack locked entry).pool.relays.len ≤ locked.pool.relays.len + 1 := by
        unfold removeOrPutBack
        split
        · exact len_put_le _ _ _
        · exact Nat.le_succ _
      have rest := ih (removeOrPutBack locked entry)
      rw [List.foldl_cons, List.length_cons]
      omega

theorem isShutdown_foldl_removeOrPutBack (entries : List (RelayUrl × RelayCapabilities))
    (locked : Locked Unit) :
    (entries.foldl removeOrPutBack locked).pool.isShutdown = locked.pool.isShutdown := by
  induction entries generalizing locked with
  | nil => rfl
  | cons entry entries ih =>
      rw [List.foldl_cons, ih]
      unfold removeOrPutBack
      split <;> rfl

theorem Bounded.locked {call : PoolCall} (bounded : pool.Bounded options) :
    (call.locked pool).pool.Bounded options := by
  cases call with
  | removeRelay url force => exact bounded.of_len_le (len_removeRelay_le url force)
  | removeAllRelays force =>
      cases force with
      | true => exact bounded.of_len_le (Nat.zero_le _)
      | false =>
          refine bounded.of_len_le ((len_foldl_removeOrPutBack _ _).trans ?_)
          exact (Nat.zero_add _).le
  | connect => exact bounded
  | shutdown =>
      change (pool.shutdown).pool.Bounded options
      unfold shutdown
      split
      · exact bounded
      · exact bounded.of_len_le (Nat.zero_le _)

/-! ## What is left after a shutdown -/

/-- A pool that has been shut down has no relays. -/
def ShutDown (pool : RelayPool) : Prop := pool.isShutdown = true → pool.relays = .empty

theorem isShutdown_removeRelay (url : RelayUrl) (force : Bool) :
    (pool.removeRelay url force).pool.isShutdown = pool.isShutdown := by
  unfold removeRelay
  cases pool.relays.get? url with
  | none => rfl
  | some capabilities =>
      cases force with
      | true => rfl
      | false => cases blocked : cannotRemove capabilities <;> simp [blocked]

theorem ShutDown.locked {call : PoolCall} (down : pool.ShutDown) :
    (call.locked pool).pool.ShutDown := by
  intro shut
  cases call with
  | removeRelay url force =>
      have empty := down ((isShutdown_removeRelay url force).symm.trans shut)
      change (pool.removeRelay url force).pool.relays = .empty
      unfold removeRelay
      rw [empty]
      exact empty
  | removeAllRelays force =>
      cases force with
      | true => rfl
      | false =>
          have before : pool.isShutdown = true :=
            (isShutdown_foldl_removeOrPutBack _ _).symm.trans shut
          change pool.removeRemovableRelays.pool.relays = .empty
          unfold removeRemovableRelays
          rw [down before]
          rfl
  | connect => exact down shut
  | shutdown =>
      change pool.shutdown.pool.relays = .empty
      unfold shutdown
      split
      · next before => exact down before
      · rfl

/-- On a pool without relays `add_relay` adds. -/
theorem addRelay_of_empty {call : AddRelay} (empty : pool.relays = .empty) :
    (pool.addRelay options call).result = .ok true := by
  have room : options.isFull 0 = false := by
    unfold PoolOptions.isFull
    cases options.maxRelays with
    | none => rfl
    | some max => simp
  unfold addRelay
  simp [empty, SortedTable.len, SortedTable.empty, SortedTable.get?, room]

theorem isShutdown_addRelay (call : AddRelay) :
    (pool.addRelay options call).pool.isShutdown = pool.isShutdown := by
  unfold addRelay
  cases pool.relays.get? call.url with
  | some current => rfl
  | none =>
      simp only
      split <;> rfl

end RelayPool

/-! ## Every run -/

section Runs

variable {κ : Type} [DecidableEq κ] {options : PoolOptions} {state state' : PoolState κ}
  {label : PoolLabel κ} {trace : List (PoolState κ × PoolLabel κ)}

/-- `add_relay` adds a relay or asks one to connect. -/
def PoolLabel.Adds (label : PoolLabel κ) : Prop :=
  ∃ result calls, label.act = .added result calls ∧
    (result = .ok true ∨ ∃ url, .connect url ∈ calls)

/-- A call of `add_relay` that waits for the lock gets it before the pool is shut
down. -/
def InTime (entry : PoolState κ × PoolLabel κ) : Prop :=
  ∀ result calls call, entry.2.act = .added result calls →
    entry.1.tasks entry.2.task = .locking call → entry.1.pool.isShutdown = false

/-- Once the pool is shut down it holds no relay, and nothing is added. -/
def ShutdownIsFinal (trace : List (PoolState κ × PoolLabel κ)) (final : PoolState κ) : Prop :=
  (∀ entry ∈ trace, entry.1.pool.isShutdown = true →
    entry.1.pool.relays = .empty ∧ ¬ entry.2.Adds) ∧ final.pool.ShutDown

theorem PoolStep.bounded (step : PoolStep options state label state')
    (bounded : state.pool.Bounded options) : state'.pool.Bounded options := by
  cases step with
  | addRelay => exact bounded.addRelay
  | locked => exact bounded.locked
  | add | call | cancel | check | refuse | enter | reject | policyFails => exact bounded

theorem PoolStep.shutDown (step : PoolStep options state label state')
    (inTime : InTime (state, label)) (down : state.pool.ShutDown) : state'.pool.ShutDown := by
  cases step with
  | addRelay locking =>
      intro shut
      have before := (RelayPool.isShutdown_addRelay _).symm.trans shut
      rw [inTime _ _ _ rfl locking] at before
      cases before
  | locked => exact down.locked
  | add | call | cancel | check | refuse | enter | reject | policyFails => exact down

/-- Nothing is added to a pool that has been shut down. -/
theorem PoolStep.not_adds (step : PoolStep options state label state')
    (inTime : InTime (state, label)) (shut : state.pool.isShutdown = true) : ¬ label.Adds := by
  rintro ⟨result, calls, act, adds⟩
  cases step with
  | addRelay locking =>
      rw [inTime _ _ _ rfl locking] at shut
      cases shut
  | refuse | reject | policyFails =>
      cases act
      simp at adds
  | add | call | cancel | check | enter | locked => cases act

/-- A late call of `add_relay` adds a relay where there is none. -/
theorem PoolStep.adds_of_late (step : PoolStep options state label state')
    {result : Except Error Bool} {calls : List RelayCall} {call : AddRelay}
    (act : label.act = .added result calls) (locking : state.tasks label.task = .locking call)
    (empty : state.pool.relays = .empty) : label.Adds := by
  cases step with
  | addRelay => exact ⟨_, _, rfl, .inl (RelayPool.addRelay_of_empty empty)⟩
  | refuse adding => cases locking.symm.trans adding
  | reject policing => cases locking.symm.trans policing
  | policyFails policing => cases locking.symm.trans policing
  | add | call | cancel | check | enter | locked => cases act

theorem run_bounded {final : PoolState κ}
    (run : Run (Traced (PoolStep options)) ({} : PoolState κ) trace final) :
    (∀ entry ∈ trace, entry.1.pool.Bounded options) ∧ final.pool.Bounded options := by
  induction run with
  | nil => exact ⟨nofun, fun max _ => Nat.zero_le max⟩
  | snoc _ step before =>
      obtain ⟨states, last⟩ := before
      obtain ⟨same, step⟩ := step
      refine ⟨fun entry member => ?_, step.bounded last⟩
      cases List.mem_append.mp member with
      | inl earlier => exact states entry earlier
      | inr here =>
          cases List.mem_singleton.mp here
          exact same ▸ last

theorem run_final {final : PoolState κ}
    (run : Run (Traced (PoolStep options)) ({} : PoolState κ) trace final)
    (inTime : ∀ entry ∈ trace, InTime entry) : ShutdownIsFinal trace final := by
  induction run with
  | nil => exact ⟨nofun, nofun⟩
  | @snoc trace middle final entry _ step ih =>
      obtain ⟨states, down⟩ := ih fun entry member => inTime entry (List.mem_append_left _ member)
      obtain ⟨same, step⟩ := step
      have last : InTime (middle, entry.2) := same ▸ inTime entry (by simp)
      refine ⟨fun other member shut => ?_, step.shutDown last down⟩
      cases List.mem_append.mp member with
      | inl earlier => exact states other earlier shut
      | inr here =>
          cases List.mem_singleton.mp here
          rw [same] at shut ⊢
          exact ⟨down shut, step.not_adds last shut⟩

/-- In every run the pool stays within its limit, and shutting it down is final
exactly if no call of `add_relay` gets the lock on a pool that has been shut
down. -/
theorem run_shutdown {final : PoolState κ} (options : PoolOptions)
    (run : Run (Traced (PoolStep options)) ({} : PoolState κ) trace final) :
    ((∀ entry ∈ trace, entry.1.pool.Bounded options) ∧ final.pool.Bounded options) ∧
      (ShutdownIsFinal trace final ↔ ∀ entry ∈ trace, InTime entry) := by
  refine ⟨run_bounded run, fun isFinal entry member result calls call act locking => ?_,
    run_final run⟩
  have steps : ∀ entry ∈ trace, ∃ state', PoolStep options entry.1 entry.2 state' :=
    run.label_of_step fun _ _ _ step => ⟨_, step.1.symm ▸ step.2⟩
  obtain ⟨_, step⟩ := steps entry member
  by_contra late
  have shut : entry.1.pool.isShutdown = true := by simpa using late
  obtain ⟨empty, unadded⟩ := isFinal.1 entry member shut
  exact unadded (step.adds_of_late act locking empty)

def sampleUrl : RelayUrl := ⟨"wss://relay.example"⟩

def sampleAdd : AddRelay := ⟨sampleUrl, RelayCapabilities.read.union .write, true⟩

/-- The task `true` adds a relay, and `false` shuts the pool down. -/
theorem run_shutdown_add : ∃ (trace : List (PoolState Bool × PoolLabel Bool))
    (final : PoolState Bool), final.pool.isShutdown = true ∧ final.pool.relays.len = 0 ∧
      (ShutdownIsFinal trace final ↔ ∀ entry ∈ trace, InTime entry) := by
  have run : Run (Traced (PoolStep {})) ({} : PoolState Bool) [] {} := .nil
  have run := run.trace (.add sampleAdd rfl : PoolStep {} _ ⟨true, .start⟩ _)
  have run := run.trace (.check rfl rfl : PoolStep {} _ ⟨true, .check⟩ _)
  have run := run.trace (.enter rfl : PoolStep {} _ ⟨true, .enter⟩ _)
  have run := run.trace (.addRelay rfl : PoolStep {} _ ⟨true, .added _ _⟩ _)
  have run := run.trace (.call .shutdown rfl : PoolStep {} _ ⟨false, .start⟩ _)
  have run := run.trace (.locked rfl : PoolStep {} _ ⟨false, .called _⟩ _)
  exact ⟨_, _, rfl, by decide +kernel, (run_shutdown {} run).2⟩

/-- The policy is asked while the pool is shut down; then the relay is added and
asked to connect. -/
theorem run_shutdown_late : ∃ (trace : List (PoolState Bool × PoolLabel Bool))
    (final : PoolState Bool),
      Run (Traced (PoolStep { admitPolicy := true })) ({} : PoolState Bool) trace final ∧
        final.pool.isShutdown = true ∧ final.pool.relays.get? sampleUrl =
          some (RelayCapabilities.read.union .write) ∧ ¬ ShutdownIsFinal trace final := by
  have run : Run (Traced (PoolStep { admitPolicy := true })) ({} : PoolState Bool) [] {} := .nil
  have run := run.trace (.add sampleAdd rfl : PoolStep _ _ ⟨true, .start⟩ _)
  have run := run.trace (.check rfl rfl : PoolStep _ _ ⟨true, .check⟩ _)
  have run := run.trace (.call .shutdown rfl : PoolStep _ _ ⟨false, .start⟩ _)
  have run := run.trace (.locked rfl : PoolStep _ _ ⟨false, .called _⟩ _)
  have run := run.trace (.enter rfl : PoolStep _ _ ⟨true, .enter⟩ _)
  have run := run.trace (.addRelay rfl : PoolStep _ _ ⟨true, .added _ _⟩ _)
  refine ⟨_, _, run, rfl, by decide +kernel, fun isFinal => ?_⟩
  have empty := congrArg SortedTable.len (isFinal.2 rfl)
  exact absurd empty (by decide +kernel)

end Runs

end RustNostr.NostrSdk
