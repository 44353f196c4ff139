import Mathlib

/-! A fair lock with one permit. Who asks for it stands in a queue, and the head
of the queue has it: an owner that leaves hands the permit to the next one, so
that the lock is free only when nobody has it or waits for it. -/

set_option autoImplicit false

namespace RustNostr.Library

structure FifoLock (τ : Type) where
  queue : List τ
  distinct : queue.Nodup

namespace FifoLock

variable {τ : Type}

def free : FifoLock τ := ⟨[], .nil⟩

instance : Inhabited (FifoLock τ) := ⟨free⟩

instance : Membership τ (FifoLock τ) := ⟨fun lock party => party ∈ lock.queue⟩

def owner (lock : FifoLock τ) : Option τ := lock.queue.head?

def isFree (lock : FifoLock τ) : Bool := lock.queue.isEmpty

variable [DecidableEq τ]

/-- Who is in the queue already keeps the place it has. -/
def request (lock : FifoLock τ) (party : τ) : FifoLock τ :=
  if member : party ∈ lock.queue then lock
  else ⟨lock.queue ++ [party], List.nodup_append.mpr ⟨lock.distinct, List.nodup_singleton _, by
    intro other earlier last same
    cases List.mem_singleton.mp same
    rintro rfl
    exact member earlier⟩⟩

/-- The owner gives the permit back, or a waiting party gives up. -/
def leave (lock : FifoLock τ) (party : τ) : FifoLock τ :=
  ⟨lock.queue.erase party, lock.distinct.erase party⟩

variable {lock : FifoLock τ} {party other : τ}

omit [DecidableEq τ] in
theorem mem_def : party ∈ lock ↔ party ∈ lock.queue := Iff.rfl

omit [DecidableEq τ] in
@[simp] theorem not_mem_free : party ∉ (free : FifoLock τ) := List.not_mem_nil

omit [DecidableEq τ] in
theorem isFree_iff : lock.isFree ↔ ∀ party, party ∉ lock := by
  simp only [isFree, List.isEmpty_iff, mem_def, List.eq_nil_iff_forall_not_mem]

omit [DecidableEq τ] in
theorem mem_of_owner (owns : lock.owner = some party) : party ∈ lock :=
  List.mem_of_head? owns

omit [DecidableEq τ] in
/-- Where somebody waits, somebody has the permit. -/
theorem exists_owner (member : party ∈ lock) : ∃ owner, lock.owner = some owner := by
  cases queue : lock.queue with
  | nil => rw [mem_def, queue] at member; cases member
  | cons first rest => exact ⟨first, by rw [owner, queue]; rfl⟩

@[simp] theorem mem_request : other ∈ lock.request party ↔ other ∈ lock ∨ other = party := by
  by_cases member : party ∈ lock.queue
  · simp only [mem_def, request, member, dite_true, iff_self_or]
    rintro rfl
    exact member
  · simp [mem_def, request, member]

@[simp] theorem mem_leave : other ∈ lock.leave party ↔ other ∈ lock ∧ other ≠ party := by
  rw [mem_def, leave, lock.distinct.mem_erase_iff, and_comm]
  rfl

theorem owner_request (owns : lock.owner = some other) : (lock.request party).owner = some other := by
  by_cases member : party ∈ lock.queue
  · simpa only [request, member, dite_true] using owns
  · simp only [owner, request, member, dite_false, List.head?_append] at owns ⊢
    rw [owns]
    rfl

theorem owner_leave (owns : lock.owner = some other) (different : other ≠ party) :
    (lock.leave party).owner = some other := by
  cases queue : lock.queue with
  | nil => rw [owner, queue] at owns; cases owns
  | cons first rest =>
      rw [owner, queue] at owns
      cases owns
      simp [owner, leave, queue, different]

end FifoLock

end RustNostr.Library
