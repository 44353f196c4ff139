import Mathlib
import RustNostr.Library.Termination
import RustNostr.Nostr.PowMining

/-!
# What the miners return

The multi-thread miner returns an event that one of its threads has found, or nothing after
it was cancelled, and its fallback is never reached. No nonce is tried twice. Once one of the
flags is set, the threads and the miner come to their ends.
-/

set_option autoImplicit false

namespace RustNostr.Nip13

open Library

/-! ## One thread -/

section Single

variable {attempt : Nat → Option (Option UnsignedEvent)} {cancelled : Nat → Bool} {turns nonce : Nat}
  {event : UnsignedEvent}

theorem singleTurn_returned_some : singleTurn attempt (cancelled nonce) nonce = .returned (some event) ↔
    (nonce % 1024 = 0 → cancelled nonce = false) ∧ nonce + 1 ≤ greatestNonce ∧
      attempt (nonce + 1) = some (some event) := by
  rw [singleTurn]
  split
  next quits => simp [quits]
  next goesOn =>
    have goesOn : nonce % 1024 = 0 → cancelled nonce = false := by simpa using goesOn
    split
    next large =>
      have large : ¬ nonce + 1 ≤ greatestNonce := by simpa [Checked.atMost] using large
      simp [large]
    next following sum =>
      obtain ⟨fits, rfl⟩ := Checked.atMost_eq_some.mp sum
      split
      next tried => simp [tried]
      next tried => simp [tried]
      next tried => simpa [tried, fits] using fun _ => goesOn

theorem singleTurn_next {following : Nat} : singleTurn attempt (cancelled nonce) nonce = .next following ↔
    (nonce % 1024 = 0 → cancelled nonce = false) ∧ nonce + 1 ≤ greatestNonce ∧
      attempt (nonce + 1) = some none ∧ nonce + 1 = following := by
  rw [singleTurn]
  split
  next quits => simp [quits]
  next goesOn =>
    have goesOn : nonce % 1024 = 0 → cancelled nonce = false := by simpa using goesOn
    split
    next large =>
      have large : ¬ nonce + 1 ≤ greatestNonce := by simpa [Checked.atMost] using large
      simp [large]
    next following sum =>
      obtain ⟨fits, rfl⟩ := Checked.atMost_eq_some.mp sum
      split
      next tried => simp [tried]
      next tried => simpa [tried, fits] using fun _ => goesOn
      next tried => simp [tried]

theorem singleLoop_succ : singleLoop attempt cancelled (turns + 1) nonce = .returned (some event) ↔
    singleTurn attempt (cancelled nonce) nonce = .returned (some event) ∨
      singleTurn attempt (cancelled nonce) nonce = .next (nonce + 1) ∧
        singleLoop attempt cancelled turns (nonce + 1) = .returned (some event) := by
  cases turn : singleTurn attempt (cancelled nonce) nonce with
  | panicked => simp [singleLoop, turn]
  | returned result => simp [singleLoop, turn]
  | next following =>
      obtain ⟨_, _, _, rfl⟩ := singleTurn_next.mp turn
      simp [singleLoop, turn]

theorem singleLoop_returned_some : singleLoop attempt cancelled turns nonce = .returned (some event) ↔
    ∃ count < turns,
      singleTurn attempt (cancelled (nonce + count)) (nonce + count) = .returned (some event) ∧
        ∀ earlier < count,
          singleTurn attempt (cancelled (nonce + earlier)) (nonce + earlier) = .next (nonce + earlier + 1) := by
  induction turns generalizing nonce with
  | zero => simp [singleLoop]
  | succ turns ih => rw [singleLoop_succ, ih, exists_first_succ
      (fun here => singleTurn attempt (cancelled here) here = .returned (some event))
      (fun here => singleTurn attempt (cancelled here) here = .next (here + 1))]

/-- The miner with one thread returns the event of the least nonce that works, unless a load
of the flag cancels before. -/
theorem singleLoop_least : singleLoop attempt cancelled turns 0 = .returned (some event) ↔
    ∃ count < turns, stride 1 0 count ≤ greatestNonce ∧ Missed attempt 1 0 count ∧
      attempt (stride 1 0 count) = some (some event) ∧
      ∀ load ≤ count, load % 1024 = 0 → cancelled load = false := by
  have strides : ∀ count, stride 1 0 count = count + 1 := fun count => by simp [stride]
  simp only [singleLoop_returned_some, singleTurn_returned_some, singleTurn_next, Missed, strides, Nat.zero_add]
  constructor
  · rintro ⟨count, inside, ⟨load, fits, hit⟩, before⟩
    refine ⟨count, inside, fits, fun earlier below => (before earlier below).2.2.1, hit, fun other most => ?_⟩
    rcases Nat.lt_or_eq_of_le most with below | rfl
    · exact (before other below).1
    · exact load
  · rintro ⟨count, inside, fits, missed, hit, loads⟩
    refine ⟨count, inside, ⟨loads count (Nat.le_refl _), fits, hit⟩, fun earlier below => ?_⟩
    exact ⟨loads earlier (Nat.le_of_lt below), by omega, missed earlier below, trivial⟩

end Single

/-! ## Many threads -/

section Many

variable {attempt : Nat → Option (Option UnsignedEvent)} {numThreads thread : Nat} {mining after : Mining}
  {act : Act} {trace : List (Mining × Act)}

/-- Neither a step of a thread nor a join is left. -/
inductive Worker.Ended : Worker → Prop where
  | returned (result : Option UnsignedEvent) : Ended (returned result)
  | panicked : Ended panicked

theorem Worker.Ended.step_eq_none {worker : Worker} {found cancel : Bool} (ended : worker.Ended) :
    worker.step attempt numThreads found cancel = none := by
  cases ended with
  | returned result => rfl
  | panicked => rfl

/-- What a step never takes back. -/
structure Later (mining after : Mining) : Prop where
  found : mining.found = true → after.found = true
  cancel : mining.cancel = true → after.cancel = true
  ended : ∀ (thread : Nat) (worker : Worker), mining.workers[thread]? = some worker → worker.Ended →
    after.workers[thread]? = some worker

theorem later_stepWorker (stepped : mining.stepWorker attempt numThreads thread = some after) :
    Later mining after := by
  obtain ⟨worker, next, found, here, moved, rfl⟩ := stepWorker_eq_some.mp stepped
  refine ⟨fun was => ?_, id, fun other ended there isEnded => ?_⟩
  · rcases Worker.step_found moved with same | ⟨stored, _⟩
    · exact same.trans was
    · exact stored
  · by_cases same : thread = other
    · subst same
      cases here.symm.trans there
      rw [isEnded.step_eq_none] at moved
      cases moved
    · exact (List.getElem?_set_ne same).trans there

theorem later_stepMain (stepped : mining.stepMain attempt numThreads = some after) : Later mining after := by
  obtain ⟨found, cancel, workers⟩ := stepMain_workers stepped
  refine ⟨fun was => found.trans was, fun was => cancel.trans was, fun thread worker here _ => ?_⟩
  rcases workers with same | ⟨_, spawned⟩
  · exact same ▸ here
  · rw [spawned, List.getElem?_append_left (List.getElem?_eq_some_iff.mp here).1]
    exact here

theorem later_step (stepped : mining.step attempt numThreads act = some after) : Later mining after := by
  cases act with
  | main => exact later_stepMain stepped
  | worker thread => exact later_stepWorker stepped
  | cancel =>
      simp only [Mining.step] at stepped
      split at stepped
      next => cases stepped
      next => cases stepped; exact ⟨fun was => was, fun _ => rfl, fun _ _ here _ => here⟩

/-- A thread has ended without an event. -/
def Empty (mining : Mining) (thread : Nat) : Prop :=
  mining.workers[thread]? = some (.returned none) ∨ mining.workers[thread]? = some .panicked

/-- Where `mine` is, and what the flags and the threads are then. -/
def Main.At (numThreads : Nat) (mining : Mining) : Main → Prop
  | spawning => True
  | pollFound | pollCancel => mining.workers.length = numThreads
  | loadFound => mining.workers.length = numThreads ∧ (mining.found = true ∨ mining.cancel = true)
  | joining position => mining.workers.length = numThreads ∧ mining.found = true ∧
      ∀ earlier < position, Empty mining earlier
  | returned (some event) => ∃ thread : Nat, mining.workers[thread]? = some (.returned (some event))
  | returned none => mining.cancel = true
  | fallback _ | panicked => False

/-- The flag `found` is set by a thread that has returned an event. -/
structure Sound (numThreads : Nat) (mining : Mining) : Prop where
  finder : mining.found = true → ∃ (thread : Nat) (event : UnsignedEvent),
    mining.workers[thread]? = some (.returned (some event))
  few : mining.workers.length ≤ numThreads
  main : mining.main.At numThreads mining

theorem Empty.later {earlier : Nat} (empty : Empty mining earlier) (later : Later mining after) :
    Empty after earlier :=
  empty.imp (fun here => later.ended _ _ here (.returned none)) fun here => later.ended _ _ here .panicked

/-- What is said of where `mine` is holds on while others take their steps. -/
theorem Main.At.later {main : Main} (here : main.At numThreads mining) (later : Later mining after)
    (same : after.workers.length = mining.workers.length) : main.At numThreads after := by
  cases main with
  | spawning => trivial
  | pollFound => exact same.trans here
  | pollCancel => exact same.trans here
  | loadFound => exact ⟨same.trans here.1, here.2.imp later.found later.cancel⟩
  | joining position =>
      exact ⟨same.trans here.1, later.found here.2.1, fun earlier before => (here.2.2 earlier before).later later⟩
  | fallback nonce => exact here
  | panicked => exact here
  | returned result =>
      cases result with
      | none => exact later.cancel here
      | some event =>
          obtain ⟨thread, found⟩ := here
          exact ⟨thread, later.ended _ _ found (.returned _)⟩

theorem Sound.stepWorker (sound : Sound numThreads mining)
    (stepped : mining.stepWorker attempt numThreads thread = some after) : Sound numThreads after := by
  have later := later_stepWorker stepped
  obtain ⟨worker, next, found, here, moved, rfl⟩ := stepWorker_eq_some.mp stepped
  have inside : thread < mining.workers.length := (List.getElem?_eq_some_iff.mp here).1
  refine ⟨fun isFound => ?_, ?_, sound.main.later later (by simp)⟩
  · rcases Worker.step_found moved with same | ⟨_, event, rfl⟩
    · obtain ⟨finder, event, hit⟩ := sound.finder (same.symm.trans isFound)
      exact ⟨finder, event, later.ended _ _ hit (.returned _)⟩
    · exact ⟨thread, event, List.getElem?_set_self inside⟩
  · simpa using sound.few

/-- The join loop finds the thread that has found an event. -/
theorem Sound.joining (sound : Sound numThreads mining) {position : Nat}
    (here : mining.main = .joining position) :
    ∃ (thread : Nat) (event : UnsignedEvent), position ≤ thread ∧ thread < mining.workers.length ∧
      mining.workers[thread]? = some (.returned (some event)) := by
  have joins := sound.main
  rw [here] at joins
  obtain ⟨_, found, empty⟩ := joins
  obtain ⟨thread, event, hit⟩ := sound.finder found
  refine ⟨thread, event, ?_, (List.getElem?_eq_some_iff.mp hit).1, hit⟩
  by_contra before
  rcases empty thread (by omega) with none | panicked
  · rw [hit] at none
    cases none
  · rw [hit] at panicked
    cases panicked

theorem Sound.stepMain (sound : Sound numThreads mining)
    (stepped : mining.stepMain attempt numThreads = some after) : Sound numThreads after := by
  have later := later_stepMain stepped
  obtain ⟨found, cancel, workers⟩ := stepMain_workers stepped
  refine ⟨fun isFound => ?_, ?_, ?_⟩
  · obtain ⟨finder, event, hit⟩ := sound.finder (found.symm.trans isFound)
    exact ⟨finder, event, later.ended _ _ hit (.returned _)⟩
  · rcases workers with same | ⟨more, spawned⟩
    · exact same ▸ sound.few
    · rw [spawned]
      simpa using more
  · have here := sound.main
    unfold Mining.stepMain at stepped
    cases at_ : mining.main with
    | spawning =>
        simp only [at_] at stepped
        split at stepped
        next more =>
          cases stepped
          trivial
        next full =>
          cases stepped
          exact Nat.le_antisymm sound.few (Nat.not_lt.mp full)
    | pollFound =>
        simp only [at_, Option.some.injEq] at stepped here
        subst stepped
        cases flag : mining.found with
        | false => exact here
        | true => exact ⟨here, .inl rfl⟩
    | pollCancel =>
        simp only [at_, Option.some.injEq] at stepped here
        subst stepped
        cases flag : mining.cancel with
        | false => exact here
        | true => exact ⟨here, .inr rfl⟩
    | loadFound =>
        simp only [at_, Option.some.injEq] at stepped here
        subst stepped
        obtain ⟨full, flagged⟩ := here
        cases flag : mining.found with
        | false =>
            rw [flag] at flagged
            exact flagged.resolve_left nofun
        | true => exact ⟨full, rfl, fun _ below => absurd below (Nat.not_lt_zero _)⟩
    | joining position =>
        obtain ⟨finder, event, before, inside, hit⟩ := sound.joining at_
        simp only [at_] at stepped here
        obtain ⟨full, isFound, empty⟩ := here
        have next : Empty mining position →
            (Main.joining (position + 1)).At numThreads { mining with main := .joining (position + 1) } := by
          refine fun last => ⟨full, isFound, fun earlier below => ?_⟩
          rcases Nat.lt_succ_iff_lt_or_eq.mp below with old | rfl
          · exact empty earlier old
          · exact last
        split at stepped
        next none =>
          rw [List.getElem?_eq_none_iff] at none
          omega
        next event here =>
          cases stepped
          exact ⟨position, here⟩
        next here =>
          cases stepped
          exact next (.inl here)
        next here =>
          cases stepped
          exact next (.inr here)
        next => cases stepped
    | fallback nonce =>
        rw [at_] at here
        exact False.elim here
    | returned result =>
        rw [at_] at stepped
        cases stepped
    | panicked =>
        rw [at_] at stepped
        cases stepped

theorem Sound.step (sound : Sound numThreads mining)
    (stepped : mining.step attempt numThreads act = some after) : Sound numThreads after := by
  cases act with
  | main => exact sound.stepMain stepped
  | worker thread => exact sound.stepWorker stepped
  | cancel =>
      have later := later_step stepped
      simp only [Mining.step] at stepped
      split at stepped
      next => cases stepped
      next =>
        cases stepped
        exact ⟨sound.finder, sound.few, sound.main.later later rfl⟩

theorem sound_start : Sound numThreads .start := ⟨nofun, Nat.zero_le _, trivial⟩

theorem sound_of_run (run : Mines attempt numThreads .start trace mining) : Sound numThreads mining :=
  run.state_invariant sound_start fun _ _ _ sound stepped => sound.step stepped.2

/-- The flag is set by a call that cancels. -/
theorem cancel_of_run (run : Mines attempt numThreads .start trace mining) (cancelled : mining.cancel = true) :
    ∃ before, (before, Act.cancel) ∈ trace := by
  induction run with
  | nil => simp [Mining.start] at cancelled
  | @snoc trace _ after label before last earlier =>
  obtain ⟨mining, act⟩ := label
  obtain ⟨rfl, stepped⟩ := last
  have old : mining.cancel = true → ∃ before, (before, Act.cancel) ∈ trace ++ [(mining, act)] := by
    intro was
    obtain ⟨before, member⟩ := earlier was
    exact ⟨before, List.mem_append_left _ member⟩
  cases act with
  | main => exact old ((stepMain_workers stepped).2.1 ▸ cancelled)
  | worker thread =>
      obtain ⟨worker, next, found, _, _, rfl⟩ := stepWorker_eq_some.mp stepped
      exact old cancelled
  | cancel => exact ⟨mining, by simp⟩

/-! ## No nonce twice -/

theorem stride_mod {count : Nat} (inside : thread < numThreads) :
    stride numThreads thread count % numThreads = thread := by
  rw [stride, Nat.add_mul_mod_self_left, Nat.mod_eq_of_lt inside]

theorem stride_injective (inside : thread < numThreads) : Function.Injective (stride numThreads thread) := by
  intro left right same
  have products : numThreads * (left + 1) = numThreads * (right + 1) := Nat.add_left_cancel same
  have := Nat.eq_of_mul_eq_mul_left (Nat.zero_lt_of_lt inside) products
  omega

theorem le_stride (count : Nat) : numThreads ≤ stride numThreads thread count :=
  (Nat.le_mul_of_pos_right _ (Nat.succ_pos count)).trans (Nat.le_add_left _ _)

theorem mem_attempts {nonce : Nat} : (thread, nonce) ∈ attempts trace ↔ nonce ∈ noncesOf trace thread := by
  simp [noncesOf, List.mem_filterMap]

theorem Threads.lt_of_mem (threads : Threads attempt numThreads trace mining) {nonce : Nat}
    (tried : nonce ∈ noncesOf trace thread) : thread < numThreads := by
  by_contra beyond
  have none := threads.spawned thread (threads.few.trans (Nat.not_lt.mp beyond))
  rw [none] at tried
  cases tried

/-- An attempt of a run is the next of its thread's stride, and so no earlier attempt. -/
theorem fresh_attempt {nonce : Nat} {worker : Worker} (threads : Threads attempt numThreads trace mining)
    (here : mining.workers[thread]? = some worker) (tries : worker.nonce = some nonce) :
    ∀ other earlier, (other, earlier) ∈ attempts trace → earlier ≠ nonce := by
  rintro other earlier member rfl
  have inside : thread < numThreads :=
    Nat.lt_of_lt_of_le (List.getElem?_eq_some_iff.mp here).1 threads.few
  have tried := mem_attempts.mp member
  have otherInside := threads.lt_of_mem tried
  have current := (threads.after thread worker here).nonce_eq
  rw [tries] at current
  have current : earlier = stride numThreads thread (noncesOf trace thread).length := by simpa using current
  rw [threads.tried other] at tried
  obtain ⟨count, below, same⟩ := List.mem_map.mp tried
  have owner : other = thread := by
    rw [← @stride_mod _ _ count otherInside, same, current, stride_mod inside]
  subst owner
  have := stride_injective inside (same.trans current)
  rw [List.mem_range] at below
  omega

theorem attempts_snoc (trace : List (Mining × Act)) (label : Mining × Act) :
    attempts (trace ++ [label]) = attempts trace ++ (attemptOf label).toList := by
  cases tried : attemptOf label <;> simp [attempts, tried]

theorem attempts_nodup (run : Mines attempt numThreads .start trace mining) :
    ((attempts trace).map Prod.snd).Nodup := by
  induction run with
  | nil => exact List.nodup_nil
  | @snoc trace mining after label before last fresh =>
      obtain ⟨_, act⟩ := label
      obtain ⟨rfl, stepped⟩ := last
      rw [attempts_snoc, List.map_append]
      refine fresh.append (by cases attemptOf _ <;> simp) ?_
      cases act with
      | main => exact List.disjoint_nil_right _
      | cancel => exact List.disjoint_nil_right _
      | worker thread =>
          obtain ⟨worker, next, found, here, _, _⟩ := stepWorker_eq_some.mp stepped
          cases tries : worker.nonce with
          | none => simp [attemptOf, here, tries]
          | some nonce =>
              simp only [attemptOf, here, tries, Option.bind_eq_bind, Option.bind_some, Option.pure_def,
                Option.toList_some, List.map_cons, List.map_nil, List.disjoint_singleton, List.mem_map, not_exists,
                not_and]
              rintro ⟨other, earlier⟩ member
              exact fresh_attempt (threads_of_run before) here tries other earlier member

/-! ## Once a flag is set -/

/-- How many steps of a thread are left, at most, once a flag is set. -/
def Worker.left (numThreads : Nat) (cancel : Bool) : Worker → Nat
  | top nonce => 3 * (1023 - nonce / numThreads % 1024) + 3
  | loadFound _ => 2
  | loadCancel nonce => if cancel then 1 else 3 * (1023 - nonce / numThreads % 1024) + 6
  | trying nonce => 3 * (1023 - nonce / numThreads % 1024) + 5
  | storing _ => 1
  | returned _ | panicked => 0

def Main.left (numThreads : Nat) (cancel : Bool) (threads : Nat) : Main → Nat
  | spawning => (numThreads - threads) * 3073 + numThreads + 6
  | pollCancel => if cancel then numThreads + 3 else numThreads + 5
  | pollFound => numThreads + 4
  | loadFound => numThreads + 2
  | joining position => numThreads - position + 1
  | fallback _ | returned _ | panicked => 0

def Mining.left (numThreads : Nat) (mining : Mining) : Nat :=
  (mining.workers.map (Worker.left numThreads mining.cancel)).sum +
    mining.main.left numThreads mining.cancel mining.workers.length + (if mining.cancel then 0 else 1)

theorem Worker.left_le (worker : Worker) (cancel : Bool) : worker.left numThreads cancel ≤ 3075 := by
  cases worker <;> simp only [left] <;> (try split) <;> omega

theorem Worker.left_cancelled (worker : Worker) : worker.left numThreads true ≤ worker.left numThreads false := by
  cases worker <;> simp [left]

/-- A step of a thread while a flag is set leaves fewer. -/
theorem Worker.step_left {worker next : Worker} {found cancel found' : Bool} (positive : 0 < numThreads)
    (flagged : found = true ∨ cancel = true)
    (stepped : worker.step attempt numThreads found cancel = some (next, found')) :
    next.left numThreads cancel < worker.left numThreads cancel := by
  cases worker with
  | top nonce =>
      rw [step] at stepped
      cases sum : Checked.atMost greatestNonce (nonce + numThreads) with
      | none =>
        rw [sum] at stepped
        cases stepped
        exact Nat.succ_pos _
      | some following =>
        rw [sum] at stepped
        obtain ⟨_, rfl⟩ := Checked.atMost_eq_some.mp sum
        have quotient : (nonce + numThreads) / numThreads = nonce / numThreads + 1 :=
          Nat.add_div_right nonce positive
        cases stepped
        rw [quotient]
        split
        · simp only [left]
          omega
        · simp only [left, quotient]
          omega
  | loadFound nonce =>
      cases stepped
      cases found with
      | true => exact Nat.succ_pos _
      | false =>
          cases flagged.resolve_left Bool.false_ne_true
          exact Nat.lt_succ_self _
  | loadCancel nonce =>
      cases stepped
      cases cancel with
      | true => exact Nat.succ_pos _
      | false => exact Nat.lt_succ_self _
  | trying nonce =>
      rw [step] at stepped
      cases tried : attempt nonce with
      | none =>
        rw [tried] at stepped
        cases stepped
        exact Nat.succ_pos _
      | some hit =>
        rw [tried] at stepped
        cases hit <;> cases stepped <;> simp only [left] <;> omega
  | storing event =>
      cases stepped
      exact Nat.succ_pos _
  | returned result => cases stepped
  | panicked => cases stepped

def Mining.Flagged (mining : Mining) : Prop := mining.found = true ∨ mining.cancel = true

theorem left_stepWorker (positive : 0 < numThreads) (flagged : mining.Flagged)
    (stepped : mining.stepWorker attempt numThreads thread = some after) :
    after.left numThreads < mining.left numThreads := by
  obtain ⟨worker, next, found, here, moved, rfl⟩ := stepWorker_eq_some.mp stepped
  have less := Worker.step_left positive flagged moved
  have sum := sum_set_add (Worker.left numThreads mining.cancel) here next
  simp only [Mining.left, List.length_set]
  omega

theorem left_stepMain (flagged : mining.Flagged) (sound : Sound numThreads mining)
    (stepped : mining.stepMain attempt numThreads = some after) :
    after.left numThreads < mining.left numThreads := by
  have here := sound.main
  unfold Mining.stepMain at stepped
  cases at_ : mining.main with
  | spawning =>
      simp only [at_] at stepped
      split at stepped
      next more =>
        cases stepped
        have first : (Worker.top mining.workers.length).left numThreads mining.cancel ≤ 3072 := by
          simp only [Worker.left]
          omega
        simp only [Mining.left, at_, Main.left, List.map_append, List.map_cons, List.map_nil, List.sum_append,
          List.sum_singleton, List.length_append, List.length_singleton]
        have spawns : (numThreads - mining.workers.length) * 3073 =
            (numThreads - (mining.workers.length + 1)) * 3073 + 3073 := by
          rw [← Nat.succ_mul]
          congr 1
          omega
        omega
      next =>
        cases stepped
        simp only [Mining.left, at_, Main.left]
        omega
  | pollFound =>
      simp only [at_, Option.some.injEq] at stepped
      subst stepped
      cases flag : mining.found with
      | true =>
          simp only [Mining.left, at_, Main.left, if_true]
          omega
      | false =>
          have cancelled : mining.cancel = true := flagged.resolve_left (by simp [flag])
          simp only [Mining.left, at_, Main.left, cancelled, if_true, Bool.false_eq_true, if_false]
          omega
  | pollCancel =>
      simp only [at_, Option.some.injEq] at stepped
      subst stepped
      cases flag : mining.cancel with
      | true =>
          simp only [Mining.left, at_, Main.left, flag, if_true]
          omega
      | false =>
          simp only [Mining.left, at_, Main.left, flag, Bool.false_eq_true, if_false]
          omega
  | loadFound =>
      simp only [at_, Option.some.injEq] at stepped
      subst stepped
      cases flag : mining.found with
      | true =>
          simp only [Mining.left, at_, Main.left, if_true]
          omega
      | false =>
          simp only [Mining.left, at_, Main.left, Bool.false_eq_true, if_false]
          omega
  | joining position =>
      obtain ⟨finder, _, before, inside, _⟩ := sound.joining at_
      have few := sound.few
      have next : ({ mining with main := .joining (position + 1) } : Mining).left numThreads <
          mining.left numThreads := by
        simp only [Mining.left, at_, Main.left]
        omega
      simp only [at_] at stepped
      split at stepped
      next none =>
        rw [List.getElem?_eq_none_iff] at none
        omega
      next =>
        cases stepped
        simp only [Mining.left, at_, Main.left]
        omega
      next =>
        cases stepped
        exact next
      next =>
        cases stepped
        exact next
      next => cases stepped
  | fallback nonce =>
      rw [at_] at here
      exact False.elim here
  | returned result =>
      rw [at_] at stepped
      cases stepped
  | panicked =>
      rw [at_] at stepped
      cases stepped

theorem left_step (positive : 0 < numThreads) (flagged : mining.Flagged) (sound : Sound numThreads mining)
    (stepped : mining.step attempt numThreads act = some after) :
    after.left numThreads < mining.left numThreads := by
  cases act with
  | main => exact left_stepMain flagged sound stepped
  | worker thread => exact left_stepWorker positive flagged stepped
  | cancel =>
      simp only [Mining.step] at stepped
      split at stepped
      next => cases stepped
      next running =>
        cases stepped
        have running : mining.cancel = false := by simpa using running
        have workers : (mining.workers.map (Worker.left numThreads true)).sum ≤
            (mining.workers.map (Worker.left numThreads false)).sum :=
          List.sum_le_sum fun worker _ => worker.left_cancelled
        have main : mining.main.left numThreads true mining.workers.length ≤
            mining.main.left numThreads false mining.workers.length := by
          cases mining.main <;> simp [Main.left]
        simp only [Mining.left, running, if_true, Bool.false_eq_true, if_false]
        omega

theorem left_le (sound : Sound numThreads mining) : mining.left numThreads ≤ 3076 * numThreads + 7 := by
  have few := sound.few
  have workers := sum_le_of_forall (Worker.left numThreads mining.cancel) mining.workers
    fun worker _ => worker.left_le mining.cancel
  have main : mining.main.left numThreads mining.cancel mining.workers.length ≤
      (numThreads - mining.workers.length) * 3073 + numThreads + 6 := by
    cases mining.main <;> simp only [Main.left] <;> (try split) <;> omega
  have cancelled : (if mining.cancel then 0 else 1) ≤ 1 := by split <;> omega
  simp only [Mining.left]
  omega

/-- A thread that has not ended can take a step. -/
theorem Worker.ended_of_stuck {worker : Worker} {found cancel : Bool}
    (stuck : worker.step attempt numThreads found cancel = none) : worker.Ended := by
  cases worker with
  | returned result => exact .returned result
  | panicked => exact .panicked
  | top nonce =>
      simp only [step] at stuck
      split at stuck <;> cases stuck
  | trying nonce =>
      simp only [step] at stuck
      split at stuck <;> cases stuck
  | loadFound nonce => cases stuck
  | loadCancel nonce => cases stuck
  | storing event => cases stuck

theorem ended_of_stuck (stuck : ∀ act ≠ .cancel, mining.step attempt numThreads act = none) {worker : Worker}
    (here : mining.workers[thread]? = some worker) : worker.Ended := by
  have none := stuck (.worker thread) nofun
  simp only [Mining.step, Mining.stepWorker, here, Option.bind_eq_bind, Option.bind_some,
    Option.bind_eq_none_iff, Option.pure_def, reduceCtorEq, imp_false] at none
  exact Worker.ended_of_stuck (Option.eq_none_iff_forall_ne_some.mpr fun moved => none moved)

/-- Where nothing can take a step, `mine` has returned. -/
theorem returned_of_stuck (sound : Sound numThreads mining)
    (stuck : ∀ act ≠ .cancel, mining.step attempt numThreads act = none) :
    ∃ result, mining.main = .returned result := by
  have here := sound.main
  have main : mining.stepMain attempt numThreads = none := stuck .main nofun
  unfold Mining.stepMain at main
  cases at_ : mining.main with
  | returned result => exact ⟨result, rfl⟩
  | fallback nonce =>
      rw [at_] at here
      exact False.elim here
  | panicked =>
      rw [at_] at here
      exact False.elim here
  | spawning =>
      simp only [at_] at main
      split at main <;> cases main
  | pollFound =>
      rw [at_] at main
      cases main
  | pollCancel =>
      rw [at_] at main
      cases main
  | loadFound =>
      rw [at_] at main
      cases main
  | joining position =>
      simp only [at_] at main
      split at main
      next => cases main
      next => cases main
      next => cases main
      next => cases main
      next worker found empty panicked here =>
        cases ended_of_stuck stuck here with
        | panicked => exact absurd rfl panicked
        | returned result =>
            cases result with
            | none => exact absurd rfl empty
            | some event => exact absurd rfl (found event)

theorem finds_step (sound : Sound numThreads mining) (found : mining.found = true)
    (open_ : mining.main ≠ .returned none) (stepped : mining.step attempt numThreads act = some after) :
    after.main ≠ .returned none := by
  have here := sound.main
  cases act with
  | worker thread =>
      obtain ⟨worker, next, _, _, _, rfl⟩ := stepWorker_eq_some.mp stepped
      exact open_
  | cancel =>
      simp only [Mining.step] at stepped
      split at stepped
      next => cases stepped
      next =>
        cases stepped
        exact open_
  | main =>
      rw [Mining.step, Mining.stepMain] at stepped
      cases main : mining.main with
      | spawning =>
          simp only [main] at stepped
          split at stepped <;> cases stepped <;> simp
      | pollFound =>
          simp only [main, found] at stepped
          cases stepped
          simp
      | pollCancel =>
          simp only [main] at stepped
          cases stepped
          dsimp only
          split <;> simp
      | loadFound =>
          simp only [main, found] at stepped
          cases stepped
          simp
      | joining position =>
          simp only [main] at stepped
          cases joined : mining.workers[position]? with
          | none =>
              simp only [joined] at stepped
              cases stepped
              simp
          | some worker =>
              simp only [joined] at stepped
              cases worker with
              | returned result => cases result <;> cases stepped <;> simp
              | panicked =>
                  cases stepped
                  simp
              | _ => cases stepped
      | fallback nonce =>
          rw [main] at here
          exact False.elim here
      | returned result => simp only [main, reduceCtorEq] at stepped
      | panicked => simp only [main, reduceCtorEq] at stepped

end Many

/-! ## The miners -/

section Mine

variable {SecretKey : Type} (calls : KeyCalls SecretKey) (unsigned : UnsignedEvent) (difficulty : UInt8)
  (numThreads : Nat)

variable {calls unsigned difficulty numThreads} in
/-- What is returned is the first event of a thread's stride. -/
theorem mined_of_returned {trace : List (Mining × Act)} {mining : Mining} {event : UnsignedEvent}
    (run : Mines (tryNonce calls unsigned difficulty) numThreads .start trace mining)
    (returned : mining.main = .returned (some event)) : ∃ thread < numThreads, ∃ count,
      Mined calls unsigned difficulty event (stride numThreads thread count) ∧
      Missed (tryNonce calls unsigned difficulty) numThreads thread count := by
  have sound := sound_of_run run
  have here := sound.main
  rw [returned] at here
  obtain ⟨thread, found⟩ := here
  obtain ⟨count, _, missed, hit⟩ := (threads_of_run run).after thread _ found
  have inside := Nat.lt_of_lt_of_le (List.getElem?_eq_some_iff.mp found).1 sound.few
  exact ⟨thread, inside, count, mined_of_tryNonce hit, missed⟩

/-- In whatever order the threads take their steps, an event that `mine` returns carries the
first nonce that works of some thread's stride and the ID of all its fields, which signing
keeps; nothing is returned only to a call that cancels; and the fallback is not reached. -/
theorem mine_result {trace : List (Mining × Act)} {finish : Mining}
    (run : Mines (tryNonce calls unsigned difficulty) numThreads .start trace finish) :
    (∀ event, finish.main = .returned (some event) → ∃ thread < numThreads, ∃ count,
      Mined calls unsigned difficulty event (stride numThreads thread count) ∧
      Missed (tryNonce calls unsigned difficulty) numThreads thread count ∧
      ∀ aux secretKey signed, signEvent calls secretKey aux event = .ok signed →
        event.id = some signed.id ∧ signed.Verified calls.externals calls.crypto ∧
          checkPow signed.id difficulty = some true ∧
          Tag.pow (stride numThreads thread count) difficulty ∈ signed.tags) ∧
    (finish.main = .returned none → ∃ before, (before, Act.cancel) ∈ trace) ∧
    (∀ nonce, finish.main ≠ .fallback nonce) ∧ finish.main ≠ .panicked := by
  have here := (sound_of_run run).main
  refine ⟨fun event returned => ?_, fun returned => ?_, fun nonce fallback => ?_, fun panicked => ?_⟩
  · obtain ⟨thread, inside, count, mined, missed⟩ := mined_of_returned run returned
    exact ⟨thread, inside, count, mined, missed, fun _ _ _ signing => mined.signed signing⟩
  · rw [returned] at here
    exact cancel_of_run run here
  · rw [fallback] at here
    exact here
  · rw [panicked] at here
    exact here

/-- A note that two threads mine, where the hash of every event begins with six zero bits. -/
def sampleAttempt : Nat → Option (Option UnsignedEvent) :=
  tryNonce (plainCalls sampleSeal sampleNoteWithId) sampleNote 6

/-- Both threads are spawned, and the first finds an event. -/
def findingSchedule : List Act := [.main, .main, .worker 0, .main, .worker 0, .worker 0]

def joiningSchedule : List Act := [.main, .main, .main]

def minedNote : UnsignedEvent :=
  { withNonce sampleNote 6 2 with id := some (.replicate 32 2) }

theorem follow_sample : ∃ trace finish,
    Mining.start.follow sampleAttempt 2 (findingSchedule ++ joiningSchedule) = some (trace, finish) ∧
      finish.main = .returned (some minedNote) :=
  ⟨_, _, rfl, rfl⟩

theorem mine_result_note : ∃ thread < 2, ∃ count,
    Mined (plainCalls sampleSeal sampleNoteWithId) sampleNote 6 minedNote (stride 2 thread count) := by
  obtain ⟨trace, finish, followed, returned⟩ := follow_sample
  have result := mine_result (plainCalls sampleSeal sampleNoteWithId) sampleNote 6 2 (mines_of_follow followed)
  obtain ⟨thread, inside, count, mined, _⟩ := result.1 minedNote returned
  exact ⟨thread, inside, count, mined⟩

/-- No nonce is tried twice, in whatever order the threads take their steps: each thread tries
the nonces of its own stride, one after the other. -/
theorem mine_attempts {trace : List (Mining × Act)} {finish : Mining}
    (run : Mines (tryNonce calls unsigned difficulty) numThreads .start trace finish) :
    ((attempts trace).map Prod.snd).Nodup ∧
    (∀ thread, noncesOf trace thread =
      (List.range (noncesOf trace thread).length).map (stride numThreads thread)) ∧
    ∀ thread nonce, (thread, nonce) ∈ attempts trace →
      thread < numThreads ∧ numThreads ≤ nonce ∧ nonce % numThreads = thread := by
  have threads := threads_of_run run
  refine ⟨attempts_nodup run, threads.tried, fun thread nonce member => ?_⟩
  have tried := mem_attempts.mp member
  have inside := threads.lt_of_mem tried
  rw [threads.tried] at tried
  obtain ⟨count, _, rfl⟩ := List.mem_map.mp tried
  exact ⟨inside, le_stride count, stride_mod inside⟩

theorem mine_attempts_note : ∃ trace finish,
    Mines sampleAttempt 2 .start trace finish ∧ ((attempts trace).map Prod.snd).Nodup ∧ attempts trace = [(0, 2)] := by
  obtain ⟨trace, finish, followed, tried⟩ : ∃ trace finish,
      Mining.start.follow sampleAttempt 2 findingSchedule = some (trace, finish) ∧ attempts trace = [(0, 2)] :=
    ⟨_, _, rfl, rfl⟩
  have run := mines_of_follow followed
  exact ⟨trace, finish, run, (mine_attempts (plainCalls sampleSeal sampleNoteWithId) sampleNote 6 2 run).1, tried⟩

/-- Once an event is found or the miner is cancelled, so many steps at most are left, in
whatever order they are taken. When none is left, all threads have ended and `mine` has
returned: an event, if one was found before nothing was returned. -/
theorem mine_ends {trace later : List (Mining × Act)} {mining finish : Mining} (positive : 0 < numThreads)
    (run : Mines (tryNonce calls unsigned difficulty) numThreads .start trace mining)
    (flagged : mining.found = true ∨ mining.cancel = true)
    (more : Mines (tryNonce calls unsigned difficulty) numThreads mining later finish) :
    later.length ≤ 3076 * numThreads + 7 ∧
    ((∀ act ≠ .cancel, finish.step (tryNonce calls unsigned difficulty) numThreads act = none) →
      (∀ (thread : Nat) (worker : Worker), finish.workers[thread]? = some worker → worker.Ended) ∧
      ∃ result, finish.main = .returned result ∧
        (mining.found = true → mining.main ≠ .returned none → result ≠ none)) := by
  have start := sound_of_run run
  let holds : Mining → Prop := fun state => Sound numThreads state ∧ state.Flagged ∧
    (mining.found = true → mining.main ≠ .returned none → state.found = true ∧ state.main ≠ .returned none)
  have ends := more.length_le_size holds (Mining.left numThreads)
    (by
      rintro _ ⟨state, act⟩ after ⟨sound, flag, finds⟩ ⟨rfl, stepped⟩
      have later := later_step stepped
      refine ⟨⟨sound.step stepped, flag.imp later.found later.cancel, fun found opens => ?_⟩,
        left_step positive flag sound stepped⟩
      obtain ⟨still, isOpen⟩ := finds found opens
      exact ⟨later.found still, finds_step sound still isOpen stepped⟩)
    ⟨start, flagged, fun found opens => ⟨found, opens⟩⟩
  obtain ⟨⟨sound, _, finds⟩, bound⟩ := ends
  refine ⟨by have := left_le start; omega, fun stuck => ⟨fun _ _ here => ended_of_stuck stuck here, ?_⟩⟩
  obtain ⟨result, returned⟩ := returned_of_stuck sound stuck
  refine ⟨result, returned, fun found opens none => ?_⟩
  exact (finds found opens).2 (none ▸ returned)

theorem mine_ends_note : ∃ (mining : Mining) (later : List (Mining × Act)) (finish : Mining),
    mining.found = true ∧ Mines sampleAttempt 2 mining later finish ∧ later.length ≤ 3076 * 2 + 7 := by
  obtain ⟨trace, mining, later, finish, followed, found, rest⟩ : ∃ trace mining later finish,
      Mining.start.follow sampleAttempt 2 findingSchedule = some (trace, mining) ∧ mining.found = true ∧
        mining.follow sampleAttempt 2 joiningSchedule = some (later, finish) :=
    ⟨_, _, _, _, rfl, rfl, rfl⟩
  have ends := mine_ends (plainCalls sampleSeal sampleNoteWithId) sampleNote 6 2 (by decide)
    (mines_of_follow followed) (.inl found) (mines_of_follow rest)
  exact ⟨mining, later, finish, found, mines_of_follow rest, ends.1⟩

end Mine

end RustNostr.Nip13
