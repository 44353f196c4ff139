import Mathlib
import RustNostr.Library.TokenBucket

/-!
# The rate limits of a session

How the local relay limits the messages of a client
(`nostr-sdk/src/local_relay/local/session.rs`): a bucket of tokens for each kind of
operation, filled up by what the elapsed time is worth. Instants and durations are counted
in nanoseconds, and the floating-point numbers of the source are rational ones.
-/

set_option autoImplicit false

namespace RustNostr.NostrSdk.LocalRelay

open Library

inductive RateLimiterResponse where
  | allowed
  | limited
  deriving DecidableEq

abbrev Instant : Type := Nat

abbrev Duration : Type := Nat

def nanosPerSecond : Nat := 1000000000

def Duration.asSecs (duration : Duration) : Nat := duration / nanosPerSecond

structure Tokens where
  count : UInt32
  last : Option Instant := none

namespace Tokens

def new (tokens : UInt32) : Tokens := ⟨tokens, none⟩

/-- `saturating_add` -/
def saturatingAdd (left right : UInt32) : UInt32 :=
  UInt32.ofNat (min (left.toNat + right.toNat) (UInt32.size - 1))

def replenish (tokens : Tokens) (maxPerMinute : UInt32) (elapsedTime : Duration) : Tokens :=
  let percent : ℚ := (Duration.asSecs elapsedTime : ℚ) / 60
  let newTokens : UInt32 := UInt32.ofNat (min ⌊percent * (maxPerMinute.toNat : ℚ)⌋₊ (UInt32.size - 1))
  { tokens with count := min (saturatingAdd tokens.count newTokens) maxPerMinute }

end Tokens

/-- One minute. -/
def minElapsed : Duration := 60 * nanosPerSecond

def calculateElapsedTime (now last : Instant) : Duration := min (now - last) minElapsed

def takeToken (tokens : Tokens) (now : Instant) (maxPerMinute : UInt32) : RateLimiterResponse × Tokens :=
  let replenished := tokens.last.elim tokens fun last =>
    tokens.replenish maxPerMinute (calculateElapsedTime now last)
  if replenished.count = 0 then (.limited, { replenished with last := some now })
  else (.allowed, { count := replenished.count - 1, last := some now })

structure SessionTokens where
  writeTokens : Tokens
  queryTokens : Tokens
  negentropyTokens : Tokens
  authTokens : Tokens
  messageTokens : Tokens

/-- What of the builder's options limits a session. -/
structure RateLimits where
  notesPerMinute : UInt32
  queriesPerMinute : UInt32
  authEventsPerMinute : UInt32
  messagesPerMinute : UInt32

inductive Operation where
  | write
  | query
  | negentropy
  | auth
  | message
  deriving DecidableEq

def RateLimits.maxPerMinute (limits : RateLimits) : Operation → UInt32
  | .write => limits.notesPerMinute
  | .query => limits.queriesPerMinute
  | .negentropy => limits.queriesPerMinute
  | .auth => limits.authEventsPerMinute
  | .message => limits.messagesPerMinute

namespace SessionTokens

def new (limits : RateLimits) : SessionTokens where
  writeTokens := .new limits.notesPerMinute
  queryTokens := .new limits.queriesPerMinute
  negentropyTokens := .new limits.queriesPerMinute
  authTokens := .new limits.authEventsPerMinute
  messageTokens := .new limits.messagesPerMinute

variable (session : SessionTokens) (now : Instant) (maxPerMinute : UInt32)

def checkRateLimit : RateLimiterResponse × SessionTokens :=
  let taken := takeToken session.writeTokens now maxPerMinute
  (taken.1, { session with writeTokens := taken.2 })

def checkQueryRateLimit : RateLimiterResponse × SessionTokens :=
  let taken := takeToken session.queryTokens now maxPerMinute
  (taken.1, { session with queryTokens := taken.2 })

def checkNegentropyRateLimit : RateLimiterResponse × SessionTokens :=
  let taken := takeToken session.negentropyTokens now maxPerMinute
  (taken.1, { session with negentropyTokens := taken.2 })

def checkAuthRateLimit : RateLimiterResponse × SessionTokens :=
  let taken := takeToken session.authTokens now maxPerMinute
  (taken.1, { session with authTokens := taken.2 })

def checkMessageRateLimit : RateLimiterResponse × SessionTokens :=
  let taken := takeToken session.messageTokens now maxPerMinute
  (taken.1, { session with messageTokens := taken.2 })

def check : Operation → RateLimiterResponse × SessionTokens
  | .write => session.checkRateLimit now maxPerMinute
  | .query => session.checkQueryRateLimit now maxPerMinute
  | .negentropy => session.checkNegentropyRateLimit now maxPerMinute
  | .auth => session.checkAuthRateLimit now maxPerMinute
  | .message => session.checkMessageRateLimit now maxPerMinute

def tokens : Operation → Tokens
  | .write => session.writeTokens
  | .query => session.queryTokens
  | .negentropy => session.negentropyTokens
  | .auth => session.authTokens
  | .message => session.messageTokens

end SessionTokens

/-- How a session answers the operations of a client, each at its time. -/
def answers (limits : RateLimits) : SessionTokens → List (Operation × Instant) →
    List (Operation × Instant × RateLimiterResponse)
  | _, [] => []
  | session, (operation, now) :: rest =>
      let checked := session.check now (limits.maxPerMinute operation) operation
      (operation, now, checked.1) :: answers limits checked.2 rest

/-- The answers to the operations of a kind. -/
def answersTo (limits : RateLimits) (operation : Operation) (operations : List (Operation × Instant)) :
    List (Instant × RateLimiterResponse) :=
  ((answers limits (.new limits) operations).filter fun answer => answer.1 = operation).map Prod.snd

/-- The times of the operations of a kind. -/
def timesOf (operation : Operation) (operations : List (Operation × Instant)) : List Instant :=
  (operations.filter fun asked => asked.1 = operation).map Prod.snd

/-- The clock does not go back. -/
def InOrder (operations : List (Operation × Instant)) : Prop :=
  operations.Pairwise fun earlier later => earlier.2 ≤ later.2

/-- From each time to the next, it is a minute's share of the limit at least. -/
def Spaced (maxPerMinute : UInt32) (times : List Instant) : Prop :=
  times.IsChain fun earlier later => 60 * nanosPerSecond ≤ (later - earlier) * maxPerMinute.toNat

/-! ## One bucket -/

/-- The tokens that a time is worth. -/
def earned (maxPerMinute : UInt32) (elapsed : Duration) : Nat :=
  Duration.asSecs (min elapsed minElapsed) * maxPerMinute.toNat / 60

theorem earned_le (maxPerMinute : UInt32) (elapsed : Duration) :
    earned maxPerMinute elapsed ≤ maxPerMinute.toNat := by
  have seconds : Duration.asSecs (min elapsed minElapsed) ≤ 60 :=
    (Nat.div_le_div_right (min_le_right _ _)).trans_eq (by decide)
  refine Nat.div_le_of_le_mul (Nat.mul_le_mul_right _ seconds)

/-- What is earned is never more than its share of a minute. -/
theorem earned_mul_le (maxPerMinute : UInt32) (elapsed : Duration) :
    earned maxPerMinute elapsed * (60 * nanosPerSecond) ≤ elapsed * maxPerMinute.toNat := by
  have floored := Nat.div_mul_le_self (Duration.asSecs (min elapsed minElapsed) * maxPerMinute.toNat) 60
  have seconds : Duration.asSecs (min elapsed minElapsed) * nanosPerSecond ≤ elapsed :=
    (Nat.div_mul_le_self _ _).trans (min_le_left _ _)
  calc earned maxPerMinute elapsed * (60 * nanosPerSecond)
      = earned maxPerMinute elapsed * 60 * nanosPerSecond := (Nat.mul_assoc _ _ _).symm
    _ ≤ Duration.asSecs (min elapsed minElapsed) * maxPerMinute.toNat * nanosPerSecond :=
        Nat.mul_le_mul_right _ floored
    _ = Duration.asSecs (min elapsed minElapsed) * nanosPerSecond * maxPerMinute.toNat :=
        Nat.mul_right_comm _ _ _
    _ ≤ elapsed * maxPerMinute.toNat := Nat.mul_le_mul_right _ seconds

theorem toNat_min (left right : UInt32) : (min left right).toNat = min left.toNat right.toNat := by
  have least : min left right = if left ≤ right then left else right := rfl
  rw [least, min_def, apply_ite UInt32.toNat]
  simp only [UInt32.le_iff_toNat_le]

theorem toNat_ofNat_min (number : Nat) :
    (UInt32.ofNat (min number (UInt32.size - 1))).toNat = min number (UInt32.size - 1) := by
  rw [UInt32.toNat_ofNat']
  refine Nat.mod_eq_of_lt ?_
  have small : min number (UInt32.size - 1) ≤ UInt32.size - 1 := min_le_right _ _
  have size : UInt32.size = 2 ^ 32 := rfl
  omega

/-- A bucket is filled up by what the time is worth. -/
theorem Tokens.toNat_replenish (tokens : Tokens) (maxPerMinute : UInt32) (now last : Instant) :
    (tokens.replenish maxPerMinute (calculateElapsedTime now last)).count.toNat =
      refilled maxPerMinute.toNat tokens.count.toNat (earned maxPerMinute (now - last)) := by
  have quotient : ⌊(Duration.asSecs (calculateElapsedTime now last) : ℚ) / 60 * (maxPerMinute.toNat : ℚ)⌋₊ =
      earned maxPerMinute (now - last) := by
    have whole : (Duration.asSecs (calculateElapsedTime now last) : ℚ) / 60 * (maxPerMinute.toNat : ℚ) =
        ((Duration.asSecs (calculateElapsedTime now last) * maxPerMinute.toNat : ℕ) : ℚ) / ((60 : ℕ) : ℚ) := by
      push_cast
      ring
    rw [whole, Nat.floor_div_eq_div]
    rfl
  have fits := earned_le maxPerMinute (now - last)
  have small := maxPerMinute.toNat_lt_size
  rw [replenish, quotient, toNat_min, saturatingAdd, toNat_ofNat_min, toNat_ofNat_min, refilled]
  omega

/-- How one bucket answers. -/
def tokenAnswers (maxPerMinute : UInt32) : Tokens → List Instant → List RateLimiterResponse
  | _, [] => []
  | tokens, now :: rest =>
      let taken := takeToken tokens now maxPerMinute
      taken.1 :: tokenAnswers maxPerMinute taken.2 rest

/-- What has been earned before each time. -/
def earnings (maxPerMinute : UInt32) : Option Instant → List Instant → List Nat
  | _, [] => []
  | last, now :: rest =>
      last.elim 0 (fun last => earned maxPerMinute (now - last)) :: earnings maxPerMinute (some now) rest

def RateLimiterResponse.of (admitted : Bool) : RateLimiterResponse := if admitted then .allowed else .limited

theorem takeToken_eq {tokens : Tokens} {now : Instant} {maxPerMinute : UInt32}
    (fits : tokens.count ≤ maxPerMinute) {found : Nat}
    (finds : found = refilled maxPerMinute.toNat tokens.count.toNat
      (tokens.last.elim 0 fun last => earned maxPerMinute (now - last))) :
    (takeToken tokens now maxPerMinute).1 = .of (decide (0 < found)) ∧
      (takeToken tokens now maxPerMinute).2.count.toNat = found - 1 ∧
        (takeToken tokens now maxPerMinute).2.last = some now := by
  have replenished : (tokens.last.elim tokens fun last =>
      tokens.replenish maxPerMinute (calculateElapsedTime now last)).count.toNat = found := by
    rw [finds]
    cases tokens.last with
    | none =>
        simp only [Option.elim_none, refilled, Nat.add_zero]
        exact (min_eq_right (UInt32.le_iff_toNat_le.mp fits)).symm
    | some last => exact tokens.toNat_replenish maxPerMinute now last
  unfold takeToken
  generalize (tokens.last.elim tokens fun last =>
    tokens.replenish maxPerMinute (calculateElapsedTime now last)) = filled at replenished
  by_cases empty : filled.count = 0
  · have none : found = 0 := by
      rw [← replenished, empty]
      rfl
    simp [empty, none, RateLimiterResponse.of]
  · have some : 0 < found := by
      rw [← replenished, Nat.pos_iff_ne_zero]
      exact fun zero => empty (UInt32.toNat_inj.mp zero)
    have least : (1 : UInt32) ≤ filled.count := by
      rw [UInt32.le_iff_toNat_le, replenished]
      exact some
    rw [if_neg empty]
    refine ⟨by simp [some, RateLimiterResponse.of], ?_, rfl⟩
    change (filled.count - 1).toNat = found - 1
    rw [UInt32.toNat_sub_of_le _ _ least, replenished]
    rfl

theorem new_fits (maxPerMinute : UInt32) : (Tokens.new maxPerMinute).count ≤ maxPerMinute :=
  UInt32.le_iff_toNat_le.mpr le_rfl

/-- A bucket answers as what has been earned admits. -/
theorem tokenAnswers_eq {maxPerMinute : UInt32} {tokens : Tokens} {times : List Instant}
    (fits : tokens.count ≤ maxPerMinute) :
    tokenAnswers maxPerMinute tokens times =
      (admissions maxPerMinute.toNat tokens.count.toNat (earnings maxPerMinute tokens.last times)).map .of := by
  induction times generalizing tokens with
  | nil => rfl
  | cons now rest ih =>
      obtain ⟨response, count, last⟩ := @takeToken_eq tokens now maxPerMinute fits _ rfl
      have stillFits : (takeToken tokens now maxPerMinute).2.count ≤ maxPerMinute := by
        rw [UInt32.le_iff_toNat_le, count, refilled]
        omega
      rw [tokenAnswers, earnings, admissions, List.map_cons, ← response, ih stillFits, count, last]

/-! ## A session -/

section Sessions

variable {limits : RateLimits} {session : SessionTokens} {operation asked : Operation} {now : Instant}
  {maxPerMinute : UInt32}

theorem tokens_new : (SessionTokens.new limits).tokens operation = .new (limits.maxPerMinute operation) := by
  cases operation <;> rfl

theorem check_self : (session.check now maxPerMinute operation).1 =
      (takeToken (session.tokens operation) now maxPerMinute).1 ∧
    (session.check now maxPerMinute operation).2.tokens operation =
      (takeToken (session.tokens operation) now maxPerMinute).2 := by
  cases operation <;> exact ⟨rfl, rfl⟩

/-- The buckets do not touch each other. -/
theorem check_of_ne (other : asked ≠ operation) :
    (session.check now maxPerMinute asked).2.tokens operation = session.tokens operation := by
  cases asked <;> cases operation
  case write.write | query.query | negentropy.negentropy | auth.auth | message.message =>
    exact absurd rfl other
  all_goals rfl

/-- Each kind of operation is answered by its own bucket alone. -/
theorem answers_of_operation (operations : List (Operation × Instant)) :
    ((answers limits session operations).filter fun answer => answer.1 = operation).map Prod.snd =
      (timesOf operation operations).zip
        (tokenAnswers (limits.maxPerMinute operation) (session.tokens operation) (timesOf operation operations)) := by
  induction operations generalizing session with
  | nil => rfl
  | cons first rest ih =>
      obtain ⟨asked, now⟩ := first
      by_cases own : asked = operation
      · subst own
        have times : timesOf asked ((asked, now) :: rest) = now :: timesOf asked rest := by
          simp [timesOf]
        obtain ⟨response, tokens⟩ := @check_self session asked now (limits.maxPerMinute asked)
        rw [answers, List.filter_cons_of_pos (by simp), List.map_cons, ih, times, tokenAnswers,
          List.zip_cons_cons, response, tokens]
      · have times : timesOf operation ((asked, now) :: rest) = timesOf operation rest := by
          simp [timesOf, own]
        rw [answers, List.filter_cons_of_neg (by simpa using own), ih, times, check_of_ne own]

theorem answersTo_eq (operations : List (Operation × Instant)) :
    answersTo limits operation operations = (timesOf operation operations).zip
      ((admissions (limits.maxPerMinute operation).toNat (limits.maxPerMinute operation).toNat
        (earnings (limits.maxPerMinute operation) none (timesOf operation operations))).map .of) := by
  rw [answersTo, answers_of_operation, tokens_new, tokenAnswers_eq (new_fits _)]
  rfl

theorem timesOf_sorted {operations : List (Operation × Instant)} (inOrder : InOrder operations) :
    (timesOf operation operations).Pairwise (· ≤ ·) :=
  List.pairwise_map.mpr (inOrder.sublist List.filter_sublist)

end Sessions

/-! ## Who is limited -/

section Limited

variable {maxPerMinute : UInt32} {times : List Nat}

theorem length_earnings (last : Option Instant) : (earnings maxPerMinute last times).length = times.length := by
  induction times generalizing last with
  | nil => rfl
  | cons now rest ih => rw [earnings, List.length_cons, List.length_cons, ih]

/-- Nobody is limited exactly if every stretch of operations is affordable. -/
theorem allAllowed_iff {limits : RateLimits} {operation : Operation} (operations : List (Operation × Instant)) :
    (∀ answer ∈ answersTo limits operation operations, answer.2 = .allowed) ↔
      Affordable (limits.maxPerMinute operation).toNat
        (earnings (limits.maxPerMinute operation) none (timesOf operation operations)) := by
  rw [← admitsAll_iff, answersTo_eq]
  have whole := @List.map_snd_zip _ _ (timesOf operation operations)
    ((admissions (limits.maxPerMinute operation).toNat (limits.maxPerMinute operation).toNat
      (earnings (limits.maxPerMinute operation) none (timesOf operation operations))).map
        RateLimiterResponse.of) (by rw [List.length_map, length_admissions, length_earnings])
  have responses : ∀ admitted, RateLimiterResponse.of admitted = .allowed ↔ admitted = true := by decide
  rw [← List.forall_mem_map (P := (· = RateLimiterResponse.allowed)), whole, List.forall_mem_map]
  simp only [responses]

/-- Of operations in order, those of a period stand together. -/
theorem exists_stretch (sorted : times.Pairwise (· ≤ ·)) (start stop : Nat) :
    ∃ before inside after, times = before ++ (inside ++ after) ∧ (∀ time ∈ before, time < start) ∧
      (∀ time ∈ inside, start ≤ time ∧ time ≤ stop) ∧ ∀ time ∈ after, stop < time := by
  induction times with
  | nil => exact ⟨[], [], [], rfl, by simp, by simp, by simp⟩
  | cons time rest ih =>
      obtain ⟨least, restSorted⟩ := List.pairwise_cons.mp sorted
      obtain ⟨before, inside, after, rfl, early, within, late⟩ := ih restSorted
      by_cases isEarly : time < start
      · exact ⟨time :: before, inside, after, rfl, List.forall_mem_cons.mpr ⟨isEarly, early⟩, within, late⟩
      · by_cases isLate : stop < time
        · refine ⟨[], [], time :: (before ++ (inside ++ after)), rfl, by simp, by simp, ?_⟩
          refine List.forall_mem_cons.mpr ⟨isLate, fun later member => ?_⟩
          exact isLate.trans_le (least later member)
        · have none : before = [] := by
            rw [List.eq_nil_iff_forall_not_mem]
            intro earlier member
            have less := early earlier member
            have more := least earlier (List.mem_append_left _ member)
            omega
          subst none
          refine ⟨[], time :: inside, after, rfl, by simp, List.forall_mem_cons.mpr ⟨?_, within⟩, late⟩
          omega

theorem earnings_append (last : Option Instant) (earlier later : List Nat) :
    ∃ last', earnings maxPerMinute last (earlier ++ later) =
      earnings maxPerMinute last earlier ++ earnings maxPerMinute last' later := by
  induction earlier generalizing last with
  | nil => exact ⟨last, rfl⟩
  | cons now rest ih =>
      obtain ⟨last', same⟩ := ih (some now)
      refine ⟨last', ?_⟩
      rw [List.cons_append, earnings, earnings, same, List.cons_append]

/-- Within a period, its share of a minute is earned at most. -/
theorem sum_earnings_le {first stop : Nat} (sorted : (first :: times).Pairwise (· ≤ ·))
    (within : ∀ time ∈ first :: times, time ≤ stop) :
    (earnings maxPerMinute (some first) times).sum * (60 * nanosPerSecond) ≤
      (stop - first) * maxPerMinute.toNat := by
  induction times generalizing first with
  | nil =>
      rw [earnings, List.sum_nil, Nat.zero_mul]
      exact Nat.zero_le _
  | cons now rest ih =>
      obtain ⟨least, restSorted⟩ := List.pairwise_cons.mp sorted
      have later := ih restSorted (List.forall_mem_cons.mp within).2
      have here := earned_mul_le maxPerMinute (now - first)
      have started : first ≤ now := least now List.mem_cons_self
      have ends : now ≤ stop := within now (List.mem_cons_of_mem _ List.mem_cons_self)
      have period : stop - first = (now - first) + (stop - now) := by omega
      rw [earnings, List.sum_cons, Option.elim_some, Nat.add_mul, period, Nat.add_mul]
      exact Nat.add_le_add here later

/-- The operations of a minute that are allowed. -/
def allowedWithin (start : Instant) (answers : List (Instant × RateLimiterResponse)) : Nat :=
  answers.countP fun answer => decide (start ≤ answer.1 ∧ answer.1 ≤ start + minElapsed ∧ answer.2 = .allowed)

theorem allowedWithin_eq_zero {start : Nat} {responses : List RateLimiterResponse}
    (outside : ∀ time ∈ times, time < start ∨ start + minElapsed < time) :
    allowedWithin start (times.zip responses) = 0 := by
  refine List.countP_eq_zero.mpr fun answer member inside => ?_
  have time := outside answer.1 (List.of_mem_zip member).1
  obtain ⟨started, ends, _⟩ := of_decide_eq_true inside
  cases time with
  | inl early => exact absurd started (not_le.mpr early)
  | inr late => exact absurd ends (not_le.mpr late)

theorem allowedWithin_le_count (start : Instant) (admitted : List Bool) :
    allowedWithin start (times.zip (admitted.map .of)) ≤ admitted.count true := by
  have responses : ∀ admitted, RateLimiterResponse.of admitted = .allowed ↔ admitted = true := by decide
  induction times generalizing admitted with
  | nil => exact Nat.zero_le _
  | cons time rest ih =>
      cases admitted with
      | nil => exact Nat.zero_le _
      | cons first later =>
          rw [List.map_cons, List.zip_cons_cons, allowedWithin, List.countP_cons, List.count_cons]
          refine Nat.add_le_add (ih later) ?_
          split
          next counted =>
            rw [beq_true, if_pos ((responses first).mp (of_decide_eq_true counted).2.2)]
          next => exact Nat.zero_le _

/-- Within a minute, what a full bucket holds and what is earned meanwhile are allowed. -/
theorem allowedWithin_answersTo_le {limits : RateLimits} {operation : Operation}
    {operations : List (Operation × Instant)} (inOrder : InOrder operations) (start : Instant) :
    allowedWithin start (answersTo limits operation operations) ≤
      2 * (limits.maxPerMinute operation).toNat := by
  rw [answersTo_eq]
  have sorted : (timesOf operation operations).Pairwise (· ≤ ·) := timesOf_sorted inOrder
  generalize limits.maxPerMinute operation = maxPerMinute
  generalize timesOf operation operations = times at sorted
  obtain ⟨before, inside, after, rfl, early, within, late⟩ := exists_stretch sorted start (start + minElapsed)
  obtain ⟨last, first⟩ := @earnings_append maxPerMinute none before (inside ++ after)
  obtain ⟨last', second⟩ := @earnings_append maxPerMinute last inside after
  obtain ⟨held, admitted⟩ := @admissions_append maxPerMinute.toNat maxPerMinute.toNat
    (earnings maxPerMinute none before) (earnings maxPerMinute last inside ++ earnings maxPerMinute last' after)
  obtain ⟨held', admitted'⟩ := @admissions_append maxPerMinute.toNat held
    (earnings maxPerMinute last inside) (earnings maxPerMinute last' after)
  rw [first, second, admitted, admitted', List.map_append, List.map_append]
  rw [List.zip_append (by rw [List.length_map, length_admissions, length_earnings]),
    List.zip_append (by rw [List.length_map, length_admissions, length_earnings])]
  have none := @allowedWithin_eq_zero before start
    ((admissions maxPerMinute.toNat maxPerMinute.toNat (earnings maxPerMinute none before)).map .of)
    fun time member => .inl (early time member)
  have none' := @allowedWithin_eq_zero after start
    ((admissions maxPerMinute.toNat held' (earnings maxPerMinute last' after)).map .of)
    fun time member => .inr (late time member)
  have most := @allowedWithin_le_count inside start
    (admissions maxPerMinute.toNat held (earnings maxPerMinute last inside))
  unfold allowedWithin at none none' most ⊢
  rw [List.countP_append, List.countP_append, none, none', Nat.zero_add, Nat.add_zero]
  refine most.trans ?_
  cases inside with
  | nil => exact Nat.zero_le _
  | cons time rest =>
      have stretch := @count_admissions_stretch_le maxPerMinute.toNat held
        (earnings maxPerMinute (some time) rest) (last.elim 0 fun last => earned maxPerMinute (time - last))
      have ordered : (time :: rest).Pairwise (· ≤ ·) :=
        (List.pairwise_append.mp (List.pairwise_append.mp sorted).2.1).1
      have minute := @sum_earnings_le maxPerMinute _ _ _ ordered fun other member =>
        (within other member).2
      have started := (within time List.mem_cons_self).1
      have share : (earnings maxPerMinute (some time) rest).sum ≤ maxPerMinute.toNat := by
        refine Nat.le_of_mul_le_mul_right (minute.trans ?_) (show 0 < 60 * nanosPerSecond by decide)
        rw [Nat.mul_comm maxPerMinute.toNat]
        refine Nat.mul_le_mul_right _ ?_
        rw [minElapsed]
        omega
      rw [earnings]
      omega

/-- A period that earns a token each time, when the limit divides a minute. -/
theorem earned_pos_of_dvd (divides : maxPerMinute.toNat ∣ 60) {elapsed : Duration}
    (spaced : 60 * nanosPerSecond ≤ elapsed * maxPerMinute.toNat) : 0 < earned maxPerMinute elapsed := by
  obtain ⟨seconds, minute⟩ := divides
  have positive : 0 < maxPerMinute.toNat := by
    rw [Nat.pos_iff_ne_zero]
    intro zero
    rw [zero, Nat.zero_mul] at minute
    cases minute
  have long : seconds * nanosPerSecond ≤ elapsed := by
    refine Nat.le_of_mul_le_mul_right ?_ positive
    rwa [minute, Nat.mul_assoc, Nat.mul_comm] at spaced
  have short : seconds * nanosPerSecond ≤ minElapsed := by
    refine Nat.mul_le_mul_right _ ?_
    rw [minute]
    exact Nat.le_mul_of_pos_left _ positive
  have whole : seconds ≤ Duration.asSecs (min elapsed minElapsed) :=
    (Nat.le_div_iff_mul_le (by decide)).mpr (le_min long short)
  rw [earned, Nat.div_pos_iff]
  refine ⟨by decide, ?_⟩
  rw [minute, Nat.mul_comm]
  exact Nat.mul_le_mul_right _ whole

theorem earnings_pos (divides : maxPerMinute.toNat ∣ 60) {first : Nat}
    (spaced : Spaced maxPerMinute (first :: times)) :
    ∀ earning ∈ earnings maxPerMinute (some first) times, 0 < earning := by
  induction times generalizing first with
  | nil => exact List.forall_mem_nil _
  | cons now rest ih =>
      obtain ⟨gap, later⟩ := List.isChain_cons_cons.mp spaced
      rw [earnings]
      exact List.forall_mem_cons.mpr ⟨earned_pos_of_dvd divides gap, ih later⟩

/-- The least gap between operations that are spaced. -/
def leastGap (maxPerMinute : UInt32) : Nat :=
  (60 * nanosPerSecond + (maxPerMinute.toNat - 1)) / maxPerMinute.toNat

theorem leastGap_spaced (positive : 0 < maxPerMinute.toNat) :
    60 * nanosPerSecond ≤ leastGap maxPerMinute * maxPerMinute.toNat := by
  have division := Nat.div_add_mod' (60 * nanosPerSecond + (maxPerMinute.toNat - 1)) maxPerMinute.toNat
  have remainder := Nat.mod_lt (60 * nanosPerSecond + (maxPerMinute.toNat - 1)) positive
  rw [leastGap]
  omega

/-- Whole seconds of the least gap are worth no token when the limit divides no minute. -/
theorem earned_leastGap (positive : 0 < maxPerMinute.toNat) (divides : ¬ maxPerMinute.toNat ∣ 60) :
    earned maxPerMinute (leastGap maxPerMinute) = 0 := by
  rw [earned, Nat.div_eq_zero_iff]
  refine .inr ?_
  have least : leastGap maxPerMinute * maxPerMinute.toNat ≤ 60 * nanosPerSecond + (maxPerMinute.toNat - 1) :=
    Nat.div_mul_le_self _ _
  generalize worth : Duration.asSecs (min (leastGap maxPerMinute) minElapsed) = seconds
  have floored : seconds * nanosPerSecond ≤ leastGap maxPerMinute := by
    rw [← worth]
    exact (Nat.div_mul_le_self _ _).trans (min_le_left _ _)
  have bound : seconds * maxPerMinute.toNat * nanosPerSecond ≤
      60 * nanosPerSecond + (maxPerMinute.toNat - 1) := by
    rw [Nat.mul_right_comm]
    exact (Nat.mul_le_mul_right _ floored).trans least
  have notMinute : seconds * maxPerMinute.toNat ≠ 60 := fun same => divides ⟨seconds, by rw [← same, Nat.mul_comm]⟩
  have some : seconds = 0 ∨ maxPerMinute.toNat ≤ seconds * maxPerMinute.toNat := by
    rcases Nat.eq_zero_or_pos seconds with zero | one
    · exact .inl zero
    · exact .inr (Nat.le_mul_of_pos_left _ one)
  rw [nanosPerSecond] at bound
  rcases some with zero | more
  · rw [zero, Nat.zero_mul]
    decide
  · omega

theorem earnings_ticks (gap first rounds : Nat) :
    ∀ earning ∈ earnings maxPerMinute (some first) (List.iterate (· + gap) (first + gap) rounds),
      earning = earned maxPerMinute gap := by
  induction rounds generalizing first with
  | zero => exact List.forall_mem_nil _
  | succ rounds ih =>
      rw [List.iterate, earnings, Option.elim_some, Nat.add_sub_cancel_left]
      exact List.forall_mem_cons.mpr ⟨rfl, ih (first + gap)⟩

theorem spaced_ticks {gap : Nat} (wide : 60 * nanosPerSecond ≤ gap * maxPerMinute.toNat) (first rounds : Nat) :
    Spaced maxPerMinute (List.iterate (· + gap) first rounds) := by
  induction rounds generalizing first with
  | zero => exact List.isChain_nil
  | succ rounds ih =>
      cases rounds with
      | zero => exact List.isChain_singleton _
      | succ rounds =>
          refine List.isChain_cons_cons.mpr ⟨?_, ih (first + gap)⟩
          rwa [Nat.add_sub_cancel_left]

end Limited

/-- Operations of one kind, evenly spaced. -/
def evenly (operation : Operation) (gap rounds : Nat) : List (Operation × Instant) :=
  (List.iterate (· + gap) 0 rounds).map fun now => (operation, now)

section Evenly

variable (operation : Operation) (gap rounds : Nat)

theorem timesOf_evenly : timesOf operation (evenly operation gap rounds) = List.iterate (· + gap) 0 rounds := by
  rw [timesOf, evenly, List.filter_map, List.map_map, List.filter_eq_self.mpr (by simp)]
  exact List.map_id _

theorem inOrder_evenly : InOrder (evenly operation gap rounds) := by
  have ticks (first : Nat) : (List.iterate (· + gap) first rounds).Pairwise (· ≤ ·) ∧
      ∀ time ∈ List.iterate (· + gap) first rounds, first ≤ time := by
    induction rounds generalizing first with
    | zero => exact ⟨List.Pairwise.nil, List.forall_mem_nil _⟩
    | succ rounds ih =>
        obtain ⟨sorted, late⟩ := ih (first + gap)
        have later (time : Nat) (member : time ∈ List.iterate (· + gap) (first + gap) rounds) : first ≤ time :=
          (Nat.le_add_right _ _).trans (late time member)
        exact ⟨List.pairwise_cons.mpr ⟨later, sorted⟩, List.forall_mem_cons.mpr ⟨le_rfl, later⟩⟩
  exact List.pairwise_map.mpr (ticks 0).1

end Evenly

/-- Who keeps to a minute's share of the limit is never limited, and in a minute twice the
limit is allowed at most, if and only if the limit divides a minute. In general, those are
never limited whose operations are affordable. -/
theorem rateLimit_fair_iff (limits : RateLimits) (operation : Operation)
    (positive : 0 < (limits.maxPerMinute operation).toNat) :
    (((∀ operations, InOrder operations → Spaced (limits.maxPerMinute operation) (timesOf operation operations) →
        ∀ answer ∈ answersTo limits operation operations, answer.2 = .allowed) ∧
      ∀ operations, InOrder operations → ∀ start,
        allowedWithin start (answersTo limits operation operations) ≤
          2 * (limits.maxPerMinute operation).toNat) ↔
      (limits.maxPerMinute operation).toNat ∣ 60) ∧
    ∀ operations, (∀ answer ∈ answersTo limits operation operations, answer.2 = .allowed) ↔
      Affordable (limits.maxPerMinute operation).toNat
        (earnings (limits.maxPerMinute operation) none (timesOf operation operations)) := by
  refine ⟨⟨fun fair => ?_, fun divides => ⟨fun operations _ spaced => ?_, fun operations inOrder start =>
    allowedWithin_answersTo_le inOrder start⟩⟩, allAllowed_iff⟩
  · by_contra divides
    -- One more operation than a full bucket has tokens, with the least gaps.
    have allowed := fair.1 (evenly operation (leastGap (limits.maxPerMinute operation))
      ((limits.maxPerMinute operation).toNat + 1)) (inOrder_evenly _ _ _) (by
        rw [timesOf_evenly]
        exact spaced_ticks (leastGap_spaced positive) _ _)
    rw [allAllowed_iff, timesOf_evenly, List.iterate, earnings] at allowed
    have bound := length_le_of_affordable allowed (List.forall_mem_cons.mpr ⟨rfl, fun earning member =>
      (earnings_ticks _ 0 _ earning member).trans (earned_leastGap positive divides)⟩)
    rw [List.length_cons, length_earnings, List.length_iterate] at bound
    omega
  · rw [allAllowed_iff]
    cases times : timesOf operation operations with
    | nil => exact fun first rest inside => by cases List.infix_nil.mp inside
    | cons first rest =>
        rw [times] at spaced
        rw [earnings]
        exact affordable_of_pos positive (earnings_pos divides spaced)

/-- Seven notes a minute. -/
def sevenNotes : RateLimits where
  notesPerMinute := 7
  queriesPerMinute := 1200
  authEventsPerMinute := 30
  messagesPerMinute := 6000

/-- Thirty authentications a minute, one every two seconds. -/
theorem rateLimit_fair_iff_auth : (sevenNotes.maxPerMinute .auth).toNat ∣ 60 ∧
    ∀ answer ∈ answersTo sevenNotes .auth (evenly .auth (2 * nanosPerSecond) 100), answer.2 = .allowed := by
  have divides : (sevenNotes.maxPerMinute .auth).toNat ∣ 60 := by decide
  refine ⟨divides, ((rateLimit_fair_iff sevenNotes .auth (by decide)).1.mpr divides).1 _
    (inOrder_evenly _ _ _) ?_⟩
  rw [timesOf_evenly]
  exact spaced_ticks (by decide) _ _

/-- Every 8.6 seconds are more than a seventh of a minute, but 8 seconds are worth no token. -/
theorem rateLimit_starves : ¬ ∀ operations, InOrder operations →
    Spaced (sevenNotes.maxPerMinute .write) (timesOf .write operations) →
    ∀ answer ∈ answersTo sevenNotes .write operations, answer.2 = .allowed := by
  intro fair
  have allowed := fair (evenly .write 8600000000 8) (inOrder_evenly _ _ _) (by
    rw [timesOf_evenly]
    exact spaced_ticks (by decide) _ _)
  rw [allAllowed_iff, timesOf_evenly] at allowed
  have bound := length_le_of_affordable allowed (by decide +kernel)
  rw [length_earnings, List.length_iterate] at bound
  revert bound
  decide

end RustNostr.NostrSdk.LocalRelay
