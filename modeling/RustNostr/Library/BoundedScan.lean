import Mathlib

/-! Scans of several sorted streams that share a bound. Each scan collects the
items below the bound, stops at the limit and then lowers the bound for the
scans after it. What is collected has the same first items as everything the
streams hold. -/

set_option autoImplicit false

namespace RustNostr.Library.BoundedScan

variable {α : Type} [LinearOrder α]

/-- The items one scan keeps and the bound it leaves: at the limit, the ceiling
of the last item, if that is lower. -/
def advance (limit : Option Nat) (ceiling : α → α) : List α → Nat → α → α × List α
  | [], _, bound => (bound, [])
  | item :: rest, count, bound =>
      if limit.any (· ≤ count + 1) then (min bound (ceiling item), [item])
      else ((advance limit ceiling rest (count + 1) bound).1,
        item :: (advance limit ceiling rest (count + 1) bound).2)

theorem advance_subset (limit : Option Nat) (ceiling : α → α) (batch : List α) (count : Nat)
    (bound : α) : (advance limit ceiling batch count bound).2 ⊆ batch := by
  induction batch generalizing count with
  | nil => exact List.Subset.refl _
  | cons item rest ih =>
      unfold advance
      split
      · exact List.cons_subset_cons item (List.nil_subset rest)
      · exact List.cons_subset_cons item (ih (count + 1))

theorem advance_le (limit : Option Nat) (ceiling : α → α) (batch : List α) (count : Nat)
    (bound : α) : (advance limit ceiling batch count bound).1 ≤ bound := by
  induction batch generalizing count with
  | nil => exact le_refl bound
  | cons item rest ih =>
      unfold advance
      split
      · exact min_le_left bound (ceiling item)
      · exact ih (count + 1)

theorem advance_unlimited (ceiling : α → α) (batch : List α) (count : Nat) (bound : α) :
    advance none ceiling batch count bound = (bound, batch) := by
  induction batch generalizing count with
  | nil => rfl
  | cons item rest ih => simp [advance, ih]

/-- A scan either runs out of items or stops at the limit. -/
theorem advance_limited (limit : Nat) (ceiling : α → α) (batch : List α) (count : Nat)
    (bound : α) (below : count < limit) :
    (batch.length < limit - count ∧
      advance (some limit) ceiling batch count bound = (bound, batch)) ∨
    ∃ last, batch[limit - count - 1]? = some last ∧
      advance (some limit) ceiling batch count bound =
        (min bound (ceiling last), batch.take (limit - count)) := by
  induction batch generalizing count with
  | nil => exact .inl ⟨by simpa using below, rfl⟩
  | cons item rest ih =>
      by_cases reached : limit = count + 1
      · refine .inr ⟨item, ?_, ?_⟩
        · simp [reached]
        · simp [advance, reached]
      · have continues : ¬ limit ≤ count + 1 := by omega
        have later : limit - count = limit - (count + 1) + 1 := by omega
        have index : limit - count - 1 = limit - (count + 1) - 1 + 1 := by omega
        rcases ih (count + 1) (by omega) with ⟨short, rests⟩ | ⟨last, found, stops⟩
        · refine .inl ⟨?_, ?_⟩
          · rw [List.length_cons]
            omega
          · simp [advance, continues, rests]
        · refine .inr ⟨last, ?_, ?_⟩
          · rw [index, List.getElem?_cons_succ]
            exact found
          · rw [later, List.take_succ_cons]
            simp [advance, continues, stops]

/-- `limit` different collected items come before the item. -/
def Covered (limit : Nat) (collected : Set α) (item : α) : Prop :=
  ∃ front : List α, front.Nodup ∧ front.length = limit ∧
    ∀ other ∈ front, other ∈ collected ∧ other < item

/-- The item is collected, or the limit leaves no room for it. -/
def Settled (limit : Option Nat) (collected : Set α) (item : α) : Prop :=
  item ∈ collected ∨ ∃ count, limit = some count ∧ Covered count collected item

theorem Settled.mono {limit : Option Nat} {collected more : Set α} {item : α}
    (settled : Settled limit collected item) (grows : collected ⊆ more) :
    Settled limit more item := by
  rcases settled with member | ⟨count, limited, front, distinct, length, before⟩
  · exact .inl (grows member)
  · exact .inr ⟨count, limited, front, distinct, length, fun other member =>
      ⟨grows (before other member).1, (before other member).2⟩⟩

theorem settled_none {collected : Set α} {item : α} :
    Settled none collected item ↔ item ∈ collected := by
  simp [Settled]

theorem settled_zero (collected : Set α) (item : α) : Settled (some 0) collected item :=
  .inr ⟨0, rfl, [], List.nodup_nil, rfl, by simp⟩

/-- None of the first `limit` items comes after one of the later ones, nor after
the last of them. Sorted batches have this for every limit. -/
def Partitioned (limit : Nat) (batch : List α) : Prop :=
  ∀ front ∈ batch.take limit, ∀ back ∈ batch.drop (limit - 1), front ≤ back

theorem partitioned_of_sorted {batch : List α} (sorted : batch.Pairwise (· < ·)) (limit : Nat) :
    Partitioned limit batch := by
  intro front frontMember back backMember
  obtain ⟨i, inTake, rfl⟩ := List.mem_iff_getElem.mp frontMember
  obtain ⟨j, inDrop, rfl⟩ := List.mem_iff_getElem.mp backMember
  rw [List.length_take] at inTake
  rw [List.length_drop] at inDrop
  rw [List.getElem_take, List.getElem_drop]
  rcases Nat.lt_or_ge i (limit - 1 + j) with less | greater
  · exact (List.pairwise_iff_getElem.mp sorted i (limit - 1 + j) (by omega) (by omega) less).le
  · have same : i = limit - 1 + j := by omega
    simp only [same, le_refl]

/-- A partition stays one when a bound cuts items off. -/
theorem Partitioned.filter {limit : Nat} {batch : List α} (partitioned : Partitioned limit batch)
    (bound : α) : Partitioned limit (batch.filter (· < bound)) := by
  by_cases positive : limit = 0
  · intro front member
    simp [positive] at member
  by_cases reaches : ∃ back ∈ batch.drop (limit - 1), back < bound
  · obtain ⟨back, backMember, below⟩ := reaches
    have keepsFront : (batch.take limit).filter (· < bound) = batch.take limit := by
      refine List.filter_eq_self.mpr fun front member => ?_
      simpa using (partitioned front member back backMember).trans_lt below
    have keepsInit : (batch.take (limit - 1)).filter (· < bound) = batch.take (limit - 1) := by
      refine List.filter_eq_self.mpr fun front member => ?_
      have early : front ∈ batch.take limit := List.take_subset_take_left batch (by omega) member
      simpa using (partitioned front early back backMember).trans_lt below
    have long : limit - 1 < batch.length := by
      have inside := List.length_pos_of_mem backMember
      rw [List.length_drop] at inside
      omega
    have split : batch.filter (· < bound) =
        batch.take (limit - 1) ++ (batch.drop (limit - 1)).filter (· < bound) := by
      conv_lhs => rw [← List.take_append_drop (limit - 1) batch, List.filter_append, keepsInit]
    have splitLater : batch.filter (· < bound) =
        batch.take limit ++ (batch.drop limit).filter (· < bound) := by
      conv_lhs => rw [← List.take_append_drop limit batch, List.filter_append, keepsFront]
    intro front frontMember last lastMember
    have front' : front ∈ batch.take limit := by
      rw [splitLater, List.take_append_of_le_length (by rw [List.length_take]; omega),
        List.take_of_length_le (by rw [List.length_take]; omega)] at frontMember
      exact frontMember
    have last' : last ∈ batch.drop (limit - 1) := by
      rw [split, List.drop_append_of_le_length (by rw [List.length_take]; omega),
        List.drop_of_length_le (by rw [List.length_take]; omega), List.nil_append] at lastMember
      exact (List.mem_filter.mp lastMember).1
    exact partitioned front front' last last'
  · have dropped : (batch.drop (limit - 1)).filter (· < bound) = [] := by
      refine List.filter_eq_nil_iff.mpr fun back member => ?_
      simpa using fun below => reaches ⟨back, member, below⟩
    intro front _ last lastMember
    rw [← List.take_append_drop (limit - 1) batch, List.filter_append, dropped,
      List.append_nil] at lastMember
    have short : ((batch.take (limit - 1)).filter (· < bound)).length ≤ limit - 1 :=
      (List.length_filter_le _ _).trans (List.length_take_le _ _)
    rw [List.drop_of_length_le short] at lastMember
    cases lastMember

/-- The first item of a stream, if it has one. -/
def firstOf (cell : Set α) : Set α := {item | item ∈ cell ∧ ∀ other ∈ cell, item ≤ other}

theorem mem_take_one {batch : List α} (sorted : batch.Pairwise (· < ·)) {cell : Set α} {bound : α}
    (lists : ∀ item, item ∈ batch ↔ item ∈ cell ∧ item < bound) (item : α) :
    item ∈ batch.take 1 ↔ item ∈ firstOf cell ∧ item < bound := by
  cases batch with
  | nil =>
      have none : ∀ item ∈ cell, ¬ item < bound := fun item member below => by
        cases (lists item).mpr ⟨member, below⟩
      simp only [List.take_nil, List.not_mem_nil, false_iff]
      exact fun found => none item found.1.1 found.2
  | cons head rest =>
      obtain ⟨later, _⟩ := List.pairwise_cons.mp sorted
      obtain ⟨inCell, below⟩ := (lists head).mp List.mem_cons_self
      simp only [List.take_succ_cons, List.take_zero, List.mem_singleton]
      constructor
      · intro same
        subst same
        refine ⟨⟨inCell, fun other member => ?_⟩, below⟩
        cases lt_or_ge other bound with
        | inl listed =>
            cases (lists other).mpr ⟨member, listed⟩ with
            | head => exact le_refl _
            | tail _ member => exact (later other member).le
        | inr cut => exact below.le.trans cut
      · intro found
        cases (lists item).mpr ⟨found.1.1, found.2⟩ with
        | head => rfl
        | tail _ member =>
            exact absurd (later item member) (not_lt.mpr (found.1.2 head inCell))

/-! ## One scan after the other -/

/-- All relevant items are in a list no longer than the limit. -/
def Fits (limit : Nat) (relevant : Set α) : Prop :=
  ∃ everything : List α, (∀ item ∈ relevant, item ∈ everything) ∧ everything.length ≤ limit

/-- What holds of the bound and the collected items once the streams of `seen`
are scanned. -/
structure Progress (limit : Option Nat) (relevant : Set α) (initial bound : α)
    (seen collected : Set α) : Prop where
  sound : collected ⊆ seen
  known : seen ⊆ relevant
  inside : seen ⊆ Set.Iio initial
  settled : ∀ item ∈ seen, Settled limit collected item
  dropped : ∀ item ∈ relevant, item < initial → bound ≤ item → Settled limit collected item

theorem Progress.start (limit : Option Nat) (relevant : Set α) (initial : α) :
    Progress limit relevant initial initial ∅ ∅ where
  sound := Set.Subset.refl _
  known := Set.empty_subset _
  inside := Set.empty_subset _
  settled _ member := absurd member (Set.notMem_empty _)
  dropped _ _ below above := absurd below (not_lt.mpr above)

private theorem covered_of_partitioned {limit : Nat} {batch : List α} {collected : Set α}
    (long : limit ≤ batch.length) (distinct : batch.Nodup)
    (partitioned : Partitioned limit batch) (kept : ∀ item ∈ batch.take limit, item ∈ collected)
    {item : α} (after : ∃ back ∈ batch.drop (limit - 1), back ≤ item)
    (uncollected : item ∉ collected) : Covered limit collected item := by
  obtain ⟨back, backMember, below⟩ := after
  refine ⟨batch.take limit, distinct.sublist (List.take_sublist _ _), ?_, fun front member => ?_⟩
  · rw [List.length_take]
    omega
  · have notAfter := (partitioned front member back backMember).trans below
    refine ⟨kept front member, lt_of_le_of_ne notAfter ?_⟩
    rintro rfl
    exact uncollected (kept front member)

theorem Progress.step {limit : Option Nat} {relevant seen collected cell : Set α}
    {initial bound : α} (progress : Progress limit relevant initial bound seen collected)
    {ceiling : α → α} (ceiling_le : ∀ item, item ≤ ceiling item) {batch : List α}
    (distinct : batch.Nodup) (lists : ∀ item, item ∈ batch ↔ item ∈ cell ∧ item < bound)
    (cellRelevant : cell ⊆ relevant) (cellInside : cell ⊆ Set.Iio initial)
    (orderly : ∀ count, limit = some count → Partitioned count batch ∨ Fits count relevant) :
    Progress limit relevant initial (advance limit ceiling batch 0 bound).1 (seen ∪ cell)
      (collected ∪ {item | item ∈ (advance limit ceiling batch 0 bound).2}) := by
  have keptInCell : {item | item ∈ (advance limit ceiling batch 0 bound).2} ⊆ cell :=
    fun item member => ((lists item).mp (advance_subset limit ceiling batch 0 bound member)).1
  -- Whatever the bound already cut off is settled, so only listed items are new.
  have cut : ∀ item ∈ relevant, item < initial → bound ≤ item → ∀ more,
      Settled limit (collected ∪ more) item := fun item member below above more =>
    (progress.dropped item member below above).mono Set.subset_union_left
  have reduce (keeps : ∀ item ∈ relevant, item < initial → item < bound →
      (item ∈ cell ∨ (advance limit ceiling batch 0 bound).1 ≤ item) →
      Settled limit (collected ∪ {item | item ∈ (advance limit ceiling batch 0 bound).2}) item) :
      Progress limit relevant initial (advance limit ceiling batch 0 bound).1 (seen ∪ cell)
        (collected ∪ {item | item ∈ (advance limit ceiling batch 0 bound).2}) := {
    sound := Set.union_subset_union progress.sound keptInCell
    known := Set.union_subset progress.known cellRelevant
    inside := Set.union_subset progress.inside cellInside
    settled := by
      rintro item (member | member)
      · exact (progress.settled item member).mono Set.subset_union_left
      · rcases lt_or_ge item bound with below | above
        · exact keeps item (cellRelevant member) (cellInside member) below (.inl member)
        · exact cut item (cellRelevant member) (cellInside member) above _
    dropped := by
      intro item member below above
      rcases lt_or_ge item bound with less | greater
      · exact keeps item member below less (.inr above)
      · exact cut item member below greater _ }
  apply reduce
  intro item member below less cause
  cases limit with
  | none =>
      rw [advance_unlimited] at cause ⊢
      rcases cause with inCell | above
      · exact .inl (.inr ((lists item).mpr ⟨inCell, less⟩))
      · exact absurd less (not_lt.mpr above)
  | some count =>
      rcases Nat.eq_zero_or_pos count with rfl | positive
      · exact settled_zero _ _
      rcases advance_limited count ceiling batch 0 bound positive with
        ⟨_, rests⟩ | ⟨last, found, stops⟩
      · rw [rests] at cause ⊢
        rcases cause with inCell | above
        · exact .inl (.inr ((lists item).mpr ⟨inCell, less⟩))
        · exact absurd less (not_lt.mpr above)
      · rw [stops] at cause ⊢
        simp only [Nat.sub_zero] at found cause ⊢
        by_cases kept : item ∈ collected ∪ {item | item ∈ batch.take count}
        · exact .inl kept
        have inBounds := (List.getElem?_eq_some_iff.mp found).1
        rcases orderly count rfl with partitioned | ⟨everything, complete, short⟩
        · refine .inr ⟨count, rfl, covered_of_partitioned (by omega) distinct partitioned
            (fun item member => .inr member) ?_ kept⟩
          rcases cause with inCell | above
          · have listed : item ∈ batch := (lists item).mpr ⟨inCell, less⟩
            rw [← List.take_append_drop count batch, List.mem_append] at listed
            rcases listed with early | late
            · exact absurd (.inr early) kept
            · exact ⟨item, List.drop_subset_drop_left batch (by omega) late, le_refl item⟩
          · refine ⟨last, ?_, ?_⟩
            · rw [← List.getElem?_eq_some_iff.mp found |>.2, List.mem_drop_iff_getElem]
              exact ⟨0, by omega, by simp⟩
            · rcases min_le_iff.mp above with bounded | ceilinged
              · exact absurd less (not_lt.mpr bounded)
              · exact (ceiling_le last).trans ceilinged
        · -- The kept items are all there are.
          have keptDistinct := distinct.sublist (List.take_sublist count batch)
          have keptListed : batch.take count ⊆ everything := fun item member =>
            complete item (cellRelevant ((lists item).mp (List.mem_of_mem_take member)).1)
          have perm := (keptDistinct.subperm keptListed).perm_of_length_le (by
            rw [List.length_take]
            omega)
          exact absurd (.inr (perm.mem_iff.mpr (complete item member))) kept

/-! ## The first items -/

theorem mem_take_of_sorted {items : List α} (sorted : items.Pairwise (· < ·)) {limit : Nat}
    {item : α} :
    item ∈ items.take limit ↔ item ∈ items ∧ (items.filter (· < item)).length < limit := by
  induction items generalizing limit with
  | nil => simp
  | cons head rest ih =>
      obtain ⟨below, restSorted⟩ := List.pairwise_cons.mp sorted
      cases limit with
      | zero => simp
      | succ limit =>
          rw [List.take_succ_cons, List.mem_cons, ih restSorted, List.mem_cons]
          by_cases same : item = head
          · have none : rest.filter (· < item) = [] := by
              refine List.filter_eq_nil_iff.mpr fun other member => ?_
              simpa [same] using (below other member).le
            subst same
            simp [none]
          · have first : ∀ member : item ∈ rest,
                (head :: rest).filter (· < item) = head :: rest.filter (· < item) :=
              fun member => by simp [below item member]
            constructor
            · rintro (equal | ⟨member, few⟩)
              · exact absurd equal same
              · refine ⟨.inr member, ?_⟩
                rw [first member, List.length_cons]
                omega
            · rintro ⟨equal | member, few⟩
              · exact absurd equal same
              · refine .inr ⟨member, ?_⟩
                rw [first member, List.length_cons] at few
                omega

theorem Covered.le_length {limit : Nat} {collected : List α} {item : α}
    (covered : Covered limit {other | other ∈ collected} item) :
    limit ≤ (collected.filter (· < item)).length := by
  obtain ⟨front, distinct, rfl, before⟩ := covered
  refine (distinct.subperm fun other member => ?_).length_le
  simpa using before other member

/-- If every item that was left out is covered, nothing of the first `limit`
items is missing. -/
theorem take_eq_of_settled {limit : Nat} {collected all : List α}
    (collectedSorted : collected.Pairwise (· < ·)) (allSorted : all.Pairwise (· < ·))
    (sound : collected ⊆ all)
    (settled : ∀ item ∈ all, Settled (some limit) {other | other ∈ collected} item) :
    collected.take limit = all.take limit := by
  have distinct : collected.Nodup := collectedSorted.imp ne_of_lt
  have fewer : ∀ item, (collected.filter (· < item)).length ≤ (all.filter (· < item)).length :=
    fun item => ((distinct.filter _).subperm (List.filter_subset _ sound)).length_le
  have missing : ∀ item ∈ all, item ∉ collected →
      limit ≤ (collected.filter (· < item)).length := by
    intro item member absent
    rcases settled item member with present | ⟨_, same, covered⟩
    · exact absurd present absent
    · cases same
      exact covered.le_length
  have members : ∀ item, item ∈ collected.take limit ↔ item ∈ all.take limit := by
    intro item
    rw [mem_take_of_sorted collectedSorted, mem_take_of_sorted allSorted]
    constructor
    · rintro ⟨member, few⟩
      refine ⟨sound member, ?_⟩
      -- An item left out before this one would be covered by too many.
      have same : ∀ other ∈ all.filter (· < item), other ∈ collected.filter (· < item) := by
        intro other otherMember
        obtain ⟨inAll, before⟩ := List.mem_filter.mp otherMember
        refine List.mem_filter.mpr ⟨?_, before⟩
        by_contra absent
        have before : other < item := by simpa using before
        have grows : (collected.filter (· < other)).length ≤
            (collected.filter (· < item)).length := by
          refine ((distinct.filter _).subperm fun third thirdMember => ?_).length_le
          simp only [List.mem_filter, decide_eq_true_eq] at thirdMember ⊢
          exact ⟨thirdMember.1, thirdMember.2.trans before⟩
        exact absurd few (not_lt.mpr ((missing other inAll absent).trans grows))
      have allDistinct : all.Nodup := allSorted.imp ne_of_lt
      exact ((allDistinct.filter _).subperm same).length_le.trans_lt few
    · rintro ⟨member, few⟩
      by_cases present : item ∈ collected
      · exact ⟨present, (fewer item).trans_lt few⟩
      · exact absurd ((missing item member present).trans (fewer item)) (not_le.mpr few)
  have sortedTake {items : List α} (sorted : items.Pairwise (· < ·)) :=
    sorted.sublist (List.take_sublist limit items)
  exact ((List.perm_ext_iff_of_nodup ((sortedTake collectedSorted).imp ne_of_lt)
    ((sortedTake allSorted).imp ne_of_lt)).mpr members).eq_of_pairwise
    (fun _ _ _ _ forward backward => absurd forward (not_lt.mpr backward.le))
    (sortedTake collectedSorted) (sortedTake allSorted)

/-! ## How many items -/

/-- As many different items are collected as the limit asks for. -/
def Full (limit : Option Nat) (collected : Set α) : Prop :=
  ∃ front : List α, limit = some front.length ∧ front.Nodup ∧ ∀ item ∈ front, item ∈ collected

omit [LinearOrder α] in
theorem Full.mono {limit : Option Nat} {collected more : Set α} (full : Full limit collected)
    (grows : collected ⊆ more) : Full limit more := by
  obtain ⟨front, limited, distinct, kept⟩ := full
  exact ⟨front, limited, distinct, fun item member => grows (kept item member)⟩

/-- A limit leaves no room for an item only if it is reached. -/
theorem full_or_subset {limit : Option Nat} {collected answers : Set α}
    (settled : ∀ item ∈ answers, Settled limit collected item) :
    Full limit collected ∨ answers ⊆ collected := by
  by_cases reached : Full limit collected
  · exact .inl reached
  · refine .inr fun item member => ?_
    cases settled item member with
    | inl present => exact present
    | inr covered =>
        obtain ⟨count, limited, front, distinct, length, before⟩ := covered
        exact absurd ⟨front, by rw [limited, length], distinct,
          fun other otherMember => (before other otherMember).1⟩ reached

/-- What holds once the streams of `seen` are scanned, in whatever order each of
them lists its items: unless the limit is reached, nothing was left out. -/
structure Tally (limit : Option Nat) (initial bound : α) (seen collected : Set α) : Prop where
  sound : collected ⊆ seen
  enough : Full limit collected ∨ (bound = initial ∧ seen ⊆ collected)

omit [LinearOrder α] in
theorem Tally.start (limit : Option Nat) (initial : α) : Tally limit initial initial ∅ ∅ where
  sound := Set.Subset.refl _
  enough := .inr ⟨rfl, Set.Subset.refl _⟩

theorem Tally.step {limit : Option Nat} {initial bound : α} {seen collected cell : Set α}
    (tally : Tally limit initial bound seen collected) (ceiling : α → α) {batch : List α}
    (distinct : batch.Nodup) (lists : ∀ item, item ∈ batch ↔ item ∈ cell ∧ item < bound)
    (cellInside : cell ⊆ Set.Iio initial) :
    Tally limit initial (advance limit ceiling batch 0 bound).1 (seen ∪ cell)
      (collected ∪ {item | item ∈ (advance limit ceiling batch 0 bound).2}) where
  sound := Set.union_subset_union tally.sound fun item member =>
    ((lists item).mp (advance_subset limit ceiling batch 0 bound member)).1
  enough := by
    cases tally.enough with
    | inl full => exact .inl (full.mono Set.subset_union_left)
    | inr complete =>
        obtain ⟨unmoved, all⟩ := complete
        subst unmoved
        have exhausted : advance limit ceiling batch 0 bound = (bound, batch) →
            (advance limit ceiling batch 0 bound).1 = bound ∧ seen ∪ cell ⊆
              collected ∪ {item | item ∈ (advance limit ceiling batch 0 bound).2} := by
          intro rests
          rw [rests]
          exact ⟨rfl, Set.union_subset_union all fun item member =>
            (lists item).mpr ⟨member, cellInside member⟩⟩
        cases limit with
        | none => exact .inr (exhausted (advance_unlimited ceiling batch 0 bound))
        | some count =>
            cases Nat.eq_zero_or_pos count with
            | inl zero =>
                exact .inl ⟨[], by rw [zero, List.length_nil], List.nodup_nil,
                  fun item member => by cases member⟩
            | inr positive =>
                cases advance_limited count ceiling batch 0 bound positive with
                | inl rests => exact .inr (exhausted rests.2)
                | inr stops =>
                    obtain ⟨last, found, stops⟩ := stops
                    rw [Nat.sub_zero] at found stops
                    have long := (List.getElem?_eq_some_iff.mp found).1
                    rw [stops]
                    refine .inl ⟨batch.take count, ?_, distinct.sublist (List.take_sublist _ _),
                      fun item member => .inr member⟩
                    rw [List.length_take, min_eq_left (by omega)]

omit [LinearOrder α] in
/-- However the items were collected, the limit decides how many of them there
are. -/
theorem length_of_full_or_subset {limit : Option Nat} {collected all : List α}
    (collectedDistinct : collected.Nodup) (allDistinct : all.Nodup) (sound : collected ⊆ all)
    (enough : Full limit {item | item ∈ collected} ∨
      {item | item ∈ all} ⊆ {item | item ∈ collected}) :
    (∃ count, limit = some count ∧ count ≤ collected.length ∧ count ≤ all.length) ∨
      collected.length = all.length := by
  have fewer := (collectedDistinct.subperm sound).length_le
  cases enough with
  | inl full =>
      obtain ⟨front, limited, distinct, kept⟩ := full
      have reached := (distinct.subperm kept).length_le
      exact .inl ⟨front.length, limited, reached, reached.trans fewer⟩
  | inr complete => exact .inr (fewer.antisymm (allDistinct.subperm complete).length_le)

end RustNostr.Library.BoundedScan
