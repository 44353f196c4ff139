import Mathlib
import RustNostr.Library.TableTotals
import RustNostr.NostrSdk.LocalRelay.GiftWraps
import RustNostr.NostrSdk.LocalRelay.Stages

/-!
# What a session keeps

The books of a session: its subscriptions with the sum of their sizes, and its
reconciliations with the items they retain. Both stay within the limits of the
relay whatever the client sends, and when live events are lost.
-/

set_option autoImplicit false

namespace RustNostr.NostrSdk.LocalRelay

open Library Transaction Handler

variable {ν α : Type}

/-! ## The books -/

/-- A session that differs at most in who has authenticated. -/
structure SameBooks (books session : Session ν) : Prop where
  subscriptions : session.subscriptions = books.subscriptions
  subscriptionBytes : session.subscriptionBytes = books.subscriptionBytes
  negentropy : session.negentropySubscription = books.negentropySubscription

structure Accounted (relay : InnerLocalRelay ν) (session : Session ν) : Prop where
  bytes : session.subscriptionBytes = session.subscriptions.total Subscription.size
  bytes_le : session.subscriptionBytes ≤ relay.maxSubscriptionBytes
  reqs : session.subscriptions.len ≤ relay.maxReqs
  reconciliations : session.negentropySubscription.len ≤ relay.maxNegentropySubscriptions
  items : session.negentropySubscription.total NegentropySubscription.items ≤
    relay.maxNegentropyItems

variable {relay : InnerLocalRelay ν} {books session : Session ν} {id : SubscriptionId}

namespace SameBooks

theorem refl (session : Session ν) : SameBooks session session := ⟨rfl, rfl, rfl⟩

theorem accounted (same : SameBooks books session) (accounted : Accounted relay books) :
    Accounted relay session := by
  obtain ⟨bytes, bytes_le, reqs, reconciliations, items⟩ := accounted
  constructor
  · rw [same.subscriptionBytes, same.subscriptions, bytes]
  · rwa [same.subscriptionBytes]
  · rwa [same.subscriptions]
  · rwa [same.negentropy]
  · rwa [same.negentropy]

end SameBooks

namespace Accounted

theorem empty : Accounted relay ({} : Session ν) :=
  ⟨rfl, Nat.zero_le _, Nat.zero_le _, Nat.zero_le _, Nat.zero_le _⟩

theorem removeSubscription (accounted : Accounted relay session) :
    Accounted relay (session.removeSubscription id) := by
  unfold Session.removeSubscription
  cases found : session.subscriptions.get? id with
  | none => exact accounted
  | some subscription =>
      have bytes := accounted.bytes
      rw [SortedTable.total_eq_delete _ found] at bytes
      have bound := accounted.bytes_le
      refine ⟨?_, ?_, ?_, accounted.reconciliations, accounted.items⟩
      · change session.subscriptionBytes - subscription.size =
          (session.subscriptions.delete id).total Subscription.size
        omega
      · exact (Nat.sub_le _ _).trans bound
      · exact SortedTable.len_delete_le.trans accounted.reqs

/-- A subscription that fits, under an ID that has room, is accounted for. -/
theorem insertSubscription (accounted : Accounted relay session) {filters : List Filter}
    {size : Nat} (fits : session.subscriptionFits id size relay.maxSubscriptionBytes = true)
    (room : (session.subscriptions.get? id).isSome ∨ session.subscriptions.len < relay.maxReqs) :
    Accounted relay (session.insertSubscription id filters size) := by
  have bytes := accounted.bytes
  have released : session.subscriptionBytes -
      ((session.subscriptions.get? id).map Subscription.size).getD 0 =
        (session.subscriptions.delete id).total Subscription.size := by
    cases found : session.subscriptions.get? id with
    | none =>
        rw [SortedTable.delete_of_absent found, ← bytes]
        rfl
    | some previous =>
        rw [SortedTable.total_eq_delete _ found] at bytes
        change session.subscriptionBytes - previous.size = _
        omega
  have fits : (session.subscriptions.delete id).total Subscription.size + size ≤ usizeMax ∧
      (session.subscriptions.delete id).total Subscription.size + size ≤
        relay.maxSubscriptionBytes := by
    simp only [Session.subscriptionFits, checkedAdd, released] at fits
    split at fits
    · next fitsUsize => exact ⟨fitsUsize, by simpa using fits⟩
    · cases fits
  have inserted : (session.insertSubscription id filters size).subscriptionBytes =
      (session.subscriptions.delete id).total Subscription.size + size := by
    have sum : saturatingAdd ((session.subscriptions.delete id).total Subscription.size) size =
        (session.subscriptions.delete id).total Subscription.size + size := by
      unfold saturatingAdd
      omega
    rw [← sum, ← released]
    cases found : session.subscriptions.get? id <;> simp [Session.insertSubscription, found]
  refine ⟨?_, ?_, ?_, accounted.reconciliations, accounted.items⟩
  · rw [inserted, Nat.add_comm]
    exact (session.subscriptions.total_put Subscription.size id { filters, size }).symm
  · rw [inserted]
    exact fits.2
  · simp only [Session.insertSubscription, SortedTable.len_put_eq]
    have reqs := accounted.reqs
    rcases room with present | free
    · simpa [present] using reqs
    · split <;> omega

theorem removeNegentropy (accounted : Accounted relay session) :
    Accounted relay (InnerLocalRelay.removeNegentropy id session) where
  bytes := accounted.bytes
  bytes_le := accounted.bytes_le
  reqs := accounted.reqs
  reconciliations := SortedTable.len_delete_le.trans accounted.reconciliations
  items := (SortedTable.total_delete_le _ _ _).trans accounted.items

/-- A reconciliation under an ID that has room, with items beside those of the
others, is accounted for. -/
theorem putNegentropy (accounted : Accounted relay session)
    {subscription : NegentropySubscription ν}
    (room : (session.negentropySubscription.get? id).isSome ∨
      session.negentropySubscription.len < relay.maxNegentropySubscriptions)
    (fits : subscription.items +
      (session.negentropySubscription.delete id).total NegentropySubscription.items ≤
        relay.maxNegentropyItems) :
    Accounted relay { session with
      negentropySubscription := session.negentropySubscription.put id subscription } where
  bytes := accounted.bytes
  bytes_le := accounted.bytes_le
  reqs := accounted.reqs
  reconciliations := by
    have reconciliations := accounted.reconciliations
    rw [SortedTable.len_put_eq]
    rcases room with present | free
    · simpa [present] using reconciliations
    · split <;> omega
  items := by rwa [SortedTable.total_put]

end Accounted

/-! ## The handlers -/

/-- The books are those the handler found. -/
def Unchanged (books : Session ν) (conversation : Conversation ν) : Prop :=
  SameBooks books conversation.session

/-- Whatever becomes of the message, the books stay in order. -/
def Settles (relay : InnerLocalRelay ν) (books : Session ν) (program : Handler ν α) : Prop :=
  Triple (Unchanged books) program fun _ conversation => Accounted relay conversation.session

theorem quiet_unchanged (books : Session ν) : Quiet (fun _ => True) (Unchanged books) where
  tell _ _ _ same := same
  challenge _ _ same := ⟨same.subscriptions, same.subscriptionBytes, same.negentropy⟩
  broadcast _ _ same := same

theorem sendDisclosing_unchanged (message : RelayMessage) (events : List Event) :
    Preserves (Unchanged books) (sendDisclosing message events : Handler ν Unit) :=
  fun _ same => same

theorem getSession_establishes_same :
    Establishes (Unchanged books) (getSession : Handler ν (Session ν)) (SameBooks books) := by
  intro conversation same
  refine ⟨same, fun session found => ?_⟩
  cases found
  exact same

theorem setSession_settles (accounted : Accounted relay session) :
    Settles relay books (setSession session) :=
  fun _ _ => accounted

namespace Settles

theorem of_unchanged {program : Handler ν α} (accounted : Accounted relay books)
    (unchanged : Preserves (Unchanged books) program) : Settles relay books program :=
  fun conversation same => (unchanged conversation same).accounted accounted

theorem bind {β : Type} {first : Handler ν α} {next : α → Handler ν β} {fact : α → Prop}
    (accounted : Accounted relay books) (established : Establishes (Unchanged books) first fact)
    (rest : ∀ value, fact value → Settles relay books (next value)) :
    Settles relay books (first >>= next) := by
  refine Triple.bind (fun value conversation => Unchanged books conversation ∧ fact value) ?_ ?_
  · intro conversation same
    obtain ⟨kept, known⟩ := established conversation same
    revert kept known
    cases (first.run conversation).1 with
    | ok value => exact fun kept known => ⟨kept, known value rfl⟩
    | error error => exact fun kept _ => kept.accounted accounted
  · exact fun value conversation known => rest value known.2 conversation known.1

theorem bind_unchanged {β : Type} {first : Handler ν α} {next : α → Handler ν β}
    (accounted : Accounted relay books) (unchanged : Preserves (Unchanged books) first)
    (rest : ∀ value, Settles relay books (next value)) : Settles relay books (first >>= next) :=
  bind accounted (Establishes.of_preserves unchanged fun _ => trivial) fun value _ => rest value

end Settles

namespace InnerLocalRelay

variable {surroundings : Surroundings}

/-- What a REQ finds that is let in. -/
theorem admitReq_establishes (filters : List Filter) (requestSize : Nat) :
    Establishes (Unchanged books) (relay.admitReq surroundings id filters requestSize) fun _ =>
      books.subscriptionFits id requestSize relay.maxSubscriptionBytes = true ∧
        ((books.subscriptions.get? id).isSome ∨ books.subscriptions.len < relay.maxReqs) := by
  have quiet := quiet_unchanged books
  unfold admitReq
  apply Establishes.bind getSession_establishes_same
  intro session same
  apply Establishes.bind (quiet.replyIf_establishes trivial)
  intro _ _
  apply Establishes.bind (quiet.replyIf_establishes trivial)
  intro _ _
  apply Establishes.bind (quiet.replyIf_establishes trivial)
  intro _ room
  apply Establishes.bind (quiet.replyIf_establishes trivial)
  intro _ _
  apply Establishes.bind (quiet.replyIf_establishes trivial)
  intro _ fits
  refine Establishes.of_preserves (quiet.checkReadAuth relay surroundings fun _ => trivial)
    fun _ => ⟨?_, ?_⟩
  · have books_fits : books.subscriptionFits id requestSize relay.maxSubscriptionBytes =
        session.subscriptionFits id requestSize relay.maxSubscriptionBytes := by
      simp only [Session.subscriptionFits, same.subscriptions, same.subscriptionBytes]
    rw [books_fits]
    simpa using fits
  · rw [same.subscriptions] at room
    cases found : books.subscriptions.get? id with
    | none => simpa [found] using room
    | some subscription => exact .inl rfl

theorem keepSubscription_settles (accounted : Accounted relay books) {filters : List Filter}
    {requestSize found : Nat}
    (fits : books.subscriptionFits id requestSize relay.maxSubscriptionBytes = true)
    (room : (books.subscriptions.get? id).isSome ∨ books.subscriptions.len < relay.maxReqs) :
    Settles relay books (keepSubscription id filters requestSize found) := by
  unfold keepSubscription
  split
  · exact .of_unchanged accounted ((quiet_unchanged books).send trivial)
  · apply Settles.bind accounted getSession_establishes_same
    intro session same
    apply setSession_settles
    apply (same.accounted accounted).insertSubscription
    · simpa only [Session.subscriptionFits, same.subscriptions, same.subscriptionBytes] using fits
    · rwa [same.subscriptions]

theorem handleReq_settles (accounted : Accounted relay books) (filters : List Filter)
    (requestSize : Nat) :
    Settles relay books (relay.handleReq surroundings id filters requestSize) := by
  have quiet := quiet_unchanged books
  apply Settles.bind accounted (admitReq_establishes filters requestSize)
  intro _ admitted
  apply Settles.bind_unchanged accounted
    (mapM_preserves fun filter _ => quiet.admitQuery relay (fun _ => trivial) filter)
  intro filters
  apply Settles.bind_unchanged accounted
    (quiet.authorizeFilters relay surroundings (fun _ => trivial) filters)
  intro _
  apply Settles.bind_unchanged accounted (quiet.limitFilters relay (fun _ => trivial) filters)
  intro filters
  apply Settles.bind_unchanged accounted (propagate_preserves _)
  intro events
  apply Settles.bind_unchanged accounted
    (Preserves.forM fun event _ => sendDisclosing_unchanged _ _)
  intro _
  apply Settles.bind_unchanged accounted (quiet.send trivial)
  intro _
  exact keepSubscription_settles accounted admitted.1 admitted.2

theorem handleCount_unchanged (filter : Filter) :
    Preserves (Unchanged books) (relay.handleCount surroundings id filter) := by
  have quiet := quiet_unchanged books
  apply Preserves.bind (quiet.replyIf trivial)
  intro _
  apply Preserves.bind (quiet.checkReadAuth relay surroundings fun _ => trivial)
  intro _
  apply Preserves.bind (quiet.admitQuery relay (fun _ => trivial) filter)
  intro filter
  apply Preserves.bind (quiet.authorizeFilters relay surroundings (fun _ => trivial) [filter])
  intro _
  apply Preserves.bind (propagate_preserves _)
  intro counted
  exact sendDisclosing_unchanged _ _

theorem answerAuth_books (relay : InnerLocalRelay ν) (surroundings : Surroundings) (session : Session ν) (event : Event) :
    SameBooks session (relay.answerAuth surroundings session event).1 := by
  unfold answerAuth
  split <;> exact ⟨rfl, rfl, rfl⟩

theorem handleAuth_unchanged (event : Event) :
    Preserves (Unchanged books) (relay.handleAuth surroundings event) := by
  apply Preserves.bind ((quiet_unchanged books).replyIf trivial)
  intro _ conversation same
  have books := relay.answerAuth_books surroundings conversation.session event
  exact ⟨books.subscriptions.trans same.subscriptions,
    books.subscriptionBytes.trans same.subscriptionBytes, books.negentropy.trans same.negentropy⟩

/-- The items of the others, up to the greatest number there is. -/
theorem retainedItems_eq (session : Session ν) (id : SubscriptionId) :
    retainedItems session id = min usizeMax
      ((session.negentropySubscription.delete id).total NegentropySubscription.items) := by
  have sums : ∀ (entries : List (SubscriptionId × NegentropySubscription ν)) (start : Nat),
      start ≤ usizeMax →
      entries.foldl (fun total entry => saturatingAdd total entry.2.items) start =
        min usizeMax (start + (entries.map fun entry => entry.2.items).sum) := by
    intro entries
    induction entries with
    | nil =>
        intro start bound
        simpa using bound
    | cons entry entries ih =>
        intro start bound
        have bounded : saturatingAdd start entry.2.items ≤ usizeMax := min_le_right _ _
        rw [List.foldl_cons, ih _ bounded, List.map_cons, List.sum_cons, saturatingAdd]
        omega
  unfold retainedItems
  rw [sums _ 0 (Nat.zero_le _), Nat.zero_add]
  simp only [SortedTable.total, SortedTable.values, SortedTable.delete, List.map_map]
  rfl

theorem admitNegOpen_establishes :
    Establishes (Unchanged books) (relay.admitNegOpen surroundings id) fun _ =>
      (books.negentropySubscription.get? id).isSome ∨
        books.negentropySubscription.len < relay.maxNegentropySubscriptions := by
  have quiet := quiet_unchanged books
  unfold admitNegOpen
  apply Establishes.bind getSession_establishes_same
  intro session same
  apply Establishes.bind (quiet.replyIf_establishes trivial)
  intro _ _
  apply Establishes.bind (quiet.replyIf_establishes trivial)
  intro _ _
  apply Establishes.bind (quiet.replyIf_establishes trivial)
  intro _ room
  refine Establishes.of_preserves (quiet.checkReadAuth relay surroundings fun _ => trivial)
    fun _ => ?_
  rw [same.negentropy] at room
  cases found : books.negentropySubscription.get? id with
  | none => simpa [found] using room
  | some subscription => exact .inl rfl

variable {abandon : Session ν → Session ν}

theorem reconcile_settles {storage : List Event} {state : ν} {message : Bytes}
    (accounted : Accounted relay books)
    (abandons : ∀ session, SameBooks books session → Accounted relay (abandon session))
    (keeps : ∀ session state, SameBooks books session → Accounted relay { session with
      negentropySubscription := session.negentropySubscription.put id { storage, state } }) :
    Settles relay books (relay.reconcile id storage state message abandon) := by
  unfold reconcile
  apply Settles.bind accounted getSession_establishes_same
  intro session same
  split
  · exact fun _ _ => abandons session same
  · next answer state' _ => exact fun _ _ => keeps session state' same

/-- A message that cannot be decoded ends the handler. -/
theorem decodeMessage_settles {message : String} {next : Bytes → Handler ν Unit}
    (accounted : Accounted relay books)
    (abandons : ∀ session, SameBooks books session → Accounted relay (abandon session))
    (rest : ∀ bytes, Settles relay books (next bytes)) :
    Settles relay books (relay.decodeMessage id message abandon >>= next) := by
  unfold decodeMessage
  cases relay.local_.hexDecode message with
  | some bytes => exact Settles.bind_unchanged accounted (Preserves.pure bytes) rest
  | none => exact fun conversation same => abandons conversation.session same

theorem openReconciliation_settles (accounted : Accounted relay books)
    (isUsize : relay.maxNegentropyItems ≤ usizeMax) (filter : Filter) (initialMessage : Bytes)
    (room : (books.negentropySubscription.get? id).isSome ∨
      books.negentropySubscription.len < relay.maxNegentropySubscriptions) :
    Settles relay books (relay.openReconciliation surroundings id filter initialMessage) := by
  unfold openReconciliation
  apply Settles.bind accounted getSession_establishes_same
  intro session same
  apply Settles.bind_unchanged accounted (propagate_preserves _)
  intro items
  apply Settles.bind accounted ((quiet_unchanged books).replyIf_establishes trivial)
  intro _ fits
  apply Settles.bind_unchanged accounted (propagate_preserves _)
  intro state
  apply reconcile_settles accounted fun session same => same.accounted accounted
  intro session' state' same'
  have retained := retainedItems_eq session id
  have total := (books.negentropySubscription.total_delete_le NegentropySubscription.items id).trans
    accounted.items
  apply (same'.accounted accounted).putNegentropy
  · rwa [same'.negentropy]
  · rw [same.negentropy] at retained
    rw [same'.negentropy]
    simp only [decide_eq_false_iff_not, not_lt] at fits
    change items.length + _ ≤ _
    omega

theorem handleNegOpen_settles (accounted : Accounted relay books)
    (isUsize : relay.maxNegentropyItems ≤ usizeMax) (filter : Filter) (initialMessage : String) :
    Settles relay books (relay.handleNegOpen surroundings id filter initialMessage) := by
  have quiet := quiet_unchanged books
  apply Settles.bind accounted admitNegOpen_establishes
  intro _ room
  apply Settles.bind_unchanged accounted (quiet.admitQuery relay (fun _ => trivial) filter)
  intro filter
  apply Settles.bind_unchanged accounted
    (quiet.authorizeFilters relay surroundings (fun _ => trivial) [filter])
  intro _
  apply decodeMessage_settles accounted fun session same => same.accounted accounted
  intro bytes
  exact openReconciliation_settles accounted isUsize filter bytes room

theorem handleNegMsg_settles (accounted : Accounted relay books) (message : String) :
    Settles relay books (relay.handleNegMsg surroundings id message) := by
  have quiet := quiet_unchanged books
  have abandons : ∀ session, SameBooks books session →
      Accounted relay (removeNegentropy id session) :=
    fun session same => (same.accounted accounted).removeNegentropy
  apply Settles.bind_unchanged accounted (quiet.replyIf trivial)
  intro _
  apply decodeMessage_settles accounted abandons
  intro bytes
  apply Settles.bind accounted getSession_establishes_same
  intro session same
  cases found : session.negentropySubscription.get? id with
  | none => exact .of_unchanged accounted (quiet.send trivial)
  | some subscription =>
      apply reconcile_settles accounted abandons
      intro session' state same'
      rw [same.negentropy] at found
      have total := SortedTable.total_eq_delete NegentropySubscription.items found
      have items := accounted.items
      apply (same'.accounted accounted).putNegentropy
      · rw [same'.negentropy, found]
        exact .inl rfl
      · rw [same'.negentropy]
        change subscription.items + _ ≤ _
        omega

theorem handleClientMsg_settles (accounted : Accounted relay books)
    (isUsize : relay.maxNegentropyItems ≤ usizeMax) (message : ClientMessage)
    (messageSize : Nat) :
    Settles relay books (relay.handleClientMsg surroundings message messageSize) := by
  cases message with
  | event event =>
      exact .of_unchanged accounted ((quiet_unchanged books).handleEvent relay surroundings
        (fun _ _ => trivial) messageSize)
  | req id filters => exact handleReq_settles accounted filters messageSize
  | count id filter => exact .of_unchanged accounted (handleCount_unchanged filter)
  | close id => exact fun _ same => (same.accounted accounted).removeSubscription
  | auth event => exact .of_unchanged accounted (handleAuth_unchanged event)
  | negOpen id filter initialMessage =>
      exact handleNegOpen_settles accounted isUsize filter initialMessage
  | negMsg id message => exact handleNegMsg_settles accounted message
  | negClose id => exact fun _ same => (same.accounted accounted).removeNegentropy

/-! ## Every run -/

theorem Turn.accounted {connection connection' : Connection ν} {label : Input × List Output}
    (turn : relay.Turn connection label connection')
    (isUsize : relay.maxNegentropyItems ≤ usizeMax)
    (accounted : Accounted relay connection.session) : Accounted relay connection'.session := by
  obtain ⟨input, outputs⟩ := label
  obtain ⟨_, _, rfl⟩ := turn
  cases input with
  | text message messageSize surroundings =>
      exact handleClientMsg_settles accounted isUsize message messageSize
        { session := connection.session } (.refl _)
  | lagged skipped =>
      exact ⟨rfl, Nat.zero_le _, Nat.zero_le _, accounted.reconciliations, accounted.items⟩
  | malformed | binary | control | tooManyMessages | shutdown | live event => exact accounted

end InnerLocalRelay

/-- In every state that a connection reaches, the books of its session are in
order. A limit on items is a `usize`. -/
theorem run_accounted (relay : InnerLocalRelay ν) (isUsize : relay.maxNegentropyItems ≤ usizeMax)
    {history : List (Input × List Output)} {connection : Connection ν}
    (run : Run relay.Turn {} history connection) :
    connection.session.subscriptionBytes =
        connection.session.subscriptions.total Subscription.size ∧
      connection.session.subscriptionBytes ≤ relay.maxSubscriptionBytes ∧
      connection.session.subscriptions.len ≤ relay.maxReqs ∧
      connection.session.negentropySubscription.len ≤ relay.maxNegentropySubscriptions ∧
      connection.session.negentropySubscription.total NegentropySubscription.items ≤
        relay.maxNegentropyItems := by
  have accounted : Accounted relay connection.session := by
    induction run with
    | nil => exact Accounted.empty
    | snoc _ turn before => exact InnerLocalRelay.Turn.accounted turn isUsize before
  obtain ⟨bytes, bytes_le, reqs, reconciliations, items⟩ := accounted
  exact ⟨bytes, bytes_le, reqs, reconciliations, items⟩

theorem run_accounted_req : ∃ history connection, Run sampleRelay.Turn {} history connection ∧
    connection.session.subscriptions.len = 1 ∧ connection.session.subscriptionBytes = 40 ∧
    connection.session.subscriptionBytes =
      connection.session.subscriptions.total Subscription.size := by
  have run : Run sampleRelay.Turn {} _ _ :=
    Run.nil.snoc (⟨rfl, rfl, rfl⟩ :
      sampleRelay.Turn {} (sampleReq (SortedSet.insert .empty 1), _) _)
  exact ⟨_, _, run, by decide +kernel, by decide +kernel,
    (run_accounted sampleRelay (by decide) run).1⟩

end RustNostr.NostrSdk.LocalRelay
