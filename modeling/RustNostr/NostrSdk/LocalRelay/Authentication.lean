import Mathlib
import RustNostr.Library.TableTotals
import RustNostr.NostrSdk.LocalRelay.GiftWraps

/-!
# Who a session is authenticated as

The challenges of a session over its whole run: each is sent before it counts,
answers at most one AUTH event, and is bound to the relay by that event.
-/

set_option autoImplicit false

namespace RustNostr

def RelayMessage.challenge? : RelayMessage → Option String
  | auth challenge => some challenge
  | _ => none

end RustNostr

namespace RustNostr.NostrSdk.LocalRelay

open Library Transaction Handler InnerLocalRelay

variable {ν : Type} {relay : InnerLocalRelay ν} {connection connection' : Connection ν}
  {label : Input × List Output} {history : List (Input × List Output)}

/-! ## Challenges of a session -/

namespace Nip42Session

/-- Whether a challenge may still be answered, as a number. -/
def outstanding (nip42 : Nip42Session) (challenge : String) : Nat :=
  if (nip42.challenges.get? challenge).isSome then 1 else 0

theorem outstanding_generateChallenge (nip42 : Nip42Session) (challenge other : String) :
    (nip42.generateChallenge challenge).outstanding other ≤
      nip42.outstanding other + [challenge].count other := by
  unfold outstanding generateChallenge SortedSet.insert
  by_cases same : other = challenge
  · simp [same, SortedTable.get?_put]
  · simp only [SortedTable.get?_put, same, if_false]
    split
    · exact Nat.zero_le _
    · exact Nat.le_add_right _ _

theorem outstanding_generateChallenges (nip42 : Nip42Session) (challenges : List String)
    (other : String) : (challenges.foldl generateChallenge nip42).outstanding other ≤
      nip42.outstanding other + challenges.count other := by
  induction challenges generalizing nip42 with
  | nil => exact Nat.le_refl _
  | cons challenge challenges ih =>
      have first := nip42.outstanding_generateChallenge challenge other
      have rest := ih (nip42.generateChallenge challenge)
      rw [List.foldl_cons]
      have counts : (challenge :: challenges).count other =
          [challenge].count other + challenges.count other := by
        rw [← List.count_append]
        rfl
      omega

/-- A session that remembers many challenges forgets them before the next one. -/
theorem len_generateChallenge (nip42 : Nip42Session) (challenge : String)
    (bound : nip42.challenges.len ≤ 21) :
    (nip42.generateChallenge challenge).challenges.len ≤ 21 := by
  unfold generateChallenge SortedSet.insert
  rw [SortedTable.len_put_eq]
  split
  · split <;> simp [SortedTable.len, SortedTable.empty]
  · split <;> omega

theorem generateChallenges (nip42 : Nip42Session) (challenges : List String) :
    (challenges.foldl generateChallenge nip42).publicKey = nip42.publicKey ∧
      (nip42.challenges.len ≤ 21 →
        (challenges.foldl generateChallenge nip42).challenges.len ≤ 21) := by
  induction challenges generalizing nip42 with
  | nil => exact ⟨rfl, id⟩
  | cons challenge challenges ih =>
      obtain ⟨publicKey, bounded⟩ := ih (nip42.generateChallenge challenge)
      exact ⟨publicKey, fun bound => bounded (nip42.len_generateChallenge challenge bound)⟩

end Nip42Session

/-- The challenges among the outputs, in order. -/
def sentChallenges (outputs : List Output) : List String :=
  outputs.filterMap fun output => output.message.challenge?

/-- The session has generated the challenges that were sent. -/
def Issues (nip42 : Nip42Session) (conversation : Conversation ν) : Prop :=
  conversation.session.nip42 =
    (sentChallenges conversation.outputs).foldl Nip42Session.generateChallenge nip42

theorem sentChallenges_append (outputs : List Output) (output : Output) :
    sentChallenges (outputs ++ [output]) =
      sentChallenges outputs ++ output.message.challenge?.toList := by
  unfold sentChallenges
  rw [List.filterMap_append]
  cases challenge : output.message.challenge? <;> simp [challenge]

theorem Issues.output {nip42 : Nip42Session} {conversation : Conversation ν} {output : Output}
    (silent : output.message.challenge? = none) (issues : Issues nip42 conversation) :
    Issues nip42 { conversation with outputs := conversation.outputs ++ [output] } := by
  unfold Issues
  rw [sentChallenges_append, silent, Option.toList_none, List.append_nil]
  exact issues

theorem calm_issues (nip42 : Nip42Session) :
    Calm (fun message => message.challenge? = none) (Issues nip42 : Conversation ν → Prop) where
  tell _ _ silent issues := issues.output silent
  challenge conversation challenge issues := by
    unfold Issues at issues ⊢
    unfold Conversation.challenge
    rw [sentChallenges_append, issues]
    simp [RelayMessage.challenge?]
  broadcast _ _ issues := issues
  disclose _ _ _ silent issues := issues.output silent
  books _ _ same issues := same.trans issues

/-! ## One turn -/

/-- An AUTH event that the session accepts, with the challenge that it answers. -/
structure Answers (relay : InnerLocalRelay ν) (event : Event) (challenge : String) : Prop where
  kind : event.kind.asU16 = Nip42.authenticationKind
  verified : event.Verified relay.externals relay.crypto
  challenge : Tags.challenge event.tags = some challenge
  relayUrl : ∃ tag ∈ event.tags, tag.kind = "relay" ∧
    tag.content.bind relay.externals.relayUrlParse = some relay.authRelayUrl

theorem answers_of_answeredChallenge {nip42 : Nip42Session} {event : Event} {now : Timestamp}
    {challenge : String}
    (answered : nip42.answeredChallenge relay.externals relay.crypto event relay.authRelayUrl now =
      .ok challenge) :
    Answers relay event challenge ∧ (nip42.challenges.get? challenge).isSome := by
  unfold Nip42Session.answeredChallenge at answered
  split at answered
  · cases answered
  · next kind =>
      cases tagged : Tags.challenge event.tags with
      | none => simp [tagged] at answered
      | some found =>
          simp only [tagged] at answered
          split at answered
          · cases answered
          · next known =>
              split at answered
              · cases answered
              · cases verifies : event.verify relay.externals relay.crypto with
                | error error => simp [verifies] at answered
                | ok _ =>
                    simp only [verifies] at answered
                    split at answered
                    · next valid =>
                        cases answered
                        simp only [Nip42.isValidAuthEvent, Bool.and_eq_true, List.any_eq_true,
                          decide_eq_true_eq] at valid
                        exact ⟨⟨not_not.mp kind, Event.verify_ok_iff.mp verifies, tagged,
                          valid.1.2⟩, by simpa [Option.isSome_iff_ne_none] using known⟩
                    · cases answered

def Input.auth? : Input → Option Event
  | text (.auth event) _ _ => some event
  | _ => none

/-- The challenge that an accepted AUTH event of a turn names. -/
def answered (label : Input × List Output) : Option String :=
  label.1.auth?.bind fun event =>
    if label.2.contains { message := .ok event.id true "" } then Tags.challenge event.tags
    else none

/-- What a turn does to who the session is authenticated as. -/
inductive Nip42Turn (relay : InnerLocalRelay ν) (nip42 : Nip42Session)
    (label : Input × List Output) : Nip42Session → Prop where
  | issues : answered label = none → (label.1.auth?.isSome → sentChallenges label.2 = []) →
      Nip42Turn relay nip42 label
        ((sentChallenges label.2).foldl Nip42Session.generateChallenge nip42)
  | accepts {event : Event} {challenge : String} : label.1.auth? = some event →
      { message := .ok event.id true "" } ∈ label.2 → answered label = some challenge →
      sentChallenges label.2 = [] → Answers relay event challenge →
      (nip42.challenges.get? challenge).isSome →
      Nip42Turn relay nip42 label
        { publicKey := some event.pubkey, challenges := nip42.challenges.delete challenge }

/-- A turn that sends no challenge and accepts no AUTH event. -/
theorem Nip42Turn.unchanged {nip42 : Nip42Session} (silent : sentChallenges label.2 = [])
    (refused : answered label = none) : Nip42Turn relay nip42 label nip42 := by
  have turn : Nip42Turn relay nip42 label _ := .issues refused fun _ => silent
  rwa [silent] at turn

theorem Issues.turn {nip42 : Nip42Session} {conversation : Conversation ν} {input : Input}
    (issues : Issues nip42 conversation) (other : input.auth? = none) :
    Nip42Turn relay nip42 (input, conversation.outputs) conversation.session.nip42 := by
  have same : conversation.session.nip42 = _ := issues
  rw [same]
  exact .issues (by rw [answered, other, Option.bind_none]) (by simp [other])

theorem sentChallenges_silent {outputs : List Output}
    (silent : ∀ output ∈ outputs, output.message.challenge? = none) :
    sentChallenges outputs = [] :=
  List.filterMap_eq_nil_iff.mpr silent

theorem handleAuth_nip42 (relay : InnerLocalRelay ν) (surroundings : Surroundings)
    (session : Session ν) (event : Event) (messageSize : Nat) :
    Nip42Turn relay session.nip42
      (.text (.auth event) messageSize surroundings,
        ((relay.handleAuth surroundings event).run { session }).2.outputs)
      ((relay.handleAuth surroundings event).run { session }).2.session.nip42 := by
  cases limited : surroundings.limited with
  | true =>
      rw [handleAuth_limited event limited]
      exact .unchanged rfl (by simp [answered, Input.auth?, okFalse])
  | false =>
      rw [handleAuth_allowed event limited]
      cases attempt : session.nip42.answeredChallenge relay.externals relay.crypto event
          relay.authRelayUrl surroundings.now with
      | error error =>
          have answer : relay.answerAuth surroundings session event =
              (session, okFalse event .authRequired error) := by
            simp [answerAuth, Nip42Session.checkChallenge, attempt]
          rw [answer]
          exact .unchanged rfl (by simp [answered, Input.auth?, okFalse])
      | ok challenge =>
          obtain ⟨answers, known⟩ := answers_of_answeredChallenge attempt
          have answer : relay.answerAuth surroundings session event =
              ({ session with nip42 := {
                  publicKey := some event.pubkey
                  challenges := session.nip42.challenges.delete challenge } },
                .ok event.id true "") := by
            simp [answerAuth, Nip42Session.checkChallenge, attempt]
          rw [answer]
          exact .accepts rfl (List.mem_singleton_self _) 
            (by simp [answered, Input.auth?, answers.challenge]) rfl answers known

theorem turn_nip42 (turn : relay.Turn connection label connection') :
    Nip42Turn relay connection.session.nip42 label connection'.session.nip42 := by
  obtain ⟨input, outputs⟩ := label
  obtain ⟨_, told, rfl⟩ := turn
  have told : outputs = (relay.handleWebsocket connection input).outputs := told
  subst told
  cases input with
  | text message messageSize surroundings =>
      by_cases auth : ∃ event, message = .auth event
      · obtain ⟨event, same⟩ := auth
        subst same
        exact handleAuth_nip42 relay surroundings connection.session event messageSize
      · have tells : ∀ message : RelayMessage, (∀ challenge, message ≠ .auth challenge) →
            message.challenge? = none := by
          intro message silent
          cases message with
          | auth challenge => exact absurd rfl (silent challenge)
          | _ => rfl
        have notAuth : ∀ event, message ≠ .auth event := fun event same => auth ⟨event, same⟩
        have issues : Issues connection.session.nip42
            ((relay.handleClientMsg surroundings message messageSize).run
              { session := connection.session }).2 :=
          (calm_issues connection.session.nip42).handleClientMsg tells relay surroundings notAuth
            { session := connection.session } rfl
        refine issues.turn ?_
        cases message with
        | auth event => exact absurd rfl (notAuth event)
        | _ => rfl
  | live event =>
      refine .unchanged (sentChallenges_silent fun output member => ?_) rfl
      obtain ⟨entry, _, same⟩ := List.mem_map.mp member
      exact same ▸ rfl
  | lagged skipped =>
      refine .unchanged (sentChallenges_silent fun output member => ?_) rfl
      obtain ⟨entry, _, same⟩ := List.mem_map.mp member
      exact same ▸ rfl
  | malformed => exact .unchanged rfl rfl
  | binary => exact .unchanged rfl rfl
  | control => exact .unchanged rfl rfl
  | tooManyMessages => exact .unchanged rfl rfl
  | shutdown => exact .unchanged rfl rfl

/-! ## Every run -/

def issuedChallenges (history : List (Input × List Output)) : List String :=
  history.flatMap fun label => sentChallenges label.2

/-- The session has sent a valid AUTH event of the public key that answered a
challenge sent to it before. -/
def AuthenticatedBy (relay : InnerLocalRelay ν) (history : List (Input × List Output))
    (publicKey : PublicKey) : Prop :=
  ∃ before label after event challenge, history = before ++ label :: after ∧
      label.1.auth? = some event ∧ { message := .ok event.id true "" } ∈ label.2 ∧
      event.pubkey = publicKey ∧ Answers relay event challenge ∧
      challenge ∈ issuedChallenges before

structure Accountable (relay : InnerLocalRelay ν) (history : List (Input × List Output))
    (nip42 : Nip42Session) : Prop where
  own : ∀ publicKey, nip42.publicKey = some publicKey → AuthenticatedBy relay history publicKey
  once : ∀ challenge, (history.filterMap answered).count challenge + nip42.outstanding challenge ≤
    (issuedChallenges history).count challenge
  bounded : nip42.challenges.len ≤ 21

theorem AuthenticatedBy.later {publicKey : PublicKey}
    (authenticated : AuthenticatedBy relay history publicKey) :
    AuthenticatedBy relay (history ++ [label]) publicKey := by
  obtain ⟨before, earlier, after, event, challenge, parts, rest⟩ := authenticated
  exact ⟨before, earlier, after ++ [label], event, challenge, by
    rw [parts, List.append_assoc, List.cons_append], rest⟩

theorem issuedChallenges_append (history : List (Input × List Output))
    (label : Input × List Output) :
    issuedChallenges (history ++ [label]) = issuedChallenges history ++ sentChallenges label.2 := by
  simp [issuedChallenges]

/-- A challenge that may still be answered has been sent. -/
theorem Accountable.issued {nip42 : Nip42Session} {challenge : String}
    (accountable : Accountable relay history nip42)
    (known : (nip42.challenges.get? challenge).isSome) : challenge ∈ issuedChallenges history := by
  have counted := accountable.once challenge
  rw [Nip42Session.outstanding, if_pos known] at counted
  exact List.count_pos_iff.mp (by omega)

theorem Accountable.turn {nip42 nip42' : Nip42Session}
    (accountable : Accountable relay history nip42)
    (turn : Nip42Turn relay nip42 label nip42') :
    Accountable relay (history ++ [label]) nip42' := by
  cases turn with
  | issues refused _ =>
      obtain ⟨publicKey, bounded⟩ := nip42.generateChallenges (sentChallenges label.2)
      refine ⟨fun owner current => ?_, fun challenge => ?_, bounded accountable.bounded⟩
      · exact (accountable.own owner (publicKey ▸ current)).later
      · have before := accountable.once challenge
        have issued := nip42.outstanding_generateChallenges (sentChallenges label.2) challenge
        rw [issuedChallenges_append, List.count_append, List.filterMap_append]
        simp only [List.filterMap_cons, refused, List.filterMap_nil, List.append_nil]
        omega
  | @accepts event challenge input accepted answers silent valid known =>
      refine ⟨fun owner current => ?_, fun other => ?_, ?_⟩
      · exact ⟨history, label, [], event, challenge, rfl, input, accepted, Option.some.inj current, valid,
          accountable.issued known⟩
      · have before := accountable.once other
        have spent : Nip42Session.outstanding
            { publicKey := some event.pubkey, challenges := nip42.challenges.delete challenge } other
              + [challenge].count other = nip42.outstanding other := by
          unfold Nip42Session.outstanding
          rw [SortedTable.get?_delete]
          by_cases same : other = challenge
          · subst same
            simp [known]
          · simp [same, Ne.symm same]
        rw [issuedChallenges_append, silent, List.append_nil, List.filterMap_append]
        simp only [List.filterMap_cons, answers, List.filterMap_nil, List.count_append]
        omega
      · exact SortedTable.len_delete_le.trans accountable.bounded

/-- A session is authenticated as a public key only by a valid AUTH event that
answered a challenge sent before; no challenge is answered more often than it was
sent; a refused AUTH event changes nothing; and few challenges are remembered. -/
theorem run_authenticated (relay : InnerLocalRelay ν)
    (run : Run relay.Turn {} history connection) :
    (∀ publicKey, connection.session.nip42.publicKey = some publicKey →
        AuthenticatedBy relay history publicKey) ∧
      (∀ challenge, (history.filterMap answered).count challenge ≤
        (issuedChallenges history).count challenge) ∧
      (∀ label connection' event, relay.Turn connection label connection' →
        label.1.auth? = some event → { message := .ok event.id true "" } ∉ label.2 →
          connection'.session.nip42 = connection.session.nip42) ∧
      connection.session.nip42.challenges.len ≤ 21 := by
  have accountable : Accountable relay history connection.session.nip42 := by
    induction run with
    | nil => exact ⟨fun _ current => (by cases current), fun _ => Nat.zero_le _, Nat.zero_le _⟩
    | snoc _ turn before => exact before.turn (turn_nip42 turn)
  refine ⟨accountable.own, fun challenge => ?_, ?_, accountable.bounded⟩
  · exact (Nat.le_add_right _ _).trans (accountable.once challenge)
  · intro label connection' event turn auth refused
    have attempt := turn_nip42 turn
    generalize connection'.session.nip42 = nip42 at attempt
    cases attempt with
    | issues _ silent =>
        rw [silent (by simp [auth])]
        rfl
    | accepts other accepted =>
        cases Option.some.inj (auth.symm.trans other)
        exact absurd accepted refused

def authRelay : InnerLocalRelay Unit :=
  { sampleRelay with
    externals := { sampleRelay.externals with
      relayUrlParse := fun text => if text = sampleRelay.url.url then some sampleRelay.url else none }
    crypto := { sampleRelay.crypto with
      verifySchnorr := fun sig _ _ => sig = (.replicate 64 4 : Signature) } }

/-- An answer to the challenge of the sample surroundings. -/
def sampleAuth : Event where
  id := .replicate 32 0
  pubkey := .replicate 32 3
  createdAt := 1700000000
  kind := .custom 22242
  tags := [⟨["relay", sampleRelay.url.url], by simp⟩, ⟨["challenge", "challenge"], by simp⟩]
  content := ""
  sig := .replicate 64 4

/-- After a challenge and its answer. -/
def answeredConnection : Connection Unit :=
  (authRelay.handleWebsocket
    (authRelay.handleWebsocket {} (sampleReq (SortedSet.insert .empty 1059))).connection
    (.text (.auth sampleAuth) 40 sampleSurroundings)).connection

theorem run_authenticated_answer : ∃ history, Run authRelay.Turn {} history answeredConnection ∧
    AuthenticatedBy authRelay history sampleAuth.pubkey ∧
      (history.filterMap answered).count "challenge" = 1 := by
  have asked : Run authRelay.Turn {} _ _ :=
    Run.nil.snoc (⟨rfl, rfl, rfl⟩ : authRelay.Turn {} (sampleReq (SortedSet.insert .empty 1059), _) _)
  have run : Run authRelay.Turn {} _ answeredConnection :=
    asked.snoc (⟨by decide +kernel, rfl, rfl⟩ :
      authRelay.Turn _ (.text (.auth sampleAuth) 40 sampleSurroundings, _) _)
  have current : answeredConnection.session.nip42.publicKey = some sampleAuth.pubkey := by
    decide +kernel
  exact ⟨_, run, (run_authenticated authRelay run).1 _ current, by decide +kernel⟩

end RustNostr.NostrSdk.LocalRelay
