import Mathlib
import RustNostr.Library.Traces
import RustNostr.NostrSdk.Relay.SendEvent

/-!
# What sending an event tells

In every run of a session: an acknowledgement is the relay's OK for the event, told after the
call had subscribed; an event is sent again only once, after the relay has refused it for want
of an authentication and the ingester has told of one; and that the relay has authenticated
the client is told only after it accepted a valid event for a challenge of its own.
-/

set_option autoImplicit false

namespace RustNostr.NostrSdk

open Library

variable {calls : SessionCalls} {acts : List SessionAct} {act : SessionAct} {index : Nat}
  {session after : Session} {task : SendEvent}

/-! ## Receivers -/

/-- A receiver that subscribed at an act has heard what was told since then, in its order and
without a gap. -/
def Subscribed (acts : List SessionAct) (at_ : SessionAct) (position : Nat) (heard : List RelayNotification) :
    Prop :=
  ∃ before since, acts = before ++ at_ :: since ∧ position = (notifiedIn before).length + heard.length ∧
    heard <+: notifiedIn since

section Receivers

variable {at_ : SessionAct} {position : Nat} {heard : List RelayNotification} {notification : RelayNotification}

theorem Subscribed.snoc (subscribed : Subscribed acts at_ position heard) (act : SessionAct) :
    Subscribed (acts ++ [act]) at_ position heard := by
  obtain ⟨before, since, rfl, place, told⟩ := subscribed
  refine ⟨before, since ++ [act], by simp, place, ?_⟩
  rw [notifiedIn_snoc]
  exact told.trans (List.prefix_append _ _)

theorem Subscribed.new (at_ : SessionAct) (position : Nat) (here : position = (notifiedIn acts).length) :
    Subscribed (acts ++ [at_]) at_ position [] :=
  ⟨acts, [], rfl, by simpa using here, List.nil_prefix⟩

theorem Subscribed.hear (subscribed : Subscribed acts at_ position heard) (quiet : at_.notified = [])
    (next : (notifiedIn acts)[position]? = some notification) :
    Subscribed acts at_ (position + 1) (heard ++ [notification]) := by
  obtain ⟨before, since, rfl, rfl, rest, told⟩ := subscribed
  refine ⟨before, since, rfl, by simp [Nat.add_assoc], ?_⟩
  have whole : notifiedIn (before ++ at_ :: since) = notifiedIn before ++ (heard ++ rest) := by
    rw [told]
    simp [notifiedIn, quiet]
  rw [whole, List.getElem?_append_right (Nat.le_add_right _ _), Nat.add_sub_cancel_left,
    List.getElem?_append_right (Nat.le_refl _), Nat.sub_self] at next
  cases rest with
  | nil => simp at next
  | cons first rest =>
      simp only [List.getElem?_cons_zero, Option.some.injEq] at next
      subst next
      exact ⟨rest, by rw [← told]; simp⟩

theorem notify_mem_of_message {message : RelayMessage} (told : .message message ∈ notifiedIn acts) :
    .notify message ∈ acts := by
  obtain ⟨act, member, here⟩ := List.mem_flatMap.mp told
  cases act with
  | notify other =>
      cases List.mem_singleton.mp here
      exact member
  | receive subscriptionId event => simp [SessionAct.notified] at here
  | status status => simp [SessionAct.notified] at here
  | announce authenticated => cases authenticated <;> simp [SessionAct.notified, Session.outcome] at here
  | _ => cases here

theorem announce_mem_of_authenticated (told : .authenticated ∈ notifiedIn acts) : .announce true ∈ acts := by
  obtain ⟨act, member, here⟩ := List.mem_flatMap.mp told
  cases act with
  | announce authenticated =>
      cases authenticated with
      | true => exact member
      | false => simp [SessionAct.notified, Session.outcome] at here
  | notify message => simp [SessionAct.notified] at here
  | receive subscriptionId event => simp [SessionAct.notified] at here
  | status status => simp [SessionAct.notified] at here
  | _ => cases here

/-- A message that was heard was told of after the subscription. -/
theorem Subscribed.told (subscribed : Subscribed acts at_ position heard) {message : RelayMessage}
    (member : .message message ∈ heard) : [at_, .notify message].Sublist acts := by
  obtain ⟨before, since, rfl, _, told⟩ := subscribed
  have later := notify_mem_of_message (told.subset member)
  exact ((List.singleton_sublist.mpr later).cons_cons at_).trans (List.sublist_append_right _ _)

end Receivers

/-! ## Authentications -/

def AuthEvent (calls : SessionCalls) (challenge : String) (event : Event) : Prop :=
  Nip42.isValidAuthEvent calls.externals event calls.url challenge = true

/-- What has been done for a challenge when the relay accepts the event. -/
def Accepted (calls : SessionCalls) (acts : List SessionAct) : Prop :=
  ∃ challenge event message, AuthEvent calls challenge event ∧
    [.frame (.auth challenge), .take challenge, .make event, .queueAuth event,
      .hearAuth (.message (.ok event.id true message))].Sublist acts ∧
    [.make event, .notify (.ok event.id true message)].Sublist acts ∧
    [.frame (.ok event.id true message), .notify (.ok event.id true message)].Sublist acts

theorem Accepted.snoc (accepted : Accepted calls acts) (act : SessionAct) : Accepted calls (acts ++ [act]) := by
  obtain ⟨challenge, event, message, valid, chain, told, framed⟩ := accepted
  exact ⟨challenge, event, message, valid, sublist_snoc chain act, sublist_snoc told act, sublist_snoc framed act⟩

def Ingester.Evidence (calls : SessionCalls) (acts : List SessionAct) : Ingester → Prop
  | waiting => True
  | admitting challenge | making challenge => [.frame (.auth challenge), .take challenge].Sublist acts
  | sendingAuth challenge event position => AuthEvent calls challenge event ∧
      [.frame (.auth challenge), .take challenge, .make event].Sublist acts ∧
      ∃ heard, Subscribed acts (.make event) position heard
  | waitingOk challenge event position => AuthEvent calls challenge event ∧
      [.frame (.auth challenge), .take challenge, .make event, .queueAuth event].Sublist acts ∧
      ∃ heard, Subscribed acts (.make event) position heard
  | announcing true => Accepted calls acts
  | announcing false => True

theorem Ingester.Evidence.snoc {ingester : Ingester} (evidence : ingester.Evidence calls acts) (act : SessionAct) :
    ingester.Evidence calls (acts ++ [act]) := by
  cases ingester with
  | waiting => trivial
  | admitting challenge => exact sublist_snoc evidence act
  | making challenge => exact sublist_snoc evidence act
  | sendingAuth challenge event position =>
      obtain ⟨valid, chain, heard, subscribed⟩ := evidence
      exact ⟨valid, sublist_snoc chain act, heard, subscribed.snoc act⟩
  | waitingOk challenge event position =>
      obtain ⟨valid, chain, heard, subscribed⟩ := evidence
      exact ⟨valid, sublist_snoc chain act, heard, subscribed.snoc act⟩
  | announcing authenticated =>
      cases authenticated with
      | true => exact Accepted.snoc evidence act
      | false => trivial

/-- The last challenge of the relay is to be seen yet, or was taken after it came. -/
def Newest (session : Session) (acts : List SessionAct) : Prop :=
  ∀ challenge before since, acts = before ++ .frame (.auth challenge) :: since →
    (∀ other, .frame (.auth other) ∉ since) →
    session.changed = true ∧ session.challenge = some challenge ∨ .take challenge ∈ since

structure Authenticating (calls : SessionCalls) (acts : List SessionAct) (session : Session) : Prop where
  log : session.log = notifiedIn acts
  handled : ∀ message, session.handling = some message → .frame message ∈ acts
  told : ∀ message, .message message ∈ session.log → [.frame message, .notify message].Sublist acts
  slot : ∀ challenge, session.challenge = some challenge → .frame (.auth challenge) ∈ acts
  newest : calls.authenticator = true → Newest session acts
  ingester : session.ingester.Evidence calls acts

/-- A step that brings no challenge leaves the newest one where it is. -/
theorem Newest.snoc (newest : Newest session acts) (noChallenge : ∀ challenge, act ≠ .frame (.auth challenge))
    (kept : session.changed = true → ∀ challenge, session.challenge = some challenge →
      after.changed = true ∧ after.challenge = some challenge ∨ act = .take challenge) :
    Newest after (acts ++ [act]) := by
  intro challenge before since split none
  rcases snoc_eq_append_cons.mp split with ⟨_, same, _⟩ | ⟨earlier, rfl, rfl⟩
  · exact absurd same (noChallenge challenge)
  · have last := newest challenge before earlier rfl fun other member => none other (List.mem_append_left _ member)
    rcases last with ⟨changed, slot⟩ | taken
    · exact (kept changed challenge slot).imp id fun same => by simp [same]
    · exact .inr (List.mem_append_left _ taken)

/-- A step of a task that is not the ingester's, and tells nothing. -/
theorem Authenticating.quiet (authenticating : Authenticating calls acts session) (act : SessionAct)
    (quiet : act.notified = []) (noFrame : ∀ message, act ≠ .frame message)
    (log : after.log = session.log) (handling : after.handling = session.handling)
    (challenge : after.challenge = session.challenge) (changed : after.changed = session.changed)
    (ingester : after.ingester.Evidence calls (acts ++ [act])) : Authenticating calls (acts ++ [act]) after := by
  obtain ⟨same, handled, told, slot, newest, _⟩ := authenticating
  refine ⟨by simp [log, same, quiet], fun message here => ?_, fun message here => ?_, fun given here => ?_,
    fun authenticator => ?_, ingester⟩
  · exact List.mem_append_left _ (handled message (handling ▸ here))
  · exact sublist_snoc (told message (log ▸ here)) act
  · exact List.mem_append_left _ (slot given (challenge ▸ here))
  · refine (newest authenticator).snoc (fun given => noFrame _) fun isChanged given here => ?_
    exact .inl ⟨changed.trans isChanged, challenge.trans here⟩

/-- A step that tells something else than a message of the relay. -/
theorem Authenticating.tells (authenticating : Authenticating calls acts session) (act : SessionAct)
    (notification : RelayNotification) (tells : act.notified = [notification])
    (noMessage : ∀ message, notification ≠ .message message) (noFrame : ∀ message, act ≠ .frame message)
    (log : after.log = session.log ++ [notification]) (handling : after.handling = session.handling)
    (challenge : after.challenge = session.challenge) (changed : after.changed = session.changed)
    (ingester : after.ingester.Evidence calls (acts ++ [act])) : Authenticating calls (acts ++ [act]) after := by
  obtain ⟨same, handled, told, slot, newest, _⟩ := authenticating
  refine ⟨by simp [log, same, tells], fun message here => ?_, fun message here => ?_, fun given here => ?_,
    fun authenticator => ?_, ingester⟩
  · exact List.mem_append_left _ (handled message (handling ▸ here))
  · rw [log] at here
    rcases List.mem_append.mp here with old | last
    · exact sublist_snoc (told message old) act
    · exact absurd (List.mem_singleton.mp last).symm (noMessage message)
  · exact List.mem_append_left _ (slot given (challenge ▸ here))
  · refine (newest authenticator).snoc (fun given => noFrame _) fun isChanged given here => ?_
    exact .inl ⟨changed.trans isChanged, challenge.trans here⟩

theorem receive_log (message : RelayMessage) : (session.receive calls message).log = session.log ∧
    (session.receive calls message).handling = some message ∧
    (session.receive calls message).ingester = session.ingester := by
  cases message with
  | auth challenge =>
      simp only [Session.receive]
      split <;> exact ⟨rfl, rfl, rfl⟩
  | _ => exact ⟨rfl, rfl, rfl⟩

theorem receive_slot (message : RelayMessage) :
    (∃ challenge, message = .auth challenge ∧ calls.authenticator = true ∧
      (session.receive calls message).challenge = some challenge ∧
      (session.receive calls message).changed = true) ∨
    ((calls.authenticator = true → ∀ challenge, message ≠ .auth challenge) ∧
      (session.receive calls message).challenge = session.challenge ∧
      (session.receive calls message).changed = session.changed) := by
  cases message with
  | auth challenge =>
      simp only [Session.receive]
      split
      next authenticator => exact .inl ⟨challenge, rfl, authenticator, rfl, rfl⟩
      next none => exact .inr ⟨fun authenticator => absurd authenticator none, rfl, rfl⟩
  | _ => exact .inr ⟨fun _ => nofun, rfl, rfl⟩

theorem Authenticating.frame (authenticating : Authenticating calls acts session) (message : RelayMessage) :
    Authenticating calls (acts ++ [.frame message]) (session.receive calls message) := by
  obtain ⟨log, handling, ingester⟩ := @receive_log calls session message
  have evidence := authenticating.ingester.snoc (.frame message)
  obtain ⟨same, handled, told, slot, newest, _⟩ := authenticating
  refine ⟨by simp [log, same, SessionAct.notified], fun other here => ?_, fun other here => ?_, fun given here => ?_,
    fun authenticator => ?_, ingester ▸ evidence⟩
  · rw [handling] at here
    cases here
    simp
  · exact sublist_snoc (told other (log ▸ here)) _
  · rcases @receive_slot calls session message with ⟨challenge, rfl, _, new, _⟩ | ⟨_, kept, _⟩
    · rw [new] at here
      cases here
      simp
    · exact List.mem_append_left _ (slot given (kept ▸ here))
  · rcases @receive_slot calls session message with
      ⟨challenge, rfl, _, new, changed⟩ | ⟨other, kept, changed⟩
    · intro given before since split none
      rcases snoc_eq_append_cons.mp split with ⟨_, same, _⟩ | ⟨earlier, _, rfl⟩
      · cases same
        exact .inl ⟨changed, new⟩
      · exact absurd (List.mem_append_right earlier (List.mem_singleton_self _)) (none challenge)
    · refine (newest authenticator).snoc (fun given same => ?_) fun isChanged given here => ?_
      · cases same
        exact other authenticator given rfl
      · exact .inl ⟨changed.trans isChanged, kept.trans here⟩

theorem Authenticating.notify (authenticating : Authenticating calls acts session) {message : RelayMessage}
    (handled : session.handling = some message) :
    Authenticating calls (acts ++ [.notify message])
      { session with handling := none, log := session.log ++ [.message message] } := by
  have evidence := authenticating.ingester.snoc (.notify message)
  have framed := authenticating.handled message handled
  obtain ⟨same, _, told, slot, newest, _⟩ := authenticating
  refine ⟨by simp [same, SessionAct.notified], nofun, fun other here => ?_, fun given here => ?_,
    fun authenticator => ?_, evidence⟩
  · rcases List.mem_append.mp here with old | last
    · exact sublist_snoc (told other old) _
    · cases List.mem_singleton.mp last
      exact sublist_last (List.singleton_sublist.mpr framed) _
  · exact List.mem_append_left _ (slot given here)
  · exact (newest authenticator).snoc nofun fun isChanged given here => .inl ⟨isChanged, here⟩

theorem Authenticating.take (authenticating : Authenticating calls acts session) {challenge : String}
    (newest : session.challenge = some challenge) :
    Authenticating calls (acts ++ [.take challenge])
      { session with changed := false, ingester := .admitting challenge } := by
  obtain ⟨same, handled, told, slot, last, _⟩ := authenticating
  have framed := slot challenge newest
  refine ⟨by simp [same, SessionAct.notified], fun message here => ?_, fun message here => ?_, fun given here => ?_,
    fun authenticator => ?_, sublist_last (List.singleton_sublist.mpr framed) _⟩
  · exact List.mem_append_left _ (handled message here)
  · exact sublist_snoc (told message here) _
  · exact List.mem_append_left _ (slot given here)
  · refine (last authenticator).snoc nofun fun _ given here => .inr ?_
    rw [newest] at here
    cases here
    rfl

/-- The message that `wait_for_ok` returns for was told of. -/
theorem okOf_ok {id : EventId} {notification : RelayNotification} {status : Bool} {message : String}
    (found : okOf id notification = some (.ok (status, message))) :
    notification = .message (.ok id status message) := by
  cases notification with
  | message given =>
      cases given with
      | ok other status message =>
          simp only [okOf] at found
          split at found
          next same =>
            cases found
            rw [same]
          next => cases found
      | _ => cases found
  | relayStatus status =>
      simp only [okOf] at found
      split at found <;> cases found
  | _ => cases found

theorem Authenticating.hearAuth (authenticating : Authenticating calls acts session) {challenge : String}
    {event : Event} {position : Nat} {notification : RelayNotification}
    (waiting : session.ingester = .waitingOk challenge event position)
    (next : session.log[position]? = some notification) :
    Authenticating calls (acts ++ [.hearAuth notification]) { session with
      ingester := match okOf event.id notification with
        | none => .waitingOk challenge event (position + 1)
        | some (.ok (true, _)) => .announcing true
        | some (.ok (false, _)) | some (.error _) => .announcing false } := by
  have evidence := authenticating.ingester
  rw [waiting] at evidence
  obtain ⟨valid, chain, heard, subscribed⟩ := evidence
  have heardNow := subscribed.hear rfl (authenticating.log ▸ next)
  have listed : notification ∈ session.log := List.mem_of_getElem? next
  refine authenticating.quiet _ rfl nofun rfl rfl rfl rfl ?_
  dsimp only
  split
  next => exact ⟨valid, sublist_snoc chain _, _, heardNow.snoc _⟩
  next message accepted =>
    cases okOf_ok accepted
    refine ⟨challenge, event, message, valid, sublist_last chain _, ?_, ?_⟩
    · exact sublist_snoc (heardNow.told (by simp)) _
    · exact sublist_snoc (authenticating.told _ listed) _
  next => trivial
  next => trivial

theorem Authenticating.step (authenticating : Authenticating calls acts session)
    (stepped : session.Step calls act after) : Authenticating calls (acts ++ [act]) after := by
  have evidence := authenticating.ingester.snoc act
  cases stepped with
  | frame message ready => exact authenticating.frame message
  | notify message handled => exact authenticating.notify handled
  | receive subscriptionId event =>
      exact authenticating.tells _ (.event subscriptionId event) rfl nofun nofun rfl rfl rfl rfl evidence
  | status status => exact authenticating.tells _ (.relayStatus status) rfl nofun nofun rfl rfl rfl rfl evidence
  | take challenge waiting changed newest => exact authenticating.take newest
  | admitAuth challenge admitting =>
      rw [admitting] at evidence
      exact authenticating.quiet _ rfl nofun rfl rfl rfl rfl evidence
  | refuse refused => exact authenticating.quiet _ rfl nofun rfl rfl rfl rfl trivial
  | make challenge event making authenticator valid =>
      have chain := authenticating.ingester
      rw [making] at chain
      refine authenticating.quiet _ rfl nofun rfl rfl rfl rfl ⟨valid, sublist_last chain _, [], ?_⟩
      exact .new _ _ (congrArg List.length authenticating.log)
  | queueAuth challenge event position sending =>
      have chain := authenticating.ingester
      rw [sending] at chain
      obtain ⟨valid, chain, heard, subscribed⟩ := chain
      refine authenticating.quiet _ rfl nofun rfl rfl rfl rfl ⟨valid, sublist_last chain _, heard, ?_⟩
      exact subscribed.snoc _
  | hearAuth challenge event position notification waiting next =>
      exact authenticating.hearAuth waiting next
  | giveUpAuth challenge event position waiting => exact authenticating.quiet _ rfl nofun rfl rfl rfl rfl trivial
  | announce authenticated announcing =>
      refine authenticating.tells _ (Session.outcome authenticated) rfl ?_ nofun rfl rfl rfl rfl trivial
      cases authenticated <;> exact nofun
  | start event waitForOk => exact authenticating.quiet _ rfl nofun rfl rfl rfl rfl evidence
  | queue index task again here sending => exact authenticating.quiet _ rfl nofun rfl rfl rfl rfl evidence
  | notQueued index task again error here sending =>
      exact authenticating.quiet _ rfl nofun rfl rfl rfl rfl evidence
  | hear index task notification here waits next =>
      exact authenticating.quiet _ rfl nofun rfl rfl rfl rfl evidence
  | giveUp index task error here waits unheard =>
      exact authenticating.quiet _ rfl nofun rfl rfl rfl rfl evidence

theorem authenticating_of_run (run : Run (Session.Step calls) .start acts session) :
    Authenticating calls acts session := by
  have start : Authenticating calls [] .start :=
    ⟨rfl, nofun, nofun, nofun, fun _ _ before _ split => by simp at split, trivial⟩
  exact run.invariant start fun _ _ _ _ authenticating stepped => authenticating.step stepped

end RustNostr.NostrSdk
