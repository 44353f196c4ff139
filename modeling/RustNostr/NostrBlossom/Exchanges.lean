import Mathlib
import RustNostr.Library.Fallible
import RustNostr.NostrBlossom.Client

/-!
# Exchanges with Blossom servers

The requests of a client with their answers, and what the authorizations among their
headers are good for.
-/

set_option autoImplicit false

namespace RustNostr.Blossom.BlossomClient

open Library Interaction

abbrev BlossomLog := List (Sigma BlossomAnswer)

abbrev Exchange := Request × Except String Response

/-- The requests with their answers, but for those of a client that follows redirects. -/
def exchanges (log : BlossomLog) : List Exchange :=
  log.filterMap fun
    | ⟨.send request, answer⟩ => some (request, answer)
    | _ => none

def isSend : BlossomCall → Bool
  | .send _ => true
  | _ => false

section Exchanges

variable {log : BlossomLog}

@[simp] theorem exchanges_nil : exchanges [] = [] := rfl

@[simp] theorem exchanges_send (request : Request) (answer : Except String Response) :
    exchanges (⟨.send request, answer⟩ :: log) = (request, answer) :: exchanges log := rfl

@[simp] theorem exchanges_append (front back : BlossomLog) :
    exchanges (front ++ back) = exchanges front ++ exchanges back := List.filterMap_append

theorem exchanges_eq_nil (quiet : ∀ entry ∈ log, isSend entry.1 = false) : exchanges log = [] := by
  refine List.filterMap_eq_nil_iff.mpr fun entry member => ?_
  obtain ⟨asked, answer⟩ := entry
  cases asked with
  | send request => cases quiet _ member
  | now => rfl
  | sign kind tags content => rfl
  | fetch url => rfl

theorem mem_exchanges {request : Request} {answer : Except String Response} (member : (request, answer) ∈ exchanges log) :
    ⟨.send request, answer⟩ ∈ log := by
  obtain ⟨⟨asked, told⟩, present, same⟩ := List.mem_filterMap.mp member
  cases asked with
  | send other =>
    cases same
    exact present
  | now => cases same
  | sign kind tags content => cases same
  | fetch url => cases same

theorem returns_send {request : Request} {outcome : Except Error Response} :
    (send request).Returns log outcome ↔
      ∃ answer, log = [⟨.send request, answer⟩] ∧ outcome = answer.mapError ofReqwestError := by
  simp only [send, bind_eq, returns_bind, returns_call, returns_ofExcept]
  constructor
  · rintro (⟨_, _, _, _, impossible⟩ | ⟨answer, _, _, rfl, ⟨_, rfl, told⟩, rfl, rfl⟩)
    · cases impossible
    · cases told
      exact ⟨answer, rfl, rfl⟩
  · rintro ⟨answer, rfl, rfl⟩
    exact .inr ⟨answer, _, [], rfl, ⟨answer, rfl, rfl⟩, rfl, rfl⟩

end Exchanges

/-! ## Authorizations -/

section Authorizations

variable (calls : ClientCalls)

/-- The header's value carries an event of the signer for the hashes, that is only good for
what the verb says. -/
def Authorizes (log : BlossomLog) (action : BlossomAuthorizationVerb) (hashes : List Sha256Hash) (value : String) :
    Prop :=
  ∃ (expiration : Timestamp) (content : String) (event : Event),
    ⟨.sign blossomAuthKind (hashes.map hashTag ++ [Tag.expiration expiration, verbTag action]) content, .ok event⟩ ∈ log ∧
      value = "Nostr " ++ calls.base64 (utf8 (event.asJson calls.externals))

/-- The headers, with an authorization of the signer if there is one. -/
def Credentialed (action : BlossomAuthorizationVerb) (hashes : List Sha256Hash) (signer : Bool) (log : BlossomLog)
    (plain headers : HeaderMap) : Prop :=
  signer = false ∧ headers = plain ∨
    signer = true ∧ ∃ value, headers = plain.insert authorization value ∧ Authorizes calls log action hashes value

variable {calls} {log : BlossomLog} {headers : HeaderMap} {action : BlossomAuthorizationVerb} {content : String}
  {options : Option BlossomAuthorizationOptions} {signer : Bool}

theorem Credentialed.mono {hashes : List Sha256Hash} {other : BlossomLog} {plain : HeaderMap}
    (credentialed : Credentialed calls action hashes signer log plain headers) (more : log ⊆ other) :
    Credentialed calls action hashes signer other plain headers := by
  rcases credentialed with bare | ⟨signed, value, inserted, expiration, content, event, listed, written⟩
  · exact .inl bare
  · exact .inr ⟨signed, value, inserted, expiration, content, event, more listed, written⟩

theorem onlyAsks_addAuthorizationHeader (scope : BlossomAuthorizationScope) :
    (addAuthorizationHeader calls headers action content scope options signer).OnlyAsks
      fun asked => isSend asked = false := by
  unfold addAuthorizationHeader
  split
  next =>
    refine .bind (.bind (.call rfl) fun _ => trivial) fun _ => .bind ?_ fun _ => trivial
    exact .bind (.orFail (.call rfl)) fun _ => .ofExcept _
  next => trivial

theorem headerValue_ok {value result : String} (read : headerValue value = .ok result) : result = value := by
  unfold headerValue at read
  split at read
  next => exact (Except.ok.inj read).symm
  next => cases read

theorem returns_addAuthorizationHeader {hashes : List Sha256Hash} {result : HeaderMap}
    (returns : (addAuthorizationHeader calls headers action content (.blobSha256Hashes hashes) options signer).Returns log
      (.ok result)) :
    Credentialed calls action hashes signer log headers result := by
  cases signer with
  | false =>
    obtain ⟨rfl, same⟩ := returns
    cases same
    exact .inl ⟨rfl, rfl⟩
  | true =>
    obtain ⟨default, clock, behind, rfl, timed, later⟩ := returns_bind_ok.mp returns
    obtain ⟨value, signing, rest, rfl, built, done_⟩ := returns_bind_ok.mp later
    obtain ⟨rfl, same⟩ := done_
    cases same
    obtain ⟨now, asked, last, rfl, told, made⟩ := returns_bind_ok.mp timed
    obtain ⟨rfl, same⟩ := made
    cases same
    obtain ⟨event, asks, written, rfl, signed, encoded⟩ := returns_bind_ok.mp built
    obtain ⟨rfl, read⟩ := returns_ofExcept.mp encoded
    obtain ⟨_, rfl, same⟩ := returns_call.mp (returns_orFail.mp signed)
    cases same
    refine .inr ⟨rfl, value, rfl, ?_⟩
    have asked_ : ∀ {entry : Sigma BlossomAnswer}, entry ∈ asked ++ [] ++ ([entry] ++ [] ++ []) := by simp
    cases options with
    | none => exact ⟨_, _, event, asked_, headerValue_ok read.symm⟩
    | some options => exact ⟨_, _, event, asked_, headerValue_ok read.symm⟩

/-- What comes before the requests: they are made with the headers, and with an authorization
for the hashes if there is a signer. -/
theorem returns_prepared {α : Type} {base : UrlRecord} {path : String} {collected : Except Error HeaderMap}
    {hashes : List Sha256Hash} {next : UrlRecord → HeaderMap → BlossomProgram α} {outcome : Except Error α}
    (returns : ((joinUrl calls base path).bind fun url => (Interaction.ofExcept collected).bind fun headers =>
      (addAuthorizationHeader calls headers action content (.blobSha256Hashes hashes) options signer).bind
        (next url)).Returns log outcome) :
    (exchanges log = [] ∧ ∀ result, outcome ≠ .ok result) ∨
      ∃ url plain headers requests, exchanges log = exchanges requests ∧ calls.join base path = .ok url ∧
        collected = .ok plain ∧ Credentialed calls action hashes signer log plain headers ∧
        (next url headers).Returns requests outcome := by
  have quiet : ∀ {front : BlossomLog} {headers : HeaderMap} {result : Except Error HeaderMap},
      (addAuthorizationHeader calls headers action content (.blobSha256Hashes hashes) options signer).Returns front
        result → exchanges front = [] :=
    fun asked => exchanges_eq_nil ((onlyAsks_addAuthorizationHeader _).of_returns asked)
  rcases returns_bind.mp returns with ⟨_, rfl, failed⟩ | ⟨url, _, afterUrl, rfl, located, fromUrl⟩
  · obtain ⟨rfl, _⟩ := returns_ofExcept.mp failed
    exact .inl ⟨rfl, by simp⟩
  obtain ⟨rfl, joined⟩ := returns_ofExcept.mp located
  rcases returns_bind.mp fromUrl with ⟨_, rfl, failed⟩ | ⟨plain, _, afterPlain, rfl, added, fromPlain⟩
  · obtain ⟨rfl, _⟩ := returns_ofExcept.mp failed
    exact .inl ⟨rfl, by simp⟩
  obtain ⟨rfl, read⟩ := returns_ofExcept.mp added
  rcases returns_bind.mp fromPlain with ⟨_, rfl, failed⟩ | ⟨headers, signing, requests, rfl, authorized, requested⟩
  · exact .inl ⟨by simpa using quiet failed, by simp⟩
  · exact .inr ⟨url, plain, headers, requests, by simp [quiet authorized], mapError_ok.mp joined.symm, read.symm,
      (returns_addAuthorizationHeader authorized).mono (List.subset_append_left _ _), requested⟩

end Authorizations

end RustNostr.Blossom.BlossomClient
