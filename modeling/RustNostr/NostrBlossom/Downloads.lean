import Mathlib
import RustNostr.NostrBlossom.Exchanges

/-!
# Downloads

What a Blossom server can make the client do: where a redirect may lead, who is shown the
authorization and the payment, and what is taken for the blob.
-/

set_option autoImplicit false

namespace RustNostr.Blossom.BlossomClient

open Library Interaction

/-! ## Redirects -/

/-- The later request is where the answer to the earlier one redirects to. It is made with
the headers of the first, but for the authorization when the origin changes. -/
def Follows (calls : ClientCalls) (sha256 : Sha256Hash) (headers : HeaderMap) (earlier later : Exchange) : Prop :=
  ∃ response location, earlier.2 = .ok response ∧ response.isRedirection = true ∧
    response.location = some (.ok location) ∧ calls.join response.url location = .ok later.1.url ∧
    containsText (calls.asStr later.1.url) (hashText sha256) = true ∧
    later.1.method = .get ∧ later.1.headers = redirectedHeaders calls headers later.1.url response.url

section Redirects

variable {calls : ClientCalls} {sha256 : Sha256Hash} {headers : HeaderMap} {response : Response} {log : BlossomLog}

theorem redirectUrl_ok {next : UrlRecord} (read : redirectUrl calls sha256 response = .ok next) :
    ∃ location, response.location = some (.ok location) ∧ calls.join response.url location = .ok next ∧
      containsText (calls.asStr next) (hashText sha256) = true := by
  unfold redirectUrl at read
  cases located : response.location with
  | none => simp [located] at read
  | some text =>
    cases text with
    | error error => simp [located] at read
    | ok location =>
      rw [located] at read
      obtain ⟨joined, parsed, named⟩ := bind_ok.mp read
      split at named
      next contained =>
        cases named
        exact ⟨location, rfl, mapError_ok.mp parsed, contained⟩
      next => cases named

/-- How the requests go on after an answer, and which of them ends the download. -/
theorem returns_followRedirects {turns : Nat} {outcome : Except Error Response} (request : Request)
    (returns : (followRedirects calls sha256 headers turns response).Returns log outcome) :
    (exchanges log).length ≤ turns ∧
    ((request, .ok response) :: exchanges log).IsChain (Follows calls sha256 headers) ∧
    ∃ last, ((request, .ok response) :: exchanges log).getLast? = some last ∧
      (∀ response, outcome = .ok response → last.2 = .ok response) ∧
      ∀ error, outcome = .error error → ∀ response, last.2 = .ok response → response.isRedirection = true := by
  induction turns generalizing response log request with
  | zero =>
    obtain ⟨rfl, rfl⟩ := returns
    simp
  | succ turns ih =>
    unfold followRedirects at returns
    cases redirects : response.isRedirection with
    | false =>
      simp only [redirects, Bool.not_false, ↓reduceIte] at returns
      obtain ⟨rfl, rfl⟩ := returns
      simp
    | true =>
      simp only [redirects, Bool.not_true, Bool.false_eq_true, ↓reduceIte] at returns
      rcases returns_bind.mp returns with ⟨failure, rfl, failed⟩ | ⟨next, front, back, rfl, located, followed⟩
      · obtain ⟨rfl, read⟩ := returns_ofExcept.mp failed
        refine ⟨Nat.zero_le _, .singleton _, _, rfl, by simp, ?_⟩
        rintro _ _ _ ⟨⟩
        exact redirects
      · obtain ⟨rfl, read⟩ := returns_ofExcept.mp located
        obtain ⟨location, there, joined, named⟩ := redirectUrl_ok read.symm
        have follows : ∀ answer, Follows calls sha256 headers (request, .ok response)
            (⟨.get, next, redirectedHeaders calls headers next response.url, []⟩, answer) :=
          fun _ => ⟨response, location, rfl, redirects, there, joined, named, rfl, rfl⟩
        rcases returns_bind.mp followed with ⟨failure, rfl, failed⟩ | ⟨answered, front, rest, rfl, sent, others⟩
        · obtain ⟨answer, rfl, unsent⟩ := returns_send.mp failed
          cases answer with
          | ok answered => cases unsent
          | error error =>
            exact ⟨by simp, .cons_cons (follows _) (.singleton _), _, rfl, by simp, by simp⟩
        · obtain ⟨answer, rfl, told⟩ := returns_send.mp sent
          obtain rfl : answer = .ok answered := mapError_ok.mp told.symm
          obtain ⟨few, chain, last, ends, good, bad⟩ :=
            ih ⟨.get, next, redirectedHeaders calls headers next response.url, []⟩ others
          refine ⟨by simpa using few, ?_, last, ?_, good, bad⟩
          · simpa using ⟨follows _, chain⟩
          · simpa using ends

end Redirects

/-! ## Headers -/

section Headers

variable {calls : ClientCalls} {headers result : HeaderMap} {payment : Option BlossomPaymentProof}

theorem headerName_ne_authorization {method name : String} (read : headerName ("X-" ++ method) = .ok name) :
    name ≠ authorization := by
  rintro rfl
  unfold headerName at read
  split at read
  next => cases read
  next =>
    split at read
    next =>
      have letters := congrArg String.toList (Except.ok.inj read)
      simp [String.toLower, String.toList_map, authorization] at letters
    next => cases read

theorem addPaymentHeader_authorization (added : addPaymentHeader headers payment = .ok result) :
    result authorization = headers authorization := by
  cases payment with
  | none =>
    cases added
    rfl
  | some payment =>
    unfold addPaymentHeader at added
    cases valid : payment.isValid with
    | false => simp [valid] at added
    | true =>
      simp only [valid, Bool.not_true, Bool.false_eq_true, ↓reduceIte] at added
      obtain ⟨name, named, added⟩ := bind_ok.mp added
      obtain ⟨value, _, added⟩ := bind_ok.mp added
      cases added
      exact Function.update_of_ne (headerName_ne_authorization named).symm _ _

theorem downloadHeaders_authorization {rangeValue : Option String}
    (added : downloadHeaders rangeValue payment = .ok result) : result authorization = none := by
  cases rangeValue with
  | none => exact addPaymentHeader_authorization added
  | some text =>
    obtain ⟨value, _, paid⟩ := bind_ok.mp added
    calc
      result authorization = HeaderMap.new.insert range value authorization := addPaymentHeader_authorization paid
      _ = none := Function.update_of_ne (by decide) _ _

theorem redirectedHeaders_authorization (next from_ : UrlRecord) :
    redirectedHeaders calls headers next from_ authorization =
      if sameOrigin calls next from_ then headers authorization else none := by
  unfold redirectedHeaders
  split
  next => rfl
  next => exact Function.update_self _ _ _

theorem redirectedHeaders_other {name : String} (other : name ≠ authorization) (next from_ : UrlRecord) :
    redirectedHeaders calls headers next from_ name = headers name := by
  unfold redirectedHeaders
  split
  next => rfl
  next => exact Function.update_of_ne other _ _

end Headers

/-! ## The whole of a download -/

section Downloads

variable {calls : ClientCalls} {baseUrl : UrlRecord} {sha256 : Sha256Hash} {rangeValue : Option String}
  {options : Option BlossomAuthorizationOptions} {signer : Bool} {payment : Option BlossomPaymentProof}
  {log : BlossomLog} {outcome : Except Error Bytes}

theorem blobOf_ok {verifyHash : Bool} {response : Response} {data : Bytes} :
    blobOf calls sha256 verifyHash response = .ok data ↔ (response.status = 200 ∨ response.status = 206) ∧
      response.bytes = .ok data ∧ (verifyHash = true → calls.sha256 data = sha256) := by
  unfold blobOf
  split
  next redirects =>
    have status : response.status ≠ 200 ∧ response.status ≠ 206 := by
      simp only [Response.isRedirection, Bool.and_eq_true, decide_eq_true_eq] at redirects
      omega
    simp [status]
  next =>
    split
    next found =>
      simp only [found, true_and, bind_ok, mapError_ok]
      constructor
      · rintro ⟨bytes, read, checked⟩
        split at checked
        next => cases checked
        next same =>
          cases checked
          exact ⟨read, fun verify => by simpa [verify] using same⟩
      · rintro ⟨read, same⟩
        refine ⟨data, read, if_neg ?_⟩
        rintro ⟨verify, other⟩
        exact other (same verify)
    next missing => simp [missing]

/-- From the first request on. -/
theorem returns_requests {url : UrlRecord} {headers : HeaderMap} {verifyHash : Bool}
    (returns : ((send ⟨.get, url, headers, []⟩).bind fun first =>
      (followRedirects calls sha256 headers 10 first).bind fun last =>
        .ofExcept (blobOf calls sha256 verifyHash last)).Returns log outcome) :
    ∃ answer rest, exchanges log = (⟨.get, url, headers, []⟩, answer) :: rest ∧ rest.length ≤ 10 ∧
      (exchanges log).IsChain (Follows calls sha256 headers) ∧
      ∃ last, (exchanges log).getLast? = some last ∧ ∀ data, outcome = .ok data ↔
        ∃ response, last.2 = .ok response ∧ blobOf calls sha256 verifyHash response = .ok data := by
  rcases returns_bind.mp returns with ⟨_, rfl, failed⟩ | ⟨first, _, behind, rfl, sent, followed⟩
  · obtain ⟨answer, rfl, unsent⟩ := returns_send.mp failed
    cases answer with
    | ok response => cases unsent
    | error error => exact ⟨.error error, [], rfl, Nat.zero_le _, .singleton _, _, rfl, by simp⟩
  obtain ⟨answer, rfl, told⟩ := returns_send.mp sent
  obtain rfl : answer = .ok first := mapError_ok.mp told.symm
  rcases returns_bind.mp followed with ⟨failure, rfl, failed⟩ | ⟨final, front, _, rfl, ended, read⟩
  · obtain ⟨few, chain, last, ends, _, redirects⟩ :=
      returns_followRedirects ⟨.get, url, headers, []⟩ failed
    refine ⟨.ok first, exchanges behind, rfl, few, chain, last, ends, fun data => ⟨by simp, ?_⟩⟩
    rintro ⟨response, answered, blob⟩
    have redirection := redirects failure rfl response answered
    simp [blobOf, redirection] at blob
  · obtain ⟨rfl, rfl⟩ := returns_ofExcept.mp read
    obtain ⟨few, chain, last, ends, answers, _⟩ := returns_followRedirects ⟨.get, url, headers, []⟩ ended
    have answered : last.2 = .ok final := answers final rfl
    refine ⟨.ok first, exchanges front, by simp, few, by simpa using chain, last, by simpa using ends, fun data => ?_⟩
    simp [answered]

theorem returns_getBlob
    (returns : (getBlob calls baseUrl sha256 rangeValue options signer payment).Returns log outcome) :
    (exchanges log = [] ∧ ∀ data, outcome ≠ .ok data) ∨
    ∃ url plain headers answer rest, exchanges log = (⟨.get, url, headers, []⟩, answer) :: rest ∧
      calls.join baseUrl (hashText sha256) = .ok url ∧ downloadHeaders rangeValue payment = .ok plain ∧
      Credentialed calls .get [sha256] signer log plain headers ∧ rest.length ≤ 10 ∧
      (exchanges log).IsChain (Follows calls sha256 headers) ∧
      ∃ last, (exchanges log).getLast? = some last ∧ ∀ data, outcome = .ok data ↔
        ∃ response, last.2 = .ok response ∧ blobOf calls sha256 rangeValue.isNone response = .ok data := by
  rcases returns_prepared returns with fails | ⟨url, plain, headers, requests, same, joined, added, credentialed, requested⟩
  · exact .inl fails
  · obtain ⟨answer, rest, begun, few, chain, last, ends, blob⟩ := returns_requests requested
    exact .inr ⟨url, plain, headers, answer, rest, same.trans begun, joined, added, credentialed, few, same ▸ chain, last,
      same ▸ ends, blob⟩

/-- A download is at most eleven requests, for the blob's own URL first and then for where
each answer redirects to, if the hash is named there. What it gives is what the last of them
was answered, with the hash asked for unless a range was. -/
theorem getBlob_follows
    (returns : (getBlob calls baseUrl sha256 rangeValue options signer payment).Returns log outcome) :
    (exchanges log).length ≤ 11 ∧
    (∀ first ∈ (exchanges log).head?, first.1.method = .get ∧
      calls.join baseUrl (hashText sha256) = .ok first.1.url ∧
      (exchanges log).IsChain (Follows calls sha256 first.1.headers)) ∧
    ∀ data, outcome = .ok data ↔ ∃ request response, (exchanges log).getLast? = some (request, .ok response) ∧
      (response.status = 200 ∨ response.status = 206) ∧ response.bytes = .ok data ∧
      (rangeValue = none → calls.sha256 data = sha256) := by
  rcases returns_getBlob returns with ⟨none_, fails⟩ |
    ⟨url, plain, headers, answer, rest, begun, joined, _, _, few, chain, ⟨request, answered⟩, ends, blob⟩
  · simp [none_, fails]
  · refine ⟨?_, ?_, fun data => ?_⟩
    · rw [begun]
      exact Nat.succ_le_succ few
    · rintro first member
      obtain rfl : (⟨.get, url, headers, []⟩, answer) = first := by simpa [begun] using member
      exact ⟨rfl, joined, chain⟩
    · rw [blob data, ends]
      simp [blobOf_ok]

/-! ## Who is shown the authorization -/

/-- Every element but the first stands behind another. -/
theorem exists_before {α : Type} {first item : α} {rest : List α} (member : item ∈ rest) :
    ∃ earlier front back, first :: rest = front ++ earlier :: item :: back := by
  obtain ⟨front, back, rfl⟩ := List.append_of_mem member
  rcases List.eq_nil_or_concat (first :: front) with impossible | ⟨others, earlier, split⟩
  · cases impossible
  · refine ⟨earlier, others, back, ?_⟩
    calc
      first :: (front ++ item :: back) = (first :: front) ++ item :: back := rfl
      _ = others ++ earlier :: item :: back := by simp [split]

/-- A request is made with the first one's headers, the payment's among them, whatever its
origin is. The authorization is for the requested blob alone. It goes with every request to
the origin of the answer that redirected there: it stays at the first origin unless a server
elsewhere redirects within its own. -/
theorem getBlob_credential
    (returns : (getBlob calls baseUrl sha256 rangeValue options signer payment).Returns log outcome)
    (answersItself : ∀ request response, (request, .ok response) ∈ exchanges log →
      calls.origin response.url = calls.origin request.url) :
    ∀ first ∈ (exchanges log).head?,
      (∀ exchange ∈ exchanges log, ∀ name ≠ authorization, exchange.1.headers name = first.1.headers name) ∧
      (signer = false → ∀ exchange ∈ exchanges log, exchange.1.headers authorization = none) ∧
      (signer = true →
        (∃ value, first.1.headers authorization = some value ∧ Authorizes calls log .get [sha256] value ∧
          ∀ exchange ∈ exchanges log, ∀ other ∈ exchange.1.headers authorization, other = value) ∧
        ((∀ exchange ∈ exchanges log, exchange.1.headers authorization ≠ none →
            calls.origin exchange.1.url = calls.origin first.1.url) ↔
          (exchanges log).IsChain fun earlier later => sameOrigin calls later.1.url earlier.1.url = true →
            calls.origin later.1.url = calls.origin first.1.url)) := by
  rcases returns_getBlob returns with ⟨none_, _⟩ |
    ⟨url, plain, headers, answer, rest, begun, _, added, credentialed, _, chain, _⟩
  · simp [none_]
  rintro first member
  obtain rfl : (⟨.get, url, headers, []⟩, answer) = first := by simpa [begun] using member
  have behind : ∀ exchange ∈ exchanges log, exchange = (⟨.get, url, headers, []⟩, answer) ∨
      ∃ earlier front back, exchanges log = front ++ earlier :: exchange :: back := by
    intro exchange member
    rw [begun] at member ⊢
    exact (List.mem_cons.mp member).imp id exists_before
  have made : ∀ {earlier later front back}, exchanges log = front ++ earlier :: later :: back →
      ∃ from_, later.1.headers = redirectedHeaders calls headers later.1.url from_ ∧
        calls.origin from_ = calls.origin earlier.1.url := by
    intro earlier later front back split
    obtain ⟨response, _, answered, _, _, _, _, _, made⟩ :=
      List.isChain_iff_forall_rel_of_append_cons_cons.mp chain split
    exact ⟨response.url, made, answersItself earlier.1 response (by simp [split, ← answered])⟩
  have shown : ∀ {earlier later front back}, exchanges log = front ++ earlier :: later :: back →
      later.1.headers authorization =
        if sameOrigin calls later.1.url earlier.1.url then headers authorization else none := by
    intro earlier later front back split
    obtain ⟨from_, made, origin⟩ := made split
    have same : sameOrigin calls later.1.url from_ = sameOrigin calls later.1.url earlier.1.url := by
      simp only [sameOrigin, origin]
    rw [made, redirectedHeaders_authorization, same]
  refine ⟨?_, ?_, ?_⟩
  · intro exchange member name other
    rcases behind exchange member with rfl | ⟨_, _, _, split⟩
    · rfl
    · obtain ⟨_, made, _⟩ := made split
      rw [made, redirectedHeaders_other other]
  · rintro rfl exchange member
    have bare : headers authorization = none := by
      rcases credentialed with ⟨_, rfl⟩ | ⟨impossible, _⟩
      · exact downloadHeaders_authorization added
      · cases impossible
    rcases behind exchange member with rfl | ⟨_, _, _, split⟩
    · exact bare
    · simp [shown split, bare]
  · rintro rfl
    obtain ⟨value, carried, authorizes⟩ : ∃ value, headers authorization = some value ∧
        Authorizes calls log .get [sha256] value := by
      rcases credentialed with ⟨impossible, _⟩ | ⟨_, value, rfl, authorizes⟩
      · cases impossible
      · exact ⟨value, Function.update_self _ _ _, authorizes⟩
    refine ⟨⟨value, carried, authorizes, ?_⟩, ?_⟩
    · intro exchange member other has
      rcases behind exchange member with rfl | ⟨_, _, _, split⟩
      · exact Option.some.inj (has.symm.trans carried)
      · rw [shown split, carried] at has
        split at has
        next => exact (Option.some.inj has).symm
        next => cases has
    · rw [List.isChain_iff_forall_rel_of_append_cons_cons]
      constructor
      · intro confined earlier later front back split same
        exact confined later (by simp [split]) (by simp [shown split, same, carried])
      · intro still exchange member shows
        rcases behind exchange member with rfl | ⟨_, _, _, split⟩
        · rfl
        · refine still split ?_
          by_contra other
          exact shows (by simp [shown split, other])

end Downloads

/-! ## Candidates -/

section Candidates

variable {calls : ClientCalls} {uri : BlossomUri}

/-- What was answered gives the blob. -/
def Serves (calls : ClientCalls) (uri : BlossomUri) (answer : Except String Response) (data : Bytes) : Prop :=
  ∃ response, answer = .ok response ∧ response.isSuccess = true ∧
    containsText (calls.asStr response.url) (hashText uri.sha256) = true ∧ response.bytes = .ok data ∧
    (∀ size ∈ uri.size, size.toNat = data.length) ∧ calls.sha256 data = uri.sha256

/-- The candidate was asked, in vain. -/
def Refused (calls : ClientCalls) (uri : BlossomUri) (candidate : UrlRecord) (entry : Sigma BlossomAnswer) : Prop :=
  ∃ answer, entry = ⟨.fetch candidate, answer⟩ ∧ ∀ data, ¬ Serves calls uri answer data

theorem resolved_eq_some {answer : Except String Response} {data : Bytes} :
    resolved calls uri answer = some data ↔ Serves calls uri answer data := by
  cases answer with
  | error error => simp [resolved, Serves]
  | ok response =>
    cases success : response.isSuccess with
    | false => simp [resolved, Serves, success]
    | true =>
      cases named : containsText (calls.asStr response.url) (hashText uri.sha256) with
      | false => simp [resolved, Serves, named]
      | true =>
        cases read : response.bytes with
        | error error => simp [resolved, Serves, read]
        | ok bytes =>
          simp only [resolved, Serves, success, named, read, Bool.not_true, Bool.or_self, Bool.false_eq_true, ↓reduceIte]
          constructor
          · intro checked
            split at checked
            next good =>
              cases checked
              obtain ⟨sized, same⟩ := Bool.and_eq_true_iff.mp good
              exact ⟨response, rfl, success, named, read, by simpa [Option.all_eq_true] using sized, by simpa using same⟩
            next => cases checked
          · rintro ⟨_, ⟨⟩, _, _, told, sized, same⟩
            rw [read] at told
            cases told
            exact if_pos (Bool.and_eq_true_iff.mpr ⟨by simpa [Option.all_eq_true] using sized, by simpa using same⟩)

theorem resolved_eq_none {answer : Except String Response} :
    resolved calls uri answer = none ↔ ∀ data, ¬ Serves calls uri answer data := by
  simp only [← resolved_eq_some, Option.eq_none_iff_forall_ne_some, ne_eq]

theorem returns_resolveFrom {candidates : List UrlRecord} {log : BlossomLog} {outcome : Except Error Bytes} :
    (resolveFrom calls uri candidates).Returns log outcome ↔
      (∃ before candidate after told answer data, candidates = before ++ candidate :: after ∧
        List.Forall₂ (Refused calls uri) before told ∧ log = told ++ [⟨.fetch candidate, answer⟩] ∧
        Serves calls uri answer data ∧ outcome = .ok data) ∨
      List.Forall₂ (Refused calls uri) candidates log ∧
        outcome = .error (.invalid "Blob could not be resolved from any server") := by
  induction candidates generalizing log with
  | nil =>
    constructor
    · rintro ⟨rfl, rfl⟩
      exact .inr ⟨.nil, rfl⟩
    · rintro (⟨before, _, _, _, _, _, split, _⟩ | ⟨none_, rfl⟩)
      · cases before with
        | nil => cases split
        | cons => cases split
      · cases none_
        exact ⟨rfl, rfl⟩
  | cons candidate candidates ih =>
    constructor
    · rintro ⟨answer, rest, rfl, goes⟩
      cases found : resolved calls uri answer with
      | some data =>
        simp only [ok_bind, found] at goes
        obtain ⟨rfl, rfl⟩ := goes
        exact .inl ⟨[], candidate, candidates, [], answer, data, rfl, .nil, rfl, resolved_eq_some.mp found, rfl⟩
      | none =>
        simp only [ok_bind, found] at goes
        have refused : Refused calls uri candidate ⟨.fetch candidate, answer⟩ := ⟨answer, rfl, resolved_eq_none.mp found⟩
        rcases ih.mp goes with ⟨before, other, after, told, last, data, rfl, all, rfl, serves, rfl⟩ | ⟨all, rfl⟩
        · exact .inl ⟨candidate :: before, other, after, _ :: told, last, data, rfl, .cons refused all, rfl, serves, rfl⟩
        · exact .inr ⟨.cons refused all, rfl⟩
    · rintro (⟨before, other, after, told, answer, data, split, all, rfl, serves, rfl⟩ | ⟨all, rfl⟩)
      · cases all with
        | nil =>
          obtain ⟨rfl, rfl⟩ := List.cons.inj split
          refine ⟨answer, [], rfl, ?_⟩
          simp [resolved_eq_some.mpr serves]
        | @cons first entry before told refused all =>
          obtain ⟨rfl, rfl⟩ := List.cons.inj split
          obtain ⟨vain, rfl, nothing⟩ := refused
          refine ⟨vain, _, rfl, ?_⟩
          simp only [ok_bind, resolved_eq_none.mpr nothing]
          exact ih.mpr (.inl ⟨before, other, after, told, answer, data, rfl, all, rfl, serves, rfl⟩)
      · cases all with
        | @cons _ entry _ told refused all =>
          obtain ⟨vain, rfl, nothing⟩ := refused
          refine ⟨vain, told, rfl, ?_⟩
          simp only [ok_bind, resolved_eq_none.mpr nothing]
          exact ih.mpr (.inr ⟨all, rfl⟩)

/-- The candidates are asked one after the other, and the first answer that gives the blob is
taken: no candidate behind it is asked. There is an error only when all were asked in vain. -/
theorem resolveUri_first {authorServers fallbackServers : List UrlRecord} {log : BlossomLog}
    {outcome : Except Error Bytes} :
    (resolveUri calls uri authorServers fallbackServers).Returns log outcome ↔
      (∃ before candidate after told answer data,
        uri.candidateUrls calls.url authorServers fallbackServers = before ++ candidate :: after ∧
        List.Forall₂ (Refused calls uri) before told ∧ log = told ++ [⟨.fetch candidate, answer⟩] ∧
        Serves calls uri answer data ∧ outcome = .ok data) ∨
      List.Forall₂ (Refused calls uri) (uri.candidateUrls calls.url authorServers fallbackServers) log ∧
        outcome = .error (.invalid "Blob could not be resolved from any server") :=
  returns_resolveFrom

end Candidates

/-! ## A server that redirects within its own -/

def sampleUrl (host : String) : UrlRecord := ⟨"https", some host, .segments [[]], none, none⟩

def sampleHash : Sha256Hash := .replicate 32 0

/-- Joins a host, or a path. -/
def sampleCalls : ClientCalls where
  url := { parse := fun _ => .error "empty host", setPath := fun url _ => url }
  join base reference :=
    .ok { base with
      authority := if reference = "//cdn.example.com/" then some "cdn.example.com" else base.authority
      path := .segments [(hashText sampleHash).toList] }
  asStr url := String.ofList url.path.text
  origin url := url.authority.map fun host => (url.scheme, host, 443)
  hostStr := UrlRecord.authority
  sha256 _ := sampleHash
  base64 _ := ""
  statusText := toString
  externals := { hexDecode := fun _ => none, hexEncode := fun _ => "", relayUrlParse := fun _ => none }

def sampleEvent : Event where
  id := .replicate 32 0
  pubkey := .replicate 32 1
  createdAt := 0
  kind := blossomAuthKind
  tags := []
  content := ""
  sig := .replicate 64 0

/-- The second host redirects to itself what comes without an authorization. -/
def redirecting : (call : BlossomCall) → BlossomAnswer call
  | .now => 0
  | .sign _ _ _ => .ok sampleEvent
  | .fetch _ => .error ""
  | .send request =>
      .ok {
        status := if (request.headers authorization).isNone || request.url.authority = some "example.com" then 302 else 200
        url := request.url
        location := some (.ok (if request.url.authority = some "example.com" then "//cdn.example.com/" else "/"))
        bytes := .ok [1] }

def sampleDownload : BlossomProgram Bytes :=
  getBlob sampleCalls (sampleUrl "example.com") sampleHash none none true none

theorem getBlob_follows_redirecting : (exchanges (sampleDownload.runWith redirecting).1).length ≤ 11 ∧
    (sampleDownload.runWith redirecting).2 = .ok [1] := by
  obtain ⟨few, _, gives⟩ := getBlob_follows (returns_runWith redirecting sampleDownload)
  exact ⟨few, (gives [1]).mpr ⟨_, ⟨_, _, _, _, .ok [1], _⟩, rfl, .inl rfl, rfl, fun _ => rfl⟩⟩

theorem redirecting_answersItself (request : Request) (response : Response)
    (member : (request, .ok response) ∈ exchanges (sampleDownload.runWith redirecting).1) :
    sampleCalls.origin response.url = sampleCalls.origin request.url := by
  have told : Except.ok response = redirecting (.send request) :=
    eq_of_heq (Sigma.mk.inj (eq_of_mem_runWith (mem_exchanges member))).2
  cases told
  rfl

theorem getBlob_credential_redirecting : ∃ first ∈ (exchanges (sampleDownload.runWith redirecting).1).head?,
    ∃ exchange ∈ exchanges (sampleDownload.runWith redirecting).1, exchange.1.headers authorization ≠ none ∧
      sampleCalls.origin exchange.1.url ≠ sampleCalls.origin first.1.url := by
  obtain ⟨first, member⟩ : ∃ first, first ∈ (exchanges (sampleDownload.runWith redirecting).1).head? := ⟨_, rfl⟩
  obtain ⟨_, _, shown⟩ := getBlob_credential (returns_runWith redirecting sampleDownload) redirecting_answersItself
    first member
  refine ⟨first, member, ?_⟩
  by_contra confined
  have still := (shown rfl).2.mp fun exchange member shows => by_contra fun other =>
    confined ⟨exchange, member, shows, other⟩
  cases member
  exact absurd still (by decide)

end RustNostr.Blossom.BlossomClient
