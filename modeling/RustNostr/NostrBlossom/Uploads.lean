import Mathlib
import RustNostr.NostrBlossom.Downloads

/-!
# Uploads

A blob is sent to the first server of a list, and the others are told where that server says
it is, under the hash that it says the blob has.
-/

set_option autoImplicit false

namespace RustNostr.Blossom.BlossomClient

open Library Interaction

section Requests

variable (calls : ClientCalls) (signer : Bool)

/-- The server has taken the blob, and describes it. -/
def Described (answer : Except String Response) (descriptor : BlobDescriptor) : Prop :=
  ∃ response, answer = .ok response ∧ (response.status = 200 ∨ response.status = 201) ∧
    response.json = .ok descriptor

/-- A request to a path of the server, with an authorization for the hash if there is a signer. -/
def Puts (base : UrlRecord) (path : String) (plain : Except Error HeaderMap) (hash : Sha256Hash) (body : Bytes)
    (log : BlossomLog) (request : Request) : Prop :=
  request.method = .put ∧ request.body = body ∧ calls.join base path = .ok request.url ∧
    ∃ headers, plain = .ok headers ∧ Credentialed calls .upload [hash] signer log headers request.headers

def Uploads (data : Bytes) (type : Option String) (server : UrlRecord) (log : BlossomLog) (request : Request) : Prop :=
  Puts calls signer (newBase calls server) "upload" (uploadHeaders calls data type none) (calls.sha256 data) data log
    request

def Mirrors (descriptor : BlobDescriptor) (server : UrlRecord) (log : BlossomLog) (request : Request) : Prop :=
  Puts calls signer (newBase calls server) "mirror" (mirrorHeaders descriptor none) descriptor.sha256
    (mirrorBody calls descriptor) log request

variable {calls signer} {log : BlossomLog}

theorem Puts.mono {base : UrlRecord} {path : String} {plain : Except Error HeaderMap} {hash : Sha256Hash} {body : Bytes}
    {request : Request} {other : BlossomLog} (puts : Puts calls signer base path plain hash body log request)
    (more : log ⊆ other) : Puts calls signer base path plain hash body other request := by
  obtain ⟨method, sent, joined, headers, added, credentialed⟩ := puts
  exact ⟨method, sent, joined, headers, added, credentialed.mono more⟩

theorem descriptorResponse_ok {message : String} {response : Response} {descriptor : BlobDescriptor} :
    descriptorResponse calls message response = .ok descriptor ↔ Described (.ok response) descriptor := by
  unfold descriptorResponse Described
  split
  next taken => simp [taken, mapError_ok]
  next refused => simp [refused]

/-- Either nothing is sent, or one request, and its answer is what is returned. -/
theorem returns_put {base : UrlRecord} {path content message : String} {collected : Except Error HeaderMap}
    {hash : Sha256Hash} {body : Bytes} {options : Option BlossomAuthorizationOptions}
    {outcome : Except Error BlobDescriptor}
    (returns : ((joinUrl calls base path).bind fun url =>
      (Interaction.ofExcept collected).bind fun headers =>
        (addAuthorizationHeader calls headers .upload content (.blobSha256Hashes [hash]) options signer).bind fun headers =>
          (send ⟨.put, url, headers, body⟩).bind fun response =>
            .ofExcept (descriptorResponse calls message response)).Returns log outcome) :
    (exchanges log = [] ∧ ∀ descriptor, outcome ≠ .ok descriptor) ∨
      ∃ request answer, exchanges log = [(request, answer)] ∧ Puts calls signer base path collected hash body log request ∧
        ∀ descriptor, outcome = .ok descriptor ↔ Described answer descriptor := by
  rcases returns_prepared returns with fails | ⟨url, plain, headers, requests, same, joined, added, credentialed, requested⟩
  · exact .inl fails
  have puts : Puts calls signer base path collected hash body log ⟨.put, url, headers, body⟩ :=
    ⟨rfl, rfl, joined, plain, added, credentialed⟩
  rcases returns_bind.mp requested with ⟨_, rfl, failed⟩ | ⟨response, _, _, rfl, sent, read⟩
  · obtain ⟨answer, rfl, unsent⟩ := returns_send.mp failed
    refine .inr ⟨_, answer, same, puts, fun descriptor => ⟨by simp, ?_⟩⟩
    rintro ⟨response, rfl, _⟩
    cases unsent
  · obtain ⟨answer, rfl, told⟩ := returns_send.mp sent
    obtain rfl : answer = .ok response := mapError_ok.mp told.symm
    obtain ⟨rfl, rfl⟩ := returns_ofExcept.mp read
    exact .inr ⟨_, .ok response, same, puts, fun descriptor => descriptorResponse_ok⟩

end Requests

/-! ## Mirrors -/

section Mirrors

variable {calls : ClientCalls} {options : Option BlossomAuthorizationOptions} {signer : Bool} {log : BlossomLog}
  {servers : List UrlRecord} {data : Bytes} {type : Option String}

/-- The servers are asked in order until one of them does not take the blob. -/
theorem returns_mirrors {descriptor : BlobDescriptor} {start : List BlobDescriptor}
    {outcome : Except Error (List BlobDescriptor)}
    (returns : (servers.foldlM (fun descriptors server => do
      let mirrored ← mirrorBlob calls (newBase calls server) descriptor options signer none
      pure (descriptors ++ [mirrored])) start).Returns log outcome) :
    ∃ reached later, servers = reached ++ later ∧
      List.Forall₂ (fun server exchange => Mirrors calls signer descriptor server log exchange.1) reached (exchanges log) ∧
      ∀ result, outcome = .ok result ↔ ∃ more, result = start ++ more ∧ more.length = servers.length ∧
        List.Forall₂ (fun exchange descriptor => Described exchange.2 descriptor) (exchanges log) more := by
  induction servers generalizing start log with
  | nil =>
    obtain ⟨rfl, rfl⟩ := returns
    refine ⟨[], [], rfl, .nil, fun result => ?_⟩
    simp [eq_comm]
  | cons server servers ih =>
    rcases returns_bind.mp returns with ⟨_, rfl, failed⟩ | ⟨next, front, back, rfl, turned, others⟩
    · rcases returns_bind.mp failed with ⟨_, same, unmirrored⟩ | ⟨_, _, _, _, _, impossible⟩
      · cases same
        rcases returns_put unmirrored with ⟨none_, _⟩ | ⟨request, answer, one, puts, answered⟩
        · refine ⟨[], server :: servers, rfl, by simp [none_], fun result => ⟨by simp, ?_⟩⟩
          rintro ⟨more, _, length, all⟩
          simp [← all.length_eq, none_] at length
        · refine ⟨[server], servers, rfl, one ▸ .cons puts .nil, fun result => ⟨by simp, ?_⟩⟩
          rintro ⟨more, _, _, all⟩
          rw [one] at all
          cases all with
          | cons described _ => cases (answered _).mpr described
      · cases impossible.2
    · obtain ⟨mirrored, request, rest, rfl, asked, grown⟩ := returns_bind_ok.mp turned
      obtain ⟨rfl, same⟩ := grown
      cases same
      rcases returns_put asked with ⟨_, fails⟩ | ⟨first, answer, one, puts, answered⟩
      · exact absurd rfl (fails mirrored)
      · obtain ⟨reached, later, rfl, mirrors, result_⟩ := ih others
        have split : exchanges (request ++ [] ++ back) = (first, answer) :: exchanges back := by simp [one]
        refine ⟨server :: reached, later, rfl, ?_, fun result => ?_⟩
        · rw [split]
          refine .cons (puts.mono (by simp)) (mirrors.imp fun _ _ put => put.mono (by simp))
        · have described : Described answer mirrored := (answered mirrored).mp rfl
          rw [split, result_]
          constructor
          · rintro ⟨more, rfl, length, all⟩
            exact ⟨mirrored :: more, by simp, by simp [length], .cons described all⟩
          · rintro ⟨_, rfl, length, all⟩
            cases all with
            | @cons _ descriptor _ more other all =>
              cases (answered descriptor).mpr other
              exact ⟨more, by simp, by simpa using length, all⟩

/-- The data is sent to the first server alone, with an authorization for its hash. The others
are asked in order, each with an authorization for the hash that the first has answered with,
whatever it is. The descriptors that are returned are the answers of all servers; there are
none if one of them was not reached or did not take the blob. -/
theorem uploadAndMirror_requests {outcome : Except Error (List BlobDescriptor)}
    (returns : (uploadAndMirror calls servers data type options signer).Returns log outcome) :
    (∀ first rest, exchanges log = first :: rest → ∃ server mirrors later, servers = server :: (mirrors ++ later) ∧
      Uploads calls signer data type server log first.1 ∧
        (rest = [] ∨ ∃ descriptor, Described first.2 descriptor ∧
          List.Forall₂ (fun server exchange => Mirrors calls signer descriptor server log exchange.1) mirrors rest)) ∧
      ∀ descriptors, outcome = .ok descriptors ↔ descriptors ≠ [] ∧ descriptors.length = servers.length ∧
        List.Forall₂ (fun exchange descriptor => Described exchange.2 descriptor) (exchanges log) descriptors := by
  cases servers with
  | nil =>
    obtain ⟨rfl, rfl⟩ := returns
    refine ⟨by simp, fun descriptors => ⟨by simp, ?_⟩⟩
    rintro ⟨some_, length, _⟩
    exact absurd (List.length_eq_zero_iff.mp length) some_
  | cons server servers =>
    rcases returns_bind.mp returns with ⟨_, rfl, failed⟩ | ⟨descriptor, front, back, rfl, uploaded, mirroring⟩
    · rcases returns_put failed with ⟨none_, _⟩ | ⟨request, answer, one, puts, answered⟩
      · refine ⟨by simp [none_], fun descriptors => ⟨by simp, ?_⟩⟩
        rintro ⟨_, length, all⟩
        simp [← all.length_eq, none_] at length
      · refine ⟨?_, fun descriptors => ⟨by simp, ?_⟩⟩
        · rintro first rest split
          obtain ⟨rfl, rfl⟩ := List.cons.inj (one.symm.trans split)
          exact ⟨server, [], servers, rfl, puts, .inl rfl⟩
        · rintro ⟨_, _, all⟩
          rw [one] at all
          cases all with
          | cons described _ => cases (answered _).mpr described
    · rcases returns_put uploaded with ⟨_, fails⟩ | ⟨request, answer, one, puts, answered⟩
      · exact absurd rfl (fails descriptor)
      · obtain ⟨reached, later, rfl, mirrors, result_⟩ := returns_mirrors mirroring
        have described : Described answer descriptor := (answered descriptor).mp rfl
        have whole : exchanges (front ++ back) = (request, answer) :: exchanges back := by simp [one]
        refine ⟨?_, fun descriptors => ?_⟩
        · rintro first rest split
          obtain ⟨rfl, rfl⟩ := List.cons.inj (whole.symm.trans split)
          exact ⟨server, reached, later, rfl, puts.mono (by simp), .inr ⟨descriptor, described,
            mirrors.imp fun _ _ put => put.mono (by simp)⟩⟩
        · rw [whole, result_]
          constructor
          · rintro ⟨more, rfl, length, all⟩
            exact ⟨by simp, by simp [length], .cons described all⟩
          · rintro ⟨_, length, all⟩
            cases all with
            | @cons _ other _ more same all =>
              cases (answered other).mpr same
              exact ⟨more, rfl, by simpa using length, all⟩

end Mirrors

/-! ## Two servers -/

def sampleDescriptor : BlobDescriptor where
  url := sampleUrl "example.com"
  sha256 := .replicate 32 7
  size := 1
  mimeType := "text/plain"
  uploaded := 0

/-- Every server answers with the same description, of another hash. -/
def describing : (call : BlossomCall) → BlossomAnswer call
  | .now => 0
  | .sign _ _ _ => .ok sampleEvent
  | .fetch _ => .error ""
  | .send request => .ok { status := 201, url := request.url, json := .ok sampleDescriptor }

def sampleUpload : BlossomProgram (List BlobDescriptor) :=
  uploadAndMirror sampleCalls [sampleUrl "example.com", sampleUrl "cdn.example.com"] [1] none none true

theorem uploadAndMirror_requests_describing :
    (sampleUpload.runWith describing).2 = .ok [sampleDescriptor, sampleDescriptor] := by
  obtain ⟨_, gives⟩ := uploadAndMirror_requests (returns_runWith describing sampleUpload)
  exact (gives _).mpr ⟨by simp, rfl, .cons ⟨_, rfl, .inr rfl, rfl⟩ (.cons ⟨_, rfl, .inr rfl, rfl⟩ .nil)⟩

end RustNostr.Blossom.BlossomClient
