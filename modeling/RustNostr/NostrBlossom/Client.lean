import Mathlib
import RustNostr.Library.Interaction
import RustNostr.Nostr.GiftWrap
import RustNostr.NostrBlossom.CandidateUrls

/-!
# The Blossom client

Downloading, uploading and mirroring blobs (`nostr-blossom/src/client.rs`), with the
authorizations of it (`bud01.rs`). The servers, the signer and the clock are asked, and any
answer may come.
-/

set_option autoImplicit false

namespace RustNostr.Blossom

open Library

namespace BlossomClient

inductive ErrorKind where
  | protocol
  | http
  | malformed
  | invalid
  | other
  deriving DecidableEq

structure Error where
  kind : ErrorKind
  message : String
  deriving DecidableEq

def Error.invalid (message : String) : Error := ⟨.invalid, message⟩

/-! ## Authorizations -/

abbrev Sha256Hash := FixedBytes 32

/-- `Display` -/
def hashText (hash : Sha256Hash) : String := Json.lowercaseHex hash.val

inductive BlossomAuthorizationVerb where
  | get
  | upload
  | list
  | delete
  | media
  deriving DecidableEq

def BlossomAuthorizationVerb.asStr : BlossomAuthorizationVerb → String
  | get => "get"
  | upload => "upload"
  | list => "list"
  | delete => "delete"
  | media => "media"

inductive BlossomAuthorizationScope where
  | blobSha256Hashes (hashes : List Sha256Hash)
  | serverUrl (url : UrlRecord)
  | serverDomains (domains : List String)
  | serverDomainsAndBlobSha256Hashes (domains : List String) (hashes : List Sha256Hash)

structure BlossomAuthorization where
  content : String
  expiration : Timestamp
  action : BlossomAuthorizationVerb
  scope : BlossomAuthorizationScope

/-- The fields that are not ignored. -/
structure BlossomAuthorizationOptions where
  content : Option String := none
  expiration : Option Timestamp := none

def hashTag (hash : Sha256Hash) : Tag := ⟨["x", hashText hash], List.cons_ne_nil _ _⟩

def serverTag (domain : String) : Tag := ⟨["server", domain], List.cons_ne_nil _ _⟩

/-- `to_ascii_lowercase` -/
def domainTag (domain : String) : Tag := serverTag domain.toLower

def verbTag (action : BlossomAuthorizationVerb) : Tag := ⟨["t", action.asStr.toLower], List.cons_ne_nil _ _⟩

/-! ## Requests -/

/-- A header that is inserted again replaces the one before. -/
abbrev HeaderMap := String → Option String

namespace HeaderMap

def new : HeaderMap := fun _ => none

def insert (headers : HeaderMap) (name value : String) : HeaderMap := Function.update headers name (some value)

def remove (headers : HeaderMap) (name : String) : HeaderMap := Function.update headers name none

end HeaderMap

def authorization : String := "authorization"

def contentLength : String := "content-length"

def contentType : String := "content-type"

def range : String := "range"

/-- The characters of a header's name. -/
def isTokenChar (char : Char) : Bool := char.isAlphanum || "!#$%&'*+-.^_|~".toList.contains char || char = '\x60'

/-- `HeaderName::from_bytes`: names are in lower case. -/
def headerName (name : String) : Except Error String :=
  if name = "" ∨ 2 ^ 16 ≤ name.utf8ByteSize then .error ⟨.http, "invalid HTTP header name"⟩
  else if name.toList.all isTokenChar then .ok name.toLower
  else .error ⟨.http, "invalid HTTP header name"⟩

/-- `HeaderValue::from_str` -/
def headerValue (value : String) : Except Error String :=
  if value.toList.all fun char => (' ' ≤ char && char < '\x7f') || char = '\t' then .ok value
  else .error ⟨.http, "failed to parse header value"⟩

inductive HttpMethod where
  | get
  | put
  deriving DecidableEq

structure Request where
  method : HttpMethod
  url : UrlRecord
  headers : HeaderMap
  body : Bytes := []

structure BlobDescriptor where
  url : UrlRecord
  sha256 : Sha256Hash
  size : UInt64
  mimeType : String
  uploaded : Timestamp
  nip94 : Option (List Tag) := none

/-- A response, as far as it is looked at. What is read of its body later may fail. -/
structure Response where
  status : Nat
  url : UrlRecord
  /-- The `Location` header, if its text can be read. -/
  location : Option (Except String String) := none
  /-- The `X-Reason` header, if its text can be read. -/
  reason : Option (Option String) := none
  bytes : Except String Bytes := .ok []
  json : Except String BlobDescriptor := .error "expected value"

namespace Response

def isRedirection (response : Response) : Bool := 300 ≤ response.status && response.status < 400

def isSuccess (response : Response) : Bool := 200 ≤ response.status && response.status < 300

end Response

inductive BlossomCall where
  | now
  /-- `finalize_async` of a builder: the signer's key, and its signature. -/
  | sign (kind : Kind) (tags : List Tag) (content : String)
  /-- By the client that follows no redirects. -/
  | send (request : Request)
  /-- By a client that follows them. -/
  | fetch (url : UrlRecord)

@[reducible] def BlossomAnswer : BlossomCall → Type
  | .now => Timestamp
  | .sign _ _ _ => Except Error Event
  | .send _ => Except String Response
  | .fetch _ => Except String Response

abbrev BlossomProgram := Interaction BlossomCall BlossomAnswer Error

/-- The other crates. The origin of a URL that has none is no other's. -/
structure ClientCalls where
  url : UrlApi
  join : UrlRecord → String → Except String UrlRecord
  asStr : UrlRecord → String
  origin : UrlRecord → Option (String × String × Nat)
  hostStr : UrlRecord → Option String
  sha256 : Bytes → Sha256Hash
  base64 : Bytes → String
  /-- `Display` of a status code -/
  statusText : Nat → String
  externals : Externals

structure BlossomPaymentProof where
  method : String
  proof : String

def BlossomPaymentProof.isValid (payment : BlossomPaymentProof) : Bool :=
  if payment.method = "cashu" then "cashuB".toList.isPrefixOf payment.proof.toList
  else if payment.method = "lightning" then
    payment.proof.utf8ByteSize = 64 && payment.proof.toList.all fun char =>
      char.isDigit || ('a' ≤ char && char ≤ 'f') || ('A' ≤ char && char ≤ 'F')
  else payment.method ≠ "" && payment.proof ≠ ""

/-! ## The client -/

variable (calls : ClientCalls)

/-- `IntoEventBuilder` -/
def BlossomAuthorization.tags (authorization : BlossomAuthorization) : List Tag :=
  (match authorization.scope with
    | .blobSha256Hashes hashes => hashes.map hashTag
    | .serverUrl url => (calls.hostStr url).toList.map serverTag
    | .serverDomains domains => domains.map domainTag
    | .serverDomainsAndBlobSha256Hashes domains hashes => domains.map domainTag ++ hashes.map hashTag) ++
    [Tag.expiration authorization.expiration, verbTag authorization.action]

def blossomAuthKind : Kind := Kind.fromU16 24242

def ofParseError (error : String) : Error := ⟨.malformed, error⟩

def ofReqwestError (error : String) : Error := ⟨.http, error⟩

/-- `Error::response` -/
def responseError (message : String) (response : Response) : Error :=
  let reason := (response.reason.map fun text => text.getD "Unknown reason").getD "No reason provided"
  ⟨.http, message ++ ": " ++ calls.statusText response.status ++ " - " ++ reason⟩

def joinUrl (base : UrlRecord) (reference : String) : BlossomProgram UrlRecord :=
  .ofExcept ((calls.join base reference).mapError ofParseError)

/-- `BlossomClient::new` -/
def newBase (server : UrlRecord) : UrlRecord := { calls.url.setPath server "/" with query := none, fragment := none }

def addPaymentHeader (headers : HeaderMap) (payment : Option BlossomPaymentProof) : Except Error HeaderMap :=
  match payment with
  | none => .ok headers
  | some payment =>
      if !payment.isValid then .error ⟨.malformed, "Invalid BUD-07 payment proof"⟩
      else do
        let name ← headerName ("X-" ++ payment.method)
        let value ← headerValue payment.proof
        .ok (headers.insert name value)

def defaultAuth (action : BlossomAuthorizationVerb) (content : String) (scope : BlossomAuthorizationScope) :
    BlossomProgram BlossomAuthorization := do
  let now ← Interaction.call BlossomCall.now
  pure ⟨content, Timestamp.saturatingAdd now 300, action, scope⟩

def updateAuthorizationFixture (default : BlossomAuthorization) (options : BlossomAuthorizationOptions) :
    BlossomAuthorization where
  content := options.content.getD default.content
  expiration := options.expiration.getD default.expiration
  action := default.action
  scope := default.scope

def buildAuthHeader (authorization : BlossomAuthorization) : BlossomProgram String := do
  let event ← Interaction.orFail (Interaction.call
    (BlossomCall.sign blossomAuthKind (authorization.tags calls) authorization.content))
  .ofExcept (headerValue ("Nostr " ++ calls.base64 (utf8 (event.asJson calls.externals))))

def addAuthorizationHeader (headers : HeaderMap) (action : BlossomAuthorizationVerb) (content : String)
    (scope : BlossomAuthorizationScope) (options : Option BlossomAuthorizationOptions) (signer : Bool) :
    BlossomProgram HeaderMap :=
  if signer then do
    let default ← defaultAuth action content scope
    let value ← buildAuthHeader calls ((options.map (updateAuthorizationFixture default)).getD default)
    pure (headers.insert authorization value)
  else pure headers

def send (request : Request) : BlossomProgram Response := do
  let answer ← Interaction.call (BlossomCall.send request)
  .ofExcept (answer.mapError ofReqwestError)

/-! ## Downloads -/

def containsText (text part : String) : Bool := decide (part.toList <:+: text.toList)

def sameOrigin (left right : UrlRecord) : Bool := (calls.origin left).isSome && calls.origin left = calls.origin right

/-- The headers of a request that a response redirects to. -/
def redirectedHeaders (headers : HeaderMap) (next from_ : UrlRecord) : HeaderMap :=
  if sameOrigin calls next from_ then headers else headers.remove authorization

/-- The URL that a response redirects to. -/
def redirectUrl (sha256 : Sha256Hash) (response : Response) : Except Error UrlRecord :=
  match response.location with
  | none => .error (.invalid "Redirect response missing 'Location' header")
  | some (.error error) => .error (.invalid error)
  | some (.ok location) => do
      let next ← (calls.join response.url location).mapError ofParseError
      if containsText (calls.asStr next) (hashText sha256) then .ok next
      else .error (.invalid "Redirect URL does not contain SHA256")

/-- Follows redirects, at most so many. -/
def followRedirects (sha256 : Sha256Hash) (headers : HeaderMap) : Nat → Response → BlossomProgram Response
  | 0, response => pure response
  | turns + 1, response =>
      if !response.isRedirection then pure response
      else do
        let next ← .ofExcept (redirectUrl calls sha256 response)
        let response ← send ⟨.get, next, redirectedHeaders calls headers next response.url, []⟩
        followRedirects sha256 headers turns response

/-- What is made of the last response. -/
def blobOf (sha256 : Sha256Hash) (verifyHash : Bool) (response : Response) : Except Error Bytes :=
  if response.isRedirection then .error (.invalid "Too many blob redirects")
  else if response.status = 200 ∨ response.status = 206 then do
    let data ← response.bytes.mapError ofReqwestError
    if verifyHash ∧ calls.sha256 data ≠ sha256 then
      .error (.invalid "Downloaded blob does not match requested SHA256")
    else .ok data
  else .error (responseError calls "Failed to get blob" response)

/-- The headers of a download, but for the authorization. -/
def downloadHeaders (rangeValue : Option String) (payment : Option BlossomPaymentProof) : Except Error HeaderMap := do
  let headers ←
    match rangeValue with
    | none => .ok .new
    | some value => do
        let value ← headerValue value
        .ok (HeaderMap.new.insert range value)
  addPaymentHeader headers payment

/-- `get_blob_with_payment` -/
def getBlob (baseUrl : UrlRecord) (sha256 : Sha256Hash) (rangeValue : Option String)
    (options : Option BlossomAuthorizationOptions) (signer : Bool) (payment : Option BlossomPaymentProof) :
    BlossomProgram Bytes := do
  let url ← joinUrl calls baseUrl (hashText sha256)
  let headers ← .ofExcept (downloadHeaders rangeValue payment)
  let headers ← addAuthorizationHeader calls headers .get "Blossom get authorization" (.blobSha256Hashes [sha256])
    options signer
  let first ← send ⟨.get, url, headers, []⟩
  let last ← followRedirects calls sha256 headers 10 first
  .ofExcept (blobOf calls sha256 rangeValue.isNone last)

/-- What a candidate's answer gives, if it is the blob. -/
def resolved (uri : BlossomUri) (answer : Except String Response) : Option Bytes :=
  match answer with
  | .error _ => none
  | .ok response =>
      if !response.isSuccess || !containsText (calls.asStr response.url) (hashText uri.sha256) then none
      else
        match response.bytes with
        | .error _ => none
        | .ok data =>
            if uri.size.all (fun size => size.toNat = data.length) && calls.sha256 data = uri.sha256 then some data
            else none

/-- Asks the candidates one after the other. -/
def resolveFrom (uri : BlossomUri) : List UrlRecord → BlossomProgram Bytes
  | [] => .error (.invalid "Blob could not be resolved from any server")
  | candidate :: candidates => do
      let answer ← Interaction.call (BlossomCall.fetch candidate)
      match resolved calls uri answer with
      | some data => pure data
      | none => resolveFrom uri candidates

def resolveUri (uri : BlossomUri) (authorServers fallbackServers : List UrlRecord) : BlossomProgram Bytes :=
  resolveFrom calls uri (uri.candidateUrls calls.url authorServers fallbackServers)

/-! ## Uploads -/

/-- `descriptor_response` -/
def descriptorResponse (message : String) (response : Response) : Except Error BlobDescriptor :=
  if response.status = 200 ∨ response.status = 201 then response.json.mapError ofReqwestError
  else .error (responseError calls message response)

def withContentType (headers : HeaderMap) (type : Option String) : Except Error HeaderMap :=
  match type with
  | none => .ok headers
  | some type => do
      let value ← headerValue type
      .ok (headers.insert contentType value)

def uploadHeaders (data : Bytes) (type : Option String) (payment : Option BlossomPaymentProof) :
    Except Error HeaderMap := do
  let hash ← headerValue (hashText (calls.sha256 data))
  let headers ← withContentType ((HeaderMap.new.insert contentLength (toString data.length)).insert "x-sha-256" hash) type
  addPaymentHeader headers payment

/-- `upload_blob_with_payment` -/
def uploadBlob (baseUrl : UrlRecord) (data : Bytes) (type : Option String)
    (options : Option BlossomAuthorizationOptions) (signer : Bool) (payment : Option BlossomPaymentProof) :
    BlossomProgram BlobDescriptor := do
  let url ← joinUrl calls baseUrl "upload"
  let headers ← .ofExcept (uploadHeaders calls data type payment)
  let headers ← addAuthorizationHeader calls headers .upload "Blossom upload authorization"
    (.blobSha256Hashes [calls.sha256 data]) options signer
  let response ← send ⟨.put, url, headers, data⟩
  .ofExcept (descriptorResponse calls "Failed to upload blob" response)

def mirrorHeaders (blob : BlobDescriptor) (payment : Option BlossomPaymentProof) : Except Error HeaderMap := do
  let hash ← headerValue (hashText blob.sha256)
  let type ← headerValue blob.mimeType
  addPaymentHeader ((((HeaderMap.new.insert contentType "application/json").insert "x-sha-256" hash).insert
    "x-content-length" (toString blob.size.toNat)).insert "x-content-type" type) payment

/-- `{"url":…}` -/
def mirrorBody (blob : BlobDescriptor) : Bytes :=
  utf8 (Json.object [("url", Json.string (calls.asStr blob.url))])

def mirrorBlob (baseUrl : UrlRecord) (blob : BlobDescriptor) (options : Option BlossomAuthorizationOptions)
    (signer : Bool) (payment : Option BlossomPaymentProof) : BlossomProgram BlobDescriptor := do
  let url ← joinUrl calls baseUrl "mirror"
  let headers ← .ofExcept (mirrorHeaders blob payment)
  let headers ← addAuthorizationHeader calls headers .upload "Blossom mirror authorization"
    (.blobSha256Hashes [blob.sha256]) options signer
  let response ← send ⟨.put, url, headers, mirrorBody calls blob⟩
  .ofExcept (descriptorResponse calls "Failed to mirror blob" response)

def uploadAndMirror (servers : List UrlRecord) (data : Bytes) (type : Option String)
    (options : Option BlossomAuthorizationOptions) (signer : Bool) : BlossomProgram (List BlobDescriptor) :=
  match servers with
  | [] => .error (.invalid "A Blossom server list cannot be empty")
  | first :: mirrors => do
      let descriptor ← uploadBlob calls (newBase calls first) data type options signer none
      mirrors.foldlM (fun descriptors server => do
        let mirrored ← mirrorBlob calls (newBase calls server) descriptor options signer none
        pure (descriptors ++ [mirrored])) [descriptor]

end BlossomClient

end RustNostr.Blossom
