/-
AircraftApi/Authentication.lean

Bearer authentication: from the `Authorization` fields of a request to the
principal its credential belongs to.

`bearerToken` takes the token of exactly one field of scheme `Bearer`,
`CredentialCandidate.parse` reduces it to a key identifier and the digest of the
token, and `AuthenticationService.authenticate` compares that digest with the
stored one.  The stored credentials are a lookup by key identifier, which may fail.
`authenticate` says which of these a request is refused for: nothing is looked up
for a request without a candidate, and every other request costs one lookup.
-/
import AircraftApi.Ingestion
import AircraftApi.Problem
import AircraftApi.Text

namespace AircraftApi

namespace Authentication

open Problem

/-! ### Credentials -/

/-- What a principal may be granted. -/
inductive Scope
  | catalogRead
  | militaryRead
  | curationRead
  | curationWrite
  | admin
  deriving DecidableEq

/-- What a `403` names the scope by. -/
def Scope.required : Scope → RequiredScope
  | catalogRead => .catalogRead
  | militaryRead => .militaryRead
  | curationRead => .curationRead
  | curationWrite => .curationWrite
  | admin => .admin

/-- The identifier of a credential, sixteen bytes. -/
structure Uuid where
  bytes : List UInt8
  deriving DecidableEq

/-- The digest a token is compared by. -/
structure CredentialVerifier where
  digest : List UInt8
  deriving DecidableEq

/-- What a token presents: whose credential it claims to be, and the digest of the whole. -/
structure CredentialCandidate where
  keyId : Uuid
  verifier : CredentialVerifier
  deriving DecidableEq

/-- Why a text is no token. -/
inductive CredentialSyntaxError
  | unexpectedLength
  | unexpectedShape
  | malformedKeyId
  deriving DecidableEq

/-- What is used of other packages: SHA-256, `Uuid::try_parse`, `HeaderValue::to_str`
and the URI parser. -/
structure AuthCrates where
  sha256 : List UInt8 → List UInt8
  parseUuid : String → Option Uuid
  toStr : List UInt8 → Option String
  parseUri : String → Option Uri

variable (crates : AuthCrates)

/-- `TOKEN_PREFIX`. -/
def tokenPrefix : String := "ak1"

/-- `SECRET_BYTES`. -/
def secretBytes : ℕ := 32

/-- `TOKEN_CHARS`: the prefix, a hyphenated UUID and a hexadecimal secret, joined by two
underscores. -/
def tokenChars : ℕ := 3 + 1 + 36 + 1 + secretBytes * 2

/-- `str::splitn`: at most `n` parts, the last one unsplit. -/
def splitn (sep : Char) : ℕ → List Char → List (List Char)
  | 0, _ => []
  | 1, text => [text]
  | n + 2, text =>
      match Text.splitOnce sep text with
      | none => [text]
      | some (part, rest) => part :: splitn sep (n + 1) rest

/-- The digest of a token. -/
def CredentialVerifier.ofToken (token : String) : CredentialVerifier :=
  ⟨crates.sha256 token.toUTF8.data.toList⟩

/-- The parts of a token, checked one after the other: size, shape, identifier. -/
def CredentialCandidate.parse (token : String) :
    Except CredentialSyntaxError CredentialCandidate :=
  if token.utf8ByteSize ≠ tokenChars then .error .unexpectedLength
  else
    match (splitn '_' 4 token.toList).map String.ofList with
    | [start, key, secret] =>
        if start ≠ tokenPrefix ∨ secret.utf8ByteSize ≠ secretBytes * 2 then .error .unexpectedShape
        else
          match crates.parseUuid key with
          | none => .error .malformedKeyId
          | some keyId => .ok ⟨keyId, .ofToken crates token⟩
    | _ => .error .unexpectedShape

/-- What is stored for an identifier. -/
structure CredentialLookupRecord where
  verifier : CredentialVerifier
  revoked : Bool
  disabled : Bool
  principalId : ℤ
  scopes : List Scope
  tier : String

/-- `CredentialLookup::resolve` at one moment. -/
abbrev Lookup := Uuid → Except PersistenceError (Option CredentialLookupRecord)

/-- Who asks, and what they may. -/
structure AuthenticatedPrincipal where
  principalId : ℤ
  scopes : List Scope
  tier : String
  deriving DecidableEq

/-- A token is refused, or nobody could tell. -/
inductive AuthenticationError
  | rejected
  | unavailable (error : PersistenceError)

/-! ### Redaction -/

/-- A run of 32 or more hexadecimal digits is not shown. -/
def flushRun (run : List Char) : List Char := if 32 ≤ run.length then "[REDACTED]".toList else run

/-- The loop of `redact_digest_runs`, with the run it is in. -/
def redactRuns : List Char → List Char → List Char
  | run, [] => flushRun run
  | run, c :: rest =>
      if isAsciiHexDigit c then redactRuns (run ++ [c]) rest
      else flushRun run ++ c :: redactRuns [] rest

/-- A message without digests. -/
def redactDigestRuns (message : String) : String := String.ofList (redactRuns [] message.toList)

/-- An error of the store without digests. -/
def redactPersistenceError : PersistenceError → PersistenceError
  | .database code message => .database code (redactDigestRuns message)
  | .invariant message => .invariant (redactDigestRuns message)

/-! ### The service -/

/-- What a missing row is compared with. -/
def absentVerifier : CredentialVerifier := ⟨List.replicate 32 0⟩

/-- The principal of a candidate. A missing row is compared against a digest nobody has. -/
def AuthenticationService.authenticate (lookup : Lookup) (candidate : CredentialCandidate) :
    Except AuthenticationError AuthenticatedPrincipal :=
  match lookup candidate.keyId with
  | .error error => .error (.unavailable (redactPersistenceError error))
  | .ok record =>
      -- the comparison comes before any stored flag, and is made for a missing row too
      let stored := record.elim absentVerifier CredentialLookupRecord.verifier
      let digestMatches := decide (candidate.verifier = stored)
      match record with
      | some record =>
          if digestMatches && !record.revoked && !record.disabled then
            .ok ⟨record.principalId, record.scopes, record.tier⟩
          else .error .rejected
      | none => .error .rejected

/-! ### The request -/

/-- A request, as far as the wrapper reads and changes it: the path it was sent to, its
header fields and the principal attached to it. -/
structure Request where
  originalUri : Option String
  uriPath : String
  headers : List (String × List UInt8)
  principal : Option AuthenticatedPrincipal
  deriving DecidableEq

/-- `header::AUTHORIZATION`; a header map keeps its names in lower case. -/
def authorization : String := "authorization"

/-- The values of the Authorization header. -/
def Request.authorizations (request : Request) : List (List UInt8) :=
  (request.headers.filter fun field => field.1 = authorization).map Prod.snd

/-- The request as the handlers see it. -/
def Request.withoutAuthorization (request : Request) : Request :=
  { request with headers := request.headers.filter fun field => field.1 ≠ authorization }

/-- The token of a request, if it has one Authorization header and that is a bearer token. -/
def bearerToken (request : Request) : Option String :=
  match request.authorizations with
  | [value] => do
      let text ← crates.toStr value
      let (scheme, token) ← Text.splitOnce ' ' text.toList
      if Text.lower scheme = "bearer".toList then some (String.ofList token) else none
  | _ => none

/-- The candidate of a request, if its token has the issued shape. -/
def candidateOf (request : Request) : Option CredentialCandidate :=
  (bearerToken crates request).bind fun token => (CredentialCandidate.parse crates token).toOption

/-- `authenticate`, with the request it leaves and the key identifiers it looked up. -/
def authenticate (lookup : Lookup) (request : Request) (path : String) :
    Except ApiProblem AuthenticatedPrincipal × Request × List Uuid :=
  match candidateOf crates request with
  | none => (.error (.new crates.parseUri .authenticationRequired path),
      request.withoutAuthorization, [])
  | some candidate =>
      let answer :=
        match AuthenticationService.authenticate lookup candidate with
        | .ok principal => .ok principal
        | .error .rejected => .error (.new crates.parseUri .authenticationRequired path)
        | .error (.unavailable (.database _ _)) =>
            .error (.new crates.parseUri .databaseUnavailable path)
        | .error (.unavailable (.invariant _)) => .error (.new crates.parseUri .internal path)
      (answer, request.withoutAuthorization, [candidate.keyId])

/-! ### Who a request is from -/

/-- The request has one `Authorization` field, of scheme `Bearer`, with this token. -/
structure Carries (crates : AuthCrates) (request : Request) (token : String) : Prop where
  of_field : ∃ value text scheme, request.authorizations = [value] ∧
    crates.toStr value = some text ∧ text.toList = scheme ++ ' ' :: token.toList ∧
    ' ' ∉ scheme ∧ Text.lower scheme = "bearer".toList

/-- The stored credentials take the token for the principal's. -/
structure Accepts (crates : AuthCrates) (lookup : Lookup) (token : String)
    (principal : AuthenticatedPrincipal) : Prop where
  of_record : ∃ candidate record, CredentialCandidate.parse crates token = .ok candidate ∧
    lookup candidate.keyId = .ok (some record) ∧ candidate.verifier = record.verifier ∧
    record.revoked = false ∧ record.disabled = false ∧
    principal = ⟨record.principalId, record.scopes, record.tier⟩

/-- The request carries a token that is accepted for the principal. -/
def Authenticates (crates : AuthCrates) (lookup : Lookup) (request : Request)
    (principal : AuthenticatedPrincipal) : Prop :=
  ∃ token, Carries crates request token ∧ Accepts crates lookup token principal

/-- What can be wrong with the header before anything stored is asked for. -/
inductive Malformed (crates : AuthCrates) (request : Request) : Prop
  | missing : request.authorizations = [] → Malformed crates request
  | repeated : 2 ≤ request.authorizations.length → Malformed crates request
  | notBearer {value} : request.authorizations = [value] →
      (∀ token, ¬ Carries crates request token) → Malformed crates request
  | token {token error} : Carries crates request token →
      CredentialCandidate.parse crates token = .error error → Malformed crates request

/-- Why a request is refused for its credentials. -/
inductive Refused (crates : AuthCrates) (lookup : Lookup) (request : Request) : Prop
  | malformed : Malformed crates request → Refused crates lookup request
  | unknownKey {token candidate} : Carries crates request token →
      CredentialCandidate.parse crates token = .ok candidate →
      lookup candidate.keyId = .ok none → Refused crates lookup request
  | wrongSecret {token candidate record} : Carries crates request token →
      CredentialCandidate.parse crates token = .ok candidate →
      lookup candidate.keyId = .ok (some record) → candidate.verifier ≠ record.verifier →
      Refused crates lookup request
  | revoked {token candidate record} : Carries crates request token →
      CredentialCandidate.parse crates token = .ok candidate →
      lookup candidate.keyId = .ok (some record) → record.revoked = true →
      Refused crates lookup request
  | disabled {token candidate record} : Carries crates request token →
      CredentialCandidate.parse crates token = .ok candidate →
      lookup candidate.keyId = .ok (some record) → record.disabled = true →
      Refused crates lookup request

variable {crates} {lookup : Lookup} {request : Request} {path token : String}
  {candidate : CredentialCandidate} {principal : AuthenticatedPrincipal}

theorem bearerToken_eq_some_iff : bearerToken crates request = some token ↔
    Carries crates request token := by
  constructor
  · intro h
    unfold bearerToken at h
    split at h
    · rename_i value hvalue
      obtain ⟨text, htext, h⟩ := Option.bind_eq_some_iff.mp h
      obtain ⟨⟨scheme, rest⟩, hsplit, h⟩ := Option.bind_eq_some_iff.mp h
      dsimp only at h
      split at h
      · rename_i hscheme
        obtain ⟨hparts, hnot⟩ := Text.splitOnce_eq_some_iff.mp hsplit
        obtain rfl : String.ofList rest = token := Option.some.inj h
        exact ⟨value, text, scheme, hvalue, htext, by rw [hparts, String.toList_ofList], hnot,
          hscheme⟩
      · cases h
    · cases h
  · rintro ⟨value, text, scheme, hvalue, htext, hparts, hnot, hscheme⟩
    have hsplit := Text.splitOnce_eq_some_iff.mpr ⟨hparts, hnot⟩
    simp only [bearerToken, hvalue, htext, Option.bind_eq_bind, Option.bind_some, hsplit,
      if_pos hscheme, String.ofList_toList]

theorem Carries.unique (h : Carries crates request token) {token' : String}
    (h' : Carries crates request token') : token = token' :=
  Option.some.inj ((bearerToken_eq_some_iff.mpr h).symm.trans (bearerToken_eq_some_iff.mpr h'))

theorem candidateOf_eq_some_iff : candidateOf crates request = some candidate ↔
    ∃ token, Carries crates request token ∧
      CredentialCandidate.parse crates token = .ok candidate := by
  rw [candidateOf, Option.bind_eq_some_iff]
  refine exists_congr fun token => and_congr bearerToken_eq_some_iff ?_
  rcases CredentialCandidate.parse crates token with error | candidate'
  · simp [Except.toOption]
  · simp [Except.toOption]

/-- A stored record is taken on its digest and both of its flags. -/
theorem service_of_record {record : CredentialLookupRecord}
    (h : lookup candidate.keyId = .ok (some record)) :
    AuthenticationService.authenticate lookup candidate
      = if candidate.verifier = record.verifier ∧ record.revoked = false ∧
            record.disabled = false then
          .ok ⟨record.principalId, record.scopes, record.tier⟩
        else .error .rejected := by
  unfold AuthenticationService.authenticate
  rw [h]
  by_cases hdigest : candidate.verifier = record.verifier
  · cases hrevoked : record.revoked <;> cases hdisabled : record.disabled <;>
      simp [hdigest, hrevoked, hdisabled]
  · simp [hdigest]

theorem service_of_none (h : lookup candidate.keyId = .ok none) :
    AuthenticationService.authenticate lookup candidate = .error .rejected := by
  unfold AuthenticationService.authenticate
  rw [h]

theorem service_ok_iff :
    AuthenticationService.authenticate lookup candidate = .ok principal ↔
      ∃ record, lookup candidate.keyId = .ok (some record) ∧
        candidate.verifier = record.verifier ∧ record.revoked = false ∧
        record.disabled = false ∧ principal = ⟨record.principalId, record.scopes, record.tier⟩ := by
  rcases h : lookup candidate.keyId with error | - | record
  · simp [AuthenticationService.authenticate, h]
  · simp [service_of_none h]
  · rw [service_of_record h]
    simp only [Except.ok.injEq, Option.some.injEq, exists_eq_left']
    split_ifs with hlive
    · simp [hlive, eq_comm]
    · simp only [false_iff]
      rintro ⟨hdigest, hrevoked, hdisabled, -⟩
      exact hlive ⟨hdigest, hrevoked, hdisabled⟩

theorem authenticates_iff : Authenticates crates lookup request principal ↔
    ∃ candidate, candidateOf crates request = some candidate ∧
      AuthenticationService.authenticate lookup candidate = .ok principal := by
  constructor
  · rintro ⟨token, hcarries, candidate, record, hparse, hrecord⟩
    exact ⟨candidate, candidateOf_eq_some_iff.mpr ⟨token, hcarries, hparse⟩,
      service_ok_iff.mpr ⟨record, hrecord⟩⟩
  · rintro ⟨candidate, hcandidate, hok⟩
    obtain ⟨token, hcarries, hparse⟩ := candidateOf_eq_some_iff.mp hcandidate
    obtain ⟨record, hrecord⟩ := service_ok_iff.mp hok
    exact ⟨token, hcarries, candidate, record, hparse, hrecord⟩

/-! ### What `authenticate` answers -/

theorem authenticate_request :
    (authenticate crates lookup request path).2.1 = request.withoutAuthorization := by
  unfold authenticate
  split <;> rfl

/-- One lookup for a request with a candidate, none for any other. -/
theorem authenticate_lookups : (authenticate crates lookup request path).2.2
    = (candidateOf crates request).toList.map CredentialCandidate.keyId := by
  unfold authenticate
  rcases candidateOf crates request with - | candidate <;> rfl

theorem authenticate_ok_iff :
    (authenticate crates lookup request path).1 = .ok principal ↔
      Authenticates crates lookup request principal := by
  rw [authenticates_iff]
  unfold authenticate
  rcases candidateOf crates request with - | candidate
  · simp
  · simp only [Option.some.injEq, exists_eq_left']
    rcases AuthenticationService.authenticate lookup candidate with (- | ⟨- | -⟩) | found <;> simp

theorem malformed_iff : Malformed crates request ↔ candidateOf crates request = none := by
  constructor
  · intro h
    by_contra hsome
    obtain ⟨candidate, hcandidate⟩ := Option.ne_none_iff_exists'.mp hsome
    obtain ⟨token, hcarries, hparse⟩ := candidateOf_eq_some_iff.mp hcandidate
    obtain ⟨value, -, -, hvalue, -⟩ := hcarries.of_field
    cases h with
    | missing h => simp [h] at hvalue
    | repeated h => simp [hvalue] at h
    | notBearer _ h => exact h token hcarries
    | token hcarries' h =>
        obtain rfl := hcarries.unique hcarries'
        simp [hparse] at h
  · intro h
    by_cases hcarries : ∃ token, Carries crates request token
    · obtain ⟨token, hcarries⟩ := hcarries
      rcases hparse : CredentialCandidate.parse crates token with error | candidate
      · exact .token hcarries hparse
      · simp [candidateOf_eq_some_iff.mpr ⟨token, hcarries, hparse⟩] at h
    · rw [not_exists] at hcarries
      rcases hvalues : request.authorizations with - | ⟨value, - | ⟨second, rest⟩⟩
      · exact .missing hvalues
      · exact .notBearer hvalues hcarries
      · exact .repeated (by simp [hvalues])

/-- The `401` has no other cause than a request without a candidate, and a candidate the
service rejects. -/
theorem refused_iff : Refused crates lookup request ↔
    ∀ candidate, candidateOf crates request = some candidate →
      AuthenticationService.authenticate lookup candidate = .error .rejected := by
  constructor
  · intro h candidate hcandidate
    -- a request presents one candidate
    have hunique : ∀ {token found}, Carries crates request token →
        CredentialCandidate.parse crates token = .ok found → found = candidate :=
      fun hcarries hparse => Option.some.inj
        ((candidateOf_eq_some_iff.mpr ⟨_, hcarries, hparse⟩).symm.trans hcandidate)
    cases h with
    | malformed h => simp [malformed_iff.mp h] at hcandidate
    | unknownKey hcarries hparse h =>
        obtain rfl := hunique hcarries hparse
        exact service_of_none h
    | wrongSecret hcarries hparse h hdigest =>
        obtain rfl := hunique hcarries hparse
        rw [service_of_record h, if_neg fun hlive => hdigest hlive.1]
    | revoked hcarries hparse h hrevoked =>
        obtain rfl := hunique hcarries hparse
        rw [service_of_record h, if_neg fun hlive => by simp [hrevoked] at hlive]
    | disabled hcarries hparse h hdisabled =>
        obtain rfl := hunique hcarries hparse
        rw [service_of_record h, if_neg fun hlive => by simp [hdisabled] at hlive]
  · intro h
    rcases hcandidate : candidateOf crates request with - | candidate
    · exact .malformed (malformed_iff.mpr hcandidate)
    · have hrejected := h candidate hcandidate
      obtain ⟨token, hcarries, hparse⟩ := candidateOf_eq_some_iff.mp hcandidate
      -- the row decides which of the reasons it is
      rcases hlookup : lookup candidate.keyId with error | - | record
      · simp [AuthenticationService.authenticate, hlookup] at hrejected
      · exact .unknownKey hcarries hparse hlookup
      · rw [service_of_record hlookup] at hrejected
        by_cases hdigest : candidate.verifier = record.verifier
        · cases hrevoked : record.revoked
          · cases hdisabled : record.disabled
            · simp [hdigest, hrevoked, hdisabled] at hrejected
            · exact .disabled hcarries hparse hlookup hdisabled
          · exact .revoked hcarries hparse hlookup hrevoked
        · exact .wrongSecret hcarries hparse hlookup hdigest

theorem authenticate_refused (h : Refused crates lookup request) :
    (authenticate crates lookup request path).1
      = .error (.new crates.parseUri .authenticationRequired path) := by
  unfold authenticate
  rcases hcandidate : candidateOf crates request with - | candidate
  · rfl
  · simp only [refused_iff.mp h candidate hcandidate]

end Authentication

end AircraftApi
