/-
AircraftApi/Problem.lean

Problem documents, as the routes answer them.

A problem is a kind and the path it happened at.  All of its texts come with the
kind, so two problems of one kind at one path are one document
(`ApiProblem.intoResponse`).  How the `http` package reads a URI is a parameter.
-/
import Mathlib

namespace AircraftApi

namespace Problem

/-- What is read of `http::Uri`. -/
structure Uri where
  scheme : Option String
  authority : Option String
  path : String
  query : Option String

/-- The scope an endpoint asks for. -/
inductive RequiredScope
  | catalogRead
  | militaryRead
  | curationRead
  | curationWrite
  | admin
  deriving DecidableEq

/-- The problems the API answers with. -/
inductive ProblemKind
  | validationFailed
  | authenticationRequired
  | insufficientScope (requiredScope : RequiredScope)
  | notFound
  | rateLimited (retryAfterSeconds : ℕ)
  | databaseUnavailable
  | overloaded
  | internal
  deriving DecidableEq

/-- What a problem says, the same every time. -/
structure ProblemContract where
  kind : String
  title : String
  status : ℕ
  detail : String
  deriving DecidableEq

/-- The type, title, status and detail of a problem. -/
def ProblemKind.contract : ProblemKind → ProblemContract
  | validationFailed =>
      ⟨"/problems/validation-failed", "Validation Failed", 400,
        "The request violates the API contract."⟩
  | authenticationRequired =>
      ⟨"/problems/authentication-required", "Unauthorized", 401,
        "Authentication is required to access this resource."⟩
  | insufficientScope _ =>
      ⟨"/problems/insufficient-scope", "Forbidden", 403,
        "The authenticated principal lacks the required scope."⟩
  | notFound =>
      ⟨"/problems/not-found", "Not Found", 404, "The requested resource was not found."⟩
  | rateLimited _ =>
      ⟨"/problems/rate-limit-exceeded", "Too Many Requests", 429,
        "The request rate limit has been exceeded."⟩
  | databaseUnavailable =>
      ⟨"/problems/database-unavailable", "Service Unavailable", 503,
        "The service cannot reach its database."⟩
  | overloaded =>
      ⟨"/problems/overloaded", "Service Unavailable", 503,
        "The service is at capacity and refused this request rather than queueing it."⟩
  | internal =>
      ⟨"/problems/internal-error", "Internal Server Error", 500,
        "The service encountered an unexpected error."⟩

/-- A hexadecimal digit, in either case. -/
def isAsciiHexDigit (c : Char) : Bool :=
  ('0' ≤ c ∧ c ≤ '9') ∨ ('a' ≤ c ∧ c ≤ 'f') ∨ ('A' ≤ c ∧ c ≤ 'F')

/-- Every percent sign is followed by two hexadecimal digits. -/
def hasValidPercentEncoding : List Char → Bool
  | [] => true
  | '%' :: high :: low :: rest =>
      isAsciiHexDigit high && isAsciiHexDigit low && hasValidPercentEncoding rest
  | '%' :: _ => false
  | _ :: rest => hasValidPercentEncoding rest

/-- A control character, of ASCII or behind it. -/
def isControl (c : Char) : Bool := c.toNat < 0x20 ∨ (0x7F ≤ c.toNat ∧ c.toNat < 0xA0)

variable (parseUri : String → Option Uri)

/-- The refused request's path, bounded and kept URI-valid. -/
def boundedInstance (path : String) : String :=
  let sanitized := path.toList.take 256
  if 255 < sanitized.length then "/request-path-too-long"
  else
    match parseUri (String.ofList sanitized) with
    | none => "/invalid-request-path"
    | some uri =>
        if sanitized.any isControl ∨ ¬ ['/'] <+: sanitized ∨ ['/', '/'] <+: sanitized ∨
            uri.scheme.isSome ∨ uri.authority.isSome ∨ uri.query.isSome ∨
            uri.path ≠ String.ofList sanitized ∨ ¬ hasValidPercentEncoding sanitized then
          "/invalid-request-path"
        else String.ofList sanitized

/-- A path that may be published. -/
structure ValidInstance (path : List Char) : Prop where
  length_le : path.length ≤ 255
  slash : ['/'] <+: path
  not_slashes : ¬ ['/', '/'] <+: path
  no_control : path.any isControl = false
  percent : hasValidPercentEncoding path = true

theorem boundedInstance_valid (path : String) :
    ValidInstance (boundedInstance parseUri path).toList := by
  rw [boundedInstance]
  split
  · exact ⟨by decide, by decide, by decide, by decide, by decide⟩
  · rename_i hlen
    split
    · exact ⟨by decide, by decide, by decide, by decide, by decide⟩
    · split
      · exact ⟨by decide, by decide, by decide, by decide, by decide⟩
      · rename_i hbad
        simp only [not_or, not_not, Bool.not_eq_true] at hbad
        rw [String.toList_ofList]
        obtain ⟨hcontrol, hslash, hslashes, -, -, -, -, hpercent⟩ := hbad
        exact ⟨not_lt.mp hlen, hslash, hslashes, hcontrol, by simpa using hpercent⟩

/-- A problem, and the path it happened on. -/
structure ApiProblem where
  kind : ProblemKind
  instancePath : String
  deriving DecidableEq

/-- The problem of a path, which is bounded and cleaned first. -/
def ApiProblem.new (kind : ProblemKind) (path : String) : ApiProblem :=
  ⟨kind, boundedInstance parseUri path⟩

/-- The body of a problem. -/
structure ProblemDetails where
  kind : String
  title : String
  status : ℕ
  detail : String
  instancePath : String
  requiredScope : Option RequiredScope
  deriving DecidableEq

/-- The body: the contract's texts and the path. -/
def ApiProblem.details (problem : ApiProblem) : ProblemDetails where
  kind := problem.kind.contract.kind
  title := problem.kind.contract.title
  status := problem.kind.contract.status
  detail := problem.kind.contract.detail
  instancePath := problem.instancePath
  requiredScope :=
    match problem.kind with
    | .insufficientScope requiredScope => some requiredScope
    | _ => none

/-- The status, the headers beside the content type, and the document. -/
structure ProblemResponse where
  status : ℕ
  wwwAuthenticate : Option String
  retryAfter : Option ℕ
  body : ProblemDetails
  deriving DecidableEq

/-- The answer: status, headers and body. -/
def ApiProblem.intoResponse (problem : ApiProblem) : ProblemResponse where
  status := problem.details.status
  wwwAuthenticate :=
    match problem.kind with
    | .authenticationRequired => some "Bearer"
    | _ => none
  retryAfter :=
    match problem.kind with
    | .rateLimited seconds => some seconds
    | _ => none
  body := problem.details

end Problem

end AircraftApi
