/-
AircraftApi/CredentialLifecycle.lean

API credentials over whole runs: the service issues them into `aircraft_auth`, operators
revoke them, disable principals and change what these are granted, and authentication reads
the tables as they are then.

A token is taken for a principal exactly while it is the token of a stored credential that
is not revoked, of a principal that is not disabled, with the tier and the scopes granted by
then (`presented_iff_live`).  The stored credentials are the issued ones, and a refused
issuance stores nothing, but for one whose commit was not answered (`stored_iff_issued`).
-/
import AircraftApi.Issuance
import AircraftApi.Redaction
import AircraftApi.Transition

namespace AircraftApi

namespace CredentialLifecycle

open Authentication
open ImportService (hexDigest)
open Transition (after transcript)

/-! ### The request -/

/-- Why a request for a credential is refused. -/
inductive CredentialInputError
  | nonPositivePrincipalId
  | blankLabel
  | labelTooLong
  deriving DecidableEq

/-- `MAX_LABEL_CHARS`. -/
def maxLabelChars : ℕ := 200

/-- The label has a character that is not white space, and no more than 200 of any kind. -/
structure IssueCredential where
  principalId : ℤ
  label : String
  positive : 0 < principalId
  visible : label.toList.any (fun c => !Text.isWhite c) = true
  short : label.toList.length ≤ maxLabelChars

/-- A request whose principal and label are valid. -/
def IssueCredential.new (principalId : ℤ) (label : String) :
    Except CredentialInputError IssueCredential :=
  if hid : 0 < principalId then
    if hlabel : label.toList.any (fun c => !Text.isWhite c) = true then
      if hlength : label.toList.length ≤ maxLabelChars then
        .ok ⟨principalId, label, hid, hlabel, hlength⟩
      else .error .labelTooLong
    else .error .blankLabel
  else .error .nonPositivePrincipalId

/-! ### The tables of 025 -/

/-- A row of the principals. -/
structure PrincipalRow where
  id : ℤ
  tier : String
  disabled : Bool

/-- A row of `api_credentials`, with the bytes it was issued from: of these only the key
identifier and the digest are stored. -/
structure CredentialRow where
  key : Vector UInt8 16
  secret : Vector UInt8 32
  principalId : ℤ
  label : String
  revoked : Bool

/-- The tables the operations work on. -/
structure Tables where
  principals : List PrincipalRow
  grants : List (ℤ × String)
  credentials : List CredentialRow

/-- The seeded rows of `scopes`. -/
def scopeCodes : List (String × Scope) := [
  ("CATALOG_READ", .catalogRead),
  ("MILITARY_READ", .militaryRead),
  ("CURATION_READ", .curationRead),
  ("CURATION_WRITE", .curationWrite),
  ("ADMIN", .admin)]

/-- `Scope::try_from`. -/
def scopeOf (code : String) : Option Scope := scopeCodes.lookup code

variable (crates : AuthCrates) (uuids : UuidCrate)

/-- The credential whose row this is. -/
def CredentialRow.material (row : CredentialRow) : CredentialMaterial :=
  .build crates uuids row.key row.secret

/-- The column that is looked up. -/
def CredentialRow.keyId (row : CredentialRow) : Uuid := (row.material crates uuids).keyId

/-- The column a token is compared with. -/
def CredentialRow.secretDigest (row : CredentialRow) : String :=
  hexDigest (row.material crates uuids).verifier.digest

/-! ### Issuance -/

/-- What is told of a credential without its secret. -/
structure CredentialRecord where
  keyId : Uuid
  principalId : ℤ
  label : String
  deriving DecidableEq

/-- The record and the token, which is shown this once. -/
structure IssuedCredential where
  record : CredentialRecord
  clear : String
  deriving DecidableEq

/-- Why nothing was issued. -/
inductive CredentialIssuanceError
  | entropyUnavailable (message : String)
  | unknownPrincipal (principalId : ℤ)
  | duplicateCredential
  | persistence (error : PersistenceError)
  deriving DecidableEq

/-- What an error of the insert says: the principal is unknown, the credential there already,
or the store failed. -/
def classify (error : PersistenceError) (principalId : ℤ) : CredentialIssuanceError :=
  match error with
  | .database code message =>
      if code = "DATABASE_23503" then .unknownPrincipal principalId
      else if code = "DATABASE_23505" then .duplicateCredential
      else .persistence (redactPersistenceError (.database code message))
  | other => .persistence (redactPersistenceError other)

/-- What becomes of the transaction of an insert: it is answered, or it fails, before its
commit or in it. -/
inductive Fault
  | none
  | lost (error : SqlxError) (committed : Bool)

/-- The database: what it takes for white space in a label, and its message on a refusal. -/
structure Server where
  isSpace : Char → Bool
  message : String → String

variable (server : Server)

/-- `INSERT_CREDENTIAL`, or the SQLSTATE it is refused with: the checks of a row come before
the unique indexes, and these before the foreign key. -/
def insertCredential (tables : Tables) (row : CredentialRow) : Except String Tables :=
  if row.label.toList.all server.isSpace ∨ maxLabelChars < row.label.toList.length then
    .error "23514"
  else if row.keyId crates uuids ∈ tables.credentials.map (CredentialRow.keyId crates uuids) ∨
      row.secretDigest crates uuids ∈
        tables.credentials.map (CredentialRow.secretDigest crates uuids) then
    .error "23505"
  else if row.principalId ∉ tables.principals.map PrincipalRow.id then .error "23503"
  else .ok { tables with credentials := tables.credentials ++ [row] }

/-- `SqlxCredentialStore::persist`: the row is decoded before the transaction commits. -/
def persist (tables : Tables) (row : CredentialRow) (fault : Fault) :
    Except PersistenceError CredentialRecord × Tables :=
  match fault, insertCredential crates uuids server tables row with
  | .lost error false, _ => (.error (credentialDatabaseError error), tables)
  | _, .error state => (.error (credentialDatabaseError ⟨server.message state, some state⟩), tables)
  | .lost error true, .ok stored => (.error (credentialDatabaseError error), stored)
  | .none, .ok stored => (.ok ⟨row.keyId crates uuids, row.principalId, row.label⟩, stored)

/-- What the random source fills the two buffers with. -/
structure Entropy where
  key : Except String (Vector UInt8 16)
  secret : Except String (Vector UInt8 32)

/-- A credential is issued: entropy for the identifier and the secret, then the insert. -/
def issue (tables : Tables) (request : IssueCredential) (entropy : Entropy) (fault : Fault) :
    Except CredentialIssuanceError IssuedCredential × Tables :=
  match entropy.key with
  | .error message => (.error (.entropyUnavailable message), tables)
  | .ok key =>
      match entropy.secret with
      | .error message => (.error (.entropyUnavailable message), tables)
      | .ok secret =>
          let row : CredentialRow := ⟨key, secret, request.principalId, request.label, false⟩
          match persist crates uuids server tables row fault with
          | (.error error, tables) => (.error (classify error request.principalId), tables)
          | (.ok record, tables) => (.ok ⟨record, (row.material crates uuids).clear⟩, tables)

/-! ### Authentication -/

/-- `array_agg(g.scope_code::text ORDER BY g.scope_code)`. -/
def Tables.scopesOf (tables : Tables) (principalId : ℤ) : List String :=
  ((tables.grants.filter fun grant => grant.1 = principalId).map Prod.snd).mergeSort (· ≤ ·)

/-- `record_from_row`; `decode(c.secret_digest, 'hex')` is `bytesOfHex`. -/
def recordFromRow (row : CredentialRow) (principal : PrincipalRow) (codes : List String) :
    Except PersistenceError CredentialLookupRecord :=
  let digest := bytesOfHex (row.secretDigest crates uuids).toList
  if digest.length ≠ 32 then .error (.invariant "stored credential digest is not 32 bytes")
  else
    match codes.mapM scopeOf with
    | none => .error (.invariant "granted scope is outside the closed vocabulary")
    | some scopes => .ok ⟨⟨digest⟩, row.revoked, principal.disabled, principal.id, scopes,
        principal.tier⟩

/-- `LOOKUP_CREDENTIAL`. -/
def resolve (tables : Tables) : Lookup := fun keyId =>
  match Statements.lookup (CredentialRow.keyId crates uuids) tables.credentials keyId with
  | none => .ok none
  | some row =>
      match Statements.lookup PrincipalRow.id tables.principals row.principalId with
      | none => .ok none
      | some principal =>
          (recordFromRow crates uuids row principal (tables.scopesOf principal.id)).map some

/-! ### Runs -/

/-- Why the command failed, in its input or later. -/
inductive IssueFailure
  | input (error : CredentialInputError)
  | issuance (error : CredentialIssuanceError)
  deriving DecidableEq

/-- An issuance, or a statement of an operator, which the constraints of 025 may refuse. -/
inductive Operation
  | issue (principalId : ℤ) (label : String) (entropy : Entropy) (fault : Fault)
  | enroll (principal : PrincipalRow)
  | update (principal : PrincipalRow)
  | grant (principalId : ℤ) (code : String)
  | withdraw (principalId : ℤ) (code : String)
  | revoke (keyId : Uuid) (revoked : Bool)

/-- The tables after an operation, and what the service answered. -/
def operate (tables : Tables) :
    Operation → Tables × Option (Except IssueFailure IssuedCredential)
  | .issue principalId label entropy fault =>
      match IssueCredential.new principalId label with
      | .error error => (tables, some (.error (.input error)))
      | .ok request =>
          match issue crates uuids server tables request entropy fault with
          | (.error error, tables) => (tables, some (.error (.issuance error)))
          | (.ok issued, tables) => (tables, some (.ok issued))
  | .enroll principal =>
      if principal.id ∈ tables.principals.map PrincipalRow.id then (tables, none)
      else ({ tables with principals := tables.principals ++ [principal] }, none)
  | .update principal =>
      ({ tables with principals := tables.principals.map fun row =>
          if row.id = principal.id then principal else row }, none)
  | .grant principalId code =>
      if principalId ∈ tables.principals.map PrincipalRow.id ∧ (scopeOf code).isSome ∧
          (principalId, code) ∉ tables.grants then
        ({ tables with grants := tables.grants ++ [(principalId, code)] }, none)
      else (tables, none)
  | .withdraw principalId code =>
      ({ tables with grants := tables.grants.filter (· ≠ (principalId, code)) }, none)
  | .revoke keyId revoked =>
      ({ tables with credentials := tables.credentials.map fun row =>
          if row.keyId crates uuids = keyId then { row with revoked := revoked } else row }, none)

/-- `aircraft_auth` as 025 and the seeds leave it. -/
def Tables.empty : Tables := ⟨[], [], []⟩

/-! ### What an issuance does -/

section

variable {crates uuids server} {tables tables' : Tables} {row : CredentialRow}

/-- What the service hands back for a row. -/
def CredentialRow.issued (crates : AuthCrates) (uuids : UuidCrate) (row : CredentialRow) :
    IssuedCredential :=
  ⟨⟨row.keyId crates uuids, row.principalId, row.label⟩, (row.material crates uuids).clear⟩

theorem insertCredential_eq_ok : insertCredential crates uuids server tables row = .ok tables' ↔
    (¬ (row.label.toList.all server.isSpace ∨ maxLabelChars < row.label.toList.length) ∧
      (row.keyId crates uuids ∉ tables.credentials.map (CredentialRow.keyId crates uuids) ∧
        row.secretDigest crates uuids ∉
          tables.credentials.map (CredentialRow.secretDigest crates uuids)) ∧
      row.principalId ∈ tables.principals.map PrincipalRow.id) ∧
    tables' = { tables with credentials := tables.credentials ++ [row] } := by
  unfold insertCredential
  split_ifs with hlabel hunique howner
  · exact iff_of_false nofun fun h => h.1.1 hlabel
  · exact iff_of_false nofun fun h => hunique.elim h.1.2.1.1 h.1.2.1.2
  · rw [Except.ok.injEq, eq_comm]
    rw [not_or] at hunique
    exact (and_iff_right ⟨hlabel, hunique, howner⟩).symm
  · exact iff_of_false nofun fun h => howner h.1.2.2

/-- An issuance is refused and leaves the tables, or its row is inserted; then it is
answered with the credential, unless the answer to its commit is lost. -/
theorem issue_cases (crates : AuthCrates) (uuids : UuidCrate) (server : Server) (tables : Tables)
    (request : IssueCredential) (entropy : Entropy) (fault : Fault) :
    (∃ error, issue crates uuids server tables request entropy fault = (.error error, tables)) ∨
      ∃ key secret row stored, entropy.key = .ok key ∧ entropy.secret = .ok secret ∧
        row = ⟨key, secret, request.principalId, request.label, false⟩ ∧
        insertCredential crates uuids server tables row = .ok stored ∧
        (issue crates uuids server tables request entropy fault =
            (.ok (row.issued crates uuids), stored) ∨
          ∃ refusal error, fault = .lost error true ∧
            issue crates uuids server tables request entropy fault = (.error refusal, stored)) := by
  rcases hkey : entropy.key with message | key
  · exact .inl ⟨.entropyUnavailable message, by simp only [issue, hkey]⟩
  rcases hsecret : entropy.secret with message | secret
  · exact .inl ⟨.entropyUnavailable message, by simp only [issue, hkey, hsecret]⟩
  rcases hinsert : insertCredential crates uuids server tables
      ⟨key, secret, request.principalId, request.label, false⟩ with state | stored
  · rcases fault with - | ⟨error, - | -⟩ <;>
      exact .inl ⟨_, by simp only [issue, hkey, hsecret, persist, hinsert]; rfl⟩
  · rcases fault with - | ⟨error, - | -⟩
    · exact .inr ⟨key, secret, _, stored, rfl, rfl, rfl, hinsert, .inl (by
        simp only [issue, hkey, hsecret, persist, hinsert]
        rfl)⟩
    · exact .inl ⟨_, by simp only [issue, hkey, hsecret, persist]; rfl⟩
    · exact .inr ⟨key, secret, _, stored, rfl, rfl, rfl, hinsert, .inr ⟨_, error, rfl, by
        simp only [issue, hkey, hsecret, persist, hinsert]
        rfl⟩⟩

end

/-! ### The tables after a run -/

/-- What the constraints of 025 keep. -/
structure Sound (crates : AuthCrates) (uuids : UuidCrate) (tables : Tables) : Prop where
  principals : (tables.principals.map PrincipalRow.id).Nodup
  owned : ∀ row ∈ tables.credentials, row.principalId ∈ tables.principals.map PrincipalRow.id
  keys : (tables.credentials.map (CredentialRow.keyId crates uuids)).Nodup
  digests : (tables.credentials.map (CredentialRow.secretDigest crates uuids)).Nodup
  vocabulary : ∀ grant ∈ tables.grants, (scopeOf grant.2).isSome

section

variable {crates uuids server} {tables stored : Tables} {row : CredentialRow}

theorem sound_empty : Sound crates uuids .empty :=
  ⟨List.nodup_nil, nofun, List.nodup_nil, List.nodup_nil, nofun⟩

theorem Sound.insert (h : Sound crates uuids tables)
    (hinsert : insertCredential crates uuids server tables row = .ok stored) :
    Sound crates uuids stored := by
  obtain ⟨⟨-, ⟨hkey, hdigest⟩, howner⟩, rfl⟩ := insertCredential_eq_ok.mp hinsert
  refine ⟨h.principals, ?_, ?_, ?_, h.vocabulary⟩
  · intro r hr
    rcases List.mem_append.mp hr with hr | hr
    · exact h.owned r hr
    · rwa [List.mem_singleton.mp hr]
  · rw [List.map_append, List.map_singleton, ← List.concat_eq_append]
    exact List.Nodup.concat hkey h.keys
  · rw [List.map_append, List.map_singleton, ← List.concat_eq_append]
    exact List.Nodup.concat hdigest h.digests

theorem sound_operate (operation : Operation) (h : Sound crates uuids tables) :
    Sound crates uuids (operate crates uuids server tables operation).1 := by
  cases operation with
  | issue principalId label entropy fault =>
      rcases hnew : IssueCredential.new principalId label with error | request
      · simpa only [operate, hnew] using h
      · rcases issue_cases crates uuids server tables request entropy fault with
          ⟨error, hissue⟩ |
          ⟨key, secret, row, stored, -, -, -, hinsert, hissue | ⟨refusal, error, -, hissue⟩⟩
        · simpa only [operate, hnew, hissue] using h
        · simpa only [operate, hnew, hissue] using h.insert hinsert
        · simpa only [operate, hnew, hissue] using h.insert hinsert
  | enroll principal =>
      rw [operate]
      split_ifs with hknown
      · exact h
      · refine ⟨?_, fun row hrow => ?_, h.keys, h.digests, h.vocabulary⟩
        · show ((tables.principals ++ [principal]).map PrincipalRow.id).Nodup
          rw [List.map_append, List.map_singleton, ← List.concat_eq_append]
          exact List.Nodup.concat hknown h.principals
        · show row.principalId ∈ (tables.principals ++ [principal]).map PrincipalRow.id
          rw [List.map_append]
          exact List.mem_append_left _ (h.owned row hrow)
  | update principal =>
      have hids : (tables.principals.map fun row =>
          if row.id = principal.id then principal else row).map PrincipalRow.id =
            tables.principals.map PrincipalRow.id := by
        rw [List.map_map]
        refine List.map_congr_left fun row _ => ?_
        show (if row.id = principal.id then principal else row).id = row.id
        split_ifs with hid
        · exact hid.symm
        · rfl
      refine ⟨?_, ?_, h.keys, h.digests, h.vocabulary⟩
      · rw [operate, hids]
        exact h.principals
      · rw [operate, hids]
        exact h.owned
  | grant principalId code =>
      rw [operate]
      split_ifs with hgrant
      · refine ⟨h.principals, h.owned, h.keys, h.digests, fun grant hmem => ?_⟩
        rcases List.mem_append.mp hmem with hmem | hmem
        · exact h.vocabulary grant hmem
        · rw [List.mem_singleton.mp hmem]
          exact hgrant.2.1
      · exact h
  | withdraw principalId code =>
      exact ⟨h.principals, h.owned, h.keys, h.digests, fun grant hmem =>
        h.vocabulary grant (List.mem_of_mem_filter hmem)⟩
  | revoke keyId revoked =>
      -- only the flag of a row changes
      have hsame : ∀ {β : Type} (f : CredentialRow → β), (∀ row, f { row with revoked } = f row) →
          (tables.credentials.map fun row =>
            if row.keyId crates uuids = keyId then { row with revoked } else row).map f =
            tables.credentials.map f := by
        intro β f hf
        rw [List.map_map]
        refine List.map_congr_left fun row _ => ?_
        show f (if row.keyId crates uuids = keyId then { row with revoked } else row) = f row
        split_ifs
        · exact hf row
        · rfl
      refine ⟨h.principals, ?_, ?_, ?_, h.vocabulary⟩
      · intro row hrow
        have howner : row.principalId ∈ tables.credentials.map CredentialRow.principalId := by
          rw [← hsame CredentialRow.principalId fun _ => rfl]
          exact List.mem_map_of_mem hrow
        obtain ⟨row', hrow', heq⟩ := List.mem_map.mp howner
        exact heq ▸ h.owned row' hrow'
      · rw [operate, hsame _ fun _ => rfl]
        exact h.keys
      · rw [operate, hsame _ fun _ => rfl]
        exact h.digests

theorem sound_after (run : List Operation) :
    Sound crates uuids (after (operate crates uuids server) .empty run) :=
  Transition.after_invariant (fun _ operation h => sound_operate operation h) sound_empty run

end

/-! ### Whom a token is taken for -/

/-- The principal as it authenticates: its scopes in the order of their codes. -/
def Tables.principalOf (tables : Tables) (principal : PrincipalRow) : AuthenticatedPrincipal :=
  ⟨principal.id, (tables.scopesOf principal.id).filterMap scopeOf, principal.tier⟩

/-- The texts a digest is taken of: the tokens of the stored credentials, and another. -/
def digestedTexts (crates : AuthCrates) (uuids : UuidCrate) (tables : Tables) (token : String) :
    Set (List UInt8) :=
  insert (Catalog.utf8 token) {bytes | ∃ row ∈ tables.credentials,
    bytes = Catalog.utf8 (row.material crates uuids).clear}

section

variable {crates uuids server} {tables : Tables} {row : CredentialRow}

/-- The owner of a credential, as the join finds it. -/
def Tables.owner (tables : Tables) (row : CredentialRow) : PrincipalRow :=
  (Statements.lookup PrincipalRow.id tables.principals row.principalId).getD
    ⟨row.principalId, "", true⟩

/-- A credential with what its row is joined with. -/
def Tables.joined (tables : Tables) (row : CredentialRow) : StoredCredential where
  key := row.key
  secret := row.secret
  revoked := row.revoked
  disabled := (tables.owner row).disabled
  principal := tables.principalOf (tables.owner row)

theorem Sound.lookup_owner (h : Sound crates uuids tables) (hrow : row ∈ tables.credentials) :
    Statements.lookup PrincipalRow.id tables.principals row.principalId =
      some (tables.owner row) := by
  obtain ⟨principal, hprincipal, hid⟩ := List.mem_map.mp (h.owned row hrow)
  have hfound := Statements.lookup_of_mem h.principals hprincipal
  rw [hid] at hfound
  rw [Tables.owner, hfound]
  rfl

theorem Sound.mapM_scopeOf (h : Sound crates uuids tables) (principalId : ℤ) :
    (tables.scopesOf principalId).mapM scopeOf =
      some ((tables.scopesOf principalId).filterMap scopeOf) := by
  have hcodes : ∀ code ∈ tables.scopesOf principalId, (scopeOf code).isSome := by
    intro code hcode
    rw [Tables.scopesOf, List.mem_mergeSort] at hcode
    obtain ⟨grant, hgrant, rfl⟩ := List.mem_map.mp hcode
    exact h.vocabulary grant (List.mem_of_mem_filter hgrant)
  generalize tables.scopesOf principalId = codes at hcodes
  induction codes with
  | nil => rfl
  | cons code codes ih =>
      obtain ⟨hfirst, hrest⟩ := List.forall_mem_cons.mp hcodes
      obtain ⟨scope, hscope⟩ := Option.isSome_iff_exists.mp hfirst
      rw [List.mapM_cons, hscope, ih hrest, List.filterMap_cons_some hscope]
      rfl

/-- No lookup fails, and each finds the credential with its owner. -/
theorem Sound.resolve_eq (h : Sound crates uuids tables)
    (hlength : ∀ bytes, (crates.sha256 bytes).length = 32) :
    resolve crates uuids tables =
      Authentication.resolve crates uuids (tables.credentials.map tables.joined) := by
  funext keyId
  have hlookup : Statements.lookup (StoredCredential.keyId crates uuids)
      (tables.credentials.map tables.joined) keyId =
        (Statements.lookup (CredentialRow.keyId crates uuids) tables.credentials keyId).map
          tables.joined := List.find?_map
  rw [resolve, Authentication.resolve, hlookup]
  rcases hfound : Statements.lookup (CredentialRow.keyId crates uuids) tables.credentials keyId
    with - | row
  · rfl
  · have hrow := (Statements.lookup_mem hfound).1
    have hdigest : bytesOfHex (row.secretDigest crates uuids).toList =
        (row.material crates uuids).verifier.digest := by
      rw [CredentialRow.secretDigest, ImportService.hexDigest, String.toList_ofList,
        bytesOfHex_flatMap]
    have hsize : (row.material crates uuids).verifier.digest.length = 32 := hlength _
    simp only [h.lookup_owner hrow, recordFromRow, hdigest, hsize, h.mapM_scopeOf]
    rfl

/-- **Authentication after any run** of issuances, with their failures, and of operators'
statements: no lookup fails, and a text is taken for a principal exactly when it is, byte for
byte, the token of a stored credential that is not revoked, of a principal that is not
disabled, with the tier and the scopes it has by then. -/
theorem presented_iff_live (huuids : uuids.Lawful crates)
    (hlength : ∀ bytes, (crates.sha256 bytes).length = 32) (run : List Operation)
    (htables : tables = after (operate crates uuids server) .empty run) {token : String}
    (hsha : Set.InjOn crates.sha256 (digestedTexts crates uuids tables token))
    (principal : AuthenticatedPrincipal) :
    (∀ keyId, ∃ record, resolve crates uuids tables keyId = .ok record) ∧
      (Presents crates (resolve crates uuids tables) token principal ↔
        ∃ row ∈ tables.credentials, token = (row.material crates uuids).clear ∧
          row.revoked = false ∧ ∃ owner ∈ tables.principals, owner.id = row.principalId ∧
            owner.disabled = false ∧ principal = tables.principalOf owner) := by
  have hsound : Sound crates uuids tables := htables ▸ sound_after run
  have hresolve := hsound.resolve_eq hlength
  have hkeys : ((tables.credentials.map tables.joined).map
      (StoredCredential.keyId crates uuids)).Nodup := by
    rw [List.map_map]
    exact hsound.keys
  have htexts : digested crates uuids (tables.credentials.map tables.joined) token ⊆
      digestedTexts crates uuids tables token := by
    rintro bytes (rfl | ⟨credential, hmem, rfl⟩)
    · exact Set.mem_insert _ _
    · obtain ⟨row, hrow, rfl⟩ := List.mem_map.mp hmem
      exact Set.mem_insert_of_mem _ ⟨row, hrow, rfl⟩
  rw [hresolve]
  refine ⟨fun keyId => ⟨_, rfl⟩, ?_⟩
  rw [presents_iff huuids hkeys (hsha.mono htexts)]
  constructor
  · rintro ⟨credential, hmem, htoken, hrevoked, hdisabled, rfl⟩
    obtain ⟨row, hrow, rfl⟩ := List.mem_map.mp hmem
    obtain ⟨howner, hid⟩ := Statements.lookup_mem (hsound.lookup_owner hrow)
    exact ⟨row, hrow, htoken, hrevoked, tables.owner row, howner, hid, hdisabled, rfl⟩
  · rintro ⟨row, hrow, htoken, hrevoked, owner, howner, hid, hdisabled, rfl⟩
    have hfound := Statements.lookup_of_mem hsound.principals howner
    rw [hid, hsound.lookup_owner hrow, Option.some.injEq] at hfound
    subst hfound
    exact ⟨tables.joined row, List.mem_map_of_mem hrow, htoken, hrevoked, hdisabled, rfl⟩

end

/-! ### The published credential -/

/-- A principal is enrolled, granted a scope, and issued the published token. -/
def vectorRun : List Operation := [
  .enroll ⟨7, "STANDARD", false⟩,
  .grant 7 "CATALOG_READ",
  .issue 7 "ci-runner" ⟨.ok vectorCredential.key, .ok vectorCredential.secret⟩ .none]

def vectorRow : CredentialRow :=
  ⟨vectorCredential.key, vectorCredential.secret, 7, "ci-runner", false⟩

def vectorServer : Server := ⟨fun c => c = ' ', fun _ => "refused"⟩

def vectorTables : Tables := ⟨[⟨7, "STANDARD", false⟩], [(7, "CATALOG_READ")], [vectorRow]⟩

theorem after_vectorRun : vectorTables =
    after (operate vectorCrates version4Crate vectorServer) .empty vectorRun := by
  rfl

theorem presented_iff_live_vector :
    Presents vectorCrates (resolve vectorCrates version4Crate vectorTables)
      (vectorRow.material vectorCrates version4Crate).clear ⟨7, [.catalogRead], "STANDARD"⟩ := by
  have hlength : ∀ bytes, (vectorCrates.sha256 bytes).length = 32 := by
    intro bytes
    show (bytesOfHex _).length = 32
    decide +kernel
  refine (presented_iff_live version4Crate_lawful hlength vectorRun after_vectorRun ?_ _).2.mpr
    ⟨vectorRow, List.mem_singleton_self _, rfl, rfl, ⟨7, "STANDARD", false⟩,
      List.mem_singleton_self _, rfl, rfl, ?_⟩
  · have hone : digestedTexts vectorCrates version4Crate vectorTables
        (vectorRow.material vectorCrates version4Crate).clear =
          {Catalog.utf8 (vectorRow.material vectorCrates version4Crate).clear} := by
      simp [digestedTexts, vectorTables]
    rw [hone]
    exact Set.injOn_singleton _ _
  · rw [Tables.principalOf, Tables.scopesOf, List.mergeSort_of_pairwise (by decide +kernel)]
    decide +kernel

/-! ### What is stored -/

/-- An issuance that left a row: it was answered with the credential of the row, or the
answer to its commit was lost. -/
def Made (crates : AuthCrates) (uuids : UuidCrate)
    (entry : Operation × Option (Except IssueFailure IssuedCredential)) (row : CredentialRow) :
    Prop :=
  ∃ entropy fault, entry.1 = .issue row.principalId row.label entropy fault ∧
    entropy.key = .ok row.key ∧ entropy.secret = .ok row.secret ∧
    (entry.2 = some (.ok (row.issued crates uuids)) ∨ ∃ error, fault = .lost error true)

section

variable {crates uuids server} {tables : Tables} {row : CredentialRow} {operation : Operation}

theorem request_of_new {principalId : ℤ} {label : String} {request : IssueCredential}
    (h : IssueCredential.new principalId label = .ok request) :
    request.principalId = principalId ∧ request.label = label := by
  unfold IssueCredential.new at h
  split_ifs at h
  cases h
  exact ⟨rfl, rfl⟩

/-- An operation leaves the credentials, sets the flags of some, or adds the one it
issues. -/
theorem credentials_operate (crates : AuthCrates) (uuids : UuidCrate) (server : Server)
    (tables : Tables) (operation : Operation) :
    (∃ flag : CredentialRow → Bool, (operate crates uuids server tables operation).1.credentials =
        tables.credentials.map (fun row => { row with revoked := flag row }) ∧
      ∀ issued, (operate crates uuids server tables operation).2 ≠ some (.ok issued)) ∨
    ∃ row, (operate crates uuids server tables operation).1.credentials =
        tables.credentials ++ [row] ∧
      Made crates uuids (operation, (operate crates uuids server tables operation).2) row ∧
      ∀ issued, (operate crates uuids server tables operation).2 = some (.ok issued) →
        issued = row.issued crates uuids := by
  have hkept : tables.credentials =
      tables.credentials.map fun row => { row with revoked := row.revoked } :=
    (List.map_id _).symm
  cases operation with
  | issue principalId label entropy fault =>
      rcases hnew : IssueCredential.new principalId label with error | request
      · exact .inl ⟨CredentialRow.revoked, by simpa only [operate, hnew] using hkept,
          by simp [operate, hnew]⟩
      obtain ⟨hid, hlabel⟩ := request_of_new hnew
      rcases issue_cases crates uuids server tables request entropy fault with ⟨error, hissue⟩ |
        ⟨key, secret, row, stored, hkey, hsecret, rfl, hinsert, hissue⟩
      · exact .inl ⟨CredentialRow.revoked, by simpa only [operate, hnew, hissue] using hkept,
          by simp [operate, hnew, hissue]⟩
      obtain ⟨-, rfl⟩ := insertCredential_eq_ok.mp hinsert
      refine .inr ⟨⟨key, secret, request.principalId, request.label, false⟩, ?_, ?_, ?_⟩
      · rcases hissue with hissue | ⟨refusal, error, -, hissue⟩
        · simp only [operate, hnew, hissue]
        · simp only [operate, hnew, hissue]
      · refine ⟨entropy, fault, by rw [hid, hlabel], hkey, hsecret, ?_⟩
        rcases hissue with hissue | ⟨refusal, error, hfault, -⟩
        · exact .inl (by simp only [operate, hnew, hissue])
        · exact .inr ⟨error, hfault⟩
      · intro issued
        rcases hissue with hissue | ⟨refusal, error, -, hissue⟩
        · simp only [operate, hnew, hissue, Option.some.injEq, Except.ok.injEq]
          exact Eq.symm
        · simp [operate, hnew, hissue]
  | enroll principal =>
      refine .inl ⟨CredentialRow.revoked, ?_, ?_⟩
      · rw [operate]
        split_ifs
        · exact hkept
        · exact hkept
      · intro issued
        rw [operate]
        split_ifs
        · exact nofun
        · exact nofun
  | update principal => exact .inl ⟨CredentialRow.revoked, hkept, nofun⟩
  | grant principalId code =>
      refine .inl ⟨CredentialRow.revoked, ?_, ?_⟩
      · rw [operate]
        split_ifs
        · exact hkept
        · exact hkept
      · intro issued
        rw [operate]
        split_ifs
        · exact nofun
        · exact nofun
  | withdraw principalId code => exact .inl ⟨CredentialRow.revoked, hkept, nofun⟩
  | revoke keyId revoked =>
      refine .inl ⟨fun row => if row.keyId crates uuids = keyId then revoked else row.revoked,
        List.map_congr_left fun row _ => ?_, nofun⟩
      by_cases hrow : row.keyId crates uuids = keyId
      · simp only [if_pos hrow]
      · simp only [if_neg hrow]

/-- **The stored credentials are the issued ones**: after any run, every row was left by an
issuance of the run, with its bytes, its principal and its label, that was answered with its
token or whose commit was not answered; and the credential of every answer is stored. -/
theorem stored_iff_issued (crates : AuthCrates) (uuids : UuidCrate) (server : Server)
    (run : List Operation) :
    (∀ row ∈ (after (operate crates uuids server) .empty run).credentials,
      ∃ entry ∈ transcript (operate crates uuids server) .empty run, Made crates uuids entry row) ∧
    ∀ operation issued,
      (operation, some (.ok issued)) ∈ transcript (operate crates uuids server) .empty run →
        ∃ row ∈ (after (operate crates uuids server) .empty run).credentials,
          Made crates uuids (operation, some (.ok issued)) row ∧
            issued = row.issued crates uuids := by
  induction run using List.reverseRecOn with
  | nil => exact ⟨nofun, nofun⟩
  | append_singleton run operation ih =>
      obtain ⟨hmade, hissued⟩ := ih
      rw [Transition.after_append_singleton, Transition.transcript_append_singleton]
      generalize after (operate crates uuids server) .empty run = tables at hmade hissued ⊢
      -- an operation changes flags, or adds the row it issued
      rcases credentials_operate crates uuids server tables operation with
        ⟨flag, hcredentials, hnone⟩ | ⟨last, hcredentials, hlast, hanswer⟩
      · rw [hcredentials]
        constructor
        · intro row hrow
          obtain ⟨stored, hstored, rfl⟩ := List.mem_map.mp hrow
          obtain ⟨entry, hentry, hmade⟩ := hmade stored hstored
          exact ⟨entry, List.mem_append_left _ hentry, hmade⟩
        · intro other issued hentry
          rcases List.mem_append.mp hentry with hentry | hentry
          · obtain ⟨row, hrow, hmade, rfl⟩ := hissued other issued hentry
            exact ⟨_, List.mem_map_of_mem hrow, hmade, rfl⟩
          · have hlast := (Prod.mk.inj (List.mem_singleton.mp hentry)).2
            -- an operation that adds nothing issues nothing
            exact absurd hlast.symm (hnone issued)
      · rw [hcredentials]
        constructor
        · intro row hrow
          rcases List.mem_append.mp hrow with hrow | hrow
          · obtain ⟨entry, hentry, hmade⟩ := hmade row hrow
            exact ⟨entry, List.mem_append_left _ hentry, hmade⟩
          · rw [List.mem_singleton.mp hrow]
            exact ⟨_, List.mem_append_right _ (List.mem_singleton_self _), hlast⟩
        · intro other issued hentry
          rcases List.mem_append.mp hentry with hentry | hentry
          · obtain ⟨row, hrow, hmade, rfl⟩ := hissued other issued hentry
            exact ⟨row, List.mem_append_left _ hrow, hmade, rfl⟩
          · obtain ⟨rfl, hsame⟩ := Prod.mk.inj (List.mem_singleton.mp hentry)
            rw [← hsame] at hlast hanswer
            exact ⟨last, List.mem_append_right _ (List.mem_singleton_self _), hlast,
              hanswer issued rfl⟩

end

end CredentialLifecycle

end AircraftApi
