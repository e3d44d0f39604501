/-
AircraftApi/Issuance.lean

Credential issuance, and what authentication makes of an issued token.

`CredentialMaterial.build` makes the token `ak1_<key id>_<secret>` of 16 and 32
random bytes and the digest that is stored of it.  Authentication knows a token
by its digest alone, and the digest is of the whole text: no other spelling of the
key id or of the secret is taken (`authenticates_stored_iff`).

UUIDs are another package's; what is relied on of them is `UuidCrate.Lawful`.
-/
import AircraftApi.Authentication
import AircraftApi.IssuedCursors
import AircraftApi.Statements

namespace AircraftApi

namespace Authentication

open Problem
open Catalog (utf8)
open ImportService (hexByte hexDigest)

/-- What issuance uses of the UUID package: `Builder::from_random_bytes` and
`Uuid::hyphenated`. -/
structure UuidCrate where
  fromRandomBytes : Vector UInt8 16 → Uuid
  hyphenated : Uuid → String

/-- A version 4 identifier is written with 36 digits and hyphens, and read back. -/
structure UuidCrate.Lawful (uuids : UuidCrate) (crates : AuthCrates) : Prop where
  length_hyphenated : ∀ key, (uuids.hyphenated (uuids.fromRandomBytes key)).length = 36
  hyphenated_chars : ∀ key, ∀ c ∈ (uuids.hyphenated (uuids.fromRandomBytes key)).toList,
    isAsciiHexDigit c = true ∨ c = '-'
  parseUuid_hyphenated : ∀ key, crates.parseUuid (uuids.hyphenated (uuids.fromRandomBytes key))
    = some (uuids.fromRandomBytes key)

/-! ### Issuance -/

variable (crates : AuthCrates) (uuids : UuidCrate)

/-- A credential as it is made: identifier, token and digest. -/
structure CredentialMaterial where
  keyId : Uuid
  clear : String
  verifier : CredentialVerifier

/-- The credential made of its random bytes. -/
def CredentialMaterial.build (key : Vector UInt8 16) (secret : Vector UInt8 32) :
    CredentialMaterial :=
  let keyId := uuids.fromRandomBytes key
  let token := tokenPrefix ++ "_" ++ uuids.hyphenated keyId ++ "_" ++ hexDigest secret.toList
  { keyId, clear := token, verifier := .ofToken crates token }

/-- A stored credential with its principal: the bytes it was issued from, of which only
the key id and the digest are stored, and what the lookup reads beside them. -/
structure StoredCredential where
  key : Vector UInt8 16
  secret : Vector UInt8 32
  revoked : Bool
  disabled : Bool
  principal : AuthenticatedPrincipal

/-- The credential stored. -/
def StoredCredential.material (stored : StoredCredential) : CredentialMaterial :=
  .build crates uuids stored.key stored.secret

/-- What a lookup returns of it. -/
def StoredCredential.record (stored : StoredCredential) : CredentialLookupRecord where
  verifier := (stored.material crates uuids).verifier
  revoked := stored.revoked
  disabled := stored.disabled
  principalId := stored.principal.principalId
  scopes := stored.principal.scopes
  tier := stored.principal.tier

/-- The identifier it is stored under. -/
def StoredCredential.keyId (stored : StoredCredential) : Uuid :=
  (stored.material crates uuids).keyId

/-- `LOOKUP_CREDENTIAL` on the stored credentials. -/
def resolve (stored : List StoredCredential) : Lookup := fun keyId =>
  .ok ((Statements.lookup (StoredCredential.keyId crates uuids) stored keyId).map
    (StoredCredential.record crates uuids))

/-- `parse` followed by `authenticate`. -/
def Presents (lookup : Lookup) (token : String) (principal : AuthenticatedPrincipal) : Prop :=
  ∃ candidate, CredentialCandidate.parse crates token = .ok candidate ∧
    AuthenticationService.authenticate lookup candidate = .ok principal

variable {crates uuids} {key : Vector UInt8 16} {secret : Vector UInt8 32} {token : String}
  {stored : List StoredCredential} {principal : AuthenticatedPrincipal}

/-! ### Hexadecimal text -/

theorem hexDigit_spec {c : Char} (h : isAsciiHexDigit c = true) : c.toNat ≤ 126 ∧ c ≠ '_' := by
  constructor
  · simp only [isAsciiHexDigit, decide_eq_true_eq, Char.le_def, UInt32.le_iff_toNat_le] at h
    simp at h
    omega
  · rintro rfl
    exact absurd h (by decide)

theorem hexByte_hex (byte : UInt8) : ∀ c ∈ hexByte byte, isAsciiHexDigit c = true := by
  have hall : ∀ n : Fin 256, (hexByte (UInt8.ofNat n)).all isAsciiHexDigit = true := by
    decide +kernel
  have h := hall ⟨byte.toNat, byte.toNat_lt⟩
  rw [UInt8.ofNat_toNat] at h
  exact List.all_eq_true.mp h

theorem hexDigest_hex (bytes : List UInt8) :
    ∀ c ∈ (hexDigest bytes).toList, isAsciiHexDigit c = true := by
  intro c hc
  rw [hexDigest, String.toList_ofList] at hc
  obtain ⟨byte, -, hbyte⟩ := List.mem_flatMap.mp hc
  exact hexByte_hex byte c hbyte

theorem length_flatMap_hexByte (bytes : List UInt8) :
    (bytes.flatMap hexByte).length = 2 * bytes.length := by
  induction bytes with
  | nil => rfl
  | cons byte bytes ih =>
      rw [List.flatMap_cons, List.length_append, (Catalog.hexByte_spec byte).1, ih,
        List.length_cons]
      omega

theorem size_hexDigest (secret : Vector UInt8 32) :
    (hexDigest secret.toList).utf8ByteSize = secretBytes * 2 := by
  have hascii : ∀ c ∈ secret.toList.flatMap hexByte, c.toNat ≤ 126 := by
    intro c hc
    have hdigest : c ∈ (hexDigest secret.toList).toList := by
      rwa [hexDigest, String.toList_ofList]
    exact (hexDigit_spec (hexDigest_hex _ c hdigest)).1
  rw [hexDigest, Catalog.size_of_ascii hascii, length_flatMap_hexByte, Vector.length_toList,
    secretBytes]

/-! ### The layout -/

/-- Two separators make three parts. -/
theorem splitn_layout {sep : Char} {first second third : List Char} (hfirst : sep ∉ first)
    (hsecond : sep ∉ second) (hthird : sep ∉ third) :
    splitn sep 4 (first ++ sep :: (second ++ sep :: third)) = [first, second, third] := by
  have hrest : Text.splitOnce sep third = none := by
    rcases h : Text.splitOnce sep third with - | ⟨before, rest⟩
    · rfl
    · obtain ⟨rfl, -⟩ := Text.splitOnce_eq_some_iff.mp h
      simp at hthird
  simp only [splitn, Text.splitOnce_eq_some_iff.mpr ⟨rfl, hfirst⟩,
    Text.splitOnce_eq_some_iff.mpr ⟨rfl, hsecond⟩, hrest]

/-- What is read of a text of the issued layout. -/
theorem parse_layout {keyText secretText : String} {keyId : Uuid}
    (hkey : keyText.utf8ByteSize = 36) (hsecret : secretText.utf8ByteSize = secretBytes * 2)
    (hkeySep : '_' ∉ keyText.toList) (hsecretSep : '_' ∉ secretText.toList)
    (huuid : crates.parseUuid keyText = some keyId) :
    CredentialCandidate.parse crates (tokenPrefix ++ "_" ++ keyText ++ "_" ++ secretText)
      = .ok ⟨keyId, .ofToken crates (tokenPrefix ++ "_" ++ keyText ++ "_" ++ secretText)⟩ := by
  have hlength : (tokenPrefix ++ "_" ++ keyText ++ "_" ++ secretText).utf8ByteSize = tokenChars := by
    simp only [String.utf8ByteSize_append, hkey, hsecret]
    decide
  have hparts : splitn '_' 4 (tokenPrefix ++ "_" ++ keyText ++ "_" ++ secretText).toList
      = [tokenPrefix.toList, keyText.toList, secretText.toList] := by
    rw [← splitn_layout (by decide) hkeySep hsecretSep]
    simp [String.toList_append]
  rw [CredentialCandidate.parse, if_neg (not_not_intro hlength), hparts]
  simp [String.ofList_toList, hsecret, huuid]

theorem verifier_of_parse {candidate : CredentialCandidate}
    (h : CredentialCandidate.parse crates token = .ok candidate) :
    candidate.verifier = .ofToken crates token := by
  unfold CredentialCandidate.parse at h
  split_ifs at h
  split at h
  · split_ifs at h
    split at h
    · cases h
    · cases h
      rfl
  · cases h

/-- An issued token is read as the key id and the digest issuance stores. -/
theorem parse_build (huuids : uuids.Lawful crates) (key : Vector UInt8 16)
    (secret : Vector UInt8 32) :
    CredentialCandidate.parse crates (CredentialMaterial.build crates uuids key secret).clear
      = .ok ⟨(CredentialMaterial.build crates uuids key secret).keyId,
          (CredentialMaterial.build crates uuids key secret).verifier⟩ := by
  have hchars : ∀ c ∈ (uuids.hyphenated (uuids.fromRandomBytes key)).toList,
      c.toNat ≤ 126 ∧ c ≠ '_' := by
    intro c hc
    rcases huuids.hyphenated_chars key c hc with hhex | rfl
    · exact hexDigit_spec hhex
    · exact ⟨by decide, by decide⟩
  have hsize : (uuids.hyphenated (uuids.fromRandomBytes key)).utf8ByteSize = 36 := by
    have h := Catalog.size_of_ascii fun c hc => (hchars c hc).1
    rwa [String.ofList_toList, String.length_toList, huuids.length_hyphenated] at h
  exact parse_layout hsize (size_hexDigest secret) (fun h => (hchars _ h).2 rfl)
    (fun h => (hexDigit_spec (hexDigest_hex _ _ h)).2 rfl) (huuids.parseUuid_hyphenated key)

/-! ### Stored credentials -/

theorem resolve_eq_some_iff (hnodup : (stored.map (StoredCredential.keyId crates uuids)).Nodup)
    {keyId : Uuid} {record : CredentialLookupRecord} :
    resolve crates uuids stored keyId = .ok (some record) ↔
      ∃ credential ∈ stored, credential.keyId crates uuids = keyId ∧
        credential.record crates uuids = record := by
  rw [resolve, Except.ok.injEq, Option.map_eq_some_iff]
  constructor
  · rintro ⟨credential, hfound, hrecord⟩
    obtain ⟨hmem, hkey⟩ := Statements.lookup_mem hfound
    exact ⟨credential, hmem, hkey, hrecord⟩
  · rintro ⟨credential, hmem, rfl, hrecord⟩
    exact ⟨credential, Statements.lookup_of_mem hnodup hmem, hrecord⟩

/-- The texts a digest is taken of: what is presented and what was issued. -/
def digested (crates : AuthCrates) (uuids : UuidCrate) (stored : List StoredCredential)
    (token : String) : Set (List UInt8) :=
  insert (utf8 token) {bytes | ∃ credential ∈ stored,
    bytes = utf8 (credential.material crates uuids).clear}

/-- The digest of the whole text leaves only the issued spelling. -/
theorem eq_clear_of_verifier {credential : StoredCredential} (hmem : credential ∈ stored)
    (hsha : Set.InjOn crates.sha256 (digested crates uuids stored token))
    (h : CredentialVerifier.ofToken crates token = (credential.record crates uuids).verifier) :
    token = (credential.material crates uuids).clear := by
  have hdigest : crates.sha256 (utf8 token)
      = crates.sha256 (utf8 (credential.material crates uuids).clear) :=
    congrArg CredentialVerifier.digest h
  exact Catalog.utf8_injective
    (hsha (Set.mem_insert _ _) (Set.mem_insert_of_mem _ ⟨credential, hmem, rfl⟩) hdigest)

theorem presents_iff (huuids : uuids.Lawful crates)
    (hnodup : (stored.map (StoredCredential.keyId crates uuids)).Nodup)
    (hsha : Set.InjOn crates.sha256 (digested crates uuids stored token)) :
    Presents crates (resolve crates uuids stored) token principal ↔
      ∃ credential ∈ stored, token = (credential.material crates uuids).clear ∧
        credential.revoked = false ∧ credential.disabled = false ∧
        principal = credential.principal := by
  constructor
  · rintro ⟨candidate, hparse, hok⟩
    obtain ⟨record, hrecord, hverifier, hrevoked, hdisabled, rfl⟩ := service_ok_iff.mp hok
    obtain ⟨credential, hmem, -, rfl⟩ := (resolve_eq_some_iff hnodup).mp hrecord
    rw [verifier_of_parse hparse] at hverifier
    exact ⟨credential, hmem, eq_clear_of_verifier hmem hsha hverifier, hrevoked, hdisabled, rfl⟩
  · rintro ⟨credential, hmem, rfl, hrevoked, hdisabled, rfl⟩
    refine ⟨_, parse_build huuids credential.key credential.secret, service_ok_iff.mpr ?_⟩
    exact ⟨credential.record crates uuids,
      (resolve_eq_some_iff hnodup).mpr ⟨credential, hmem, rfl, rfl⟩, rfl, hrevoked, hdisabled, rfl⟩

/-- **Credential soundness**: every issued token is read as the key id and the digest
that are stored of it, and a text is taken for a principal exactly when it is, byte for
byte, the token issued for a stored credential of that principal which is neither revoked
nor of a disabled principal. -/
theorem credential_soundness (crates : AuthCrates) (uuids : UuidCrate)
    (huuids : uuids.Lawful crates) :
    (∀ key secret,
      CredentialCandidate.parse crates (CredentialMaterial.build crates uuids key secret).clear
        = .ok ⟨(CredentialMaterial.build crates uuids key secret).keyId,
            (CredentialMaterial.build crates uuids key secret).verifier⟩) ∧
    ∀ stored token, (stored.map (StoredCredential.keyId crates uuids)).Nodup →
      Set.InjOn crates.sha256 (digested crates uuids stored token) →
      ∀ principal, Presents crates (resolve crates uuids stored) token principal ↔
        ∃ credential ∈ stored, token = (credential.material crates uuids).clear ∧
          credential.revoked = false ∧ credential.disabled = false ∧
          principal = credential.principal :=
  ⟨parse_build huuids, fun _ _ hnodup hsha _ => presents_iff huuids hnodup hsha⟩

/-! ### The published vector -/

/-- The version and the variant of a random UUID. -/
def version4 (key : Vector UInt8 16) : Uuid :=
  ⟨((key.set 6 ((key[6] &&& 0x0f) ||| 0x40)).set 8 ((key[8] &&& 0x3f) ||| 0x80)).toList⟩

/-- Five groups of digits. -/
def groups (keyId : Uuid) : String :=
  let part (start size : ℕ) := ((keyId.bytes.drop start).take size).flatMap hexByte
  String.ofList (part 0 4 ++ '-' :: (part 4 2 ++ '-' :: (part 6 2 ++ '-' :: (part 8 2 ++
    '-' :: part 10 6))))

/-- Two digits a byte. -/
def bytesOfHex : List Char → List UInt8
  | high :: low :: rest => UInt8.ofNat (Catalog.hexValue [high, low]) :: bytesOfHex rest
  | _ => []

theorem bytesOfHex_flatMap (bytes : List UInt8) : bytesOfHex (bytes.flatMap hexByte) = bytes := by
  induction bytes with
  | nil => rfl
  | cons byte bytes ih =>
      obtain ⟨hlength, -, hvalue⟩ := Catalog.hexByte_spec byte
      obtain ⟨high, low, hbyte⟩ := List.length_eq_two.mp hlength
      rw [List.flatMap_cons, hbyte, List.cons_append, List.cons_append, List.nil_append,
        bytesOfHex, ← hbyte, hvalue, ih, UInt8.ofNat_toNat]

/-- Identifiers of version 4. -/
def version4Crate : UuidCrate where
  fromRandomBytes := version4
  hyphenated := groups

/-- SHA-256 on the token of the key `00..0f` and the secret `10..2f`. -/
def vectorCrates : AuthCrates where
  sha256 _ := bytesOfHex
    "9fdc9e0584edf8647a3677f4e45dd77c303caf819eace32829d3a1ae5e21b4b5".toList
  parseUuid text :=
    if text.length = 36 then some ⟨bytesOfHex (text.toList.filter (· ≠ '-'))⟩ else none
  toStr value := some (String.ofList (value.map fun byte => Char.ofNat byte.toNat))
  parseUri path := some ⟨none, none, path, none⟩

theorem flatMap_hexByte_no_hyphen (bytes : List UInt8) :
    (bytes.flatMap hexByte).filter (· ≠ '-') = bytes.flatMap hexByte := by
  rw [List.filter_eq_self]
  intro c hc
  obtain ⟨byte, -, hbyte⟩ := List.mem_flatMap.mp hc
  rw [decide_eq_true_eq]
  rintro rfl
  exact absurd (hexByte_hex byte _ hbyte) (by decide)

theorem take_drop_append (bytes : List UInt8) (start size : ℕ) :
    (bytes.drop start).take size ++ bytes.drop (start + size) = bytes.drop start := by
  rw [← List.drop_drop, List.take_append_drop]

/-- The groups hold the digits of every byte. -/
theorem groups_filter {keyId : Uuid} (h : keyId.bytes.length = 16) :
    (groups keyId).toList.filter (· ≠ '-') = keyId.bytes.flatMap hexByte := by
  have hlast : (keyId.bytes.drop 10).take 6 = keyId.bytes.drop 10 :=
    List.take_of_length_le (by rw [List.length_drop, h])
  rw [groups, String.toList_ofList]
  simp only [List.filter_append, List.filter_cons, flatMap_hexByte_no_hyphen, ne_eq,
    not_true_eq_false, decide_false, Bool.false_eq_true, if_false, ← List.flatMap_append]
  rw [hlast, take_drop_append keyId.bytes 8 2, take_drop_append keyId.bytes 6 2,
    take_drop_append keyId.bytes 4 2, take_drop_append keyId.bytes 0 4, List.drop_zero]

theorem groups_chars {keyId : Uuid} : ∀ c ∈ (groups keyId).toList,
    isAsciiHexDigit c = true ∨ c = '-' := by
  have hpart : ∀ bytes : List UInt8, ∀ c ∈ bytes.flatMap hexByte, isAsciiHexDigit c = true := by
    intro bytes c hc
    obtain ⟨byte, -, hbyte⟩ := List.mem_flatMap.mp hc
    exact hexByte_hex byte c hbyte
  intro c hc
  rw [groups, String.toList_ofList] at hc
  simp only [List.mem_append, List.mem_cons] at hc
  rcases hc with h | rfl | h | rfl | h | rfl | h | rfl | h
  all_goals first | exact .inr rfl | exact .inl (hpart _ c h)

theorem length_groups {keyId : Uuid} (h : keyId.bytes.length = 16) :
    (groups keyId).length = 36 := by
  rw [groups, ← String.length_toList, String.toList_ofList]
  simp only [List.length_append, List.length_cons, length_flatMap_hexByte, List.length_take,
    List.length_drop, h]
  rfl

theorem length_version4 (key : Vector UInt8 16) : (version4 key).bytes.length = 16 :=
  Vector.length_toList

theorem version4Crate_lawful : version4Crate.Lawful vectorCrates where
  length_hyphenated key := length_groups (length_version4 key)
  hyphenated_chars _ := groups_chars
  parseUuid_hyphenated key := by
    have hlength : (groups (version4 key)).length = 36 := length_groups (length_version4 key)
    have hbytes : bytesOfHex ((groups (version4 key)).toList.filter (· ≠ '-'))
        = (version4 key).bytes := by
      rw [groups_filter (length_version4 key), bytesOfHex_flatMap]
    simp only [vectorCrates, version4Crate, hlength, if_true, hbytes]

def vectorCredential : StoredCredential where
  key := Vector.ofFn fun i => UInt8.ofNat i
  secret := Vector.ofFn fun i => UInt8.ofNat (16 + i)
  revoked := false
  disabled := false
  principal := ⟨7, [.catalogRead], "STANDARD"⟩

example : (vectorCredential.material vectorCrates version4Crate).clear
    = "ak1_00010203-0405-4607-8809-0a0b0c0d0e0f_" ++
      "101112131415161718191a1b1c1d1e1f202122232425262728292a2b2c2d2e2f" := by
  decide +kernel

/-- The published token, and its only credential. -/
theorem credential_soundness_vector :
    Presents vectorCrates (resolve vectorCrates version4Crate [vectorCredential])
      (vectorCredential.material vectorCrates version4Crate).clear
      ⟨7, [.catalogRead], "STANDARD"⟩ := by
  refine ((credential_soundness vectorCrates version4Crate version4Crate_lawful).2
    [vectorCredential] _ (List.nodup_singleton _) ?_ _).mpr
    ⟨vectorCredential, List.mem_singleton_self _, rfl, rfl, rfl, rfl⟩
  have hone : digested vectorCrates version4Crate [vectorCredential]
      (vectorCredential.material vectorCrates version4Crate).clear
        = {utf8 (vectorCredential.material vectorCrates version4Crate).clear} := by
    simp [digested]
  rw [hone]
  exact Set.injOn_singleton _ _

end Authentication

end AircraftApi
