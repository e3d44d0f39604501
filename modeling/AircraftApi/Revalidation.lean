/-
AircraftApi/Revalidation.lean

Clients that keep what `GET /v1/reference/{catalog}` answered them and ask again with the
validator they hold, while the database changes under them.

`World` is the clients with what they hold, `Plain` the same clients reading every catalog
whole and holding its entries.  As long as the digests of two different bodies differ, both
see the same answers and hold the same entries, so a client is told `304` exactly when what
it holds is what the database has (`revalidation_exact`).  Rows that are written again, or
that the statement leaves out, cost no body (`unchanged_notModified`).
-/
import AircraftApi.Catalogs
import AircraftApi.Transition

namespace AircraftApi

namespace Reference

open Transition
open ImportService (hexByte)

/-! ### What a client sends -/

/-- An answered catalog, as a client keeps it. -/
structure Stored where
  headers : CatalogHeaders
  body : List UInt8
  deriving DecidableEq

/-- What a client keeps of an answer. -/
def stored (crates : RouteCrates) (entries : List CatalogEntry) : Stored :=
  ⟨catalogHeaders crates entries, serialized entries⟩

/-- The bytes of a tag. -/
def tagBytes (etag : String) : List UInt8 := etag.toList.map fun c => UInt8.ofNat c.toNat

/-- `If-None-Match`, with the tag that is held, as it is or as a weak one. -/
def validators (weak : Bool) : Option Stored → List (List UInt8)
  | none => []
  | some held => [(if weak then [0x57, 0x2F] else []) ++ tagBytes held.headers.etag]

/-- What a client holds after an answer. -/
def CatalogResponse.kept (held : Option Stored) : CatalogResponse → Option Stored
  | .ok headers body => some ⟨headers, body⟩
  | .notModified headers => held.map fun old => ⟨headers, old.body⟩
  | .problem _ => held

/-! ### The clients and the database -/

variable {κ : Type*} [DecidableEq κ] (crates : RouteCrates) (collation : Collation)

/-- The database, and what every client keeps. -/
structure World (κ : Type*) where
  database : Database
  store : κ → Catalog → Option Stored

/-- No client keeps anything. -/
def World.empty (database : Database) : World κ := ⟨database, fun _ _ => none⟩

/-- The database is written, or a client fetches a catalog; the read may fail. -/
inductive Visit (κ : Type*)
  | publish (database : Database)
  | fetch (client : κ) (catalog : Catalog) (weak : Bool) (failure : Option PersistenceError)

/-- The answer to a request for a catalog, by what can be read and what is sent along. -/
def respond (read : Except PersistenceError (List CatalogEntry)) (requested : Catalog)
    (ifNoneMatch : List (List UInt8)) : CatalogResponse :=
  catalog crates (fun _ => read) ("/v1/reference/" ++ requested.slug) requested.slug ifNoneMatch

/-- The database changes, or a client asks with what it keeps. -/
def World.visit (world : World κ) : Visit κ → World κ × Option CatalogResponse
  | .publish database => ({ world with database := database }, none)
  | .fetch client catalog weak failure =>
      let held := world.store client catalog
      let read := SqlxCatalogReader.entries collation world.database failure catalog
      let response := respond crates read catalog (validators weak held)
      let store := Function.update world.store client
        (Function.update (world.store client) catalog (response.kept held))
      ({ world with store := store }, some response)

/-- The clients, each with the entries it has read. -/
structure Plain (κ : Type*) where
  database : Database
  held : κ → Catalog → Option (List CatalogEntry)

/-- The clients have seen nothing. -/
def Plain.empty (database : Database) : Plain κ := ⟨database, fun _ _ => none⟩

/-- The entries are read whole; a client is told when it has them. -/
def Plain.visit (plain : Plain κ) : Visit κ → Plain κ × Option CatalogResponse
  | .publish database => ({ plain with database := database }, none)
  | .fetch client catalog _ failure =>
      match SqlxCatalogReader.entries collation plain.database failure catalog with
      | .error error => (plain, some (respond crates (.error error) catalog []))
      | .ok entries =>
          let response :=
            if plain.held client catalog = some entries then
              CatalogResponse.notModified (catalogHeaders crates entries)
            else .ok (catalogHeaders crates entries) (serialized entries)
          let held := Function.update plain.held client
            (Function.update (plain.held client) catalog (some entries))
          ({ plain with held := held }, some response)

/-- The databases of a run. -/
def published (database : Database) (run : List (Visit κ)) : List Database :=
  database :: run.filterMap fun
    | .publish next => some next
    | .fetch _ _ _ _ => none

/-- No two bodies of a catalog share a digest. -/
def NoCollision (sha256 : List UInt8 → List UInt8) (databases : List Database) : Prop :=
  ∀ database ∈ databases, ∀ database' ∈ databases, ∀ catalog entries entries',
    SqlxCatalogReader.entries collation database none catalog = .ok entries →
    SqlxCatalogReader.entries collation database' none catalog = .ok entries' →
    sha256 (serialized entries) = sha256 (serialized entries') →
    serialized entries = serialized entries'

/-! ### The tag that is sent back -/

section

variable (sha256 : List UInt8 → List UInt8) (body : List UInt8)

/-- A character of ASCII as its byte. -/
def toByte (c : Char) : UInt8 := UInt8.ofNat c.toNat

theorem toByte_digit {c : Char} (h : c ∈ tagDigits sha256 body) :
    IsEtagc (toByte c) ∧ toByte c < 0x80 ∧ toChar (toByte c) = c := by
  have hall : (List.range 256).all (fun n => (hexByte (UInt8.ofNat n)).all fun c =>
      IsEtagc (toByte c) ∧ toByte c < 0x80 ∧ toChar (toByte c) = c) = true := by
    decide +kernel
  obtain ⟨b, -, hb⟩ := List.mem_flatMap.mp h
  have hbyte := List.all_eq_true.mp hall b.toNat (List.mem_range.mpr b.toNat_lt)
  rw [UInt8.ofNat_toNat] at hbyte
  exact of_decide_eq_true (List.all_eq_true.mp hbyte c hb)

/-- The tag of a body, as the grammar has it. -/
def issuedTag (weak : Bool) : EntityTag where
  weak := weak
  opaqueTag := (tagDigits sha256 body).map toByte
  valid := by
    intro b hb
    obtain ⟨c, hc, rfl⟩ := List.mem_map.mp hb
    exact (toByte_digit sha256 body hc).1

theorem issuedTag_text (weak : Bool) :
    (issuedTag sha256 body weak).text = tagDigits sha256 body := by
  have hmap : ∀ c ∈ tagDigits sha256 body, (toChar ∘ toByte) c = c :=
    fun c hc => (toByte_digit sha256 body hc).2.2
  rw [EntityTag.text, issuedTag, List.map_map, List.map_congr_left hmap, List.map_id']

theorem blank_nil : ∀ b ∈ ([] ++ [] : List UInt8), b = 0x20 ∨ b = 0x09 := by
  simp

/-- The line of that one tag. -/
def issuedLine (weak : Bool) : FieldLine where
  elements := [⟨[], some (issuedTag sha256 body weak), [], blank_nil⟩]
  nonempty := by simp

theorem issuedLine_bytes (weak : Bool) : (issuedLine sha256 body weak).bytes =
    (if weak then [0x57, 0x2F] else []) ++ tagBytes (entityTag sha256 body) := by
  have htag : tagBytes (entityTag sha256 body) =
      0x22 :: ((tagDigits sha256 body).map toByte ++ [0x22]) := by
    rw [tagBytes, entityTag, String.toList_ofList, List.cons_append, List.map_cons,
      List.map_append]
    rfl
  rw [htag]
  simp [issuedLine, FieldLine.bytes, List.intercalate, ListElement.bytes, EntityTag.bytes,
    issuedTag]

theorem issuedLine_ascii (weak : Bool) : (issuedLine sha256 body weak).isAscii = true := by
  rw [FieldLine.isAscii, issuedLine_bytes, List.all_eq_true]
  intro b hb
  rcases List.mem_append.mp hb with hb | hb
  · cases weak
    · cases hb
    · rcases List.mem_pair.mp hb with rfl | rfl <;> decide
  · obtain ⟨c, hc, rfl⟩ := List.mem_map.mp hb
    rw [entityTag, String.toList_ofList] at hc
    rcases List.mem_append.mp hc with hc | hc
    · rcases List.mem_cons.mp hc with rfl | hc
      · decide
      · exact decide_eq_true (toByte_digit sha256 body hc).2.1
    · rw [List.mem_singleton.mp hc]
      decide

/-- A tag that is sent back is matched by the bodies of its digest. -/
theorem matches_issued {toStr : List UInt8 → Option String} (hread : ReadsVisibleAscii toStr)
    (weak : Bool) (sha256 : List UInt8 → List UInt8) (body body' : List UInt8) :
    ifNoneMatchMatches toStr
        [(if weak then [0x57, 0x2F] else []) ++ tagBytes (entityTag sha256 body)]
        (entityTag sha256 body') = true ↔ sha256 body = sha256 body' := by
  set element : ListElement := ⟨[], some (issuedTag sha256 body weak), [], by simp⟩ with helement
  -- what is sent is one line of one element
  have hlisted : listed [issuedLine sha256 body weak] = [element] := by
    rw [listed, List.filter_cons_of_pos (issuedLine_ascii sha256 body weak)]
    rfl
  -- no comma in the tag, so nothing splits it
  have hcomma : ∀ tag ∈ element.tag, ',' ∉ tag.text := by
    intro tag htag
    rw [← Option.some.inj htag, issuedTag_text]
    exact comma_tagDigits sha256 body
  have hone : (element.chars.splitOn ',').length = 1 := by
    rw [count_comma, ListElement.pieces, helement, Option.elim_some,
      List.count_eq_zero.mpr (hcomma _ rfl)]
  have hnames := elementNames_iff (ascii_listed (hlisted ▸ List.mem_singleton_self element))
    (fun tag htag hin => hcomma tag htag (hin.subset (by decide)))
    (comma_tagDigits sha256 body')
  have hpieces := pieces_lines hread [issuedLine sha256 body weak]
  rw [hlisted, List.map_singleton, issuedLine_bytes] at hpieces
  have hshort : (element.chars.splitOn ',').length ≤ maxValidators := hone ▸ by decide
  simp only [ifNoneMatchMatches]
  rw [hpieces, List.flatMap_singleton, List.take_of_length_le hshort, List.any_map,
    List.any_eq_true]
  refine hnames.trans ⟨?_, fun h => ⟨_, rfl, ?_⟩⟩
  · rintro ⟨tag, htag, htext⟩
    rw [← Option.some.inj htag, issuedTag_text] at htext
    exact AircraftApi.Catalog.flatMap_hexByte_injective htext
  · rw [issuedTag_text, tagDigits, tagDigits, h]

end

/-! ### One visit -/

section

variable {crates collation} {requested : Catalog} {entries entries' : List CatalogEntry}

/-- A client that holds nothing is sent the entries. -/
theorem respond_nil : respond crates (.ok entries) requested [] =
    .ok (catalogHeaders crates entries) (serialized entries) := by
  have htry : Catalog.tryFrom requested.slug = some requested := tryFrom_eq_some.mpr rfl
  simp [respond, catalog, htry, ifNoneMatchMatches]

/-- A client that holds the tag of other entries is sent the entries, unless both bodies
have one digest. -/
theorem respond_held (hread : ReadsVisibleAscii crates.toStr) {held : Stored} (weak : Bool)
    (hheld : held.headers = catalogHeaders crates entries') :
    respond crates (.ok entries) requested (validators weak (some held)) =
      if crates.sha256 (serialized entries') = crates.sha256 (serialized entries) then
        .notModified (catalogHeaders crates entries)
      else .ok (catalogHeaders crates entries) (serialized entries) := by
  have htry : Catalog.tryFrom requested.slug = some requested := tryFrom_eq_some.mpr rfl
  have hmatch := matches_issued hread weak crates.sha256 (serialized entries')
    (serialized entries)
  simp only [respond, catalog, htry, validators, hheld]
  exact if_congr hmatch rfl rfl

/-- A failed read is answered alike whatever the client holds. -/
theorem respond_error (crates : RouteCrates) (requested : Catalog) (error : PersistenceError)
    (ifNoneMatch : List (List UInt8)) :
    respond crates (.error error) requested ifNoneMatch =
      respond crates (.error error) requested [] ∧
    ∀ held, (respond crates (.error error) requested []).kept held = held := by
  have htry : Catalog.tryFrom requested.slug = some requested := tryFrom_eq_some.mpr rfl
  cases error <;> simp [respond, catalog, htry, CatalogResponse.kept]

end

/-! ### The two worlds -/

/-- The clients hold what the plain ones have read, which some database of the run has. -/
structure Agrees (databases : List Database) (world : World κ) (plain : Plain κ) : Prop where
  database : world.database = plain.database
  known : plain.database ∈ databases
  store : ∀ client catalog,
    world.store client catalog = (plain.held client catalog).map (stored crates)
  read : ∀ client catalog, ∀ entries ∈ plain.held client catalog, ∃ database ∈ databases,
    SqlxCatalogReader.entries collation database none catalog = .ok entries

section

variable {crates collation} {databases : List Database} {world : World κ} {plain : Plain κ}
  {requested : Catalog} {entries : List CatalogEntry}

/-- The tag of what is held is matched by the entries that are held. -/
theorem respond_agrees (hread : ReadsVisibleAscii crates.toStr) (requested : Catalog)
    (entries : List CatalogEntry) (held : Option (List CatalogEntry)) (weak : Bool)
    (hcollision : ∀ old ∈ held,
      crates.sha256 (serialized old) = crates.sha256 (serialized entries) → old = entries) :
    respond crates (.ok entries) requested (validators weak (held.map (stored crates))) =
        (if held = some entries then CatalogResponse.notModified (catalogHeaders crates entries)
          else .ok (catalogHeaders crates entries) (serialized entries)) ∧
      (respond crates (.ok entries) requested (validators weak (held.map (stored crates)))).kept
        (held.map (stored crates)) = some (stored crates entries) := by
  cases held with
  | none =>
      rw [Option.map_none, validators, respond_nil]
      exact ⟨(if_neg (by simp)).symm, rfl⟩
  | some old =>
      have hsame : crates.sha256 (serialized old) = crates.sha256 (serialized entries) ↔
          some old = some entries :=
        ⟨fun h => congrArg some (hcollision old rfl h), fun h => by rw [Option.some.inj h]⟩
      rw [Option.map_some, respond_held hread weak
        (show (stored crates old).headers = catalogHeaders crates old from rfl)]
      refine ⟨if_congr hsame rfl rfl, ?_⟩
      by_cases h : crates.sha256 (serialized old) = crates.sha256 (serialized entries)
      · rw [if_pos h, hcollision old rfl h]
        rfl
      · rw [if_neg h]
        rfl

/-- A read that is answered is a read of the database. -/
theorem entries_none {database : Database} {failure : Option PersistenceError}
    (h : SqlxCatalogReader.entries collation database failure requested = .ok entries) :
    SqlxCatalogReader.entries collation database none requested = .ok entries := by
  cases failure with
  | none => exact h
  | some error => cases h

theorem agrees_visit (hread : ReadsVisibleAscii crates.toStr)
    (hcollision : NoCollision collation crates.sha256 databases) {visit : Visit κ}
    (hpublished : ∀ database, visit = .publish database → database ∈ databases)
    (h : Agrees crates collation databases world plain) :
    Agrees crates collation databases (world.visit crates collation visit).1
        (plain.visit crates collation visit).1 ∧
      (world.visit crates collation visit).2 = (plain.visit crates collation visit).2 := by
  rcases visit with database | ⟨client, catalog, weak, failure⟩
  · exact ⟨⟨rfl, hpublished database rfl, h.store, h.read⟩, rfl⟩
  · simp only [World.visit, Plain.visit, h.database, h.store client catalog]
    cases hentries : SqlxCatalogReader.entries collation plain.database failure catalog with
    | error error =>
        -- an error is answered as it is, and nothing is kept
        obtain ⟨hsame, hkept⟩ := respond_error crates catalog error
          (validators weak ((plain.held client catalog).map (stored crates)))
        refine ⟨⟨rfl, h.known, ?_, h.read⟩, congrArg some hsame⟩
        intro client' catalog'
        show Function.update world.store client _ client' catalog' = _
        rw [hsame, hkept, ← h.store client catalog, Function.update_eq_self,
          Function.update_eq_self]
        exact h.store client' catalog'
    | ok entries =>
        -- equal digests are of equal entries, as all entries were in some database
        obtain ⟨hanswer, hkept⟩ := respond_agrees hread catalog entries
          (plain.held client catalog) weak (by
            intro old hold hdigest
            obtain ⟨database, hknown, hold⟩ := h.read client catalog old hold
            exact rendered_injective (hcollision database hknown plain.database h.known catalog
              old entries hold (entries_none hentries) hdigest))
        refine ⟨⟨rfl, h.known, ?_, ?_⟩, congrArg some hanswer⟩
        · intro client' catalog'
          show Function.update world.store client _ client' catalog' =
            (Function.update plain.held client _ client' catalog').map _
          rw [hkept]
          by_cases hclient : client' = client
          · subst hclient
            rw [Function.update_self, Function.update_self]
            by_cases hcatalog : catalog' = catalog
            · subst hcatalog
              rw [Function.update_self, Function.update_self]
              rfl
            · rw [Function.update_of_ne hcatalog, Function.update_of_ne hcatalog]
              exact h.store client' catalog'
          · rw [Function.update_of_ne hclient, Function.update_of_ne hclient]
            exact h.store client' catalog'
        · intro client' catalog' old hold
          change old ∈ Function.update plain.held client _ client' catalog' at hold
          by_cases hclient : client' = client
          · subst hclient
            rw [Function.update_self] at hold
            by_cases hcatalog : catalog' = catalog
            · subst hcatalog
              rw [Function.update_self] at hold
              rw [← Option.some.inj hold]
              exact ⟨plain.database, h.known, entries_none hentries⟩
            · rw [Function.update_of_ne hcatalog] at hold
              exact h.read client' catalog' old hold
          · rw [Function.update_of_ne hclient] at hold
            exact h.read client' catalog' old hold

end

/-- **Revalidation**: over every run of writes and of conditional reads by any clients, in
which no two bodies of a catalog share a digest, the clients see the answers, and hold the
entries, of clients that read every catalog whole. -/
theorem revalidation_exact {crates : RouteCrates} (hread : ReadsVisibleAscii crates.toStr)
    (collation : Collation) (database : Database) (run : List (Visit κ))
    (hcollision : NoCollision collation crates.sha256 (published database run)) :
    transcript (World.visit crates collation) (World.empty database) run =
        transcript (Plain.visit crates collation) (Plain.empty database) run ∧
      ∀ client catalog,
        (after (World.visit crates collation) (World.empty database) run).store client catalog =
          ((after (Plain.visit crates collation) (Plain.empty database) run).held client
            catalog).map (stored crates) := by
  have hstart : Agrees crates collation (published database run) (World.empty (κ := κ) database)
      (Plain.empty database) :=
    ⟨rfl, List.mem_cons_self, fun _ _ => rfl, fun _ _ _ h => by cases h⟩
  have hstep : ∀ {world : World κ} {plain : Plain κ} {visit}, visit ∈ run →
      Agrees crates collation (published database run) world plain →
      Agrees crates collation (published database run) (world.visit crates collation visit).1
          (plain.visit crates collation visit).1 ∧
        (world.visit crates collation visit).2 = (plain.visit crates collation visit).2 := by
    intro world plain visit hvisit hagrees
    refine agrees_visit hread hcollision ?_ hagrees
    rintro next rfl
    exact List.mem_cons_of_mem _ (List.mem_filterMap.mpr ⟨_, hvisit, rfl⟩)
  obtain ⟨hanswers, hafter⟩ := transcript_simulates hstep hstart
  exact ⟨hanswers, hafter.store⟩

/-! ### One client, one currency -/

/-- The order of code points. -/
def codePoints : Collation where
  le := fun a b => a ≤ b
  total := fun a b => by simpa using le_total a b
  trans := fun a b c hab hbc => by
    simpa using le_trans (of_decide_eq_true hab) (of_decide_eq_true hbc)
  antisymm := fun a b hab hba => le_antisymm (of_decide_eq_true hab) (of_decide_eq_true hba)

def usd : LookupRow := ⟨"USD", "US Dollar", none, 0, true⟩

def noRows : Database := fun _ => ⟨[], by simp⟩

def dollars : Database := fun table =>
  if table = "currencies" then ⟨[usd], by simp⟩ else ⟨[], by simp⟩

def usdEntry : CatalogEntry := ⟨"USD", "US Dollar", none⟩

/-- SHA-256 on the bodies of no entries and of this one. -/
def usdSha256 (body : List UInt8) : List UInt8 :=
  if body = serialized [usdEntry] then
    [206, 14, 248, 29, 136, 157, 15, 40, 133, 254, 100, 50, 94, 188, 38, 163, 169, 199, 167, 183,
      121, 126, 29, 116, 249, 34, 111, 162, 50, 207, 8, 216]
  else emptySha256 body

def usdCrates : RouteCrates := ⟨usdSha256, readVisible, fun _ => none⟩

theorem entries_noRows (catalog : Catalog) :
    SqlxCatalogReader.entries codePoints noRows none catalog = .ok [] := by
  simp [SqlxCatalogReader.entries, Statement.select, noRows, maxCatalogRows]

theorem entries_dollars (catalog : Catalog) :
    SqlxCatalogReader.entries codePoints dollars none catalog =
      .ok (if catalog = .currencies then [usdEntry] else []) := by
  cases catalog <;> simp [SqlxCatalogReader.entries, Statement.select, Statement.selects,
    Statement.project, Statement.standard, statement, dollars, maxCatalogRows, usd, usdEntry]

theorem usdSha256_ne : usdSha256 (serialized []) ≠ usdSha256 (serialized [usdEntry]) := by
  decide +kernel

theorem noCollision_usd : NoCollision codePoints usdSha256 [noRows, dollars] := by
  have hread : ∀ database ∈ [noRows, dollars], ∀ catalog entries,
      SqlxCatalogReader.entries codePoints database none catalog = .ok entries →
      entries = [] ∨ entries = [usdEntry] := by
    intro database hdatabase catalog entries hentries
    rcases List.mem_pair.mp hdatabase with rfl | rfl
    · rw [entries_noRows] at hentries
      exact .inl (Except.ok.inj hentries).symm
    · rw [entries_dollars] at hentries
      rw [← Except.ok.inj hentries]
      split_ifs
      · exact .inr rfl
      · exact .inl rfl
  intro database hdatabase database' hdatabase' catalog entries entries' h h' hdigest
  rcases hread database hdatabase catalog entries h with rfl | rfl
  · rcases hread database' hdatabase' catalog entries' h' with rfl | rfl
    · rfl
    · exact absurd hdigest usdSha256_ne
  · rcases hread database' hdatabase' catalog entries' h' with rfl | rfl
    · exact absurd hdigest.symm usdSha256_ne
    · rfl

/-- Read, read again, written, read again. -/
def usdRun : List (Visit Unit) :=
  [.fetch () .currencies false none, .fetch () .currencies true none, .publish dollars,
    .fetch () .currencies true none]

theorem revalidation_exact_usd :
    (transcript (World.visit usdCrates codePoints) (World.empty noRows) usdRun).map Prod.snd =
      [some (.ok (catalogHeaders usdCrates []) (serialized [])),
        some (.notModified (catalogHeaders usdCrates [])), none,
        some (.ok (catalogHeaders usdCrates [usdEntry]) (serialized [usdEntry]))] := by
  rw [(revalidation_exact (show ReadsVisibleAscii usdCrates.toStr from fun _ => rfl) codePoints
    noRows usdRun noCollision_usd).1]
  simp [usdRun, transcript, Plain.visit, Plain.empty, entries_noRows, entries_dollars]

/-! ### Rows that did not change -/

section

variable {crates collation} {world : World κ} {requested : Catalog} {entries : List CatalogEntry}

/-- What is held was issued. -/
def Issued (crates : RouteCrates) (world : World κ) : Prop :=
  ∀ client catalog, ∀ held ∈ world.store client catalog,
    ∃ entries, held.headers = catalogHeaders crates entries

/-- An answer with entries leaves their validator behind, whether it carries them or not. -/
theorem kept_headers (hread : ReadsVisibleAscii crates.toStr) (requested : Catalog)
    (entries : List CatalogEntry) {held : Option Stored} (weak : Bool)
    (hheld : ∀ old ∈ held, ∃ entries', old.headers = catalogHeaders crates entries') :
    ∃ kept, (respond crates (.ok entries) requested (validators weak held)).kept held = some kept ∧
      kept.headers = catalogHeaders crates entries := by
  cases held with
  | none =>
      rw [validators, respond_nil]
      exact ⟨_, rfl, rfl⟩
  | some old =>
      obtain ⟨entries', hheaders⟩ := hheld old rfl
      rw [respond_held hread weak hheaders]
      split_ifs
      · exact ⟨_, rfl, rfl⟩
      · exact ⟨_, rfl, rfl⟩

/-- A fetch changes what its client holds of its catalog. -/
theorem store_fetch (client client' : κ) (catalog catalog' : Catalog) (weak : Bool)
    (failure : Option PersistenceError) :
    (world.visit crates collation (.fetch client catalog weak failure)).1.store client' catalog' =
      if client' = client ∧ catalog' = catalog then
        (respond crates (SqlxCatalogReader.entries collation world.database failure catalog)
          catalog (validators weak (world.store client catalog))).kept (world.store client catalog)
      else world.store client' catalog' := by
  show Function.update world.store client _ client' catalog' = _
  by_cases hclient : client' = client
  · subst hclient
    rw [Function.update_self]
    by_cases hcatalog : catalog' = catalog
    · subst hcatalog
      rw [Function.update_self, if_pos ⟨rfl, rfl⟩]
    · rw [Function.update_of_ne hcatalog, if_neg fun h => hcatalog h.2]
  · rw [Function.update_of_ne hclient, if_neg fun h => hclient h.1]

theorem issued_visit (hread : ReadsVisibleAscii crates.toStr) (visit : Visit κ)
    (h : Issued crates world) : Issued crates (world.visit crates collation visit).1 := by
  rcases visit with database | ⟨client, catalog, weak, failure⟩
  · exact h
  · intro client' catalog' held hheld
    rw [store_fetch] at hheld
    split_ifs at hheld with hsame
    · cases hentries : SqlxCatalogReader.entries collation world.database failure catalog with
      | error error =>
          rw [hentries, (respond_error crates catalog error _).1,
            (respond_error crates catalog error []).2] at hheld
          exact h client catalog held hheld
      | ok entries =>
          rw [hentries] at hheld
          obtain ⟨kept, hkept, hheaders⟩ :=
            kept_headers hread catalog entries weak (h client catalog)
          rw [hkept] at hheld
          exact ⟨entries, Option.some.inj hheld ▸ hheaders⟩
    · exact h client' catalog' held hheld

end

/-- **Nothing is sent twice**: a client that was answered with the entries of a catalog is
answered `304` when it asks again, whatever was written and fetched in between, if the
statement of the catalog selects the rows it selected then. -/
theorem unchanged_notModified {crates : RouteCrates} (hread : ReadsVisibleAscii crates.toStr)
    (collation : Collation) (database : Database) (earlier between : List (Visit κ))
    (client : κ) (catalog : Catalog) (weak weak' : Bool) {entries : List CatalogEntry}
    {world world' : World κ}
    (hworld : world = after (World.visit crates collation) (World.empty database) earlier)
    (hentries : SqlxCatalogReader.entries collation world.database none catalog = .ok entries)
    (hbetween : ∀ weak failure, Visit.fetch client catalog weak failure ∉ between)
    (hworld' : world' = after (World.visit crates collation)
      (world.visit crates collation (.fetch client catalog weak none)).1 between)
    (hrows : SameRows catalog world.database world'.database) :
    (world'.visit crates collation (.fetch client catalog weak' none)).2 =
      some (.notModified (catalogHeaders crates entries)) := by
  -- what the client keeps was issued to it
  have hissued : Issued crates world := by
    rw [hworld]
    exact after_invariant (fun _ visit => issued_visit hread visit) (fun _ _ _ h => by cases h)
      earlier
  obtain ⟨held, hheld, hheaders⟩ := kept_headers hread catalog entries weak
    (hissued client catalog)
  have hfirst : (world.visit crates collation (.fetch client catalog weak none)).1.store
      client catalog = some held := by
    rw [store_fetch, if_pos ⟨rfl, rfl⟩, hentries, hheld]
  have hkept : world'.store client catalog = some held := by
    rw [hworld']
    clear hworld' hrows
    generalize (world.visit crates collation (.fetch client catalog weak none)).1 = start at hfirst
    -- nobody else writes what this client keeps of the catalogue
    induction between generalizing start with
    | nil => exact hfirst
    | cons visit between ih =>
        refine ih (fun weak failure h => hbetween weak failure (List.mem_cons_of_mem _ h)) _ ?_
        rcases visit with next | ⟨client', catalog', weak, failure⟩
        · exact hfirst
        · rw [store_fetch, if_neg, hfirst]
          rintro ⟨rfl, rfl⟩
          exact hbetween weak failure List.mem_cons_self
  have hanswer : (world'.visit crates collation (.fetch client catalog weak' none)).2 =
      some (respond crates (.ok entries) catalog (validators weak' (some held))) := by
    rw [← hentries, entries_congr hrows, ← hkept]
    rfl
  rw [hanswer, respond_held hread weak' hheaders, if_pos rfl]

/-- The euro is written before the dollar and made inactive. -/
def inactiveEuro : Database := fun table =>
  if table = "currencies" then ⟨[⟨"EUR", "Euro", none, 0, false⟩, usd], by decide⟩
  else ⟨[], by simp⟩

theorem unchanged_notModified_usd :
    (World.visit usdCrates codePoints
      (after (World.visit usdCrates codePoints)
        (World.visit usdCrates codePoints (World.empty dollars)
          (.fetch () .currencies false none)).1 [.publish inactiveEuro])
      (.fetch () .currencies true none)).2 =
      some (.notModified (catalogHeaders usdCrates [usdEntry])) := by
  refine unchanged_notModified (fun _ => rfl) codePoints dollars [] [.publish inactiveEuro] ()
    .currencies false true rfl (entries_dollars .currencies) (by simp) rfl ?_
  exact List.Perm.of_eq (by decide)

end Reference

end AircraftApi
