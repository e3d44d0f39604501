/-
AircraftApi/Artifact.lean

`InputArtifact::capture`: an input copied into a temporary file, chunk by chunk, under a
limit.

A reader is the list of its answers to `read`, of any lengths; an empty answer is its end.
The temporary file may fail at any call (`TempFile`).  What is captured depends on the
bytes alone: they are the file, and the descriptor counts and hashes them, however the
reads split them (`capture_exact`).
-/
import AircraftApi.PlanePhd
import AircraftApi.Problem

namespace AircraftApi

open Problem (isControl)

namespace Artifact

open PlanePhd

/-- Why nothing was captured. -/
inductive ArtifactError
  | opening (locator source : String)
  | read (source : String)
  | temporaryFile (source : String)
  | inputTooLarge (maxBytes : UInt64)
  deriving DecidableEq

/-- What the error says. -/
def ArtifactError.message : ArtifactError → String
  | opening locator source => s!"could not open input {locator}: {source}"
  | read source => s!"could not read input: {source}"
  | temporaryFile source =>
      s!"could not create or write the secure temporary artifact: {source}"
  | inputTooLarge maxBytes => s!"input exceeds configured limit of {maxBytes.toNat} bytes"

/-- `sanitize_locator`. -/
def sanitizeLocator (locator : String) : String :=
  String.ofList ((locator.toList.filter fun c => !isControl c).take 255)

/-- The answers of a reader to `read`, in order. -/
abbrev Reads := List (Except String (List UInt8))

/-- The temporary file: its creation, a write at the end of what it holds, the flush. -/
structure TempFile where
  create : Except String Unit
  writeAll : List UInt8 → List UInt8 → Except String Unit
  flush : List UInt8 → Except String Unit

/-- A temporary file on a disk that does not fail. -/
def TempFile.sound : TempFile where
  create := .ok ()
  writeAll _ _ := .ok ()
  flush _ := .ok ()

/-- What the loop of `capture` carries. -/
structure Copy where
  hashed : List UInt8
  byteLength : ℕ
  written : List UInt8

/-- `u64::checked_add`. -/
def checkedAdd (a b : ℕ) : Option ℕ := if a + b < UInt64.size then some (a + b) else none

variable (file : TempFile) (maxBytes : UInt64)

/-- The `loop` of `capture`. -/
def captureLoop : Reads → Copy → Except ArtifactError Copy
  | [], copy => .ok copy
  | .error source :: _, _ => .error (.read source)
  | .ok [] :: _, copy => .ok copy
  | .ok (byte :: bytes) :: rest, copy =>
      match checkedAdd copy.byteLength (byte :: bytes).length with
      | none => .error (.inputTooLarge maxBytes)
      | some byteLength =>
          if maxBytes.toNat < byteLength then .error (.inputTooLarge maxBytes)
          else
            match file.writeAll copy.written (byte :: bytes) with
            | .error source => .error (.temporaryFile source)
            | .ok () =>
                captureLoop rest
                  ⟨copy.hashed ++ byte :: bytes, byteLength, copy.written ++ byte :: bytes⟩

/-- What was captured: its descriptor, and the bytes of the temporary file. -/
structure InputArtifact where
  descriptor : ArtifactDescriptor
  contents : List UInt8
  deriving DecidableEq

/-- `InputArtifact::capture`. -/
def capture (sha256 : List UInt8 → List UInt8) (reads : Reads) (displayLocator : String) :
    Except ArtifactError InputArtifact :=
  match file.create with
  | .error source => .error (.temporaryFile source)
  | .ok () =>
      match captureLoop file maxBytes reads ⟨[], 0, []⟩ with
      | .error error => .error error
      | .ok copy =>
          match file.flush copy.written with
          | .error source => .error (.temporaryFile source)
          | .ok () => .ok
              { descriptor :=
                  { contentSha256 := hexDigestOf (sha256 copy.hashed)
                    byteLength := copy.byteLength
                    displayLocator := sanitizeLocator displayLocator }
                contents := copy.written }

/-- `InputArtifact::capture_path`, for the last part of a path and what opening it gives. -/
def capturePath (sha256 : List UInt8 → List UInt8) (fileName : Option String)
    (opened : Except String Reads) : Except ArtifactError InputArtifact :=
  let displayLocator := (fileName.map sanitizeLocator).getD "<file>"
  match opened with
  | .error source => .error (.opening displayLocator source)
  | .ok reads => capture file maxBytes sha256 reads displayLocator

/-! ### What a reader delivers -/

/-- The bytes before the end of the input, and the error that cut them off. -/
def delivered : Reads → List UInt8 × Option String
  | [] => ([], none)
  | .error source :: _ => ([], some source)
  | .ok [] :: _ => ([], none)
  | .ok (byte :: bytes) :: rest => (byte :: bytes ++ (delivered rest).1, (delivered rest).2)

/-- The artifact of some bytes. -/
def artifactOf (sha256 : List UInt8 → List UInt8) (displayLocator : String)
    (bytes : List UInt8) : InputArtifact where
  descriptor :=
    { contentSha256 := hexDigestOf (sha256 bytes)
      byteLength := bytes.length
      displayLocator := sanitizeLocator displayLocator }
  contents := bytes

/-- The copy of some bytes. -/
def Copy.of (bytes : List UInt8) : Copy := ⟨bytes, bytes.length, bytes⟩

variable {file maxBytes} {sha256 : List UInt8 → List UInt8} {reads : Reads}
  {displayLocator : String}

theorem delivered_chunk (byte : UInt8) (bytes before : List UInt8) (rest : Reads) :
    before ++ (delivered (.ok (byte :: bytes) :: rest)).1
      = (before ++ byte :: bytes) ++ (delivered rest).1 :=
  (List.append_assoc _ _ _).symm

/-- A count that overflows is beyond every limit. -/
theorem checkedAdd_over (maxBytes : UInt64) (a b : ℕ) :
    (∃ n, checkedAdd a b = some n ∧ n = a + b) ∨
      checkedAdd a b = none ∧ maxBytes.toNat < a + b := by
  rw [checkedAdd]
  split_ifs with h
  · exact .inl ⟨a + b, rfl, rfl⟩
  · refine .inr ⟨rfl, ?_⟩
    have hmax := maxBytes.toNat_lt_size
    omega

theorem captureLoop_ok (before : List UInt8) {copy : Copy}
    (h : captureLoop file maxBytes reads (.of before) = .ok copy)
    (hbefore : before.length ≤ maxBytes.toNat) :
    (delivered reads).2 = none ∧ copy = .of (before ++ (delivered reads).1) ∧
      (before ++ (delivered reads).1).length ≤ maxBytes.toNat := by
  induction reads generalizing before with
  | nil =>
      cases h
      rw [delivered, List.append_nil]
      exact ⟨rfl, rfl, hbefore⟩
  | cons answer rest ih =>
      -- the loop ends with an error or an empty read; a chunk goes on
      rcases answer with source | - | ⟨byte, bytes⟩
      · cases h
      · cases h
        rw [delivered, List.append_nil]
        exact ⟨rfl, rfl, hbefore⟩
      · have hlength : before.length + (byte :: bytes).length
            = (before ++ byte :: bytes).length := List.length_append.symm
        rw [captureLoop] at h
        obtain ⟨n, hadd, hn⟩ | ⟨hadd, -⟩ :=
          checkedAdd_over maxBytes before.length (byte :: bytes).length
        · simp only [Copy.of, hadd] at h
          -- the size is checked before the chunk is written
          split_ifs at h with hsize
          cases hwrite : file.writeAll before (byte :: bytes) with
          | error source =>
              rw [hwrite] at h
              cases h
          | ok =>
              rw [hwrite, hn, hlength] at h
              rw [delivered_chunk]
              exact ih _ h (hlength ▸ hn ▸ not_lt.mp hsize)
        · -- the sum leaves the 64 bits, which is too large as well
          simp only [Copy.of, hadd] at h
          cases h

/-- The loop on a sound disk: too much is refused before an error that comes after it. -/
theorem captureLoop_sound {before : List UInt8} (hbefore : before.length ≤ maxBytes.toNat) :
    captureLoop .sound maxBytes reads (.of before)
      = if maxBytes.toNat < (before ++ (delivered reads).1).length then
          .error (.inputTooLarge maxBytes)
        else
          match (delivered reads).2 with
          | some source => .error (.read source)
          | none => .ok (.of (before ++ (delivered reads).1)) := by
  induction reads generalizing before with
  | nil =>
      rw [delivered, List.append_nil, if_neg (not_lt.mpr hbefore)]
      rfl
  | cons answer rest ih =>
      rcases answer with source | - | ⟨byte, bytes⟩
      · rw [delivered, List.append_nil, if_neg (not_lt.mpr hbefore)]
        rfl
      · rw [delivered, List.append_nil, if_neg (not_lt.mpr hbefore)]
        rfl
      · have hlength : before.length + (byte :: bytes).length
            = (before ++ byte :: bytes).length := List.length_append.symm
        -- what is too large with this chunk is too large with the rest
        have hover : ∀ {n}, maxBytes.toNat < n → n = before.length + (byte :: bytes).length →
            maxBytes.toNat < (before ++ (delivered (.ok (byte :: bytes) :: rest)).1).length := by
          rintro n hn rfl
          rw [delivered_chunk, List.length_append]
          omega
        rw [captureLoop]
        obtain ⟨n, hadd, hn⟩ | ⟨hadd, hsum⟩ :=
          checkedAdd_over maxBytes before.length (byte :: bytes).length
        · simp only [Copy.of, hadd]
          -- too large now; only with the rest; not at all
          split_ifs with hsize htotal htotal
          · rfl
          · exact absurd (hover hsize hn) htotal
          · show captureLoop .sound maxBytes rest _ = _
            rw [hn, hlength]
            refine (ih (hlength ▸ hn ▸ not_lt.mp hsize)).trans ?_
            rw [← delivered_chunk, if_pos htotal]
          · show captureLoop .sound maxBytes rest _ = _
            rw [hn, hlength]
            refine (ih (hlength ▸ hn ▸ not_lt.mp hsize)).trans ?_
            rw [← delivered_chunk, if_neg htotal]
            rfl
        · simp only [Copy.of, hadd]
          rw [if_pos (hover hsum rfl)]

theorem capture_ok {artifact : InputArtifact}
    (h : capture file maxBytes sha256 reads displayLocator = .ok artifact) :
    artifact = artifactOf sha256 displayLocator (delivered reads).1 ∧
      (delivered reads).2 = none ∧ (delivered reads).1.length ≤ maxBytes.toNat := by
  rw [capture] at h
  cases hcreate : file.create with
  | error source =>
      rw [hcreate] at h
      cases h
  | ok =>
      rw [hcreate] at h
      rcases hloop : captureLoop file maxBytes reads ⟨[], 0, []⟩ with error | copy
      · rw [hloop] at h
        cases h
      · rw [hloop] at h
        obtain ⟨hend, rfl, hlength⟩ := captureLoop_ok [] hloop (Nat.zero_le _)
        simp only [List.nil_append] at h hlength
        cases hflush : file.flush (Copy.of (delivered reads).1).written with
        | error source =>
            rw [hflush] at h
            cases h
        | ok =>
            rw [hflush] at h
            exact ⟨(Except.ok.inj h).symm, hend, hlength⟩

theorem capture_sound : capture .sound maxBytes sha256 reads displayLocator
    = if maxBytes.toNat < (delivered reads).1.length then .error (.inputTooLarge maxBytes)
      else
        match (delivered reads).2 with
        | some source => .error (.read source)
        | none => .ok (artifactOf sha256 displayLocator (delivered reads).1) := by
  show (match captureLoop .sound maxBytes reads (.of []) with
    | .error error => _
    | .ok copy => _) = _
  rw [captureLoop_sound (Nat.zero_le _), List.nil_append]
  split_ifs
  · rfl
  · cases (delivered reads).2 <;> rfl

/-- **Capture is exact**: what is captured is the bytes the reader delivers before its end,
counted and hashed, and they fit the limit; and where the disk is sound every input that
fits is captured, one that does not is refused, and only a read error is reported else. -/
theorem capture_exact (file : TempFile) (maxBytes : UInt64)
    (sha256 : List UInt8 → List UInt8) (reads : Reads) (displayLocator : String) :
    (∀ artifact, capture file maxBytes sha256 reads displayLocator = .ok artifact →
      artifact = artifactOf sha256 displayLocator (delivered reads).1 ∧
        (delivered reads).2 = none ∧ (delivered reads).1.length ≤ maxBytes.toNat) ∧
    capture .sound maxBytes sha256 reads displayLocator
      = if maxBytes.toNat < (delivered reads).1.length then .error (.inputTooLarge maxBytes)
        else
          match (delivered reads).2 with
          | some source => .error (.read source)
          | none => .ok (artifactOf sha256 displayLocator (delivered reads).1) :=
  ⟨fun _ => capture_ok, capture_sound⟩

end Artifact

end AircraftApi
