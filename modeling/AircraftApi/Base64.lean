/-
AircraftApi/Base64.lean

Base64 with the URL alphabet and no padding: three bytes to four symbols, one or
two bytes at the end to two or three.

Decoding undoes encoding (`decode_encode`), and the length of the text is that of
the bytes, a third longer and rounded up (`length_encode`).
-/
import Mathlib.Data.List.Basic
import Mathlib.Data.UInt

namespace Base64

/-- The symbols, in the order of their values. -/
def alphabet : List Char :=
  "ABCDEFGHIJKLMNOPQRSTUVWXYZabcdefghijklmnopqrstuvwxyz0123456789-_".toList

/-- The symbol of six bits. -/
def symbol (n : ℕ) : Char := alphabet.getD n 'A'

/-- The six bits of a symbol. -/
def value (c : Char) : Option ℕ := alphabet.idxOf? c

/-- Three bytes are four symbols; the bits of one or two at the end are filled up with
zeros. -/
def encode : List UInt8 → List Char
  | a :: b :: c :: rest =>
      symbol (a.toNat / 4) :: symbol (a.toNat % 4 * 16 + b.toNat / 16) ::
        symbol (b.toNat % 16 * 4 + c.toNat / 64) :: symbol (c.toNat % 64) :: encode rest
  | [a, b] =>
      [symbol (a.toNat / 4), symbol (a.toNat % 4 * 16 + b.toNat / 16), symbol (b.toNat % 16 * 4)]
  | [a] => [symbol (a.toNat / 4), symbol (a.toNat % 4 * 16)]
  | [] => []

/-- Bits past the last byte must be zero. -/
def decode : List Char → Option (List UInt8)
  | w :: x :: y :: z :: rest => do
      let w ← value w
      let x ← value x
      let y ← value y
      let z ← value z
      let rest ← decode rest
      return .ofNat (w * 4 + x / 16) :: .ofNat (x % 16 * 16 + y / 4) ::
        .ofNat (y % 4 * 64 + z) :: rest
  | [w, x, y] => do
      let w ← value w
      let x ← value x
      let y ← value y
      if y % 4 = 0 then return [.ofNat (w * 4 + x / 16), .ofNat (x % 16 * 16 + y / 4)] else none
  | [w, x] => do
      let w ← value w
      let x ← value x
      if x % 16 = 0 then return [.ofNat (w * 4 + x / 16)] else none
  | [_] => none
  | [] => some []

/-- A symbol is read as it was written. -/
theorem value_symbol {n : ℕ} (h : n < 64) : value (symbol n) = some n := by
  have hall : ∀ n < 64, value (symbol n) = some n := by decide
  exact hall n h

/-- What is written is a symbol. -/
theorem symbol_mem (n : ℕ) : symbol n ∈ alphabet := by
  rw [symbol, List.getD_eq_getElem?_getD]
  rcases h : alphabet[n]? with - | c
  · decide
  · exact List.mem_of_getElem? h

/-- An encoding holds nothing but symbols. -/
theorem mem_alphabet {bytes : List UInt8} {c : Char} (h : c ∈ encode bytes) : c ∈ alphabet := by
  induction bytes using encode.induct with
  | case1 a b d rest ih =>
      simp only [encode, List.mem_cons] at h
      rcases h with rfl | rfl | rfl | rfl | h
      · exact symbol_mem _
      · exact symbol_mem _
      · exact symbol_mem _
      · exact symbol_mem _
      · exact ih h
  | case2 a b =>
      simp only [encode, List.mem_cons, List.not_mem_nil, or_false] at h
      rcases h with rfl | rfl | rfl <;> exact symbol_mem _
  | case3 a =>
      simp only [encode, List.mem_cons, List.not_mem_nil, or_false] at h
      rcases h with rfl | rfl <;> exact symbol_mem _
  | case4 => cases h

/-- A byte is known by its number. -/
theorem ofNat_eq {n : ℕ} {byte : UInt8} (h : n = byte.toNat) : UInt8.ofNat n = byte := by
  rw [h, UInt8.ofNat_toNat]

/-- **Round trip**: decoding an encoding gives the bytes. -/
theorem decode_encode (bytes : List UInt8) : decode (encode bytes) = some bytes := by
  induction bytes using encode.induct with
  | case1 a b c rest ih =>
      have ha := a.toNat_lt
      have hb := b.toNat_lt
      have hc := c.toNat_lt
      rw [encode, decode, value_symbol (by omega), value_symbol (by omega),
        value_symbol (by omega), value_symbol (by omega), ih]
      simp only [Option.pure_def, Option.bind_eq_bind, Option.bind_some]
      rw [ofNat_eq (by omega : _ = a.toNat), ofNat_eq (by omega : _ = b.toNat),
        ofNat_eq (by omega : _ = c.toNat)]
  | case2 a b =>
      have ha := a.toNat_lt
      have hb := b.toNat_lt
      rw [encode, decode, value_symbol (by omega), value_symbol (by omega),
        value_symbol (by omega)]
      simp only [Option.pure_def, Option.bind_eq_bind, Option.bind_some]
      rw [if_pos (by omega), ofNat_eq (by omega : _ = a.toNat), ofNat_eq (by omega : _ = b.toNat)]
  | case3 a =>
      have ha := a.toNat_lt
      rw [encode, decode, value_symbol (by omega), value_symbol (by omega)]
      simp only [Option.pure_def, Option.bind_eq_bind, Option.bind_some]
      rw [if_pos (by omega), ofNat_eq (by omega : _ = a.toNat)]
  | case4 => rfl

/-- The length of an encoding: four symbols for three bytes, rounded up. -/
theorem length_encode (bytes : List UInt8) :
    (encode bytes).length = (4 * bytes.length + 2) / 3 := by
  induction bytes using encode.induct with
  | case1 a b c rest ih =>
      simp only [encode, List.length_cons, ih]
      omega
  | case2 a b => simp [encode]
  | case3 a => simp [encode]
  | case4 => rfl

end Base64
