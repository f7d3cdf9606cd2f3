import Hwi.Lib.Alphabet
import Mathlib.Data.List.Basic
import Mathlib.Tactic.Common

/-! Base 64 as the standard library encodes and decodes it. The decoder is the
lenient one: it skips every character outside the alphabet and stops at the
padding of a complete group. -/

namespace Hwi.Base64

def alphabet : List Char :=
  "ABCDEFGHIJKLMNOPQRSTUVWXYZabcdefghijklmnopqrstuvwxyz0123456789+/".toList

/-- The character of a six bit value. -/
def encodeChar (v : ℕ) : Char := alphabet.getD v 'A'

/-- The six bit value of a character, if it is in the alphabet. -/
def charValue (c : Char) : Option ℕ := alphabet.idxOf? c

def encode : List UInt8 → List Char
  | a :: b :: c :: t =>
    encodeChar (a.toNat / 4) :: encodeChar (a.toNat % 4 * 16 + b.toNat / 16) ::
      encodeChar (b.toNat % 16 * 4 + c.toNat / 64) :: encodeChar (c.toNat % 64) :: encode t
  | [a, b] =>
    [encodeChar (a.toNat / 4), encodeChar (a.toNat % 4 * 16 + b.toNat / 16),
      encodeChar (b.toNat % 16 * 4), '=']
  | [a] => [encodeChar (a.toNat / 4), encodeChar (a.toNat % 4 * 16), '=', '=']
  | [] => []

/-- The scan of the decoder: `quad` characters of the current group are read,
`pads` padding characters after them, and `left` holds the bits not yet written. -/
def scan : List Char → ℕ → ℕ → ℕ → Option (List UInt8)
  | [], quad, _, _ => if quad = 0 then some [] else none
  | c :: t, quad, pads, left =>
    if c = '=' then
      if 2 ≤ quad then
        if 4 ≤ quad + (pads + 1) then some [] else scan t quad (pads + 1) left
      else scan t quad pads left
    else match charValue c with
      | none => scan t quad pads left
      | some v =>
        match quad with
        | 0 => scan t 1 0 v
        | 1 => (scan t 2 0 (v % 16)).map (UInt8.ofNat (left * 4 + v / 16) :: ·)
        | 2 => (scan t 3 0 (v % 4)).map (UInt8.ofNat (left * 16 + v / 4) :: ·)
        | _ => (scan t 0 0 0).map (UInt8.ofNat (left * 64 + v) :: ·)

def decode (s : List Char) : Option (List UInt8) := scan s 0 0 0

theorem alphabet_length : alphabet.length = 64 :=
  (congrArg List.length String.toList_ofList).trans rfl

theorem alphabet_nodup : alphabet.Nodup :=
  (congrArg List.Nodup String.toList_ofList).mpr (by decide)

theorem pad_not_mem_alphabet : '=' ∉ alphabet :=
  (congrArg (fun chars : List Char => '=' ∉ chars) String.toList_ofList).mpr (by decide)

theorem charValue_encodeChar {v : ℕ} (h : v < 64) : charValue (encodeChar v) = some v :=
  Alphabet.idxOf?_getD 'A' alphabet_nodup (alphabet_length.symm ▸ h)

theorem encodeChar_mem {v : ℕ} (h : v < 64) : encodeChar v ∈ alphabet :=
  Alphabet.getD_mem 'A' (alphabet_length.symm ▸ h)

theorem encodeChar_ne_pad {v : ℕ} (h : v < 64) : encodeChar v ≠ '=' := by
  intro heq
  exact pad_not_mem_alphabet (heq ▸ encodeChar_mem h)

theorem scan_zero {v : ℕ} (h : v < 64) (t : List Char) (pads left : ℕ) :
    scan (encodeChar v :: t) 0 pads left = scan t 1 0 v := by
  simp [scan, encodeChar_ne_pad h, charValue_encodeChar h]

theorem scan_one {v : ℕ} (h : v < 64) (t : List Char) (pads left : ℕ) :
    scan (encodeChar v :: t) 1 pads left =
      (scan t 2 0 (v % 16)).map (UInt8.ofNat (left * 4 + v / 16) :: ·) := by
  simp [scan, encodeChar_ne_pad h, charValue_encodeChar h]

theorem scan_two {v : ℕ} (h : v < 64) (t : List Char) (pads left : ℕ) :
    scan (encodeChar v :: t) 2 pads left =
      (scan t 3 0 (v % 4)).map (UInt8.ofNat (left * 16 + v / 4) :: ·) := by
  simp [scan, encodeChar_ne_pad h, charValue_encodeChar h]

theorem scan_three {v : ℕ} (h : v < 64) (t : List Char) (pads left : ℕ) :
    scan (encodeChar v :: t) 3 pads left =
      (scan t 0 0 0).map (UInt8.ofNat (left * 64 + v) :: ·) := by
  simp [scan, encodeChar_ne_pad h, charValue_encodeChar h]

/-- A byte put together from two parts of neighbouring characters. -/
theorem ofNat_eq {n : ℕ} {a : UInt8} (h : n = a.toNat) : UInt8.ofNat n = a := by
  rw [h, UInt8.ofNat_toNat]

/-- Decoding undoes encoding. -/
theorem decode_encode (bs : List UInt8) : decode (encode bs) = some bs := by
  unfold decode
  induction bs using encode.induct with
  | case1 a b c t ih =>
    have ha := a.toNat_lt
    have hb := b.toNat_lt
    have hc := c.toNat_lt
    rw [encode, scan_zero (by omega), scan_one (by omega), scan_two (by omega),
      scan_three (by omega), ih]
    simp only [Option.map_some, Option.some.injEq, List.cons.injEq, and_true]
    exact ⟨ofNat_eq (by omega), ofNat_eq (by omega), ofNat_eq (by omega)⟩
  | case2 a b =>
    have ha := a.toNat_lt
    have hb := b.toNat_lt
    rw [encode, scan_zero (by omega), scan_one (by omega), scan_two (by omega)]
    have hpad (left : ℕ) : scan ['='] 3 0 left = some [] := by simp [scan]
    simp only [hpad, Option.map_some, Option.some.injEq, List.cons.injEq, and_true]
    exact ⟨ofNat_eq (by omega), ofNat_eq (by omega)⟩
  | case3 a =>
    have ha := a.toNat_lt
    rw [encode, scan_zero (by omega), scan_one (by omega)]
    have hpad (left : ℕ) : scan ['=', '='] 2 0 left = some [] := by simp [scan]
    simp only [hpad, Option.map_some, Option.some.injEq, List.cons.injEq, and_true]
    exact ofNat_eq (by omega)
  | case4 => rfl

/-- What the encoder writes is in the alphabet or padding. -/
theorem mem_encode {bs : List UInt8} {c : Char} (h : c ∈ encode bs) : c ∈ alphabet ∨ c = '=' := by
  induction bs using encode.induct with
  | case1 a b d t ih =>
    have ha := a.toNat_lt
    have hb := b.toNat_lt
    have hd := d.toNat_lt
    simp only [encode, List.mem_cons] at h
    rcases h with rfl | rfl | rfl | rfl | h
    · exact Or.inl (encodeChar_mem (by omega))
    · exact Or.inl (encodeChar_mem (by omega))
    · exact Or.inl (encodeChar_mem (by omega))
    · exact Or.inl (encodeChar_mem (by omega))
    · exact ih h
  | case2 a b =>
    have ha := a.toNat_lt
    have hb := b.toNat_lt
    simp only [encode, List.mem_cons, List.not_mem_nil, or_false] at h
    rcases h with rfl | rfl | rfl | rfl
    · exact Or.inl (encodeChar_mem (by omega))
    · exact Or.inl (encodeChar_mem (by omega))
    · exact Or.inl (encodeChar_mem (by omega))
    · exact Or.inr rfl
  | case3 a =>
    have ha := a.toNat_lt
    simp only [encode, List.mem_cons, List.not_mem_nil, or_false] at h
    rcases h with rfl | rfl | rfl | rfl
    · exact Or.inl (encodeChar_mem (by omega))
    · exact Or.inl (encodeChar_mem (by omega))
    · exact Or.inr rfl
    · exact Or.inr rfl
  | case4 => exact absurd h List.not_mem_nil

end Hwi.Base64
