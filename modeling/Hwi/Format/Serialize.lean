import Hwi.Spec.Serialize

/-! The compact sizes and byte strings a stream is made of. -/

namespace Hwi

open Reader

/-- The bytes are one complete compact size, of any width, spelling `n`. -/
def Announces (p : Bytes) (n : ℕ) : Prop := Exactly deserCompactSize p n

/-- An announced number of bytes can be asked for: they are there, or there is
room for a buffer that long. -/
structure Readable (R : Runtime) (n : ℕ) (s : Bytes) : Prop where
  fits : n ≤ maxBytes
  room : n ≤ s.length ∨ n ≤ R.memory

theorem Readable.append {R : Runtime} {n : ℕ} {s : Bytes} (h : Readable R n s) (x : Bytes) :
    Readable R n (s ++ x) where
  fits := h.fits
  room := by
    apply h.room.imp_left
    intro hle
    rw [List.length_append]
    omega

/-- Bytes that are there can be asked for. -/
theorem readable_length {R : Runtime} {s : Bytes} (h : s.length ≤ maxBytes) (x : Bytes) :
    Readable R s.length (s ++ x) where
  fits := h
  room := Or.inl (by simp)

end Hwi
