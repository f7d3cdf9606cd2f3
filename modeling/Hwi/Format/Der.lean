import Hwi.Lib.Digits
import Hwi.Spec.Common

/-! The strict encoding of a signature in BIP 66:
`0x30 [length] 0x02 [R length] [R] 0x02 [S length] [S] [hash type]`. -/

namespace Hwi

namespace Der

/-- The number of some bytes, the most significant first. -/
def value (b : Bytes) : ℕ := ofBE 256 (b.map UInt8.toNat)

def byteAt (sig : Bytes) (i : ℕ) : ℕ := (sig.getD i 0).toNat

/-- The length of the element at a position. -/
def elementLength (sig : Bytes) (pos : ℕ) : ℕ := byteAt sig (pos + 1)

/-- An integer that is not empty, not negative and has no needless zero in front. -/
structure IntegerAt (sig : Bytes) (pos : ℕ) : Prop where
  tag : byteAt sig pos = 0x02
  length : elementLength sig pos ≠ 0
  positive : byteAt sig (pos + 2) < 0x80
  minimal : 1 < elementLength sig pos → byteAt sig (pos + 2) = 0 → 0x80 ≤ byteAt sig (pos + 3)

/-- The rules of BIP 66 for a signature with the byte of its hash type. -/
structure IsValidSignatureEncoding (sig : Bytes) : Prop where
  minSize : 9 ≤ sig.length
  maxSize : sig.length ≤ 73
  compound : byteAt sig 0 = 0x30
  total : byteAt sig 1 = sig.length - 3
  inside : 5 + elementLength sig 2 < sig.length
  sum : elementLength sig 2 + elementLength sig (4 + elementLength sig 2) + 7 = sig.length
  r : IntegerAt sig 2
  s : IntegerAt sig (4 + elementLength sig 2)

/-- The integers a reader takes from the two elements. -/
def integers (sig : Bytes) : ℕ × ℕ :=
  let sPos := 4 + elementLength sig 2
  (value ((sig.drop 4).take (elementLength sig 2)),
    value ((sig.drop (sPos + 2)).take (elementLength sig sPos)))

end Der

end Hwi
