import Mathlib.Data.Int.Notation
import Mathlib.Data.List.Perm.Basic
import Mathlib.Tactic.Common

/-! Bytes, strings, exceptions, and the functions the code takes from its
runtime: the hash functions and the iteration order of sets. -/

namespace Hwi

abbrev Bytes := List UInt8

instance : LawfulBEq Bytes := inferInstance

/-- A `str`, as its code points. -/
abbrev Str := List Char

/-- The exceptions the modelled functions raise. The first group are the
subclasses of `HWWError`. `binasciiError` and `unicodeError` are subclasses of
`ValueError`. A `dbbError` is an error reply of the Digital Bitbox, a
`deviceException` a status word of the Ledger, and the last four are exceptions
of the libraries of the Jade and of the BitBox02. -/
inductive Exc
  | psbtSerializationError (msg : String)
  | badArgumentError (msg : String)
  | unavailableActionError (msg : String)
  | deviceNotReadyError (msg : String)
  | deviceFailureError (msg : String)
  | actionCanceledError (msg : String)
  | deviceConnectionError (msg : String)
  | invalidPolicyError (msg : String)
  | valueError (msg : String)
  | binasciiError
  | unicodeError
  | structError
  | memoryError
  | indexError
  | keyError
  | typeError
  | overflowError
  | assertionError
  | runtimeError (msg : String)
  | dbbError (code : ℕ) (msg : String)
  | deviceException (sw : ℕ)
  | unknownDeviceError (msg : String)
  | exception (msg : String)
  | jadeError (code : ℤ) (msg : String)
  | bitbox02Exception (code : ℕ) (msg : String)
  | userAbortException
  | firmwareVersionOutdatedException (msg : String)
deriving DecidableEq, Repr

namespace Exc

def isHWWError : Exc → Bool
  | psbtSerializationError _ | badArgumentError _ | unavailableActionError _
  | deviceNotReadyError _ | deviceFailureError _ | actionCanceledError _
  | deviceConnectionError _ | invalidPolicyError _ => true
  | _ => false

def isValueError : Exc → Bool
  | valueError _ | binasciiError | unicodeError => true
  | _ => false

end Exc

/-- What the code uses of its runtime. A set is iterated in an order the
runtime chooses, some permutation of the order its elements were added in, and
`memory` is the length of the longest buffer there is room for. -/
structure Runtime where
  sha256 : Bytes → Bytes
  ripemd160 : Bytes → Bytes
  hmacSha512 : Bytes → Bytes → Bytes
  setOrder : List Bytes → List Bytes
  memory : ℕ
  sha256_length : ∀ b, (sha256 b).length = 32
  ripemd160_length : ∀ b, (ripemd160 b).length = 20
  hmacSha512_length : ∀ k b, (hmacSha512 k b).length = 64
  setOrder_perm : ∀ l, (setOrder l).Perm l

namespace Runtime

variable (R : Runtime)

def hash256 (s : Bytes) : Bytes := R.sha256 (R.sha256 s)

def hash160 (s : Bytes) : Bytes := R.ripemd160 (R.sha256 s)

@[simp] theorem hash256_length (s : Bytes) : (R.hash256 s).length = 32 := R.sha256_length _

/-- A runtime to evaluate the definitions in: sets are iterated in the order they
were filled, every digest is zero, and there is room for a gigabyte. -/
def zeros : Runtime where
  sha256 _ := List.replicate 32 0
  ripemd160 _ := List.replicate 20 0
  hmacSha512 _ _ := List.replicate 64 0
  setOrder l := l
  memory := 1024 * 1024 * 1024
  sha256_length _ := List.length_replicate
  ripemd160_length _ := List.length_replicate
  hmacSha512_length _ _ := List.length_replicate
  setOrder_perm := List.Perm.refl

end Runtime

/-- The blockchain network to use. -/
inductive Chain
  | main | test | regtest | signet | testnet4
deriving DecidableEq, Repr

/-- The type of address to use. -/
inductive AddressType
  | legacy | wit | shWit | tap
deriving DecidableEq, Repr

end Hwi
