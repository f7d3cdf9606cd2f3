import Hwi.Lib.Dialogue
import Hwi.Lib.Dict
import Hwi.Spec.Trezor

/-! `sign_tx` of `trezorlib/btc.py`, over the messages that the device sends and is sent -/

namespace Hwi

namespace Trezorlib

namespace Btc

/-! ### Messages -/

/-- A number that is not in the enumeration stays a number. -/
inductive RequestType
  | TXINPUT | TXOUTPUT | TXMETA | TXFINISHED | TXEXTRADATA | TXORIGINPUT | TXORIGOUTPUT
  | unknown (value : ℕ)
deriving DecidableEq, Repr

structure TxRequestDetailsType where
  requestIndex : Option ℕ := none
  txHash : Option Bytes := none
  extraDataLen : Option ℕ := none
  extraDataOffset : Option ℕ := none
deriving DecidableEq, Repr

structure TxRequestSerializedType where
  signatureIndex : Option ℕ := none
  signature : Option Bytes := none
  serializedTx : Option Bytes := none
deriving DecidableEq, Repr

structure TxRequest where
  requestType : Option RequestType := none
  details : Option TxRequestDetailsType := none
  serialized : Option TxRequestSerializedType := none
deriving DecidableEq, Repr

/-- A transaction or a part of one, over the types of its inputs, of the outputs of a
previous transaction, and of its own outputs. -/
structure TransactionType (ι β ο : Type) where
  inputs : List ι := []
  binOutputs : List β := []
  outputs : List ο := []
  version : Option ℤ := none
  lockTime : Option ℕ := none
  inputsCnt : Option ℕ := none
  outputsCnt : Option ℕ := none
  extraData : Option Bytes := none
  extraDataLen : Option ℕ := none
  expiry : Option ℕ := none
  overwintered : Option Bool := none
  versionGroupId : Option ℕ := none
  timestamp : Option ℕ := none
  branchId : Option ℕ := none
deriving DecidableEq, Repr

/-- The fields of `SignTx` that the callers set. -/
structure SignTx where
  outputsCount : ℕ
  inputsCount : ℕ
  coinName : String
  version : ℤ := 1
  lockTime : ℕ := 0
  serialize : Bool := true
deriving DecidableEq, Repr

inductive Error
  | exc (e : Exc)
  | trezorException (msg : String)
deriving DecidableEq, Repr

/-- How a device ends other than with `TXFINISHED`: the call raises, or it returns a
message that is not a `TxRequest`. -/
inductive Last
  | raises (e : Error)
  | other

variable {ι β ο : Type}

/-- A device, by what it does once it has the `SignTx` message. -/
abbrev Device (ι β ο : Type) := SignTx → Dialogue TxRequest (TransactionType ι β ο) Last

/-! ### Signing -/

/-- The variables of the loop, and the `TxAck` messages that were sent. -/
structure Signing (ι β ο : Type) where
  signatures : List (Option Bytes)
  serializedTx : Bytes := []
  acks : List (TransactionType ι β ο) := []

abbrev Loop (ι β ο : Type) := Procedure Error (Signing ι β ο)

def copyTxMeta (tx : TransactionType ι β ο) : TransactionType ι β ο :=
  { tx with
    inputsCnt := some tx.inputs.length
    inputs := []
    outputsCnt := some (if tx.binOutputs ≠ [] then tx.binOutputs.length else tx.outputs.length)
    outputs := []
    binOutputs := []
    extraDataLen := some (tx.extraData.getD []).length
    extraData := none }

/-- If there's some part of signed transaction, let's add it. -/
def addSerialized (serialized : TxRequestSerializedType) : Loop ι β ο Unit := do
  modify fun s => { s with serializedTx := s.serializedTx ++ serialized.serializedTx.getD [] }
  match serialized.signatureIndex with
  | none => return ()
  | some idx => do
    let s ← get
    match s.signatures[idx]? with
    | none => throw (.exc .indexError)
    | some (some _) =>
      throw (.exc (.valueError ("Signature for index " ++ toString idx ++ " already filled")))
    | some none => modify fun s => { s with signatures := s.signatures.set idx serialized.signature }

/-- The transaction that the request is about. -/
def currentTx (prevTxes : Dict Bytes (TransactionType ι β ο)) (thisTx : TransactionType ι β ο)
    (details : TxRequestDetailsType) : Except Error (TransactionType ι β ο) :=
  match details.txHash with
  | none => .ok thisTx
  | some txHash =>
    match prevTxes.get? txHash with
    | none => .error (.exc (.valueError
        ("Previous transaction " ++ String.ofList (hexlify txHash) ++ " not available")))
    | some tx => .ok tx

/-- `xs[request_index]` -/
def piece {α : Type} (xs : List α) (requestIndex : Option ℕ) : Except Error α :=
  match requestIndex with
  | none => .error (.exc .assertionError)
  | some i =>
    match xs[i]? with
    | none => .error (.exc .indexError)
    | some x => .ok x

/-- What is sent of the transaction. -/
def answer (requestType : Option RequestType) (details : TxRequestDetailsType)
    (tx : TransactionType ι β ο) : Except Error (TransactionType ι β ο) :=
  match requestType with
  | some .TXMETA => .ok (copyTxMeta tx)
  | some .TXINPUT | some .TXORIGINPUT => do
    let input ← piece tx.inputs details.requestIndex
    return { inputs := [input] }
  | some .TXOUTPUT =>
    if details.txHash.getD [] ≠ [] then do
      let output ← piece tx.binOutputs details.requestIndex
      return { binOutputs := [output] }
    else do
      let output ← piece tx.outputs details.requestIndex
      return { outputs := [output] }
  | some .TXORIGOUTPUT => do
    let output ← piece tx.outputs details.requestIndex
    return { outputs := [output] }
  | some .TXEXTRADATA =>
    match details.extraDataOffset, details.extraDataLen, tx.extraData with
    | some o, some l, some extraData => .ok { extraData := some ((extraData.drop o).take l) }
    | _, _, _ => .error (.exc .assertionError)
  | some (.unknown value) =>
    .error (.trezorException ("Unknown request type - " ++ toString value ++ "."))
  -- the loop ends before this with `TXFINISHED`
  | some .TXFINISHED => .error (.trezorException "Unknown request type - 3.")
  | none => .error (.trezorException "Unknown request type - None.")

/-- The body of the loop: the `TxAck` that is sent, `none` at the break. -/
def handle (prevTxes : Dict Bytes (TransactionType ι β ο)) (thisTx : TransactionType ι β ο)
    (res : TxRequest) : Loop ι β ο (Option (TransactionType ι β ο)) := do
  res.serialized.forM addSerialized
  if res.requestType = some .TXFINISHED then return none
  else
    match res.details with
    | none => throw (.exc .assertionError)
    -- Device asked for one more information, let's process it.
    | some details => do
      let tx ← Procedure.ofExcept (currentTx prevTxes thisTx details)
      let msg ← Procedure.ofExcept (answer res.requestType details tx)
      modify fun s => { s with acks := s.acks ++ [msg] }
      return some msg

/-- After the call: what it raised, or the end of the loop at its message. -/
def ended : Last → Loop ι β ο Unit
  | .raises e => throw e
  | .other => throw (.trezorException "Unexpected message")

/-- The loop over the inputs and the signatures. -/
def checkSigned (isExternal : ι → Bool) : List ι → List (Option Bytes) → Except Error Unit
  | i :: inputs, sig :: signatures =>
    if !isExternal i && sig.isNone then
      .error (.trezorException "Some signatures are missing!")
    else checkSigned isExternal inputs signatures
  | _, _ => .ok ()

/-- The transaction that is signed, as it is streamed. -/
def thisTx (inputs : List ι) (outputs : List ο) (version : ℤ) : TransactionType ι β ο :=
  { inputs, outputs, inputsCnt := some inputs.length, outputsCnt := some outputs.length,
    version := some version }

/-- The message that the session begins with. -/
def signTxMessage (coinName : String) (inputs : List ι) (outputs : List ο) (version : ℤ)
    (lockTime : ℕ) (serialize : Bool) : SignTx :=
  { coinName, inputsCount := inputs.length, outputsCount := outputs.length, version, lockTime,
    serialize }

/-- `sign_tx`; `isExternal` says which inputs have the script type `EXTERNAL`. -/
def signTx (isExternal : ι → Bool) (device : Device ι β ο) (coinName : String) (inputs : List ι)
    (outputs : List ο) (prevTxes : Dict Bytes (TransactionType ι β ο)) (version : ℤ)
    (lockTime : ℕ) (serialize : Bool) : Loop ι β ο (List (Option Bytes) × Bytes) := do
  -- Prepare structure for signatures
  set ({ signatures := List.replicate inputs.length none } : Signing ι β ο)
  Dialogue.serve (handle prevTxes (thisTx inputs outputs version)) ended
    (device (signTxMessage coinName inputs outputs version lockTime serialize))
  let s ← get
  Procedure.ofExcept (checkSigned isExternal inputs s.signatures)
  return (s.signatures, s.serializedTx)

/-! ### The calls of `trezor.py` -/

/-- An input of the transaction that is signed, or one of a previous transaction. -/
abbrev Input := Trezor.TxInputType ⊕ Trezor.PrevInput

abbrev Tx := TransactionType Input CTxOut Trezor.TxOutputType

def ofPrevious (prev : Trezor.TransactionType) : Tx :=
  { version := some prev.version, lockTime := some prev.lockTime, inputs := prev.inputs.map .inr,
    binOutputs := prev.binOutputs }

def prevTxesOf (prevTxes : Dict Bytes Trezor.TransactionType) : Dict Bytes Tx where
  items := prevTxes.items.map fun e => (e.1, ofPrevious e.2)
  nodup := by
    rw [List.map_map]
    exact prevTxes.nodup

/-- `btc.sign_tx` with the arguments of `trezor.py`, which has no inputs of the type
`EXTERNAL` and does not ask for the signed transaction. -/
def signTxOf (device : Device Input CTxOut Trezor.TxOutputType) (request : Trezor.SignTx) :
    Loop Input CTxOut Trezor.TxOutputType (List (Option Bytes) × Bytes) :=
  signTx (fun _ => false) device request.coinName (request.inputs.map .inl) request.outputs
    (prevTxesOf request.prevTxes) request.version request.lockTime false

end Btc

end Trezorlib

end Hwi
