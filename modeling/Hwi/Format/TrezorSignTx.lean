import Hwi.Spec.TrezorSignTx

/-! What a signing session of `sign_tx` is for: the device reads the transactions piece by
piece, and the host collects the signatures -/

namespace Hwi

namespace Trezorlib

namespace Btc

variable {ι β ο : Type}

/-! ### What the host collects -/

/-- The signature that comes with a request, and the input that it is for. -/
def TxRequestSerializedType.filled (serialized : TxRequestSerializedType) : Option (ℕ × Bytes) := do
  let idx ← serialized.signatureIndex
  let sig ← serialized.signature
  return (idx, sig)

def TxRequest.filled (r : TxRequest) : Option (ℕ × Bytes) :=
  r.serialized.bind TxRequestSerializedType.filled

/-- The part of the signed transaction that comes with a request. -/
def TxRequest.part (r : TxRequest) : Bytes :=
  (r.serialized.bind TxRequestSerializedType.serializedTx).getD []

/-- The signatures and the transaction, from all the requests of a device: at most one
signature came for an input, and it is there; the parts follow each other. -/
structure Collected (n : ℕ) (requests : List TxRequest) (signatures : List (Option Bytes))
    (serializedTx : Bytes) : Prop where
  length : signatures.length = n
  once : ((requests.filterMap TxRequest.filled).map Prod.fst).Nodup
  filled : ∀ i sig, signatures[i]? = some (some sig) ↔ (i, sig) ∈ requests.filterMap TxRequest.filled
  serialized : serializedTx = requests.flatMap TxRequest.part

/-! ### What the host tells -/

/-- The one thing of a transaction that a request is told: its type says what, and its
details say at which place. -/
inductive PieceOf (tx : TransactionType ι β ο) (details : TxRequestDetailsType) :
    RequestType → TransactionType ι β ο → Prop
  | txMeta : PieceOf tx details .TXMETA (copyTxMeta tx)
  | input {i : ℕ} {input : ι} (hindex : details.requestIndex = some i)
    (hinput : tx.inputs[i]? = some input) : PieceOf tx details .TXINPUT { inputs := [input] }
  | originInput {i : ℕ} {input : ι} (hindex : details.requestIndex = some i)
    (hinput : tx.inputs[i]? = some input) : PieceOf tx details .TXORIGINPUT { inputs := [input] }
  | binOutput {i : ℕ} {output : β} (hhash : details.txHash.getD [] ≠ [])
    (hindex : details.requestIndex = some i) (houtput : tx.binOutputs[i]? = some output) :
    PieceOf tx details .TXOUTPUT { binOutputs := [output] }
  | output {i : ℕ} {output : ο} (hhash : details.txHash.getD [] = [])
    (hindex : details.requestIndex = some i) (houtput : tx.outputs[i]? = some output) :
    PieceOf tx details .TXOUTPUT { outputs := [output] }
  | originOutput {i : ℕ} {output : ο} (hindex : details.requestIndex = some i)
    (houtput : tx.outputs[i]? = some output) :
    PieceOf tx details .TXORIGOUTPUT { outputs := [output] }
  | extraData {o l : ℕ} {data : Bytes} (hoffset : details.extraDataOffset = some o)
    (hlen : details.extraDataLen = some l) (hdata : tx.extraData = some data) :
    PieceOf tx details .TXEXTRADATA { extraData := some ((data.drop o).take l) }

/-- The transaction of a hash; without a hash it is the one that is signed. -/
def Named (prevTxes : Dict Bytes (TransactionType ι β ο)) (this : TransactionType ι β ο)
    (txHash : Option Bytes) (tx : TransactionType ι β ο) : Prop :=
  match txHash with
  | none => tx = this
  | some txHash => prevTxes.get? txHash = some tx

/-- The message is the piece that the request asks for, of the transaction that it names. -/
def Told (prevTxes : Dict Bytes (TransactionType ι β ο)) (this : TransactionType ι β ο)
    (r : TxRequest) (msg : TransactionType ι β ο) : Prop :=
  ∃ requestType details tx, r.requestType = some requestType ∧ r.details = some details ∧
    Named prevTxes this details.txHash tx ∧ PieceOf tx details requestType msg

/-- The messages that were sent are what the first requests of the device were told, in their
order. -/
def Shown (prevTxes : Dict Bytes (TransactionType ι β ο)) (this : TransactionType ι β ο)
    (questions : Dialogue TxRequest (TransactionType ι β ο) Last) (s : Signing ι β ο) : Prop :=
  ∃ answered, answered <+: questions.asked s.acks ∧
    List.Forall₂ (Told prevTxes this) answered s.acks

/-! ### What the device reads -/

/-- The number of outputs that the device is told. -/
def outputsCount (tx : TransactionType ι β ο) : ℕ :=
  if tx.binOutputs ≠ [] then tx.binOutputs.length else tx.outputs.length

/-- The transaction with its counts set, and no extra data where it is empty. -/
def TransactionType.counted (tx : TransactionType ι β ο) : TransactionType ι β ο :=
  { tx with
    inputsCnt := some tx.inputs.length
    outputsCnt := some (outputsCount tx)
    extraDataLen := some (tx.extraData.getD []).length
    extraData := if tx.extraData.getD [] = [] then none else tx.extraData }

/-- The transaction of a hash as a device has it that has read it. -/
def previous (prevTxes : Dict Bytes (TransactionType ι β ο)) (txHash : Bytes) : TransactionType ι β ο :=
  ((prevTxes.get? txHash).getD {}).counted

/-- Ask for an input or an output. -/
def askPiece (requestType : RequestType) (txHash : Option Bytes) (i : ℕ) :
    Dialogue TxRequest (TransactionType ι β ο) (TransactionType ι β ο) :=
  .request {
    requestType := some requestType, details := some { requestIndex := some i, txHash := txHash } }

def askChunk (chunk : ℕ) (txHash : Option Bytes) (i : ℕ) :
    Dialogue TxRequest (TransactionType ι β ο) (TransactionType ι β ο) :=
  .request {
    requestType := some .TXEXTRADATA
    details := some {
      txHash := txHash, extraDataLen := some chunk, extraDataOffset := some (i * chunk) } }

/-- Read a transaction, its extra data in chunks of a size that the device has chosen. -/
def readTx (chunk : ℕ) (txHash : Option Bytes) :
    Dialogue TxRequest (TransactionType ι β ο) (TransactionType ι β ο) := do
  let info ← .request { requestType := some .TXMETA, details := some { txHash := txHash } }
  let ins ← Dialogue.forEach (askPiece .TXINPUT txHash) (List.range (info.inputsCnt.getD 0))
  let outs ← Dialogue.forEach (askPiece .TXOUTPUT txHash) (List.range (info.outputsCnt.getD 0))
  let len := info.extraDataLen.getD 0
  let extra ← Dialogue.forEach (askChunk chunk txHash) (List.range ((len + chunk - 1) / chunk))
  return { info with
    inputs := ins.flatMap TransactionType.inputs
    binOutputs := outs.flatMap TransactionType.binOutputs
    outputs := outs.flatMap TransactionType.outputs
    extraData := if len = 0 then none else some (extra.flatMap fun msg => msg.extraData.getD []) }

/-- A device that signs what it has read: the hashes of the previous transactions that it
wants to see, and the signature of each input and the parts of the signed transaction
that it computes from all that it has seen. -/
structure Signer (ι β ο : Type) where
  chunk : ℕ
  chunk_pos : 0 < chunk
  needs : SignTx → TransactionType ι β ο → List Bytes
  sign : SignTx → TransactionType ι β ο → List (TransactionType ι β ο) → List (Bytes × Bytes) × Bytes

/-- The signature of an input and its part of the transaction, with another request. -/
def sendSignature (signed : (Bytes × Bytes) × ℕ) :
    Dialogue TxRequest (TransactionType ι β ο) (TransactionType ι β ο) :=
  .request {
    requestType := some .TXINPUT
    details := some { requestIndex := some signed.2 }
    serialized := some {
      signatureIndex := some signed.2, signature := some signed.1.1,
      serializedTx := some signed.1.2 } }

def Signer.device (S : Signer ι β ο) : Device ι β ο := fun signtx => do
  let tx ← readTx S.chunk none
  let prevs ← Dialogue.forEach (fun txHash => readTx S.chunk (some txHash)) (S.needs signtx tx)
  let signed := S.sign signtx tx prevs
  let _ ← Dialogue.forEach sendSignature signed.1.zipIdx
  .ask {
    requestType := some .TXFINISHED, serialized := some { serializedTx := some signed.2 } }
    fun _ => .done .other

/-- Where the outputs of a transaction are read from: those of the transaction that is
signed are its own outputs, and a previous transaction has them as they are serialized. -/
def Readable (txHash : Option Bytes) (tx : TransactionType ι β ο) : Prop :=
  if txHash.getD [] = [] then tx.binOutputs = [] else tx.outputs = []

end Btc

end Trezorlib

end Hwi
