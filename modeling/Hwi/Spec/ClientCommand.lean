import Hwi.Spec.LedgerWallet
import Hwi.Lib.Procedure
import Hwi.Lib.Stream

/-! The interpreter of the commands that the device sends to its client:
`client_command.py` of `ledger_bitcoin` -/

namespace Hwi

namespace LedgerBitcoin

/-! ### Reading a request -/

namespace ByteStreamParser

def readBytes (n : ℕ) : Read Bytes := fun stream =>
  if stream.length < n then .error (.valueError "Byte stream exhausted") []
  else .ok (stream.take n) (stream.drop n)

def assertEmpty : Read Unit := fun stream =>
  if stream = [] then .ok () []
  else .error (.valueError "Byte stream was expected to be empty") (stream.drop 1)

def readUint (n : ℕ) (littleEndian : Bool) : Read ℕ := do
  let b ← readBytes n
  return ofLE (if littleEndian then b else b.reverse)

def readVarint : Read ℕ := do
  let leading ← readUint 1 false
  if leading = 253 then readUint 2 true
  else if leading = 254 then readUint 4 true
  else if leading = 255 then readUint 8 true
  else return leading

/-- A parser reads a request after the command code. -/
def parse {α : Type} (parser : Read α) (request : Bytes) : Except Exc α :=
  match parser.run (request.drop 1) with
  | .ok a _ => .ok a
  | .error e _ => .error e

end ByteStreamParser

open ByteStreamParser

/-- `n.to_bytes(1, byteorder="big")` -/
def toByte (n : ℕ) : Except Exc Bytes :=
  if n < 256 then .ok [UInt8.ofNat n] else .error .overflowError

inductive ClientCommandCode
  | yield | getPreimage | getMerkleLeafProof | getMerkleLeafIndex | getMoreElements
deriving DecidableEq, Repr

namespace ClientCommandCode

def toByte : ClientCommandCode → UInt8
  | yield => 0x10
  | getPreimage => 0x40
  | getMerkleLeafProof => 0x41
  | getMerkleLeafIndex => 0x42
  | getMoreElements => 0xA0

def all : List ClientCommandCode :=
  [yield, getPreimage, getMerkleLeafIndex, getMerkleLeafProof, getMoreElements]

/-- The command with a code. -/
def ofByte? (b : UInt8) : Option ClientCommandCode := all.find? fun code => code.toByte = b

end ClientCommandCode

structure ClientCommandInterpreter where
  knownPreimages : Dict Bytes Bytes
  knownTrees : Dict Bytes MerkleTree
  yielded : List Bytes
  queue : List Bytes

namespace ClientCommandInterpreter

def new : ClientCommandInterpreter := ⟨∅, ∅, [], []⟩

/-- A command of the interpreter, which changes its state and may raise. -/
abbrev Command := Procedure Exc ClientCommandInterpreter Bytes

/-- Elements that do not fit into the response are kept for GET_MORE_ELEMENTS. -/
def extendQueue (elements : List Bytes) : Procedure Exc ClientCommandInterpreter PUnit :=
  modify fun self => { self with queue := self.queue ++ elements }

/-! ### The commands -/

def yieldCommand (request : Bytes) : Command := do
  modify fun self => { self with yielded := self.yielded ++ [request.drop 1] }
  return []

def getPreimageRequest : Read Bytes := do
  let first ← readBytes 1
  if first ≠ [0] then throw (.runtimeError "Unsupported request: the first byte should be 0")
  let reqHash ← readBytes 32
  assertEmpty
  return reqHash

def getPreimageCommand (request : Bytes) : Command := do
  let reqHash ← Procedure.ofExcept (parse getPreimageRequest request)
  let self ← get
  match self.knownPreimages.get? reqHash with
  | some knownPreimage => do
    let preimageLenOut := serCompactSize knownPreimage.length
    let maxPayloadSize := 255 - preimageLenOut.length - 1
    let payloadSize := min maxPayloadSize knownPreimage.length
    -- elements of length one
    extendQueue ((knownPreimage.drop payloadSize).map fun b => [b])
    let payloadSizeOut ← Procedure.ofExcept (toByte payloadSize)
    return preimageLenOut ++ payloadSizeOut ++ knownPreimage.take payloadSize
  | none =>
    throw (.runtimeError ("Requested unknown preimage for: " ++ String.ofList (hexlify reqHash)))

def getMerkleLeafProofRequest : Read (Bytes × ℕ × ℕ) := do
  let root ← readBytes 32
  let treeSize ← readVarint
  let leafIndex ← readVarint
  assertEmpty
  return (root, treeSize, leafIndex)

def unknownRoot (root : Bytes) : Exc :=
  .valueError ("Unknown Merkle root: " ++ String.ofList (hexlify root) ++ ".")

def getMerkleLeafProofCommand (request : Bytes) : Command := do
  let req ← Procedure.ofExcept (parse getMerkleLeafProofRequest request)
  let root := req.1
  let treeSize := req.2.1
  let leafIndex := req.2.2
  let self ← get
  match self.knownTrees.get? root with
  | none => throw (unknownRoot root)
  | some mt => do
    if treeSize ≤ leafIndex ∨ mt.leaves.length ≠ treeSize then
      throw (.valueError "Invalid index or tree size.")
    if self.queue ≠ [] then
      throw (.runtimeError "This command should not execute when the queue is not empty.")
    let proof ← Procedure.ofExcept (mt.proveLeaf leafIndex)
    let nResponseElements := min ((255 - 32 - 1 - 1) / 32) proof.length
    extendQueue ((proof.drop nResponseElements).map Subtype.val)
    let leaf ← Procedure.ofExcept (mt.get leafIndex)
    let proofSizeOut ← Procedure.ofExcept (toByte proof.length)
    let nResponseElementsOut ← Procedure.ofExcept (toByte nResponseElements)
    return leaf.val ++ proofSizeOut ++ nResponseElementsOut ++
      (proof.take nResponseElements).flatMap Subtype.val

def getMerkleLeafIndexRequest : Read (Bytes × Bytes) := do
  let root ← readBytes 32
  let leafHash ← readBytes 32
  assertEmpty
  return (root, leafHash)

def getMerkleLeafIndexCommand (request : Bytes) : Command := do
  let req ← Procedure.ofExcept (parse getMerkleLeafIndexRequest request)
  let self ← get
  match self.knownTrees.get? req.1 with
  | none => throw (unknownRoot req.1)
  | some mt =>
    match mt.leafIndex req.2 with
    | .ok leafIndex => return [1] ++ serCompactSize leafIndex
    | .error _ => return [0] ++ serCompactSize 0

/-- The elements that are popped while the response does not get too long. -/
def popElements (elementLen : ℕ) : ℕ → List Bytes → List Bytes × List Bytes
  | _, [] => ([], [])
  | responseLen, el :: queue =>
    if responseLen + elementLen ≤ 253 then
      let popped := popElements elementLen (responseLen + el.length) queue
      (el :: popped.1, popped.2)
    else ([], el :: queue)

def getMoreElementsCommand (request : Bytes) : Command := do
  if request.length ≠ 1 then throw (.valueError "Wrong request length.")
  let self ← get
  match self.queue with
  | [] => throw (.valueError "No elements to get.")
  | first :: _ => do
    let elementLen := first.length
    if self.queue.any fun el => el.length ≠ elementLen then
      throw (.valueError
        "The queue contains elements of different byte length, which is not expected.")
    let popped := popElements elementLen 0 self.queue
    set { self with queue := popped.2 }
    let nAddedElementsOut ← Procedure.ofExcept (toByte popped.1.length)
    let elementLenOut ← Procedure.ofExcept (toByte elementLen)
    return nAddedElementsOut ++ elementLenOut ++ popped.1.flatten

def execute (hwResponse : Bytes) : Command :=
  match hwResponse with
  | [] =>
    throw (.runtimeError "Unexpected empty SW_INTERRUPTED_EXECUTION response from hardware wallet.")
  | cmdCode :: _ =>
    match ClientCommandCode.ofByte? cmdCode with
    | none => throw (.runtimeError ("Unexpected command code: 0x" ++ String.ofList ((hexlify [cmdCode]).map Char.toUpper)))
    | some .yield => yieldCommand hwResponse
    | some .getPreimage => getPreimageCommand hwResponse
    | some .getMerkleLeafIndex => getMerkleLeafIndexCommand hwResponse
    | some .getMerkleLeafProof => getMerkleLeafProofCommand hwResponse
    | some .getMoreElements => getMoreElementsCommand hwResponse

/-! ### What the client knows -/

def addKnownPreimage (R : Runtime) (self : ClientCommandInterpreter) (element : Bytes) :
    ClientCommandInterpreter :=
  { self with knownPreimages := self.knownPreimages.set (R.sha256 element) element }

def addKnownList (R : Runtime) (self : ClientCommandInterpreter) (elements : List Bytes) :
    ClientCommandInterpreter :=
  let self := elements.foldl (fun self el => self.addKnownPreimage R (0x00 :: el)) self
  let mt := MerkleTree.new R (elements.map (elementDigest R))
  { self with knownTrees := self.knownTrees.set mt.root mt }

def addKnownMapping (R : Runtime) (self : ClientCommandInterpreter) (mapping : Dict Bytes Bytes) :
    ClientCommandInterpreter :=
  let items := itemsSorted mapping
  (self.addKnownList R (items.map Prod.fst)).addKnownList R (items.map Prod.snd)

end ClientCommandInterpreter

end LedgerBitcoin

end Hwi
