import Hwi.Proofs.MerkleProof
import Hwi.Spec.ClientCommand

/-! What passes between the device and its client: the answers to the device's
requests as events, what of an answer the queue keeps, and what makes an answer
true. -/

namespace Hwi

namespace LedgerBitcoin

/-- A request that is answered, with the data of its answer. -/
inductive Event
  | yield (data : Bytes)
  | preimage (hash value : Bytes)
  | leafProof (root : Bytes) (treeSize index : ℕ) (leaf : Digest) (proof : List Digest)
  | leafIndex (root leafHash : Bytes) (index : Option ℕ)
  | more (elements : List Bytes)
deriving DecidableEq, Repr

namespace Event

/-- How much of a preimage the first answer holds. -/
def payloadSize (value : Bytes) : ℕ :=
  min (255 - (serCompactSize value.length).length - 1) value.length

/-- The requests to which the event is an answer. -/
def Asked : Event → Bytes → Prop
  | yield data, request => request = ClientCommandCode.yield.toByte :: data
  | preimage hash _, request =>
    hash.length = 32 ∧ request = ClientCommandCode.getPreimage.toByte :: 0 :: hash
  | leafProof root treeSize index _ _, request =>
    request.head? = some ClientCommandCode.getMerkleLeafProof.toByte ∧
      ByteStreamParser.parse ClientCommandInterpreter.getMerkleLeafProofRequest request =
        .ok (root, treeSize, index)
  | leafIndex root leafHash _, request =>
    root.length = 32 ∧ leafHash.length = 32 ∧
      request = ClientCommandCode.getMerkleLeafIndex.toByte :: (root ++ leafHash)
  | more _, request => request = [ClientCommandCode.getMoreElements.toByte]

/-- The bytes of the answer. -/
def response : Event → Bytes
  | yield _ => []
  | preimage _ value =>
    serCompactSize value.length ++ [UInt8.ofNat (payloadSize value)] ++ value.take (payloadSize value)
  | leafProof _ _ _ leaf proof =>
    leaf.val ++ [UInt8.ofNat proof.length] ++ [UInt8.ofNat (min 6 proof.length)] ++
      (proof.take (min 6 proof.length)).flatMap Subtype.val
  | leafIndex _ _ (some index) => [1] ++ serCompactSize index
  | leafIndex _ _ none => [0] ++ serCompactSize 0
  | more elements =>
    [UInt8.ofNat elements.length] ++ [UInt8.ofNat ((elements.head?.map List.length).getD 0)] ++
      elements.flatten

/-- What does not fit into the answer and is kept for later. -/
def leftover : Event → List Bytes
  | preimage _ value => (value.drop (payloadSize value)).map fun b => [b]
  | leafProof _ _ _ _ proof => (proof.drop (min 6 proof.length)).map Subtype.val
  | yield _ | leafIndex _ _ _ | more _ => []

/-- What the answer holds of what was kept. -/
def delivered : Event → List Bytes
  | more elements => elements
  | yield _ | preimage _ _ | leafProof _ _ _ _ _ | leafIndex _ _ _ => []

def yielded : Event → List Bytes
  | yield data => [data]
  | preimage _ _ | leafProof _ _ _ _ _ | leafIndex _ _ _ | more _ => []

/-- The answer is true of the preimages and the lists that the client was told. -/
def TrueOf (R : Runtime) (preimages : List Bytes) (lists : List (List Bytes)) : Event → Prop
  | preimage hash value => value ∈ preimages ∧ R.sha256 value = hash
  | leafProof root treeSize index leaf proof => ∃ elements ∈ lists,
    (listTree R elements).root = root ∧ elements.length = treeSize ∧
      (∃ element, elements[index]? = some element ∧ elementDigest R element = leaf) ∧
      MerkleTree.ProvesLeaf R root treeSize index leaf proof
  | leafIndex root leafHash index => ∃ elements ∈ lists,
    (listTree R elements).root = root ∧
      (elements.map (elementHash R)).findIdx? (fun h => h = leafHash) = index
  | yield _ | more _ => True

/-- The event is what happens to a client that answers a request. -/
structure Answers (event : Event) (request response : Bytes) (client client' : ClientCommandInterpreter) :
    Prop where
  asked : event.Asked request
  response_eq : event.response = response
  preimages_eq : client'.knownPreimages = client.knownPreimages
  trees_eq : client'.knownTrees = client.knownTrees
  yielded_eq : client'.yielded = client.yielded ++ event.yielded
  /-- The queue is a queue. -/
  queue_eq : event.delivered ++ client'.queue = client.queue ++ event.leftover

end Event

/-- What a client is told before it makes a request. -/
inductive Knowledge
  | preimage (element : Bytes)
  | list (elements : List Bytes)
  | mapping (items : Dict Bytes Bytes)

namespace Knowledge

def lists : Knowledge → List (List Bytes)
  | preimage _ => []
  | list elements => [elements]
  | mapping items => [(itemsSorted items).map Prod.fst, (itemsSorted items).map Prod.snd]

def preimages : Knowledge → List Bytes
  | preimage element => [element]
  | list elements => elements.map (0x00 :: ·)
  | mapping items =>
    ((itemsSorted items).map Prod.fst).map (0x00 :: ·) ++
      ((itemsSorted items).map Prod.snd).map (0x00 :: ·)

end Knowledge

namespace ClientCommandInterpreter

def learn (R : Runtime) (self : ClientCommandInterpreter) : Knowledge → ClientCommandInterpreter
  | .preimage element => self.addKnownPreimage R element
  | .list elements => self.addKnownList R elements
  | .mapping items => self.addKnownMapping R items

/-- A new client that is told some things one after the other. -/
def told (R : Runtime) (knowledge : List Knowledge) : ClientCommandInterpreter :=
  knowledge.foldl (learn R) new

end ClientCommandInterpreter

end LedgerBitcoin

end Hwi
