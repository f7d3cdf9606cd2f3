import Hwi.Spec.ClientCommand
import Hwi.Spec.Ledger

/-! The requests of `client.py` and `command_builder.py` of `ledger_bitcoin` that the
device may interrupt: the loop over its replies, what the client is told, and the data
of the APDUs. -/

namespace Hwi

namespace LedgerBitcoin

namespace NewClient

open ClientCommandInterpreter in
/-- The loop of `_make_request` over the status words and data that the device replies
one after the other: what it asked and was answered, and its last reply if that has
come. -/
def makeRequest : List (ℕ × Bytes) →
    Procedure Exc ClientCommandInterpreter (List (Bytes × Bytes) × Option (ℕ × Bytes))
  | [] => return ([], none)
  | reply :: replies => do
    if reply.1 ≠ 0xE000 then return ([], some reply)
    let commandResponse ← execute reply.2
    let rest ← makeRequest replies
    return ((reply.2, commandResponse) :: rest.1, rest.2)

/-! ### What the client is told -/

/-- What the client is told of the wallet before `get_wallet_address` and `sign_psbt`. -/
def walletClient (R : Runtime) (wallet : WalletPolicy) : Except Exc ClientCommandInterpreter := do
  let client := ClientCommandInterpreter.new.addKnownList R (wallet.keysInfo.map utf8)
  let serialized ← wallet.serialize R
  let client := client.addKnownPreimage R serialized
  return client.addKnownPreimage R (utf8 wallet.descriptorTemplate)

/-- `parse_stream_to_map` -/
def parseStreamToMap (R : Runtime) : Read (Dict Bytes Bytes) := fun f =>
  readLoop (nextKey R) (fun key _ result => do
    let value ← deserString R
    return result.set key value) (f.length + 1) ∅ [] f

/-- The maps of a PSBT. -/
structure MapsOf where
  globalMap : Dict Bytes Bytes
  inputMaps : List (Dict Bytes Bytes)
  outputMaps : List (Dict Bytes Bytes)

def MapsOf.all (maps : MapsOf) : List (Dict Bytes Bytes) :=
  maps.globalMap :: (maps.inputMaps ++ maps.outputMaps)

/-- The maps that `sign_psbt` parses from the bytes of the PSBT. -/
def parseMaps (R : Runtime) (nInputs nOutputs : ℕ) : Read MapsOf := do
  let magic ← read 5
  if magic ≠ PSBT.magic then throw .assertionError
  let globalMap ← parseStreamToMap R
  let inputMaps ← Reader.readN (parseStreamToMap R) nInputs
  let outputMaps ← Reader.readN (parseStreamToMap R) nOutputs
  return { globalMap, inputMaps, outputMaps }

/-- What the client is told before `sign_psbt`. -/
def signPsbtClient (R : Runtime) (maps : MapsOf) (wallet : WalletPolicy) :
    Except Exc ClientCommandInterpreter := do
  let client ← walletClient R wallet
  let client := client.addKnownMapping R maps.globalMap
  let client := maps.inputMaps.foldl (fun client m => client.addKnownMapping R m) client
  let client := maps.outputMaps.foldl (fun client m => client.addKnownMapping R m) client
  let inputCommitments := maps.inputMaps.map (getMerkleizedMapCommitment R)
  let outputCommitments := maps.outputMaps.map (getMerkleizedMapCommitment R)
  return (client.addKnownList R inputCommitments).addKnownList R outputCommitments

/-! ### The data of the APDUs -/

/-- `wallet_hmac if wallet_hmac is not None else b'\0' * 32` -/
def hmacOrZeros (walletHmac : Option Bytes) : Bytes := walletHmac.getD (List.replicate 32 0)

def signPsbtData (R : Runtime) (maps : MapsOf) (wallet : WalletPolicy) (walletHmac : Option Bytes) :
    Except Exc Bytes := do
  let walletId ← wallet.id R
  return getMerkleizedMapCommitment R maps.globalMap ++
    (serCompactSize maps.inputMaps.length ++
      (MerkleTree.new R (maps.inputMaps.map fun m =>
        elementDigest R (getMerkleizedMapCommitment R m))).root) ++
    (serCompactSize maps.outputMaps.length ++
      (MerkleTree.new R (maps.outputMaps.map fun m =>
        elementDigest R (getMerkleizedMapCommitment R m))).root) ++
    walletId ++ hmacOrZeros walletHmac

end NewClient

end LedgerBitcoin

end Hwi
