import Hwi.Lib.Alphabet
import Hwi.Lib.Base64
import Hwi.Lib.Cut
import Hwi.Lib.Dialogue
import Hwi.Lib.Dict
import Hwi.Lib.Digits
import Hwi.Lib.Fault
import Hwi.Lib.FieldStore
import Hwi.Lib.HashTree
import Hwi.Lib.Indexed
import Hwi.Lib.Intern
import Hwi.Lib.LastWrite
import Hwi.Lib.LeafTree
import Hwi.Lib.Limited
import Hwi.Lib.LittleEndian
import Hwi.Lib.Outcome
import Hwi.Lib.Primality
import Hwi.Lib.Procedure
import Hwi.Lib.Result
import Hwi.Lib.ShiftRegister
import Hwi.Lib.Spelling
import Hwi.Lib.Stream
import Hwi.Spec.Base58
import Hwi.Spec.Bech32
import Hwi.Spec.Bitbox02
import Hwi.Spec.Bitbox02Sign
import Hwi.Spec.ClientCommand
import Hwi.Spec.Commands
import Hwi.Spec.Common
import Hwi.Spec.Dbb
import Hwi.Spec.DbbFrame
import Hwi.Spec.Derive
import Hwi.Spec.DerivePub
import Hwi.Spec.Descriptor
import Hwi.Spec.DigitalBitbox
import Hwi.Spec.ExtendedKey
import Hwi.Spec.Json
import Hwi.Spec.KeyOrigin
import Hwi.Spec.Ledger
import Hwi.Spec.LedgerClient
import Hwi.Spec.LedgerDisplay
import Hwi.Spec.LedgerWallet
import Hwi.Spec.Merkle
import Hwi.Spec.Path
import Hwi.Spec.Protobuf
import Hwi.Spec.Psbt
import Hwi.Spec.PsbtInput
import Hwi.Spec.PsbtOutput
import Hwi.Spec.PsbtVersion
import Hwi.Spec.RegisteredDescriptor
import Hwi.Spec.Script
import Hwi.Spec.Serialize
import Hwi.Spec.Signed
import Hwi.Spec.Trezor
import Hwi.Spec.TrezorSignTx
import Hwi.Spec.TrezorTransport
import Hwi.Spec.Tx
import Hwi.Format.Bitbox02
import Hwi.Format.Bitbox02Account
import Hwi.Format.ClientCommand
import Hwi.Format.Dbb
import Hwi.Format.DbbFrame
import Hwi.Format.Der
import Hwi.Format.Derivation
import Hwi.Format.Descriptor
import Hwi.Format.DigitalBitbox
import Hwi.Format.Global
import Hwi.Format.Input
import Hwi.Format.Ledger
import Hwi.Format.Multisig
import Hwi.Format.Output
import Hwi.Format.Protobuf
import Hwi.Format.Psbt
import Hwi.Format.Rules
import Hwi.Format.Script
import Hwi.Format.Serialize
import Hwi.Format.Sighash
import Hwi.Format.Signed
import Hwi.Format.Spelling
import Hwi.Format.Spend
import Hwi.Format.Template
import Hwi.Format.Trezor
import Hwi.Format.TrezorOutput
import Hwi.Format.TrezorRequest
import Hwi.Format.TrezorSignTx
import Hwi.Format.Tx
import Hwi.Proofs.Accepted
import Hwi.Proofs.Base58
import Hwi.Proofs.Bech32
import Hwi.Proofs.Bitbox02
import Hwi.Proofs.Bitbox02Account
import Hwi.Proofs.Bitbox02Config
import Hwi.Proofs.Bitbox02Display
import Hwi.Proofs.Bitbox02Loops
import Hwi.Proofs.Bitbox02Policy
import Hwi.Proofs.Bitbox02Sign
import Hwi.Proofs.Breaks
import Hwi.Proofs.Checksum
import Hwi.Proofs.ClientCommand
import Hwi.Proofs.ClientFetch
import Hwi.Proofs.Commands
import Hwi.Proofs.Curve
import Hwi.Proofs.Dbb
import Hwi.Proofs.DbbCall
import Hwi.Proofs.DbbFrame
import Hwi.Proofs.DbbHashes
import Hwi.Proofs.DbbMessage
import Hwi.Proofs.DbbReply
import Hwi.Proofs.Der
import Hwi.Proofs.Derivation
import Hwi.Proofs.Derive
import Hwi.Proofs.DerivePub
import Hwi.Proofs.Descriptor
import Hwi.Proofs.DescriptorText
import Hwi.Proofs.DigitalBitbox
import Hwi.Proofs.Downgrade
import Hwi.Proofs.ExtendedKey
import Hwi.Proofs.Fault
import Hwi.Proofs.Field
import Hwi.Proofs.Framing
import Hwi.Proofs.Global
import Hwi.Proofs.GlobalRules
import Hwi.Proofs.Input
import Hwi.Proofs.InputRules
import Hwi.Proofs.Ledger
import Hwi.Proofs.LedgerClient
import Hwi.Proofs.LedgerDisplay
import Hwi.Proofs.LedgerMultisig
import Hwi.Proofs.LedgerSign
import Hwi.Proofs.LockTime
import Hwi.Proofs.Malformed
import Hwi.Proofs.Matches
import Hwi.Proofs.Merkle
import Hwi.Proofs.MerkleProof
import Hwi.Proofs.Multisig
import Hwi.Proofs.Output
import Hwi.Proofs.OutputRules
import Hwi.Proofs.Path
import Hwi.Proofs.PathIndex
import Hwi.Proofs.PathText
import Hwi.Proofs.PointBytes
import Hwi.Proofs.Printed
import Hwi.Proofs.Protobuf
import Hwi.Proofs.ProtobufDump
import Hwi.Proofs.ProtobufRead
import Hwi.Proofs.ProtobufRounds
import Hwi.Proofs.Psbt
import Hwi.Proofs.PsbtCanonical
import Hwi.Proofs.PsbtObject
import Hwi.Proofs.PsbtRead
import Hwi.Proofs.PsbtWrite
import Hwi.Proofs.RecordMap
import Hwi.Proofs.RegisteredDescriptor
import Hwi.Proofs.Rules
import Hwi.Proofs.Serialize
import Hwi.Proofs.Sighash
import Hwi.Proofs.Signed
import Hwi.Proofs.Spelling
import Hwi.Proofs.Template
import Hwi.Proofs.TreeText
import Hwi.Proofs.Trezor
import Hwi.Proofs.TrezorInput
import Hwi.Proofs.TrezorOutput
import Hwi.Proofs.TrezorPasses
import Hwi.Proofs.TrezorRequest
import Hwi.Proofs.TrezorSign
import Hwi.Proofs.TrezorSignStream
import Hwi.Proofs.TrezorSignTx
import Hwi.Proofs.TrezorTransport
import Hwi.Proofs.Tx
import Hwi.Proofs.UnsignedTx
import Hwi.Proofs.Values
