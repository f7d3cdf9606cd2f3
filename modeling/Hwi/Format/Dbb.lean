import Hwi.Format.DigitalBitbox
import Hwi.Proofs.ExtendedKey

/-! What it means that a call of the Digital Bitbox loses no failure, and the replies and
PSBTs with which it loses none. -/

namespace Hwi

open DigitalbitboxClient (Hashable SighashTuple addSig signCommand sighashTuples)

namespace Dbb

/-! ### Failures -/

/-- The codes `digitalbitbox_exception` has an error for. -/
def Listed (code : Code) : Prop :=
  code ∈ badArgs ∨ code ∈ deviceFailures ∨ code ∈ cancels ∨
    code = .number ERR_MEM_SETUP ∨ code = .text (str ERR_MEM_SETUP)

/-- A device error with such a code and a message. -/
def Translated (error : Json) : Prop :=
  (∃ msg, error.getItem "message" = .ok (.str msg)) ∧
    ((∃ n, error.getItem "code" = .ok (.int n) ∧ Listed (.number n)) ∨
      ∃ s, error.getItem "code" = .ok (.str s) ∧ Listed (.text s))

/-- The errors an operation reports, by the place of the reply. The first reply to
`setup_device` is asked for its code, the others there for their message. -/
def Operation.Reportable : Operation → ℕ → Json → Prop
  | .setupDevice _ _, 0, error => ∃ code, error.getItem "code" = .ok code
  | .setupDevice _ _, _ + 1, error | .wipeDevice, _, error =>
    ∃ msg, error.getItem "message" = .ok msg
  | .getPubkeyAtPath _, _, error | .signTx _, _, error | .signMessage _ _, _, error
  | .backupDevice _ _, _, error => Translated error

/-! ### Answers -/

/-- The bytes in front of the checksum of a key. -/
def KeyBytes (reply : Reply) (data : Bytes) : Prop :=
  ∃ xpub b, reply.get? "xpub" = some xpub ∧ xpub.decodeBase58 = .ok b ∧ data = b.take (b.length - 4)

/-- An answer with a key that is read. -/
def HasKey (reply : Reply) : Prop := ∃ data, KeyBytes reply data ∧ ExtendedKey.Readable data

/-- An answer with a key that is refused: one of another version, or not in base58. -/
def HasBadKey (reply : Reply) : Prop :=
  (∃ data, KeyBytes reply data ∧ data.take 4 ∉ ExtendedKey.versions) ∨
    ∃ xpub msg, reply.get? "xpub" = some xpub ∧ xpub.decodeBase58 = .error (.badArgumentError msg)

/-- The signature and the recovery id of an answer to `sign_message`. -/
def HasSignature (reply : Reply) (sig : Bytes) (recid : UInt8) : Prop :=
  ∃ sign item sigText recidText, reply.get? "sign" = some sign ∧ sign.first = .ok item ∧
    item.getItem "sig" = .ok (.str sigText) ∧ unhexlify sigText = .ok sig ∧
    item.getItem "recid" = .ok (.str recidText) ∧ unhexlify recidText = .ok [recid] ∧
    27 + 4 + recid.toNat < 256

/-- A signature with two numbers that are not zero. -/
def Signature (sig : Bytes) : Prop := (∃ c ∈ sig.take 32, c ≠ 0) ∧ ∃ c ∈ (sig.drop 32).take 32, c ≠ 0

/-- An answer to `sign_tx` of which each item has a signature. -/
def HasSignatures (reply : Reply) : Prop :=
  ∃ sign items, reply.get? "sign" = some sign ∧ sign.iter = .ok items ∧
    ∀ item ∈ items, ∃ text sig, item.getItem "sig" = .ok (.str text) ∧ unhexlify text = .ok sig ∧
      Signature sig

/-- The answers an operation can use, by the place of the reply. A hash is sent twice, and
signed by the second answer. -/
def Operation.Usable : Operation → ℕ → Reply → Prop
  | .getPubkeyAtPath _, _, reply | .signTx _, 0, reply => HasKey reply ∨ HasBadKey reply
  | .signTx _, k + 1, reply => k % 2 = 1 → HasSignatures reply
  | .signMessage _ _, 1, reply => ∃ sig recid, HasSignature reply sig recid
  | .signMessage _ _, _, _ | .setupDevice _ _, _, _ | .wipeDevice, _, _ | .backupDevice _ _, _, _ => True

/-- A reply that an operation either reports or can use. -/
def Operation.Fine (op : Operation) (k : ℕ) (reply : Reply) : Prop :=
  match reply.get? "error" with
  | some error => op.Reportable k error
  | none => op.Usable k reply

/-- A PSBT that gives a transaction, the inputs of which can be hashed where the device has
said which key it has. -/
def Signable (R : Runtime) (psbt : PSBT) (received : List (Command × Reply)) : Prop :=
  psbt.GivesTx ∧ ∀ x, received.head? = some x → x.2.get? "error" = none → HasKey x.2 →
    ∀ tx, psbt.getUnsignedTx R = .ok tx → Hashable tx psbt.inputs

/-- What a call must be given in order to lose nothing: by the device in each of its
replies, and by the caller in a PSBT to sign. -/
def Operation.Meets (R : Runtime) (psbt : PSBT) (op : Operation) (received : List (Command × Reply)) :
    Prop :=
  (∀ k x, received[k]? = some x → op.Fine k x.2) ∧ (op = .signTx false → Signable R psbt received)

/-! ### Results -/

/-- A command to sign some hashes, which is sent twice, its answers, and the signatures of
the second one. -/
structure Round where
  tups : List SighashTuple
  firstReply : Reply
  reply : Reply
  sigs : List Bytes

def Round.exchange (round : Round) : List (Command × Reply) :=
  [(.text (signCommand round.tups), round.firstReply), (.text (signCommand round.tups), round.reply)]

/-- Both answers are no failures, and the signatures are those of the second one. -/
structure Round.Answered (round : Round) : Prop where
  firstReply : round.firstReply.get? "error" = none
  reply : round.reply.get? "error" = none
  sigs : derSigs round.reply = .ok round.sigs

/-- The PSBT with the signatures of some rounds. -/
def addRounds (psbt : PSBT) (rounds : List Round) : PSBT :=
  (rounds.flatMap fun round => round.tups.zip round.sigs).foldl (fun p x => addSig p x.1 x.2) psbt

/-- The signed PSBT: all hashes for the keys of the device have been sent, and the PSBT the
call was given has the signatures of the answers in it. -/
def Signed (R : Runtime) (c : Client) (psbt : PSBT) (s : State) : Prop :=
  ∃ keyReply xpub tx tx' rounds, psbt.getUnsignedTx R = .ok tx ∧
    keyReply.get? "error" = none ∧ replyXpub c keyReply = .ok xpub ∧
    (sighashTuples R xpub.parentFingerprint 0 psbt.inputs).run tx =
      .ok (rounds.flatMap Round.tups) tx' ∧
    s.received = (xpubCommand "m/0h".toList, keyReply) :: rounds.flatMap Round.exchange ∧
    (∀ round ∈ rounds, round.Answered) ∧
    s.psbt = addRounds (if psbt.version = 0 then { psbt with tx := tx' } else psbt) rounds

/-- The answer of a device that is not set up to the question what it is. -/
def Uninitialized (reply : Reply) : Prop :=
  ∃ error code, reply.get? "error" = some error ∧ error.getItem "code" = .ok code ∧
    isPasswordUnset code = true

/-- A value is derived from replies that are all no failures, the last of them the one it
is taken from. -/
def Operation.Delivers (R : Runtime) (c : Client) (psbt : PSBT) : Operation → Value → State → Prop
  | .getPubkeyAtPath path, .xpub xpub, s => ∃ reply, s.received = [(xpubCommand path, reply)] ∧
    reply.get? "error" = none ∧ replyXpub c reply = .ok xpub
  | .signTx _, .psbt, s => Signed R c psbt s
  | .signMessage message keypath, .signature signature, s => ∃ firstReply reply sig recid,
    s.received = [(signMessageCommand (R.hash256 (toHash message)) keypath, firstReply),
      (signMessageCommand (R.hash256 (toHash message)) keypath, reply)] ∧
    firstReply.get? "error" = none ∧ reply.get? "error" = none ∧ HasSignature reply sig recid ∧
    signature = b64encode (UInt8.ofNat (27 + 4 + recid.toNat) :: sig.take 64)
  | .setupDevice label passphrase, .done done, s => ∃ firstReply reply,
    s.received = [(infoCommand, firstReply),
      (.seed (c.stretchBackupKey passphrase) (formatBackupFilename c label), reply)] ∧
    Uninitialized firstReply ∧ reply.get? "error" = none ∧ done = true
  | .wipeDevice, .done done, s => ∃ reply, s.received = [(resetCommand, reply)] ∧
    reply.get? "error" = none ∧ done = true
  | .backupDevice label passphrase, .done done, s => ∃ reply,
    s.received = [(.backup (c.stretchBackupKey passphrase) (formatBackupFilename c label), reply)] ∧
    reply.get? "error" = none ∧ done = true
  | _, _, _ => False

/-- A call returns a value derived from a successful reply, or raises an `HWWError`. -/
def Operation.NothingLost (R : Runtime) (c : Client) (psbt : PSBT) (op : Operation) :
    EStateM.Result Raised State (Option Value) → Prop
  | .ok (some value) s => op.Delivers R c psbt value s
  | .ok none _ => False
  | .error e _ => e.isHWWError = true

/-- A device that gives one reply to everything. -/
def sampleClient (reply : Reply) : Client where
  chain := .main
  password := []
  stretchBackupKey s := s
  localtime := []
  reply _ := reply

/-- A reply with an error of the device. -/
def errorReply (code : Json) (msg : String) : Reply :=
  [("error".toList, .dict [("code".toList, code), ("message".toList, .str msg.toList)])]

end Dbb

end Hwi
