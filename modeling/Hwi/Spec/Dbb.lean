import Hwi.Spec.DigitalBitbox
import Hwi.Spec.Json
import Hwi.Spec.LedgerWallet

/-! The operations `digitalbitbox.py` puts under `digitalbitbox_exception`. A reply is the
dictionary `send_encrypt` returns, and the device answers the last message from all
messages sent so far. -/

namespace Hwi

open LedgerBitcoin (utf8)
open DigitalbitboxClient (Blanked SighashTuple addSig batches sighashTuples signCommand)

namespace Dbb

/-- The code of a device error, a number or a text. -/
inductive Code
  | number (n : ℤ)
  | text (s : Str)
deriving DecidableEq, Repr

/-- `codes.extend([str(x) for x in codes])` -/
def withTexts (codes : List ℕ) : List Code :=
  codes.map (fun x => .number x) ++ codes.map fun x => .text (str x)

def badArgs : List Code := withTexts DigitalbitboxClient.badArgs

def deviceFailures : List Code := withTexts DigitalbitboxClient.deviceFailures

def cancels : List Code := withTexts DigitalbitboxClient.cancels

def ERR_MEM_SETUP : ℤ := 503

/-- The fields of the dictionary that `send_encrypt` returns. Under `"error"` stands what
the device says, or a text of the driver where sending or reading raises. -/
abbrev Reply := List (Str × Json)

/-- `reply[key]`, if the key is in the reply. -/
def Reply.get? (reply : Reply) (key : String) : Option Json := reply.lookup key.toList

/-- A message: a text as it stands, or a dictionary that `json.dumps` writes. -/
inductive Command
  | text (s : Str)
  | password (password : Str)
  | seed (key filename : Str)
  | backup (key filename : Str)
deriving DecidableEq, Repr

/-- What a call raises. A `dbbError` holds what stands under `"error"` in the reply it is
raised for, and a `DeviceFailureError` that is raised at once any message. -/
inductive Raised
  | exc (e : Exc)
  | dbbError (error : Json)
  | deviceFailureError (msg : Json)
  | deviceAlreadyInitError (msg : String)
  | attributeError

def Raised.isHWWError : Raised → Bool
  | exc e => e.isHWWError
  | deviceFailureError _ | deviceAlreadyInitError _ => true
  | dbbError _ | attributeError => false

structure Client where
  chain : Chain
  password : Str
  /-- `stretch_backup_key`: the hex digits of a PBKDF2 key. -/
  stretchBackupKey : Str → Str
  /-- The local time a backup file is named after. -/
  localtime : Str
  reply : List Command → Reply

def messageMagic : Bytes := 0x18 :: utf8 "Bitcoin Signed Message:\n".toList

/-- The caller's PSBT, the messages sent, and the encrypted ones with their replies. -/
structure State where
  psbt : PSBT
  sent : List Command := []
  received : List (Command × Reply) := []

abbrev Method := Procedure Raised State

/-- A step of the call that has nothing to do with the device. -/
def run {α : Type} (r : Except Exc α) : Method α :=
  match r with
  | .ok a => pure a
  | .error e => throw (.exc e)

/-! ### Errors -/

/-- `get_code`, which asserts that the code is a number or a text. -/
def getCode (error : Json) : Except Exc Code := do
  match ← error.getItem "code" with
  | .int n => return .number n
  | .bool b => return .number b.toNat
  | .str s => return .text s
  | _ => throw .assertionError

/-- `get_error`, which asserts that the message is a text. -/
def getError (error : Json) : Except Exc String := do
  match ← error.getItem "message" with
  | .str s => return String.ofList s
  | _ => throw .assertionError

/-- What `digitalbitbox_exception` does with a `DBBError`. -/
def translate (error : Json) : Except Exc Unit := do
  let code ← getCode error
  if code ∈ badArgs then
    let msg ← getError error
    throw (.badArgumentError msg)
  else if code ∈ deviceFailures then
    let msg ← getError error
    throw (.deviceFailureError msg)
  else if code ∈ cancels then
    let msg ← getError error
    throw (.actionCanceledError msg)
  else if code = .number ERR_MEM_SETUP ∨ code = .text (str ERR_MEM_SETUP) then
    let msg ← getError error
    throw (.deviceNotReadyError msg)

/-- A call whose `DBBError` is not translated ends without a result. -/
def digitalbitboxException {α : Type} (f : Method α) : Method (Option α) := fun s =>
  match f s with
  | .ok a s => .ok (some a) s
  | .error (.dbbError error) s =>
    match translate error with
    | .ok () => .ok none s
    | .error e => .error (.exc e) s
  | .error e s => .error e s

/-! ### Messages -/

def sendEncrypt (c : Client) (command : Command) : Method Reply := do
  modify fun s => { s with sent := s.sent ++ [command] }
  let s ← get
  let reply := c.reply s.sent
  modify fun s => { s with received := s.received ++ [(command, reply)] }
  return reply

/-- `send_plain`; its only caller here does not look at the reply. -/
def sendPlain (command : Command) : Method Unit :=
  modify fun s => { s with sent := s.sent ++ [command] }

/-- `if 'error' in reply: raise DBBError(reply)` -/
def request (c : Client) (command : Command) : Method Reply := do
  let reply ← sendEncrypt c command
  match reply.get? "error" with
  | none => return reply
  | some error => throw (.dbbError error)

/-- The same where the message of an error is raised at once. -/
def requestOrFail (c : Client) (command : Command) : Method Reply := do
  let reply ← sendEncrypt c command
  match reply.get? "error" with
  | none => return reply
  | some error =>
    let msg ← run (error.getItem "message")
    throw (.deviceFailureError msg)

def infoCommand : Command := .text "\x7b\"device\" : \"info\"\x7d".toList

def resetCommand : Command := .text "\x7b\"reset\" : \"__ERASE__\"\x7d".toList

def xpubCommand (path : Str) : Command :=
  .text ("\x7b\"xpub\":\"".toList ++ path ++ "\"\x7d".toList)

def signMessageCommand (hashedMessage : Bytes) (keypath : Str) : Command :=
  .text ("\x7b\"sign\":\x7b\"data\":[\x7b\"hash\":\"".toList ++ hexlify hashedMessage ++
    "\",\"keypath\":\"".toList ++ keypath ++ "\"\x7d]\x7d\x7d".toList)

/-! ### Operations -/

/-- `ExtendedKey.deserialize(xpub)` -/
def deserializeXpub (xpub : Json) : Except Exc ExtendedKey := do
  let data ← xpub.decodeBase58
  ExtendedKey.fromBytes (data.take (data.length - 4))

/-- The key of a reply, with the version of a test network off the main one. -/
def replyXpub (c : Client) (reply : Reply) : Except Exc ExtendedKey := do
  let xpub ← (Json.dict reply).getItem "xpub"
  let xpub ← deserializeXpub xpub
  return if c.chain = .main then xpub else { xpub with version := ExtendedKey.TESTNET_PUBLIC }

def getPubkeyAtPathBody (c : Client) (path : Str) : Method ExtendedKey := do
  if '\'' ∉ path ∧ 'h' ∉ path ∧ 'H' ∉ path then
    throw (.exc (.badArgumentError
      "The digital bitbox requires one part of the derivation path to be derived using hardened keys"))
  let reply ← request c (xpubCommand path)
  run (replyXpub c reply)

def getPubkeyAtPath (c : Client) (path : Str) : Method (Option ExtendedKey) :=
  digitalbitboxException (getPubkeyAtPathBody c path)

/-- `self.get_pubkey_at_path("m/0h").parent_fingerprint` -/
def getMasterFingerprint (c : Client) : Method Bytes := do
  match ← getPubkeyAtPath c "m/0h".toList with
  | none => throw .attributeError
  | some xpub => return xpub.parentFingerprint

/-- Run a computation on the transaction of the PSBT, which is the object itself
in version 0 and a new one otherwise. -/
def onBlankTx {α : Type} (blankTx : CTransaction) (x : Blanked α) : Method α := fun s =>
  let keep (tx : CTransaction) : State :=
    if s.psbt.version = 0 then { s with psbt := { s.psbt with tx } } else s
  match x blankTx with
  | .ok a tx => .ok a (keep tx)
  | .error e tx => .error (.exc e) (keep tx)

/-- Extract sigs, make sigs der. -/
def derSigs (reply : Reply) : Except Exc (List Bytes) := do
  let sign ← (Json.dict reply).getItem "sign"
  let items ← sign.iter
  let sigs ← items.mapM fun item => do
    let sig ← item.getItem "sig"
    sig.unhexlify
  sigs.mapM fun sig => serSigDer (sig.take 32) ((sig.drop 32).take 32)

/-- Sign the sighashes of at most 15 tuples. -/
def signBatch (c : Client) (tups : List SighashTuple) : Method Unit := do
  let toSend := Command.text (signCommand tups)
  let _ ← request c toSend
  let reply ← request c toSend
  let sigs ← run (derSigs reply)
  -- add sigs to tx
  forM (tups.zip sigs) fun (tup, sig) => modify fun s => { s with psbt := addSig s.psbt tup sig }

/-- `sign_tx` once the registered descriptors are looked at. -/
def signBlankTx (R : Runtime) (c : Client) : Method Unit := do
  let s ← get
  -- Create a transaction with all scriptsigs blanked out
  let blankTx ← run (s.psbt.getUnsignedTx R)
  -- Get the master key fingerprint
  let masterFp ← getMasterFingerprint c
  let tups ← onBlankTx blankTx (sighashTuples R masterFp 0 s.psbt.inputs)
  forM (batches tups) (signBatch c)

def signTxBody (R : Runtime) (c : Client) (registeredDescriptors : Bool) : Method Unit := do
  if registeredDescriptors then
    throw (.exc (.unavailableActionError
      "The Digital Bitbox does not support BIP388 policy signing"))
  signBlankTx R c

/-- `sign_tx`: the PSBT is signed in place and returned. -/
def signTx (R : Runtime) (c : Client) (registeredDescriptors : Bool) : Method (Option Unit) :=
  digitalbitboxException (signTxBody R c registeredDescriptors)

/-- A `str` or a `bytes`. -/
inductive Message
  | text (s : Str)
  | bytes (b : Bytes)
deriving DecidableEq, Repr

def Message.len : Message → ℕ
  | .text s => s.length
  | .bytes b => b.length

/-- The message as it is appended. -/
def Message.encode : Message → Bytes
  | .text s => utf8 s
  | .bytes b => b

def toHash (message : Message) : Bytes :=
  messageMagic ++ serCompactSize message.len ++ message.encode

def serSigCompact (r s recid : Bytes) : Except Exc Bytes := do
  let recValue ← unpack 1 recid
  let head ← pack 1 (27 + 4 + recValue)
  return head ++ (r ++ s)

/-- `binascii.unhexlify(reply['sign'][0][key])` -/
def signField (reply : Reply) (key : String) : Except Exc Bytes := do
  let sign ← (Json.dict reply).getItem "sign"
  let item ← sign.first
  let value ← item.getItem key
  value.unhexlify

def compactSig (reply : Reply) : Except Exc Str := do
  let sig ← signField reply "sig"
  let recid ← signField reply "recid"
  let compact ← serSigCompact (sig.take 32) ((sig.drop 32).take 32) recid
  return b64encode compact

def signMessageBody (R : Runtime) (c : Client) (message : Message) (keypath : Str) : Method Str := do
  let toSend := signMessageCommand (R.hash256 (toHash message)) keypath
  let _ ← request c toSend
  let reply ← request c toSend
  run (compactSig reply)

def signMessage (R : Runtime) (c : Client) (message : Message) (keypath : Str) :
    Method (Option Str) :=
  digitalbitboxException (signMessageBody R c message keypath)

def formatBackupFilename (c : Client) (name : Str) : Str :=
  name ++ ['-'] ++ c.localtime ++ ".pdf".toList

/-- Whether the code is 101, as a number or as a text. -/
def isPasswordUnset : Json → Bool
  | .int n => n = 101
  | .float equals => equals = some 101
  | .str s => s = "101".toList
  | _ => false

/-- The device is not set up when it asks for a password. -/
def checkUninitialized (reply : Reply) : Except Raised Unit :=
  match reply.get? "error" with
  | none => .error (.deviceAlreadyInitError
      "Device is already initialized. Use wipe first and try again")
  | some error =>
    match error.getItem "code" with
    | .error e => .error (.exc e)
    | .ok code =>
      if isPasswordUnset code then .ok ()
      else .error (.deviceAlreadyInitError
        "Device is already initialized. Use wipe first and try again")

def setupDeviceBody (c : Client) (label passphrase : Str) : Method Bool := do
  -- Make sure this is not initialized
  let reply ← sendEncrypt c infoCommand
  Procedure.ofExcept (checkUninitialized reply)
  -- Need a wallet name and backup passphrase
  if label.isEmpty || passphrase.isEmpty then
    throw (.exc (.badArgumentError
      "The label and backup passphrase for a new Digital Bitbox wallet must be specified and cannot be empty"))
  -- Set password
  sendPlain (.password c.password)
  -- Now make the wallet
  let _ ← requestOrFail c (.seed (c.stretchBackupKey passphrase) (formatBackupFilename c label))
  return true

def setupDevice (c : Client) (label passphrase : Str) : Method (Option Bool) :=
  digitalbitboxException (setupDeviceBody c label passphrase)

def wipeDeviceBody (c : Client) : Method Bool := do
  let _ ← requestOrFail c resetCommand
  return true

def wipeDevice (c : Client) : Method (Option Bool) := digitalbitboxException (wipeDeviceBody c)

def backupDeviceBody (c : Client) (label passphrase : Str) : Method Bool := do
  -- Need a wallet name and backup passphrase
  if label.isEmpty || passphrase.isEmpty then
    throw (.exc (.badArgumentError
      "The label and backup passphrase for a Digital Bitbox backup must be specified and cannot be empty"))
  let _ ← request c (.backup (c.stretchBackupKey passphrase) (formatBackupFilename c label))
  return true

def backupDevice (c : Client) (label passphrase : Str) : Method (Option Bool) :=
  digitalbitboxException (backupDeviceBody c label passphrase)

/-- The operations under `digitalbitbox_exception`, with their arguments. -/
inductive Operation
  | getPubkeyAtPath (path : Str)
  | signTx (registeredDescriptors : Bool)
  | signMessage (message : Message) (keypath : Str)
  | setupDevice (label passphrase : Str)
  | wipeDevice
  | backupDevice (label passphrase : Str)
deriving DecidableEq, Repr

/-- What an operation returns; a signed PSBT is that of the state. -/
inductive Value
  | xpub (xpub : ExtendedKey)
  | psbt
  | signature (s : Str)
  | done (b : Bool)
deriving DecidableEq

def Operation.call (R : Runtime) (c : Client) : Operation → Method (Option Value)
  | .getPubkeyAtPath path => do
    let xpub ← Dbb.getPubkeyAtPath c path
    return xpub.map .xpub
  | .signTx registeredDescriptors => do
    let signed ← Dbb.signTx R c registeredDescriptors
    return signed.map fun _ => .psbt
  | .signMessage message keypath => do
    let signature ← Dbb.signMessage R c message keypath
    return signature.map .signature
  | .setupDevice label passphrase => do
    let done ← Dbb.setupDevice c label passphrase
    return done.map .done
  | .wipeDevice => do
    let done ← Dbb.wipeDevice c
    return done.map .done
  | .backupDevice label passphrase => do
    let done ← Dbb.backupDevice c label passphrase
    return done.map .done

end Dbb

end Hwi
