import Hwi.Lib.Dict
import Hwi.Lib.Procedure
import Hwi.Spec.Descriptor

/-! `getdescriptor` of `commands.py`. -/

namespace Hwi

/-- What `getdescriptor` uses of a client. The device answers a path with the text of a
key, from the answers it gave before; every text in the cache is such an answer to its
path. -/
structure HardwareWalletClient where
  chain : Chain
  xpubCache : Dict Str Str
  canSignTaproot : Bool
  device : List (Str × Str) → Str → Except Exc Str
  answers : List (Str × Str)
  cached : ∀ path xpub, xpubCache.get? path = some xpub → (path, xpub) ∈ answers

namespace HardwareWalletClient

theorem cached_set {client : HardwareWalletClient} {pathBase xpub path xpub' : Str}
    (h : (client.xpubCache.set pathBase xpub).get? path = some xpub') :
    (path, xpub') ∈ client.answers ++ [(pathBase, xpub)] := by
  rw [Dict.get?_set] at h
  split_ifs at h with hpath
  · cases h
    rw [hpath]
    exact List.mem_append_right _ List.mem_cons_self
  · exact List.mem_append_left _ (client.cached path xpub' h)

/-- The client with an answer in its cache. -/
def remember (client : HardwareWalletClient) (pathBase xpub : Str) : HardwareWalletClient :=
  { client with
    xpubCache := client.xpubCache.set pathBase xpub
    answers := client.answers ++ [(pathBase, xpub)]
    cached := fun _ _ h => cached_set h }

end HardwareWalletClient

abbrev ClientMethod := Procedure Exc HardwareWalletClient

/-- `get_pubkey_at_path(path_base).to_string()`, unless it is in the cache. -/
def cachedXpub (pathBase : Str) : ClientMethod Str := do
  let client ← get
  match client.xpubCache.get? pathBase with
  | some xpub => return xpub
  | none =>
    let xpub ← Procedure.ofExcept (client.device client.answers pathBase)
    set (client.remember pathBase xpub)
    return xpub

/-- The path of the arguments, without the last step. -/
def targetPath (chain : Chain) (path : Option Str) (internal : Bool) (addrType : AddressType)
    (account : ℤ) : Except Exc (List ℤ) :=
  match path with
  | none | some [] =>
    .ok [harden (getBip44Purpose addrType), harden (getBip44Chain chain), harden account,
      if internal then 1 else 0]
  | some path =>
    if path.head? ≠ some 'm' then .error (.badArgumentError "Path must start with m/")
    else if path.getLast? ≠ some '*' then .error (.badArgumentError "Path must end with /*")
    else parsePath path.dropLast.dropLast

/-- The loop that looks for the last hardened step: the loop variable after it, over
what is left of the reversed path, and the value the variable has so far. -/
def loopIndex : List ℤ → ℕ → Option ℕ → Option ℕ
  | [], _, i => i
  | p :: ps, i, _ => if isHardened p then some i else loopIndex ps (i - 1) (some i)

/-- `i` after `i += 1`, which raises `UnboundLocalError` if the loop did not run. -/
def originLength (parsedPath : List ℤ) : Except Exc ℕ :=
  match loopIndex parsedPath.reverse (parsedPath.length - 1) none with
  | some i => .ok (i + 1)
  | none => .error (.exception
      "cannot access local variable 'i' where it is not associated with a value")

/-- The descriptor of a key for an address type. -/
def descriptorOf (addrType : AddressType) (pubkey : PubkeyProvider) : ClientMethod Descriptor :=
  match addrType with
  | .legacy => return .pkh pubkey
  | .shWit => return .sh (.wpkh pubkey)
  | .wit => return .wpkh pubkey
  | .tap => do
    let client ← get
    if !client.canSignTaproot then throw (.unavailableActionError "Device does not support Taproot")
    return .tr pubkey [] []

/-- Get a descriptor from the client. -/
def getdescriptor (masterFpr : Bytes) (path : Option Str) (internal : Bool) (addrType : AddressType)
    (account : ℤ) : ClientMethod Descriptor := do
  let client ← get
  let parsedPath ← Procedure.ofExcept (targetPath client.chain path internal addrType account)
  -- Find the last hardened derivation
  let i ← Procedure.ofExcept (originLength parsedPath)
  let origin : KeyOriginInfo := { fingerprint := masterFpr, path := parsedPath.take i }
  let pathSuffix := (parsedPath.drop i).map fun p => [p]
  -- Get the key at the base
  let xpub ← cachedXpub origin.getDerivationPath
  let pubkey ← Procedure.ofExcept (PubkeyProvider.new (some origin) xpub (some pathSuffix) 0 true)
  descriptorOf addrType pubkey

end Hwi
