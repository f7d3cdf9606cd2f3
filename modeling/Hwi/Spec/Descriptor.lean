import Hwi.Spec.Path

/-! Output script descriptors of `descriptor.py`: key expressions, printing,
parsing, and the wallet policies of BIP 388. -/

namespace Hwi

/-! ### Checksums -/

/-- The modulo over the polynomial of the checksum. -/
def polyMod (c val : ℕ) : ℕ :=
  let c0 := c >>> 35
  let c := ((c &&& 0x7ffffffff) <<< 5) ^^^ val
  let c := if c0 &&& 1 ≠ 0 then c ^^^ 0xf5dee51989 else c
  let c := if c0 &&& 2 ≠ 0 then c ^^^ 0xa9fdca3312 else c
  let c := if c0 &&& 4 ≠ 0 then c ^^^ 0x1bab10e32d else c
  let c := if c0 &&& 8 ≠ 0 then c ^^^ 0x3706b1677a else c
  if c0 &&& 16 ≠ 0 then c ^^^ 0x644d626ffd else c

def INPUT_CHARSET : Str :=
  "0123456789()[],'/*abcdefgh@:$%\x7b\x7dIJKLMNOPQRSTUVWXYZ&+-.;<=>?!^_|~ijklmnopqrstuvwxyzABCDEFGH`#\"\\ ".toList

def CHECKSUM_CHARSET : Str := "qpzry9x8gf2tvdw0s3jn54khce6mua7l".toList

/-- The loop of `DescriptorChecksum` over the characters. -/
def checksumLoop : Str → ℕ → ℕ → ℕ → Option ℕ
  | [], c, cls, clscount => some (if 0 < clscount then polyMod c cls else c)
  | ch :: desc, c, cls, clscount =>
    match INPUT_CHARSET.idxOf? ch with
    | none => none
    | some pos =>
      let c := polyMod c (pos &&& 31)
      let cls := cls * 3 + (pos >>> 5)
      if clscount + 1 = 3 then checksumLoop desc (polyMod c cls) 0 0
      else checksumLoop desc c cls (clscount + 1)

/-- The checksum of a descriptor, nothing when a character has no number. -/
def descriptorChecksum (desc : Str) : Str :=
  match checksumLoop desc 1 0 0 with
  | none => []
  | some c =>
    let c := (fun c => polyMod c 0)^[8] c ^^^ 1
    (List.range 8).map fun j => CHECKSUM_CHARSET.getD ((c >>> (5 * (7 - j))) &&& 31) 'q'

def addChecksum (desc : Str) : Str := desc ++ ['#'] ++ descriptorChecksum desc

/-! ### Key expressions -/

/-- A public key expression in a descriptor. The extended key is that of a key
which is not hexadecimal. -/
structure PubkeyProvider where
  origin : Option KeyOriginInfo
  pubkey : Str
  derivPath : Option (List (List ℤ))
  exprIndex : ℕ
  ranged : Bool
  extkey : Option ExtendedKey
deriving DecidableEq, Repr

namespace PubkeyProvider

/-- The constructor. -/
def new (origin : Option KeyOriginInfo) (pubkey : Str) (derivPath : Option (List (List ℤ)))
    (exprIndex : ℕ) (ranged : Bool) : Except Exc PubkeyProvider := do
  match unhexlify pubkey with
  | .ok _ => return { origin, pubkey, derivPath, exprIndex, ranged, extkey := none }
  | .error _ =>
    let extkey ← ExtendedKey.deserialize pubkey
    return { origin, pubkey, derivPath, exprIndex, ranged, extkey := some extkey }

/-- The field `multipath_len`, which always follows from the path. -/
def multipathLen (self : PubkeyProvider) : ℕ :=
  match self.derivPath with
  | some (p :: ps) => ((p :: ps).map List.length).foldr max 0
  | _ => 1

/-- The origin in brackets, if there is one, and the rest. -/
def parseOrigin : Str → Except Exc (Option KeyOriginInfo × Str)
  | [] => .error .indexError
  | '[' :: s =>
    match cut ']' s with
    | none => .error (.valueError "substring not found")
    | some (origin, s) => do
      let origin ← KeyOriginInfo.fromString origin
      return (some origin, s)
  | s => .ok (none, s)

/-- The key, its path, and whether it is ranged. -/
def parseKeyPath (s : Str) : Except Exc (Str × Option (List (List ℤ)) × Bool) :=
  match cut '/' s with
  | none => .ok (s, none, false)
  | some (pubkey, pathStr) =>
    let ranged : Bool := pathStr.getLast? = some '*'
    let pathStr := if ranged then pathStr.dropLast.dropLast else pathStr
    if pathStr = [] then .ok (pubkey, none, ranged)
    else do
      let derivPath ← parseMultipath pathStr
      return (pubkey, some derivPath, ranged)

/-- Deserialize a key expression. -/
def parse (s : Str) (keyExprIndex : ℕ) : Except Exc PubkeyProvider := do
  let (origin, s) ← parseOrigin s
  let (pubkey, derivPath, ranged) ← parseKeyPath s
  new origin pubkey derivPath keyExprIndex ranged

/-- `"[{}]".format(self.origin.to_string(hardened_char))`, nothing without an origin. -/
def originString (self : PubkeyProvider) (hardenedChar : Char) : Str :=
  match self.origin with
  | some origin => ['['] ++ origin.toString hardenedChar ++ [']']
  | none => []

/-- What follows the key: its path, and the last step of a ranged one. -/
def pathString (self : PubkeyProvider) (hardenedChar : Char) : Str :=
  (match self.derivPath with
    | some derivPath => multipathToString derivPath hardenedChar
    | none => []) ++
  if self.ranged then ['/', '*'] else []

def toString (self : PubkeyProvider) (hardenedChar : Char) : Str :=
  self.originString hardenedChar ++ self.pubkey ++ self.pathString hardenedChar

def getDerivPath (self : PubkeyProvider) (pos : ℤ) (multipathPos : ℕ) : Except Exc (List ℤ) := do
  let path ← (self.derivPath.getD []).mapM fun p => match p with
    | [i] => .ok i
    | p => match p[multipathPos]? with
      | some i => .ok i
      | none => .error .indexError
  return path ++ if self.ranged then [pos] else []

/-- The path at a position, including the origin. -/
def getFullDerivationPath (self : PubkeyProvider) (pos : ℤ) (multipathPos : ℕ) : Except Exc Str := do
  let path := match self.origin with
    | some origin => origin.getDerivationPath
    | none => ['m', '/']
  let derivPath ← match self.derivPath with
    | some (_ :: _) => do
      let derivPath ← self.getDerivPath pos multipathPos
      pure (pathToString derivPath 'h')
    | _ => pure []
  return path ++ derivPath ++ if self.ranged then str pos else []

/-- The key placeholder of a wallet policy. -/
def getBip388Placeholder (self : PubkeyProvider) : Except Exc Str := do
  if !self.ranged then throw (.invalidPolicyError "BIP 388 requires all pubkeys to be ranged")
  if 2 < self.multipathLen then
    throw (.invalidPolicyError "BIP 388 requires all multipath specifiers to be exactly 2 elements")
  return ['@'] ++ str self.exprIndex ++ self.pathString '\''

/-- An entry of the key information vector of a wallet policy. -/
def getBip388KeyInfo (self : PubkeyProvider) : Str := self.originString '\'' ++ self.pubkey

end PubkeyProvider

/-! ### Descriptors -/

structure MultisigDescriptor where
  pubkeys : List PubkeyProvider
  thresh : ℤ
  isSorted : Bool
deriving DecidableEq, Repr

/-- A descriptor, by its class. -/
inductive Descriptor
  | pk (pubkey : PubkeyProvider)
  | pkh (pubkey : PubkeyProvider)
  | wpkh (pubkey : PubkeyProvider)
  | multisig (descriptor : MultisigDescriptor)
  | sh (subdescriptor : Descriptor)
  | wsh (subdescriptor : Descriptor)
  | tr (internalKey : PubkeyProvider) (subdescriptors : List Descriptor) (depths : List ℕ)
deriving Repr

/-- The loop that opens braces: the path holds left or right for each depth, the
deepest first, and the root of the tree has no brace. -/
def openBraces : ℕ → List Bool → Str × List Bool
  | 0, path => ([], path)
  | n + 1, path =>
    let (r, path') := openBraces n (false :: path)
    (if 0 < path.length then '{' :: r else r, path')

/-- The loop that closes braces after a right branch. -/
def closeBraces : List Bool → Str × List Bool
  | true :: path =>
    let (r, path') := closeBraces path
    ('}' :: r, path')
  | path => ([], path)

/-- The last step of the path becomes a right branch. -/
def turnRight : List Bool → List Bool
  | _ :: path => true :: path
  | [] => []

/-- The leaves of a tree with their depths. -/
def treeString : List (Str × ℕ) → List Bool → Str
  | [], _ => []
  | (leaf, depth) :: leaves, path =>
    let (opened, path) := openBraces (depth + 1 - path.length) path
    let (closed, path) := closeBraces path
    [','] ++ opened ++ leaf ++ closed ++ treeString leaves (turnRight path)

/-- `"{}({})".format(name, body)` -/
def funcString (name : String) (body : Str) : Str := name.toList ++ ['('] ++ body ++ [')']

namespace MultisigDescriptor

def name (self : MultisigDescriptor) : String := if self.isSorted then "sortedmulti" else "multi"

def toStringNoChecksum (self : MultisigDescriptor) (hardenedChar : Char) : Str :=
  funcString self.name (str self.thresh ++ [','] ++
    List.intercalate [','] (self.pubkeys.map fun p => p.toString hardenedChar))

def getBip388Template (self : MultisigDescriptor) : Except Exc Str := do
  let placeholders ← self.pubkeys.mapM PubkeyProvider.getBip388Placeholder
  return funcString self.name (str self.thresh ++ [','] ++ List.intercalate [','] placeholders)

end MultisigDescriptor

namespace Descriptor

/-- The keys of the descriptor itself. -/
def pubkeys : Descriptor → List PubkeyProvider
  | pk p | pkh p | wpkh p | tr p _ _ => [p]
  | multisig d => d.pubkeys
  | sh _ | wsh _ => []

def subdescriptors : Descriptor → List Descriptor
  | sh d | wsh d => [d]
  | tr _ ds _ => ds
  | _ => []

mutual

/-- The descriptor without its checksum. -/
def toStringNoChecksum (hardenedChar : Char) : Descriptor → Str
  | pk p => funcString "pk" (p.toString hardenedChar)
  | pkh p => funcString "pkh" (p.toString hardenedChar)
  | wpkh p => funcString "wpkh" (p.toString hardenedChar)
  | multisig d => d.toStringNoChecksum hardenedChar
  | sh d => funcString "sh" (toStringNoChecksum hardenedChar d)
  | wsh d => funcString "wsh" (toStringNoChecksum hardenedChar d)
  | tr p ds depths => funcString "tr" (p.toString hardenedChar ++
      treeString ((toStringsNoChecksum hardenedChar ds).zip depths) [])

def toStringsNoChecksum (hardenedChar : Char) : List Descriptor → List Str
  | [] => []
  | d :: ds => toStringNoChecksum hardenedChar d :: toStringsNoChecksum hardenedChar ds

end

def toString (self : Descriptor) : Str := addChecksum (self.toStringNoChecksum 'h')

mutual

/-- The wallet descriptor template of BIP 388. -/
def getBip388Template : Descriptor → Except Exc Str
  | pk p => do
    let placeholder ← p.getBip388Placeholder
    return funcString "pk" placeholder
  | pkh p => do
    let placeholder ← p.getBip388Placeholder
    return funcString "pkh" placeholder
  | wpkh p => do
    let placeholder ← p.getBip388Placeholder
    return funcString "wpkh" placeholder
  | multisig d => d.getBip388Template
  | sh d => do
    let template ← getBip388Template d
    return funcString "sh" template
  | wsh d => do
    let template ← getBip388Template d
    return funcString "wsh" template
  | tr p ds depths => do
    let placeholder ← p.getBip388Placeholder
    let templates ← getBip388Templates ds
    return funcString "tr" (placeholder ++ treeString (templates.zip depths) [])

def getBip388Templates : List Descriptor → Except Exc (List Str)
  | [] => .ok []
  | d :: ds => do
    let template ← getBip388Template d
    let templates ← getBip388Templates ds
    return template :: templates

end

mutual

/-- The keys of the descriptor and of its subdescriptors, in the order in which
they are printed. -/
def getPubkeyProviders : Descriptor → List PubkeyProvider
  | pk p | pkh p | wpkh p => [p]
  | multisig d => d.pubkeys
  | sh d | wsh d => getPubkeyProviders d
  | tr p ds _ => p :: getPubkeyProvidersOf ds

def getPubkeyProvidersOf : List Descriptor → List PubkeyProvider
  | [] => []
  | d :: ds => getPubkeyProviders d ++ getPubkeyProvidersOf ds

end

end Descriptor

/-! ### Parsing -/

/-- The function name and the expression inside. Text after the last parenthesis
is ignored. -/
def getFuncExpr (s : Str) : Except Exc (Str × Str) :=
  match cut '(' s with
  | none => .error (.valueError "A matching pair of parentheses cannot be found")
  | some (func, rest) =>
    match cutLast ')' rest with
    | some (expr, _) => .ok (func, expr)
    -- the slice is empty when the last `)` stands before the first `(`
    | none =>
      if ')' ∈ func then .ok (func, [])
      else .error (.valueError "A matching pair of parentheses cannot be found")

def getConst (s : Str) (const : Char) : Except Exc Str :=
  match s with
  | [] => .error .indexError
  | c :: s =>
    if c ≠ const then
      .error (.valueError
        ("Expected '" ++ String.ofList [const] ++ "' but got '" ++ String.ofList [c] ++ "'"))
    else .ok s

/-- The initial part up to the first comma or closing brace outside of braces,
and the rest. -/
def getExpr : ℕ → Str → Str × Str
  | _, [] => ([], [])
  | level, c :: s =>
    if c = '(' ∨ c = '{' then
      let (expr, rest) := getExpr (level + 1) s
      (c :: expr, rest)
    else if 0 < level ∧ (c = ')' ∨ c = '}') then
      let (expr, rest) := getExpr (level - 1) s
      (c :: expr, rest)
    else if level = 0 ∧ (c = ')' ∨ c = '}' ∨ c = ',') then ([], c :: s)
    else
      let (expr, rest) := getExpr level s
      (c :: expr, rest)

/-- One key expression, the rest of the expression, and the index of the next key. -/
def parsePubkey (expr : Str) (keyExprIndex : ℕ) : Except Exc (PubkeyProvider × Str × ℕ) := do
  let (expr, nextExpr) := (cut ',' expr).getD (expr, [])
  let pubkey ← PubkeyProvider.parse expr keyExprIndex
  return (pubkey, nextExpr, keyExprIndex + 1)

/-- The level that a descriptor is in. -/
inductive ParseDescriptorContext
  | top | p2sh | p2wsh | p2tr
deriving DecidableEq, Repr

/-- The one key of an expression, with the text of the error when there are more. -/
def parseOnlyPubkey (msg : String) (expr : Str) (keyExprIndex : ℕ) :
    Except Exc (PubkeyProvider × ℕ) := do
  let (pubkey, expr, keyExprIndex) ← parsePubkey expr keyExprIndex
  if expr ≠ [] then throw (.valueError msg)
  return (pubkey, keyExprIndex)

/-- The length that all multipath steps share so far, with one more key. -/
def checkMultipathLen (multipathLen : Option ℕ) (pubkey : PubkeyProvider) :
    Except Exc (Option ℕ) :=
  if 1 < pubkey.multipathLen then
    match multipathLen with
    | none => .ok (some pubkey.multipathLen)
    | some n =>
      if n ≠ pubkey.multipathLen then .error (.valueError "Mismatched multipath paths")
      else .ok (some n)
  else .ok multipathLen

/-- The loop over the keys of a multisig. Each pass takes at least one character,
so the length of the expression is enough passes. -/
def parsePubkeys : ℕ → Str → ℕ → Option ℕ → Except Exc (List PubkeyProvider × ℕ)
  | _, [], keyExprIndex, _ => .ok ([], keyExprIndex)
  | 0, _ :: _, _, _ => .error (.runtimeError "passes used up")
  | n + 1, expr, keyExprIndex, multipathLen => do
    let (pubkey, expr, keyExprIndex) ← parsePubkey expr keyExprIndex
    let multipathLen ← checkMultipathLen multipathLen pubkey
    let (pubkeys, keyExprIndex) ← parsePubkeys n expr keyExprIndex multipathLen
    return (pubkey :: pubkeys, keyExprIndex)

def MAX_TAPROOT_NODES : ℕ := 128

/-- The loop over open braces. The branches hold left or right for each step from
the top of the tree, the last step first. -/
def openBranches : Str → List Bool → Except Exc (Str × List Bool)
  | [], _ => .error .indexError
  | c :: expr, branches =>
    if c ≠ '{' then .ok (c :: expr, branches)
    else if MAX_TAPROOT_NODES < branches.length + 1 then
      .error (.valueError "tr() supports at most \x7bMAX_TAPROOT_NODES\x7d nesting levels")
    else openBranches expr (false :: branches)

/-- The loop over closing braces. -/
def closeBranches : Str → List Bool → Except Exc (Str × List Bool)
  | expr, true :: branches => do
    let expr ← getConst expr '}'
    closeBranches expr branches
  | expr, branches => .ok (expr, branches)

/-- At the end of a left branch a comma is expected. -/
def nextBranch : Str → List Bool → Except Exc (Str × List Bool)
  | expr, false :: branches => do
    let expr ← getConst expr ','
    return (expr, true :: branches)
  | expr, branches => .ok (expr, branches)

/-- The loop over the leaves of a tree, with the parser of a leaf. Each pass takes
at least one character. What stands after the tree is ignored. -/
def parseTree (parseLeaf : Str → ℕ → Except Exc (Descriptor × ℕ)) :
    ℕ → Str → List Bool → ℕ → Option ℕ → Except Exc (List Descriptor × List ℕ × ℕ)
  | 0, _, _, _, _ => .error (.runtimeError "passes used up")
  | n + 1, expr, branches, keyExprIndex, multipathLen => do
    let (expr, branches) ← openBranches expr branches
    let (sarg, expr) := getExpr 0 expr
    let (subdesc, keyExprIndex) ← parseLeaf sarg keyExprIndex
    let multipathLen ← subdesc.pubkeys.foldlM checkMultipathLen multipathLen
    let depth := branches.length
    let (expr, branches) ← closeBranches expr branches
    let (expr, branches) ← nextBranch expr branches
    if branches = [] then return ([subdesc], [depth], keyExprIndex)
    let (subscripts, depths, keyExprIndex) ← parseTree parseLeaf n expr branches keyExprIndex multipathLen
    return (subdesc :: subscripts, depth :: depths, keyExprIndex)

/-- The parts of an expression before and after the first comma. -/
def cutComma (expr : Str) : Except Exc (Str × Str) :=
  match cut ',' expr with
  | none => .error (.valueError "substring not found")
  | some parts => .ok parts

/-- The check that a function may stand in a context. -/
def checkContext (allowed : List ParseDescriptorContext) (msg : String)
    (ctx : ParseDescriptorContext) : Except Exc Unit :=
  if ctx ∈ allowed then .ok () else .error (.valueError msg)

/-- The checks of a multisig with some number of keys. -/
def checkMultisig (ctx : ParseDescriptorContext) (thresh : ℤ) (keys : ℕ) : Except Exc Unit :=
  if keys = 0 ∨ 16 < keys then
    .error (.valueError ("Cannot have " ++ toString keys ++
      " keys in a multisig; must have between 1 and 16 keys, inclusive"))
  else if thresh < 1 then
    .error (.valueError ("Multisig threshold cannot be " ++ toString thresh ++
      ", must be at least 1"))
  else if thresh > keys then
    .error (.valueError
      ("Multisig threshold cannot be larger than the number of keys; threshold is " ++
        toString thresh ++ " but only " ++ toString keys ++ " keys specified"))
  else if ctx = .top ∧ 3 < keys then
    -- the number is not filled in
    .error (.valueError "Cannot have \x7b\x7d pubkeys in bare multisig: only at most 3 pubkeys")
  else .ok ()

/-- `_parse_descriptor`, to a depth of nested calls. -/
def parseDescriptorIn : ℕ → Str → ParseDescriptorContext → ℕ → Except Exc (Descriptor × ℕ)
  | 0, _, _, _ => .error (.runtimeError "maximum recursion depth exceeded")
  | n + 1, desc, ctx, keyExprIndex => do
    let (func, expr) ← getFuncExpr desc
    if func = "pk".toList then do
      let (pubkey, keyExprIndex) ←
        parseOnlyPubkey "more than one pubkey in pk descriptor" expr keyExprIndex
      return (.pk pubkey, keyExprIndex)
    else if func = "pkh".toList then do
      checkContext [.top, .p2sh, .p2wsh] "Can only have pkh at top level, in sh(), or in wsh()" ctx
      let (pubkey, keyExprIndex) ←
        parseOnlyPubkey "More than one pubkey in pkh descriptor" expr keyExprIndex
      return (.pkh pubkey, keyExprIndex)
    else if func = "sortedmulti".toList ∨ func = "multi".toList then do
      checkContext [.top, .p2sh, .p2wsh]
        "Can only have multi/sortedmulti at top level, in sh(), or in wsh()" ctx
      let (thresh, expr) ← cutComma expr
      let thresh ← int thresh
      let (pubkeys, keyExprIndex) ← parsePubkeys expr.length expr keyExprIndex none
      checkMultisig ctx thresh pubkeys.length
      return (.multisig { pubkeys, thresh, isSorted := func = "sortedmulti".toList }, keyExprIndex)
    else if func = "wpkh".toList then do
      checkContext [.top, .p2sh] "Can only have wpkh() at top level or inside sh()" ctx
      let (pubkey, keyExprIndex) ←
        parseOnlyPubkey "More than one pubkey in pkh descriptor" expr keyExprIndex
      return (.wpkh pubkey, keyExprIndex)
    else if func = "sh".toList then do
      checkContext [.top] "Can only have sh() at top level" ctx
      let (subdesc, keyExprIndex) ← parseDescriptorIn n expr .p2sh keyExprIndex
      return (.sh subdesc, keyExprIndex)
    else if func = "wsh".toList then do
      checkContext [.top, .p2sh] "Can only have wsh() at top level or inside sh()" ctx
      let (subdesc, keyExprIndex) ← parseDescriptorIn n expr .p2wsh keyExprIndex
      return (.wsh subdesc, keyExprIndex)
    else if func = "tr".toList then do
      checkContext [.top] "Can only have tr at top level" ctx
      let (internalKey, expr, keyExprIndex) ← parsePubkey expr keyExprIndex
      let multipathLen ← checkMultipathLen none internalKey
      if expr = [] then return (.tr internalKey [] [], keyExprIndex)
      else do
        let (subscripts, depths, keyExprIndex) ←
          parseTree (fun sarg keyExprIndex => parseDescriptorIn n sarg .p2tr keyExprIndex)
            expr.length expr [] keyExprIndex multipathLen
        return (.tr internalKey subscripts depths, keyExprIndex)
    else if ctx = .p2sh then .error (.valueError "A function is needed within P2SH")
    else if ctx = .p2wsh then .error (.valueError "A function is needed within P2WSH")
    else .error (.valueError (String.ofList func ++ " is not a valid descriptor function"))

/-- The descriptor without its checksum, which is validated if there is one. -/
def stripChecksum (desc : Str) : Except Exc Str :=
  match cut '#' desc with
  | none => .ok desc
  | some (desc, checksum) =>
    let computed := descriptorChecksum desc
    if computed ≠ checksum then
      .error (.valueError ("The checksum does not match; Got " ++ String.ofList checksum ++
        ", expected " ++ String.ofList computed))
    else .ok desc

/-- Parse a descriptor string. Nested calls go from the top to `sh` to `wsh`, or
from the top to a leaf. -/
def parseDescriptor (desc : Str) : Except Exc Descriptor := do
  let desc ← stripChecksum desc
  let (descriptor, _) ← parseDescriptorIn 3 desc .top 0
  return descriptor

end Hwi
