import Hwi.Proofs.Base58
import Hwi.Proofs.Curve
import Hwi.Proofs.Serialize
import Hwi.Spec.ExtendedKey

/-! Extended keys as they are written and as they are read. -/

namespace Hwi

namespace ExtendedKey

/-- The versions an extended key may have. -/
def versions : List Bytes := [MAINNET_PRIVATE, MAINNET_PUBLIC, TESTNET_PRIVATE, TESTNET_PUBLIC]

/-- A text that is the Base58Check encoding of an extended key as BIP 32 lays it out. -/
def Encodes (R : Runtime) (x : Str) : Prop :=
  ∃ payload : Bytes, x = Base58.encode (payload ++ (R.hash256 payload).take 4) ∧
    payload.length = 78 ∧ payload.take 4 ∈ versions ∧
    (isPrivate (payload.take 4) = true → payload[45]? = some 0)

/-- Bytes with a known version, as many as the fields in front of the chain code take, and, after a
private version, a number that is no multiple of the order of the generator. -/
structure Readable (data : Bytes) : Prop where
  version : data.take 4 ∈ versions
  length : 13 ≤ data.length
  privkey : isPrivate (data.take 4) = true →
    ¬addOrderOf (Curve.toGroup Curve.generator) ∣ Base58.toInt (data.drop 46) % 2 ^ 256

/-- Texts of readable bytes and four more that are nevertheless no extended key: the four are not
the checksum, the length is another, or a private key is not behind a zero byte. -/
inductive Slips (R : Runtime) : Str → Prop
  | checksum {data checksum} (h : Readable data) (hlen : checksum.length = 4)
      (hne : checksum ≠ (R.hash256 data).take 4) : Slips R (Base58.encode (data ++ checksum))
  | length {data checksum} (h : Readable data) (hlen : checksum.length = 4) (hne : data.length ≠ 78) :
      Slips R (Base58.encode (data ++ checksum))
  | padding {data checksum} (h : Readable data) (hlen : checksum.length = 4)
      (hpriv : isPrivate (data.take 4) = true) (hne : data[45]? ≠ some 0) :
      Slips R (Base58.encode (data ++ checksum))

theorem unpack_eq_ok {k n : ℕ} {b : Bytes} (h : unpack k b = .ok n) : b.length = k ∧ n = ofLE b := by
  unfold unpack at h
  split_ifs at h with hlen
  cases h
  exact ⟨hlen, rfl⟩

/-- The fields of an extended key that is read. -/
theorem fromBytes_cases {data : Bytes} {k : ExtendedKey} (h : fromBytes data = .ok k) :
    data.take 4 ∈ versions ∧ ∃ depth childNum privkey pubkey, data[4]? = some depth ∧
      unpack 4 ((data.drop 9).take 4).reverse = .ok childNum ∧
      k = ⟨data.take 4, depth, (data.drop 5).take 4, childNum, (data.drop 13).take 32, privkey, pubkey⟩ ∧
      (isPrivate (data.take 4) = true ∧ privkey = some (data.drop 46) ∨
        isPrivate (data.take 4) = false ∧ privkey = none ∧ pubkey = (data.drop 45).take 33) := by
  unfold fromBytes at h
  change (if data.take 4 ∉ versions then _ else _) = _ at h
  by_cases hversion : data.take 4 ∈ versions
  · rw [if_neg (not_not.2 hversion)] at h
    refine ⟨hversion, ?_⟩
    cases hdepth : data[4]? with
    | none =>
      rw [hdepth] at h
      cases h
    | some depth =>
      rw [hdepth] at h
      dsimp only at h
      rw [pure_eq_ok, ok_bind] at h
      obtain ⟨childNum, hchild, h⟩ := bind_eq_ok.1 h
      cases hpriv : isPrivate (data.take 4) with
      | false =>
        rw [hpriv] at h
        cases h
        exact ⟨depth, childNum, none, _, rfl, hchild, rfl, Or.inr ⟨rfl, rfl, rfl⟩⟩
      | true =>
        rw [hpriv] at h
        obtain ⟨pubkey, -, h⟩ := bind_eq_ok.1 h
        cases h
        exact ⟨depth, childNum, _, pubkey, rfl, hchild, rfl, Or.inl ⟨rfl, rfl⟩⟩
  · rw [if_pos hversion] at h
    cases h

theorem drop_eq_take_append {data : Bytes} {n m : ℕ} : data.drop n = (data.drop n).take m ++ data.drop (n + m) := by
  rw [← List.drop_drop, List.take_append_drop]

theorem fields_append {data : Bytes} {depth : UInt8} (h : data[4]? = some depth) :
    data.take 4 ++ [depth] ++ (data.drop 5).take 4 ++ (data.drop 9).take 4 ++ (data.drop 13).take 32 ++
      data.drop 45 = data := by
  have hdepth : [depth] = (data.drop 4).take 1 := by
    obtain ⟨hlt, rfl⟩ := List.getElem?_eq_some_iff.1 h
    rw [List.drop_eq_getElem_cons hlt]
    rfl
  conv_rhs => rw [← List.take_append_drop 4 data, drop_eq_take_append (m := 1),
    drop_eq_take_append (n := 4 + 1) (m := 4), drop_eq_take_append (n := 4 + 1 + 4) (m := 4),
    drop_eq_take_append (n := 4 + 1 + 4 + 4) (m := 32)]
  rw [hdepth]
  simp only [List.append_assoc]

theorem pack_of_unpack {k n : ℕ} {b : Bytes} (h : unpack k b = .ok n) : pack k n = .ok b := by
  obtain ⟨hlen, rfl⟩ := unpack_eq_ok h
  have hlt : ofLE b < 256 ^ k := hlen ▸ ofLE_lt b
  rw [pack, if_pos ⟨Int.natCast_nonneg _, by exact_mod_cast hlt⟩, Int.toNat_natCast,
    toLE_ofLE_of_length hlen]

/-- An extended key that is read from as many bytes as it should have is written as
these bytes. -/
theorem serialize_fromBytes {data : Bytes} {k : ExtendedKey} (h : fromBytes data = .ok k)
    (hlen : data.length = 78) (hzero : isPrivate (data.take 4) = true → data[45]? = some 0) :
    k.serialize = .ok data := by
  obtain ⟨-, depth, childNum, privkey, pubkey, hdepth, hchild, rfl, hkey⟩ := fromBytes_cases h
  unfold serialize
  dsimp only
  rw [pack_of_unpack hchild, ok_bind, List.reverse_reverse]
  have hfields := fields_append hdepth
  rcases hkey with ⟨hpriv, rfl⟩ | ⟨hpub, -, rfl⟩
  · have hrest : data.drop 45 = [0x00] ++ data.drop 46 := by
      obtain ⟨hlt, h0⟩ := List.getElem?_eq_some_iff.1 (hzero hpriv)
      rw [List.drop_eq_getElem_cons hlt, h0]
      rfl
    rw [if_pos hpriv]
    rw [hrest, ← List.append_assoc] at hfields
    exact congrArg Except.ok hfields
  · have hall : (data.drop 45).take 33 = data.drop 45 := by
      apply List.take_of_length_le
      rw [List.length_drop, hlen]
    rw [if_neg (by rw [hpub]; exact Bool.false_ne_true), hall]
    exact congrArg Except.ok hfields

theorem pointToBytes_isOk_iff (P : Curve.Point) : (∃ b, Curve.pointToBytes P = .ok b) ↔ P ≠ none := by
  cases P with
  | none => simp [Curve.pointToBytes]
  | some P => simp [Curve.pointToBytes]

/-- Which bytes are read as an extended key. -/
theorem fromBytes_isOk_iff (data : Bytes) : (∃ k, fromBytes data = .ok k) ↔ Readable data := by
  constructor
  · rintro ⟨k, h⟩
    obtain ⟨hversion, depth, childNum, -, -, hdepth, hchild, -, -⟩ := fromBytes_cases h
    obtain ⟨hlen, -⟩ := unpack_eq_ok hchild
    simp only [List.length_reverse, List.length_take, List.length_drop] at hlen
    refine ⟨hversion, by omega, fun hpriv hdvd => ?_⟩
    rw [← Curve.pointMul_generator_eq_none_iff] at hdvd
    unfold fromBytes at h
    change (if data.take 4 ∉ versions then _ else _) = _ at h
    rw [if_neg (not_not.2 hversion), hdepth] at h
    dsimp only at h
    rw [pure_eq_ok, ok_bind, hchild, ok_bind, hpriv, hdvd] at h
    cases h
  · intro hread
    obtain ⟨depth, hdepth⟩ : ∃ depth, data[4]? = some depth :=
      ⟨_, List.getElem?_eq_getElem (by have := hread.length; omega)⟩
    have hchild : unpack 4 ((data.drop 9).take 4).reverse =
        .ok (ofLE ((data.drop 9).take 4).reverse) := by
      apply if_pos
      have hlen := hread.length
      rw [List.length_reverse, List.length_take, List.length_drop]
      omega
    unfold fromBytes
    change ∃ k, (if data.take 4 ∉ versions then _ else _) = Except.ok k
    rw [if_neg (not_not.2 hread.version), hdepth]
    dsimp only
    rw [pure_eq_ok, ok_bind, hchild, ok_bind]
    split_ifs with hpriv
    · have hpoint := fun h => hread.privkey hpriv ((Curve.pointMul_generator_eq_none_iff _).1 h)
      obtain ⟨pubkey, hpubkey⟩ := (pointToBytes_isOk_iff _).2 hpoint
      rw [hpubkey]
      exact ⟨_, rfl⟩
    · exact ⟨_, rfl⟩

/-- Which texts are read: those of four bytes behind readable ones. -/
theorem deserialize_eq_ok_iff {x : Str} {k : ExtendedKey} : deserialize x = .ok k ↔
    ∃ data checksum, x = Base58.encode (data ++ checksum) ∧ checksum.length = 4 ∧
      fromBytes data = .ok k := by
  constructor
  · intro h
    obtain ⟨b, hb, h⟩ := bind_eq_ok.1 h
    have hlen := ((fromBytes_isOk_iff _).1 ⟨k, h⟩).length
    rw [List.length_take] at hlen
    refine ⟨b.take (b.length - 4), b.drop (b.length - 4), ?_, ?_, h⟩
    · rw [List.take_append_drop, Base58.encode_decode hb]
    · rw [List.length_drop]
      omega
  · rintro ⟨data, checksum, rfl, hlen, h⟩
    unfold deserialize
    rw [Base58.decode_encode_any, ok_bind, List.length_append, hlen, Nat.add_sub_cancel, List.take_left]
    exact h

theorem encode_injective {b b' : Bytes} (h : Base58.encode b = Base58.encode b') : b = b' := by
  have hdecode := Base58.decode_encode_any b
  rw [h, Base58.decode_encode_any] at hdecode
  cases hdecode
  rfl

/-- A text is no encoding that is read wrongly just when it is none of those that slip through. -/
theorem exact_iff (R : Runtime) (x : Str) :
    (∀ k, deserialize x = .ok k → Encodes R x ∧ k.toString R = .ok x) ↔ ¬Slips R x := by
  constructor
  · intro h hslips
    obtain ⟨data, checksum, rfl, hread, hlen, hbad⟩ : ∃ data checksum,
        x = Base58.encode (data ++ checksum) ∧ Readable data ∧ checksum.length = 4 ∧
          (checksum = (R.hash256 data).take 4 → data.length = 78 →
            ¬(isPrivate (data.take 4) = true → data[45]? = some 0)) := by
      cases hslips with
      | checksum hread hlen hne => exact ⟨_, _, rfl, hread, hlen, fun hsum => absurd hsum hne⟩
      | length hread hlen hne => exact ⟨_, _, rfl, hread, hlen, fun _ h78 => absurd h78 hne⟩
      | padding hread hlen hpriv hne => exact ⟨_, _, rfl, hread, hlen, fun _ _ hzero => hne (hzero hpriv)⟩
    obtain ⟨k, hk⟩ := (fromBytes_isOk_iff data).2 hread
    obtain ⟨⟨payload, heq, h78, -, hzero⟩, -⟩ := h k (deserialize_eq_ok_iff.2 ⟨_, _, rfl, hlen, hk⟩)
    obtain ⟨rfl, hsum⟩ := List.append_inj' (encode_injective heq)
      (by rw [hlen, Base58.hash256_take_length])
    exact hbad hsum h78 hzero
  · intro hslips k h
    obtain ⟨data, checksum, rfl, hlen, hk⟩ := deserialize_eq_ok_iff.1 h
    have hread := (fromBytes_isOk_iff data).1 ⟨k, hk⟩
    have hsum : checksum = (R.hash256 data).take 4 := by
      by_contra hne
      exact hslips (.checksum hread hlen hne)
    have h78 : data.length = 78 := by
      by_contra hne
      exact hslips (.length hread hlen hne)
    have hzero : isPrivate (data.take 4) = true → data[45]? = some 0 := by
      intro hpriv
      by_contra hne
      exact hslips (.padding hread hlen hpriv hne)
    subst hsum
    refine ⟨⟨data, rfl, h78, hread.version, hzero⟩, ?_⟩
    unfold toString
    rw [serialize_fromBytes hk h78 hzero]
    rfl

/-- A public key with fields of the lengths of BIP 32. -/
structure Public (k : ExtendedKey) : Prop where
  version : k.version ∈ [MAINNET_PUBLIC, TESTNET_PUBLIC]
  parentFingerprint : k.parentFingerprint.length = 4
  childNum : k.childNum < 2 ^ 32
  chaincode : k.chaincode.length = 32
  privkey : k.privkey = none
  pubkey : k.pubkey.length = 33

theorem isPrivate_public {version : Bytes} (h : version ∈ [MAINNET_PUBLIC, TESTNET_PUBLIC]) :
    isPrivate version = false ∧ version ∈ versions ∧ version.length = 4 := by
  simp only [List.mem_cons, List.not_mem_nil, or_false] at h
  rcases h with rfl | rfl <;> decide

theorem slice_append {a b c : Bytes} {n m : ℕ} (ha : a.length = n) (hb : b.length = m) :
    ((a ++ (b ++ c)).drop n).take m = b := by
  rw [List.drop_left' ha, List.take_left' hb]

/-- A public key is read back from the bytes it is written as. -/
theorem fromBytes_serialize {k : ExtendedKey} (h : k.Public) :
    ∃ data, k.serialize = .ok data ∧ fromBytes data = .ok k := by
  obtain ⟨version, depth, parentFingerprint, childNum, chaincode, privkey, pubkey⟩ := k
  obtain ⟨hversion, hparent, hchild, hchain, rfl, hpub⟩ := h
  dsimp only at *
  obtain ⟨hpriv, hknown, hlen⟩ := isPrivate_public hversion
  have hpack : pack 4 childNum = .ok (toLE 4 childNum) := by
    rw [pack, if_pos ⟨Int.natCast_nonneg _, by exact_mod_cast hchild⟩, Int.toNat_natCast]
  set child := (toLE 4 childNum).reverse with hchildBytes
  have hchildLen : child.length = 4 := by rw [hchildBytes, List.length_reverse, toLE_length]
  set data := version ++ [depth] ++ parentFingerprint ++ child ++ chaincode ++ pubkey with hdata
  have htake : data.take 4 = version := by
    rw [hdata]
    simp only [List.append_assoc]
    exact List.take_left' hlen
  have hdepth : data[4]? = some depth := by
    rw [hdata]
    simp only [List.append_assoc]
    rw [List.getElem?_append_right hlen.le, hlen]
    rfl
  have hparent' : (data.drop 5).take 4 = parentFingerprint := by
    rw [hdata, List.append_assoc _ child, List.append_assoc _ _ pubkey, List.append_assoc _ parentFingerprint]
    exact slice_append (by rw [List.length_append, hlen]; rfl) hparent
  have hchild' : (data.drop 9).take 4 = child := by
    rw [hdata, List.append_assoc _ chaincode, List.append_assoc _ child]
    exact slice_append (by simp [hlen, hparent]) hchildLen
  have hchain' : (data.drop 13).take 32 = chaincode := by
    rw [hdata, List.append_assoc _ chaincode]
    exact slice_append (by simp [hlen, hparent, hchildLen]) hchain
  have hpub' : (data.drop 45).take 33 = pubkey := by
    rw [hdata, List.drop_left' (by simp [hlen, hparent, hchildLen, hchain]), List.take_of_length_le hpub.le]
  have hunpack : unpack 4 child.reverse = .ok childNum := by
    rw [hchildBytes, List.reverse_reverse, unpack, if_pos (toLE_length _ _), ofLE_toLE hchild]
  refine ⟨data, ?_, ?_⟩
  · unfold serialize
    dsimp only
    rw [hpack, ok_bind, hpriv]
    rfl
  · unfold fromBytes
    change (if data.take 4 ∉ versions then _ else _) = _
    rw [htake, if_neg (not_not.2 hknown), hdepth]
    dsimp only
    rw [pure_eq_ok, ok_bind, hparent', hchild', hchain', hpub', hunpack, ok_bind, hpriv]
    rfl

/-- A text is read as an extended key only if it encodes that key, but for the texts that slip
through, and every public key is read back. -/
theorem deserialize_exact (R : Runtime) :
    (∀ x : Str, (∀ k, deserialize x = .ok k → Encodes R x ∧ k.toString R = .ok x) ↔ ¬Slips R x) ∧
    ∀ k : ExtendedKey, k.Public → ∃ x, k.toString R = .ok x ∧ deserialize x = .ok k := by
  refine ⟨exact_iff R, fun k hk => ?_⟩
  obtain ⟨data, hserialize, hread⟩ := fromBytes_serialize hk
  refine ⟨Base58.encode (data ++ (R.hash256 data).take 4), ?_, ?_⟩
  · unfold toString
    rw [hserialize]
    rfl
  · exact deserialize_eq_ok_iff.2 ⟨data, _, rfl, Base58.hash256_take_length R data, hread⟩

/-- A master key with a chain code and a public key of zeros. -/
def keySample : ExtendedKey where
  version := MAINNET_PUBLIC
  depth := 0
  parentFingerprint := List.replicate 4 0
  childNum := 0
  chaincode := List.replicate 32 0
  privkey := none
  pubkey := List.replicate 33 0

theorem deserialize_exact_sample : ∃ x, keySample.toString Runtime.zeros = .ok x ∧
    deserialize x = .ok keySample ∧ ¬Slips Runtime.zeros x := by
  obtain ⟨hexact, hread⟩ := deserialize_exact Runtime.zeros
  have hpublic : keySample.Public := by
    constructor <;> decide
  obtain ⟨x, hx, hkey⟩ := hread keySample hpublic
  refine ⟨x, hx, hkey, (hexact x).1 fun k hk => ?_⟩
  rw [hkey] at hk
  cases hk
  refine ⟨?_, hx⟩
  unfold toString at hx
  obtain ⟨data, hdata, hx⟩ := bind_eq_ok.1 hx
  cases hx
  have hserialize : keySample.serialize = .ok (MAINNET_PUBLIC ++ List.replicate 74 0) := by decide +kernel
  rw [hserialize] at hdata
  cases hdata
  exact ⟨_, rfl, by decide, by decide, by decide⟩

/-- A text without a public key at its end, and with a checksum that nobody computed. -/
def shortKey : Str := "3UL1Fnyy5NDJkqMpNp5WPJg".toList

theorem deserialize_shortKey :
    ¬ ∀ (R : Runtime) (x : Str) (k : ExtendedKey), deserialize x = .ok k →
      Encodes R x ∧ k.toString R = .ok x := by
  intro h
  have hdecode : Base58.decode shortKey = .ok (MAINNET_PUBLIC ++ List.replicate 9 0 ++ [1, 1, 1, 1]) := by
    decide +kernel
  have hsome : (deserialize shortKey).toOption.isSome = true := by decide +kernel
  obtain ⟨k, hk⟩ := Option.isSome_iff_exists.1 hsome
  obtain ⟨⟨payload, hx, hlen, -⟩, -⟩ := h Runtime.zeros shortKey k (toOption_eq_some.1 hk)
  have hlong := Base58.decode_encode_any (payload ++ (Runtime.zeros.hash256 payload).take 4)
  rw [← hx, hdecode] at hlong
  have hlength : 17 = (payload ++ (Runtime.zeros.hash256 payload).take 4).length :=
    congrArg List.length (Except.ok.inj hlong)
  rw [List.length_append, Base58.hash256_take_length, hlen] at hlength
  cases hlength

end ExtendedKey

end Hwi
