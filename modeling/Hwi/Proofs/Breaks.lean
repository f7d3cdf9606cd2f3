import Hwi.Format.Rules
import Hwi.Lib.Fault
import Hwi.Proofs.Spelling
import Hwi.Proofs.Values

/-! On which streams the primitives of `_serialize.py` and the readers of `tx.py` raise something
else than the exception of the parser. -/

namespace Hwi

open Reader

variable {R : Runtime} {α β : Type}

theorem unexpected_structError : Unexpected .structError := by
  intro msg h
  cases h

theorem unexpected_overflowError : Unexpected .overflowError := by
  intro msg h
  cases h

theorem unexpected_memoryError : Unexpected .memoryError := by
  intro msg h
  cases h

theorem not_unexpected {msg : String} : ¬Unexpected (.psbtSerializationError msg) :=
  fun h => h msg rfl

/-! ### Computations -/

/-- The computation raises something else than the exception of the parser. -/
def Escapes (r : Except Exc α) : Prop := ∃ e, r = .error e ∧ Unexpected e

theorem expected_iff {r : Except Exc α} : Expected r ↔ ¬Escapes r := by
  unfold Expected Escapes Unexpected
  simp only [not_exists, not_and, not_forall, not_not]

@[simp] theorem not_escapes_ok {a : α} : ¬Escapes (.ok a : Except Exc α) := by
  rintro ⟨e, h, -⟩
  cases h

@[simp] theorem not_escapes_error {msg : String} :
    ¬Escapes (.error (.psbtSerializationError msg) : Except Exc α) := by
  rintro ⟨e, h, he⟩
  cases h
  exact he msg rfl

theorem escapes_bind {x : Except Exc α} {f : α → Except Exc β} :
    Escapes (x >>= f) ↔ Escapes x ∨ ∃ a, x = .ok a ∧ Escapes (f a) := by
  cases x with
  | ok a => simp
  | error e => simp [Escapes]

@[simp] theorem escapes_bind_ok {x : Except Exc α} {f : α → β} :
    Escapes (x >>= fun a => .ok (f a)) ↔ Escapes x := by
  simp [escapes_bind]

theorem escapes_bind_pure {x : Except Exc α} {f : α → β} :
    Escapes (x >>= fun a => pure (f a)) ↔ Escapes x := escapes_bind_ok

@[simp] theorem escapes_ite {c : Prop} [Decidable c] {msg : String} {x : Except Exc α} :
    Escapes (if c then .error (.psbtSerializationError msg) else x) ↔ ¬c ∧ Escapes x := by
  split_ifs with h <;> simp [h]

@[simp] theorem escapes_ite_else {c : Prop} [Decidable c] {msg : String} {x : Except Exc α} :
    Escapes (if c then x else .error (.psbtSerializationError msg)) ↔ c ∧ Escapes x := by
  split_ifs with h <;> simp [h]

theorem escapes_unpack {k : ℕ} {v : Bytes} : Escapes (unpack k v) ↔ v.length ≠ k := by
  unfold unpack
  split_ifs with h
  · simp [h]
  · simp [h, Escapes, Unexpected]

theorem not_escapes_fixedInt {k : ℕ} {msg : String} {v : Bytes} : ¬Escapes (fixedInt k msg v) := by
  unfold fixedInt
  split_ifs with h
  · exact not_escapes_error
  · rw [escapes_unpack]
    exact h

theorem not_escapes_checkKey {key : Bytes} {seen : List Bytes} {dup len : String} {b : Bool} :
    ¬Escapes (checkKey key seen dup b len) := by
  unfold checkKey
  split_ifs <;> simp

theorem not_escapes_v2Key {version : ℕ} {field : String} {key : Bytes} {seen : List Bytes}
    {dup len : String} {b : Bool} : ¬Escapes (do
      notInV0 version field
      checkKey key seen dup b len) := by
  unfold notInV0
  split_ifs
  · exact not_escapes_error
  · exact not_escapes_checkKey

theorem not_escapes_hdKeypathCheck {key : Bytes} {d : Dict Bytes KeyOriginInfo} {l : List ℕ} :
    ¬Escapes (hdKeypathCheck key d l) := by
  unfold hdKeypathCheck
  split_ifs <;> simp

theorem not_escapes_musig2Pubkeys {v : Bytes} : ¬Escapes (musig2Pubkeys v) := by
  unfold musig2Pubkeys
  split_ifs <;> simp

/-! ### Primitives -/

theorem raises_ofExcept_iff {x : Except Exc α} {s : Bytes} :
    Raises Unexpected (Reader.ofExcept x : Read α) s ↔ Escapes x := raises_ofExcept

/-- After a read that returns, what raises is the rest. -/
theorem raises_bind_of_ok {r : Read α} {k : α → Read β} {s s' : Bytes} {a : α}
    (h : r s = .ok a s') : Raises Unexpected (r >>= k) s ↔ Raises Unexpected (k a) s' := by
  unfold Raises
  rw [bind_apply, h]

theorem readInt_apply (k : ℕ) (s : Bytes) : readInt k s =
    if k ≤ s.length then .ok (ofLE (s.take k)) (s.drop k) else .error .structError (s.drop k) := by
  have hread : read k s = .ok (s.take k) (s.drop k) := rfl
  rw [readInt, bind_apply, hread]
  dsimp only
  unfold unpack
  split_ifs with hlen hle hle
  · rfl
  · rw [List.length_take] at hlen
    omega
  · rw [List.length_take] at hlen
    omega
  · rfl

theorem raises_readInt {k : ℕ} {s : Bytes} : Raises Unexpected (readInt k) s ↔ s.length < k := by
  unfold Raises
  rw [readInt_apply]
  split_ifs with h
  · simp [h]
  · simp [Nat.not_le.1 h, Unexpected]

/-- An integer that is cut uses up the stream. -/
theorem readInt_eq_error {k : ℕ} {s s' : Bytes} {e : Exc} (h : readInt k s = .error e s') : s' = [] := by
  rw [readInt_apply] at h
  split_ifs at h with hle
  cases h
  exact List.drop_eq_nil_of_le (Nat.not_le.1 hle).le

theorem readInt_one (first : UInt8) (s : Bytes) : readInt 1 (first :: s) = .ok first.toNat s := by
  have hread := exactly_readInt (k := 1) (n := first.toNat) first.toNat_lt s
  rwa [toLE_one first.toNat_lt, UInt8.ofNat_toNat] at hread

theorem raises_deserCompactSize {s : Bytes} : Raises Unexpected deserCompactSize s ↔ CutSize s := by
  cases s with
  | nil =>
    refine iff_of_true ?_ trivial
    exact raises_bind.2 (Or.inl (raises_readInt.2 Nat.one_pos))
  | cons first s =>
    unfold deserCompactSize CutSize compactSizeLength
    rw [raises_bind_of_ok (readInt_one first s)]
    have hfirst (n : UInt8) : first.toNat = n.toNat ↔ first = n := UInt8.toNat_inj
    have h253 := hfirst 253
    have h254 := hfirst 254
    have h255 := hfirst 255
    simp only [UInt8.reduceToNat] at h253 h254 h255
    simp only [h253, h254, h255]
    split_ifs
    · rw [raises_readInt]
      omega
    · rw [raises_readInt]
      omega
    · rw [raises_readInt]
      omega
    · simp [not_raises_pure]

/-- A compact size that is cut uses up the stream. -/
theorem deserCompactSize_eq_error {s s' : Bytes} {e : Exc} (h : deserCompactSize s = .error e s') :
    s' = [] := by
  rw [deserCompactSize, bind_apply] at h
  cases hfirst : readInt 1 s with
  | error e' s₁ =>
    rw [hfirst] at h
    cases h
    exact readInt_eq_error hfirst
  | ok nit s₁ =>
    rw [hfirst] at h
    dsimp only at h
    split_ifs at h
    · exact readInt_eq_error h
    · exact readInt_eq_error h
    · exact readInt_eq_error h
    · cases h

theorem raises_readAnnounced {n : ℕ} {s : Bytes} :
    Raises Unexpected (readAnnounced R n) s ↔ ¬Readable R n s := by
  have hok : Readable R n s ↔ ∃ b s', readAnnounced R n s = .ok b s' := by
    simp only [readAnnounced_eq_ok]
    exact ⟨fun h => ⟨_, _, h, rfl, rfl⟩, fun ⟨_, _, h, _, _⟩ => h⟩
  rw [hok]
  unfold Raises readAnnounced
  split_ifs <;> simp [Unexpected]

/-- What cannot be asked for is left in the stream. -/
theorem readAnnounced_eq_error {n : ℕ} {s s' : Bytes} {e : Exc}
    (h : readAnnounced R n s = .error e s') : s' = s := by
  unfold readAnnounced at h
  split_ifs at h <;> cases h <;> rfl

theorem raises_deserString {s : Bytes} : Raises Unexpected (deserString R) s ↔ BadLength R s := by
  unfold deserString BadLength
  rw [raises_bind, raises_deserCompactSize]
  simp only [raises_readAnnounced]

/-! ### Values -/

theorem escapes_unpackWords : ∀ s : Bytes, Escapes (unpackWords s) ↔ s.length % 4 ≠ 0
  | [] => by simp [unpackWords]
  | [_] => by simp [unpackWords, Escapes, Unexpected]
  | [_, _] => by simp [unpackWords, Escapes, Unexpected]
  | [_, _, _] => by simp [unpackWords, Escapes, Unexpected]
  | a :: b :: c :: d :: s => by
    simp only [unpackWords, pure_eq_ok, escapes_bind_ok, escapes_unpackWords s, List.length_cons]
    omega

theorem escapes_keyOrigin {v : Bytes} : Escapes (KeyOriginInfo.deserialize v) ↔ BadOrigin v := by
  simp only [KeyOriginInfo.deserialize, pure_eq_ok, escapes_bind_ok, escapes_unpackWords,
    List.length_drop, BadOrigin]
  omega

theorem escapes_hdKeypathStore {key v : Bytes} {d : Dict Bytes KeyOriginInfo} :
    Escapes (hdKeypathStore key d v) ↔ BadOrigin v := by
  simp only [hdKeypathStore, pure_eq_ok, escapes_bind_ok, escapes_keyOrigin]

theorem escapes_runOn {r : Read α} {v : Bytes} : Escapes (runOn r v) ↔ Raises Unexpected r v := by
  unfold Escapes Raises runOn
  cases r v <;> simp

theorem escapes_tapBip32Value {v : Bytes} : Escapes (tapBip32Value v) ↔ BadTapPath v := by
  rw [tapBip32Value, escapes_runOn, raises_bind, raises_deserCompactSize]
  refine or_congr_right (exists_congr fun n => exists_congr fun s => and_congr_right fun _ => ?_)
  have hall : readAll (s.drop (32 * n)) = .ok (s.drop (32 * n)) [] := rfl
  rw [raises_bind_of_ok (readN_hashes n s), raises_bind_of_ok hall, raises_bind_pure, raises_ofExcept_iff,
    escapes_keyOrigin]

/-! ### Transactions -/

theorem onlyRaises_read (n : ℕ) : OnlyRaises Unexpected (read n) := by
  intro s e s' h
  cases h

theorem onlyRaises_readAnnounced (n : ℕ) : OnlyRaises Unexpected (readAnnounced R n) := by
  intro s e s' h
  unfold readAnnounced at h
  split_ifs at h
  · cases h
    exact unexpected_overflowError
  · cases h
    exact unexpected_memoryError

theorem onlyRaises_readInt (k : ℕ) : OnlyRaises Unexpected (readInt k) := by
  refine (onlyRaises_read k).bind fun b => onlyRaises_ofExcept fun e h => ?_
  unfold unpack at h
  split_ifs at h
  cases h
  exact unexpected_structError

theorem onlyRaises_readSigned (k : ℕ) : OnlyRaises Unexpected (readSigned k) := by
  refine (onlyRaises_read k).bind fun b => onlyRaises_ofExcept fun e h => ?_
  unfold unpackSigned at h
  split_ifs at h
  cases h
  exact unexpected_structError

theorem onlyRaises_deserCompactSize : OnlyRaises Unexpected deserCompactSize := by
  refine (onlyRaises_readInt 1).bind fun nit => ?_
  split_ifs
  · exact onlyRaises_readInt 2
  · exact onlyRaises_readInt 4
  · exact onlyRaises_readInt 8
  · exact onlyRaises_pure nit

theorem onlyRaises_deserString : OnlyRaises Unexpected (deserString R) :=
  onlyRaises_deserCompactSize.bind onlyRaises_readAnnounced

theorem onlyRaises_deserVector {c : Read α} (h : OnlyRaises Unexpected c) :
    OnlyRaises Unexpected (deserVector c) :=
  onlyRaises_deserCompactSize.bind h.readN

theorem onlyRaises_txIn : OnlyRaises Unexpected (CTxIn.deserialize R) :=
  ((((onlyRaises_readInt 4).readN 8).bind fun _ => onlyRaises_pure _).bind fun _ =>
    (onlyRaises_readInt 4).bind fun _ => onlyRaises_pure _).bind fun _ =>
      onlyRaises_deserString.bind fun _ => (onlyRaises_readInt 4).bind fun _ => onlyRaises_pure _

theorem onlyRaises_txOut : OnlyRaises Unexpected (CTxOut.deserialize R) :=
  (onlyRaises_readSigned 8).bind fun _ => onlyRaises_deserString.bind fun _ => onlyRaises_pure _

theorem onlyRaises_witness : OnlyRaises Unexpected (CTxInWitness.deserialize R) :=
  (onlyRaises_deserVector onlyRaises_deserString).bind fun _ => onlyRaises_pure _

theorem onlyRaises_readWitness (nVersion : ℤ) (flags : ℕ) (vin : List CTxIn) (vout : List CTxOut) :
    OnlyRaises Unexpected (CTransaction.readWitness R nVersion flags vin vout) := by
  unfold CTransaction.readWitness
  split_ifs
  · exact (onlyRaises_witness.readN _).bind fun _ => (onlyRaises_readInt 4).bind fun _ =>
      onlyRaises_pure _
  · exact (onlyRaises_readInt 4).bind fun _ => onlyRaises_pure _

theorem onlyRaises_transaction : OnlyRaises Unexpected (CTransaction.deserialize R {}) := by
  have hins := onlyRaises_deserVector (onlyRaises_txIn (R := R))
  have houts := onlyRaises_deserVector (onlyRaises_txOut (R := R))
  rw [CTransaction.deserialize_eq]
  refine (onlyRaises_readSigned 4).bind fun nVersion => hins.bind fun vin => ?_
  split_ifs
  · refine (onlyRaises_readInt 1).bind fun flags => ?_
    split_ifs
    · exact hins.bind fun vin => houts.bind fun vout => onlyRaises_readWitness _ _ _ _
    · exact onlyRaises_readWitness _ _ _ _
  · exact houts.bind fun vout => onlyRaises_readWitness _ _ _ _

theorem readSigned_apply (k : ℕ) (s : Bytes) : readSigned k s =
    if k ≤ s.length then .ok (ofSignedLE (s.take k)) (s.drop k)
    else .error .structError (s.drop k) := by
  have hread : read k s = .ok (s.take k) (s.drop k) := rfl
  rw [readSigned, bind_apply, hread]
  dsimp only
  unfold unpackSigned
  split_ifs with hlen hle hle
  · rfl
  · rw [List.length_take] at hlen
    omega
  · rw [List.length_take] at hlen
    omega
  · rfl

theorem escapes_txOut {v : Bytes} :
    Escapes (runOn (CTxOut.deserialize R) v) ↔ v.length < 8 ∨ BadLength R (v.drop 8) := by
  rw [escapes_runOn, CTxOut.deserialize]
  by_cases hlt : v.length < 8
  · refine iff_of_true (raises_bind.2 (Or.inl ?_)) (Or.inl hlt)
    unfold Raises
    rw [readSigned_apply, if_neg (Nat.not_le.2 hlt)]
    exact ⟨_, _, rfl, unexpected_structError⟩
  · have hok : readSigned 8 v = .ok (ofSignedLE (v.take 8)) (v.drop 8) := by
      rw [readSigned_apply, if_pos (Nat.not_lt.1 hlt)]
    rw [raises_bind_of_ok hok, raises_bind_pure, raises_deserString]
    exact (or_iff_right hlt).symm

theorem raises_items {n : ℕ} {s : Bytes} :
    Raises Unexpected (readN (deserString R) n) s ↔ BadItems R n s := by
  induction n generalizing s with
  | zero =>
    refine iff_of_false not_raises_pure fun h => ?_
    cases h
  | succ n ih =>
    rw [readN, raises_bind, raises_deserString]
    constructor
    · rintro (h | ⟨a, s', ha, h⟩)
      · exact .here h
      · obtain ⟨m, s₁, hm, hread, -, rfl⟩ := deserString_eq_ok_iff.1 ha
        exact .later hm hread (ih.1 (raises_bind_pure.1 h))
    · intro h
      cases h with
      | here h => exact Or.inl h
      | later hm hread h =>
        refine Or.inr ⟨_, _, deserString_eq_ok_iff.2 ⟨_, _, hm, hread, rfl, rfl⟩, ?_⟩
        exact raises_bind_pure.2 (ih.2 h)

theorem escapes_witness {v : Bytes} :
    Escapes (runOn (CTxInWitness.deserialize R) v) ↔ BadStack R v := by
  rw [escapes_runOn, CTxInWitness.deserialize, raises_bind_pure, deserStringVector, deserVector,
    raises_bind, raises_deserCompactSize]
  simp only [raises_items]
  rfl

/-- A transaction is read from bytes that begin with it. -/
theorem runOn_transaction {v : Bytes} {tx : CTransaction} :
    runOn (CTransaction.deserialize R {}) v = .ok tx ↔ BeginsWith v tx := by
  have hread (rest : Bytes) : CTransaction.deserialize R {} v = .ok tx rest ↔
      ∃ ts, v = ts ++ rest ∧ CTransaction.Spelled ts tx := CTransaction.spells_deserialize.eq_ok_iff
  unfold runOn
  constructor
  · intro h
    split at h
    · rename_i tx' rest hok
      cases h
      obtain ⟨b, rfl, hb⟩ := (hread rest).1 hok
      exact ⟨b, List.prefix_append b rest, hb⟩
    · cases h
  · rintro ⟨b, ⟨rest, rfl⟩, hb⟩
    rw [(hread rest).2 ⟨b, rfl, hb⟩]

theorem BeginsWith.unique {v : Bytes} {t t' : CTransaction} (h : BeginsWith v t)
    (h' : BeginsWith v t') : t = t' := by
  have ht := (runOn_transaction (R := Runtime.zeros)).2 h
  rw [runOn_transaction.2 h'] at ht
  cases ht
  rfl

theorem escapes_transaction {v : Bytes} :
    Escapes (runOn (CTransaction.deserialize R {}) v) ↔ ¬∃ tx, BeginsWith v tx := by
  simp only [← runOn_transaction (R := R)]
  rw [escapes_runOn, onlyRaises_transaction.raises_iff]
  unfold runOn
  cases CTransaction.deserialize R {} v <;> simp

/-! ### Exceptions of a value -/

/-- Every exception of the computation is another than the one of the parser. -/
def OnlyEscapes (x : Except Exc α) : Prop := ∀ e, x = .error e → Unexpected e

theorem OnlyEscapes.isSome_iff {x : Except Exc α} (h : OnlyEscapes x) :
    x.toOption.isSome = true ↔ ¬Escapes x := by
  cases x with
  | ok a => simp
  | error e => simp [Escapes, h e rfl]

theorem onlyEscapes_unpack {k : ℕ} {v : Bytes} : OnlyEscapes (unpack k v) := by
  intro e h
  unfold unpack at h
  split_ifs at h
  cases h
  exact unexpected_structError

theorem onlyEscapes_runOn {r : Read α} (h : OnlyRaises Unexpected r) {v : Bytes} :
    OnlyEscapes (runOn r v) := by
  intro e he
  unfold runOn at he
  split at he
  · cases he
  · cases he
    rename_i hr
    exact h _ _ _ hr

theorem onlyEscapes_bind_pure {x : Except Exc α} {f : α → β} (h : OnlyEscapes x) :
    OnlyEscapes (x >>= fun a => pure (f a)) := by
  intro e he
  cases x with
  | ok a => cases he
  | error e' =>
    cases he
    exact h _ rfl

theorem onlyEscapes_unpackWords : ∀ s : Bytes, OnlyEscapes (unpackWords s)
  | [] => by
    intro e h
    cases h
  | [_] | [_, _] | [_, _, _] => by
    intro e h
    cases h
    exact unexpected_structError
  | _ :: _ :: _ :: _ :: s => onlyEscapes_bind_pure (onlyEscapes_unpackWords s)

theorem onlyEscapes_keyOrigin {v : Bytes} : OnlyEscapes (KeyOriginInfo.deserialize v) :=
  onlyEscapes_bind_pure (onlyEscapes_unpackWords _)

theorem onlyEscapes_tapBip32Value {v : Bytes} : OnlyEscapes (tapBip32Value v) := by
  apply onlyEscapes_runOn
  refine onlyRaises_deserCompactSize.bind fun n => ((onlyRaises_read 32).readN n).bind fun hashes => ?_
  refine OnlyRaises.bind (r := readAll) ?_ fun s => ?_
  · intro s e s' h
    cases h
  · exact (onlyRaises_ofExcept onlyEscapes_keyOrigin).bind fun origin => onlyRaises_pure _

/-! ### Checks of a key -/

theorem checkKey_eq_ok {key : Bytes} {seen : List Bytes} {badLength : Bool} {dup length : String} :
    checkKey key seen dup badLength length = .ok () ↔ key ∉ seen ∧ badLength = false := by
  unfold checkKey
  split_ifs with h hlen <;> simp_all

theorem v2Key_eq_ok {version : ℕ} {key : Bytes} {seen : List Bytes} {badLength : Bool}
    {field dup length : String} : (do
      notInV0 version field
      checkKey key seen dup badLength length) = .ok () ↔
        version ≠ 0 ∧ key ∉ seen ∧ badLength = false := by
  rw [bind_eq_ok]
  simp only [checkKey_eq_ok]
  unfold notInV0
  split_ifs with h <;> simp [h]

theorem hdKeypathCheck_eq_ok {key : Bytes} {d : Dict Bytes KeyOriginInfo} {l : List ℕ} :
    hdKeypathCheck key d l = .ok () ↔ key.length ∈ l ∧ d.contains (key.drop 1) = false := by
  unfold hdKeypathCheck
  split_ifs with h hdup <;> simp_all

theorem unknownCheck_eq_ok {key : Bytes} {d : Dict Bytes Bytes} : (if d.contains key then
      .error (.psbtSerializationError "Duplicate key, key for unknown value already provided")
    else .ok () : Except Exc Unit) = .ok () ↔ d.contains key = false := by
  split_ifs with h <;> simp [h]

theorem not_escapes_unknown {d : Dict Bytes Bytes} {key : Bytes} : ¬Escapes
    (if d.contains key then
      .error (.psbtSerializationError "Duplicate key, key for unknown value already provided")
    else .ok () : Except Exc Unit) := by
  simp

theorem BeginsWith.rehash_ok {v : Bytes} {tx : CTransaction} (h : BeginsWith v tx) :
    tx.rehash R = .ok (tx.hashed R) := by
  obtain ⟨b, -, hb⟩ := h
  exact CTransaction.rehash_ok (CTransaction.Spelled.valid hb).onWire

/-- A computation after which nothing escapes. -/
theorem not_escapes_bind_pure {x : Except Exc α} {f : α → β} (h : ¬Escapes x) :
    ¬Escapes (x >>= fun a => pure (f a)) := fun hf => h (escapes_bind_pure.1 hf)

end Hwi
