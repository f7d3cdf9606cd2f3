import Hwi.Format.Input
import Hwi.Proofs.RecordMap

/-! The values of PSBT records: origins, taproot paths, MuSig2 keys. -/

namespace Hwi

open Reader

theorem runOn_of_exactly {α : Type} {r : Read α} {s : Bytes} {a : α} (h : Exactly r s a) :
    runOn r s = .ok a := by
  rw [runOn, h.run]

/-- A key whose first byte is below 253 has that byte as its type. -/
theorem runOn_type {b : UInt8} (h : b < 253) (rest : Bytes) :
    runOn deserCompactSize (b :: rest) = .ok b.toNat := by
  have hb : b.toNat < 253 := h
  have hex := exactly_deserCompactSize (n := b.toNat) (by omega) rest
  rw [serCompactSize, if_pos hb, toLE_one (by omega), UInt8.ofNat_toNat] at hex
  rw [runOn, ← List.singleton_append, hex]

theorem unpack_four {n : ℕ} (h : n < 2 ^ 32) : unpack 4 (toLE 4 n) = .ok n := by
  rw [unpack, if_pos (toLE_length 4 n), ofLE_toLE (by omega)]

/-! ### Origins -/

theorem pathBytes_cons (i : ℤ) (path : List ℤ) :
    pathBytes (i :: path) = toLE 4 i.toNat ++ pathBytes path := List.flatMap_cons

theorem pathBytes_length (path : List ℤ) : (pathBytes path).length = 4 * path.length := by
  induction path with
  | nil => rfl
  | cons i path ih =>
    rw [pathBytes_cons, List.length_append, toLE_length, ih, List.length_cons]
    omega

theorem unpackWords_toLE {n : ℕ} (h : n < 2 ^ 32) (s : Bytes) :
    unpackWords (toLE 4 n ++ s) = (do
      let path ← unpackWords s
      return n :: path) := by
  have hn : ofLE (toLE 4 n) = n := ofLE_toLE (by omega)
  simp only [toLE, List.cons_append, List.nil_append, unpackWords] at hn ⊢
  rw [hn]

theorem unpackWords_pathBytes {path : List ℤ} (h : ∀ i ∈ path, 0 ≤ i ∧ i < 2 ^ 32) :
    unpackWords (pathBytes path) = .ok (path.map Int.toNat) := by
  induction path with
  | nil => rfl
  | cons i t ih =>
    obtain ⟨hi, hlt⟩ := h i List.mem_cons_self
    rw [pathBytes_cons, unpackWords_toLE (by omega), ih fun j hj => h j (List.mem_cons_of_mem _ hj)]
    rfl

theorem packWords_ok {path : List ℤ} (h : ∀ i ∈ path, 0 ≤ i ∧ i < 2 ^ 32) :
    packWords path = .ok (pathBytes path) := by
  rw [packWords, mapM_ok (g := fun i => toLE 4 i.toNat)]
  · rfl
  · intro i hi
    obtain ⟨h0, hlt⟩ := h i hi
    rw [pack, if_pos ⟨h0, by omega⟩]

theorem KeyOriginInfo.serialize_ok {o : KeyOriginInfo} (h : o.Valid) : o.serialize = .ok o.bytes := by
  rw [serialize, packWords_ok h.path]
  rfl

theorem KeyOriginInfo.deserialize_bytes {o : KeyOriginInfo} (h : o.Valid) :
    deserialize o.bytes = .ok o := by
  obtain ⟨fingerprint, path⟩ := o
  have hmap : (path.map Int.toNat).map Int.ofNat = path := by
    rw [List.map_map, List.map_congr_left (g := id), List.map_id]
    intro i hi
    exact Int.toNat_of_nonneg (h.path i hi).1
  have hcut : (bytes ⟨fingerprint, path⟩).take 4 = fingerprint ∧
      (bytes ⟨fingerprint, path⟩).drop 4 = pathBytes path := by
    rcases h.fingerprint with h4 | ⟨hlt, hnil⟩
    · exact ⟨List.take_left' h4, List.drop_left' h4⟩
    · have hpath : path = [] := hnil
      have hlt' : fingerprint.length < 4 := hlt
      subst hpath
      simp [bytes, pathBytes, List.take_of_length_le hlt'.le, List.drop_eq_nil_of_le hlt'.le]
  rw [deserialize, hcut.1, hcut.2, unpackWords_pathBytes h.path]
  simp [hmap]

/-! ### Taproot paths -/

/-- What as many reads of 32 bytes return. -/
def cutHashes : ℕ → Bytes → List Bytes
  | 0, _ => []
  | n + 1, s => s.take 32 :: cutHashes n (s.drop 32)

theorem cutHashes_length (n : ℕ) (s : Bytes) : (cutHashes n s).length = n := by
  induction n generalizing s with
  | zero => rfl
  | succ n ih => rw [cutHashes, List.length_cons, ih]

/-- Hashes are read to the end of the stream if there are not enough. -/
theorem readN_hashes (n : ℕ) (s : Bytes) :
    readN (read 32) n s = .ok (cutHashes n s) (s.drop (32 * n)) := by
  induction n generalizing s with
  | zero => rfl
  | succ n ih =>
    have hread : read 32 s = .ok (s.take 32) (s.drop 32) := rfl
    rw [readN, bind_apply, hread]
    dsimp only
    rw [bind_apply, ih, List.drop_drop, Nat.mul_succ, Nat.add_comm]
    rfl

theorem flatten_eq_flatMap_id (l : List Bytes) : l.flatten = l.flatMap id := by
  rw [List.flatMap_id]

theorem tapBip32Value_bytes {leafHashes : OrderedSet Bytes} {origin : KeyOriginInfo}
    (h : TapPathValid leafHashes origin) :
    tapBip32Value (tapPathBytes leafHashes origin) = .ok (leafHashes, origin) := by
  have hhashes : Exactly (readN (read 32) leafHashes.elems.length) leafHashes.elems.flatten
      leafHashes.elems := by
    rw [flatten_eq_flatMap_id]
    exact exactly_readN fun a ha => exactly_read (h.leafHash a ha)
  have hset : leafHashes.elems.foldl OrderedSet.add ∅ = leafHashes := by
    obtain ⟨elems, hnd⟩ := leafHashes
    rw [OrderedSet.mk.injEq]
    exact OrderedSet.foldl_add_elems elems ∅ hnd
  rw [tapBip32Value, tapPathBytes, runOn, List.append_assoc, bind_apply,
    exactly_deserCompactSize h.size]
  dsimp only
  rw [bind_apply, hhashes]
  simp only [bind_apply, readAll, KeyOriginInfo.deserialize_bytes h.origin, ofExcept_ok, pure_apply,
    hset]

theorem serTapBip32Value_ok {R : Runtime} {leafHashes : OrderedSet Bytes} {origin : KeyOriginInfo}
    (h : origin.Valid) :
    serTapBip32Value R leafHashes origin = .ok (tapPathBytes (leafHashes.iterated R) origin) := by
  rw [serTapBip32Value, KeyOriginInfo.serialize_ok h, tapPathBytes, OrderedSet.iterated,
    (R.setOrder_perm leafHashes.elems).length_eq]
  rfl

theorem TapPathValid.iterated {R : Runtime} {leafHashes : OrderedSet Bytes} {origin : KeyOriginInfo}
    (h : TapPathValid leafHashes origin) : TapPathValid (leafHashes.iterated R) origin where
  size := by
    rw [OrderedSet.iterated, (R.setOrder_perm _).length_eq]
    exact h.size
  leafHash a ha := h.leafHash a ((R.setOrder_perm _).mem_iff.1 ha)
  origin := h.origin

/-! ### MuSig2 -/

/-- Cutting a concatenation of pieces of one length gives the pieces back. -/
theorem cut_flatten {k : ℕ} {l : List Bytes} (h : ∀ a ∈ l, a.length = k) :
    ((List.range l.length).map fun i => (l.flatten.drop (k * i)).take k) = l := by
  induction l with
  | nil => rfl
  | cons a t ih =>
    have ha : a.length = k := h a List.mem_cons_self
    have ht := ih fun b hb => h b (List.mem_cons_of_mem _ hb)
    rw [List.length_cons, List.range_succ_eq_map, List.map_cons, List.map_map, List.flatten_cons,
      Nat.mul_zero, List.drop_zero, List.take_left' ha]
    congr 1
    refine (List.map_congr_left fun i _ => ?_).trans ht
    rw [Function.comp_apply, Nat.mul_succ, Nat.add_comm, ← List.drop_drop, List.drop_left' ha]

theorem flatten_length {k : ℕ} {l : List Bytes} (h : ∀ a ∈ l, a.length = k) :
    l.flatten.length = k * l.length := by
  induction l with
  | nil => rfl
  | cons a t ih =>
    rw [List.flatten_cons, List.length_append, h a List.mem_cons_self,
      ih fun b hb => h b (List.mem_cons_of_mem _ hb), List.length_cons, Nat.mul_succ, Nat.add_comm]

theorem musig2Pubkeys_flatten {pubkeys : List Bytes} (hne : pubkeys ≠ [])
    (h : ∀ pubkey ∈ pubkeys, pubkey.length = 33) : musig2Pubkeys pubkeys.flatten = .ok pubkeys := by
  have hpos := List.length_pos_iff.2 hne
  rw [musig2Pubkeys, flatten_length h, if_neg (by omega), if_neg (by omega),
    Nat.mul_div_cancel_left _ (by decide), cut_flatten h]

theorem serMusig2Key_length {k : Musig2Key} (h : k.Valid) :
    (serMusig2Key k).length = if k.2.2.isSome then 98 else 66 := by
  obtain ⟨pubkey, aggregate, leafHash⟩ := k
  have h1 : pubkey.length = 33 := h.pubkey
  have h2 : aggregate.length = 33 := h.aggregate
  cases leafHash with
  | none => simp [serMusig2Key, h1, h2]
  | some hash =>
    have h3 : hash.length = 32 := h.leafHash hash rfl
    simp [serMusig2Key, h1, h2, h3]

theorem musig2Key_key {k : Musig2Key} (h : k.Valid) (b : UInt8) :
    musig2Key (b :: serMusig2Key k) = k := by
  have hlen := serMusig2Key_length h
  obtain ⟨pubkey, aggregate, leafHash⟩ := k
  have h1 : pubkey.length = 33 := h.pubkey
  have h2 : aggregate.length = 33 := h.aggregate
  have hser : serMusig2Key (pubkey, aggregate, leafHash) =
      pubkey ++ (aggregate ++ leafHash.getD []) := List.append_assoc ..
  have hdrop : (pubkey ++ (aggregate ++ leafHash.getD [])).drop 66 = leafHash.getD [] := by
    rw [show 66 = 33 + 33 from rfl, ← List.drop_drop, List.drop_left' h1, List.drop_left' h2]
  rw [musig2Key, hser, List.drop_succ_cons, List.drop_succ_cons, List.drop_succ_cons, List.drop_zero,
    List.take_left' h1, List.drop_left' h1, List.take_left' h2, hdrop, ← hser, List.length_cons, hlen]
  cases leafHash <;> rfl

/-! ### The checks of a record -/

theorem fixedInt_toOption (n : ℕ) (msg : String) (v : Bytes) :
    (fixedInt n msg v).toOption = (unpack n v).toOption := by
  unfold fixedInt unpack
  split_ifs <;> rfl


theorem checkKey_ok {key : Bytes} {seen : List Bytes} {badLength : Bool} (dup length : String)
    (h : key ∉ seen) (hlen : badLength = false) : checkKey key seen dup badLength length = .ok () := by
  rw [checkKey, if_neg h, if_neg (by simp [hlen])]

/-! ### The records of a field -/

section Records

variable {α κ ν ε : Type} {record : ε → MapRecord} {type : ℕ}

/-- A section succeeds with the records of these entries, in some order. -/
def Writes (x : Except Exc (List MapRecord)) (rs : List MapRecord) : Prop :=
  ∃ rs', x = .ok rs' ∧ rs'.Perm rs

theorem Writes.of_eq {x : Except Exc (List MapRecord)} {rs : List MapRecord} (h : x = .ok rs) :
    Writes x rs := ⟨rs, h, .refl rs⟩

theorem writes_option {entry : α → ε} {serialize : α → Except Exc Bytes} {o : Option α}
    (h : ∀ a, o = some a → serialize a = .ok (record (entry a)).2)
    (hkey : ∀ a, (record (entry a)).1 = serCompactSize type) :
    Writes (optionRecord type serialize o) ((optionEntries entry o).map record) := by
  cases o with
  | none => exact .of_eq rfl
  | some a =>
    refine .of_eq ?_
    rw [optionRecord, h a rfl, ok_bind, ← hkey a]
    rfl

theorem writes_bytes {entry : Bytes → ε} {v : Bytes}
    (h : ∀ v, record (entry v) = (serCompactSize type, v)) :
    Writes (.ok (bytesRecord type v)) ((listEntries entry v).map record) := by
  cases v with
  | nil => exact .of_eq rfl
  | cons b t => exact .of_eq (by simp [bytesRecord, listEntries, h])

theorem dictRecords_ok {entry : κ → ν → ε} {keyData : κ → Bytes} {serialize : ν → Except Exc Bytes}
    {items : List (κ × ν)} (h : ∀ k v, (k, v) ∈ items → serialize v = .ok (record (entry k v)).2)
    (hkey : ∀ k v, (record (entry k v)).1 = serCompactSize type ++ keyData k) :
    dictRecords type keyData serialize items = .ok (items.map fun e => record (entry e.1 e.2)) := by
  refine mapM_ok ?_
  rintro ⟨k, v⟩ hkv
  dsimp only
  rw [h k v hkv, ok_bind, ← hkey k v]
  rfl

theorem sortedItems_perm (d : Dict Bytes ν) : (sortedItems d).Perm d.items :=
  List.perm_insertionSort _ _

theorem writes_dict {entry : κ → ν → ε} {keyData : κ → Bytes} {serialize : ν → Except Exc Bytes}
    {items : List (κ × ν)} {d : Dict κ ν} (hitems : items.Perm d.items)
    (h : ∀ k v, (k, v) ∈ d.items → serialize v = .ok (record (entry k v)).2)
    (hkey : ∀ k v, (record (entry k v)).1 = serCompactSize type ++ keyData k) :
    Writes (dictRecords type keyData serialize items) ((dictEntries entry d).map record) := by
  refine ⟨_, dictRecords_ok (fun k v hkv => h k v (hitems.mem_iff.1 hkv)) hkey, ?_⟩
  rw [dictEntries, List.map_map]
  exact hitems.map _

theorem writes_unknown {entry : Bytes → Bytes → ε} {d : Dict Bytes Bytes}
    (h : ∀ k v, record (entry k v) = (k, v)) :
    Writes (.ok (sortedItems d)) ((dictEntries entry d).map record) := by
  refine ⟨_, rfl, ?_⟩
  rw [dictEntries, List.map_map]
  refine (sortedItems_perm d).trans (List.Perm.of_eq ?_)
  simp [Function.comp_def, h]

/-- Sections that write these records, each in some order, write the whole map. -/
theorem serializeMap_ok {secs : List (Except Exc (List MapRecord))} {recs : List (List MapRecord)}
    (h : List.Forall₂ Writes secs recs) :
    ∃ rs : List MapRecord, serializeMap secs = .ok (mapBytes rs) ∧ rs.Perm recs.flatten := by
  have hmapM : ∃ rss, secs.mapM id = .ok rss ∧ rss.flatten.Perm recs.flatten := by
    induction h with
    | nil => exact ⟨[], rfl, .refl _⟩
    | cons hw _ ih =>
      obtain ⟨rs, hrs, hperm⟩ := hw
      obtain ⟨rss, hrss, hperms⟩ := ih
      refine ⟨rs :: rss, ?_, hperm.append hperms⟩
      rw [List.mapM_cons, id_eq, hrs, ok_bind, hrss]
      rfl
  obtain ⟨rss, hrss, hperm⟩ := hmapM
  refine ⟨rss.flatten, ?_, hperm⟩
  rw [serializeMap, hrss]
  rfl

theorem serializeMap_fields_ok {φ : Type} {fields : List φ} {sec : φ → Except Exc (List MapRecord)}
    {recs : φ → List MapRecord} (h : ∀ f ∈ fields, Writes (sec f) (recs f)) :
    ∃ rs : List MapRecord, serializeMap (fields.map sec) = .ok (mapBytes rs) ∧
      rs.Perm (fields.flatMap recs) := by
  rw [List.flatMap_def]
  refine serializeMap_ok ?_
  rw [List.forall₂_map_left_iff, List.forall₂_map_right_iff, List.forall₂_same]
  exact h

end Records

end Hwi
