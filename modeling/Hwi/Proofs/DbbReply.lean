import Hwi.Format.Dbb
import Hwi.Proofs.Der

/-! What the Digital Bitbox driver reads from a reply: when it returns, and when what it raises is
no `HWWError`. -/

namespace Hwi

namespace Json

theorem getItem_dict (fields : List (Str × Json)) (key : String) : (dict fields).getItem key =
    match fields.lookup key.toList with
    | some value => .ok value
    | none => .error .keyError := rfl

theorem getItem_dict_eq_ok_iff {fields : List (Str × Json)} {key : String} {value : Json} :
    (dict fields).getItem key = .ok value ↔ fields.lookup key.toList = some value := by
  rw [getItem_dict]
  cases fields.lookup key.toList with
  | none => simp
  | some v => simp

theorem getItem_unreported (key : String) (value : Json) :
    ¬Raising (fun e => ¬Unreported e) (value.getItem key) := by
  unfold getItem
  cases value with
  | dict fields =>
    dsimp only
    cases fields.lookup key.toList with
    | none => exact fun h => raising_error.1 h rfl
    | some v => exact not_raising_ok
  | _ => exact fun h => raising_error.1 h rfl

theorem first_unreported (value : Json) : ¬Raising (fun e => ¬Unreported e) value.first := by
  unfold first
  split
  all_goals first | exact not_raising_ok | exact fun h => raising_error.1 h rfl

theorem iter_unreported (value : Json) : ¬Raising (fun e => ¬Unreported e) value.iter := by
  unfold iter
  split
  all_goals first | exact not_raising_ok | exact fun h => raising_error.1 h rfl

theorem unhexlify_eq_ok_iff {value : Json} {b : Bytes} :
    value.unhexlify = .ok b ↔ ∃ s, value = str s ∧ Hwi.unhexlify s = .ok b := by
  unfold Json.unhexlify
  cases value with
  | str s => simp
  | _ => simp

end Json

theorem hexBytes_unreported (s : Str) : ¬Raising (fun e => ¬Unreported e) (hexBytes s) := by
  have hvalue (c : Char) : ¬Raising (fun e => ¬Unreported e) (hexBytes.hexValue c) := by
    unfold hexBytes.hexValue
    split_ifs
    all_goals first | exact not_raising_ok | exact fun h => raising_error.1 h rfl
  induction s using hexBytes.induct with
  | case1 => exact not_raising_ok
  | case2 a b rest ih =>
    unfold hexBytes
    refine not_raising_bind (hvalue a) fun _ _ => not_raising_bind (hvalue b) fun _ _ => ?_
    exact not_raising_bind ih fun _ _ => not_raising_ok
  | case3 s hnil hcons =>
    rw [hexBytes]
    · exact fun h => raising_error.1 h rfl
    · exact hnil
    · exact hcons

theorem Json.unhexlify_unreported (value : Json) : ¬Raising (fun e => ¬Unreported e) value.unhexlify := by
  unfold Json.unhexlify
  cases value with
  | str s =>
    dsimp only
    unfold Hwi.unhexlify
    split_ifs
    · exact hexBytes_unreported s
    · exact fun h => raising_error.1 h rfl
  | _ => exact fun h => raising_error.1 h rfl

/-! ### Keys -/

theorem Json.fromDigits_error {items : List Json} {n : ℕ} {e : Exc} (h : fromDigits items n = .error e) :
    (∃ msg, e = .badArgumentError msg) ∨ e = .typeError := by
  induction items generalizing n with
  | nil => cases h
  | cons item items ih =>
    cases item with
    | str s =>
      unfold fromDigits at h
      cases hd : digit s with
      | none =>
        rw [hd] at h
        cases h
        exact Or.inl ⟨_, rfl⟩
      | some d =>
        rw [hd] at h
        exact ih h
    | _ =>
      cases h
      exact Or.inr rfl

theorem Base58.decode_error {s : Str} {e : Exc} (h : decode s = .error e) :
    ∃ msg, e = .badArgumentError msg := by
  have hdigits (s : Str) (n : ℕ) (h : fromDigits s n = .error e) : ∃ msg, e = .badArgumentError msg := by
    induction s generalizing n with
    | nil => cases h
    | cons c s ih =>
      unfold fromDigits at h
      split_ifs at h
      · exact ih _ h
      · cases h
        exact ⟨_, rfl⟩
  unfold decode at h
  split_ifs at h
  rcases bind_eq_error.1 h with h | ⟨n, -, h⟩
  · exact hdigits s 0 h
  · cases h

/-- A value that is not decoded has something else than a digit in it, or is of another type. -/
theorem Json.decodeBase58_error {value : Json} {e : Exc} (h : value.decodeBase58 = .error e) :
    (∃ msg, e = .badArgumentError msg) ∨ e = .typeError := by
  unfold decodeBase58 at h
  split at h
  · exact Or.inl (Base58.decode_error h)
  · split_ifs at h
    rcases bind_eq_error.1 h with h | ⟨n, -, h⟩
    · exact fromDigits_error h
    · cases h
  · split_ifs at h
    rcases bind_eq_error.1 h with h | ⟨n, -, h⟩
    · exact fromDigits_error h
    · cases h
      exact Or.inr rfl
  · split_ifs at h
    cases h
    exact Or.inr rfl

namespace ExtendedKey

/-- Bytes with a known version that are no key are not reported. -/
theorem raising_fromBytes {data : Bytes} :
    Raising Unreported (fromBytes data) ↔ data.take 4 ∈ versions ∧ ¬Readable data := by
  by_cases hversion : data.take 4 ∈ versions
  · rw [and_iff_right hversion, ← fromBytes_isOk_iff]
    apply raising_iff_not_ok
    unfold fromBytes
    change ¬Raising _ (if data.take 4 ∉ versions then _ else _)
    rw [if_neg (not_not.2 hversion)]
    cases data[4]? with
    | none => exact fun h => raising_error.1 h rfl
    | some depth =>
      dsimp only
      rw [pure_eq_ok, ok_bind]
      refine not_raising_bind (unpack_unreported _ _) fun childNum _ => ?_
      cases isPrivate (data.take 4) with
      | false => exact not_raising_ok
      | true =>
        refine not_raising_bind ?_ fun _ _ => not_raising_ok
        unfold Curve.pointToBytes
        split
        · exact fun h => raising_error.1 h rfl
        · exact not_raising_ok
  · refine iff_of_false ?_ fun h => hversion h.1
    unfold fromBytes
    change ¬Raising _ (if data.take 4 ∉ versions then _ else _)
    rw [if_pos hversion]
    rintro ⟨e, he, hno⟩
    cases he
    exact Bool.noConfusion hno

end ExtendedKey

namespace Dbb

variable {c : Client} {reply : Reply}

theorem exists_deserializeXpub_eq_ok {xpub : Json} : (∃ key, deserializeXpub xpub = .ok key) ↔
    ∃ b, xpub.decodeBase58 = .ok b ∧ ExtendedKey.Readable (b.take (b.length - 4)) := by
  unfold deserializeXpub
  rw [exists_bind_eq_ok]
  exact exists_congr fun b => and_congr_right fun _ => ExtendedKey.fromBytes_isOk_iff _

theorem exists_replyXpub_eq_ok : (∃ xpub, replyXpub c reply = .ok xpub) ↔ HasKey reply := by
  unfold replyXpub
  rw [exists_bind_eq_ok]
  simp only [Json.getItem_dict_eq_ok_iff, exists_bind_eq_ok, pure_eq_ok, Except.ok.injEq, exists_eq',
    and_true, exists_deserializeXpub_eq_ok]
  constructor
  · rintro ⟨xpub, hxpub, b, hb, hread⟩
    exact ⟨_, ⟨xpub, b, hxpub, hb, rfl⟩, hread⟩
  · rintro ⟨data, ⟨xpub, b, hxpub, hb, rfl⟩, hread⟩
    exact ⟨xpub, hxpub, b, hb, hread⟩

/-- An answer is read, refused, or not reported. -/
theorem raising_replyXpub : Raising Unreported (replyXpub c reply) ↔ ¬(HasKey reply ∨ HasBadKey reply) := by
  unfold replyXpub
  cases hxpub : reply.get? "xpub" with
  | none =>
    have hget : (Json.dict reply).getItem "xpub" = .error .keyError := by
      rw [Json.getItem_dict, show reply.lookup "xpub".toList = none from hxpub]
    rw [hget]
    refine iff_of_true (raising_error.2 rfl) ?_
    rintro (⟨data, ⟨xpub, b, h, -⟩, -⟩ | ⟨data, ⟨xpub, b, h, -⟩, -⟩ | ⟨xpub, msg, h, -⟩)
    all_goals
      rw [hxpub] at h
      cases h
  | some xpub =>
    rw [Json.getItem_dict_eq_ok_iff.2 hxpub, ok_bind, raising_bind_pure]
    unfold deserializeXpub
    cases hb : xpub.decodeBase58 with
    | error e =>
      rw [error_bind, raising_error]
      rcases Json.decodeBase58_error hb with ⟨msg, rfl⟩ | rfl
      · exact iff_of_false Bool.noConfusion fun h => h (Or.inr (Or.inr ⟨xpub, msg, hxpub, hb⟩))
      · refine iff_of_true rfl ?_
        rintro (⟨data, ⟨xpub', b, h, hb', -⟩, -⟩ | ⟨data, ⟨xpub', b, h, hb', -⟩, -⟩ | ⟨xpub', msg, h, hb'⟩)
        all_goals
          rw [hxpub] at h
          cases h
          rw [hb] at hb'
          cases hb'
    | ok b =>
      rw [ok_bind, ExtendedKey.raising_fromBytes]
      have hbytes : KeyBytes reply (b.take (b.length - 4)) := ⟨xpub, b, hxpub, hb, rfl⟩
      constructor
      · rintro ⟨hversion, hread⟩
        rintro (⟨data, ⟨xpub', b', h, hb', rfl⟩, h'⟩ | ⟨data, ⟨xpub', b', h, hb', rfl⟩, h'⟩ | ⟨xpub', msg, h, hb'⟩)
        all_goals
          rw [hxpub] at h
          cases h
          rw [hb] at hb'
          cases hb'
        · exact hread h'
        · exact h' hversion
      · intro h
        constructor
        · by_contra hversion
          exact h (Or.inr (Or.inl ⟨_, hbytes, hversion⟩))
        · exact fun hread => h (Or.inl ⟨_, hbytes, hread⟩)

/-! ### Signatures -/

theorem signField_eq_ok_iff {key : String} {b : Bytes} : signField reply key = .ok b ↔
    ∃ sign item s, reply.get? "sign" = some sign ∧ sign.first = .ok item ∧
      item.getItem key = .ok (.str s) ∧ unhexlify s = .ok b := by
  unfold signField
  simp only [bind_eq_ok, Json.getItem_dict_eq_ok_iff, Json.unhexlify_eq_ok_iff]
  constructor
  · rintro ⟨sign, hsign, item, hitem, value, hvalue, s, rfl, hs⟩
    exact ⟨sign, item, s, hsign, hitem, hvalue, hs⟩
  · rintro ⟨sign, item, s, hsign, hitem, hvalue, hs⟩
    exact ⟨sign, hsign, item, hitem, _, hvalue, s, rfl, hs⟩

theorem serSigCompact_eq_ok_iff {r s recid b : Bytes} : serSigCompact r s recid = .ok b ↔
    ∃ a, recid = [a] ∧ 27 + 4 + a.toNat < 256 ∧ b = UInt8.ofNat (27 + 4 + a.toNat) :: (r ++ s) := by
  unfold serSigCompact
  constructor
  · intro h
    obtain ⟨n, hn, h⟩ := bind_eq_ok.1 h
    obtain ⟨head, hhead, h⟩ := bind_eq_ok.1 h
    cases h
    obtain ⟨hlen, rfl⟩ := ExtendedKey.unpack_eq_ok hn
    obtain ⟨a, rfl⟩ := List.length_eq_one_iff.1 hlen
    have hvalue : ofLE [a] = a.toNat := by simp [ofLE]
    rw [hvalue] at hhead
    unfold pack at hhead
    split_ifs at hhead with hfits
    cases hhead
    have hlt : 27 + 4 + a.toNat < 256 := by
      have h256 := hfits.2
      norm_num at h256
      omega
    refine ⟨a, rfl, hlt, ?_⟩
    have hnat : (27 + 4 + (a.toNat : ℤ)).toNat = 27 + 4 + a.toNat := by omega
    rw [hnat, toLE_one hlt]
    rfl
  · rintro ⟨a, rfl, hlt, rfl⟩
    have hvalue : ofLE [a] = a.toNat := by simp [ofLE]
    have hunpack : unpack 1 [a] = .ok a.toNat := by simp [unpack, hvalue]
    have hpack := pack_natCast (k := 1) (n := 27 + 4 + a.toNat) (by norm_num; omega)
    rw [hunpack, ok_bind, show (27 + 4 + (a.toNat : ℤ)) = ((27 + 4 + a.toNat : ℕ) : ℤ) by push_cast; rfl,
      hpack, toLE_one hlt]
    rfl

/-- What `sign_message` makes of an answer. -/
theorem compactSig_eq_ok_iff {s : Str} : compactSig reply = .ok s ↔ ∃ sig recid,
    HasSignature reply sig recid ∧ s = b64encode (UInt8.ofNat (27 + 4 + recid.toNat) :: sig.take 64) := by
  have htake (sig : Bytes) : sig.take 32 ++ (sig.drop 32).take 32 = sig.take 64 := (List.take_add (i := 32) (j := 32)).symm
  unfold compactSig
  simp only [bind_eq_ok, signField_eq_ok_iff, serSigCompact_eq_ok_iff, htake, pure_eq_ok, Except.ok.injEq]
  constructor
  · rintro ⟨sig, ⟨sign, item, text, hsign, hitem, htext, hsig⟩, recid, ⟨sign', item', text', hsign', hitem',
      htext', hrecid⟩, b, ⟨a, rfl, hlt, rfl⟩, rfl⟩
    rw [hsign] at hsign'
    cases hsign'
    rw [hitem] at hitem'
    cases hitem'
    exact ⟨sig, a, ⟨sign, item, text, text', hsign, hitem, htext, hsig, htext', hrecid, hlt⟩, rfl⟩
  · rintro ⟨sig, a, ⟨sign, item, text, text', hsign, hitem, htext, hsig, htext', hrecid, hlt⟩, rfl⟩
    exact ⟨sig, ⟨sign, item, text, hsign, hitem, htext, hsig⟩, [a], ⟨sign, item, text', hsign, hitem, htext',
      hrecid⟩, _, ⟨a, rfl, hlt, rfl⟩, rfl⟩

theorem signField_unreported (key : String) : ¬Raising (fun e => ¬Unreported e) (signField reply key) :=
  not_raising_bind (Json.getItem_unreported _ _) fun _ _ =>
    not_raising_bind (Json.first_unreported _) fun _ _ =>
      not_raising_bind (Json.getItem_unreported _ _) fun _ _ => Json.unhexlify_unreported _

theorem raising_compactSig :
    Raising Unreported (compactSig reply) ↔ ¬∃ sig recid, HasSignature reply sig recid := by
  have hok : (∃ s, compactSig reply = .ok s) ↔ ∃ sig recid, HasSignature reply sig recid := by
    simp only [compactSig_eq_ok_iff]
    constructor
    · rintro ⟨s, sig, recid, h, -⟩
      exact ⟨sig, recid, h⟩
    · rintro ⟨sig, recid, h⟩
      exact ⟨_, sig, recid, h, rfl⟩
  rw [← hok]
  apply raising_iff_not_ok
  refine not_raising_bind (signField_unreported _) fun _ _ => ?_
  refine not_raising_bind (signField_unreported _) fun _ _ => ?_
  refine not_raising_bind ?_ fun _ _ => not_raising_ok
  refine not_raising_bind (unpack_unreported _ _) fun n _ => ?_
  have hpack := pack_unreported 1 (27 + 4 + n)
  push_cast at hpack
  exact not_raising_bind hpack fun _ _ => not_raising_ok

theorem derInteger_eq_error {r : Bytes} {e : Exc} (h : derInteger r = .error e) : e = .indexError := by
  unfold derInteger at h
  split at h
  · cases h
    rfl
  · cases h

theorem exists_serSigDer_eq_ok {sig : Bytes} :
    (∃ b, serSigDer (sig.take 32) ((sig.drop 32).take 32) = .ok b) ↔ Signature sig := by
  have hzero {r : Bytes} (h : ¬∃ a ∈ r, a ≠ 0) : derInteger r = .error .indexError := by
    have hnil : r.dropWhile (fun b => b = 0) = [] := by
      rw [List.dropWhile_eq_nil_iff]
      intro a ha
      by_contra hne
      exact h ⟨a, ha, fun h0 => hne (decide_eq_true h0)⟩
    unfold derInteger
    rw [hnil]
  constructor
  · intro h
    constructor
    · by_contra hno
      rw [serSigDer, hzero hno] at h
      obtain ⟨b, hb⟩ := h
      cases hb
    · by_contra hno
      rw [serSigDer, hzero hno] at h
      obtain ⟨b, hb⟩ := h
      obtain ⟨r, -, hb⟩ := bind_eq_ok.1 hb
      cases hb
  · rintro ⟨hr, hs⟩
    obtain ⟨r', hr', -, hrlen, -⟩ := Der.derInteger_spec (List.length_take_le 32 sig) hr
    obtain ⟨s', hs', -, hslen, -⟩ := Der.derInteger_spec (List.length_take_le 32 (sig.drop 32)) hs
    exact ⟨_, serSigDer_eq hr' hs' hrlen hslen⟩

theorem serSigDer_unreported (r s : Bytes) : ¬Raising (fun e => ¬Unreported e) (serSigDer r s) := by
  have hder (r : Bytes) : ¬Raising (fun e => ¬Unreported e) (derInteger r) := by
    rintro ⟨e, he, hno⟩
    rw [derInteger_eq_error he] at hno
    exact hno rfl
  refine not_raising_bind (hder r) fun r' _ => not_raising_bind (hder s) fun s' _ => ?_
  have htotal := pack_unreported 1 (r'.length + s'.length + 4)
  push_cast at htotal
  refine not_raising_bind htotal fun _ _ => ?_
  refine not_raising_bind (pack_unreported _ _) fun _ _ => ?_
  exact not_raising_bind (pack_unreported _ _) fun _ _ => not_raising_ok

theorem exists_derSigs_eq_ok : (∃ sigs, derSigs reply = .ok sigs) ↔ HasSignatures reply := by
  unfold derSigs
  simp only [exists_bind_eq_ok (f := fun sign : Json => _), exists_bind_eq_ok (f := fun items : List Json => _),
    exists_mapM_mapM, Json.getItem_dict_eq_ok_iff, exists_serSigDer_eq_ok]
  constructor
  · rintro ⟨sign, hsign, items, hitems, h⟩
    refine ⟨sign, items, hsign, hitems, fun item hitem => ?_⟩
    obtain ⟨sig, hsig, hgood⟩ := h item hitem
    obtain ⟨value, hvalue, hsig⟩ := bind_eq_ok.1 hsig
    obtain ⟨text, rfl, htext⟩ := Json.unhexlify_eq_ok_iff.1 hsig
    exact ⟨text, sig, hvalue, htext, hgood⟩
  · rintro ⟨sign, items, hsign, hitems, h⟩
    refine ⟨sign, hsign, items, hitems, fun item hitem => ?_⟩
    obtain ⟨text, sig, hvalue, htext, hgood⟩ := h item hitem
    refine ⟨sig, ?_, hgood⟩
    rw [hvalue, ok_bind]
    exact htext

theorem raising_derSigs : Raising Unreported (derSigs reply) ↔ ¬HasSignatures reply := by
  rw [← exists_derSigs_eq_ok]
  apply raising_iff_not_ok
  refine not_raising_bind (Json.getItem_unreported _ _) fun _ _ => ?_
  refine not_raising_bind (Json.iter_unreported _) fun _ _ => ?_
  refine not_raising_bind (not_raising_mapM fun item _ => ?_) fun _ _ => ?_
  · exact not_raising_bind (Json.getItem_unreported _ _) fun _ _ => Json.unhexlify_unreported _
  · exact not_raising_mapM fun sig _ => serSigDer_unreported _ _

/-! ### Errors -/

theorem getCode_eq_ok_iff {error : Json} {code : Code} : getCode error = .ok code ↔
    (∃ n, error.getItem "code" = .ok (.int n) ∧ code = .number n) ∨
    (∃ b, error.getItem "code" = .ok (.bool b) ∧ code = .number b.toNat) ∨
    ∃ s, error.getItem "code" = .ok (.str s) ∧ code = .text s := by
  unfold getCode
  cases error.getItem "code" with
  | error e => simp
  | ok value => cases value <;> simp [eq_comm]

theorem getError_eq_ok_iff {error : Json} {msg : String} : getError error = .ok msg ↔
    ∃ s, error.getItem "message" = .ok (.str s) ∧ msg = String.ofList s := by
  unfold getError
  cases error.getItem "message" with
  | error e => simp
  | ok value => cases value <;> simp [eq_comm]

/-- A truth value is none of the codes. -/
theorem not_listed_bool (b : Bool) : ¬Listed (.number b.toNat) := by
  unfold Listed
  cases b <;> decide

theorem translated_iff {error : Json} : Translated error ↔
    ∃ code, getCode error = .ok code ∧ Listed code ∧ ∃ msg, getError error = .ok msg := by
  simp only [getCode_eq_ok_iff, getError_eq_ok_iff]
  constructor
  · rintro ⟨⟨s, hs⟩, ⟨n, hn, hlisted⟩ | ⟨t, ht, hlisted⟩⟩
    · exact ⟨_, Or.inl ⟨n, hn, rfl⟩, hlisted, _, s, hs, rfl⟩
    · exact ⟨_, Or.inr (Or.inr ⟨t, ht, rfl⟩), hlisted, _, s, hs, rfl⟩
  · rintro ⟨code, ⟨n, hn, rfl⟩ | ⟨b, hb, rfl⟩ | ⟨t, ht, rfl⟩, hlisted, msg, s, hs, -⟩
    · exact ⟨⟨s, hs⟩, Or.inl ⟨n, hn, hlisted⟩⟩
    · exact absurd hlisted (not_listed_bool b)
    · exact ⟨⟨s, hs⟩, Or.inr ⟨t, ht, hlisted⟩⟩

theorem getCode_unreported (error : Json) : ¬Raising (fun e => ¬Unreported e) (getCode error) := by
  refine not_raising_bind (Json.getItem_unreported _ _) fun value _ => ?_
  cases value with
  | int n => exact not_raising_ok
  | bool b => exact not_raising_ok
  | str s => exact not_raising_ok
  | _ => exact fun h => raising_error.1 h rfl

theorem getError_unreported (error : Json) : ¬Raising (fun e => ¬Unreported e) (getError error) := by
  refine not_raising_bind (Json.getItem_unreported _ _) fun value _ => ?_
  cases value with
  | str s => exact not_raising_ok
  | _ => exact fun h => raising_error.1 h rfl

/-- What `digitalbitbox_exception` does with an error: it raises an `HWWError` for a translated
one, and for another one it does nothing or raises something else. -/
theorem translate_cases (error : Json) :
    (Translated error ∧ ∃ e, translate error = .error e ∧ e.isHWWError = true) ∨
    (¬Translated error ∧ (translate error = .ok () ∨ ∃ e, translate error = .error e ∧ Unreported e)) := by
  rw [translated_iff]
  unfold translate
  cases hcode : getCode error with
  | error e =>
    right
    refine ⟨?_, Or.inr ⟨e, rfl, ?_⟩⟩
    · rintro ⟨code, h, -⟩
      cases h
    · by_contra hno
      exact getCode_unreported error ⟨e, hcode, hno⟩
  | ok code =>
    have hmsg (f : String → Exc) (hf : ∀ msg, (f msg).isHWWError = true) (hlisted : Listed code) :
        ((∃ code', Except.ok (ε := Exc) code = .ok code' ∧ Listed code' ∧ ∃ msg, getError error = .ok msg) ∧
          ∃ e, (getError error >>= fun msg => (throw (f msg) : Except Exc Unit)) = .error e ∧
            e.isHWWError = true) ∨
        (¬(∃ code', Except.ok (ε := Exc) code = .ok code' ∧ Listed code' ∧ ∃ msg, getError error = .ok msg) ∧
          ((getError error >>= fun msg => (throw (f msg) : Except Exc Unit)) = .ok () ∨
            ∃ e, (getError error >>= fun msg => (throw (f msg) : Except Exc Unit)) = .error e ∧
              Unreported e)) := by
      cases herror : getError error with
      | ok msg => exact Or.inl ⟨⟨code, rfl, hlisted, msg, rfl⟩, _, rfl, hf msg⟩
      | error e =>
        refine Or.inr ⟨?_, Or.inr ⟨e, rfl, ?_⟩⟩
        · rintro ⟨code', -, -, msg, h⟩
          cases h
        · by_contra hno
          exact getError_unreported error ⟨e, herror, hno⟩
    simp only [ok_bind]
    split_ifs with hbad hfail hcancel hsetup
    · exact hmsg _ (fun _ => rfl) (Or.inl hbad)
    · exact hmsg _ (fun _ => rfl) (Or.inr (Or.inl hfail))
    · exact hmsg _ (fun _ => rfl) (Or.inr (Or.inr (Or.inl hcancel)))
    · exact hmsg _ (fun _ => rfl) (Or.inr (Or.inr (Or.inr hsetup)))
    · refine Or.inr ⟨?_, Or.inl rfl⟩
      rintro ⟨code', h, hlisted, -⟩
      cases h
      rcases hlisted with h | h | h | h
      · exact hbad h
      · exact hfail h
      · exact hcancel h
      · exact hsetup h

end Dbb

end Hwi
