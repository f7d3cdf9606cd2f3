import Hwi.Proofs.Printed
import Hwi.Proofs.PsbtWrite
import Hwi.Spec.RegisteredDescriptor

/-! A registered descriptor survives its storage. -/

namespace Hwi

namespace LedgerBitcoin

theorem utf8Decode_utf8 (s : Str) : utf8Decode (utf8 s) = .ok s := by
  have hdecode : String.fromUTF8? (String.ofList s).toUTF8 = some (String.ofList s) := by
    unfold String.fromUTF8?
    rw [String.toUTF8_eq_toByteArray, dif_pos (String.ofList s).isValidUTF8]
    rfl
  unfold utf8Decode utf8
  rw [Array.toArray_toList, hdecode]
  simp

end LedgerBitcoin

namespace RegisteredDescriptor

open LedgerBitcoin Reader

/-- Its texts and its registration are no longer than a `bytes` object can be. -/
structure Fits (r : RegisteredDescriptor) : Prop where
  name : (utf8 r.name).length ≤ maxBytes
  descriptor : (utf8 r.descriptor.toString).length ≤ maxBytes
  deviceType : (utf8 r.deviceType).length ≤ maxBytes
  registration : r.registration.length ≤ maxBytes

/-- What is stored, part by part. -/
def parts (name descriptor deviceType : Str) (registration : Bytes) : Bytes :=
  magic ++ (serCompactSize 1 ++ (serString (utf8 name) ++ (serString (utf8 descriptor) ++
    (serString (utf8 deviceType) ++ serString registration))))

theorem serialize_new (name : Str) (d : Descriptor) (deviceType : Str) (registration : Bytes) :
    (new name d deviceType registration).serialize =
      b64encode (parts name d.toString deviceType registration) := by
  unfold serialize parts
  simp only [List.append_assoc]
  rfl

instance (r : RegisteredDescriptor) : Decidable r.Fits :=
  decidable_of_iff ((utf8 r.name).length ≤ maxBytes ∧
      (utf8 r.descriptor.toString).length ≤ maxBytes ∧ (utf8 r.deviceType).length ≤ maxBytes ∧
      r.registration.length ≤ maxBytes)
    ⟨fun ⟨h₁, h₂, h₃, h₄⟩ => ⟨h₁, h₂, h₃, h₄⟩, fun ⟨h₁, h₂, h₃, h₄⟩ => ⟨h₁, h₂, h₃, h₄⟩⟩

theorem exactly_deserializeStream {R : Runtime} {name deviceType : Str} {d d' : Descriptor}
    {registration : Bytes} (hfits : (new name d deviceType registration).Fits)
    (hd : parseDescriptor d.toString = .ok d') :
    Exactly (deserializeStream R) (parts name d.toString deviceType registration)
      (new name d' deviceType registration) := by
  have hdescriptor : (utf8Decode (utf8 d.toString) >>= parseDescriptor) = .ok d' := by
    rw [utf8Decode_utf8, ok_bind, hd]
  have hmagic : Exactly (read 5) magic magic := exactly_read rfl
  unfold deserializeStream
  refine hmagic.bind ?_
  rw [if_neg (not_not.2 rfl)]
  refine (exactly_deserCompactSize (by decide)).bind ?_
  rw [if_neg (not_not.2 rfl)]
  refine (exactly_deserString hfits.name).bind ?_
  apply Exactly.ofExcept_bind (utf8Decode_utf8 name)
  refine (exactly_deserString hfits.descriptor).bind ?_
  apply Exactly.ofExcept_bind hdescriptor
  refine (exactly_deserString hfits.deviceType).bind ?_
  apply Exactly.ofExcept_bind (utf8Decode_utf8 deviceType)
  exact (exactly_deserString hfits.registration).bind_pure

/-- What is stored is read back: the same name, device type and registration, and
a descriptor that shows the same. -/
theorem deserialize_serialize {R : Runtime} {s : Str} {d : Descriptor} (name deviceType : Str)
    (registration : Bytes) (h : parseDescriptor s = .ok d) (hd : d.Regular)
    (hfits : (new name d deviceType registration).Fits) :
    ∃ r, deserialize R (new name d deviceType registration).serialize = .ok r ∧ r.name = name ∧
      r.deviceType = deviceType ∧ r.registration = registration ∧
      r.descriptor.toString = d.toString ∧
      r.descriptor.getBip388Template = d.getBip388Template ∧
      r.descriptor.getPubkeyProviders.map PubkeyProvider.getBip388KeyInfo =
        d.getPubkeyProviders.map PubkeyProvider.getBip388KeyInfo := by
  have hread := (exactly_deserializeStream (R := R) hfits (parseDescriptor_toString h hd)).run
  refine ⟨new name d.normal deviceType registration, ?_, rfl, rfl, rfl, d.normal_toString,
    d.normal_getBip388Template, ?_⟩
  · rw [serialize_new, deserialize, b64decode_strip_encode, ok_bind, runOn, hread]
  · change d.normal.getPubkeyProviders.map PubkeyProvider.getBip388KeyInfo = _
    rw [Descriptor.normal_getPubkeyProviders, List.map_map]
    rfl

theorem deserialize_serialize_sample : ∃ d, parseDescriptor descriptorSample = .ok d ∧
    ∃ r, deserialize Runtime.zeros (new "vault".toList d "ledger".toList [1, 2, 3]).serialize = .ok r ∧
      r.name = "vault".toList ∧ r.descriptor.toString = d.toString := by
  have hsome : ((parseDescriptor descriptorSample).toOption.map fun d =>
      decide (d.Regular ∧ (new "vault".toList d "ledger".toList [1, 2, 3]).Fits)) = some true := by
    decide +kernel
  obtain ⟨d, hd, hregular⟩ := Option.map_eq_some_iff.1 hsome
  obtain ⟨hregular, hfits⟩ := of_decide_eq_true hregular
  have hparse := toOption_eq_some.1 hd
  obtain ⟨r, hr, hname, -, -, htext, -⟩ :=
    deserialize_serialize "vault".toList "ledger".toList [1, 2, 3] hparse hregular hfits
  exact ⟨d, hparse, r, hr, hname, htext⟩

end RegisteredDescriptor

end Hwi
