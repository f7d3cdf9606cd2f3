import Hwi.Proofs.Protobuf
import Hwi.Spec.TrezorTransport

/-! Messages that are written one after the other are read one after the other, each as
the receiver's version of `messages` has it. -/

namespace Hwi

namespace Trezorlib

open Protobuf

/-! ### Chunks -/

namespace ProtocolV1

theorem writeLoop_nil : writeLoop [] = [] := by
  rw [writeLoop, dif_pos rfl]

theorem writeLoop_of_ne_nil {buffer : Bytes} (h : buffer ≠ []) :
    writeLoop buffer = (0x3F :: buffer.take 63 ++ List.replicate (63 - (buffer.take 63).length) 0) ::
      writeLoop (buffer.drop 63) := by
  have hpad : replen - (0x3F :: buffer.take 63).length = 63 - (buffer.take 63).length :=
    Nat.add_sub_add_right 63 1 _
  rw [writeLoop, dif_neg h]
  change (0x3F :: buffer.take 63 ++ List.replicate (replen - (0x3F :: buffer.take 63).length) 0) ::
    writeLoop (buffer.drop 63) = _
  rw [hpad]

theorem readRest_done {datalen : ℕ} {buffer : Bytes} (h : datalen ≤ buffer.length) (chunks : List Bytes) :
    readRest datalen buffer chunks = .ok buffer chunks := by
  cases chunks with
  | nil => exact if_pos h
  | cons chunk chunks => exact if_pos h

theorem readRest_next {datalen : ℕ} {buffer : Bytes} (h : ¬datalen ≤ buffer.length) (b : Bytes)
    (chunks : List Bytes) :
    readRest datalen buffer ((0x3F :: b) :: chunks) = readRest datalen (buffer ++ b) chunks := by
  rw [readRest, if_neg h]
  exact if_neg (not_not_intro rfl)

/-- What of a message is read and what is to be written: all of it and padding, or a part
and the others. -/
def Between (data buffer remaining : Bytes) : Prop :=
  (remaining = [] ∧ data <+: buffer) ∨ remaining ≠ [] ∧ buffer ++ remaining = data

theorem between_chunk {data buffer remaining : Bytes}
    (h : buffer ++ remaining = data) :
    Between data (buffer ++ (remaining.take 63 ++
      List.replicate (63 - (remaining.take 63).length) 0)) (remaining.drop 63) := by
  by_cases hlast : remaining.length ≤ 63
  · rw [List.take_of_length_le hlast, List.drop_eq_nil_of_le hlast, ← List.append_assoc, h]
    exact Or.inl ⟨rfl, List.prefix_append data _⟩
  · have hlen : (remaining.take 63).length = 63 := by
      rw [List.length_take]
      omega
    rw [hlen, Nat.sub_self, List.replicate_zero, List.append_nil]
    refine Or.inr ⟨fun hnil => hlast (List.drop_eq_nil_iff.1 hnil), ?_⟩
    rw [List.append_assoc, List.take_append_drop, h]

theorem readRest_writeLoop {data buffer remaining : Bytes} (h : Between data buffer remaining)
    (rest : List Bytes) : ∃ buffer', readRest data.length buffer (writeLoop remaining ++ rest) =
      .ok buffer' rest ∧ data <+: buffer' := by
  induction hlen : remaining.length using Nat.strong_induction_on generalizing buffer remaining with
  | _ n ih =>
    rcases h with ⟨rfl, hprefix⟩ | ⟨hne, heq⟩
    · rw [writeLoop_nil, List.nil_append]
      exact ⟨buffer, readRest_done hprefix.length_le rest, hprefix⟩
    · have hpos := List.length_pos_of_ne_nil hne
      have hmore : ¬data.length ≤ buffer.length := by
        rw [← heq, List.length_append]
        omega
      rw [writeLoop_of_ne_nil hne, List.cons_append, List.cons_append, readRest_next hmore]
      exact ih (remaining.drop 63).length (by rw [List.length_drop]; omega) (between_chunk heq) rfl

theorem packHeader_eq_ok {messageType length : ℕ} {header : Bytes}
    (h : packHeader messageType length = .ok header) : header.length = 6 ∧
      ofLE (header.take 2).reverse = messageType ∧ ofLE (header.drop 2).reverse = length := by
  obtain ⟨t, ht, h⟩ := bind_eq_ok.1 h
  obtain ⟨l, hl, h⟩ := bind_eq_ok.1 h
  cases h
  unfold pack at ht hl
  split_ifs at ht with htfits
  split_ifs at hl with hlfits
  cases ht
  cases hl
  rw [Int.toNat_natCast, Int.toNat_natCast]
  have htlen : (toLE 2 messageType).reverse.length = 2 := by rw [List.length_reverse, toLE_length]
  refine ⟨?_, ?_, ?_⟩
  · rw [List.length_append, htlen, List.length_reverse, toLE_length]
  · rw [List.take_left' htlen, List.reverse_reverse, ofLE_toLE (by exact_mod_cast htfits.2)]
  · rw [List.drop_left' htlen, List.reverse_reverse, ofLE_toLE (by exact_mod_cast hlfits.2)]

/-- The first chunk has the header and the first bytes of the data. -/
theorem readFirst_chunk {header : Bytes} (hlen : header.length = 6) (b : Bytes) (chunks : List Bytes) :
    readFirst.run ((0x3F :: 0x23 :: 0x23 :: (header ++ b)) :: chunks) =
      .ok (ofLE (header.take 2).reverse, ofLE (header.drop 2).reverse, b) chunks := by
  have hheader : ((0x3F :: 0x23 :: 0x23 :: (header ++ b)).take 9).drop 3 = header := List.take_left' hlen
  have hdata : (0x3F :: 0x23 :: 0x23 :: (header ++ b)).drop 9 = b := List.drop_left' hlen
  refine Procedure.run_bind_eq_ok.2 ⟨_, chunks, rfl, ?_⟩
  refine Procedure.run_ite_throw_bind_eq_ok.2 ⟨not_not_intro rfl, ?_⟩
  refine Procedure.run_ite_throw_bind_eq_ok.2 ⟨not_not_intro (hheader.symm ▸ hlen), ?_⟩
  rw [hheader, hdata]
  rfl

theorem between_first (data header : Bytes) (hlen : header.length = 6) :
    Between data (data.take 55 ++
      List.replicate (63 - (0x23 :: 0x23 :: (header ++ data.take 55)).length) 0) (data.drop 55) := by
  have hcount : (0x23 :: 0x23 :: (header ++ data.take 55)).length = 8 + (data.take 55).length := by
    rw [List.length_cons, List.length_cons, List.length_append, hlen]
    omega
  by_cases hlast : data.length ≤ 55
  · rw [List.take_of_length_le hlast, List.drop_eq_nil_of_le hlast]
    exact Or.inl ⟨rfl, List.prefix_append data _⟩
  · have hfull : (data.take 55).length = 55 := by
      rw [List.length_take]
      omega
    rw [hcount, hfull, List.replicate_zero, List.append_nil]
    exact Or.inr ⟨fun hnil => hlast (List.drop_eq_nil_iff.1 hnil), List.take_append_drop 55 data⟩

/-- The chunks of a message are read as the message, and nothing else is. -/
theorem read_write {messageType : ℕ} {data : Bytes} {chunks : List Bytes}
    (h : write messageType data = .ok chunks) (rest : List Bytes) :
    read.run (chunks ++ rest) = .ok (messageType, data) rest := by
  obtain ⟨header, hheader, h⟩ := bind_eq_ok.1 h
  cases h
  obtain ⟨hlen, htype, hlength⟩ := packHeader_eq_ok hheader
  have hprefix : ([0x23, 0x23] ++ header).length = 8 := by
    rw [List.length_append, hlen]
    rfl
  have htake : ([0x23, 0x23] ++ header ++ data).take 63 = 0x23 :: 0x23 :: (header ++ data.take 55) := by
    rw [List.take_append, List.take_of_length_le (by omega), hprefix]
    rfl
  have hdrop : ([0x23, 0x23] ++ header ++ data).drop 63 = data.drop 55 := by
    rw [List.drop_append, List.drop_eq_nil_of_le (by omega), hprefix]
    rfl
  have hne : [0x23, 0x23] ++ header ++ data ≠ [] := List.cons_ne_nil _ _
  rw [writeLoop_of_ne_nil hne, htake, hdrop]
  obtain ⟨buffer, hread, hbuffer⟩ := readRest_writeLoop (between_first data header hlen) rest
  rw [List.cons_append, List.cons_append, List.cons_append, List.cons_append, List.append_assoc]
  refine Procedure.run_bind_eq_ok.2 ⟨_, _, readFirst_chunk hlen _ _, ?_⟩
  rw [htype, hlength]
  refine Procedure.run_bind_eq_ok.2 ⟨buffer, rest, hread, ?_⟩
  obtain ⟨padding, rfl⟩ := hbuffer
  change EStateM.Result.ok (messageType, (data ++ padding).take data.length) rest = _
  rw [List.take_left]

end ProtocolV1

/-! ### The mapping -/

namespace ProtobufMapping

variable {M : Messages}

/-- The entry is the class of its name, with its wire type, and it is found by that type. -/
def Registered (M : Messages) (self : ProtobufMapping) (entry : String × ℕ) : Prop :=
  ∃ cls, M entry.1 = some (.message cls) ∧ cls.messageWireType = some entry.2 ∧
    self.typeToClass.get? entry.2 = some cls

theorem registerEntry_eq_ok {self self' : ProtobufMapping} {entry : String × ℕ}
    (h : registerEntry M self entry = .ok self') :
    ∃ cls, M entry.1 = some (.message cls) ∧ cls.messageWireType = some entry.2 ∧
      self' = { self with typeToClass := self.typeToClass.set entry.2 cls } := by
  unfold registerEntry at h
  cases hobject : M entry.1 with
  | none =>
    rw [hobject] at h
    cases h
  | some object =>
    rw [hobject] at h
    cases object with
    | enum members => cases h
    | message cls =>
      by_cases hwire : cls.messageWireType = some entry.2
      · refine ⟨cls, rfl, hwire, ?_⟩
        have hregister : self.register cls none = .ok self' := (if_neg (not_not_intro hwire)).symm.trans h
        unfold register at hregister
        simp only [hwire] at hregister
        exact (Except.ok.inj hregister).symm
      · have herror : Except.error _ = Except.ok self' := (if_pos hwire).symm.trans h
        cases herror

theorem foldlM_registerEntry {entries : List (String × ℕ)} (hnodup : (entries.map Prod.snd).Nodup)
    {self self' : ProtobufMapping} (h : entries.foldlM (registerEntry M) self = .ok self') :
    (∀ entry ∈ entries, Registered M self' entry) ∧
      (∀ wireType, wireType ∉ entries.map Prod.snd →
        self'.typeToClass.get? wireType = self.typeToClass.get? wireType) ∧
      self'.classToTypeOverride = self.classToTypeOverride := by
  induction entries generalizing self with
  | nil =>
    cases h
    exact ⟨fun entry hentry => absurd hentry List.not_mem_nil, fun _ _ => rfl, rfl⟩
  | cons entry entries ih =>
    rw [List.foldlM_cons] at h
    obtain ⟨next, hnext, h⟩ := bind_eq_ok.1 h
    obtain ⟨cls, hcls, hwire, rfl⟩ := registerEntry_eq_ok hnext
    rw [List.map_cons, List.nodup_cons] at hnodup
    obtain ⟨hin, hout, hoverride⟩ := ih hnodup.2 h
    refine ⟨fun e he => ?_, fun wireType hwireType => ?_, hoverride⟩
    · rcases List.mem_cons.1 he with rfl | he
      · refine ⟨cls, hcls, hwire, ?_⟩
        rw [hout _ hnodup.1, Dict.get?_set, if_pos rfl]
      · exact hin e he
    · rw [List.map_cons, List.mem_cons, not_or] at hwireType
      rw [hout _ hwireType.2, Dict.get?_set, if_neg hwireType.1]

theorem fromModule_registered {messageTypes : MessageTypes} {self : ProtobufMapping}
    (h : fromModule M messageTypes = .ok self) :
    (∀ entry ∈ messageTypes.entries, Registered M self entry) ∧ self.classToTypeOverride = ∅ := by
  obtain ⟨hregistered, -, hoverride⟩ := foldlM_registerEntry messageTypes.nodup h
  exact ⟨hregistered, hoverride⟩

end ProtobufMapping

/-! ### Streams of messages -/

open ProtobufMapping

variable {A B : Messages} {typesA typesB : MessageTypes} {mappingA mappingB : ProtobufMapping}

/-- What each of `n` calls of `_raw_read` returns or raises, and the chunks that are left. -/
def rawReads (B : Messages) (mapping : ProtobufMapping) :
    ℕ → List Bytes → List (Except WireError Value) × List Bytes
  | 0, chunks => ([], chunks)
  | n + 1, chunks =>
    match (rawRead B mapping).run chunks with
    | .ok msg chunks' =>
      ((.ok msg) :: (rawReads B mapping n chunks').1, (rawReads B mapping n chunks').2)
    | .error e chunks' =>
      ((.error e) :: (rawReads B mapping n chunks').1, (rawReads B mapping n chunks').2)

/-- A message arrives as it is received, or not at all when a field that the receiver
requires was not set: then the exception names one. -/
def Arrives (A B : Messages) (cls : String) (attrs : List Attr) (outcome : Except WireError Value) : Prop :=
  (∀ msg, receive A B (.message cls attrs) = some msg → outcome = .ok msg) ∧
    (receive A B (.message cls attrs) = none → ∃ name, Lacks A B cls attrs name ∧
      outcome = .error (.protobuf (notReceived name)))

theorem mapError_eq_ok {ε ε' α : Type} {f : ε → ε'} {x : Except ε α} {a : α} (h : x.mapError f = .ok a) :
    x = .ok a := by
  cases x with
  | ok b =>
    cases h
    rfl
  | error e => cases h

theorem encode_eq_ok {self : ProtobufMapping} {cls : String} {attrs : List Attr} {sent : MessageClass}
    {wireType : ℕ} (hA : A cls = some (.message sent)) (hwire : sent.messageWireType = some wireType)
    (hoverride : self.classToTypeOverride = ∅) {r : ℕ × Bytes}
    (h : self.encode A (.message cls attrs) = .ok r) :
    r.1 = wireType ∧ dumpMessage A (.message cls attrs) = .ok r.2 := by
  have htype : (self.classToTypeOverride.get? cls).or sent.messageWireType = some wireType := by
    rw [hoverride, hwire]
    rfl
  unfold encode at h
  simp only [hA, htype] at h
  obtain ⟨b, hb, h⟩ := bind_eq_ok.1 h
  cases h
  exact ⟨rfl, mapError_eq_ok hb⟩

theorem rawWrite_eq_ok {M : Messages} {self : ProtobufMapping} {msg : Value} {chunks : List Bytes}
    (h : rawWrite M self msg = .ok chunks) :
    ∃ r, self.encode M msg = .ok r ∧ ProtocolV1.write r.1 r.2 = .ok chunks := by
  obtain ⟨r, hr, h⟩ := bind_eq_ok.1 h
  exact ⟨r, hr, mapError_eq_ok h⟩

theorem arrives_rawRead (hext : Extends A B) (hA : fromModule A typesA = .ok mappingA)
    (hB : fromModule B typesB = .ok mappingB) (hsub : typesB.entries ⊆ typesA.entries) {cls : String}
    {attrs : List Attr} (hcls : cls ∈ typesB.entries.map Prod.fst) {chunks : List Bytes}
    (h : rawWrite A mappingA (.message cls attrs) = .ok chunks) (rest : List Bytes) :
    (∃ msg, (rawRead B mappingB).run (chunks ++ rest) = .ok msg rest ∧
      Arrives A B cls attrs (.ok msg)) ∨
    ∃ e, (rawRead B mappingB).run (chunks ++ rest) = .error e rest ∧
      Arrives A B cls attrs (.error e) := by
  obtain ⟨⟨name, wireType⟩, hentry, rfl⟩ := List.mem_map.1 hcls
  obtain ⟨known, hknown, -, hget⟩ := (fromModule_registered hB).1 _ hentry
  obtain ⟨sent, hsent, hwire, -⟩ := (fromModule_registered hA).1 _ (hsub hentry)
  obtain ⟨⟨type, b⟩, hencode, hchunks⟩ := rawWrite_eq_ok h
  obtain ⟨htype, hdump⟩ := encode_eq_ok hsent hwire (fromModule_registered hA).2 hencode
  obtain rfl : type = wireType := htype
  obtain ⟨hreceived, hmissing⟩ := loads_of_dumps hext hdump hknown
  have hrun : (rawRead B mappingB).run (chunks ++ rest) =
      (Procedure.ofExcept (mappingB.decode B type b) : Receiving Value).run rest := by
    unfold rawRead
    rw [EStateM.run_bind, ProtocolV1.read_write hchunks]
  rw [hrun]
  unfold decode
  change mappingB.typeToClass.get? type = some known at hget
  simp only [hget]
  cases hload : loadMessage B b known with
  | ok msg =>
    refine Or.inl ⟨msg, rfl, fun msg' hmsg' => ?_, fun hnone => ?_⟩
    · rw [hreceived msg' hmsg'] at hload
      rw [Except.ok.inj hload]
    · obtain ⟨name, -, hname⟩ := hmissing hnone
      rw [hname] at hload
      cases hload
  | error e =>
    refine Or.inr ⟨.protobuf e, rfl, fun msg' hmsg' => ?_, fun hnone => ?_⟩
    · rw [hreceived msg' hmsg'] at hload
      cases hload
    · obtain ⟨name', hlacks, heq⟩ := hmissing hnone
      exact ⟨name', hlacks, by rw [Except.error.inj (hload.symm.trans heq)]⟩

/-- Messages that are written one after the other arrive one after the other, and what
follows them is left. -/
theorem rawReads_rawWrites (hext : Extends A B) (hA : fromModule A typesA = .ok mappingA)
    (hB : fromModule B typesB = .ok mappingB) (hsub : typesB.entries ⊆ typesA.entries)
    {msgs : List (String × List Attr)} (hmsgs : ∀ msg ∈ msgs, msg.1 ∈ typesB.entries.map Prod.fst)
    {written : List (List Bytes)}
    (h : List.Forall₂ (fun msg chunks => rawWrite A mappingA (.message msg.1 msg.2) = .ok chunks) msgs written)
    (rest : List Bytes) :
    (rawReads B mappingB msgs.length (written.flatten ++ rest)).2 = rest ∧
      List.Forall₂ (fun msg outcome => Arrives A B msg.1 msg.2 outcome) msgs
        (rawReads B mappingB msgs.length (written.flatten ++ rest)).1 := by
  induction h with
  | nil => exact ⟨rfl, .nil⟩
  | @cons msg chunks msgs written hmsg _ ih =>
    obtain ⟨hrest, harrive⟩ := ih fun m hm => hmsgs m (List.mem_cons_of_mem _ hm)
    rw [List.flatten_cons, List.append_assoc, List.length_cons, rawReads]
    rcases arrives_rawRead hext hA hB hsub (hmsgs msg List.mem_cons_self) hmsg (written.flatten ++ rest) with
      ⟨msg', hrun, hfirst⟩ | ⟨e, hrun, hfirst⟩
    · rw [hrun]
      exact ⟨hrest, .cons hfirst harrive⟩
    · rw [hrun]
      exact ⟨hrest, .cons hfirst harrive⟩

/-! ### Three messages -/

def txTypes : MessageTypes := ⟨[("TxRequest", 21), ("PinMatrixAck", 19)], by decide⟩

def txMapping (cls : MessageClass) : ProtobufMapping :=
  { ProtobufMapping.new with
    typeToClass := ((∅ : Dict ℕ MessageClass).set 21 cls).set 19 pinMatrixAck }

/-- A request with a signature that takes two chunks. -/
def longRequest : List Attr :=
  [.one (.int 0), .none,
    .one (.message "TxRequestSerializedType" [.one (.int 0), .one (.bytes (List.replicate 80 7)), .none])]

def longRequestBytes : Bytes := [8, 0, 26, 84, 8, 0, 18, 80] ++ List.replicate 80 7

def sampleRequestBytes : Bytes := [8, 0, 18, 2, 8, 0, 26, 8, 8, 172, 2, 18, 3, 1, 2, 3]

theorem exists_rawWrite {M : Messages} {self : ProtobufMapping} {cls : String} {attrs : List Attr}
    {mtype : MessageClass} {wireType : ℕ} {b : Bytes} (hM : M cls = some (.message mtype))
    (htype : mtype.messageWireType = some wireType) (hoverride : self.classToTypeOverride = ∅)
    (hdump : dumpMessage M (.message cls attrs) = .ok b) (hwire : wireType < 2 ^ 16)
    (hlen : b.length < 2 ^ 32) :
    ∃ chunks, rawWrite M self (.message cls attrs) = .ok chunks ∧
      ProtocolV1.write wireType b = .ok chunks := by
  have hencode : self.encode M (.message cls attrs) = .ok (wireType, b) := by
    unfold encode
    simp only [hM, hoverride, htype]
    change ((dumpMessage M (.message cls attrs)).mapError _ >>= _) = _
    rw [hdump]
    rfl
  obtain ⟨chunks, hchunks⟩ : ∃ chunks, ProtocolV1.write wireType b = .ok chunks := by
    unfold ProtocolV1.write ProtocolV1.packHeader pack
    rw [if_pos ⟨Int.natCast_nonneg _, by exact_mod_cast hwire⟩,
      if_pos ⟨Int.natCast_nonneg _, by exact_mod_cast hlen⟩]
    exact ⟨_, rfl⟩
  refine ⟨chunks, ?_, hchunks⟩
  rw [rawWrite, hencode, ok_bind]
  change (ProtocolV1.write wireType b).mapError _ = _
  rw [hchunks]
  rfl

/-- A message of two chunks, one without its required field, and one more, for a receiver of
the older version: the second one is refused, and a chunk that follows is left. -/
theorem rawReads_rawWrites_three : ∃ first second third : List Bytes,
    rawWrite (withPin txMessages) (txMapping txRequest) (.message "TxRequest" longRequest) = .ok first ∧
    rawWrite (withPin txMessages) (txMapping txRequest) (.message "PinMatrixAck" [.none]) = .ok second ∧
    rawWrite (withPin txMessages) (txMapping txRequest) (.message "TxRequest" sampleRequest) = .ok third ∧
    first.length = 2 ∧
    (rawReads (withPin oldTxMessages) (txMapping oldTxRequest) 3
      ([first, second, third].flatten ++ [[0x3F]])).2 = [[0x3F]] ∧
    List.Forall₂ (fun msg outcome => Arrives (withPin txMessages) (withPin oldTxMessages) msg.1 msg.2 outcome)
      [("TxRequest", longRequest), ("PinMatrixAck", [.none]), ("TxRequest", sampleRequest)]
      (rawReads (withPin oldTxMessages) (txMapping oldTxRequest) 3
        ([first, second, third].flatten ++ [[0x3F]])).1 := by
  have hlong : dumpMessage (withPin txMessages) (.message "TxRequest" longRequest) = .ok longRequestBytes := rfl
  have hpin : dumpMessage (withPin txMessages) (.message "PinMatrixAck" [.none]) = .ok [] := rfl
  have hsample : dumpMessage (withPin txMessages) (.message "TxRequest" sampleRequest) =
      .ok sampleRequestBytes := rfl
  obtain ⟨first, hfirst, hwrite⟩ := @exists_rawWrite _ (txMapping txRequest) _ _ txRequest 21 _ rfl rfl rfl
    hlong (by decide) (by decide)
  obtain ⟨second, hsecond, -⟩ := @exists_rawWrite _ (txMapping txRequest) _ _ pinMatrixAck 19 _ rfl rfl rfl
    hpin (by decide) (by decide)
  obtain ⟨third, hthird, -⟩ := @exists_rawWrite _ (txMapping txRequest) _ _ txRequest 21 _ rfl rfl rfl
    hsample (by decide) (by decide)
  have hcount : (ProtocolV1.write 21 longRequestBytes).toOption.map List.length = some 2 := by decide +kernel
  rw [hwrite] at hcount
  exact ⟨first, second, third, hfirst, hsecond, hthird, Option.some.inj hcount,
    @rawReads_rawWrites _ _ txTypes txTypes (txMapping txRequest) (txMapping oldTxRequest)
      (withPin_extends txMessages_extends_old) rfl rfl (List.Subset.refl _)
      [("TxRequest", longRequest), ("PinMatrixAck", [.none]), ("TxRequest", sampleRequest)]
      (by simp [txTypes]) [first, second, third] (.cons hfirst (.cons hsecond (.cons hthird .nil))) [[0x3F]]⟩

end Trezorlib

end Hwi
