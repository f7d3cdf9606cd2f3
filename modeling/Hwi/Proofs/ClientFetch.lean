import Hwi.Proofs.ClientCommand

/-! What the device can fetch: every preimage and every leaf of a list that its client
was told, in as many messages as it takes. -/

namespace Hwi

namespace LedgerBitcoin

open Procedure ByteStreamParser ClientCommandInterpreter

variable {R : Runtime} {preimages : List Bytes} {lists : List (List Bytes)}
  {self : ClientCommandInterpreter}

namespace NewClient

/-- A reply of the device that asks for more elements. -/
def moreReply : ℕ × Bytes := (0xE000, [ClientCommandCode.getMoreElements.toByte])

/-- What the device reads after the counts of the answers to GET_MORE_ELEMENTS. -/
def moreData (responses : List Bytes) : Bytes := responses.flatMap fun response => response.drop 2

/-- The preimage that the device reads from the answers. -/
def readPreimage : List Bytes → Option Bytes
  | [] => none
  | first :: more =>
    match deserCompactSize first with
    | .ok len (n :: payload) =>
      let value := payload ++ moreData more
      if payload.length = n.toNat ∧ value.length = len then some value else none
    | _ => none

/-- The leaf and the hashes of its proof that the device reads from the answers. -/
def readLeafProof : List Bytes → Option (Bytes × Bytes)
  | [] => none
  | first :: more =>
    match first.drop 32 with
    | n :: m :: payload =>
      let proof := payload ++ moreData more
      if payload.length = 32 * m.toNat ∧ proof.length = 32 * n.toNat then some (first.take 32, proof)
      else none
    | _ => none

theorem popElements_eq {elementLen : ℕ} {queue : List Bytes}
    (h : ∀ el ∈ queue, el.length = elementLen) (hpos : 0 < elementLen) (responseLen : ℕ)
    (hlen : responseLen ≤ 253) :
    popElements elementLen responseLen queue =
      (queue.take ((253 - responseLen) / elementLen), queue.drop ((253 - responseLen) / elementLen)) := by
  induction queue generalizing responseLen with
  | nil => rw [popElements, List.take_nil, List.drop_nil]
  | cons el queue ih =>
    have hel := h el List.mem_cons_self
    rw [popElements]
    split_ifs with hfits
    · have hdiv : (253 - responseLen) / elementLen = (253 - (responseLen + el.length)) / elementLen + 1 := by
        rw [hel, ← Nat.add_div_right _ hpos]
        congr 1
        omega
      rw [ih (fun el hmem => h el (List.mem_cons_of_mem _ hmem)) _ (by omega), hdiv, List.take_succ_cons,
        List.drop_succ_cons]
    · rw [Nat.div_eq_of_lt (by omega), List.take_zero, List.drop_zero]

theorem execute_more {elementLen : ℕ} (h : ∀ el ∈ self.queue, el.length = elementLen)
    (hpos : 0 < elementLen) (hlen : elementLen ≤ 253) (hne : self.queue ≠ []) :
    (execute moreReply.2).run self =
      .ok (Event.more (self.queue.take (253 / elementLen))).response
        { self with queue := self.queue.drop (253 / elementLen) } := by
  obtain ⟨knownPreimages, knownTrees, yielded, queue⟩ := self
  cases queue with
  | nil => exact absurd rfl hne
  | cons first rest =>
    have hfirst : first.length = elementLen := h first List.mem_cons_self
    have hany : ¬(first :: rest).any (fun el => el.length ≠ first.length) = true := by
      rw [hfirst, Bool.not_eq_true, List.any_eq_false]
      intro el hel
      simpa using h el hel
    have hpop := popElements_eq h hpos 0 (by omega)
    rw [Nat.sub_zero] at hpop
    have hfits : 0 < 253 / elementLen := Nat.div_pos hlen hpos
    have hcount : ((first :: rest).take (253 / elementLen)).length < 256 := by
      have hdiv := Nat.div_le_self 253 elementLen
      rw [List.length_take]
      omega
    have hhead : ((first :: rest).take (253 / elementLen)).head? = some first := by
      obtain ⟨k, hk⟩ := Nat.exists_eq_succ_of_ne_zero hfits.ne'
      rw [hk]
      rfl
    change (getMoreElementsCommand [ClientCommandCode.getMoreElements.toByte]).run _ = _
    rw [getMoreElementsCommand, if_neg (by decide), run_get_bind]
    dsimp only
    rw [if_neg hany, run_set_bind, hfirst]
    dsimp only at hpop ⊢
    rw [hpop, toByte, if_pos hcount, toByte, if_pos (by omega), Event.response, hhead]
    rw [Option.map_some, Option.getD_some, hfirst]
    rfl

/-- A request that is answered, and the rest of the run. -/
theorem makeRequest_interrupted {request response : Bytes} {replies : List (ℕ × Bytes)}
    {result : List (Bytes × Bytes) × Option (ℕ × Bytes)} {self' self'' : ClientCommandInterpreter}
    (hexec : (execute request).run self = .ok response self')
    (hrest : (makeRequest replies).run self' = .ok result self'') :
    (makeRequest ((0xE000, request) :: replies)).run self =
      .ok ((request, response) :: result.1, result.2) self'' := by
  rw [makeRequest, if_neg (not_not.2 rfl), EStateM.run_bind, hexec]
  dsimp only
  rw [EStateM.run_bind, hrest]
  rfl

theorem moreData_cons (response : Bytes) (responses : List Bytes) :
    moreData (response :: responses) = response.drop 2 ++ moreData responses := List.flatMap_cons

theorem drop_response_more (elements : List Bytes) :
    (Event.more elements).response.drop 2 = elements.flatten := rfl

/-- With enough messages the device gets all that is left over. -/
theorem makeRequest_drain (client : ClientCommandInterpreter) {elementLen : ℕ}
    (h : ∀ el ∈ client.queue, el.length = elementLen) (hpos : 0 < elementLen) (hlen : elementLen ≤ 253)
    {last : ℕ × Bytes} (hlast : last.1 ≠ 0xE000) :
    ∃ n log, (makeRequest (List.replicate n moreReply ++ [last])).run client =
        .ok (log, some last) { client with queue := [] } ∧
      moreData (log.map Prod.snd) = client.queue.flatten := by
  induction hsize : client.queue.length using Nat.strong_induction_on generalizing client with
  | _ size ih =>
    by_cases hne : client.queue = []
    · refine ⟨0, [], ?_, by rw [hne]; rfl⟩
      rw [List.replicate_zero, List.nil_append, makeRequest, if_pos hlast]
      obtain ⟨knownPreimages, knownTrees, yielded, queue⟩ := client
      cases hne
      rfl
    · have hexec := execute_more h hpos hlen hne
      have hfits : 0 < 253 / elementLen := Nat.div_pos hlen hpos
      have hqueue := List.length_pos_of_ne_nil hne
      obtain ⟨n, log, hrun, hdata⟩ := ih (client.queue.drop (253 / elementLen)).length
        (by rw [List.length_drop]; omega)
        { client with queue := client.queue.drop (253 / elementLen) }
        (fun el hel => h el (List.mem_of_mem_drop hel)) rfl
      refine ⟨n + 1, (moreReply.2, (Event.more (client.queue.take (253 / elementLen))).response) :: log,
        ?_, ?_⟩
      · rw [List.replicate_succ, List.cons_append]
        exact makeRequest_interrupted hexec hrun
      · rw [List.map_cons, moreData_cons, hdata, drop_response_more, ← List.flatten_append,
          List.take_append_drop]

/-- A reply of the device that asks for a preimage. -/
def preimageReply (hash : Bytes) : ℕ × Bytes :=
  (0xE000, ClientCommandCode.getPreimage.toByte :: 0 :: hash)

theorem payloadSize_lt (value : Bytes) : Event.payloadSize value < 256 := by
  unfold Event.payloadSize
  omega

theorem execute_preimage {hash value : Bytes} (hhash : hash.length = 32)
    (h : self.knownPreimages.get? hash = some value) :
    (execute (preimageReply hash).2).run self = .ok (Event.preimage hash value).response
      { self with queue := self.queue ++ (Event.preimage hash value).leftover } := by
  have hparse := getPreimageRequest_eq_ok.2 ⟨hhash, (rfl : (preimageReply hash).2.drop 1 = 0 :: hash)⟩
  change (getPreimageCommand (preimageReply hash).2).run self = _
  rw [getPreimageCommand, hparse, run_ofExcept_ok_bind, run_get_bind, h]
  dsimp only
  have hsize := payloadSize_lt value
  unfold Event.payloadSize at hsize
  rw [extendQueue, run_modify_bind, toByte, if_pos hsize]
  rfl

theorem readPreimage_response {value : Bytes} (hsize : value.length < 2 ^ 64) (hash : Bytes)
    {responses : List Bytes}
    (h : moreData responses = (Event.preimage hash value).leftover.flatten) :
    readPreimage ((Event.preimage hash value).response :: responses) = some value := by
  have hread := exactly_deserCompactSize hsize
    (UInt8.ofNat (Event.payloadSize value) :: value.take (Event.payloadSize value))
  have hflat (b : Bytes) : (b.map fun c => [c]).flatten = b := by
    rw [← List.flatMap_def, List.flatMap_singleton' b]
  rw [Event.leftover, hflat] at h
  rw [readPreimage, Event.response, List.append_assoc, List.singleton_append, hread]
  dsimp only
  rw [h, List.take_append_drop, if_pos]
  refine ⟨?_, rfl⟩
  rw [List.length_take_of_le (by exact Nat.min_le_right _ _), UInt8.toNat_ofNat_of_lt' (payloadSize_lt value)]

/-- A preimage that the client knows is read whole. -/
theorem makeRequest_preimage {hash value : Bytes} (hhash : hash.length = 32)
    (h : self.knownPreimages.get? hash = some value) (hqueue : self.queue = [])
    (hsize : value.length < 2 ^ 64) {last : ℕ × Bytes} (hlast : last.1 ≠ 0xE000) :
    ∃ n log, (makeRequest (preimageReply hash :: List.replicate n moreReply ++ [last])).run self =
        .ok (log, some last) self ∧
      readPreimage (log.map Prod.snd) = some value := by
  have hexec := execute_preimage hhash h
  rw [hqueue, List.nil_append] at hexec
  obtain ⟨knownPreimages, knownTrees, yielded, queue⟩ := self
  cases hqueue
  obtain ⟨n, log, hrun, hdata⟩ := makeRequest_drain
    ⟨knownPreimages, knownTrees, yielded, (Event.preimage hash value).leftover⟩
    (fun el hel => by
      obtain ⟨b, -, rfl⟩ := List.mem_map.1 hel
      exact List.length_singleton) (by decide) (by decide) hlast
  exact ⟨n, _, makeRequest_interrupted hexec hrun, readPreimage_response hsize hash hdata⟩

/-! ### Proofs of leaves -/

theorem exactly_readBytes {n : ℕ} {b : Bytes} (h : b.length = n) : Reader.Exactly (readBytes n) b b :=
  fun _ => readBytes_eq_ok.2 ⟨h, rfl⟩

theorem exactly_readUint {k n : ℕ} (h : n < 256 ^ k) : Reader.Exactly (readUint k true) (toLE k n) n := by
  have hread := (exactly_readBytes (toLE_length k n)).bind_pure (f := fun b => ofLE b)
  rw [ofLE_toLE h] at hread
  exact hread

theorem exactly_readUint_one {n : ℕ} (h : n < 256) : Reader.Exactly (readUint 1 false) [UInt8.ofNat n] n := by
  have hread := (exactly_readBytes (rfl : [UInt8.ofNat n].length = 1)).bind_pure
    (f := fun b : Bytes => ofLE b.reverse)
  have hvalue : ofLE [UInt8.ofNat n].reverse = n := by
    rw [List.reverse_singleton, ofLE, ofLE, UInt8.toNat_ofNat_of_lt' h]
    rfl
  rw [hvalue] at hread
  exact hread

theorem exactly_readVarint {n : ℕ} (h : n < 2 ^ 64) : Reader.Exactly ByteStreamParser.readVarint (serCompactSize n) n := by
  unfold serCompactSize
  split_ifs with h1 h2 h3
  · rw [toLE_one (by omega)]
    refine (exactly_readUint_one (by omega)).bind_nil ?_
    rw [if_neg (by omega), if_neg (by omega), if_neg (by omega)]
    exact Reader.exactly_pure n
  · exact (exactly_readUint_one (n := 253) (by decide)).bind (exactly_readUint (by omega))
  · exact (exactly_readUint_one (n := 254) (by decide)).bind (exactly_readUint (by omega))
  · exact (exactly_readUint_one (n := 255) (by decide)).bind (exactly_readUint (by omega))

/-- A reply of the device that asks for a leaf with its proof. -/
def leafProofReply (root : Bytes) (treeSize index : ℕ) : ℕ × Bytes :=
  (0xE000, ClientCommandCode.getMerkleLeafProof.toByte ::
    (root ++ (serCompactSize treeSize ++ serCompactSize index)))

theorem parse_leafProofReply {root : Bytes} {treeSize index : ℕ} (hroot : root.length = 32)
    (hsize : treeSize < 2 ^ 64) (hindex : index < 2 ^ 64) :
    parse getMerkleLeafProofRequest (leafProofReply root treeSize index).2 = .ok (root, treeSize, index) := by
  have hlast := exactly_readVarint hindex []
  rw [List.append_nil] at hlast
  refine parse_eq_ok.2 ⟨[], ?_⟩
  change getMerkleLeafProofRequest (root ++ (serCompactSize treeSize ++ serCompactSize index)) = _
  simp only [getMerkleLeafProofRequest, Reader.bind_eq_ok]
  exact ⟨root, _, exactly_readBytes hroot _, treeSize, _, exactly_readVarint hsize _, index, [], hlast,
    (), [], assertEmpty_eq_ok.2 ⟨rfl, rfl⟩, rfl⟩

theorem execute_leafProof {elements : List Bytes} {index : ℕ} {element : Bytes}
    (htree : self.knownTrees.get? (listTree R elements).root = some (listTree R elements))
    (hsize : elements.length < 2 ^ 64) (helement : elements[index]? = some element)
    (hqueue : self.queue = []) :
    ∃ proof : List Digest,
      MerkleTree.ProvesLeaf R (listTree R elements).root elements.length index
        (elementDigest R element) proof ∧ proof.length < 256 ∧
      (execute (leafProofReply (listTree R elements).root elements.length index).2).run self =
        .ok (Event.leafProof (listTree R elements).root elements.length index (elementDigest R element)
            proof).response
          { self with queue := (Event.leafProof (listTree R elements).root elements.length index
            (elementDigest R element) proof).leftover } := by
  obtain ⟨hindex, -⟩ := List.getElem?_eq_some_iff.1 helement
  have hleaf : (elements.map (elementDigest R))[index]? = some (elementDigest R element) := by
    rw [List.getElem?_map, helement]
    rfl
  obtain ⟨proof, hproof, hproves⟩ := MerkleTree.proveLeaf_proves (R := R) hleaf
  rw [List.length_map] at hproves
  have hlen : proof.length < 256 := by
    obtain ⟨r, -, hproves⟩ := hproves
    have hle := LeafTree.length_sides_le (k := 64) hsize.le index
    rw [hproves.length_eq]
    omega
  refine ⟨proof, hproves, hlen, ?_⟩
  have hparse := parse_leafProofReply (root_length (listTree R elements)) hsize (hindex.trans hsize)
  have hget : (listTree R elements).get index = .ok (elementDigest R element) :=
    MerkleTree.get_eq_ok.2 hleaf
  have hcount : (listTree R elements).leaves.length = elements.length := List.length_map _
  change (getMerkleLeafProofCommand _).run self = _
  rw [getMerkleLeafProofCommand, hparse, run_ofExcept_ok_bind, run_get_bind]
  dsimp only
  rw [htree]
  dsimp only
  have hchecks : ¬(elements.length ≤ index ∨ (listTree R elements).leaves.length ≠ elements.length) := by
    rintro (hle | hne)
    · omega
    · exact hne hcount
  have hproof' : (listTree R elements).proveLeaf index = .ok proof := hproof
  rw [if_neg hchecks, if_neg (not_not.2 hqueue), hproof', run_ofExcept_ok_bind, extendQueue,
    run_modify_bind, hget, run_ofExcept_ok_bind, toByte, if_pos hlen, run_ofExcept_ok_bind, toByte,
    if_pos (by omega), hqueue]
  rfl

theorem readLeafProof_response (root : Bytes) (treeSize index : ℕ) {leaf : Digest}
    {proof : List Digest} (hlen : proof.length < 256) {responses : List Bytes}
    (h : moreData responses = (Event.leafProof root treeSize index leaf proof).leftover.flatten) :
    readLeafProof ((Event.leafProof root treeSize index leaf proof).response :: responses) =
      some (leaf.val, proof.flatMap Subtype.val) := by
  have hleftover : (Event.leafProof root treeSize index leaf proof).leftover.flatten =
      (proof.drop (min 6 proof.length)).flatMap Subtype.val := List.flatMap_def.symm
  rw [hleftover] at h
  rw [readLeafProof, Event.response, List.append_assoc, List.append_assoc, List.drop_left' leaf.2,
    List.singleton_append, List.singleton_append]
  dsimp only
  rw [h, ← List.flatMap_append, List.take_append_drop, List.take_left' leaf.2, if_pos]
  rw [length_flatMap_val, length_flatMap_val, List.length_take, UInt8.toNat_ofNat_of_lt' hlen,
    UInt8.toNat_ofNat_of_lt' (by exact lt_of_le_of_lt (Nat.min_le_left 6 _) (by decide))]
  exact ⟨by omega, rfl⟩

/-- A leaf of a list that the client knows is read with a proof. -/
theorem makeRequest_leafProof {elements : List Bytes} {index : ℕ} {element : Bytes}
    (htree : self.knownTrees.get? (listTree R elements).root = some (listTree R elements))
    (hsize : elements.length < 2 ^ 64) (helement : elements[index]? = some element)
    (hqueue : self.queue = []) {last : ℕ × Bytes} (hlast : last.1 ≠ 0xE000) :
    ∃ n log proof, (makeRequest (leafProofReply (listTree R elements).root elements.length index ::
        List.replicate n moreReply ++ [last])).run self = .ok (log, some last) self ∧
      readLeafProof (log.map Prod.snd) = some (elementHash R element, proof.flatMap Subtype.val) ∧
      MerkleTree.ProvesLeaf R (listTree R elements).root elements.length index
        (elementDigest R element) proof := by
  obtain ⟨proof, hproves, hlen, hexec⟩ := execute_leafProof htree hsize helement hqueue
  obtain ⟨knownPreimages, knownTrees, yielded, queue⟩ := self
  cases hqueue
  obtain ⟨n, log, hrun, hdata⟩ := makeRequest_drain
    ⟨knownPreimages, knownTrees, yielded, (Event.leafProof (listTree R elements).root
      elements.length index (elementDigest R element) proof).leftover⟩
    (fun el hel => by
      obtain ⟨a, -, rfl⟩ := List.mem_map.1 hel
      exact a.2) (by decide) (by decide) hlast
  exact ⟨n, _, proof, makeRequest_interrupted hexec hrun, readLeafProof_response (listTree R elements).root elements.length index hlen hdata, hproves⟩

/-! ### What was told -/

/-- When nothing is left over, whatever happened before, a preimage that the client was
told is read whole, or else another one that it was told, with the same hash. -/
theorem fetch_preimage {knowledge : List Knowledge} {replies : List (ℕ × Bytes)}
    {result : List (Bytes × Bytes) × Option (ℕ × Bytes)} {client : ClientCommandInterpreter}
    (hrun : (makeRequest replies).run (told R knowledge) = .ok result client) (hqueue : client.queue = [])
    (hsize : ∀ value ∈ knowledge.flatMap Knowledge.preimages, value.length < 2 ^ 64) {value : Bytes}
    (hvalue : value ∈ knowledge.flatMap Knowledge.preimages) {last : ℕ × Bytes}
    (hlast : last.1 ≠ 0xE000) :
    ∃ n log value',
      (makeRequest (preimageReply (R.sha256 value) :: List.replicate n moreReply ++ [last])).run client =
        .ok (log, some last) client ∧
      readPreimage (log.map Prod.snd) = some value' ∧
      (value' = value ∨ value' ∈ knowledge.flatMap Knowledge.preimages ∧ value' ≠ value ∧
        R.sha256 value' = R.sha256 value) := by
  obtain ⟨hknows, -⟩ := makeRequest_events (knows_told knowledge) (short_told knowledge) hrun
  obtain ⟨value', hget⟩ := hknows.preimage hvalue
  obtain ⟨hmem, hhash⟩ := hknows.of_preimage hget
  obtain ⟨n, log, hlog, hread⟩ :=
    makeRequest_preimage (R.sha256_length value) hget hqueue (hsize value' hmem) hlast
  refine ⟨n, log, value', hlog, hread, ?_⟩
  by_cases heq : value' = value
  · exact Or.inl heq
  · exact Or.inr ⟨hmem, heq, hhash⟩

/-- More than two answers hold. -/
def longPreimage : Bytes := List.replicate 600 7

def longKnowledge : List Knowledge := [.list [[1], [2]], .preimage longPreimage, .preimage [3]]

theorem longPreimage_unique : ∀ value ∈ longKnowledge.flatMap Knowledge.preimages,
    value ≠ longPreimage → marking.sha256 value ≠ marking.sha256 longPreimage := by
  decide +kernel

/-- The preimage is read in as many messages as it takes, after a value was yielded. -/
theorem fetch_preimage_long : ∃ n log client,
    (makeRequest [(0xE000, [0x10, 42])]).run (told marking longKnowledge) =
      .ok ([([0x10, 42], [])], none) client ∧
    (makeRequest (preimageReply (marking.sha256 longPreimage) ::
      List.replicate n moreReply ++ [(0x9000, [])])).run client = .ok (log, some (0x9000, [])) client ∧
    readPreimage (log.map Prod.snd) = some longPreimage := by
  have hrun : (makeRequest [(0xE000, [0x10, 42])]).run (told marking longKnowledge) =
      .ok ([([0x10, 42], [])], none)
        { told marking longKnowledge with yielded := [[42]] } := rfl
  obtain ⟨n, log, value', hlog, hread, hvalue⟩ := @fetch_preimage marking longKnowledge _ _ _
    hrun (fresh_told _).1 (by decide +kernel) longPreimage (by decide +kernel) (0x9000, []) (by decide)
  rw [hvalue.resolve_right fun h => longPreimage_unique value' h.1 h.2.1 h.2.2] at hread
  exact ⟨n, log, _, hrun, hlog, hread⟩

theorem mem_preimages_of_lists {knowledge : List Knowledge} {elements : List Bytes} {element : Bytes}
    (helements : elements ∈ knowledge.flatMap Knowledge.lists) (helement : element ∈ elements) :
    0x00 :: element ∈ knowledge.flatMap Knowledge.preimages := by
  obtain ⟨k, hk, helements⟩ := List.mem_flatMap.1 helements
  refine List.mem_flatMap.2 ⟨k, hk, ?_⟩
  cases k with
  | preimage el => cases helements
  | list els =>
    rw [List.mem_singleton.1 helements] at helement
    exact List.mem_map_of_mem helement
  | mapping items =>
    rcases List.mem_cons.1 helements with heq | hmem
    · rw [heq] at helement
      exact List.mem_append_left _ (List.mem_map_of_mem helement)
    · rw [List.mem_singleton.1 hmem] at helement
      exact List.mem_append_right _ (List.mem_map_of_mem helement)

/-- The strings whose hashes the client is asked for. -/
def toldStrings (R : Runtime) (knowledge : List Knowledge) : List Bytes :=
  knowledge.flatMap Knowledge.preimages ++ (knowledge.flatMap Knowledge.lists).flatMap (listInputs R)

/-- The device reads the element `index` of a list of `n` from the root of the list and
has the client left as it was: first the hash of the element with a proof, then the
element for its hash. -/
def Fetches (R : Runtime) (client : ClientCommandInterpreter) (last : ℕ × Bytes) (root : Bytes)
    (n index : ℕ) (element : Bytes) : Prop :=
  ∃ k log proof k' log',
    (makeRequest (leafProofReply root n index :: List.replicate k moreReply ++ [last])).run client =
      .ok (log, some last) client ∧
    readLeafProof (log.map Prod.snd) = some (elementHash R element, proof.flatMap Subtype.val) ∧
    MerkleTree.ProvesLeaf R root n index (elementDigest R element) proof ∧
    (makeRequest (preimageReply (elementHash R element) :: List.replicate k' moreReply ++ [last])).run
      client = .ok (log', some last) client ∧
    readPreimage (log'.map Prod.snd) = some (0x00 :: element)

/-- When nothing is left over, whatever happened before, the device can read each
element of a list that the client was told. -/
theorem fetches_of_told {knowledge : List Knowledge} {replies : List (ℕ × Bytes)}
    {result : List (Bytes × Bytes) × Option (ℕ × Bytes)} {client : ClientCommandInterpreter}
    (hrun : (makeRequest replies).run (told R knowledge) = .ok result client) (hqueue : client.queue = [])
    (hfree : CollisionFree R (toldStrings R knowledge)) {elements : List Bytes}
    (helements : elements ∈ knowledge.flatMap Knowledge.lists) (hlen : elements.length < 2 ^ 64)
    {index : ℕ} {element : Bytes} (helement : elements[index]? = some element)
    (hsize : element.length + 1 < 2 ^ 64) {last : ℕ × Bytes} (hlast : last.1 ≠ 0xE000) :
    Fetches R client last (listTree R elements).root elements.length index element := by
  obtain ⟨hknows, -⟩ := makeRequest_events (knows_told knowledge) (short_told knowledge) hrun
  have hinputs {es : List Bytes} (hes : es ∈ knowledge.flatMap Knowledge.lists) :
      listInputs R es ⊆ toldStrings R knowledge :=
    fun p hp => List.mem_append_right _ (List.mem_flatMap.2 ⟨es, hes, hp⟩)
  obtain ⟨mt, htree⟩ := hknows.tree helements
  obtain ⟨es, hes, rfl, hroot⟩ := hknows.of_tree htree
  obtain rfl := list_of_root hfree (hinputs hes) (hinputs helements) hroot
  obtain ⟨k, log, proof, hlog, hread, hproves⟩ :=
    makeRequest_leafProof htree hlen helement hqueue hlast
  have hmem := mem_preimages_of_lists helements (List.mem_of_getElem? helement)
  obtain ⟨value, hget⟩ := hknows.preimage hmem
  obtain ⟨hvalue, hhash⟩ := hknows.of_preimage hget
  obtain rfl := hfree.injective (List.mem_append_left _ hvalue) (List.mem_append_left _ hmem) hhash
  obtain ⟨k', log', hlog', hread'⟩ :=
    makeRequest_preimage (R.sha256_length _) hget hqueue hsize hlast
  exact ⟨k, log, proof, k', log', hlog, hread, hproves, hlog', hread'⟩

end NewClient

end LedgerBitcoin

end Hwi
