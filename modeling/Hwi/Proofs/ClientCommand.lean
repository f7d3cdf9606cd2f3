import Hwi.Format.ClientCommand
import Hwi.Spec.LedgerClient

/-! What the device can ask of its client and what it is answered: every answer is
true of what the client was told, fits into a message, and nothing that an answer
leaves over is lost, doubled or moved. -/

namespace Hwi

namespace LedgerBitcoin

open Procedure ByteStreamParser

/-! ### Reading a request -/

namespace ByteStreamParser

theorem readBytes_eq_ok {n : ℕ} {f f' b : Bytes} :
    readBytes n f = .ok b f' ↔ b.length = n ∧ f = b ++ f' := by
  unfold readBytes
  split_ifs with h
  · constructor
    · intro h'
      cases h'
    · rintro ⟨hlen, rfl⟩
      rw [List.length_append] at h
      omega
  · constructor
    · intro h'
      cases h'
      exact ⟨List.length_take_of_le (by omega), (List.take_append_drop n f).symm⟩
    · rintro ⟨rfl, rfl⟩
      rw [List.take_left, List.drop_left]

theorem assertEmpty_eq_ok {f f' : Bytes} : assertEmpty f = .ok () f' ↔ f = [] ∧ f' = [] := by
  unfold assertEmpty
  split_ifs with h <;> simp [h, eq_comm]

theorem parse_eq_ok {α : Type} {parser : Read α} {request : Bytes} {a : α} :
    parse parser request = .ok a ↔ ∃ f, parser (request.drop 1) = .ok a f := by
  unfold parse
  rw [EStateM.run]
  generalize request.drop 1 = f
  cases parser f with
  | ok b f' => simp
  | error e f' => simp

end ByteStreamParser

namespace ClientCommandInterpreter

theorem getPreimageRequest_eq_ok {request hash : Bytes} :
    parse getPreimageRequest request = .ok hash ↔ hash.length = 32 ∧ request.drop 1 = 0 :: hash := by
  rw [parse_eq_ok]
  simp only [getPreimageRequest, Reader.bind_eq_ok, Reader.ite_throw_eq_ok, readBytes_eq_ok]
  constructor
  · rintro ⟨f, first, s, ⟨-, hs⟩, hfirst, hash', s', ⟨hlen, rfl⟩, u, s'', hempty, hpure⟩
    obtain ⟨rfl, rfl⟩ := assertEmpty_eq_ok.1 hempty
    cases hpure
    rw [not_not.1 hfirst, List.append_nil] at hs
    exact ⟨hlen, hs⟩
  · rintro ⟨hlen, hreq⟩
    exact ⟨[], [0], hash, ⟨rfl, hreq⟩, not_not.2 rfl, hash, [], ⟨hlen, (List.append_nil _).symm⟩, (),
      [], assertEmpty_eq_ok.2 ⟨rfl, rfl⟩, rfl⟩

theorem getMerkleLeafIndexRequest_eq_ok {request : Bytes} {req : Bytes × Bytes} :
    parse getMerkleLeafIndexRequest request = .ok req ↔
      req.1.length = 32 ∧ req.2.length = 32 ∧ request.drop 1 = req.1 ++ req.2 := by
  rw [parse_eq_ok]
  simp only [getMerkleLeafIndexRequest, Reader.bind_eq_ok, readBytes_eq_ok]
  constructor
  · rintro ⟨f, root, s, ⟨hroot, hs⟩, leafHash, s', ⟨hleaf, rfl⟩, u, s'', hempty, hpure⟩
    obtain ⟨rfl, rfl⟩ := assertEmpty_eq_ok.1 hempty
    cases hpure
    rw [List.append_nil] at hs
    exact ⟨hroot, hleaf, hs⟩
  · rintro ⟨hroot, hleaf, hreq⟩
    exact ⟨[], req.1, req.2, ⟨hroot, hreq⟩, req.2, [], ⟨hleaf, (List.append_nil _).symm⟩, (), [],
      assertEmpty_eq_ok.2 ⟨rfl, rfl⟩, rfl⟩

end ClientCommandInterpreter

namespace MerkleTree

theorem get_eq_ok {self : MerkleTree} {i : ℕ} {leaf : Digest} :
    self.get i = .ok leaf ↔ self.leaves[i]? = some leaf := by
  unfold get
  cases self.leaves[i]? with
  | none => simp
  | some a => simp

end MerkleTree

namespace ClientCommandInterpreter

/-! ### What the client was told -/

/-- The client knows these preimages and these lists, and nothing else. -/
structure Knows (R : Runtime) (preimages : List Bytes) (lists : List (List Bytes))
    (client : ClientCommandInterpreter) : Prop where
  of_preimage {hash value : Bytes} (h : client.knownPreimages.get? hash = some value) :
    value ∈ preimages ∧ R.sha256 value = hash
  preimage {value : Bytes} (h : value ∈ preimages) :
    ∃ value', client.knownPreimages.get? (R.sha256 value) = some value'
  of_tree {root : Bytes} {mt : MerkleTree} (h : client.knownTrees.get? root = some mt) :
    ∃ elements ∈ lists, mt = listTree R elements ∧ (listTree R elements).root = root
  tree {elements : List Bytes} (h : elements ∈ lists) :
    ∃ mt, client.knownTrees.get? (listTree R elements).root = some mt

variable {R : Runtime} {preimages : List Bytes} {lists : List (List Bytes)}
  {self : ClientCommandInterpreter}

theorem knows_new : Knows R [] [] new where
  of_preimage h := by cases h
  preimage h := by cases h
  of_tree h := by cases h
  tree h := by cases h

theorem Knows.addKnownPreimage (h : Knows R preimages lists self) (element : Bytes) :
    Knows R (preimages ++ [element]) lists (self.addKnownPreimage R element) where
  of_preimage {hash value} hget := by
    rw [ClientCommandInterpreter.addKnownPreimage, Dict.get?_set] at hget
    split_ifs at hget with heq
    · cases hget
      exact ⟨List.mem_append_right _ List.mem_cons_self, heq.symm⟩
    · obtain ⟨hmem, hhash⟩ := h.of_preimage hget
      exact ⟨List.mem_append_left _ hmem, hhash⟩
  preimage {value} hmem := by
    rw [ClientCommandInterpreter.addKnownPreimage, Dict.get?_set]
    split_ifs with heq
    · exact ⟨element, rfl⟩
    · rcases List.mem_append.1 hmem with hmem | hmem
      · exact h.preimage hmem
      · rw [List.mem_singleton.1 hmem] at heq
        exact absurd rfl heq
  of_tree hget := h.of_tree hget
  tree hmem := h.tree hmem

theorem knows_foldl_addKnownPreimage (h : Knows R preimages lists self) (elements : List Bytes) :
    Knows R (preimages ++ elements.map (0x00 :: ·)) lists
      (elements.foldl (fun self el => self.addKnownPreimage R (0x00 :: el)) self) := by
  induction elements generalizing self preimages with
  | nil => rwa [List.map_nil, List.append_nil]
  | cons el elements ih =>
    have hnext := ih (h.addKnownPreimage (0x00 :: el))
    rwa [List.append_assoc, List.singleton_append] at hnext

theorem Knows.addKnownList (h : Knows R preimages lists self) (elements : List Bytes) :
    Knows R (preimages ++ elements.map (0x00 :: ·)) (lists ++ [elements])
      (self.addKnownList R elements) := by
  have hfold := knows_foldl_addKnownPreimage h elements
  refine ⟨fun hget => hfold.of_preimage hget, fun hmem => hfold.preimage hmem, ?_, ?_⟩
  · intro root mt hget
    rw [ClientCommandInterpreter.addKnownList, Dict.get?_set] at hget
    split_ifs at hget with heq
    · cases hget
      exact ⟨elements, List.mem_append_right _ List.mem_cons_self, rfl, heq.symm⟩
    · obtain ⟨es, hes, htree⟩ := hfold.of_tree hget
      exact ⟨es, List.mem_append_left _ hes, htree⟩
  · intro es hes
    rw [ClientCommandInterpreter.addKnownList, Dict.get?_set]
    split_ifs with heq
    · exact ⟨_, rfl⟩
    · rcases List.mem_append.1 hes with hes | hes
      · exact hfold.tree hes
      · rw [List.mem_singleton.1 hes] at heq
        exact absurd rfl heq

theorem Knows.learn (h : Knows R preimages lists self) (k : Knowledge) :
    Knows R (preimages ++ k.preimages) (lists ++ k.lists) (self.learn R k) := by
  cases k with
  | preimage element =>
    rw [Knowledge.lists, List.append_nil]
    exact h.addKnownPreimage element
  | list elements => exact h.addKnownList elements
  | mapping items =>
    rw [Knowledge.preimages, Knowledge.lists, ← List.append_assoc,
      ← List.singleton_append (l := [_]), ← List.append_assoc]
    exact (h.addKnownList _).addKnownList _

theorem knows_foldl_learn (h : Knows R preimages lists self) (knowledge : List Knowledge) :
    Knows R (preimages ++ knowledge.flatMap Knowledge.preimages)
      (lists ++ knowledge.flatMap Knowledge.lists) (knowledge.foldl (learn R) self) := by
  induction knowledge generalizing self preimages lists with
  | nil => simpa using h
  | cons k knowledge ih =>
    have hnext := ih (h.learn k)
    rwa [List.append_assoc, List.append_assoc] at hnext

theorem knows_told (knowledge : List Knowledge) :
    Knows R (knowledge.flatMap Knowledge.preimages) (knowledge.flatMap Knowledge.lists)
      (told R knowledge) := knows_foldl_learn knows_new knowledge

/-- Telling a client something yields nothing and leaves nothing over. -/
def Fresh (self : ClientCommandInterpreter) : Prop := self.queue = [] ∧ self.yielded = []

theorem Fresh.addKnownList (h : Fresh self) (elements : List Bytes) :
    Fresh (self.addKnownList R elements) := by
  have hfold : Fresh (elements.foldl (fun self el => self.addKnownPreimage R (0x00 :: el)) self) := by
    induction elements generalizing self with
    | nil => exact h
    | cons el elements ih => exact ih h
  exact hfold

theorem fresh_told (knowledge : List Knowledge) : Fresh (told R knowledge) := by
  have hfold (self : ClientCommandInterpreter) (h : Fresh self) :
      Fresh (knowledge.foldl (learn R) self) := by
    induction knowledge generalizing self with
    | nil => exact h
    | cons k knowledge ih =>
      apply ih
      cases k with
      | preimage element => exact h
      | list elements => exact h.addKnownList elements
      | mapping items => exact (h.addKnownList _).addKnownList _
  exact hfold new ⟨rfl, rfl⟩

/-! ### One request -/

theorem toByte_eq_ok {n : ℕ} {b : Bytes} : toByte n = .ok b ↔ n < 256 ∧ b = [UInt8.ofNat n] := by
  unfold toByte
  split_ifs with h <;> simp [h, eq_comm]

theorem yieldCommand_ok {request response : Bytes} {self' : ClientCommandInterpreter}
    (h : (yieldCommand request).run self = .ok response self')
    (hcode : request.head? = some ClientCommandCode.yield.toByte) :
    ∃ event : Event, event.Answers request response self self' ∧ event.TrueOf R preimages lists ∧
      response.length ≤ 255 := by
  cases h
  obtain ⟨data, rfl⟩ := List.head?_eq_some_iff.1 hcode
  exact ⟨.yield data, ⟨rfl, rfl, rfl, rfl, rfl, (List.append_nil _).symm⟩, trivial, Nat.zero_le _⟩

theorem serCompactSize_length_le (n : ℕ) : (serCompactSize n).length ≤ 9 := by
  unfold serCompactSize
  split_ifs <;> simp

theorem getPreimageCommand_ok (hknows : Knows R preimages lists self) {request response : Bytes}
    {self' : ClientCommandInterpreter} (h : (getPreimageCommand request).run self = .ok response self')
    (hcode : request.head? = some ClientCommandCode.getPreimage.toByte) :
    ∃ event : Event, event.Answers request response self self' ∧ event.TrueOf R preimages lists ∧
      response.length ≤ 255 := by
  obtain ⟨hash, hreq, h⟩ := run_ofExcept_bind_eq_ok.1 h
  obtain ⟨hlen, hdrop⟩ := getPreimageRequest_eq_ok.1 hreq
  rw [run_get_bind] at h
  cases hvalue : self.knownPreimages.get? hash with
  | none =>
    rw [hvalue] at h
    cases h
  | some value =>
    rw [hvalue] at h
    dsimp only at h
    rw [extendQueue, run_modify_bind, run_ofExcept_bind_eq_ok] at h
    obtain ⟨b, hbyte, h⟩ := h
    obtain ⟨-, rfl⟩ := toByte_eq_ok.1 hbyte
    cases h
    obtain ⟨tail, rfl⟩ := List.head?_eq_some_iff.1 hcode
    rw [List.drop_one, List.tail_cons] at hdrop
    rw [hdrop]
    refine ⟨.preimage hash value, ⟨⟨hlen, rfl⟩, rfl, rfl, rfl, (List.append_nil _).symm, rfl⟩,
      hknows.of_preimage hvalue, ?_⟩
    have hsize := serCompactSize_length_le value.length
    rw [List.length_append, List.length_append, List.length_singleton, List.length_take]
    omega

theorem length_flatMap_val (ls : List Digest) : (ls.flatMap Subtype.val).length = 32 * ls.length := by
  induction ls with
  | nil => rfl
  | cons a ls ih => rw [List.flatMap_cons, List.length_append, ih, a.2, List.length_cons, Nat.mul_succ,
      Nat.add_comm]

theorem getMerkleLeafProofCommand_ok (hknows : Knows R preimages lists self) {request response : Bytes}
    {self' : ClientCommandInterpreter}
    (h : (getMerkleLeafProofCommand request).run self = .ok response self')
    (hcode : request.head? = some ClientCommandCode.getMerkleLeafProof.toByte) :
    ∃ event : Event, event.Answers request response self self' ∧ event.TrueOf R preimages lists ∧
      response.length ≤ 255 := by
  obtain ⟨req, hreq, h⟩ := run_ofExcept_bind_eq_ok.1 h
  obtain ⟨root, treeSize, index⟩ := req
  dsimp only at h
  rw [run_get_bind] at h
  cases htree : self.knownTrees.get? root with
  | none =>
    rw [htree] at h
    cases h
  | some mt =>
    rw [htree] at h
    dsimp only at h
    obtain ⟨hsize, h⟩ := run_ite_throw_bind_eq_ok.1 h
    obtain ⟨hqueue, h⟩ := run_ite_throw_bind_eq_ok.1 h
    obtain ⟨proof, hproof, h⟩ := run_ofExcept_bind_eq_ok.1 h
    rw [extendQueue, run_modify_bind, run_ofExcept_bind_eq_ok] at h
    obtain ⟨leaf, hleaf, h⟩ := h
    obtain ⟨b, hbyte, h⟩ := run_ofExcept_bind_eq_ok.1 h
    obtain ⟨b', hbyte', h⟩ := run_ofExcept_bind_eq_ok.1 h
    obtain ⟨-, rfl⟩ := toByte_eq_ok.1 hbyte
    obtain ⟨-, rfl⟩ := toByte_eq_ok.1 hbyte'
    cases h
    obtain ⟨elements, hmem, rfl, hroot⟩ := hknows.of_tree htree
    have hcount : elements.length = treeSize := by
      by_contra hne
      exact hsize (Or.inr (by rwa [listTree, MerkleTree.new, List.length_map]))
    have hleaf' : (elements.map (elementDigest R))[index]? = some leaf := MerkleTree.get_eq_ok.1 hleaf
    refine ⟨.leafProof root treeSize index leaf proof, ⟨⟨hcode, hreq⟩, rfl, rfl, rfl,
      (List.append_nil _).symm, rfl⟩, ⟨elements, hmem, hroot, hcount, ?_, ?_⟩, ?_⟩
    · rw [List.getElem?_map, Option.map_eq_some_iff] at hleaf'
      exact hleaf'
    · obtain ⟨proof', hproof', hproves⟩ := MerkleTree.proveLeaf_proves (R := R) hleaf'
      have heq : (.ok proof' : Except Exc (List Digest)) = .ok proof := hproof'.symm.trans hproof
      cases heq
      rwa [List.length_map, hcount, ← listTree, hroot] at hproves
    · rw [List.length_append, List.length_append, List.length_append, leaf.2, length_flatMap_val,
        List.length_take]
      simp only [List.length_singleton]
      omega

theorem getMerkleLeafIndexCommand_ok (hknows : Knows R preimages lists self) {request response : Bytes}
    {self' : ClientCommandInterpreter}
    (h : (getMerkleLeafIndexCommand request).run self = .ok response self')
    (hcode : request.head? = some ClientCommandCode.getMerkleLeafIndex.toByte) :
    ∃ event : Event, event.Answers request response self self' ∧ event.TrueOf R preimages lists ∧
      response.length ≤ 255 := by
  obtain ⟨req, hreq, hrun⟩ := run_ofExcept_bind_eq_ok.1 h
  obtain ⟨root, leafHash⟩ := req
  obtain ⟨hroot, hhash, hdrop⟩ := getMerkleLeafIndexRequest_eq_ok.1 hreq
  obtain ⟨tail, rfl⟩ := List.head?_eq_some_iff.1 hcode
  rw [List.drop_one, List.tail_cons] at hdrop
  subst hdrop
  rw [run_get_bind] at hrun
  cases htree : self.knownTrees.get? root with
  | none =>
    rw [htree] at hrun
    cases hrun
  | some mt =>
    rw [htree] at hrun
    obtain ⟨elements, hmem, rfl, hroots⟩ := hknows.of_tree htree
    have hfind : (listTree R elements).leafIndex leafHash =
        ((elements.map (elementHash R)).findIdx? fun h => h = leafHash).elim
          (.error (.valueError "Leaf not found")) .ok := by
      have hleaves : (listTree R elements).leaves.findIdx? (fun leaf => leaf.val = leafHash) =
          (elements.map (elementHash R)).findIdx? fun h => h = leafHash := by
        rw [listTree, MerkleTree.new, List.findIdx?_map, List.findIdx?_map]
        rfl
      rw [MerkleTree.leafIndex, hleaves]
      cases (elements.map (elementHash R)).findIdx? fun h => h = leafHash <;> rfl
    dsimp only at hrun
    rw [hfind] at hrun
    cases hidx : (elements.map (elementHash R)).findIdx? fun h => h = leafHash with
    | none =>
      rw [hidx] at hrun
      cases hrun
      exact ⟨.leafIndex root leafHash none, ⟨⟨hroot, hhash, rfl⟩, rfl, rfl, rfl,
        (List.append_nil _).symm, (List.append_nil _).symm⟩, ⟨elements, hmem, hroots, hidx⟩, by decide⟩
    | some index =>
      rw [hidx] at hrun
      cases hrun
      refine ⟨.leafIndex root leafHash (some index), ⟨⟨hroot, hhash, rfl⟩, rfl, rfl, rfl,
        (List.append_nil _).symm, (List.append_nil _).symm⟩, ⟨elements, hmem, hroots, hidx⟩, ?_⟩
      have hsize := serCompactSize_length_le index
      rw [List.length_append, List.length_singleton]
      omega

/-! ### The queue -/

theorem popElements_append (elementLen responseLen : ℕ) (queue : List Bytes) :
    (popElements elementLen responseLen queue).1 ++ (popElements elementLen responseLen queue).2 =
      queue := by
  induction queue generalizing responseLen with
  | nil => rfl
  | cons el queue ih =>
    rw [popElements]
    split_ifs
    · rw [List.cons_append, ih]
    · rfl

theorem popElements_length {elementLen : ℕ} {queue : List Bytes}
    (h : ∀ el ∈ queue, el.length = elementLen) (responseLen : ℕ) (hlen : responseLen ≤ 253) :
    responseLen + (popElements elementLen responseLen queue).1.flatten.length ≤ 253 := by
  induction queue generalizing responseLen with
  | nil => exact hlen
  | cons el queue ih =>
    have hel := h el List.mem_cons_self
    rw [popElements]
    split_ifs with hfits
    · have hrest := ih (fun el hmem => h el (List.mem_cons_of_mem _ hmem))
        (responseLen + el.length) (by omega)
      rw [List.flatten_cons, List.length_append]
      omega
    · exact hlen

/-- The elements that an answer leaves over are single bytes or hashes. -/
def Short (queue : List Bytes) : Prop := ∀ el ∈ queue, el.length = 1 ∨ el.length = 32

theorem getMoreElementsCommand_ok {request response : Bytes} {self' : ClientCommandInterpreter}
    (hshort : Short self.queue)
    (h : (getMoreElementsCommand request).run self = .ok response self')
    (hcode : request.head? = some ClientCommandCode.getMoreElements.toByte) :
    ∃ event : Event, event.Answers request response self self' ∧ event.TrueOf R preimages lists ∧
      response.length ≤ 255 := by
  obtain ⟨hlen, h⟩ := run_ite_throw_bind_eq_ok.1 h
  rw [run_get_bind] at h
  cases hqueue : self.queue with
  | nil =>
    rw [hqueue] at h
    cases h
  | cons first rest =>
    rw [hqueue] at h
    dsimp only at h
    obtain ⟨hsame, h⟩ := run_ite_throw_bind_eq_ok.1 h
    rw [run_set_bind, run_ofExcept_bind_eq_ok] at h
    obtain ⟨b, hbyte, h⟩ := h
    obtain ⟨b', hbyte', h⟩ := run_ofExcept_bind_eq_ok.1 h
    obtain ⟨-, rfl⟩ := toByte_eq_ok.1 hbyte
    obtain ⟨-, rfl⟩ := toByte_eq_ok.1 hbyte'
    cases h
    have hlens : ∀ el ∈ first :: rest, el.length = first.length := by
      intro el hel
      by_contra hne
      exact hsame (List.any_eq_true.2 ⟨el, hel, by simpa using hne⟩)
    have hfirst : first.length ≤ 32 := by
      rcases hshort first (hqueue ▸ List.mem_cons_self) with hone | hhash <;> omega
    have hhead : (popElements first.length 0 (first :: rest)).1.head? = some first := by
      rw [popElements, if_pos (by omega)]
      rfl
    have happend := popElements_append first.length 0 (first :: rest)
    have htotal := popElements_length hlens 0 (by omega)
    obtain ⟨tail, rfl⟩ := List.head?_eq_some_iff.1 hcode
    obtain rfl : tail = [] := by simpa using hlen
    refine ⟨.more (popElements first.length 0 (first :: rest)).1,
      ⟨rfl, ?_, rfl, rfl, (List.append_nil _).symm, ?_⟩, trivial, ?_⟩
    · rw [Event.response, hhead]
      rfl
    · rw [hqueue]
      exact happend.trans (List.append_nil _).symm
    · rw [List.length_append, List.length_append]
      simp only [List.length_singleton]
      omega

theorem toByte_of_ofByte? {b : UInt8} {code : ClientCommandCode}
    (h : ClientCommandCode.ofByte? b = some code) : code.toByte = b := by
  simpa using List.find?_some h

/-- A request that is answered is one of the events. -/
theorem execute_ok (hknows : Knows R preimages lists self) (hshort : Short self.queue)
    {request response : Bytes} {self' : ClientCommandInterpreter}
    (h : (execute request).run self = .ok response self') :
    ∃ event : Event, event.Answers request response self self' ∧ event.TrueOf R preimages lists ∧
      response.length ≤ 255 := by
  unfold execute at h
  cases request with
  | nil => cases h
  | cons cmdCode data =>
    dsimp only at h
    cases hcode : ClientCommandCode.ofByte? cmdCode with
    | none =>
      rw [hcode] at h
      cases h
    | some code =>
      rw [hcode] at h
      have hhead : (cmdCode :: data).head? = some code.toByte := by rw [toByte_of_ofByte? hcode]; rfl
      cases code with
      | yield => exact yieldCommand_ok h hhead
      | getPreimage => exact getPreimageCommand_ok hknows h hhead
      | getMerkleLeafProof => exact getMerkleLeafProofCommand_ok hknows h hhead
      | getMerkleLeafIndex => exact getMerkleLeafIndexCommand_ok hknows h hhead
      | getMoreElements => exact getMoreElementsCommand_ok hshort h hhead

theorem Event.short_leftover (event : Event) : Short event.leftover := by
  intro el hel
  cases event with
  | preimage hash value =>
    obtain ⟨b, -, rfl⟩ := List.mem_map.1 hel
    exact Or.inl rfl
  | leafProof root treeSize index leaf proof =>
    obtain ⟨a, -, rfl⟩ := List.mem_map.1 hel
    exact Or.inr a.2
  | yield data => cases hel
  | leafIndex root leafHash index => cases hel
  | more elements => cases hel

theorem Event.Answers.short {event : Event} {request response : Bytes}
    {self' : ClientCommandInterpreter} (h : event.Answers request response self self')
    (hshort : Short self.queue) : Short self'.queue := by
  intro el hel
  have hmem : el ∈ self.queue ++ event.leftover := h.queue_eq ▸ List.mem_append_right _ hel
  rcases List.mem_append.1 hmem with hmem | hmem
  · exact hshort el hmem
  · exact Event.short_leftover event el hmem

theorem Event.Answers.knows {event : Event} {request response : Bytes}
    {self' : ClientCommandInterpreter} (h : event.Answers request response self self')
    (hknows : Knows R preimages lists self) : Knows R preimages lists self' where
  of_preimage hget := hknows.of_preimage (h.preimages_eq ▸ hget)
  preimage hmem := h.preimages_eq ▸ hknows.preimage hmem
  of_tree hget := hknows.of_tree (h.trees_eq ▸ hget)
  tree hmem := h.trees_eq ▸ hknows.tree hmem

end ClientCommandInterpreter

/-! ### Runs -/

namespace NewClient

open ClientCommandInterpreter

variable {R : Runtime} {preimages : List Bytes} {lists : List (List Bytes)}
  {self : ClientCommandInterpreter}

/-- An entry of the log is a true answer that fits into a message. -/
def Logged (R : Runtime) (preimages : List Bytes) (lists : List (List Bytes))
    (entry : Bytes × Bytes) (event : Event) : Prop :=
  event.Asked entry.1 ∧ event.response = entry.2 ∧ event.TrueOf R preimages lists ∧
    entry.2.length ≤ 255

theorem makeRequest_events (hknows : Knows R preimages lists self) (hshort : Short self.queue)
    {replies : List (ℕ × Bytes)} {result : List (Bytes × Bytes) × Option (ℕ × Bytes)}
    {self' : ClientCommandInterpreter} (h : (makeRequest replies).run self = .ok result self') :
    Knows R preimages lists self' ∧
    ∃ events : List Event, List.Forall₂ (Logged R preimages lists) result.1 events ∧
      self'.yielded = self.yielded ++ events.flatMap Event.yielded ∧
      events.flatMap Event.delivered ++ self'.queue = self.queue ++ events.flatMap Event.leftover := by
  induction replies generalizing self result with
  | nil =>
    cases h
    exact ⟨hknows, [], .nil, (List.append_nil _).symm, (List.append_nil _).symm⟩
  | cons reply replies ih =>
    rw [makeRequest] at h
    by_cases hsw : reply.1 ≠ 0xE000
    · rw [if_pos hsw] at h
      cases h
      exact ⟨hknows, [], .nil, (List.append_nil _).symm, (List.append_nil _).symm⟩
    · rw [if_neg hsw] at h
      obtain ⟨response, next, hexec, h⟩ := run_bind_eq_ok.1 h
      obtain ⟨rest, last, hrest, h⟩ := run_bind_eq_ok.1 h
      cases h
      obtain ⟨event, hanswers, htrue, hlen⟩ := execute_ok hknows hshort hexec
      obtain ⟨hknows', events, hlog, hyielded, hqueue⟩ :=
        ih (Event.Answers.knows hanswers hknows) (Event.Answers.short hanswers hshort) hrest
      refine ⟨hknows', event :: events, .cons ⟨hanswers.asked, hanswers.response_eq, htrue, hlen⟩ hlog, ?_, ?_⟩
      · rw [hyielded, hanswers.yielded_eq, List.flatMap_cons, List.append_assoc]
      · rw [List.flatMap_cons, List.flatMap_cons, List.append_assoc, hqueue, ← List.append_assoc,
          hanswers.queue_eq, List.append_assoc]

theorem short_told (knowledge : List Knowledge) : Short (told R knowledge).queue := by
  rw [(fresh_told knowledge).1]
  exact fun el hel => absurd hel List.not_mem_nil

/-- Whatever the device replies, its client answers with nothing but true events, each
in a message of at most 255 bytes; what it yields is kept in order, and what it gets
with GET_MORE_ELEMENTS is what was left over of the answers before, in order and once. -/
theorem makeRequest_told {knowledge : List Knowledge} {replies : List (ℕ × Bytes)}
    {result : List (Bytes × Bytes) × Option (ℕ × Bytes)} {self' : ClientCommandInterpreter}
    (h : (makeRequest replies).run (told R knowledge) = .ok result self') :
    ∃ events : List Event,
      List.Forall₂ (Logged R (knowledge.flatMap Knowledge.preimages) (knowledge.flatMap Knowledge.lists))
        result.1 events ∧
      self'.yielded = events.flatMap Event.yielded ∧
      events.flatMap Event.delivered ++ self'.queue = events.flatMap Event.leftover := by
  obtain ⟨hqueue, hyielded⟩ := fresh_told (R := R) knowledge
  obtain ⟨-, events, hlog, hyields, hfifo⟩ :=
    makeRequest_events (knows_told knowledge) (short_told knowledge) h
  rw [hyielded, List.nil_append] at hyields
  rw [hqueue, List.nil_append] at hfifo
  exact ⟨events, hlog, hyields, hfifo⟩

/-! #### An exchange -/

def exchangeKnowledge : List Knowledge := [.list [[1], [2], [3]], .preimage (List.replicate 300 7)]

/-- The device yields, asks for a preimage in two messages, and for a leaf by its hash and by
its index. -/
def exchangeReplies : List (ℕ × Bytes) :=
  let root := (listTree marking [[1], [2], [3]]).root
  [(0xE000, [0x10, 42]), (0xE000, 0x40 :: 0 :: marking.sha256 (List.replicate 300 7)),
    (0xE000, [0xA0]), (0xE000, 0x42 :: (root ++ elementHash marking [2])),
    (0xE000, 0x41 :: (root ++ [3, 1])), (0x9000, [])]

theorem makeRequest_told_exchange : ∃ log self',
    (makeRequest exchangeReplies).run (told marking exchangeKnowledge) =
      .ok (log, some (0x9000, [])) self' ∧ log.map Prod.fst = (exchangeReplies.take 5).map Prod.snd ∧
    ∃ events : List Event,
      List.Forall₂ (Logged marking (exchangeKnowledge.flatMap Knowledge.preimages)
        (exchangeKnowledge.flatMap Knowledge.lists)) log events ∧
      self'.yielded = events.flatMap Event.yielded ∧
      events.flatMap Event.delivered ++ self'.queue = events.flatMap Event.leftover := by
  have hok : (match (makeRequest exchangeReplies).run (told marking exchangeKnowledge) with
      | .ok result _ => decide (result.2 = some (0x9000, []) ∧
        result.1.map Prod.fst = (exchangeReplies.take 5).map Prod.snd)
      | .error _ _ => false) = true := by decide +kernel
  cases hrun : (makeRequest exchangeReplies).run (told marking exchangeKnowledge) with
  | error e self' =>
    rw [hrun] at hok
    cases hok
  | ok result self' =>
    rw [hrun] at hok
    obtain ⟨log, last⟩ := result
    obtain ⟨hlast, hlog⟩ := of_decide_eq_true hok
    dsimp only at hlast
    subst hlast
    exact ⟨log, self', rfl, hlog, makeRequest_told hrun⟩

end NewClient

end LedgerBitcoin

end Hwi
