import Hwi.Proofs.ClientFetch
import Hwi.Proofs.PsbtObject
import Hwi.Proofs.RegisteredDescriptor

/-! What `sign_psbt` tells its client and sends to the device: the maps of the PSBT as
they were written, and data that determines all of them. -/

namespace Hwi

namespace LedgerBitcoin

open Reader ClientCommandInterpreter

variable {R : Runtime}

namespace NewClient

/-! ### Reading the maps back -/

def storeRecord (R : Runtime) (key : Bytes) (_ : List Bytes) (result : Dict Bytes Bytes) :
    Read (Dict Bytes Bytes) := do
  let value ← deserString R
  return result.set key value

theorem dict_of_items {d d' : Dict Bytes Bytes} (h : d.items = d'.items) : d = d' := by
  cases d
  cases d'
  cases h
  rfl

/-- The records that are left of a map are stored behind those before. -/
theorem storeRecords {rs : List MapRecord} (hfits : ∀ r ∈ rs, RecordFits r)
    {result result' : Dict Bytes Bytes} (hresult : result'.items = result.items ++ rs)
    (seen : List Bytes) {rest : Bytes} {n : ℕ} (hn : (mapBytes rs ++ rest).length < n) :
    readLoop (nextKey R) (storeRecord R) n result seen (mapBytes rs ++ rest) = .ok result' rest := by
  induction rs generalizing n result seen with
  | nil =>
    obtain ⟨m, rfl⟩ := Nat.exists_eq_add_of_lt (Nat.zero_lt_of_lt hn)
    have hkey : nextKey R (mapBytes [] ++ rest) = (none, rest) := nextKey_separator rest
    rw [List.append_nil] at hresult
    rw [Nat.zero_add, readLoop_succ, hkey, dict_of_items hresult]
  | cons r rs ih =>
    obtain ⟨key, value⟩ := r
    obtain ⟨hkey, hks, hvs⟩ := hfits _ List.mem_cons_self
    obtain ⟨m, rfl⟩ := Nat.exists_eq_add_of_lt (Nat.zero_lt_of_lt hn)
    have hbytes : mapBytes ((key, value) :: rs) ++ rest =
        serString key ++ (serString value ++ (mapBytes rs ++ rest)) := by
      simp [mapBytes, serRecord, List.append_assoc]
    have hnew : result.get? key = none := by
      rw [Dict.get?_eq_none_iff]
      intro hmem
      have hnodup := result'.nodup
      rw [hresult, List.map_append, List.map_cons] at hnodup
      exact (List.disjoint_of_nodup_append hnodup) hmem List.mem_cons_self
    have hstore : storeRecord R key seen result (serString value ++ (mapBytes rs ++ rest)) =
        .ok (result.set key value) (mapBytes rs ++ rest) :=
      (exactly_deserString hvs).bind_pure (mapBytes rs ++ rest)
    have hpos : 0 < key.length := List.length_pos_iff.2 hkey
    have hserString : (serString key).length = (serCompactSize key.length).length + key.length :=
      List.length_append
    rw [hbytes] at hn ⊢
    rw [Nat.zero_add, readLoop_succ, nextKey_serString hkey hks]
    dsimp only
    rw [bind_apply, hstore]
    refine ih (fun r hr => hfits r (List.mem_cons_of_mem _ hr)) ?_ _ ?_
    · rw [hresult, Dict.set_items_of_not_mem hnew, List.append_assoc, List.singleton_append]
    · simp only [List.length_append] at hn ⊢
      omega

theorem exactly_parseStreamToMap {d : Dict Bytes Bytes} (hfits : ∀ r ∈ d.items, RecordFits r) :
    Exactly (parseStreamToMap R) (mapBytes d.items) d := by
  intro rest
  have hresult : d.items = (∅ : Dict Bytes Bytes).items ++ d.items := (List.nil_append _).symm
  exact storeRecords hfits hresult [] (Nat.lt_succ_self _)

/-- The bytes of the maps. -/
def MapsOf.bytes (maps : MapsOf) : Bytes :=
  PSBT.magic ++ (mapBytes maps.globalMap.items ++
    (maps.inputMaps.flatMap (fun d => mapBytes d.items) ++
      maps.outputMaps.flatMap fun d => mapBytes d.items))

theorem exactly_parseMaps (maps : MapsOf) (hfits : ∀ d ∈ maps.all, ∀ r ∈ d.items, RecordFits r) :
    Exactly (parseMaps R maps.inputMaps.length maps.outputMaps.length) maps.bytes maps := by
  have hmagic : Exactly (read 5) PSBT.magic PSBT.magic := exactly_read rfl
  refine hmagic.bind ?_
  rw [if_neg (not_not.2 rfl)]
  refine (exactly_parseStreamToMap (hfits _ List.mem_cons_self)).bind ?_
  refine (exactly_readN fun d hd => exactly_parseStreamToMap ?_).bind
    ((exactly_readN fun d hd => exactly_parseStreamToMap ?_).bind_pure)
  · exact hfits d (List.mem_cons_of_mem _ (List.mem_append_left _ hd))
  · exact hfits d (List.mem_cons_of_mem _ (List.mem_append_right _ hd))

/-- The records of the maps. -/
def MapsOf.raw (maps : MapsOf) : RawMaps where
  globals := maps.globalMap.items
  inputs := maps.inputMaps.map Dict.items
  outputs := maps.outputMaps.map Dict.items

theorem MapsOf.bytes_raw (maps : MapsOf) : maps.raw.bytes = maps.bytes := by
  rw [RawMaps.bytes, MapsOf.raw, MapsOf.bytes, List.flatMap_map, List.flatMap_map]

theorem exists_dict {ε : Type} {Valid : ε → Prop} {record : ε → MapRecord} {es : List ε}
    (h : PsbtMaps.MapCanonical Valid record es) :
    ∃ d : Dict Bytes Bytes, d.items = es.map record ∧ ∀ r ∈ d.items, RecordFits r := by
  have hnodup : ((es.map record).map Prod.fst).Nodup := by
    rw [List.map_map]
    exact h.nodup
  refine ⟨⟨es.map record, hnodup⟩, rfl, fun r hr => ?_⟩
  obtain ⟨e, he, rfl⟩ := List.mem_map.1 hr
  exact h.fits e he

theorem exists_dicts {ε : Type} {Valid : ε → Prop} {record : ε → MapRecord} {ess : List (List ε)}
    (h : ∀ es ∈ ess, PsbtMaps.MapCanonical Valid record es) :
    ∃ ds : List (Dict Bytes Bytes), ds.map Dict.items = ess.map (List.map record) ∧
      ∀ d ∈ ds, ∀ r ∈ d.items, RecordFits r := by
  induction ess with
  | nil => exact ⟨[], rfl, fun d hd => absurd hd List.not_mem_nil⟩
  | cons es ess ih =>
    obtain ⟨d, hd, hfits⟩ := exists_dict (h es List.mem_cons_self)
    obtain ⟨ds, hds, hfit⟩ := ih fun es hes => h es (List.mem_cons_of_mem _ hes)
    refine ⟨d :: ds, by rw [List.map_cons, List.map_cons, hd, hds], ?_⟩
    rintro d' (- | ⟨-, hd'⟩)
    · exact hfits
    · exact hfit d' hd'

/-- The bytes of canonical maps are parsed as these maps, to the end. -/
theorem parseMaps_of_canonical {m : PsbtMaps} (h : m.Canonical R) :
    ∃ maps : MapsOf, maps.raw = m.raw ∧
      parseMaps R m.inputs.length m.outputs.length m.raw.bytes = .ok maps [] := by
  obtain ⟨globalMap, hglobal, hgfits⟩ := exists_dict h.globals
  obtain ⟨inputMaps, hinputs, hifits⟩ := exists_dicts h.inputs
  obtain ⟨outputMaps, houtputs, hofits⟩ := exists_dicts h.outputs
  have hraw : MapsOf.raw ⟨globalMap, inputMaps, outputMaps⟩ = m.raw := by
    rw [MapsOf.raw, PsbtMaps.raw, hglobal, hinputs, houtputs]
  have hilen : inputMaps.length = m.inputs.length := by simpa using congrArg List.length hinputs
  have holen : outputMaps.length = m.outputs.length := by simpa using congrArg List.length houtputs
  refine ⟨⟨globalMap, inputMaps, outputMaps⟩, hraw, ?_⟩
  have hread := exactly_parseMaps (R := R) ⟨globalMap, inputMaps, outputMaps⟩ (by
    intro d hd
    rcases List.mem_cons.1 hd with rfl | hd
    · exact hgfits
    · rcases List.mem_append.1 hd with hd | hd
      · exact hifits d hd
      · exact hofits d hd) []
  rw [List.append_nil, ← MapsOf.bytes_raw, hraw] at hread
  rwa [← hilen, ← holen]

theorem parseMaps_serialize {p : PSBT} (h : p.WellFormed R) :
    ∃ raw : RawMaps, ∃ maps : MapsOf, p.serializeBytes R = .ok raw.bytes ∧ PSBT.Written R p raw ∧
      maps.raw = raw ∧ parseMaps R p.inputs.length p.outputs.length raw.bytes = .ok maps [] := by
  obtain ⟨raw, hbytes, hwritten⟩ := PSBT.serializeBytes_ok h.writable
  obtain ⟨m, hm, rfl⟩ := hwritten.exists_maps
  obtain ⟨maps, hraw, hparse⟩ := parseMaps_of_canonical (hm.canonical h)
  rw [← hm.inputs.length_eq, ← hm.outputs.length_eq] at hparse
  exact ⟨m.raw, maps, hbytes, hwritten, hraw, hparse⟩

theorem parseMaps_serialize_sample : ∃ raw : RawMaps, ∃ maps : MapsOf,
    PSBT.sample.serializeBytes Runtime.zeros = .ok raw.bytes ∧ PSBT.Written Runtime.zeros PSBT.sample raw ∧
    maps.raw = raw ∧
    parseMaps Runtime.zeros PSBT.sample.inputs.length PSBT.sample.outputs.length raw.bytes = .ok maps [] :=
  parseMaps_serialize PSBT.sample_wellFormed

/-! ### What is told -/

/-- What the client is told before `sign_psbt`. -/
def signPsbtKnowledge (R : Runtime) (maps : MapsOf) (wallet : WalletPolicy) (serialized : Bytes) :
    List Knowledge :=
  [.list (wallet.keysInfo.map utf8), .preimage serialized, .preimage (utf8 wallet.descriptorTemplate)] ++
    maps.all.map .mapping ++
    [.list (maps.inputMaps.map (getMerkleizedMapCommitment R)),
      .list (maps.outputMaps.map (getMerkleizedMapCommitment R))]

theorem signPsbtClient_eq {maps : MapsOf} {wallet : WalletPolicy} {serialized : Bytes}
    (h : wallet.serialize R = .ok serialized) :
    signPsbtClient R maps wallet = .ok (told R (signPsbtKnowledge R maps wallet serialized)) := by
  have hfold (ms : List (Dict Bytes Bytes)) (client : ClientCommandInterpreter) :
      (ms.map Knowledge.mapping).foldl (learn R) client =
        ms.foldl (fun client m => client.addKnownMapping R m) client := by
    rw [List.foldl_map]
    rfl
  have htold : told R (signPsbtKnowledge R maps wallet serialized) =
      [.list (maps.inputMaps.map (getMerkleizedMapCommitment R)),
        .list (maps.outputMaps.map (getMerkleizedMapCommitment R))].foldl (learn R)
        ((maps.inputMaps ++ maps.outputMaps).foldl (fun client m => client.addKnownMapping R m)
          ((told R [.list (wallet.keysInfo.map utf8), .preimage serialized,
            .preimage (utf8 wallet.descriptorTemplate)]).addKnownMapping R maps.globalMap)) := by
    unfold told signPsbtKnowledge
    rw [List.foldl_append, List.foldl_append, MapsOf.all, List.map_cons,
      List.foldl_cons (l := (maps.inputMaps ++ maps.outputMaps).map Knowledge.mapping), hfold]
    rfl
  rw [htold, List.foldl_append, signPsbtClient, walletClient, h]
  rfl

theorem mapping_mem_lists {maps : MapsOf} {wallet : WalletPolicy} {serialized : Bytes}
    {m : Dict Bytes Bytes} (hm : m ∈ maps.all) {elements : List Bytes}
    (h : elements ∈ (Knowledge.mapping m).lists) :
    elements ∈ (signPsbtKnowledge R maps wallet serialized).flatMap Knowledge.lists :=
  List.mem_flatMap.2 ⟨.mapping m,
    List.mem_append_left _ (List.mem_append_right _ (List.mem_map_of_mem hm)), h⟩

theorem commitment_length_lt (m : Dict Bytes Bytes) :
    (getMerkleizedMapCommitment R m).length + 1 < 2 ^ 64 := by
  have hsize := serCompactSize_length_le m.size
  rw [getMerkleizedMapCommitment, List.length_append, List.length_append, root_length, root_length]
  omega

/-- When nothing is left over, whatever happened before, the device can read the key and
the value of every record of the PSBT at one index of the lists to which the map is
committed, and every such commitment from the lists that are in the data it was sent. -/
theorem signPsbt_fetches {maps : MapsOf} {wallet : WalletPolicy} {serialized : Bytes}
    (hwallet : wallet.serialize R = .ok serialized)
    (hfree : CollisionFree R (toldStrings R (signPsbtKnowledge R maps wallet serialized)))
    (hsizes : ∀ m ∈ maps.all, m.size < 2 ^ 64 ∧
      ∀ r ∈ m.items, r.1.length + 1 < 2 ^ 64 ∧ r.2.length + 1 < 2 ^ 64)
    (hinputs : maps.inputMaps.length < 2 ^ 64) (houtputs : maps.outputMaps.length < 2 ^ 64)
    {start client : ClientCommandInterpreter} (hstart : signPsbtClient R maps wallet = .ok start)
    {replies : List (ℕ × Bytes)} {result : List (Bytes × Bytes) × Option (ℕ × Bytes)}
    (hrun : (makeRequest replies).run start = .ok result client) (hqueue : client.queue = [])
    {last : ℕ × Bytes} (hlast : last.1 ≠ 0xE000) :
    (∀ m ∈ maps.all, ∀ key value, (key, value) ∈ m.items → ∃ index,
      Fetches R client last (listTree R ((itemsSorted m).map Prod.fst)).root m.size index key ∧
      Fetches R client last (listTree R ((itemsSorted m).map Prod.snd)).root m.size index value) ∧
    (∀ index m, maps.inputMaps[index]? = some m → Fetches R client last
      (listTree R (maps.inputMaps.map (getMerkleizedMapCommitment R))).root maps.inputMaps.length index
      (getMerkleizedMapCommitment R m)) ∧
    ∀ index m, maps.outputMaps[index]? = some m → Fetches R client last
      (listTree R (maps.outputMaps.map (getMerkleizedMapCommitment R))).root maps.outputMaps.length index
      (getMerkleizedMapCommitment R m) := by
  rw [signPsbtClient_eq hwallet] at hstart
  cases hstart
  refine ⟨?_, ?_, ?_⟩
  · intro m hm key value hitem
    obtain ⟨hsize, hrecords⟩ := hsizes m hm
    obtain ⟨hkey, hvalue⟩ := hrecords _ hitem
    obtain ⟨index, hindex⟩ := List.mem_iff_getElem?.1 (mem_itemsSorted.2 hitem)
    have hlen : (itemsSorted m).length = m.size := length_itemsSorted m
    have hfst := fetches_of_told hrun hqueue hfree
      (mapping_mem_lists hm List.mem_cons_self) (by rwa [List.length_map, hlen])
      (by rw [List.getElem?_map, hindex]; rfl) hkey hlast
    have hsnd := fetches_of_told hrun hqueue hfree
      (mapping_mem_lists hm (List.mem_cons_of_mem _ List.mem_cons_self)) (by rwa [List.length_map, hlen])
      (by rw [List.getElem?_map, hindex]; rfl) hvalue hlast
    rw [List.length_map, hlen] at hfst hsnd
    exact ⟨index, hfst, hsnd⟩
  · intro index m hm
    have hmem : maps.inputMaps.map (getMerkleizedMapCommitment R) ∈
        (signPsbtKnowledge R maps wallet serialized).flatMap Knowledge.lists :=
      List.mem_flatMap.2 ⟨_, List.mem_append_right _ List.mem_cons_self, List.mem_cons_self⟩
    have hfetch := fetches_of_told hrun hqueue hfree hmem (by rwa [List.length_map])
      (by rw [List.getElem?_map, hm]; rfl) (commitment_length_lt m) hlast
    rwa [List.length_map] at hfetch
  · intro index m hm
    have hmem : maps.outputMaps.map (getMerkleizedMapCommitment R) ∈
        (signPsbtKnowledge R maps wallet serialized).flatMap Knowledge.lists :=
      List.mem_flatMap.2 ⟨_, List.mem_append_right _ (List.mem_cons_of_mem _ List.mem_cons_self),
        List.mem_cons_self⟩
    have hfetch := fetches_of_told hrun hqueue hfree hmem (by rwa [List.length_map])
      (by rw [List.getElem?_map, hm]; rfl) (commitment_length_lt m) hlast
    rwa [List.length_map] at hfetch

/-! ### A PSBT of a few records -/

/-- A PSBT with an input and an output, the output without records. -/
def fewRecords : MapsOf :=
  ⟨(Dict.empty.set [1] [2]).set [3] [4], [Dict.empty.set [5] [6]], [∅]⟩

def oneKey : WalletPolicy := ⟨['w'], ['p', 'k'], [['x']]⟩

def oneKeySerialized : Bytes :=
  [0x02, 0x01, 0x77, 0x02] ++ marking.sha256 [0x70, 0x6b] ++ [0x01] ++ marking.sha256 [0x00, 0x78]

theorem oneKey_serialize : oneKey.serialize marking = .ok oneKeySerialized := by decide +kernel

theorem itemsSorted_fewRecords : ∀ m ∈ fewRecords.all, itemsSorted m = m.items := by
  intro m hm
  refine List.mergeSort_of_pairwise ?_
  revert m
  decide

def inputCommitment : Bytes := [1] ++ marking.sha256 [0, 5] ++ marking.sha256 [0, 6]

def outputCommitment : Bytes := [0] ++ List.replicate 64 0

theorem fewRecords_lists :
    (signPsbtKnowledge marking fewRecords oneKey oneKeySerialized).flatMap Knowledge.lists =
      [[[0x78]], [[1], [3]], [[2], [4]], [[5]], [[6]], [], [], [inputCommitment], [outputCommitment]] := by
  have hsorted := itemsSorted_fewRecords
  simp only [fewRecords, MapsOf.all, List.forall_mem_cons, List.cons_append, List.nil_append] at hsorted
  obtain ⟨hglobal, hinput, houtput, -⟩ := hsorted
  simp only [signPsbtKnowledge, fewRecords, MapsOf.all, List.map_cons, List.map_nil, List.cons_append,
    List.nil_append, Knowledge.lists, List.flatMap_cons, List.flatMap_nil, getMerkleizedMapCommitment,
    hglobal, hinput, houtput]
  decide +kernel

theorem fewRecords_preimages :
    (signPsbtKnowledge marking fewRecords oneKey oneKeySerialized).flatMap Knowledge.preimages =
      [[0, 0x78], oneKeySerialized, [0x70, 0x6b], [0, 1], [0, 3], [0, 2], [0, 4], [0, 5], [0, 6],
        0 :: inputCommitment, 0 :: outputCommitment] := by
  have hsorted := itemsSorted_fewRecords
  simp only [fewRecords, MapsOf.all, List.forall_mem_cons, List.cons_append, List.nil_append] at hsorted
  obtain ⟨hglobal, hinput, houtput, -⟩ := hsorted
  simp only [signPsbtKnowledge, fewRecords, MapsOf.all, List.map_cons, List.map_nil, List.cons_append,
    List.nil_append, Knowledge.preimages, List.flatMap_cons, List.flatMap_nil, getMerkleizedMapCommitment,
    hglobal, hinput, houtput]
  decide +kernel

theorem fewRecords_collisionFree : CollisionFree marking
    (toldStrings marking (signPsbtKnowledge marking fewRecords oneKey oneKeySerialized)) := by
  rw [toldStrings, fewRecords_lists, fewRecords_preimages, collisionFree_iff]
  decide +kernel

/-- The device yields a byte and returns. -/
theorem makeRequest_yield (self : ClientCommandInterpreter) :
    (makeRequest [(0xE000, [0x10, 7]), (0x9000, [])]).run self =
      .ok ([([0x10, 7], [])], some (0x9000, [])) { self with yielded := self.yielded ++ [[7]] } := rfl

theorem fewRecords_sizes : ∀ m ∈ fewRecords.all, m.size < 2 ^ 64 ∧
    ∀ r ∈ m.items, r.1.length + 1 < 2 ^ 64 ∧ r.2.length + 1 < 2 ^ 64 := by
  decide +kernel

theorem signPsbt_fetches_fewRecords : ∃ start client,
    signPsbtClient marking fewRecords oneKey = .ok start ∧
    (makeRequest [(0xE000, [0x10, 7]), (0x9000, [])]).run start =
      .ok ([([0x10, 7], [])], some (0x9000, [])) client ∧
    (∀ m ∈ fewRecords.all, ∀ key value, (key, value) ∈ m.items → ∃ index,
      Fetches marking client (0x9000, []) (listTree marking ((itemsSorted m).map Prod.fst)).root m.size
        index key ∧
      Fetches marking client (0x9000, []) (listTree marking ((itemsSorted m).map Prod.snd)).root m.size
        index value) ∧
    (∀ index m, fewRecords.inputMaps[index]? = some m → Fetches marking client (0x9000, [])
      (listTree marking (fewRecords.inputMaps.map (getMerkleizedMapCommitment marking))).root 1 index
      (getMerkleizedMapCommitment marking m)) ∧
    ∀ index m, fewRecords.outputMaps[index]? = some m → Fetches marking client (0x9000, [])
      (listTree marking (fewRecords.outputMaps.map (getMerkleizedMapCommitment marking))).root 1 index
      (getMerkleizedMapCommitment marking m) := by
  obtain ⟨start, hstart, hqueue⟩ : ∃ start, signPsbtClient marking fewRecords oneKey = .ok start ∧
      start.queue = [] := ⟨_, signPsbtClient_eq oneKey_serialize, (fresh_told _).1⟩
  exact ⟨start, _, hstart, makeRequest_yield start,
    signPsbt_fetches oneKey_serialize fewRecords_collisionFree fewRecords_sizes (by decide) (by decide)
      hstart (makeRequest_yield start) hqueue (by decide)⟩

/-! ### Wallet policies -/

theorem utf8_injective {s s' : Str} (h : utf8 s = utf8 s') : s = s' := by
  have hdecode := utf8Decode_utf8 s
  rw [h, utf8Decode_utf8] at hdecode
  exact (Except.ok.inj hdecode).symm

theorem latin1_injective {value value' : Str} (h : ∀ c ∈ value, c.toNat < 256)
    (h' : ∀ c ∈ value', c.toNat < 256)
    (heq : value.map (fun c => UInt8.ofNat c.toNat) = value'.map fun c => UInt8.ofNat c.toNat) :
    value = value' := by
  induction value generalizing value' with
  | nil =>
    rw [List.map_nil, eq_comm, List.map_eq_nil_iff] at heq
    exact heq.symm
  | cons c value ih =>
    cases value' with
    | nil => cases heq
    | cons c' value' =>
      obtain ⟨hc, hrest⟩ := List.cons.inj heq
      have hnat := congrArg UInt8.toNat hc
      rw [UInt8.toNat_ofNat_of_lt' (h c List.mem_cons_self),
        UInt8.toNat_ofNat_of_lt' (h' c' List.mem_cons_self)] at hnat
      rw [Char.toNat_inj.1 hnat, ih (fun c hc => h c (List.mem_cons_of_mem _ hc))
        (fun c hc => h' c (List.mem_cons_of_mem _ hc)) hrest]

theorem serializeStr_eq_ok {value : Str} {b : Bytes} (h : serializeStr value = .ok b) :
    value.length < 256 ∧ (∀ c ∈ value, c.toNat < 256) ∧
      b = UInt8.ofNat value.length :: value.map fun c => UInt8.ofNat c.toNat := by
  unfold serializeStr at h
  by_cases hlen : 256 ≤ value.length
  · rw [if_pos hlen] at h
    cases h
  · rw [if_neg hlen] at h
    by_cases hany : value.any (fun c => 256 ≤ c.toNat) = true
    · rw [if_pos hany] at h
      cases h
    · rw [if_neg hany] at h
      cases h
      refine ⟨by omega, fun c hc => ?_, rfl⟩
      by_contra hge
      exact hany (List.any_eq_true.2 ⟨c, hc, by simpa using hge⟩)

/-- What follows a string does not change it. -/
theorem serializeStr_append_inj {value value' : Str} {b b' t t' : Bytes}
    (h : serializeStr value = .ok b) (h' : serializeStr value' = .ok b') (heq : b ++ t = b' ++ t') :
    value = value' ∧ t = t' := by
  obtain ⟨hlen, hchars, rfl⟩ := serializeStr_eq_ok h
  obtain ⟨hlen', hchars', rfl⟩ := serializeStr_eq_ok h'
  rw [List.cons_append, List.cons_append] at heq
  obtain ⟨hfirst, hrest⟩ := List.cons.inj heq
  have hnat := congrArg UInt8.toNat hfirst
  rw [UInt8.toNat_ofNat_of_lt' hlen, UInt8.toNat_ofNat_of_lt' hlen'] at hnat
  obtain ⟨hvalue, ht⟩ := List.append_inj hrest (by rw [List.length_map, List.length_map, hnat])
  exact ⟨latin1_injective hchars hchars' hvalue, ht⟩

/-- The strings that are hashed inside the serialisation of a wallet policy. -/
def policyInputs (R : Runtime) (wallet : WalletPolicy) : List Bytes :=
  utf8 wallet.descriptorTemplate :: listInputs R (wallet.keysInfo.map utf8)

/-- What a policy needs to be serialised. -/
def PolicyFits (wallet : WalletPolicy) : Prop :=
  (utf8 wallet.descriptorTemplate).length < 2 ^ 64 ∧ wallet.keysInfo.length < 2 ^ 64

theorem serialize_eq_ok {wallet : WalletPolicy} {serialized : Bytes}
    (h : wallet.serialize R = .ok serialized) : ∃ name, serializeStr wallet.name = .ok name ∧
      serialized = 0x02 :: (name ++ (serCompactSize (utf8 wallet.descriptorTemplate).length ++
        (R.sha256 (utf8 wallet.descriptorTemplate) ++ (serCompactSize wallet.keysInfo.length ++
          (listTree R (wallet.keysInfo.map utf8)).root)))) := by
  obtain ⟨name, hname, h⟩ := bind_eq_ok.1 h
  cases h
  refine ⟨name, hname, ?_⟩
  rw [listTree, List.map_map]
  simp only [List.append_assoc, List.singleton_append]
  rfl

/-- A serialised policy determines the policy, unless two strings that are hashed inside
clash. -/
theorem policy_of_serialize {wallet wallet' : WalletPolicy} {serialized : Bytes}
    (hfits : PolicyFits wallet) (hfits' : PolicyFits wallet') (h : wallet.serialize R = .ok serialized)
    (h' : wallet'.serialize R = .ok serialized) :
    wallet = wallet' ∨ HashClash R (policyInputs R wallet) (policyInputs R wallet') := by
  obtain ⟨name, hname, rfl⟩ := serialize_eq_ok h
  obtain ⟨name', hname', heq⟩ := serialize_eq_ok h'
  obtain ⟨hnames, heq⟩ := serializeStr_append_inj hname hname' (List.cons.inj heq).2
  obtain ⟨-, heq⟩ := serCompactSize_append_inj hfits.1 hfits'.1 heq
  obtain ⟨htemplate, heq⟩ := List.append_inj heq ((R.sha256_length _).trans (R.sha256_length _).symm)
  obtain ⟨hcount, hroot⟩ := serCompactSize_append_inj hfits.2 hfits'.2 heq
  by_cases htemplates : utf8 wallet.descriptorTemplate = utf8 wallet'.descriptorTemplate
  · rcases elements_of_root (by simpa using hcount) hroot with hkeys | hclash
    · left
      have hkeysInfo := List.map_injective_iff.2 (fun _ _ => utf8_injective) hkeys
      cases wallet
      cases wallet'
      cases hnames
      cases utf8_injective htemplates
      cases hkeysInfo
      rfl
    · exact Or.inr (hclash.mono (List.subset_cons_self _ _) (List.subset_cons_self _ _))
  · exact Or.inr ⟨_, List.mem_cons_self, _, List.mem_cons_self, htemplates, htemplate⟩

/-! ### What is sent -/

/-- The strings that are hashed for the data of `sign_psbt`. -/
def signPsbtInputs (R : Runtime) (maps : MapsOf) (wallet : WalletPolicy) (serialized : Bytes) : List Bytes :=
  maps.all.flatMap (mapInputs R) ++
    (listInputs R (maps.inputMaps.map (getMerkleizedMapCommitment R)) ++
      (listInputs R (maps.outputMaps.map (getMerkleizedMapCommitment R)) ++
        (serialized :: policyInputs R wallet)))

theorem same_of_commitments {ms ms' : List (Dict Bytes Bytes)}
    (hsize : ∀ m ∈ ms, m.size < 2 ^ 64) (hsize' : ∀ m ∈ ms', m.size < 2 ^ 64)
    (h : ms.map (getMerkleizedMapCommitment R) = ms'.map (getMerkleizedMapCommitment R)) :
    List.Forall₂ Dict.Same ms ms' ∨ HashClash R (ms.flatMap (mapInputs R)) (ms'.flatMap (mapInputs R)) := by
  induction ms generalizing ms' with
  | nil =>
    rw [List.map_nil, eq_comm, List.map_eq_nil_iff] at h
    rw [h]
    exact Or.inl .nil
  | cons m ms ih =>
    cases ms' with
    | nil => cases h
    | cons m' ms' =>
      obtain ⟨hm, hms⟩ := List.cons.inj h
      rcases same_of_commitment (hsize m List.mem_cons_self) (hsize' m' List.mem_cons_self) hm with
        hsame | hclash
      · rcases ih (fun m hm => hsize m (List.mem_cons_of_mem _ hm))
          (fun m hm => hsize' m (List.mem_cons_of_mem _ hm)) hms with hall | hclash
        · exact Or.inl (.cons hsame hall)
        · exact Or.inr (hclash.mono (List.subset_append_right _ _) (List.subset_append_right _ _))
      · exact Or.inr (hclash.mono (List.subset_append_left _ _) (List.subset_append_left _ _))

theorem signPsbtData_eq {wallet : WalletPolicy} {serialized : Bytes} (maps : MapsOf)
    (walletHmac : Option Bytes) (h : wallet.serialize R = .ok serialized) :
    signPsbtData R maps wallet walletHmac = .ok
      (getMerkleizedMapCommitment R maps.globalMap ++
        (serCompactSize maps.inputMaps.length ++
          ((listTree R (maps.inputMaps.map (getMerkleizedMapCommitment R))).root ++
            (serCompactSize maps.outputMaps.length ++
              ((listTree R (maps.outputMaps.map (getMerkleizedMapCommitment R))).root ++
                (R.sha256 serialized ++ hmacOrZeros walletHmac)))))) := by
  rw [signPsbtData, WalletPolicy.id, h, listTree, listTree, List.map_map, List.map_map]
  simp only [List.append_assoc]
  rfl

/-- What follows a commitment does not change it. -/
theorem commitment_append_inj {m m' : Dict Bytes Bytes} (hm : m.size < 2 ^ 64) (hm' : m'.size < 2 ^ 64)
    {t t' : Bytes} (h : getMerkleizedMapCommitment R m ++ t = getMerkleizedMapCommitment R m' ++ t') :
    getMerkleizedMapCommitment R m = getMerkleizedMapCommitment R m' ∧ t = t' := by
  refine List.append_inj h ?_
  simp only [getMerkleizedMapCommitment, List.append_assoc] at h ⊢
  rw [(serCompactSize_append_inj hm hm' h).1]
  simp only [List.length_append, root_length]

/-- The data of `sign_psbt` determines the maps of the PSBT, the wallet policy and the
hmac, unless two strings that are hashed for it clash. -/
theorem signPsbtData_binds {maps maps' : MapsOf} {wallet wallet' : WalletPolicy}
    {serialized serialized' data : Bytes} {walletHmac walletHmac' : Option Bytes}
    (hpolicy : PolicyFits wallet) (hpolicy' : PolicyFits wallet')
    (hwallet : wallet.serialize R = .ok serialized) (hwallet' : wallet'.serialize R = .ok serialized')
    (hsizes : ∀ m ∈ maps.all, m.size < 2 ^ 64) (hsizes' : ∀ m ∈ maps'.all, m.size < 2 ^ 64)
    (hcounts : maps.inputMaps.length < 2 ^ 64 ∧ maps.outputMaps.length < 2 ^ 64)
    (hcounts' : maps'.inputMaps.length < 2 ^ 64 ∧ maps'.outputMaps.length < 2 ^ 64)
    (hdata : signPsbtData R maps wallet walletHmac = .ok data)
    (hdata' : signPsbtData R maps' wallet' walletHmac' = .ok data) :
    (maps.globalMap.Same maps'.globalMap ∧ List.Forall₂ Dict.Same maps.inputMaps maps'.inputMaps ∧
      List.Forall₂ Dict.Same maps.outputMaps maps'.outputMaps ∧ wallet = wallet' ∧
      hmacOrZeros walletHmac = hmacOrZeros walletHmac') ∨
    HashClash R (signPsbtInputs R maps wallet serialized) (signPsbtInputs R maps' wallet' serialized') := by
  have heq := (signPsbtData_eq maps walletHmac hwallet).symm.trans
    ((hdata.trans hdata'.symm).trans (signPsbtData_eq maps' walletHmac' hwallet'))
  have hbytes := Except.ok.inj heq
  obtain ⟨hglobal, hbytes⟩ := commitment_append_inj (hsizes _ List.mem_cons_self)
    (hsizes' _ List.mem_cons_self) hbytes
  obtain ⟨hinputCount, hbytes⟩ := serCompactSize_append_inj hcounts.1 hcounts'.1 hbytes
  obtain ⟨hinputRoot, hbytes⟩ := List.append_inj hbytes ((root_length _).trans (root_length _).symm)
  obtain ⟨houtputCount, hbytes⟩ := serCompactSize_append_inj hcounts.2 hcounts'.2 hbytes
  obtain ⟨houtputRoot, hbytes⟩ := List.append_inj hbytes ((root_length _).trans (root_length _).symm)
  obtain ⟨hid, hhmac⟩ := List.append_inj hbytes ((R.sha256_length _).trans (R.sha256_length _).symm)
  have hmem {ms : MapsOf} {m : Dict Bytes Bytes} (hm : m ∈ ms.inputMaps) : m ∈ ms.all :=
    List.mem_cons_of_mem _ (List.mem_append_left _ hm)
  have hmem' {ms : MapsOf} {m : Dict Bytes Bytes} (hm : m ∈ ms.outputMaps) : m ∈ ms.all :=
    List.mem_cons_of_mem _ (List.mem_append_right _ hm)
  have hmaps := same_of_commitment (hsizes _ List.mem_cons_self) (hsizes' _ List.mem_cons_self) hglobal
  have hinputLists := elements_of_root (by simpa using hinputCount) hinputRoot
  have houtputLists := elements_of_root (by simpa using houtputCount) houtputRoot
  by_cases hclash : HashClash R (signPsbtInputs R maps wallet serialized) (signPsbtInputs R maps' wallet' serialized')
  · exact Or.inr hclash
  have hnone {ps qs : List Bytes} (hps : ps ⊆ signPsbtInputs R maps wallet serialized)
      (hqs : qs ⊆ signPsbtInputs R maps' wallet' serialized') : ¬HashClash R ps qs :=
    fun h => hclash (h.mono hps hqs)
  have hall (ms : MapsOf) (w : WalletPolicy) (b : Bytes) : ms.all.flatMap (mapInputs R) ⊆
      signPsbtInputs R ms w b := List.subset_append_left _ _
  have hone {ms : MapsOf} {w : WalletPolicy} {b : Bytes} {l : List (Dict Bytes Bytes)} (hl : l ⊆ ms.all) :
      l.flatMap (mapInputs R) ⊆ signPsbtInputs R ms w b := by
    intro p hp
    obtain ⟨m, hm, hp⟩ := List.mem_flatMap.1 hp
    exact hall ms w b (List.mem_flatMap.2 ⟨m, hl hm, hp⟩)
  have hwalletInput (ms : MapsOf) (w : WalletPolicy) (b : Bytes) :
      b :: policyInputs R w ⊆ signPsbtInputs R ms w b := fun p hp =>
    List.mem_append_right _ (List.mem_append_right _ (List.mem_append_right _ hp))
  refine Or.inl ⟨?_, ?_, ?_, ?_, hhmac⟩
  · refine hmaps.resolve_right (hnone ?_ ?_)
    · exact fun p hp => hall maps wallet serialized (List.mem_append_left _ hp)
    · exact fun p hp => hall maps' wallet' serialized' (List.mem_append_left _ hp)
  · have hcommitments := hinputLists.resolve_right (hnone
      (fun p hp => List.mem_append_right _ (List.mem_append_left _ hp))
      (fun p hp => List.mem_append_right _ (List.mem_append_left _ hp)))
    exact (same_of_commitments (fun m hm => hsizes m (hmem hm)) (fun m hm => hsizes' m (hmem hm))
      hcommitments).resolve_right (hnone (hone fun m hm => hmem hm) (hone fun m hm => hmem hm))
  · have hcommitments := houtputLists.resolve_right (hnone
      (fun p hp => List.mem_append_right _ (List.mem_append_right _ (List.mem_append_left _ hp)))
      (fun p hp => List.mem_append_right _ (List.mem_append_right _ (List.mem_append_left _ hp))))
    exact (same_of_commitments (fun m hm => hsizes m (hmem' hm)) (fun m hm => hsizes' m (hmem' hm))
      hcommitments).resolve_right (hnone (hone fun m hm => hmem' hm) (hone fun m hm => hmem' hm))
  · have hserialized : serialized = serialized' := by
      by_contra hne
      exact hclash ⟨_, hwalletInput maps wallet serialized List.mem_cons_self, _,
        hwalletInput maps' wallet' serialized' List.mem_cons_self, hne, hid⟩
    exact (policy_of_serialize hpolicy hpolicy' hwallet (hserialized ▸ hwallet')).resolve_right (hnone
      (fun p hp => hwalletInput maps wallet serialized (List.mem_cons_of_mem _ hp))
      (fun p hp => hwalletInput maps' wallet' serialized' (List.mem_cons_of_mem _ hp)))

/-- The records in another order. -/
def fewRecordsSwapped : MapsOf := { fewRecords with globalMap := (Dict.empty.set [3] [4]).set [1] [2] }

theorem fewRecordsSwapped_same : fewRecordsSwapped.globalMap.Same fewRecords.globalMap := by
  intro k
  rw [fewRecordsSwapped, fewRecords, Dict.get?_set, Dict.get?_set, Dict.get?_set, Dict.get?_set]
  split_ifs with hone hthree
  · subst hone
    simp at hthree
  all_goals rfl

/-- The data of two calls whose maps were filled in different orders, one of which says the
hmac that the other leaves out. -/
theorem signPsbtData_binds_fewRecords : ∃ data,
    signPsbtData marking fewRecords oneKey none = .ok data ∧
    signPsbtData marking fewRecordsSwapped oneKey (some (List.replicate 32 0)) = .ok data ∧
    ((fewRecords.globalMap.Same fewRecordsSwapped.globalMap ∧
      List.Forall₂ Dict.Same fewRecords.inputMaps fewRecordsSwapped.inputMaps ∧
      List.Forall₂ Dict.Same fewRecords.outputMaps fewRecordsSwapped.outputMaps ∧ oneKey = oneKey ∧
      hmacOrZeros none = hmacOrZeros (some (List.replicate 32 0))) ∨
    HashClash marking (signPsbtInputs marking fewRecords oneKey oneKeySerialized)
      (signPsbtInputs marking fewRecordsSwapped oneKey oneKeySerialized)) := by
  have hdata := signPsbtData_eq fewRecords none oneKey_serialize
  have hdata' := signPsbtData_eq fewRecordsSwapped (some (List.replicate 32 0)) oneKey_serialize
  rw [getMerkleizedMapCommitment_of_same fewRecordsSwapped_same] at hdata'
  exact ⟨_, hdata, hdata', signPsbtData_binds ⟨by decide, by decide⟩ ⟨by decide, by decide⟩
    oneKey_serialize oneKey_serialize
    (fun m hm => (fewRecords_sizes m hm).1) (by decide) (by decide) (by decide) hdata hdata'⟩

end NewClient

end LedgerBitcoin

end Hwi
