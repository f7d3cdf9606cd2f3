import Hwi.Format.DbbFrame

/-! The two loops of the USB framing: what is written for a message, what is read from
it, and which streams of reports are read to the announced length. -/

namespace Hwi

namespace Dbb

/-! ### Writing -/

theorem packBE_eq {k n : ℕ} (h : n < 256 ^ k) : packBE k n = .ok (bigEndian k n) := by
  have hfits : 0 ≤ (n : ℤ) ∧ (n : ℤ) < 256 ^ k := ⟨Int.natCast_nonneg n, by exact_mod_cast h⟩
  rw [packBE, pack, if_pos hfits]
  rfl

theorem packBE_eq_error {k n : ℕ} (h : ¬n < 256 ^ k) : packBE k n = .error .structError := by
  have hfits : ¬(0 ≤ (n : ℤ) ∧ (n : ℤ) < 256 ^ k) := fun hn => h (by exact_mod_cast hn.2)
  rw [packBE, pack, if_neg hfits]
  rfl

@[simp] theorem bigEndian_length (k n : ℕ) : (bigEndian k n).length = k := by
  rw [bigEndian, List.length_reverse, toLE_length]

/-- A continuation body: its number, its part of the data, and padding. -/
def contBody (seq : ℕ) (payload : Bytes) : Bytes :=
  bigEndian 4 HWW_CID ++ bigEndian 1 seq ++ payload ++ List.replicate (59 - payload.length) 0xEE

/-- The continuation bodies of the rest of the data. -/
def contBodies (seq : ℕ) (rest : Bytes) : List Bytes :=
  if rest.length = 0 then [] else contBody seq (rest.take 59) :: contBodies (seq + 1) (rest.drop 59)
termination_by rest.length
decreasing_by
  rw [List.length_drop]
  omega

theorem contBodies_nil (seq : ℕ) : contBodies seq [] = [] := by
  rw [contBodies]
  rfl

theorem contBodies_of_ne {seq : ℕ} {rest : Bytes} (h : 0 < rest.length) :
    contBodies seq rest = contBody seq (rest.take 59) :: contBodies (seq + 1) (rest.drop 59) := by
  rw [contBodies, if_neg (by omega)]

def initBody (data : Bytes) : Bytes :=
  bigEndian 4 HWW_CID ++ bigEndian 1 HWW_CMD ++ bigEndian 2 (data.length &&& 0xFFFF) ++
    data.take 57 ++ List.replicate (57 - (data.take 57).length) 0xEE

theorem chunk_eq (data : Bytes) (idx size : ℕ) : chunk data idx size = (data.drop idx).take size := by
  rw [chunk, List.take_eq_take_iff, List.length_drop]
  omega

/-- One continuation report. -/
theorem run_sendFrameLoop_cont {data : Bytes} {idx seq : ℕ} (h : idx < data.length) (hidx : idx ≠ 0)
    (hseq : seq < 256) (written : List Bytes) :
    (sendFrameLoop data idx seq).run written =
      (sendFrameLoop data (idx + (chunk data idx 59).length) (seq + 1)).run
        (written ++ [0x00 :: contBody seq ((data.drop idx).take 59)]) := by
  rw [sendFrameLoop, dif_pos h, if_neg hidx, packBE_eq (n := HWW_CID) (by decide),
    packBE_eq (n := seq) (by omega), ← chunk_eq]
  rfl

/-- The numbers of the continuation reports end at 255. -/
theorem run_sendFrameLoop_full {data : Bytes} {idx seq : ℕ} (h : idx < data.length) (hidx : idx ≠ 0)
    (hseq : ¬seq < 256) (written : List Bytes) :
    (sendFrameLoop data idx seq).run written = .error .structError written := by
  rw [sendFrameLoop, dif_pos h, if_neg hidx, packBE_eq (n := HWW_CID) (by decide),
    packBE_eq_error (n := seq) (by omega)]
  rfl

theorem run_sendFrameLoop_done {data : Bytes} {idx seq : ℕ} (h : ¬idx < data.length)
    (written : List Bytes) : (sendFrameLoop data idx seq).run written = .ok () written := by
  rw [sendFrameLoop, dif_neg h]
  rfl

/-- What the loop writes after the first report, if it completes. -/
theorem run_sendFrameLoop_rest {data : Bytes} {n : ℕ} : ∀ {idx seq : ℕ} {written written' : List Bytes},
    data.length - idx = n → idx ≠ 0 →
    (sendFrameLoop data idx seq).run written = .ok () written' →
    written' = written ++ (contBodies seq (data.drop idx)).map (0x00 :: ·) ∧
      ∀ i < (contBodies seq (data.drop idx)).length, seq + i < 256 := by
  induction n using Nat.strong_induction_on with
  | _ n ih =>
    intro idx seq written written' hn hidx hrun
    by_cases h : idx < data.length
    · have hrest : 0 < (data.drop idx).length := by rw [List.length_drop]; omega
      by_cases hseq : seq < 256
      · rw [run_sendFrameLoop_cont h hidx hseq] at hrun
        have hchunk := chunk_pos 59 h (by decide)
        obtain ⟨hwritten, hnumbers⟩ := ih _ (by omega) rfl (by omega) hrun
        have hdrop : data.drop (idx + (chunk data idx 59).length) = (data.drop idx).drop 59 := by
          rw [chunk_eq, List.drop_drop, List.drop_eq_drop_iff, List.length_take, List.length_drop]
          omega
        rw [hdrop] at hwritten hnumbers
        rw [contBodies_of_ne hrest]
        refine ⟨by rw [hwritten, List.map_cons, List.append_assoc, List.singleton_append], ?_⟩
        intro i hi
        cases i with
        | zero => exact hseq
        | succ i =>
          have hlt := hnumbers i (Nat.lt_of_succ_lt_succ hi)
          omega
      · rw [run_sendFrameLoop_full h hidx hseq] at hrun
        cases hrun
    · rw [run_sendFrameLoop_done h] at hrun
      have hnil : data.drop idx = [] := List.drop_eq_nil_of_le (by omega)
      rw [hnil, contBodies_nil]
      cases hrun
      exact ⟨(List.append_nil _).symm, fun i hi => absurd hi (Nat.not_lt_zero i)⟩

theorem run_sendFrame {data : Bytes} (h : data ≠ []) (written : List Bytes) :
    (sendFrame data).run written =
      (sendFrameLoop data (chunk data 0 57).length 0).run (written ++ [0x00 :: initBody data]) := by
  have hpos : 0 < data.length := List.length_pos_of_ne_nil h
  have hlen : data.length &&& 0xFFFF < 256 ^ 2 := Nat.lt_of_le_of_lt Nat.and_le_right (by decide)
  have htake : data.take 57 = chunk data 0 57 := (chunk_eq data 0 57).symm
  rw [sendFrame, sendFrameLoop, dif_pos hpos, if_pos rfl, packBE_eq (n := HWW_CID) (by decide),
    packBE_eq (n := HWW_CMD) (by decide), packBE_eq hlen, initBody, htake, Nat.zero_add]
  rfl

/-- The writes of a message that is sent completely. -/
theorem writes_of_sendFrame {data : Bytes} {writes : List Bytes} (h : data ≠ [])
    (hrun : (sendFrame data).run [] = .ok () writes) :
    writes = (initBody data :: contBodies 0 (data.drop 57)).map (0x00 :: ·) ∧
      ∀ i < (contBodies 0 (data.drop 57)).length, i < 256 := by
  have hpos : 0 < data.length := List.length_pos_of_ne_nil h
  rw [run_sendFrame h] at hrun
  have hchunk := chunk_pos 57 hpos (by decide)
  obtain ⟨hwrites, hnumbers⟩ := run_sendFrameLoop_rest rfl (by omega) hrun
  have hdrop : data.drop (chunk data 0 57).length = data.drop 57 := by
    rw [chunk_eq, List.drop_eq_drop_iff, List.length_take, List.length_drop]
    omega
  rw [hdrop] at hwrites hnumbers
  exact ⟨hwrites, fun i hi => by simpa using hnumbers i hi⟩

/-! ### The shape of the writes -/

theorem contBody_length (seq : ℕ) {payload : Bytes} (h : payload.length ≤ 59) :
    (contBody seq payload).length = 64 := by
  rw [contBody, List.length_append, List.length_append, List.length_append, bigEndian_length,
    bigEndian_length, List.length_replicate]
  omega

theorem initBody_length (data : Bytes) : (initBody data).length = 64 := by
  have h : (data.take 57).length ≤ 57 := List.length_take_le 57 data
  rw [initBody, List.length_append, List.length_append, List.length_append, List.length_append,
    bigEndian_length, bigEndian_length, bigEndian_length, List.length_replicate]
  omega

/-- The bodies one by one, and how much data they have room for. -/
theorem contBodies_spec {n : ℕ} : ∀ (seq : ℕ) (rest : Bytes), rest.length = n →
    (∀ i body, (contBodies seq rest)[i]? = some body →
      ∃ payload, payload.length ≤ 59 ∧ body = contBody (seq + i) payload) ∧
    rest.length ≤ 59 * (contBodies seq rest).length := by
  induction n using Nat.strong_induction_on with
  | _ n ih =>
    intro seq rest hn
    by_cases h : 0 < rest.length
    · have hdrop : (rest.drop 59).length < n := by rw [List.length_drop]; omega
      obtain ⟨hbodies, hroom⟩ := ih _ hdrop (seq + 1) _ rfl
      rw [contBodies_of_ne h]
      constructor
      · intro i body hi
        cases i with
        | zero =>
          obtain rfl := Option.some.inj hi
          exact ⟨_, List.length_take_le 59 rest, rfl⟩
        | succ i =>
          obtain ⟨payload, hlen, rfl⟩ := hbodies i body hi
          exact ⟨payload, hlen, by rw [Nat.add_assoc, Nat.add_comm 1 i]⟩
      · rw [List.length_drop] at hroom
        rw [List.length_cons]
        omega
    · obtain rfl : rest = [] := List.eq_nil_of_length_eq_zero (by omega)
      rw [contBodies_nil]
      refine ⟨?_, Nat.zero_le _⟩
      rintro i body ⟨⟩

theorem length_of_sendFrame {data : Bytes} {writes : List Bytes} (h : data ≠ [])
    (hrun : (sendFrame data).run [] = .ok () writes) : data.length < 2 ^ 16 := by
  obtain ⟨-, hnumbers⟩ := writes_of_sendFrame h hrun
  have hroom := (contBodies_spec 0 (data.drop 57) rfl).2
  rw [List.length_drop] at hroom
  by_contra hlarge
  have hlast := hnumbers 256 (by omega)
  omega

theorem and_mask {n : ℕ} (h : n < 2 ^ 16) : n &&& 0xFFFF = n := by
  rw [show (0xFFFF : ℕ) = 2 ^ 16 - 1 from rfl, Nat.and_two_pow_sub_one_eq_mod, Nat.mod_eq_of_lt h]

theorem framed_of_sendFrame {data : Bytes} {writes : List Bytes} (h : data ≠ [])
    (hrun : (sendFrame data).run [] = .ok () writes) : Framed data writes := by
  obtain ⟨rfl, hnumbers⟩ := writes_of_sendFrame h hrun
  have hlen := length_of_sendFrame h hrun
  have hbodies := (contBodies_spec 0 (data.drop 57) rfl).1
  refine ⟨?_, ?_, hlen, ?_⟩
  · intro w hw
    obtain ⟨body, hbody, rfl⟩ := List.mem_map.1 hw
    refine ⟨body, rfl, ?_⟩
    rcases List.mem_cons.1 hbody with rfl | hcont
    · exact initBody_length data
    · obtain ⟨i, hi⟩ := List.mem_iff_getElem?.1 hcont
      obtain ⟨payload, hpayload, rfl⟩ := hbodies i body hi
      exact contBody_length _ hpayload
  · refine ⟨data.take 57 ++ List.replicate (57 - (data.take 57).length) 0xEE, ?_⟩
    rw [List.map_cons, List.head?_cons, initBody, and_mask hlen, List.append_assoc]
  · intro i w hw
    rw [List.map_cons, List.getElem?_cons_succ, List.getElem?_map, Option.map_eq_some_iff] at hw
    obtain ⟨body, hbody, rfl⟩ := hw
    obtain ⟨payload, -, rfl⟩ := hbodies i body hbody
    refine ⟨hnumbers i (List.getElem?_eq_some_iff.1 hbody).1,
      payload ++ List.replicate (59 - payload.length) 0xEE, ?_⟩
    rw [contBody, Nat.zero_add, List.append_assoc]

/-! ### Reading what was written -/

section Reading

variable {reports : Reports} {dataLen : ℕ} {s s' : Reading}

theorem next_of_read {read : Bytes} (h : s.idx < dataLen) (hread : reports s.reads = .ok read) :
    s.next reports dataLen = .inr
      { reads := s.reads + 1, data := s.data ++ read.drop 5, idx := s.idx + (read.length - 5) } := by
  rw [Reading.next, if_pos h, hread]

theorem next_of_raise {e : Exc} (h : s.idx < dataLen) (hread : reports s.reads = .error e) :
    s.next reports dataLen = .inl (.error e) := by
  rw [Reading.next, if_pos h, hread]

theorem next_of_done (h : ¬s.idx < dataLen) : s.next reports dataLen = .inl (.ok s.data) := by
  rw [Reading.next, if_neg h]

theorem readLoop_stop {result : Except Exc Bytes} (h : s.next reports dataLen = .inl result)
    (turns : ℕ) : readLoop reports dataLen (turns + 1) s = some result := by
  rw [readLoop, h]

theorem readLoop_step (h : s.next reports dataLen = .inr s') (turns : ℕ) :
    readLoop reports dataLen (turns + 1) s = readLoop reports dataLen turns s' := by
  rw [readLoop, h]

theorem readLoop_done (h : (dataLen : ℤ) ≤ s.idx) (turns : ℕ) :
    readLoop reports dataLen (turns + 1) s = some (.ok s.data) :=
  readLoop_stop (next_of_done (not_lt.2 h)) turns

/-- A result does not depend on how many turns there are for it. -/
theorem readLoop_unique {turns turns' : ℕ} {result result' : Except Exc Bytes}
    (h : readLoop reports dataLen turns s = some result)
    (h' : readLoop reports dataLen turns' s = some result') : result = result' := by
  induction turns generalizing s turns' with
  | zero => cases h
  | succ turns ih =>
    cases turns' with
    | zero => cases h'
    | succ turns' =>
      cases hnext : s.next reports dataLen with
      | inl r =>
        rw [readLoop_stop hnext] at h h'
        rw [← Option.some.inj h, ← Option.some.inj h']
      | inr s₁ =>
        rw [readLoop_step hnext] at h h'
        exact ih h h'

end Reading

/-- The padding that comes back with the rest of a message. -/
def contPadding (n : ℕ) : Bytes := List.replicate ((59 - n % 59) % 59) 0xEE

theorem contBody_drop (seq : ℕ) (payload : Bytes) :
    (contBody seq payload).drop 5 = payload ++ List.replicate (59 - payload.length) 0xEE := by
  have hhead : (bigEndian 4 HWW_CID ++ bigEndian 1 seq).length = 5 := by
    rw [List.length_append, bigEndian_length, bigEndian_length]
  rw [contBody, List.append_assoc, ← hhead, List.drop_left]

/-- Reading the continuation bodies gives the rest of the data, and the padding. -/
theorem readLoop_contBodies {bodies : List Bytes} {dataLen n : ℕ} :
    ∀ {seq : ℕ} {rest : Bytes} {s : Reading}, rest.length = n →
      bodies.drop s.reads = contBodies seq rest → s.idx + rest.length = dataLen →
      ∃ turns, readLoop (feed bodies) dataLen turns s =
        some (.ok (s.data ++ rest ++ contPadding rest.length)) := by
  induction n using Nat.strong_induction_on with
  | _ n ih =>
    intro seq rest s hn hbodies hidx
    by_cases h : 0 < rest.length
    · rw [contBodies_of_ne h] at hbodies
      have hlen := contBody_length seq (List.length_take_le 59 rest)
      have hget : bodies[s.reads]? = some (contBody seq (rest.take 59)) := by
        rw [← List.head?_drop, hbodies, List.head?_cons]
      have hread : feed bodies s.reads = .ok (contBody seq (rest.take 59)) := by rw [feed, hget]
      have hnext := next_of_read (show s.idx < (dataLen : ℤ) by omega) hread
      have htail : bodies.drop (s.reads + 1) = contBodies (seq + 1) (rest.drop 59) := by
        rw [← List.drop_drop, hbodies, List.drop_one, List.tail_cons]
      rw [contBody_drop, hlen] at hnext
      by_cases hlast : rest.length < 59
      · have htake : rest.take 59 = rest := List.take_of_length_le (by omega)
        refine ⟨2, ?_⟩
        rw [readLoop_step hnext, readLoop_done (by dsimp only; omega), htake, contPadding,
          Nat.mod_eq_of_lt hlast, Nat.mod_eq_of_lt (by omega), List.append_assoc]
      · have htake : (rest.take 59).length = 59 := by
          rw [List.length_take]
          omega
        have hlen' : rest.length = 59 + (rest.drop 59).length := by
          rw [List.length_drop]
          omega
        generalize hs : Reading.mk (s.reads + 1) _ _ = s' at hnext
        have hreads : bodies.drop s'.reads = contBodies (seq + 1) (rest.drop 59) := by
          rw [← hs]
          exact htail
        have hidx' : s'.idx + (rest.drop 59).length = dataLen := by
          rw [← hs]
          dsimp only
          omega
        obtain ⟨turns, hturns⟩ := ih _ (by omega) rfl hreads hidx'
        refine ⟨turns + 1, ?_⟩
        rw [readLoop_step hnext, hturns, ← hs, htake, contPadding, contPadding, hlen', Nat.add_mod_left,
          Nat.sub_self, List.replicate_zero, List.append_nil, List.append_assoc s.data,
          List.take_append_drop]
    · obtain rfl : rest = [] := List.eq_nil_of_length_eq_zero (by omega)
      rw [List.length_nil] at hidx
      refine ⟨1, ?_⟩
      rw [readLoop_done (by omega), List.append_nil]
      exact congrArg (fun b => some (Except.ok b)) (List.append_nil _).symm

/-- What a message reads back as: itself and the padding of its last report. -/
def padding (n : ℕ) : Bytes := if n < 57 then List.replicate (57 - n) 0xEE else contPadding (n - 57)

theorem readInit_initBody {data : Bytes} (h : data.length < 2 ^ 16) :
    readInit (initBody data) = .ok
      { cid := HWW_CID, cmd := HWW_CMD, dataLen := data.length
        data := data.take 57 ++ List.replicate (57 - (data.take 57).length) 0xEE } := by
  have hhigh := UInt8.toNat_ofNat_of_lt' (show data.length / 256 % 256 < 256 by omega)
  have hlow := UInt8.toNat_ofNat_of_lt' (show data.length % 256 < 256 by omega)
  have hlen : data.length / 256 % 256 * 256 + data.length % 256 = data.length := by omega
  rw [initBody, and_mask h, List.append_assoc]
  change Except.ok (Init.mk HWW_CID HWW_CMD _ _) = _
  rw [hhigh, hlow, hlen]
  rfl

theorem readFrame_bodies {data : Bytes} (h : data.length < 2 ^ 16) :
    ∃ turns, readFrame (feed (initBody data :: contBodies 0 (data.drop 57))) turns =
      some (.ok (data ++ padding data.length)) := by
  generalize hbodies : initBody data :: contBodies 0 (data.drop 57) = bodies
  have hfirst : firstReport (feed bodies) = readInit (initBody data) := by rw [← hbodies]; rfl
  have hdrop : bodies.drop 1 = contBodies 0 (data.drop 57) := by rw [← hbodies]; rfl
  have hsplit : data.length = (data.take 57).length + (data.drop 57).length := by
    rw [← List.length_append, List.take_append_drop]
  have htake : (data.take 57).length = min 57 data.length := List.length_take
  have hloop : ∃ turns, readLoop (feed bodies) data.length turns
      ⟨1, data.take 57 ++ List.replicate (57 - (data.take 57).length) 0xEE, 57⟩ =
        some (.ok (data ++ padding data.length)) := by
    by_cases hshort : data.length < 57
    · refine ⟨1, ?_⟩
      rw [readLoop_done (by dsimp only; omega), List.take_of_length_le (by omega), padding,
        if_pos hshort]
    · obtain ⟨turns, hturns⟩ := readLoop_contBodies (s := ⟨1, data.take 57, 57⟩) rfl hdrop
        (show (57 : ℤ) + (data.drop 57).length = data.length by omega)
      refine ⟨turns, ?_⟩
      have hpad : 57 - (data.take 57).length = 0 := by omega
      rw [hpad, List.replicate_zero, List.append_nil, hturns, List.take_append_drop, padding,
        if_neg hshort, List.length_drop]
  obtain ⟨turns, hturns⟩ := hloop
  refine ⟨turns, ?_⟩
  rw [readFrame, hfirst, readInit_initBody h]
  have hidx : ((data.take 57 ++ List.replicate (57 - (data.take 57).length) 0xEE).length : ℤ) = 57 := by
    rw [List.length_append, List.length_replicate]
    omega
  dsimp only [Init.start]
  rw [hidx, hturns]
  rfl

theorem readFrame_unique {reports : Reports} {turns turns' : ℕ} {result result' : Except Exc Bytes}
    (h : readFrame reports turns = some result) (h' : readFrame reports turns' = some result') :
    result = result' := by
  unfold readFrame at h h'
  cases hfirst : firstReport reports with
  | error e =>
    rw [hfirst] at h h'
    rw [← Option.some.inj h, ← Option.some.inj h']
  | ok init =>
    rw [hfirst] at h h'
    obtain ⟨r, hr, rfl⟩ := Option.map_eq_some_iff.1 h
    obtain ⟨r', hr', rfl⟩ := Option.map_eq_some_iff.1 h'
    rw [readLoop_unique hr hr']

theorem padding_eq_nil_iff {n : ℕ} : padding n = [] ↔ 57 ≤ n ∧ (n - 57) % 59 = 0 := by
  unfold padding contPadding
  split_ifs with h
  · rw [List.replicate_eq_nil_iff]
    omega
  · rw [List.replicate_eq_nil_iff]
    omega

/-- A message comes back as it was exactly if it fills its last report. -/
theorem readsBack_iff {data : Bytes} {writes : List Bytes} (h : data ≠ [])
    (hrun : (sendFrame data).run [] = .ok () writes) :
    ReadsBack data writes ↔ 57 ≤ data.length ∧ (data.length - 57) % 59 = 0 := by
  obtain ⟨turns, hturns⟩ := readFrame_bodies (length_of_sendFrame h hrun)
  obtain ⟨rfl, -⟩ := writes_of_sendFrame h hrun
  have hbodies (l : List Bytes) : (l.map (0x00 :: ·)).map List.tail = l := by
    rw [List.map_map]
    exact List.map_id l
  rw [← padding_eq_nil_iff, ReadsBack, hbodies]
  constructor
  · rintro ⟨turns', hturns'⟩
    have heq := Except.ok.inj (readFrame_unique hturns hturns')
    exact List.append_right_eq_self.1 heq
  · intro hpadding
    rw [hpadding, List.append_nil] at hturns
    exact ⟨turns, hturns⟩

/-! ### Streams of reports -/

section Streams

variable {reports : Reports} {dataLen : ℕ} {refused : Prop} {s s' : Reading}

/-- The loop ends from a state, with the announced number of bytes unless it raises or
is refused, and each report it reads from there advances it. -/
structure LoopsExactly (reports : Reports) (dataLen : ℕ) (refused : Prop) (s : Reading) : Prop where
  ends : ∃ turns result, readLoop reports dataLen turns s = some result
  payload : ∀ turns data, readLoop reports dataLen turns s = some (.ok data) →
    data.length = dataLen ∨ refused
  advances : ∀ s₁ s₂, Relation.ReflTransGen (Continues reports dataLen) s s₁ →
    Continues reports dataLen s₁ s₂ → s₁.idx < s₂.idx

theorem loopsExactly_stop {result : Except Exc Bytes} (h : s.next reports dataLen = .inl result) :
    LoopsExactly reports dataLen refused s ↔
      ∀ data, result = .ok data → data.length = dataLen ∨ refused := by
  have hstay (s₁ : Reading) : ¬Continues reports dataLen s s₁ := by
    intro hc
    rw [Continues, h] at hc
    cases hc
  constructor
  · rintro hs data rfl
    exact hs.payload 1 data (readLoop_stop h 0)
  · intro hdata
    refine ⟨⟨1, result, readLoop_stop h 0⟩, ?_, ?_⟩
    · intro turns data hturns
      exact hdata data (readLoop_unique (readLoop_stop h 0) hturns)
    · intro s₁ s₂ hreach hc
      rcases hreach.cases_head with rfl | ⟨_, hfirst, -⟩
      · exact absurd hc (hstay s₂)
      · exact absurd hfirst (hstay _)

theorem loopsExactly_step (h : s.next reports dataLen = .inr s') :
    LoopsExactly reports dataLen refused s ↔
      s.idx < s'.idx ∧ LoopsExactly reports dataLen refused s' := by
  constructor
  · intro hs
    refine ⟨hs.advances s s' .refl h, ?_, ?_, ?_⟩
    · obtain ⟨turns, result, hturns⟩ := hs.ends
      cases turns with
      | zero => cases hturns
      | succ turns => exact ⟨turns, result, (readLoop_step h turns).symm.trans hturns⟩
    · intro turns data hturns
      exact hs.payload (turns + 1) data ((readLoop_step h turns).trans hturns)
    · intro s₁ s₂ hreach hc
      exact hs.advances s₁ s₂ (.head h hreach) hc
  · rintro ⟨hlt, hs⟩
    refine ⟨?_, ?_, ?_⟩
    · obtain ⟨turns, result, hturns⟩ := hs.ends
      exact ⟨turns + 1, result, (readLoop_step h turns).trans hturns⟩
    · intro turns data hturns
      cases turns with
      | zero => cases hturns
      | succ turns => exact hs.payload turns data ((readLoop_step h turns).symm.trans hturns)
    · intro s₁ s₂ hreach hc
      rcases hreach.cases_head with rfl | ⟨s₃, hfirst, hreach⟩
      · rw [Continues, h] at hc
        obtain rfl := Sum.inr.inj hc
        exact hlt
      · rw [Continues, h] at hfirst
        obtain rfl := Sum.inr.inj hfirst
        exact hs.advances s₁ s₂ hreach hc

theorem arrives_report_iff {n missing : ℕ} {read : Bytes} (hread : reports n = .ok read) :
    Arrives reports refused n (missing + 1) ↔ 5 < read.length ∧
      (read.length - 5 ≤ missing + 1 ∨ refused) ∧
      Arrives reports refused (n + 1) (missing + 1 - (read.length - 5)) := by
  constructor
  · intro h
    cases h with
    | raised herror =>
      rw [hread] at herror
      cases herror
    | report hread' header fits rest =>
      rw [hread] at hread'
      cases hread'
      exact ⟨header, fits, rest⟩
  · rintro ⟨header, fits, rest⟩
    exact .report hread header fits rest

/-- From a state that has counted its data, the loop is exact if what is missing arrives. -/
theorem loopsExactly_iff {missing : ℕ} : ∀ {s : Reading}, (s.data.length : ℤ) = s.idx →
    s.idx + missing = dataLen →
    (LoopsExactly reports dataLen refused s ↔ Arrives reports refused s.reads missing) := by
  induction missing using Nat.strong_induction_on with
  | _ missing ih =>
    intro s hdata hidx
    cases missing with
    | zero =>
      rw [loopsExactly_stop (next_of_done (by omega))]
      refine iff_of_true ?_ (.complete _)
      rintro _ ⟨⟩
      exact Or.inl (by omega)
    | succ missing =>
      have hlt : s.idx < dataLen := by omega
      cases hread : reports s.reads with
      | error e =>
        rw [loopsExactly_stop (next_of_raise hlt hread)]
        refine iff_of_true ?_ (.raised hread)
        rintro _ ⟨⟩
      | ok read =>
        rw [loopsExactly_step (next_of_read hlt hread), arrives_report_iff hread]
        have hheader : s.idx < s.idx + ((read.length : ℤ) - 5) ↔ 5 < read.length := by omega
        refine (and_congr_left' hheader).trans (and_congr_right fun header => ?_)
        generalize hs : Reading.mk (s.reads + 1) _ _ = s'
        have hdata' : (s'.data.length : ℤ) = s'.idx := by
          rw [← hs]
          dsimp only
          rw [List.length_append, List.length_drop]
          omega
        have hreads : s'.reads = s.reads + 1 := by rw [← hs]
        have hidx' : s'.idx = s.idx + (read.length - 5) := by rw [← hs]
        by_cases hfits : read.length - 5 ≤ missing + 1
        · rw [← hreads, and_iff_right (Or.inl hfits)]
          exact ih _ (by omega) hdata' (by omega)
        · have hpast : ¬s'.idx < (dataLen : ℤ) := by omega
          have hlong : s'.data.length ≠ dataLen := by omega
          rw [Nat.sub_eq_zero_of_le (not_le.1 hfits).le, loopsExactly_stop (next_of_done hpast),
            or_iff_right hfits, and_iff_left (.complete _)]
          constructor
          · intro h
            exact (h _ rfl).resolve_left hlong
          · rintro hrefused _ ⟨⟩
            exact Or.inr hrefused

/-- The first report may already hold more than is announced. -/
theorem loopsExactly_start_iff (init : Init) :
    LoopsExactly reports init.dataLen refused init.start ↔
      (init.data.length ≤ init.dataLen ∨ refused) ∧
        Arrives reports refused 1 (init.dataLen - init.data.length) := by
  have hstart : init.start.idx = init.data.length := rfl
  by_cases hfits : init.data.length ≤ init.dataLen
  · rw [and_iff_right (Or.inl hfits)]
    exact loopsExactly_iff rfl (by omega)
  · have hpast : ¬init.start.idx < (init.dataLen : ℤ) := by omega
    rw [Nat.sub_eq_zero_of_le (not_le.1 hfits).le, loopsExactly_stop (next_of_done hpast),
      or_iff_right hfits, and_iff_left (.complete _)]
    constructor
    · intro h
      exact (h _ rfl).resolve_left fun heq => hfits heq.le
    · rintro hrefused _ ⟨⟩
      exact Or.inr hrefused

end Streams

theorem check_eq_ok {init : Init} {b data : Bytes} :
    init.check b = .ok data ↔ b = data ∧ ¬init.Foreign := by
  unfold Init.check Init.Foreign
  split_ifs with hcid hcmd
  · simp [hcid]
  · simp [hcmd]
  · simp [hcid, hcmd]

theorem readFrame_eq {reports : Reports} {init : Init} (hfirst : firstReport reports = .ok init)
    (turns : ℕ) : readFrame reports turns =
      (readLoop reports init.dataLen turns init.start).map fun result => result >>= init.check := by
  rw [readFrame, hfirst]

theorem readFrame_eq_ok {reports : Reports} {init : Init} (hfirst : firstReport reports = .ok init)
    {turns : ℕ} {data : Bytes} : readFrame reports turns = some (.ok data) ↔
      readLoop reports init.dataLen turns init.start = some (.ok data) ∧ ¬init.Foreign := by
  rw [readFrame_eq hfirst, Option.map_eq_some_iff]
  constructor
  · rintro ⟨result, hloop, hcheck⟩
    cases result with
    | error e => cases hcheck
    | ok b =>
      obtain ⟨rfl, hforeign⟩ := check_eq_ok.1 hcheck
      exact ⟨hloop, hforeign⟩
  · rintro ⟨hloop, hforeign⟩
    exact ⟨_, hloop, check_eq_ok.2 ⟨rfl, hforeign⟩⟩

/-- After the first report, `read_frame` is its loop, whose result is refused in the end
if the report was foreign. -/
theorem readsExactly_of_first {reports : Reports} {init : Init} (hfirst : firstReport reports = .ok init) :
    ReadsExactly reports ↔ LoopsExactly reports init.dataLen init.Foreign init.start := by
  have hinit {init' : Init} (h : firstReport reports = .ok init') : init' = init :=
    Except.ok.inj (h.symm.trans hfirst)
  constructor
  · rintro ⟨⟨turns, result, hturns⟩, hpayload, hadvances⟩
    refine ⟨?_, ?_, fun s₁ s₂ => hadvances init s₁ s₂ hfirst⟩
    · rw [readFrame_eq hfirst, Option.map_eq_some_iff] at hturns
      obtain ⟨r, hloop, -⟩ := hturns
      exact ⟨turns, r, hloop⟩
    · intro turns data hloop
      by_cases hforeign : init.Foreign
      · exact Or.inr hforeign
      · exact Or.inl (hpayload init turns data hfirst ((readFrame_eq_ok hfirst).2 ⟨hloop, hforeign⟩))
  · rintro ⟨⟨turns, result, hturns⟩, hpayload, hadvances⟩
    refine ⟨⟨turns, _, by rw [readFrame_eq hfirst, hturns]; rfl⟩, ?_, ?_⟩
    · intro init' turns data h hframe
      obtain rfl := hinit h
      obtain ⟨hloop, hforeign⟩ := (readFrame_eq_ok hfirst).1 hframe
      exact (hpayload turns data hloop).resolve_right hforeign
    · intro init' s s' h
      obtain rfl := hinit h
      exact hadvances s s'

theorem readsExactly_iff (reports : Reports) : ReadsExactly reports ↔ Fitting reports := by
  cases hfirst : firstReport reports with
  | error e =>
    have hne (init : Init) : firstReport reports ≠ .ok init := by
      rw [hfirst]
      rintro ⟨⟩
    refine iff_of_true ⟨⟨0, .error e, ?_⟩, ?_, ?_⟩ fun init h => absurd h (hne init)
    · rw [readFrame, hfirst]
    · exact fun init _ _ h => absurd h (hne init)
    · exact fun init _ _ h => absurd h (hne init)
  | ok init =>
    rw [readsExactly_of_first hfirst, loopsExactly_start_iff]
    constructor
    · intro h init' h'
      obtain rfl := Except.ok.inj (hfirst.symm.trans h')
      exact h
    · intro h
      exact h init hfirst

/-! ### The framing -/

/-- Every message that is sent completely is framed; it reads back as it was if it fills
its last report. A stream is read to the announced length if its reports fit. -/
theorem frame_lossless_iff {data : Bytes} {writes : List Bytes} (h : data ≠ [])
    (hrun : (sendFrame data).run [] = .ok () writes) (reports : Reports) :
    Framed data writes ∧
      (ReadsBack data writes ↔ 57 ≤ data.length ∧ (data.length - 57) % 59 = 0) ∧
      (ReadsExactly reports ↔ Fitting reports) :=
  ⟨framed_of_sendFrame h hrun, readsBack_iff h hrun, readsExactly_iff reports⟩

/-- The writes of a short message. -/
theorem run_sendFrame_short (data : Bytes) (h : data ≠ []) (hlen : data.length ≤ 57) :
    (sendFrame data).run [] = .ok () [0x00 :: initBody data] := by
  have hchunk : (chunk data 0 57).length = data.length := by
    rw [chunk_eq, List.drop_zero, List.take_of_length_le hlen]
  rw [run_sendFrame h, hchunk, run_sendFrameLoop_done (Nat.lt_irrefl _)]
  rfl

/-- A message that fills its report and one more. -/
def twoReportMessage : Bytes := List.replicate 116 0x01

def twoReports : List Bytes :=
  [initBody twoReportMessage, contBody 0 (List.replicate 59 0x01)]

theorem run_sendFrame_twoReports :
    (sendFrame twoReportMessage).run [] = .ok () (twoReports.map (0x00 :: ·)) := by
  have hchunk : (chunk twoReportMessage 0 57).length = 57 := by decide
  rw [run_sendFrame (by decide), hchunk, run_sendFrameLoop_cont (by decide) (by decide) (by decide),
    run_sendFrameLoop_done (by decide)]
  rfl

theorem fitting_twoReports : Fitting (feed twoReports) := by
  intro init hinit
  have hfirst : firstReport (feed twoReports) =
      .ok { cid := HWW_CID, cmd := HWW_CMD, dataLen := 116, data := List.replicate 57 0x01 } := by decide +kernel
  obtain rfl := Except.ok.inj (hfirst.symm.trans hinit)
  exact ⟨Or.inl (by decide), .report rfl (by decide) (Or.inl (by decide)) (.complete 2)⟩

/-- The message comes back from its two reports. -/
theorem frame_lossless_twoReports :
    Framed twoReportMessage (twoReports.map (0x00 :: ·)) ∧
      ReadsBack twoReportMessage (twoReports.map (0x00 :: ·)) ∧ ReadsExactly (feed twoReports) := by
  obtain ⟨hframed, hback, hexact⟩ :=
    frame_lossless_iff (by decide) run_sendFrame_twoReports (feed twoReports)
  exact ⟨hframed, hback.2 (by decide), hexact.2 fitting_twoReports⟩

/-- A message of one byte comes back with the padding of its report. -/
theorem frame_padded : (∃ turns, readFrame (feed [initBody [1]]) turns =
      some (.ok (1 :: List.replicate 56 0xEE))) ∧
    ¬∀ data writes, data ≠ [] → (sendFrame data).run [] = .ok () writes → ReadsBack data writes := by
  refine ⟨⟨1, by decide⟩, fun h => ?_⟩
  have hrun := run_sendFrame_short [1] (by decide) (by decide)
  have hback := (readsBack_iff (by decide) hrun).1 (h [1] _ (by decide) hrun)
  exact absurd hback (by decide)

end Dbb

end Hwi
