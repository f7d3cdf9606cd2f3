import Hwi.Proofs.PsbtWrite

/-! How the bytes of an accepted PSBT are framed: the records its three kinds of
map are read as, and when their lengths and separators account for every byte. -/

namespace Hwi

open Reader

/-! ### What is read -/

/-- The records of a map, and the stream when the loop asks for the last key. -/
structure MapTrace where
  records : List ReadRecord
  stop : Bytes

/-- The maps read one after the other from a stream. -/
inductive MapsRun (R : Runtime) {σ : Type} (branch : Bytes → List Bytes → σ → ℕ → Branch σ) (st : σ) :
    Bytes → List MapTrace → Bytes → Prop
  | nil {f} : MapsRun R branch st f [] f
  | cons {f rs stop st' f' ts f''} : MapRun R branch st [] f rs stop st' f' →
      MapsRun R branch st f' ts f'' → MapsRun R branch st f (⟨rs, stop⟩ :: ts) f''

/-- The maps of a PSBT as they are read, and the bytes left unread. -/
structure PsbtTrace where
  globals : MapTrace
  inputs : List MapTrace
  outputs : List MapTrace
  left : Bytes

/-- The bytes are read as these maps. -/
def PsbtTrace.ReadFrom (R : Runtime) (bs : Bytes) (t : PsbtTrace) : Prop :=
  bs.take 5 = PSBT.magic ∧ ∃ g f₁ f₂,
    MapRun R (PSBT.branch R) { psbt := {} } [] (bs.drop 5) t.globals.records t.globals.stop g f₁ ∧
    MapsRun R (PartiallySignedInput.branch R) { version := g.psbt.version } f₁ t.inputs f₂ ∧
    MapsRun R PartiallySignedOutput.branch { version := g.psbt.version } f₂ t.outputs t.left ∧
    t.inputs.length = PSBT.inputTotal g ∧ t.outputs.length = PSBT.outputTotal g

/-! ### Framing -/

/-- The bytes of a map: every key and value behind a compact size that announces
its length, then the separator. -/
inductive FramedMap : List MapRecord → Bytes → Prop
  | separator : FramedMap [] [0x00]
  | record {p k q v rs b} : Announces p k.length → Announces q v.length → FramedMap rs b →
      FramedMap ((k, v) :: rs) (p ++ (k ++ (q ++ (v ++ b))))

def MapTrace.spelled (t : MapTrace) : List MapRecord := t.records.map fun r => (r.key, r.value)

/-- The bytes are the magic and these maps, each framed, and nothing else. -/
def PsbtTrace.Framed (bs : Bytes) (t : PsbtTrace) : Prop := ∃ g ins outs,
  FramedMap t.globals.spelled g ∧ List.Forall₂ (fun m b => FramedMap m.spelled b) t.inputs ins ∧
    List.Forall₂ (fun m b => FramedMap m.spelled b) t.outputs outs ∧
      bs = PSBT.magic ++ (g ++ (ins.flatten ++ outs.flatten))

/-- Every value takes the bytes announced for it, and the loop stops at a zero byte. -/
structure MapTrace.Clean (t : MapTrace) : Prop where
  announced : ∀ r ∈ t.records, r.announced = r.value.length
  stop : t.stop.head? = some 0x00

/-- Every map is clean, and nothing is left unread. -/
structure PsbtTrace.Clean (t : PsbtTrace) : Prop where
  globals : t.globals.Clean
  inputs : ∀ m ∈ t.inputs, m.Clean
  outputs : ∀ m ∈ t.outputs, m.Clean
  left : t.left = []

/-! ### One map -/

section Map

variable {R : Runtime} {σ : Type} {branch : Bytes → List Bytes → σ → ℕ → Branch σ}

theorem announces_eq {p rest : Bytes} {n m : ℕ} {f : Bytes} (h : Announces p n)
    (hd : deserCompactSize (p ++ rest) = .ok m f) : m = n ∧ f = rest := by
  rw [h rest] at hd
  cases hd
  exact ⟨rfl, rfl⟩

/-- A branch reads one value in one way. -/
theorem BranchRun.determ {b : Branch σ} {s s₁ s₂ v w : Bytes} {n m : ℕ} {st₁ st₂ : σ}
    (h : BranchRun R b s n v st₁ s₁) (h' : BranchRun R b s m w st₂ s₂) :
    n = m ∧ v = w ∧ st₁ = st₂ ∧ s₁ = s₂ := by
  cases h with
  | value hn _ hst =>
    cases h' with
    | value hm _ hst' =>
      rw [hn] at hm
      cases hm
      rw [hst] at hst'
      cases hst'
      exact ⟨rfl, rfl, rfl, rfl⟩
  | count hn hv =>
    cases h' with
    | count hm hw =>
      rw [hn, EStateM.Result.ok.injEq] at hm
      obtain ⟨rfl, hstream⟩ := hm
      have hcount := hv s₁
      rw [hstream, hw s₂] at hcount
      cases hcount
      exact ⟨rfl, List.append_cancel_right hstream, rfl, rfl⟩

/-- A map is read in one way. -/
theorem MapRun.determ {st st₁ st₂ : σ} {seen : List Bytes} {s s₁ s₂ stop₁ stop₂ : Bytes}
    {rs₁ rs₂ : List ReadRecord} (h : MapRun R branch st seen s rs₁ stop₁ st₁ s₁)
    (h' : MapRun R branch st seen s rs₂ stop₂ st₂ s₂) :
    rs₁ = rs₂ ∧ stop₁ = stop₂ ∧ st₁ = st₂ ∧ s₁ = s₂ := by
  induction h generalizing rs₂ with
  | stop hk =>
    cases h' with
    | stop hk' =>
      rw [hk] at hk'
      cases hk'
      exact ⟨rfl, rfl, rfl, rfl⟩
    | record hk' =>
      rw [hk] at hk'
      cases hk'
  | record hk ht hb _ ih =>
    cases h' with
    | stop hk' =>
      rw [hk] at hk'
      cases hk'
    | record hk' ht' hb' hrun =>
      rw [hk] at hk'
      cases hk'
      rw [ht] at ht'
      cases ht'
      obtain ⟨rfl, rfl, rfl, rfl⟩ := hb.determ hb'
      obtain ⟨rfl, rfl, rfl, rfl⟩ := ih hrun
      exact ⟨rfl, rfl, rfl, rfl⟩

/-- The stream of a record that is read: its length prefix, its value, the rest. -/
theorem BranchRun.split {b : Branch σ} {s s' v : Bytes} {n : ℕ} {st' : σ}
    (h : BranchRun R b s n v st' s') : ∃ q, Announces q n ∧ s = q ++ (v ++ s') := by
  cases h with
  | @value _ _ _ s₁ _ hn =>
    obtain ⟨q, rfl, hq⟩ := deserCompactSize_eq_ok hn
    exact ⟨q, hq, by rw [List.take_append_drop]⟩
  | count hn hv =>
    obtain ⟨q, rfl, hq⟩ := deserCompactSize_eq_ok hn
    exact ⟨q, hq, rfl⟩

/-- The key of a record that is read has the announced length, since the length
of the value comes after it. -/
theorem nextKey_split {b : Branch σ} {s s₁ s₂ key v : Bytes} {n : ℕ} {st' : σ}
    (hk : nextKey R s = (some key, s₁)) (hb : BranchRun R b s₁ n v st' s₂) :
    ∃ p, Announces p key.length ∧ s = p ++ (key ++ s₁) ∧ key ≠ [] ∧ key.length ≤ maxBytes := by
  obtain ⟨hd, hne⟩ := nextKey_eq_some hk
  obtain ⟨p, m, f, rfl, hp, ⟨hm, -⟩, rfl, rfl⟩ := deserString_eq_ok hd
  obtain ⟨q, hq, hs⟩ := hb.split
  have hdrop : f.drop m ≠ [] := by
    rw [hs]
    simp [hq.ne_nil]
  have hlt : m < f.length := by
    by_contra hle
    exact hdrop (List.drop_eq_nil_of_le (by omega))
  have hlen : (f.take m).length = m := List.length_take_of_le hlt.le
  refine ⟨p, ?_, by rw [List.take_append_drop], hne, ?_⟩
  · rwa [hlen]
  · rwa [hlen]

/-- A map that is read cleanly is framed. -/
theorem MapRun.framed {st st' : σ} {seen : List Bytes} {s s' stop : Bytes} {rs : List ReadRecord}
    (h : MapRun R branch st seen s rs stop st' s') (hclean : (MapTrace.mk rs stop).Clean) :
    ∃ b, FramedMap (MapTrace.mk rs stop).spelled b ∧ s = b ++ s' := by
  induction h with
  | @stop st seen s s' hk =>
    have hhead : s.head? = some 0x00 := hclean.stop
    obtain ⟨t, rfl⟩ := List.head?_eq_some_iff.1 hhead
    rw [nextKey_separator] at hk
    cases hk
    exact ⟨[0x00], .separator, rfl⟩
  | @record st seen s key t s₁ n v st₁ s₂ rs stop st' s' hk ht hb hrun ih =>
    obtain ⟨p, hp, rfl, -, -⟩ := nextKey_split hk hb
    obtain ⟨q, hq, rfl⟩ := hb.split
    have hn : n = v.length := hclean.announced _ List.mem_cons_self
    rw [hn] at hq
    obtain ⟨b, hb', rfl⟩ := ih ⟨fun r hr => hclean.announced r (List.mem_cons_of_mem _ hr), hclean.stop⟩
    refine ⟨p ++ (key ++ (q ++ (v ++ b))), .record hp hq hb', ?_⟩
    simp only [List.append_assoc]

/-- A framed map is read cleanly, and to its end. -/
theorem MapRun.clean {st st' : σ} {seen : List Bytes} {s s' stop : Bytes} {rs : List ReadRecord}
    (h : MapRun R branch st seen s rs stop st' s') {b rest : Bytes} (hs : s = b ++ rest)
    (hf : FramedMap (MapTrace.mk rs stop).spelled b) :
    (MapTrace.mk rs stop).Clean ∧ s' = rest := by
  induction h generalizing b with
  | @stop st seen s s' hk =>
    cases hf
    subst hs
    have hsep : nextKey R ([0x00] ++ rest) = (none, rest) := nextKey_separator rest
    rw [hsep] at hk
    cases hk
    exact ⟨⟨by simp, rfl⟩, rfl⟩
  | @record st seen s key t s₁ n v st₁ s₂ rs stop st' s' hk ht hb hrun ih =>
    cases hf with
    | @record p _ q _ _ b' hp hq hf' =>
      have hsplit := nextKey_split hk hb
      obtain ⟨p', hp', hs', -, -⟩ := hsplit
      rw [hs, List.append_assoc] at hs'
      have hp₁ := hp' (key ++ s₁)
      rw [← hs'] at hp₁
      obtain ⟨-, hkey⟩ := announces_eq hp hp₁
      rw [List.append_assoc, List.append_cancel_left_eq] at hkey
      obtain ⟨q', hq', hs₁⟩ := hb.split
      have hq₁ := hq' (v ++ s₂)
      rw [← hs₁, hkey, List.append_assoc] at hq₁
      obtain ⟨hn, hv⟩ := announces_eq hq hq₁
      rw [List.append_assoc, List.append_cancel_left_eq] at hv
      obtain ⟨hclean, hrest⟩ := ih hv hf'
      refine ⟨⟨fun r hr => ?_, hclean.stop⟩, hrest⟩
      rcases List.mem_cons.1 hr with rfl | hr
      · exact hn
      · exact hclean.announced r hr

theorem deserCompactSize_append {s s' : Bytes} {n : ℕ} (h : deserCompactSize s = .ok n s')
    (x : Bytes) : deserCompactSize (s ++ x) = .ok n (s' ++ x) := by
  obtain ⟨p, rfl, hp⟩ := deserCompactSize_eq_ok h
  rw [List.append_assoc]
  exact hp _

/-- A record that is read cleanly does not look at what follows it. -/
theorem BranchRun.append {b : Branch σ} {s s' v : Bytes} {n : ℕ} {st' : σ}
    (h : BranchRun R b s n v st' s') (hn : n = v.length) (x : Bytes) :
    BranchRun R b (s ++ x) n v st' (s' ++ x) := by
  cases h with
  | @value store _ _ s₁ _ hd hle hst =>
    have hlen : n ≤ s₁.length := by
      rw [List.length_take] at hn
      omega
    have htake : (s₁ ++ x).take n = s₁.take n := List.take_append_of_le_length hlen
    have hdrop : (s₁ ++ x).drop n = s₁.drop n ++ x := List.drop_append_of_le_length hlen
    rw [← htake, ← hdrop]
    refine .value (deserCompactSize_append hd x) (hle.append x) ?_
    rwa [htake]
  | count hd hv =>
    refine .count ?_ hv
    rw [← List.append_assoc]
    exact deserCompactSize_append hd x

/-- A map that is read cleanly does not look at what follows it. -/
theorem MapRun.append {st st' : σ} {seen : List Bytes} {s s' stop : Bytes} {rs : List ReadRecord}
    (h : MapRun R branch st seen s rs stop st' s') (hclean : (MapTrace.mk rs stop).Clean) (x : Bytes) :
    MapRun R branch st seen (s ++ x) rs (stop ++ x) st' (s' ++ x) := by
  induction h with
  | @stop st seen s s' hk =>
    have hhead : s.head? = some 0x00 := hclean.stop
    obtain ⟨t, rfl⟩ := List.head?_eq_some_iff.1 hhead
    rw [nextKey_separator] at hk
    cases hk
    exact .stop (nextKey_separator _)
  | @record st seen s key t s₁ n v st₁ s₂ rs stop st' s' hk ht hb hrun ih =>
    have hn : n = v.length := hclean.announced _ List.mem_cons_self
    obtain ⟨p, hp, rfl, hne, hle⟩ := nextKey_split hk hb
    refine .record ?_ ht (hb.append hn x)
      (ih ⟨fun r hr => hclean.announced r (List.mem_cons_of_mem _ hr), hclean.stop⟩)
    have hstring : deserString R (p ++ (key ++ s₁) ++ x) = .ok key (s₁ ++ x) := by
      rw [List.append_assoc, List.append_assoc]
      refine deserString_eq_ok_iff.2 ⟨key.length, key ++ (s₁ ++ x), hp _, readable_length hle _, ?_, ?_⟩
      · exact (List.take_left' rfl).symm
      · exact (List.drop_left' rfl).symm
    rw [nextKey, hstring]
    exact if_neg (by simpa using hne)

/-! ### Several maps -/

variable {st : σ}

theorem MapsRun.determ {f f₁ f₂ : Bytes} {ts₁ ts₂ : List MapTrace} (h : MapsRun R branch st f ts₁ f₁)
    (h' : MapsRun R branch st f ts₂ f₂) (hlen : ts₁.length = ts₂.length) : ts₁ = ts₂ ∧ f₁ = f₂ := by
  induction h generalizing ts₂ with
  | nil =>
    cases h' with
    | nil => exact ⟨rfl, rfl⟩
    | cons => cases hlen
  | cons hrun _ ih =>
    cases h' with
    | nil => cases hlen
    | cons hrun' h' =>
      obtain ⟨rfl, rfl, rfl, rfl⟩ := hrun.determ hrun'
      obtain ⟨rfl, rfl⟩ := ih h' (by simpa using hlen)
      exact ⟨rfl, rfl⟩

theorem MapsRun.framed {f f' : Bytes} {ts : List MapTrace} (h : MapsRun R branch st f ts f')
    (hclean : ∀ m ∈ ts, m.Clean) : ∃ bs : List Bytes,
      List.Forall₂ (fun m b => FramedMap m.spelled b) ts bs ∧ f = bs.flatten ++ f' := by
  induction h with
  | nil => exact ⟨[], .nil, rfl⟩
  | cons hrun _ ih =>
    obtain ⟨b, hb, rfl⟩ := hrun.framed (hclean _ List.mem_cons_self)
    obtain ⟨bs, hbs, rfl⟩ := ih fun m hm => hclean m (List.mem_cons_of_mem _ hm)
    exact ⟨b :: bs, .cons hb hbs, by rw [List.flatten_cons, List.append_assoc]⟩

theorem MapsRun.clean {f f' : Bytes} {ts : List MapTrace} (h : MapsRun R branch st f ts f')
    {bs : List Bytes} {rest : Bytes} (hf : f = bs.flatten ++ rest)
    (hframed : List.Forall₂ (fun m b => FramedMap m.spelled b) ts bs) :
    (∀ m ∈ ts, m.Clean) ∧ f' = rest := by
  induction h generalizing bs with
  | nil =>
    cases hframed
    exact ⟨by simp, hf⟩
  | cons hrun _ ih =>
    cases hframed with
    | cons hb hbs =>
      rw [List.flatten_cons, List.append_assoc] at hf
      obtain ⟨hclean, hrest⟩ := hrun.clean hf hb
      obtain ⟨hcleans, hrest'⟩ := ih hrest hbs
      exact ⟨List.forall_mem_cons.2 ⟨hclean, hcleans⟩, hrest'⟩

/-- What an item does with the map it reads depends on the object of the map only. -/
def ReadsMap {α : Type} (R : Runtime) (branch : Bytes → List Bytes → σ → ℕ → Branch σ) (st : σ)
    (item : Read α) : Prop :=
  ∀ s a s', item s = .ok a s' → ∃ st', readMap R branch st s = .ok st' s' ∧
    ∀ f f', readMap R branch st f = .ok st' f' → item f = .ok a f'

/-- A loop over maps that reads all of them has read them one after the other. -/
theorem exists_mapsRun {α : Type} {item : ℕ → Read α} (hitem : ∀ j, ReadsMap R branch st (item j))
    {n i : ℕ} {f f' : Bytes} {l : List α} (h : PSBT.readWhile item n i f = .ok l f')
    (hlen : l.length = n) : ∃ ts, MapsRun R branch st f ts f' ∧ ts.length = n := by
  induction n generalizing i f l with
  | zero =>
    cases h
    exact ⟨[], .nil, rfl⟩
  | succ n ih =>
    rw [readWhile_succ] at h
    split_ifs at h
    · cases h
      cases hlen
    · obtain ⟨a, s, ha, h⟩ := Reader.bind_eq_ok.1 h
      obtain ⟨rest, s', hrest, hpure⟩ := Reader.bind_eq_ok.1 h
      cases hpure
      obtain ⟨st', hread, -⟩ := hitem _ _ _ _ ha
      obtain ⟨rs, stop, hrun⟩ := readMap_eq_ok.1 hread
      obtain ⟨ts, hts, hn⟩ := ih hrest (by simpa using hlen)
      exact ⟨⟨rs, stop⟩ :: ts, .cons hrun hts, by rw [List.length_cons, hn]⟩

/-- Maps that are read cleanly are read the same when more bytes follow them. -/
theorem readWhile_append {α : Type} {item : ℕ → Read α}
    (hitem : ∀ j, ReadsMap R branch st (item j)) {n i : ℕ} {f f' f'' : Bytes} {l : List α}
    (h : PSBT.readWhile item n i f = .ok l f') (hlen : l.length = n) {ts : List MapTrace}
    (hrun : MapsRun R branch st f ts f'') (hn : ts.length = n) (hclean : ∀ m ∈ ts, m.Clean)
    (x : Bytes) : PSBT.readWhile item n i (f ++ x) = .ok l (f' ++ x) := by
  induction n generalizing i f l ts with
  | zero =>
    cases h
    rfl
  | succ n ih =>
    rw [readWhile_succ] at h ⊢
    split_ifs at h with hf
    · cases h
      cases hlen
    · have happ : f ++ x ≠ [] := by simp [hf]
      rw [if_neg happ]
      obtain ⟨a, s, ha, h⟩ := Reader.bind_eq_ok.1 h
      obtain ⟨rest, s', hrest, hpure⟩ := Reader.bind_eq_ok.1 h
      cases hpure
      obtain ⟨st', hread, hsame⟩ := hitem _ _ _ _ ha
      cases hrun with
      | nil => cases hn
      | cons hmap hmaps =>
        obtain ⟨rs, stop, hmap'⟩ := readMap_eq_ok.1 hread
        obtain ⟨rfl, rfl, rfl, rfl⟩ := hmap.determ hmap'
        have hcut := readMap_eq_ok.2 ⟨_, _, hmap.append (hclean _ List.mem_cons_self) x⟩
        have htail := ih hrest (by simpa using hlen) hmaps (by simpa using hn)
          fun m hm => hclean m (List.mem_cons_of_mem _ hm)
        rw [Reader.bind_apply, hsame _ _ hcut]
        dsimp only
        rw [Reader.bind_apply, htail]
        rfl

end Map

/-! ### The whole PSBT -/

namespace PsbtTrace

variable {R : Runtime} {bs : Bytes} {t : PsbtTrace}

theorem ReadFrom.determ {t' : PsbtTrace} (h : t.ReadFrom R bs) (h' : t'.ReadFrom R bs) : t = t' := by
  obtain ⟨-, g, f₁, f₂, hg, hin, hout, hnin, hnout⟩ := h
  obtain ⟨-, g', f₁', f₂', hg', hin', hout', hnin', hnout'⟩ := h'
  obtain ⟨globals, inputs, outputs, left⟩ := t
  obtain ⟨globals', inputs', outputs', left'⟩ := t'
  obtain ⟨hrs, hstop, rfl, rfl⟩ := hg.determ hg'
  obtain ⟨hins, rfl⟩ := hin.determ hin' (hnin.trans hnin'.symm)
  obtain ⟨houts, hleft⟩ := hout.determ hout' (hnout.trans hnout'.symm)
  obtain ⟨rs, stop⟩ := globals
  obtain ⟨rs', stop'⟩ := globals'
  dsimp only at hrs hstop hins houts hleft
  rw [hrs, hstop, hins, houts, hleft]

/-- The bytes are framed exactly when they are read cleanly. -/
theorem ReadFrom.framed_iff (h : t.ReadFrom R bs) : t.Framed bs ↔ t.Clean := by
  obtain ⟨hmagic, g, f₁, f₂, hg, hin, hout, -, -⟩ := h
  have hbs : bs = PSBT.magic ++ bs.drop 5 := by
    rw [← hmagic, List.take_append_drop]
  constructor
  · rintro ⟨b, ins, outs, hb, hins, houts, heq⟩
    have hdrop : bs.drop 5 = b ++ (ins.flatten ++ outs.flatten) := by
      rw [heq]
      exact List.drop_left' rfl
    obtain ⟨hgc, hf₁⟩ := hg.clean hdrop hb
    obtain ⟨hic, hf₂⟩ := hin.clean hf₁ hins
    obtain ⟨hoc, hleft⟩ := hout.clean (hf₂.trans (List.append_nil _).symm) houts
    exact ⟨hgc, hic, hoc, hleft⟩
  · rintro ⟨hgc, hic, hoc, hleft⟩
    obtain ⟨b, hb, hdrop⟩ := hg.framed hgc
    obtain ⟨ins, hins, rfl⟩ := hin.framed hic
    obtain ⟨outs, houts, rfl⟩ := hout.framed hoc
    refine ⟨b, ins, outs, hb, hins, houts, ?_⟩
    rw [hbs, hdrop, hleft, List.append_nil]

end PsbtTrace

namespace PSBT

variable {R : Runtime}

theorem deserialize_input_eq_ok {st i : PartiallySignedInput} {f f' : Bytes} :
    PartiallySignedInput.deserialize R st f = .ok i f' ↔
      readMap R (PartiallySignedInput.branch R) st f = .ok i f' ∧ i.requireV2 = .ok () := by
  simp only [PartiallySignedInput.deserialize, Reader.bind_eq_ok, ofExcept_eq_ok]
  constructor
  · rintro ⟨a, s, ha, _, s', ⟨hu, rfl⟩, ⟨⟩⟩
    exact ⟨ha, hu⟩
  · rintro ⟨ha, hu⟩
    exact ⟨i, f', ha, (), f', ⟨hu, rfl⟩, rfl⟩

theorem deserialize_input_readMap {st i : PartiallySignedInput} {f f' : Bytes}
    (h : PartiallySignedInput.deserialize R st f = .ok i f') :
    readMap R (PartiallySignedInput.branch R) st f = .ok i f' := (deserialize_input_eq_ok.1 h).1

theorem deserialize_output_eq_ok {st o : PartiallySignedOutput} {f f' : Bytes} :
    PartiallySignedOutput.deserialize R st f = .ok o f' ↔
      readMap R PartiallySignedOutput.branch st f = .ok o f' ∧ o.requireV2 = .ok () := by
  simp only [PartiallySignedOutput.deserialize, Reader.bind_eq_ok, ofExcept_eq_ok]
  constructor
  · rintro ⟨a, s, ha, _, s', ⟨hu, rfl⟩, ⟨⟩⟩
    exact ⟨ha, hu⟩
  · rintro ⟨ha, hu⟩
    exact ⟨o, f', ha, (), f', ⟨hu, rfl⟩, rfl⟩

theorem readInput_eq_ok {p : PSBT} {i : ℕ} {psbtIn : PartiallySignedInput} {f f' : Bytes} :
    readInput R p i f = .ok psbtIn f' ↔ ∃ a txid,
      PartiallySignedInput.deserialize R { version := p.version } f = .ok a f' ∧
        prevTxid p i a = .ok txid ∧ checkUtxoHash R txid a = .ok psbtIn := by
  simp only [readInput, Reader.bind_eq_ok, ofExcept_eq_ok]
  constructor
  · rintro ⟨a, s, ha, txid, s', ⟨htxid, rfl⟩, hcheck, rfl⟩
    exact ⟨a, txid, ha, htxid, hcheck⟩
  · rintro ⟨a, txid, ha, htxid, hcheck⟩
    exact ⟨a, _, ha, txid, _, ⟨htxid, rfl⟩, hcheck, rfl⟩

theorem readsMap_readInput (p : PSBT) (i : ℕ) :
    ReadsMap R (PartiallySignedInput.branch R) { version := p.version } (readInput R p i) := by
  intro s a s' h
  obtain ⟨b, txid, hb, htxid, hcheck⟩ := readInput_eq_ok.1 h
  obtain ⟨hmap, hv2⟩ := deserialize_input_eq_ok.1 hb
  refine ⟨b, hmap, fun f f' hf => ?_⟩
  exact readInput_eq_ok.2 ⟨b, txid, deserialize_input_eq_ok.2 ⟨hf, hv2⟩, htxid, hcheck⟩

theorem readsMap_output (st : PartiallySignedOutput) :
    ReadsMap R PartiallySignedOutput.branch st (PartiallySignedOutput.deserialize R st) := by
  intro s a s' h
  obtain ⟨hmap, hv2⟩ := deserialize_output_eq_ok.1 h
  exact ⟨a, hmap, fun f f' hf => deserialize_output_eq_ok.2 ⟨hf, hv2⟩⟩

theorem updateEach_length {α β : Type} {update : α → β → α} {l r : List α} {l' : List β}
    (h : updateEach update l l' = .ok r) : r.length = l.length := by
  induction l generalizing l' r with
  | nil =>
    cases l' with
    | nil =>
      cases h
      rfl
    | cons => cases h
  | cons a l ih =>
    cases l' with
    | nil =>
      cases h
      rfl
    | cons b l' =>
      obtain ⟨rest, hrest, hok⟩ := bind_eq_ok.1 h
      cases hok
      rw [List.length_cons, List.length_cons, ih hrest]

theorem cacheUnsignedTxPieces_length {p p' : PSBT} (h : p.cacheUnsignedTxPieces = .ok p') :
    p'.inputs.length = p.inputs.length ∧ p'.outputs.length = p.outputs.length := by
  unfold cacheUnsignedTxPieces at h
  split_ifs at h
  · obtain ⟨inputs, hin, h⟩ := bind_eq_ok.1 h
    obtain ⟨outputs, hout, h⟩ := bind_eq_ok.1 h
    cases h
    exact ⟨updateEach_length hin, updateEach_length hout⟩
  · cases h
    exact ⟨rfl, rfl⟩

theorem Global.untouched_of_readMap {g : Global} {f f' : Bytes}
    (h : readMap R (branch R) { psbt := {} } f = .ok g f') : g.Untouched := by
  obtain ⟨rs, stop, hrun⟩ := readMap_eq_ok.1 h
  obtain ⟨es, -, rfl⟩ := (Global.format R).exists_entries hrun
  exact Global.untouched_addAll es

/-- What a stream that is accepted is read as. -/
theorem exists_readFrom {bs left : Bytes} {p : PSBT}
    (h : deserializeStream R {} bs = .ok p left) : ∃ t : PsbtTrace, t.ReadFrom R bs ∧ t.left = left ∧
      t.inputs.length = p.inputs.length ∧ t.outputs.length = p.outputs.length := by
  obtain ⟨hmagic, g, f₁, inputs, f₂, outputs, hg, -, hin, hout, hcache⟩ := deserializeStream_eq_ok.1 h
  obtain ⟨rs, stop, hrun⟩ := readMap_eq_ok.1 hg
  have huntouched := Global.untouched_of_readMap hg
  obtain ⟨ins, hins, hnin, rfl⟩ := readInputs_eq_ok.1 hin
  obtain ⟨outs, houts, hnout, rfl⟩ := readOutputs_eq_ok.1 hout
  rw [huntouched.inputs, List.length_nil, Nat.zero_add] at hnin
  rw [huntouched.outputs, List.length_nil, Nat.zero_add] at hnout
  obtain ⟨tin, htin, hlin⟩ := exists_mapsRun (readsMap_readInput g.psbt) hins hnin
  obtain ⟨tout, htout, hlout⟩ :=
    exists_mapsRun (fun _ => readsMap_output { version := g.psbt.version }) houts hnout
  obtain ⟨hpin, hpout⟩ := cacheUnsignedTxPieces_length hcache
  refine ⟨⟨⟨rs, stop⟩, tin, tout, left⟩, ⟨hmagic, g, f₁, f₂, hrun, htin, htout, hlin, hlout⟩, rfl, ?_, ?_⟩
  · rw [hpin, huntouched.inputs, List.nil_append, hnin, hlin]
  · rw [hpout, huntouched.outputs, List.nil_append, hnout, hlout]

/-- A PSBT that is read cleanly is accepted as the same object with any bytes after it. -/
theorem deserializeStream_append {bs left : Bytes} {p : PSBT}
    (h : deserializeStream R {} bs = .ok p left) {t : PsbtTrace} (ht : t.ReadFrom R bs)
    (hc : t.Clean) (x : Bytes) : deserializeStream R {} (bs ++ x) = .ok p (left ++ x) := by
  obtain ⟨hmagic, g, f₁, inputs, f₂, outputs, hg, hv, hin, hout, hcache⟩ := deserializeStream_eq_ok.1 h
  obtain ⟨-, g', f₁', f₂', hrun, hrunin, hrunout, hnin', hnout'⟩ := ht
  obtain ⟨rs, stop, hrun'⟩ := readMap_eq_ok.1 hg
  obtain ⟨-, -, rfl, rfl⟩ := hrun.determ hrun'
  have huntouched := Global.untouched_of_readMap hg
  obtain ⟨ins, hins, hnin, rfl⟩ := readInputs_eq_ok.1 hin
  obtain ⟨outs, houts, hnout, rfl⟩ := readOutputs_eq_ok.1 hout
  have hlin : ins.length = inputTotal g' := by simpa [huntouched.inputs] using hnin
  have hlout : outs.length = outputTotal g' := by simpa [huntouched.outputs] using hnout
  obtain ⟨tin, htin, hltin⟩ := exists_mapsRun (readsMap_readInput g'.psbt) hins hlin
  obtain ⟨rfl, rfl⟩ := hrunin.determ htin (hnin'.trans hltin.symm)
  have hlen : 5 ≤ bs.length := by
    have := congrArg List.length hmagic
    simp only [List.length_take, magic, List.length_cons, List.length_nil] at this
    omega
  refine deserializeStream_eq_ok.2 ⟨?_, g', f₁' ++ x, _, f₂' ++ x, _, ?_, hv, ?_, ?_, hcache⟩
  · rw [List.take_append_of_le_length hlen, hmagic]
  · rw [List.drop_append_of_le_length hlen]
    exact readMap_eq_ok.2 ⟨_, _, hrun.append hc.globals x⟩
  · refine readInputs_eq_ok.2 ⟨ins, ?_, hnin, rfl⟩
    exact readWhile_append (readsMap_readInput g'.psbt) hins hlin hrunin hnin' hc.inputs x
  · refine readOutputs_eq_ok.2 ⟨outs, ?_, hnout, rfl⟩
    exact readWhile_append (fun _ => readsMap_output _) houts hlout hrunout hnout' hc.outputs x

theorem deserialize_eq_ok {self p : PSBT} {s : Str} : deserialize R self s = .ok p ↔
    ∃ bs left, b64decode (strip s) = .ok bs ∧ deserializeStream R self bs = .ok p left := by
  rw [deserialize]
  cases hs : b64decode (strip s) with
  | error e => simp
  | ok bs =>
    cases hread : deserializeStream R self bs with
    | error e f => simp [runOn, hread]
    | ok q left => simp [runOn, hread, and_comm, eq_comm]

/-- The bytes are accepted, from one of the texts they are decoded from. -/
def Accepted (R : Runtime) (bs : Bytes) : Prop :=
  ∃ (s : Str) (p : PSBT), b64decode (strip s) = .ok bs ∧ deserialize R {} s = .ok p

/-- What accepted bytes promise when they are completely framed: the magic and one framed map after
the other, one for each input and output, and none of their proper prefixes and extensions is
accepted. -/
structure CompletelyFramed (R : Runtime) (p : PSBT) (bs : Bytes) : Prop where
  framed : ∃ t : PsbtTrace, t.ReadFrom R bs ∧ t.inputs.length = p.inputs.length ∧
    t.outputs.length = p.outputs.length ∧ t.Framed bs
  prefixes : ∀ bs', bs' <+: bs → bs' ≠ bs → ¬Accepted R bs'
  extensions : ∀ bs', bs <+: bs' → bs' ≠ bs → ¬Accepted R bs'

/-- No accepted text is completely framed: what is left of the stream is never looked at, so a
framed PSBT is accepted with any bytes after it. -/
theorem deserialize_not_completelyFramed {s : Str} {bs : Bytes} {p : PSBT}
    (hs : b64decode (strip s) = .ok bs) (hp : deserialize R {} s = .ok p) :
    (∃ t : PsbtTrace, t.ReadFrom R bs ∧ (∀ t' : PsbtTrace, t'.ReadFrom R bs → t' = t) ∧
      t.inputs.length = p.inputs.length ∧ t.outputs.length = p.outputs.length ∧
      (t.Framed bs → ∀ x s', b64decode (strip s') = .ok (bs ++ x) → deserialize R {} s' = .ok p)) ∧
    ¬CompletelyFramed R p bs := by
  obtain ⟨bs', left, hbs, hread⟩ := deserialize_eq_ok.1 hp
  obtain rfl : bs = bs' := Except.ok.inj (hs.symm.trans hbs)
  obtain ⟨t, ht, -, hin, hout⟩ := exists_readFrom hread
  have hextend : t.Framed bs → ∀ x s', b64decode (strip s') = .ok (bs ++ x) →
      deserialize R {} s' = .ok p := by
    intro hframed x s' hs'
    have hcut := deserializeStream_append hread ht (ht.framed_iff.1 hframed) x
    exact deserialize_eq_ok.2 ⟨_, _, hs', hcut⟩
  refine ⟨⟨t, ht, fun t' ht' => ht'.determ ht, hin, hout, hextend⟩, fun hcomplete => ?_⟩
  obtain ⟨t', ht', -, -, hframed⟩ := hcomplete.framed
  obtain rfl := ht.determ ht'
  have hlonger : bs ++ [0x00] ≠ bs := by simp
  apply hcomplete.extensions _ (List.prefix_append _ _) hlonger
  exact ⟨_, p, b64decode_strip_encode _, hextend hframed _ _ (b64decode_strip_encode _)⟩

/-- The smallest PSBT, with a transaction of no inputs and outputs. -/
def emptyBytes : Bytes := magic ++ [0x01, 0x00, 0x0a, 0, 0, 0, 0, 0, 0, 0, 0, 0, 0, 0x00]

def emptyPsbt : PSBT := { tx := { nVersion := 0 }, txVersion := some 0, fallbackLocktime := some 0 }

theorem read_emptyBytes (left : Bytes) (h : left ∈ [[], [0x00]]) :
    deserializeStream Runtime.zeros {} (emptyBytes ++ left) = .ok emptyPsbt left := by
  rcases List.mem_pair.1 h with rfl | rfl <;> rfl

theorem deserialize_not_completelyFramed_empty : ¬CompletelyFramed Runtime.zeros emptyPsbt emptyBytes :=
  (deserialize_not_completelyFramed (s := "cHNidP8BAAoAAAAAAAAAAAAAAA==".toList) (by decide +kernel)
    (by decide +kernel)).2

/-- A byte after the last map is accepted and ignored. -/
theorem deserialize_padded : ∃ bs bs' : Bytes,
    b64decode (strip "cHNidP8BAAoAAAAAAAAAAAAAAA==".toList) = .ok bs ∧
    deserialize Runtime.zeros {} "cHNidP8BAAoAAAAAAAAAAAAAAA==".toList = .ok emptyPsbt ∧
    b64decode (strip "cHNidP8BAAoAAAAAAAAAAAAAAAA=".toList) = .ok bs' ∧
    deserialize Runtime.zeros {} "cHNidP8BAAoAAAAAAAAAAAAAAAA=".toList = .ok emptyPsbt ∧
    bs <+: bs' ∧ bs ≠ bs' ∧
    ∀ t : PsbtTrace, t.ReadFrom Runtime.zeros bs' → ¬t.Framed bs' := by
  refine ⟨emptyBytes, emptyBytes ++ [0x00], by decide +kernel, ?_, by decide +kernel, ?_,
    List.prefix_append _ _, by decide, fun t ht hframed => ?_⟩
  · decide +kernel
  · decide +kernel
  · obtain ⟨t', ht', hleft, -⟩ := exists_readFrom (read_emptyBytes [0x00] (by simp))
    have hnil := (ht.framed_iff.1 hframed).left
    rw [ht.determ ht', hleft] at hnil
    cases hnil

end PSBT

end Hwi
