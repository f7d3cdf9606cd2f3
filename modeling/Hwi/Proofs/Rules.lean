import Hwi.Proofs.Breaks

/-! The record loop follows the rules of its map: an object that stands for the records read so far
is taken by every record the rules let pass to one that stands for it too. -/

namespace Hwi

open Reader

variable {R : Runtime} {σ φ : Type}

/-! ### Keys -/

theorem nextKey_eq_some_iff {s s' key : Bytes} :
    nextKey R s = (some key, s') ↔ deserString R s = .ok key s' ∧ key ≠ [] := by
  constructor
  · exact nextKey_eq_some
  · rintro ⟨hread, hne⟩
    rw [nextKey, hread]
    exact if_neg (by simpa using hne)

theorem nextKey_eq_none_iff {s s' : Bytes} : nextKey R s = (none, s') ↔ EndsMap R s s' := by
  constructor
  · intro h
    unfold nextKey at h
    cases hread : deserString R s with
    | ok key f =>
      rw [hread] at h
      dsimp only at h
      split_ifs at h with hlen
      · cases h
        rw [List.length_eq_zero_iff.1 hlen] at hread
        exact .empty hread
      · cases h
    | error e f =>
      rw [hread] at h
      cases h
      rw [deserString, bind_apply] at hread
      cases hsize : deserCompactSize s with
      | error e' s₁ =>
        have hcut : CutSize s :=
          raises_deserCompactSize.1 ⟨e', s₁, hsize, onlyRaises_deserCompactSize s e' s₁ hsize⟩
        rw [hsize] at hread
        cases hread
        rw [deserCompactSize_eq_error hsize]
        exact .cut hcut
      | ok n s₁ =>
        rw [hsize] at hread
        have hbad : ¬Readable R n s₁ :=
          raises_readAnnounced.1 ⟨e, _, hread, onlyRaises_readAnnounced n s₁ e _ hread⟩
        rw [readAnnounced_eq_error hread]
        exact .unreadable hsize hbad
  · intro h
    cases h with
    | empty h =>
      rw [nextKey, h]
      rfl
    | cut h =>
      obtain ⟨e, s', hsize, -⟩ := raises_deserCompactSize.2 h
      rw [nextKey, deserString, bind_apply, hsize, deserCompactSize_eq_error hsize]
    | unreadable hn h =>
      obtain ⟨e, s', hread, -⟩ := raises_readAnnounced.2 h
      rw [nextKey, deserString, bind_apply, hn]
      dsimp only
      rw [hread, readAnnounced_eq_error hread]

/-! ### What an object keeps of the records -/

section Records

variable {M : MapRules φ} {rs : List MapRecord} {key v : Bytes} {f g : φ}

theorem MapRules.HasField.unique (h : M.HasField f key) (h' : M.HasField g key) : f = g := by
  obtain ⟨t, ht, rfl⟩ := h
  obtain ⟨t', ht', rfl⟩ := h'
  rw [ht] at ht'
  cases ht'
  rfl

/-- The keys of a dictionary are the parts of the keys of a field. -/
def Tracks {ν : Type} (M : MapRules φ) (f : φ) (part : Bytes → Bytes) (rs : List MapRecord)
    (d : Dict Bytes ν) : Prop :=
  ∀ k, d.contains k = true ↔ ∃ r ∈ rs, M.HasField f r.1 ∧ part r.1 = k

theorem tracks_nil {ν : Type} {part : Bytes → Bytes} : Tracks M f part [] (∅ : Dict Bytes ν) := by
  intro k
  simp [Dict.contains, Dict.keys]

theorem Tracks.set {ν : Type} {part : Bytes → Bytes} {d : Dict Bytes ν} (h : Tracks M f part rs d)
    (hkey : M.HasField f key) (a : ν) : Tracks M f part ((key, v) :: rs) (d.set (part key) a) := by
  intro k
  have hd := h k
  simp only [Dict.contains, decide_eq_true_eq] at hd ⊢
  rw [Dict.mem_keys_set, hd, List.exists_mem_cons_iff]
  simp [hkey, eq_comm]

theorem Tracks.skip {ν : Type} {part : Bytes → Bytes} {d : Dict Bytes ν} (h : Tracks M f part rs d)
    (hkey : M.HasField g key) (hne : g ≠ f) : Tracks M f part ((key, v) :: rs) d := by
  intro k
  rw [h k, List.exists_mem_cons_iff]
  refine (or_iff_right ?_).symm
  rintro ⟨hf, -⟩
  exact hne (hkey.unique hf)

/-- Looking up what follows the first byte of a key is looking for a record with the same. -/
theorem Tracks.fresh_iff {ν : Type} {d : Dict Bytes ν} (h : Tracks M f (List.drop 1) rs d)
    (hdata : M.byData f = true) : d.contains (key.drop 1) = false ↔ M.Fresh rs key f := by
  rw [← Bool.not_eq_true, h, MapRules.Fresh, if_pos hdata]
  simp

/-- Looking up a whole key is looking for it among the keys before it. -/
theorem Tracks.fresh_id_iff {ν : Type} {d : Dict Bytes ν} (h : Tracks M f id rs d)
    (hdata : M.byData f = false) (hkey : M.HasField f key) :
    d.contains key = false ↔ M.Fresh rs key f := by
  rw [← Bool.not_eq_true, h, MapRules.Fresh, if_neg (by simp [hdata]), List.mem_map]
  refine not_congr ⟨?_, ?_⟩
  · rintro ⟨r, hr, -, rfl⟩
    exact ⟨r, hr, rfl⟩
  · rintro ⟨r, hr, rfl⟩
    exact ⟨r, hr, hkey, rfl⟩

/-- A field that may be absent stands for the record with a key of one byte. -/
def FieldRead {α : Type} (t : UInt8) (P : Bytes → α → Prop) (rs : List MapRecord) (o : Option α) : Prop :=
  Option.Rel P (rs.lookup [t]) o

variable {α : Type} {t : UInt8} {P : Bytes → α → Prop} {o : Option α}

theorem fieldRead_nil : FieldRead t P [] none := .none

theorem fieldRead_set {a : α} (h : P v a) : FieldRead t P (([t], v) :: rs) (some a) := by
  rw [FieldRead, List.lookup_cons_self]
  exact .some h

theorem FieldRead.skip (h : FieldRead t P rs o) (hkey : key ≠ [t]) : FieldRead t P ((key, v) :: rs) o := by
  have hne : ([t] == key) = false := by simpa using Ne.symm hkey
  rwa [FieldRead, List.lookup_cons, hne]

theorem FieldRead.ne_none_iff (h : FieldRead t P rs o) : rs.lookup [t] ≠ none ↔ o ≠ none := by
  unfold FieldRead at h
  generalize rs.lookup [t] = x at h ⊢
  cases h with
  | some => simp
  | none => simp

theorem FieldRead.exists_of_some (h : FieldRead t P rs o) {a : α} (ho : o = some a) :
    ∃ v, rs.lookup [t] = some v ∧ P v a := by
  unfold FieldRead at h
  subst ho
  cases h' : rs.lookup [t] with
  | none =>
    rw [h'] at h
    cases h
  | some v =>
    rw [h'] at h
    cases h with
    | some hp => exact ⟨v, rfl, hp⟩

theorem FieldRead.exists_of_lookup (h : FieldRead t P rs o) (hv : rs.lookup [t] = some v) :
    ∃ a, o = some a ∧ P v a := by
  rw [FieldRead, hv] at h
  cases h with
  | some hp => exact ⟨_, rfl, hp⟩

/-- The bytes of a field that is absent when it is empty. -/
def present (b : Bytes) : Option Bytes := if b = [] then none else some b

theorem present_of_ne_nil {b : Bytes} (h : b ≠ []) : present b = some b := if_neg h

/-- A key of another field is not the key of one byte. -/
theorem ne_single (ht : t < 253) (hkey : M.HasField f key) (hne : M.ofType t.toNat ≠ f) : key ≠ [t] := by
  rintro rfl
  obtain ⟨t', ht', rfl⟩ := hkey
  rw [runOn_type ht] at ht'
  cases ht'
  exact hne rfl

/-- The type of a key of one byte is that byte. -/
theorem eq_single {n : ℕ} (hlen : key.length = 1) (ht : runOn deserCompactSize key = .ok n)
    (hn : t.toNat = n) : key = [t] := by
  obtain ⟨b, rfl⟩ := List.length_eq_one_iff.1 hlen
  by_cases hb : b < 253
  · rw [runOn_type hb] at ht
    cases ht
    rw [UInt8.toNat_inj.1 hn]
  · have hle : 253 ≤ b.toNat := Nat.not_lt.1 hb
    have hlt := b.toNat_lt
    have hmarker : b = 253 ∨ b = 254 ∨ b = 255 := by
      simp only [← UInt8.toNat_inj, UInt8.reduceToNat]
      omega
    have hcut : CutSize [b] := by
      rcases hmarker with rfl | rfl | rfl <;> simp [CutSize, compactSizeLength]
    obtain ⟨e, he, -⟩ := escapes_runOn.2 (raises_deserCompactSize.2 hcut)
    rw [ht] at he
    cases he

theorem MapRules.HasField.ne_nil (h : M.HasField f key) : key ≠ [] := by
  rintro rfl
  obtain ⟨n, hn, -⟩ := h
  cases hn

theorem MapRules.HasField.eq_single (h : M.HasField f key) (t : UInt8) (hlen : key.length = 1)
    (ht : ∀ n, M.ofType n = f → n = t.toNat) : key = [t] := by
  obtain ⟨n, hn, hf⟩ := h
  exact Hwi.eq_single hlen hn (ht n hf).symm

end Records

/-! ### One record -/

/-- What the rules say of a branch for a key after some records. -/
def Branch.Follows (M : MapRules φ) (Inv : List MapRecord → σ → Prop) (rs : List MapRecord)
    (key : Bytes) (f : φ) : Branch σ → Prop
  | .value check store => M.isCount f = false ∧ ¬Escapes check ∧
    (check = .ok () ↔ M.keyShape f key ∧ M.Fresh rs key f) ∧ ∀ v,
      (Escapes (store v) ↔ M.breaks f v) ∧ ((∃ st, store v = .ok st) ↔ M.passes f v ∧ ¬M.breaks f v) ∧
        ∀ st, check = .ok () → store v = .ok st → Inv ((key, v) :: rs) st
  | .count check store => M.isCount f = true ∧ ¬Escapes check ∧
    (check = .ok () ↔ M.keyShape f key ∧ M.Fresh rs key f) ∧ ∀ v, (M.passes f v ∧ ¬M.breaks f v) ∧
      ∀ n, check = .ok () → Announces v n → Inv ((key, v) :: rs) (store n)

/-- The branches of a loop follow the rules of its map while its object stands for the records. -/
def Follows (M : MapRules φ) (branch : Bytes → List Bytes → σ → ℕ → Branch σ)
    (Inv : List MapRecord → σ → Prop) : Prop :=
  ∀ ⦃rs st key t⦄, Inv rs st → runOn deserCompactSize key = .ok t →
    (branch key (rs.map Prod.fst) st t).Follows M Inv rs key (M.ofType t)

variable {M : MapRules φ} {branch : Bytes → List Bytes → σ → ℕ → Branch σ}
  {Inv : List MapRecord → σ → Prop}

theorem raises_check_bind {α : Type} {check : Except Exc Unit} (h : ¬Escapes check) {k : Unit → Read α}
    {s : Bytes} : Raises Unexpected (Reader.ofExcept check >>= k) s ↔
      check = .ok () ∧ Raises Unexpected (k ()) s := by
  rw [raises_ofExcept_bind]
  constructor
  · rintro (hcheck | ⟨⟨⟩, hcheck, hk⟩)
    · exact absurd hcheck h
    · exact ⟨hcheck, hk⟩
  · rintro ⟨hcheck, hk⟩
    exact Or.inr ⟨(), hcheck, hk⟩

theorem check_bind_eq_ok {α : Type} {check : Except Exc Unit} {k : Unit → Read α} {s s' : Bytes} {a : α} :
    (Reader.ofExcept check >>= k) s = .ok a s' ↔ check = .ok () ∧ k () s = .ok a s' := by
  rw [Reader.bind_eq_ok]
  constructor
  · rintro ⟨⟨⟩, s₁, hcheck, hk⟩
    obtain ⟨hc, rfl⟩ := ofExcept_eq_ok.1 hcheck
    exact ⟨hc, hk⟩
  · rintro ⟨hc, hk⟩
    exact ⟨(), s, ofExcept_eq_ok.2 ⟨hc, rfl⟩, hk⟩

theorem Branch.read_eq_ok_of_value {check : Except Exc Unit} {store : Bytes → Except Exc σ}
    {s s' : Bytes} {st : σ} : (Branch.value check store).read R s = .ok st s' ↔
      check = .ok () ∧ ∃ v, deserString R s = .ok v s' ∧ store v = .ok st := by
  rw [Branch.read_value, check_bind_eq_ok, Reader.bind_eq_ok]
  simp only [ofExcept_eq_ok]
  constructor
  · rintro ⟨hc, v, s₁, hv, hst, rfl⟩
    exact ⟨hc, v, hv, hst⟩
  · rintro ⟨hc, v, hv, hst⟩
    exact ⟨hc, v, s', hv, hst, rfl⟩

theorem Branch.read_eq_ok_of_count {check : Except Exc Unit} {store : ℕ → σ} {s s' : Bytes} {st : σ} :
    (Branch.count check store).read R s = .ok st s' ↔ check = .ok () ∧ ∃ v n,
      (∃ m, deserCompactSize s = .ok m (v ++ s')) ∧ Announces v n ∧ st = store n := by
  rw [Branch.read_count, check_bind_eq_ok, Reader.bind_eq_ok]
  simp only [Reader.bind_eq_ok, pure_apply, EStateM.Result.ok.injEq]
  constructor
  · rintro ⟨hc, m, s₁, hm, n, s₂, hn, rfl, rfl⟩
    obtain ⟨v, rfl, hv⟩ := deserCompactSize_eq_ok hn
    exact ⟨hc, v, n, ⟨m, hm⟩, hv, rfl⟩
  · rintro ⟨hc, v, n, ⟨m, hm⟩, hv, rfl⟩
    exact ⟨hc, m, _, hm, n, s', hv s', rfl, rfl⟩

section Record

variable {b : Branch σ} {rs : List MapRecord} {key : Bytes} {f : φ} {s s' : Bytes}

/-- A branch that returns has read a record that passes. -/
theorem Branch.Follows.of_read (h : b.Follows M Inv rs key f) {st : σ} (hread : b.read R s = .ok st s') :
    (M.keyShape f key ∧ M.Fresh rs key f) ∧ ∃ v, ReadsValue R (M.isCount f) s v s' ∧
      M.passes f v ∧ ¬M.breaks f v ∧ Inv ((key, v) :: rs) st := by
  cases b with
  | value check store =>
    obtain ⟨hcount, -, hcheck, hstore⟩ := h
    obtain ⟨hc, v, hv, hst⟩ := Branch.read_eq_ok_of_value.1 hread
    obtain ⟨-, hok, hinv⟩ := hstore v
    obtain ⟨hpass, hbreak⟩ := hok.1 ⟨st, hst⟩
    refine ⟨hcheck.1 hc, v, ?_, hpass, hbreak, hinv st hc hst⟩
    rwa [hcount]
  | count check store =>
    obtain ⟨hcount, -, hcheck, hstore⟩ := h
    obtain ⟨hc, v, n, hm, hv, rfl⟩ := Branch.read_eq_ok_of_count.1 hread
    obtain ⟨⟨hpass, hbreak⟩, hinv⟩ := hstore v
    refine ⟨hcheck.1 hc, v, ?_, hpass, hbreak, hinv n hc hv⟩
    rw [hcount]
    exact ⟨hm, n, hv⟩

/-- A record that passes is read by its branch. -/
theorem Branch.Follows.exists_read (h : b.Follows M Inv rs key f) {v : Bytes}
    (hshape : M.keyShape f key) (hfresh : M.Fresh rs key f) (hv : ReadsValue R (M.isCount f) s v s')
    (hpass : M.passes f v) (hbreak : ¬M.breaks f v) :
    ∃ st, b.read R s = .ok st s' ∧ Inv ((key, v) :: rs) st := by
  cases b with
  | value check store =>
    obtain ⟨hcount, -, hcheck, hstore⟩ := h
    obtain ⟨-, hok, hinv⟩ := hstore v
    obtain ⟨st, hst⟩ := hok.2 ⟨hpass, hbreak⟩
    have hc := hcheck.2 ⟨hshape, hfresh⟩
    rw [hcount] at hv
    exact ⟨st, Branch.read_eq_ok_of_value.2 ⟨hc, v, hv, hst⟩, hinv st hc hst⟩
  | count check store =>
    obtain ⟨hcount, -, hcheck, hstore⟩ := h
    obtain ⟨-, hinv⟩ := hstore v
    have hc := hcheck.2 ⟨hshape, hfresh⟩
    rw [hcount] at hv
    obtain ⟨hm, n, hn⟩ := hv
    exact ⟨store n, Branch.read_eq_ok_of_count.2 ⟨hc, v, n, hm, hn, rfl⟩, hinv n hc hn⟩

/-- A branch breaks off on the records whose key passes and whose value cannot be read or unpacked. -/
theorem Branch.Follows.raises_iff (h : b.Follows M Inv rs key f) :
    Raises Unexpected (b.read R) s ↔ (M.keyShape f key ∧ M.Fresh rs key f) ∧
      (BadValue R (M.isCount f) s ∨ ∃ v s', ReadsValue R (M.isCount f) s v s' ∧ M.breaks f v) := by
  cases b with
  | value check store =>
    obtain ⟨hcount, hescapes, hcheck, hstore⟩ := h
    rw [Branch.read_value, raises_check_bind hescapes, hcheck, hcount, raises_bind, raises_deserString]
    simp only [raises_ofExcept_iff, (hstore _).1]
    rfl
  | count check store =>
    obtain ⟨hcount, hescapes, hcheck, hstore⟩ := h
    have hno (v : Bytes) : ¬M.breaks f v := (hstore v).1.2
    rw [Branch.read_count, raises_check_bind hescapes, hcheck, hcount, raises_bind,
      raises_deserCompactSize]
    simp only [raises_bind_pure, raises_deserCompactSize, hno, and_false, exists_false, or_false]
    rfl

end Record

/-! ### The loop -/

variable {rs : List MapRecord} {st : σ}

theorem Follows.handleRecord_eq_ok (h : Follows M branch Inv) (hinv : Inv rs st) {key s s₁ s₂ : Bytes}
    {st₁ : σ} (hkey : nextKey R s = (some key, s₁))
    (hread : handleRecord R branch key (rs.map Prod.fst) st s₁ = .ok st₁ s₂) :
    ∃ f v, KeyPasses M R rs s key f s₁ ∧ ReadsValue R (M.isCount f) s₁ v s₂ ∧ M.passes f v ∧
      ¬M.breaks f v ∧ Inv ((key, v) :: rs) st₁ := by
  obtain ⟨hk, hne⟩ := nextKey_eq_some_iff.1 hkey
  obtain ⟨t, s', ht, hbranch⟩ := Reader.bind_eq_ok.1 hread
  obtain ⟨htype, rfl⟩ := ofExcept_eq_ok.1 ht
  obtain ⟨⟨hshape, hfresh⟩, v, hv, hpass, hbreak, hnext⟩ := (h hinv htype).of_read hbranch
  exact ⟨M.ofType t, v, ⟨hk, hne, ⟨t, htype, rfl⟩, hshape, hfresh⟩, hv, hpass, hbreak, hnext⟩

theorem Follows.exists_handleRecord (h : Follows M branch Inv) (hinv : Inv rs st) {key s s₁ s₂ v : Bytes}
    {f : φ} (hkey : KeyPasses M R rs s key f s₁) (hv : ReadsValue R (M.isCount f) s₁ v s₂)
    (hpass : M.passes f v) (hbreak : ¬M.breaks f v) : nextKey R s = (some key, s₁) ∧
      ∃ st₁, handleRecord R branch key (rs.map Prod.fst) st s₁ = .ok st₁ s₂ ∧
        Inv ((key, v) :: rs) st₁ := by
  obtain ⟨hk, hne, ⟨t, ht, rfl⟩, hshape, hfresh⟩ := hkey
  obtain ⟨st₁, hread, hnext⟩ := (h hinv ht).exists_read hshape hfresh hv hpass hbreak
  refine ⟨nextKey_eq_some_iff.2 ⟨hk, hne⟩, st₁, ?_, hnext⟩
  rw [handleRecord, ht]
  exact hread

theorem Follows.raises_handleRecord (h : Follows M branch Inv) (hinv : Inv rs st) {key s s₁ : Bytes}
    (hkey : nextKey R s = (some key, s₁)) :
    Raises Unexpected (handleRecord R branch key (rs.map Prod.fst) st) s₁ ↔ CutSize key ∨
      ∃ f, KeyPasses M R rs s key f s₁ ∧ (BadValue R (M.isCount f) s₁ ∨
        ∃ v s₂, ReadsValue R (M.isCount f) s₁ v s₂ ∧ M.breaks f v) := by
  obtain ⟨hk, hne⟩ := nextKey_eq_some_iff.1 hkey
  rw [handleRecord, raises_ofExcept_bind]
  refine or_congr (escapes_runOn.trans raises_deserCompactSize) ?_
  constructor
  · rintro ⟨t, ht, hread⟩
    obtain ⟨⟨hshape, hfresh⟩, hbad⟩ := (h hinv ht).raises_iff.1 hread
    exact ⟨M.ofType t, ⟨hk, hne, ⟨t, ht, rfl⟩, hshape, hfresh⟩, hbad⟩
  · rintro ⟨f, ⟨-, -, ⟨t, ht, rfl⟩, hshape, hfresh⟩, hbad⟩
    exact ⟨t, ht, (h hinv ht).raises_iff.2 ⟨⟨hshape, hfresh⟩, hbad⟩⟩

/-- A run of the loop goes through records that pass. -/
theorem Follows.of_run (h : Follows M branch Inv) {seen ks : List Bytes} {s s' : Bytes} {st' : σ}
    (hrun : ReadRun (nextKey R) (handleRecord R branch) st seen s ks st' s') (hinv : Inv rs st)
    (hseen : seen = rs.map Prod.fst) : ∃ rs', MapRead M R rs s rs' s' ∧ Inv rs' st' := by
  induction hrun generalizing rs with
  | stop hk => exact ⟨rs, .ends (nextKey_eq_none_iff.1 hk), hinv⟩
  | @step st seen s key s₁ st₁ s₂ ks st' s' hk hh _ ih =>
    subst hseen
    obtain ⟨f, v, hkey, hv, hpass, hbreak, hnext⟩ := h.handleRecord_eq_ok hinv hk hh
    obtain ⟨rs', hread, hend⟩ := ih hnext rfl
    exact ⟨rs', .record hkey hv hpass hbreak hread, hend⟩

/-- Records that pass are gone through by a run of the loop. -/
theorem Follows.exists_run (h : Follows M branch Inv) {s s' : Bytes} {rs' : List MapRecord}
    (hread : MapRead M R rs s rs' s') (hinv : Inv rs st) : ∃ ks st',
      ReadRun (nextKey R) (handleRecord R branch) st (rs.map Prod.fst) s ks st' s' ∧ Inv rs' st' := by
  induction hread generalizing st with
  | ends hend => exact ⟨[], st, .stop (nextKey_eq_none_iff.2 hend), hinv⟩
  | record hkey hv hpass hbreak _ ih =>
    obtain ⟨hk, st₁, hh, hnext⟩ := h.exists_handleRecord hinv hkey hv hpass hbreak
    obtain ⟨ks, st', hrun, hend⟩ := ih hnext
    exact ⟨_, st', .step hk hh hrun, hend⟩

/-- The loop reads a map exactly when its records pass, into an object that stands for them. -/
theorem Follows.readMap_eq_ok (h : Follows M branch Inv) (hinv : Inv [] st) {s s' : Bytes} {st' : σ}
    (hread : readMap R branch st s = .ok st' s') : ∃ rs, MapRead M R [] s rs s' ∧ Inv rs st' := by
  rw [readMap_eq, readLoop_eq_ok nextKey_advances shrinks_handleRecord (Nat.lt_succ_self _)] at hread
  obtain ⟨ks, hrun⟩ := hread
  exact h.of_run hrun hinv rfl

theorem Follows.exists_readMap (h : Follows M branch Inv) (hinv : Inv [] st) {s s' : Bytes}
    (hread : MapRead M R [] s rs s') : ∃ st', readMap R branch st s = .ok st' s' ∧ Inv rs st' := by
  obtain ⟨ks, st', hrun, hend⟩ := h.exists_run hread hinv
  refine ⟨st', ?_, hend⟩
  rw [readMap_eq, readLoop_eq_ok nextKey_advances shrinks_handleRecord (Nat.lt_succ_self _)]
  exact ⟨ks, hrun⟩

/-- A loop that gets to a record on which it breaks off has gone through records that pass. -/
theorem Follows.of_fault (h : Follows M branch Inv) {seen : List Bytes} {s : Bytes}
    (hfault : LoopFault (nextKey R) (handleRecord R branch)
      (fun key seen st => Raises Unexpected (handleRecord R branch key seen st)) st seen s)
    (hinv : Inv rs st) (hseen : seen = rs.map Prod.fst) : MapFault M R rs s := by
  induction hfault generalizing rs with
  | here hk hraise =>
    subst hseen
    rcases (h.raises_handleRecord hinv hk).1 hraise with hcut | ⟨f, hkey, hbad | ⟨v, s₂, hv, hbreak⟩⟩
    · exact .type (nextKey_eq_some_iff.1 hk).1 (nextKey_eq_some_iff.1 hk).2 hcut
    · exact .length hkey hbad
    · exact .value hkey hv hbreak
  | later hk hh _ ih =>
    subst hseen
    obtain ⟨f, v, hkey, hv, hpass, hbreak, hnext⟩ := h.handleRecord_eq_ok hinv hk hh
    exact .later hkey hv hpass hbreak (ih hnext rfl)

theorem Follows.fault (h : Follows M branch Inv) {s : Bytes} (hfault : MapFault M R rs s)
    (hinv : Inv rs st) : LoopFault (nextKey R) (handleRecord R branch)
      (fun key seen st => Raises Unexpected (handleRecord R branch key seen st)) st (rs.map Prod.fst) s := by
  induction hfault generalizing st with
  | type hkey hne hcut =>
    have hk := nextKey_eq_some_iff.2 ⟨hkey, hne⟩
    exact .here hk ((h.raises_handleRecord hinv hk).2 (Or.inl hcut))
  | length hkey hbad =>
    have hk := nextKey_eq_some_iff.2 ⟨hkey.read, hkey.ne_nil⟩
    exact .here hk ((h.raises_handleRecord hinv hk).2 (Or.inr ⟨_, hkey, Or.inl hbad⟩))
  | value hkey hv hbreak =>
    have hk := nextKey_eq_some_iff.2 ⟨hkey.read, hkey.ne_nil⟩
    exact .here hk ((h.raises_handleRecord hinv hk).2 (Or.inr ⟨_, hkey, Or.inr ⟨_, _, hv, hbreak⟩⟩))
  | later hkey hv hpass hbreak _ ih =>
    obtain ⟨hk, st₁, hh, hnext⟩ := h.exists_handleRecord hinv hkey hv hpass hbreak
    exact .later hk hh (ih hnext)

/-- The loop breaks off in the maps with a fault. -/
theorem Follows.raises_readMap (h : Follows M branch Inv) (hinv : Inv [] st) {s : Bytes} :
    Raises Unexpected (readMap R branch st) s ↔ MapFault M R [] s := by
  have hloop : Raises Unexpected (readLoop (nextKey R) (handleRecord R branch) (s.length + 1) st []) s ↔
      LoopFault (nextKey R) (handleRecord R branch)
        (fun key seen st => Raises Unexpected (handleRecord R branch key seen st)) st [] s :=
    raises_readLoop nextKey_advances shrinks_handleRecord (fun _ _ _ _ => Iff.rfl)
      (Nat.lt_succ_self s.length)
  exact hloop.trans ⟨fun hfault => h.of_fault hfault hinv rfl, fun hfault => h.fault hfault hinv⟩

end Hwi
