import Hwi.Lib.FieldStore
import Hwi.Proofs.Tx

/-! The record loop the three kinds of map share: what its runs read, and that
it reads back the records written for it. -/

namespace Hwi

open Reader

variable {R : Runtime} {σ : Type}

/-! ### Runs of the loop -/

/-- A record as the loop reads it: the length announced for the value and the
bytes taken as the value. -/
structure ReadRecord where
  key : Bytes
  announced : ℕ
  value : Bytes
deriving DecidableEq, Repr

/-- A branch reads the value of its record and stores it. -/
inductive BranchRun (R : Runtime) : Branch σ → Bytes → ℕ → Bytes → σ → Bytes → Prop
  | value {store s n s₁ st'} : deserCompactSize s = .ok n s₁ → Readable R n s₁ →
      store (s₁.take n) = .ok st' →
      BranchRun R (.value (.ok ()) store) s n (s₁.take n) st' (s₁.drop n)
  | count {store s n v s₂ m} : deserCompactSize s = .ok n (v ++ s₂) → Announces v m →
      BranchRun R (.count (.ok ()) store) s n v (store m) s₂

/-- The checks a branch makes before it reads the value. -/
def Branch.check : Branch σ → Except Exc Unit
  | .value check _ => check
  | .count check _ => check

theorem Branch.read_value (check : Except Exc Unit) (store : Bytes → Except Exc σ) :
    (Branch.value check store).read R = (Reader.ofExcept check >>= fun _ =>
      deserString R >>= fun v => Reader.ofExcept (store v)) := rfl

theorem Branch.read_count (check : Except Exc Unit) (store : ℕ → σ) :
    (Branch.count check store).read R = (Reader.ofExcept check >>= fun _ =>
      deserCompactSize >>= fun _ => deserCompactSize >>= fun n => pure (store n)) := rfl

theorem Branch.read_eq_ok {b : Branch σ} {s s' : Bytes} {st' : σ} :
    b.read R s = .ok st' s' ↔ ∃ n v, BranchRun R b s n v st' s' := by
  constructor
  · intro h
    cases b with
    | value check store =>
      rw [read_value, Reader.bind_eq_ok] at h
      obtain ⟨_, s₀, hc, h⟩ := h
      obtain ⟨rfl, rfl⟩ := ofExcept_eq_ok.1 hc
      obtain ⟨v, s₂, hv, h⟩ := Reader.bind_eq_ok.1 h
      obtain ⟨n, s₁, hn, hle, rfl, rfl⟩ := deserString_eq_ok_iff.1 hv
      obtain ⟨hst, rfl⟩ := ofExcept_eq_ok.1 h
      exact ⟨n, _, .value hn hle hst⟩
    | count check store =>
      rw [read_count, Reader.bind_eq_ok] at h
      obtain ⟨_, s₀, hc, h⟩ := h
      obtain ⟨rfl, rfl⟩ := ofExcept_eq_ok.1 hc
      obtain ⟨n, s₁, hn, h⟩ := Reader.bind_eq_ok.1 h
      obtain ⟨m, s₂, hm, hst⟩ := Reader.bind_eq_ok.1 h
      obtain ⟨v, rfl, hv⟩ := deserCompactSize_eq_ok hm
      cases hst
      exact ⟨n, v, .count hn hv⟩
  · rintro ⟨n, v, h⟩
    cases h with
    | @value store _ n s₁ _ hn hle hst =>
      have hread : deserString R s = .ok (s₁.take n) (s₁.drop n) :=
        deserString_eq_ok_iff.2 ⟨n, s₁, hn, hle, rfl, rfl⟩
      simp only [read_value, bind_apply, ofExcept_ok, pure_apply, hread, hst]
    | count hn hv =>
      simp only [read_count, bind_apply, ofExcept_ok, pure_apply, hn]
      rw [hv s']

variable {branch : Bytes → List Bytes → σ → ℕ → Branch σ}

/-- The runs of `readMap` that end normally: the records read, the stream as it
is when the loop asks for the last key, and the stream after it. -/
inductive MapRun (R : Runtime) (branch : Bytes → List Bytes → σ → ℕ → Branch σ) :
    σ → List Bytes → Bytes → List ReadRecord → Bytes → σ → Bytes → Prop
  | stop {st seen s s'} : nextKey R s = (none, s') → MapRun R branch st seen s [] s st s'
  | record {st seen s key t s₁ n v st₁ s₂ rs stop st' s'} : nextKey R s = (some key, s₁) →
      runOn deserCompactSize key = .ok t → BranchRun R (branch key seen st t) s₁ n v st₁ s₂ →
      MapRun R branch st₁ (key :: seen) s₂ rs stop st' s' →
      MapRun R branch st seen s (⟨key, n, v⟩ :: rs) stop st' s'

/-- The body of the loop. -/
def handleRecord (R : Runtime) (branch : Bytes → List Bytes → σ → ℕ → Branch σ) (key : Bytes)
    (keyLookup : List Bytes) (self : σ) : Read σ := do
  let keyType ← Reader.ofExcept (runOn deserCompactSize key)
  (branch key keyLookup self keyType).read R

theorem readMap_eq (st : σ) (s : Bytes) :
    readMap R branch st s = readLoop (nextKey R) (handleRecord R branch) (s.length + 1) st [] s := rfl

theorem handleRecord_eq_ok {key : Bytes} {seen : List Bytes} {st st' : σ} {s s' : Bytes} :
    handleRecord R branch key seen st s = .ok st' s' ↔ ∃ t n v,
      runOn deserCompactSize key = .ok t ∧ BranchRun R (branch key seen st t) s n v st' s' := by
  constructor
  · intro h
    rw [handleRecord, Reader.bind_eq_ok] at h
    obtain ⟨t, s₁, ht, h⟩ := h
    obtain ⟨hkey, rfl⟩ := ofExcept_eq_ok.1 ht
    obtain ⟨n, v, hb⟩ := Branch.read_eq_ok.1 h
    exact ⟨t, n, v, hkey, hb⟩
  · rintro ⟨t, n, v, ht, hb⟩
    rw [handleRecord, ht]
    exact Branch.read_eq_ok.2 ⟨n, v, hb⟩

theorem shrinks_branch_read (b : Branch σ) : Shrinks (b.read R) := by
  cases b with
  | value check store =>
    exact (shrinks_ofExcept check).bind fun _ => (shrinks_deserString R).bind fun v =>
      shrinks_ofExcept (store v)
  | count check store =>
    exact (shrinks_ofExcept check).bind fun _ => shrinks_deserCompactSize.bind fun _ =>
      shrinks_deserCompactSize.bind fun n => shrinks_pure (store n)

theorem shrinks_handleRecord (key : Bytes) (seen : List Bytes) (st : σ) :
    Shrinks (handleRecord R branch key seen st) :=
  (shrinks_ofExcept _).bind fun t => shrinks_branch_read (branch key seen st t)

theorem nextKey_eq_some {s s' key : Bytes} (h : nextKey R s = (some key, s')) :
    deserString R s = .ok key s' ∧ key ≠ [] := by
  unfold nextKey at h
  cases hd : deserString R s with
  | ok k f =>
    rw [hd] at h
    dsimp only at h
    split_ifs at h with hlen
    · cases h
    · rw [Prod.mk.injEq, Option.some.injEq] at h
      obtain ⟨rfl, rfl⟩ := h
      exact ⟨rfl, fun hk => hlen (by rw [hk]; rfl)⟩
  | error e f =>
    rw [hd] at h
    cases h

theorem nextKey_advances : KeyAdvances (nextKey R) := by
  intro s key s' h
  obtain ⟨hd, -⟩ := nextKey_eq_some h
  obtain ⟨p, n, s₁, rfl, hp, -, -, rfl⟩ := deserString_eq_ok hd
  have hpos := List.length_pos_iff.2 hp.ne_nil
  simp only [List.length_drop, List.length_append]
  omega

theorem MapRun.of_readRun {st st' : σ} {seen ks : List Bytes} {s s' : Bytes}
    (h : ReadRun (nextKey R) (handleRecord R branch) st seen s ks st' s') :
    ∃ rs stop, MapRun R branch st seen s rs stop st' s' := by
  induction h with
  | stop hk => exact ⟨[], _, .stop hk⟩
  | step hk hh _ ih =>
    obtain ⟨t, n, v, ht, hb⟩ := handleRecord_eq_ok.1 hh
    obtain ⟨rs, stop, hrun⟩ := ih
    exact ⟨_, stop, .record hk ht hb hrun⟩

theorem MapRun.readRun {st st' : σ} {seen : List Bytes} {s s' stop : Bytes} {rs : List ReadRecord}
    (h : MapRun R branch st seen s rs stop st' s') :
    ReadRun (nextKey R) (handleRecord R branch) st seen s (rs.map ReadRecord.key) st' s' := by
  induction h with
  | stop hk => exact .stop hk
  | record hk ht hb _ ih => exact .step hk (handleRecord_eq_ok.2 ⟨_, _, _, ht, hb⟩) ih

/-- The loop ends normally exactly when it has a run. -/
theorem readMap_eq_ok {st st' : σ} {s s' : Bytes} :
    readMap R branch st s = .ok st' s' ↔ ∃ rs stop, MapRun R branch st [] s rs stop st' s' := by
  rw [readMap_eq, readLoop_eq_ok nextKey_advances shrinks_handleRecord (Nat.lt_succ_self _)]
  constructor
  · rintro ⟨ks, h⟩
    exact MapRun.of_readRun h
  · rintro ⟨rs, stop, h⟩
    exact ⟨_, h.readRun⟩

/-! ### Reading back the records that were written -/

/-- The branch stores the value `v` of a record without an error. -/
inductive Branch.Takes : Branch σ → Bytes → σ → Prop
  | value {store v st'} : store v = .ok st' → Takes (.value (.ok ()) store) v st'
  | count {store m} : m < 2 ^ 64 → Takes (.count (.ok ()) store) (serCompactSize m) (store m)

/-- The records are stored one after the other without an error. -/
inductive Accepts (branch : Bytes → List Bytes → σ → ℕ → Branch σ) :
    σ → List Bytes → List MapRecord → σ → Prop
  | nil {st seen} : Accepts branch st seen [] st
  | cons {st seen key value t st₁ rs st'} : runOn deserCompactSize key = .ok t →
      (branch key seen st t).Takes value st₁ → Accepts branch st₁ (key :: seen) rs st' →
      Accepts branch st seen ((key, value) :: rs) st'

theorem Branch.Takes.exactly_read {b : Branch σ} {v : Bytes} {st' : σ} (h : b.Takes v st')
    (hv : v.length ≤ maxBytes) : Exactly (b.read R) (serString v) st' := by
  cases h with
  | value hst =>
    rename_i store
    intro rest
    have hread : deserString R (serString v ++ rest) = .ok v rest := exactly_deserString hv rest
    simp only [Branch.read, bind_apply, ofExcept_ok, pure_apply, hread, hst]
  | count hm =>
    exact (exactly_deserCompactSize (hv.trans_lt maxBytes_lt)).bind
      (exactly_deserCompactSize hm).bind_pure

theorem nextKey_serString {key : Bytes} (h : key ≠ []) (hsize : key.length ≤ maxBytes)
    (rest : Bytes) : nextKey R (serString key ++ rest) = (some key, rest) := by
  rw [nextKey, exactly_deserString hsize]
  exact if_neg (by simpa using h)

theorem nextKey_separator (rest : Bytes) : nextKey R (0x00 :: rest) = (none, rest) := by
  have h : deserString R (serString [] ++ rest) = .ok [] rest := exactly_deserString (by decide) rest
  change nextKey R (serString [] ++ rest) = _
  rw [nextKey, h]
  rfl

theorem Accepts.readLoop {st st' : σ} {seen : List Bytes} {rs : List MapRecord} {rest : Bytes}
    (h : Accepts branch st seen rs st') (hfits : ∀ r ∈ rs, RecordFits r) {n : ℕ}
    (hn : (mapBytes rs ++ rest).length < n) :
    Hwi.readLoop (nextKey R) (handleRecord R branch) n st seen (mapBytes rs ++ rest) = .ok st' rest := by
  induction h generalizing n with
  | nil =>
    obtain ⟨m, rfl⟩ := Nat.exists_eq_add_of_lt (Nat.zero_lt_of_lt hn)
    have hkey : nextKey R (mapBytes [] ++ rest) = (none, rest) := nextKey_separator rest
    rw [Nat.zero_add, readLoop_succ, hkey]
  | @cons st seen key value t st₁ rs st' ht htakes _ ih =>
    obtain ⟨hkey, hks, hvs⟩ := hfits _ List.mem_cons_self
    obtain ⟨m, rfl⟩ := Nat.exists_eq_add_of_lt (Nat.zero_lt_of_lt hn)
    have hbytes : mapBytes ((key, value) :: rs) ++ rest =
        serString key ++ (serString value ++ (mapBytes rs ++ rest)) := by
      simp [mapBytes, serRecord, List.append_assoc]
    have hpos : 0 < key.length := List.length_pos_iff.2 hkey
    have hserString : (serString key).length = (serCompactSize key.length).length + key.length :=
      List.length_append
    rw [hbytes] at hn ⊢
    rw [Nat.zero_add, readLoop_succ, nextKey_serString hkey hks]
    have hbranch : handleRecord R branch key seen st (serString value ++ (mapBytes rs ++ rest)) =
        .ok st₁ (mapBytes rs ++ rest) := by
      rw [handleRecord, ht]
      exact htakes.exactly_read hvs _
    dsimp only
    rw [bind_apply, hbranch]
    refine ih (fun r hr => hfits r (List.mem_cons_of_mem _ hr)) ?_
    simp only [List.length_append] at hn ⊢
    omega

/-- Records that are accepted one after the other are read back from their bytes. -/
theorem Accepts.exactly_readMap {st st' : σ} {rs : List MapRecord}
    (h : Accepts branch st [] rs st') (hfits : ∀ r ∈ rs, RecordFits r) :
    Exactly (readMap R branch st) (mapBytes rs) st' := by
  intro rest
  rw [readMap_eq]
  exact h.readLoop hfits (Nat.lt_succ_self _)

/-! ### Maps of entries -/

/-- A kind of map: the store of entries its object is, the record of an entry,
the entry a record is read as, and that the branches of its loop agree. -/
structure MapFormat (R : Runtime) (σ ε φ : Type) [DecidableEq ε] where
  store : FieldStore σ ε φ ε
  branch : Bytes → List Bytes → σ → ℕ → Branch σ
  key : ε → Bytes
  value : ε → Bytes
  stored : ε → ε
  ofRecord : ℕ → Bytes → Bytes → Option ε
  Valid : σ → ε → Prop
  valid_add : ∀ {s a e}, Valid s e → Valid (store.add s a) e
  key_of_slot : ∀ {a b}, store.slot a = store.slot b → key a = key b
  key_stored : ∀ e, key (stored e) = key e
  null_stored : ∀ {s e}, Valid s e → store.null (stored e) = false
  takes : ∀ {seen s e}, Valid s e → key e ∉ seen → (∀ a ∈ store.held s, key a ≠ key e) →
    ∃ t, runOn deserCompactSize (key e) = .ok t ∧
      (branch (key e) seen s t).Takes (value e) (store.add s (stored e))
  reads : ∀ {key seen s t f n v s' f'}, BranchRun R (branch key seen s t) f n v s' f' →
    ∃ e, ofRecord t key v = some e ∧ s' = store.add s e

namespace MapFormat

variable {ε φ : Type} [DecidableEq ε] (M : MapFormat R σ ε φ)

def record (e : ε) : MapRecord := (M.key e, M.value e)

/-- The entries the records of a run are read as. -/
def Reads (r : ReadRecord) (e : ε) : Prop :=
  ∃ t, runOn deserCompactSize r.key = .ok t ∧ M.ofRecord t r.key r.value = some e

/-- The object at the end of a run has the entries of its records added. -/
theorem exists_entries {s s' : σ} {seen : List Bytes} {f f' stop : Bytes} {rs : List ReadRecord}
    (h : MapRun R M.branch s seen f rs stop s' f') :
    ∃ es, List.Forall₂ M.Reads rs es ∧ s' = M.store.addAll s es := by
  induction h with
  | stop => exact ⟨[], .nil, rfl⟩
  | record _ ht hb _ ih =>
    obtain ⟨e, he, rfl⟩ := M.reads hb
    obtain ⟨es, hes, rfl⟩ := ih
    exact ⟨e :: es, .cons ⟨_, ht, he⟩ hes, rfl⟩

/-- Entries that may be added to an object one after the other. -/
structure Addable (s : σ) (es : List ε) : Prop where
  valid : ∀ e ∈ es, M.Valid s e
  nodup : (es.map M.key).Nodup
  fresh : ∀ e ∈ es, ∀ a ∈ M.store.held s, M.key a ≠ M.key e

variable {M}

theorem slot_fresh {s : σ} {e : ε} (h : ∀ a ∈ M.store.held s, M.key a ≠ M.key e) :
    M.store.slot (M.stored e) ∉ (M.store.held s).map M.store.slot := by
  intro hmem
  obtain ⟨a, ha, hslot⟩ := List.mem_map.1 hmem
  exact h a ha ((M.key_of_slot hslot).trans (M.key_stored e))

theorem Addable.tail {s : σ} {e : ε} {es : List ε} (h : M.Addable s (e :: es)) :
    M.Addable (M.store.add s (M.stored e)) es where
  valid a ha := M.valid_add (h.valid a (List.mem_cons_of_mem _ ha))
  nodup := (List.nodup_cons.1 h.nodup).2
  fresh a ha b hb := by
    have hadd := M.store.held_add_of_fresh (M.null_stored (h.valid e List.mem_cons_self))
      (slot_fresh (h.fresh e List.mem_cons_self))
    rcases List.mem_cons.1 (hadd.mem_iff.1 hb) with rfl | hb
    · rw [M.key_stored]
      intro heq
      exact (List.nodup_cons.1 h.nodup).1 (heq ▸ List.mem_map_of_mem ha)
    · exact h.fresh a (List.mem_cons_of_mem _ ha) b hb

/-- Valid entries with distinct new keys are accepted one after the other. -/
theorem Addable.accepts {s : σ} {es : List ε} (h : M.Addable s es) {seen : List Bytes}
    (hseen : ∀ e ∈ es, M.key e ∉ seen) :
    Accepts M.branch s seen (es.map M.record) (M.store.addAll s (es.map M.stored)) := by
  induction es generalizing s seen with
  | nil => exact .nil
  | cons e es ih =>
    obtain ⟨t, ht, htakes⟩ := M.takes (h.valid e List.mem_cons_self) (hseen e List.mem_cons_self)
      (h.fresh e List.mem_cons_self)
    refine .cons ht htakes (ih h.tail fun a ha hmem => ?_)
    rcases List.mem_cons.1 hmem with heq | hmem
    · exact (List.nodup_cons.1 h.nodup).1 (heq ▸ List.mem_map_of_mem ha)
    · exact hseen a (List.mem_cons_of_mem _ ha) hmem

/-- The entries are what the object holds afterwards. -/
theorem Addable.held {s : σ} {es : List ε} (h : M.Addable s es) :
    (M.store.held (M.store.addAll s (es.map M.stored))).Perm
      (es.map M.stored ++ M.store.held s) := by
  induction es generalizing s with
  | nil => rfl
  | cons e es ih =>
    have hadd := M.store.held_add_of_fresh (M.null_stored (h.valid e List.mem_cons_self))
      (slot_fresh (h.fresh e List.mem_cons_self))
    exact ((ih h.tail).trans (hadd.append_left _)).trans List.perm_middle

/-- A map written entry by entry is read back as these entries. -/
theorem Addable.exactly_readMap {s : σ} {es : List ε} (h : M.Addable s es)
    (hfits : ∀ e ∈ es, RecordFits (M.record e)) :
    Exactly (readMap R M.branch s) (mapBytes (es.map M.record))
      (M.store.addAll s (es.map M.stored)) := by
  refine (h.accepts fun e _ => List.not_mem_nil).exactly_readMap fun r hr => ?_
  obtain ⟨e, he, rfl⟩ := List.mem_map.1 hr
  exact hfits e he

end MapFormat

end Hwi
