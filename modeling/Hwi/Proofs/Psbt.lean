import Hwi.Format.Psbt
import Hwi.Proofs.Global

/-! Reading a whole PSBT: its maps from their canonical bytes, and the parts of
any run of `deserialize`. -/

namespace Hwi

open Reader

/-! ### Loops over the maps -/

theorem readWhile_succ {α : Type} (item : ℕ → Read α) (n i : ℕ) (f : Bytes) :
    PSBT.readWhile item (n + 1) i f = if f = [] then .ok [] f
      else (item i >>= fun a => PSBT.readWhile item n (i + 1) >>= fun rest => pure (a :: rest)) f :=
  rfl

/-- Maps written one after the other are read one after the other, each by the
reader of its index. -/
theorem exactly_readWhile {α β : Type} {item : ℕ → Read β} {enc : α → Bytes} {val : α → β}
    {l : List α} {i : ℕ} (hne : ∀ a ∈ l, enc a ≠ [])
    (h : ∀ (j : ℕ) a, l[j]? = some a → Exactly (item (i + j)) (enc a) (val a)) :
    Exactly (PSBT.readWhile item l.length i) (l.flatMap enc) (l.map val) := by
  induction l generalizing i with
  | nil => exact exactly_pure []
  | cons a t ih =>
    intro rest
    have ha : Exactly (item i) (enc a) (val a) := h 0 a rfl
    have ht : Exactly (PSBT.readWhile item t.length (i + 1)) (t.flatMap enc) (t.map val) :=
      ih (fun b hb => hne b (List.mem_cons_of_mem _ hb)) fun j b hb => by
        have hj := h (j + 1) b hb
        rwa [Nat.add_comm j 1, ← Nat.add_assoc] at hj
    have hstream : (a :: t).flatMap enc ++ rest ≠ [] := by
      have := hne a List.mem_cons_self
      simp [this]
    rw [List.length_cons, readWhile_succ, if_neg hstream]
    exact (ha.bind ht.bind_pure) rest

theorem updateEach_ok {α β : Type} (update : α → β → α) {l : List α} {l' : List β}
    (h : l.length = l'.length) : PSBT.updateEach update l l' = .ok (List.zipWith update l l') := by
  induction l generalizing l' with
  | nil =>
    obtain rfl := List.length_eq_zero_iff.1 h.symm
    rfl
  | cons a t ih =>
    cases l' with
    | nil => simp at h
    | cons b t' =>
      rw [PSBT.updateEach, ih (by simpa using h)]
      rfl

namespace PSBT

/-- A version 0 PSBT with the fields of its global transaction filled in. -/
def filled (p : PSBT) : PSBT :=
  { p with
    txVersion := some p.tx.nVersion, fallbackLocktime := some p.tx.nLockTime
    inputs := List.zipWith setupInput p.inputs p.tx.vin
    outputs := List.zipWith setupOutput p.outputs p.tx.vout }

theorem cacheUnsignedTxPieces_ok {p : PSBT} (hv : p.version = 0)
    (hin : p.inputs.length = p.tx.vin.length) (hout : p.outputs.length = p.tx.vout.length) :
    p.cacheUnsignedTxPieces = .ok p.filled := by
  rw [cacheUnsignedTxPieces, if_pos hv, setupFromTx, updateEach_ok _ hin, ok_bind,
    updateEach_ok _ hout]
  rfl

theorem cacheUnsignedTxPieces_of_ne {p : PSBT} (hv : p.version ≠ 0) :
    p.cacheUnsignedTxPieces = .ok p := if_neg hv

end PSBT

/-! ### Input maps -/

namespace InputEntry

theorem stored_of_field {R : Runtime} {e : InputEntry} (h : e.field ≠ .nonWitnessUtxo) :
    e.stored R = e := by
  cases e <;> first | rfl | exact absurd rfl h

theorem mem_map_stored {R : Runtime} {es : List InputEntry} {e : InputEntry}
    (h : e.field ≠ .nonWitnessUtxo) : e ∈ es.map (stored R) ↔ e ∈ es := by
  rw [List.mem_map]
  constructor
  · rintro ⟨a, ha, rfl⟩
    rw [field_stored] at h
    rwa [stored_of_field h]
  · exact fun he => ⟨e, he, stored_of_field h⟩

end InputEntry

namespace PartiallySignedInput

/-- The input read from a map of these entries. -/
def ofEntries (R : Runtime) (version : ℕ) (es : List InputEntry) : PartiallySignedInput :=
  store.addAll { version } (es.map (InputEntry.stored R))

@[simp] theorem ofEntries_version (R : Runtime) (version : ℕ) (es : List InputEntry) :
    (ofEntries R version es).version = version :=
  store.addAll_invariant (P := fun s => s.version = version)
    (fun s e hs => (add_version s e).trans hs) rfl _

theorem addable {R : Runtime} {version : ℕ} {es : List InputEntry}
    (h : PsbtMaps.MapCanonical InputEntry.Valid InputEntry.record es)
    (hver : ∀ e ∈ es, e.field.isV2 → version ≠ 0) : (format R).Addable { version } es where
  valid e he := ⟨h.valid e he, hver e he⟩
  nodup := h.nodup
  fresh _ _ _ ha := absurd ha List.not_mem_nil

theorem held_ofEntries {R : Runtime} {version : ℕ} {es : List InputEntry}
    (h : PsbtMaps.MapCanonical InputEntry.Valid InputEntry.record es)
    (hver : ∀ e ∈ es, e.field.isV2 → version ≠ 0) :
    (store.held (ofEntries R version es)).Perm (es.map (InputEntry.stored R)) := by
  have hheld := (addable (R := R) h hver).held
  exact hheld.trans (List.Perm.of_eq (List.append_nil _))

theorem prevTxid_of_mem_held {self : PartiallySignedInput} {txid : Bytes}
    (h : InputEntry.prevTxid txid ∈ store.held self) : self.prevTxid = txid ∧ txid ≠ [] := by
  obtain ⟨hne, heq⟩ := mem_listEntries.1 (store.mem_held.1 h)
  cases heq
  exact ⟨rfl, hne⟩

theorem prevOut_of_mem_held {self : PartiallySignedInput} {n : ℕ}
    (h : InputEntry.prevOut n ∈ store.held self) : self.prevOut = some n := by
  obtain ⟨m, hm, heq⟩ := mem_optionEntries.1 (store.mem_held.1 h)
  cases heq
  exact hm

theorem nonWitnessUtxo_mem_held {self : PartiallySignedInput} {tx : CTransaction} :
    InputEntry.nonWitnessUtxo tx ∈ store.held self ↔ self.nonWitnessUtxo = some tx := by
  refine store.mem_held.trans (mem_optionEntries.trans ?_)
  constructor
  · rintro ⟨a, ha, heq⟩
    cases heq
    exact ha
  · exact fun h => ⟨tx, h, rfl⟩

/-- Whether an input map says what its version asks for. -/
structure Complete (R : Runtime) (version : ℕ) (es : List InputEntry) : Prop where
  canonical : PsbtMaps.MapCanonical InputEntry.Valid InputEntry.record es
  v0 : ∀ e ∈ es, e.field.isV2 → version ≠ 0
  prevTxid : version ≥ 2 → ∃ txid, InputEntry.prevTxid txid ∈ es
  prevOut : version ≥ 2 → ∃ n, InputEntry.prevOut n ∈ es

variable {R : Runtime} {version : ℕ} {es : List InputEntry}

theorem Complete.mem_held (h : Complete R version es) {e : InputEntry}
    (hf : e.field ≠ .nonWitnessUtxo) : e ∈ store.held (ofEntries R version es) ↔ e ∈ es :=
  (held_ofEntries h.canonical h.v0).mem_iff.trans (InputEntry.mem_map_stored hf)

theorem Complete.requireV2 (h : Complete R version es) :
    (ofEntries R version es).requireV2 = .ok () := by
  unfold PartiallySignedInput.requireV2
  rw [ofEntries_version]
  split_ifs with hv hlen hout
  · obtain ⟨txid, hmem⟩ := h.prevTxid hv
    obtain ⟨htxid, hne⟩ := prevTxid_of_mem_held ((h.mem_held (by rintro ⟨⟩)).2 hmem)
    rw [htxid] at hlen
    exact absurd (List.length_eq_zero_iff.1 hlen) hne
  · obtain ⟨n, hmem⟩ := h.prevOut hv
    rw [prevOut_of_mem_held ((h.mem_held (by rintro ⟨⟩)).2 hmem)] at hout
    cases hout
  · rfl
  · rfl

theorem Complete.exactly_deserialize (h : Complete R version es) :
    Exactly (PartiallySignedInput.deserialize R { version }) (mapBytes (es.map InputEntry.record))
      (ofEntries R version es) := by
  rw [PartiallySignedInput.deserialize]
  exact Exactly.bind_nil ((addable h.canonical h.v0).exactly_readMap h.canonical.fits)
    (Exactly.ofExcept_bind h.requireV2 (exactly_pure _))

/-- A UTXO with the right id passes the check and is left as it is. -/
theorem Complete.checkUtxoHash (h : Complete R version es) {txid : Bytes}
    (hutxo : ∀ utxo, InputEntry.nonWitnessUtxo utxo ∈ es → R.hash256 utxo.bytes = txid) :
    PSBT.checkUtxoHash R txid (ofEntries R version es) = .ok (ofEntries R version es) := by
  unfold PSBT.checkUtxoHash
  cases hn : (ofEntries R version es).nonWitnessUtxo with
  | none => rfl
  | some tx =>
    obtain ⟨e, he, hstored⟩ := List.mem_map.1 ((held_ofEntries h.canonical h.v0).mem_iff.1
      (nonWitnessUtxo_mem_held.2 hn))
    cases e with
    | nonWitnessUtxo utxo =>
      obtain rfl : utxo.asRead.hashed R = tx := by simpa [InputEntry.stored] using hstored
      have hvalid := (h.canonical.valid _ he).1
      have hrehash : (utxo.asRead.hashed R).rehash R = .ok (utxo.asRead.hashed R) :=
        CTransaction.rehash_rehash (CTransaction.rehash_ok (CTransaction.asRead_valid hvalid).onWire)
      have hhash : (utxo.asRead.hashed R).hash = some txid := by
        rw [← hutxo utxo he]
        rfl
      simp only [hrehash, ok_bind, hhash, ne_eq, not_true_eq_false, if_false, ← hn]
      rfl
    | _ => cases hstored

theorem Complete.exactly_readInput (h : Complete R version es) {psbt : PSBT} {i : ℕ} {txid : Bytes}
    (hversion : psbt.version = version)
    (htxid : PSBT.prevTxid psbt i (ofEntries R version es) = .ok txid)
    (hutxo : ∀ utxo, InputEntry.nonWitnessUtxo utxo ∈ es → R.hash256 utxo.bytes = txid) :
    Exactly (PSBT.readInput R psbt i) (mapBytes (es.map InputEntry.record)) (ofEntries R version es) := by
  rw [PSBT.readInput, hversion]
  exact Exactly.bind_nil h.exactly_deserialize
    (Exactly.ofExcept_bind htxid (exactly_ofExcept (h.checkUtxoHash hutxo)))

end PartiallySignedInput

/-! ### Output maps -/

namespace PartiallySignedOutput

/-- The output read from a map of these entries. -/
def ofEntries (version : ℕ) (es : List OutputEntry) : PartiallySignedOutput :=
  store.addAll { version } es

@[simp] theorem ofEntries_version (version : ℕ) (es : List OutputEntry) :
    (ofEntries version es).version = version :=
  store.addAll_invariant (P := fun s => s.version = version)
    (fun s e hs => (add_version s e).trans hs) rfl _

/-- Whether an output map says what its version asks for. -/
structure Complete (version : ℕ) (es : List OutputEntry) : Prop where
  canonical : PsbtMaps.MapCanonical OutputEntry.Valid OutputEntry.record es
  v0 : ∀ e ∈ es, e.field.isV2 → version ≠ 0
  amount : version ≥ 2 → ∃ n, OutputEntry.amount n ∈ es
  script : version ≥ 2 → ∃ s, OutputEntry.script s ∈ es

theorem amount_of_mem_held {self : PartiallySignedOutput} {n : ℤ}
    (h : OutputEntry.amount n ∈ store.held self) : self.amount = some n := by
  obtain ⟨m, hm, heq⟩ := mem_optionEntries.1 (store.mem_held.1 h)
  cases heq
  exact hm

theorem script_of_mem_held {self : PartiallySignedOutput} {s : Bytes}
    (h : OutputEntry.script s ∈ store.held self) : self.script = s ∧ s ≠ [] := by
  obtain ⟨hne, heq⟩ := mem_listEntries.1 (store.mem_held.1 h)
  cases heq
  exact ⟨rfl, hne⟩

variable {version : ℕ} {es : List OutputEntry}

theorem Complete.addable (h : Complete version es) (R : Runtime) : (format R).Addable { version } es where
  valid e he := ⟨h.canonical.valid e he, h.v0 e he⟩
  nodup := h.canonical.nodup
  fresh _ _ _ ha := absurd ha List.not_mem_nil

theorem Complete.held (h : Complete version es) : (store.held (ofEntries version es)).Perm es := by
  have hheld := (h.addable Runtime.zeros).held
  rw [show es.map (format Runtime.zeros).stored = es from List.map_id es] at hheld
  exact hheld.trans (List.Perm.of_eq (List.append_nil _))

theorem Complete.requireV2 (h : Complete version es) : (ofEntries version es).requireV2 = .ok () := by
  unfold PartiallySignedOutput.requireV2
  rw [ofEntries_version]
  split_ifs with hv hamount hlen
  · obtain ⟨n, hmem⟩ := h.amount hv
    rw [amount_of_mem_held (h.held.mem_iff.2 hmem)] at hamount
    cases hamount
  · obtain ⟨s, hmem⟩ := h.script hv
    obtain ⟨hs, hne⟩ := script_of_mem_held (h.held.mem_iff.2 hmem)
    rw [hs] at hlen
    exact absurd (List.length_eq_zero_iff.1 hlen) hne
  · rfl
  · rfl

theorem Complete.exactly_deserialize (h : Complete version es) (R : Runtime) :
    Exactly (PartiallySignedOutput.deserialize R { version }) (mapBytes (es.map OutputEntry.record))
      (ofEntries version es) := by
  have hread := (h.addable R).exactly_readMap h.canonical.fits
  rw [show es.map (format R).stored = es from List.map_id es] at hread
  rw [PartiallySignedOutput.deserialize]
  exact Exactly.bind_nil hread (Exactly.ofExcept_bind h.requireV2 (exactly_pure _))

end PartiallySignedOutput

/-! ### The global map -/

namespace GlobalEntry

theorem stored_of_field {e : GlobalEntry} (h : e.field ≠ .unsignedTx) : e.stored = e := by
  cases e <;> first | rfl | exact absurd rfl h

@[simp] theorem field_stored (e : GlobalEntry) : e.stored.field = e.field := by cases e <;> rfl

theorem mem_map_stored {es : List GlobalEntry} {e : GlobalEntry} (h : e.field ≠ .unsignedTx) :
    e ∈ es.map stored ↔ e ∈ es := by
  rw [List.mem_map]
  constructor
  · rintro ⟨a, ha, rfl⟩
    rw [field_stored] at h
    rwa [stored_of_field h]
  · exact fun he => ⟨e, he, stored_of_field h⟩

end GlobalEntry

namespace PSBT.Global

/-- The object at the end of the global loop over a map of these entries. -/
def ofEntries (es : List GlobalEntry) : Global := store.addAll { psbt := {} } (es.map GlobalEntry.stored)

/-- What the global loop leaves alone, and the version it starts with. -/
structure Untouched (g : Global) : Prop where
  inputs : g.psbt.inputs = []
  outputs : g.psbt.outputs = []
  version : g.psbt.explicitVersion = false → g.psbt.version = 0

theorem untouched_addAll (es : List GlobalEntry) :
    Untouched (store.addAll { psbt := {} } es) := by
  refine store.addAll_invariant (fun g e hg => ?_) ⟨rfl, rfl, fun _ => rfl⟩ es
  obtain ⟨hin, hout, hver⟩ := hg
  cases e <;> first
    | exact ⟨hin, hout, hver⟩
    | exact ⟨hin, hout, fun h => by cases h⟩

section Fields

variable {g : Global}

theorem unsignedTx_mem_held {tx : CTransaction} :
    GlobalEntry.unsignedTx tx ∈ store.held g ↔ g.foundUnsignedTx = true ∧ g.psbt.tx = tx := by
  refine store.mem_held.trans ?_
  change _ ∈ (if g.foundUnsignedTx then _ else _) ↔ _
  split_ifs with h <;> simp [h, eq_comm]

theorem version_mem_held {n : ℕ} :
    GlobalEntry.version n ∈ store.held g ↔ g.psbt.explicitVersion = true ∧ g.psbt.version = n := by
  refine store.mem_held.trans ?_
  change _ ∈ (if g.psbt.explicitVersion then _ else _) ↔ _
  split_ifs with h <;> simp [h, eq_comm]

theorem txVersion_mem_held {n : ℤ} :
    GlobalEntry.txVersion n ∈ store.held g ↔ g.psbt.txVersion = some n := by
  refine store.mem_held.trans (mem_optionEntries.trans ?_)
  simp

theorem fallbackLocktime_mem_held {n : ℕ} :
    GlobalEntry.fallbackLocktime n ∈ store.held g ↔ g.psbt.fallbackLocktime = some n := by
  refine store.mem_held.trans (mem_optionEntries.trans ?_)
  simp

theorem inputCount_mem_held {n : ℕ} :
    GlobalEntry.inputCount n ∈ store.held g ↔ g.inputCount = some n := by
  refine store.mem_held.trans (mem_optionEntries.trans ?_)
  simp

theorem outputCount_mem_held {n : ℕ} :
    GlobalEntry.outputCount n ∈ store.held g ↔ g.outputCount = some n := by
  refine store.mem_held.trans (mem_optionEntries.trans ?_)
  simp

theorem txModifiable_mem_held {n : ℕ} :
    GlobalEntry.txModifiable n ∈ store.held g ↔ g.psbt.txModifiable = some n := by
  refine store.mem_held.trans (mem_optionEntries.trans ?_)
  simp

end Fields

/-- What `checkVersion` asks of version 0. -/
@[mk_iff] structure OkV0 (g : Global) : Prop where
  foundUnsignedTx : g.foundUnsignedTx = true
  txVersion : g.psbt.txVersion = none
  fallbackLocktime : g.psbt.fallbackLocktime = none
  inputCount : g.inputCount = none
  outputCount : g.outputCount = none
  txModifiable : g.psbt.txModifiable = none

/-- What `checkVersion` asks of version 2 and above. -/
@[mk_iff] structure OkV2 (g : Global) : Prop where
  txVersion : g.psbt.txVersion ≠ none
  inputCount : g.inputCount ≠ none
  outputCount : g.outputCount ≠ none
  foundUnsignedTx : g.foundUnsignedTx = false

theorem checkVersion_eq_ok {g : Global} : checkVersion g = .ok () ↔
    (g.psbt.version = 0 ∧ OkV0 g) ∨ (2 ≤ g.psbt.version ∧ OkV2 g) := by
  have hthrow (e : Exc) (k : PUnit → Except Exc Unit) :
      ((throw e : Except Exc PUnit) >>= k) = .error e := rfl
  rcases Nat.lt_or_ge g.psbt.version 2 with hlt | hge
  · have hcases : g.psbt.version = 0 ∨ g.psbt.version = 1 := by omega
    rcases hcases with h0 | h1
    · simp only [checkVersion, h0, if_true, hthrow, ite_error_eq_ok]
      simp [okV0_iff]
    · simp [checkVersion, h1]
  · have h0 : g.psbt.version ≠ 0 := by omega
    have h1 : g.psbt.version ≠ 1 := by omega
    simp only [checkVersion, h0, h1, hge, if_true, if_false, hthrow, ite_error_eq_ok]
    simp [okV2_iff]

end PSBT.Global

/-! ### The stream -/

namespace PSBT

def inputTotal (g : Global) : ℕ := g.inputCount.getD g.psbt.tx.vin.length

def outputTotal (g : Global) : ℕ := g.outputCount.getD g.psbt.tx.vout.length

theorem readMagic_eq_ok {f f' : Bytes} {u : Unit} :
    readMagic f = .ok u f' ↔ f.take 5 = magic ∧ f' = f.drop 5 := by
  simp only [readMagic, Reader.bind_eq_ok, read_eq_ok]
  constructor
  · rintro ⟨m, s, ⟨rfl, rfl⟩, h⟩
    split_ifs at h with hm
    · cases h
    · cases h
      exact ⟨not_not.1 hm, rfl⟩
  · rintro ⟨hm, rfl⟩
    exact ⟨_, _, ⟨rfl, rfl⟩, by rw [if_neg (not_not.2 hm)]; rfl⟩

/-- A non-witness UTXO that passes is stored with the id it was checked against. -/
theorem checkUtxoHash_eq_ok {R : Runtime} {txid : Bytes} {i i' : PartiallySignedInput} :
    checkUtxoHash R txid i = .ok i' ↔ (i.nonWitnessUtxo = none ∧ i' = i) ∨
      ∃ tx tx', i.nonWitnessUtxo = some tx ∧ tx.rehash R = .ok tx' ∧ tx'.hash = some txid ∧
        i' = { i with nonWitnessUtxo := some tx' } := by
  unfold checkUtxoHash
  cases hutxo : i.nonWitnessUtxo with
  | none => simp [eq_comm]
  | some tx =>
    cases htx : tx.rehash R with
    | error e => simp [htx]
    | ok tx' => by_cases hhash : tx'.hash = some txid <;> simp [htx, hhash, eq_comm]

theorem readInputs_eq_ok {R : Runtime} {g : Global} {f f' : Bytes}
    {inputs : List PartiallySignedInput} : readInputs R g f = .ok inputs f' ↔
      ∃ read, readWhile (readInput R g.psbt) (inputTotal g) 0 f = .ok read f' ∧
        g.psbt.inputs.length + read.length = inputTotal g ∧ inputs = g.psbt.inputs ++ read := by
  simp only [readInputs, Reader.bind_eq_ok, ite_throw_eq_ok, not_not, pure_apply,
    EStateM.Result.ok.injEq]
  constructor
  · rintro ⟨read, s, hread, hlen, rfl, rfl⟩
    exact ⟨read, hread, hlen, rfl⟩
  · rintro ⟨read, hread, hlen, rfl⟩
    exact ⟨read, f', hread, hlen, rfl, rfl⟩

theorem readOutputs_eq_ok {R : Runtime} {g : Global} {f f' : Bytes} {outputs : List PartiallySignedOutput} :
    readOutputs R g f = .ok outputs f' ↔ ∃ read,
      readWhile (fun _ => PartiallySignedOutput.deserialize R { version := g.psbt.version })
        (outputTotal g) 0 f = .ok read f' ∧
      g.psbt.outputs.length + read.length = outputTotal g ∧ outputs = g.psbt.outputs ++ read := by
  simp only [readOutputs, Reader.bind_eq_ok, ite_throw_eq_ok, not_not, pure_apply,
    EStateM.Result.ok.injEq]
  constructor
  · rintro ⟨read, s, hread, hlen, rfl, rfl⟩
    exact ⟨read, hread, hlen, rfl⟩
  · rintro ⟨read, hread, hlen, rfl⟩
    exact ⟨read, f', hread, hlen, rfl, rfl⟩

/-- The parts of a run of `deserialize` on a stream. -/
theorem deserializeStream_eq_ok {R : Runtime} {self : PSBT} {f : Bytes} {p : PSBT} {rest : Bytes} :
    deserializeStream R self f = .ok p rest ↔ f.take 5 = magic ∧ ∃ g f₁ inputs f₂ outputs,
      readMap R (branch R) { psbt := self } (f.drop 5) = .ok g f₁ ∧ checkVersion g = .ok () ∧
      readInputs R g f₁ = .ok inputs f₂ ∧ readOutputs R g f₂ = .ok outputs rest ∧
      { g.psbt with inputs, outputs }.cacheUnsignedTxPieces = .ok p := by
  simp only [deserializeStream, Reader.bind_eq_ok, readMagic_eq_ok, ofExcept_eq_ok]
  constructor
  · rintro ⟨_, s, ⟨hm, rfl⟩, g, f₁, hg, _, _, ⟨hv, rfl⟩, inputs, f₂, hin, outputs, f₃, hout, hp, rfl⟩
    exact ⟨hm, g, _, inputs, f₂, outputs, hg, hv, hin, hout, hp⟩
  · rintro ⟨hm, g, f₁, inputs, f₂, outputs, hg, hv, hin, hout, hp⟩
    exact ⟨(), _, ⟨hm, rfl⟩, g, f₁, hg, (), _, ⟨hv, rfl⟩, inputs, f₂, hin, outputs, _, hout, hp, rfl⟩

end PSBT

end Hwi
