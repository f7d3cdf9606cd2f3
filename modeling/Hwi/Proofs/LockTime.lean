import Hwi.Lib.Result
import Hwi.Spec.Psbt
import Mathlib.Order.Bounds.Basic

/-! The lock time of a PSBT: the one pass over its inputs picks what BIP 370
says, whatever order the inputs stand in. -/

namespace Hwi

namespace PartiallySignedInput

/-- The input requires a lock time of the transaction. -/
def RequiresLock (i : PartiallySignedInput) : Prop :=
  i.timeLocktime.isSome ∨ i.heightLocktime.isSome

/-- The lock times of an input are a time and a height. -/
structure LocksInRange (i : PartiallySignedInput) : Prop where
  time : ∀ t ∈ i.timeLocktime, 500000000 ≤ t
  height : ∀ h ∈ i.heightLocktime, 1 ≤ h ∧ h ≤ 499999999

def timeOnly (i : PartiallySignedInput) : Bool := i.timeLocktime.isSome ∧ i.heightLocktime.isNone

def heightOnly (i : PartiallySignedInput) : Bool := i.timeLocktime.isNone ∧ i.heightLocktime.isSome

theorem timeOnly_iff {i : PartiallySignedInput} :
    i.timeOnly = true ↔ i.RequiresLock ∧ i.heightLocktime = none := by
  cases ht : i.timeLocktime <;> cases hh : i.heightLocktime <;> simp [timeOnly, RequiresLock, ht, hh]

theorem heightOnly_iff {i : PartiallySignedInput} :
    i.heightOnly = true ↔ i.RequiresLock ∧ i.timeLocktime = none := by
  cases ht : i.timeLocktime <;> cases hh : i.heightLocktime <;> simp [heightOnly, RequiresLock, ht, hh]

end PartiallySignedInput

open PartiallySignedInput

/-! ### The rules -/

/-- The values of one kind of lock time among the inputs. -/
def lockValues (lock : PartiallySignedInput → Option ℕ) (inputs : List PartiallySignedInput) : Set ℕ :=
  {n | ∃ i ∈ inputs, lock i = some n}

/-- Every input that requires a lock time has one of this kind. -/
def AllHave (lock : PartiallySignedInput → Option ℕ) (inputs : List PartiallySignedInput) : Prop :=
  ∀ i ∈ inputs, i.RequiresLock → lock i ≠ none

/-- The lock time BIP 370 gives a transaction with these inputs. -/
inductive Bip370LockTime (inputs : List PartiallySignedInput) (fallback : Option ℕ) :
    Except Exc ℕ → Prop
  | unlocked : (∀ i ∈ inputs, ¬i.RequiresLock) → Bip370LockTime inputs fallback (.ok (fallback.getD 0))
  | height {h} : (∃ i ∈ inputs, i.RequiresLock) → AllHave heightLocktime inputs →
      IsGreatest (lockValues heightLocktime inputs) h → Bip370LockTime inputs fallback (.ok h)
  | time {t} : ¬AllHave heightLocktime inputs → AllHave timeLocktime inputs →
      IsGreatest (lockValues timeLocktime inputs) t → Bip370LockTime inputs fallback (.ok t)
  | conflict : ¬AllHave heightLocktime inputs → ¬AllHave timeLocktime inputs →
      Bip370LockTime inputs fallback
        (.error (.psbtSerializationError "Cannot require both time and height locktimes"))

section Rules

variable {inputs inputs' : List PartiallySignedInput} {fallback : Option ℕ}

theorem AllHave.of_unlocked {lock : PartiallySignedInput → Option ℕ}
    (h : ∀ i ∈ inputs, ¬i.RequiresLock) : AllHave lock inputs := fun i hi hr => absurd hr (h i hi)

/-- The rules leave one outcome. -/
theorem Bip370LockTime.unique {r r' : Except Exc ℕ} (h : Bip370LockTime inputs fallback r)
    (h' : Bip370LockTime inputs fallback r') : r = r' := by
  cases h with
  | unlocked hnone =>
    cases h' with
    | unlocked => rfl
    | height hsome =>
      obtain ⟨i, hi, hr⟩ := hsome
      exact absurd hr (hnone i hi)
    | time hno => exact absurd (AllHave.of_unlocked hnone) hno
    | conflict hno => exact absurd (AllHave.of_unlocked hnone) hno
  | height hsome hall hmax =>
    cases h' with
    | unlocked hnone =>
      obtain ⟨i, hi, hr⟩ := hsome
      exact absurd hr (hnone i hi)
    | height _ _ hmax' => rw [hmax.unique hmax']
    | time hno => exact absurd hall hno
    | conflict hno => exact absurd hall hno
  | time hno hall hmax =>
    cases h' with
    | unlocked hnone => exact absurd (AllHave.of_unlocked hnone) hno
    | height _ hall' => exact absurd hall' hno
    | time _ _ hmax' => rw [hmax.unique hmax']
    | conflict _ hno' => exact absurd hall hno'
  | conflict hno hno' =>
    cases h' with
    | unlocked hnone => exact absurd (AllHave.of_unlocked hnone) hno
    | height _ hall => exact absurd hall hno
    | time _ hall => exact absurd hall hno'
    | conflict => rfl

theorem lockValues_perm (lock : PartiallySignedInput → Option ℕ) (h : inputs.Perm inputs') :
    lockValues lock inputs = lockValues lock inputs' := by
  ext n
  simp only [lockValues, Set.mem_ofPred_eq, h.mem_iff]

theorem allHave_perm {lock : PartiallySignedInput → Option ℕ} (h : inputs.Perm inputs') :
    AllHave lock inputs ↔ AllHave lock inputs' := by
  simp only [AllHave, h.mem_iff]

/-- The rules do not look at the order of the inputs. -/
theorem Bip370LockTime.perm {r : Except Exc ℕ} (hp : inputs.Perm inputs')
    (h : Bip370LockTime inputs fallback r) : Bip370LockTime inputs' fallback r := by
  cases h with
  | unlocked hnone => exact .unlocked fun i hi => hnone i (hp.mem_iff.2 hi)
  | height hsome hall hmax =>
    obtain ⟨i, hi, hr⟩ := hsome
    rw [lockValues_perm _ hp] at hmax
    exact .height ⟨i, hp.mem_iff.1 hi, hr⟩ ((allHave_perm hp).1 hall) hmax
  | time hno hall hmax =>
    rw [lockValues_perm _ hp] at hmax
    exact .time (fun h => hno ((allHave_perm hp).2 h)) ((allHave_perm hp).1 hall) hmax
  | conflict hno hno' =>
    exact .conflict (fun h => hno ((allHave_perm hp).2 h)) fun h => hno' ((allHave_perm hp).2 h)

end Rules

/-! ### The pass -/

/-- The largest lock time of one kind, from a value on. -/
def latest (lock : PartiallySignedInput → Option ℕ) (inputs : List PartiallySignedInput) (n : ℕ) : ℕ :=
  (inputs.filterMap lock).foldl max n

theorem le_foldl_max (l : List ℕ) (n : ℕ) : n ≤ l.foldl max n ∧ ∀ a ∈ l, a ≤ l.foldl max n := by
  induction l generalizing n with
  | nil => simp
  | cons b l ih =>
    obtain ⟨hle, hall⟩ := ih (max n b)
    refine ⟨(Nat.le_max_left n b).trans hle, fun a ha => ?_⟩
    rcases List.mem_cons.1 ha with rfl | ha
    · exact (Nat.le_max_right n a).trans hle
    · exact hall a ha

theorem foldl_max_mem (l : List ℕ) (n : ℕ) : l.foldl max n = n ∨ l.foldl max n ∈ l := by
  induction l generalizing n with
  | nil => exact Or.inl rfl
  | cons b l ih =>
    rw [List.foldl_cons]
    rcases ih (max n b) with h | h
    · rw [h]
      rcases Nat.le_total n b with hnb | hbn
      · right
        rw [Nat.max_eq_right hnb]
        exact List.mem_cons_self
      · left
        exact Nat.max_eq_left hbn
    · exact Or.inr (List.mem_cons_of_mem _ h)

variable {lock : PartiallySignedInput → Option ℕ} {inputs : List PartiallySignedInput}

theorem mem_lockValues {n : ℕ} : n ∈ lockValues lock inputs ↔ n ∈ inputs.filterMap lock := by
  simp [lockValues, List.mem_filterMap]

/-- A positive result is the largest of the lock times. -/
theorem isGreatest_latest (h : 0 < latest lock inputs 0) :
    IsGreatest (lockValues lock inputs) (latest lock inputs 0) := by
  refine ⟨?_, fun n hn => (le_foldl_max _ 0).2 n (mem_lockValues.1 hn)⟩
  rcases foldl_max_mem (inputs.filterMap lock) 0 with h0 | hmem
  · rw [latest, h0] at h
    exact absurd h (lt_irrefl 0)
  · exact mem_lockValues.2 hmem

theorem latest_pos {i : PartiallySignedInput} {n : ℕ} (hi : i ∈ inputs) (hn : lock i = some n)
    (hpos : 0 < n) : 0 < latest lock inputs 0 :=
  hpos.trans_le ((le_foldl_max _ 0).2 n (List.mem_filterMap.2 ⟨i, hi, hn⟩))

theorem latest_cons (i : PartiallySignedInput) (n : ℕ) : latest lock (i :: inputs) n =
    latest lock inputs (match lock i with | some m => max n m | none => n) := by
  cases h : lock i with
  | none => rw [latest, latest, List.filterMap_cons_none h]
  | some m => rw [latest, latest, List.filterMap_cons_some h, List.foldl_cons]

/-- The lock time that is carried: it is dropped by an input of the other kind. -/
def carried (lock : PartiallySignedInput → Option ℕ) (ruledOut : PartiallySignedInput → Bool)
    (inputs : List PartiallySignedInput) (acc : Option ℕ) : Option ℕ :=
  if inputs.any ruledOut then none else acc.map (latest lock inputs)

theorem carried_nil (ruledOut : PartiallySignedInput → Bool) (acc : Option ℕ) :
    carried lock ruledOut [] acc = acc := by
  cases acc <;> rfl

/-- One accumulator after one input. -/
def carry (lock : PartiallySignedInput → Option ℕ) (ruledOut : PartiallySignedInput → Bool)
    (i : PartiallySignedInput) (acc : Option ℕ) : Option ℕ :=
  match lock i, (if ruledOut i then none else acc) with
  | some n, some l => some (max l n)
  | _, l => l

theorem carried_cons (ruledOut : PartiallySignedInput → Bool) (i : PartiallySignedInput)
    (acc : Option ℕ) :
    carried lock ruledOut (i :: inputs) acc = carried lock ruledOut inputs (carry lock ruledOut i acc) := by
  unfold carried carry
  rw [List.any_cons]
  cases hr : ruledOut i with
  | true => cases lock i <;> simp
  | false =>
    cases hl : lock i <;> cases acc <;> simp [latest_cons, hl]

theorem carry_eq_none {ruledOut : PartiallySignedInput → Bool} {i : PartiallySignedInput}
    {acc : Option ℕ} : carry lock ruledOut i acc = none ↔ acc = none ∨ ruledOut i = true := by
  unfold carry
  cases hr : ruledOut i <;> cases hl : lock i <;> cases acc <;> simp

/-- The pass raises at an input of a kind that is ruled out, before it or by the
accumulators it starts from. -/
def Clashes (inputs : List PartiallySignedInput) (timeLock heightLock : Option ℕ) : Prop :=
  (timeLock = none ∧ inputs.any timeOnly) ∨ (heightLock = none ∧ inputs.any heightOnly) ∨
    (inputs.any timeOnly ∧ inputs.any heightOnly)

namespace PSBT

theorem computeLockTimeLoop_cons (i : PartiallySignedInput) (timeLock heightLock : Option ℕ) :
    computeLockTimeLoop (i :: inputs) timeLock heightLock =
      if (i.timeOnly ∧ timeLock = none) ∨ (i.heightOnly ∧ heightLock = none) then
        .error (.psbtSerializationError "Cannot require both time and height locktimes")
      else computeLockTimeLoop inputs (carry timeLocktime heightOnly i timeLock)
        (carry heightLocktime timeOnly i heightLock) := by
  cases ht : i.timeLocktime <;> cases hh : i.heightLocktime <;> cases timeLock <;> cases heightLock <;>
    simp [computeLockTimeLoop, carry, timeOnly, heightOnly, ht, hh]

/-- What the pass returns: the induction is on the inputs still to come, for all
accumulators. -/
theorem computeLockTimeLoop_eq (inputs : List PartiallySignedInput) (timeLock heightLock : Option ℕ) :
    (Clashes inputs timeLock heightLock → computeLockTimeLoop inputs timeLock heightLock =
      .error (.psbtSerializationError "Cannot require both time and height locktimes")) ∧
    (¬Clashes inputs timeLock heightLock → computeLockTimeLoop inputs timeLock heightLock =
      .ok (carried timeLocktime heightOnly inputs timeLock,
        carried heightLocktime timeOnly inputs heightLock)) := by
  induction inputs generalizing timeLock heightLock with
  | nil => exact ⟨by simp [Clashes], fun _ => by rw [carried_nil, carried_nil]; rfl⟩
  | cons i inputs ih =>
    rw [computeLockTimeLoop_cons, carried_cons, carried_cons]
    split_ifs with hnow
    · refine ⟨fun _ => rfl, fun hno => absurd ?_ hno⟩
      rcases hnow with ⟨hi, hnone⟩ | ⟨hi, hnone⟩
      · exact Or.inl ⟨hnone, by simp [hi]⟩
      · exact Or.inr (Or.inl ⟨hnone, by simp [hi]⟩)
    · have hrest : Clashes (i :: inputs) timeLock heightLock ↔
          Clashes inputs (carry timeLocktime heightOnly i timeLock)
            (carry heightLocktime timeOnly i heightLock) := by
        unfold Clashes
        rw [carry_eq_none, carry_eq_none, List.any_cons, List.any_cons]
        have hboth : ¬(i.timeOnly = true ∧ i.heightOnly = true) := by
          rw [timeOnly_iff, heightOnly_iff]
          rintro ⟨⟨hr, hh⟩, -, ht⟩
          simp [RequiresLock, ht, hh] at hr
        simp only [Bool.or_eq_true]
        tauto
      rw [hrest]
      exact ih _ _

end PSBT

theorem any_timeOnly_iff : inputs.any timeOnly = true ↔ ¬AllHave heightLocktime inputs := by
  simp only [List.any_eq_true, timeOnly_iff, AllHave, not_forall, not_not, exists_prop]

theorem any_heightOnly_iff : inputs.any heightOnly = true ↔ ¬AllHave timeLocktime inputs := by
  simp only [List.any_eq_true, heightOnly_iff, AllHave, not_forall, not_not, exists_prop]

namespace PSBT

/-- Without any lock time required, none is found. -/
theorem latest_unlocked (hlock : ∀ i n, lock i = some n → i.RequiresLock)
    (h : ∀ i ∈ inputs, ¬i.RequiresLock) : latest lock inputs 0 = 0 := by
  have hnil : inputs.filterMap lock = [] := by
    refine List.filterMap_eq_nil_iff.2 fun i hi => ?_
    cases hl : lock i with
    | none => rfl
    | some n => exact absurd (hlock i n hl) (h i hi)
  rw [latest, hnil]
  rfl

theorem requiresLock_of_time (i : PartiallySignedInput) (n : ℕ) (h : i.timeLocktime = some n) :
    i.RequiresLock := Or.inl (by rw [h]; rfl)

theorem requiresLock_of_height (i : PartiallySignedInput) (n : ℕ) (h : i.heightLocktime = some n) :
    i.RequiresLock := Or.inr (by rw [h]; rfl)

/-- The outcome of the pass is the one the rules give. -/
theorem computeLockTime_rules {p : PSBT} (hrange : ∀ i ∈ p.inputs, i.LocksInRange) :
    Bip370LockTime p.inputs p.fallbackLocktime p.computeLockTime := by
  obtain ⟨herr, hok⟩ := computeLockTimeLoop_eq p.inputs (some 0) (some 0)
  by_cases hclash : Clashes p.inputs (some 0) (some 0)
  · obtain ⟨ht, hh⟩ : p.inputs.any timeOnly ∧ p.inputs.any heightOnly := by
      simpa [Clashes] using hclash
    have hfail : p.computeLockTime =
        .error (.psbtSerializationError "Cannot require both time and height locktimes") := by
      rw [computeLockTime, herr hclash]
      rfl
    rw [hfail]
    exact .conflict (any_timeOnly_iff.1 ht) (any_heightOnly_iff.1 hh)
  · rw [computeLockTime, hok hclash, ok_bind]
    have hno : ¬(p.inputs.any timeOnly ∧ p.inputs.any heightOnly) := by
      simpa [Clashes] using hclash
    dsimp only
    by_cases hreq : ∃ i ∈ p.inputs, i.RequiresLock
    · by_cases hheight : AllHave heightLocktime p.inputs
      · -- every lock is or has a height, so the height that is carried is positive
        have hany : p.inputs.any timeOnly = false :=
          Bool.eq_false_iff.2 fun h => any_timeOnly_iff.1 h hheight
        have hcar : carried heightLocktime timeOnly p.inputs (some 0) =
            some (latest heightLocktime p.inputs 0) := by simp [carried, hany]
        obtain ⟨i, hi, hr⟩ := hreq
        obtain ⟨n, hn⟩ := Option.ne_none_iff_exists'.1 (hheight i hi hr)
        have hpos := latest_pos hi hn ((hrange i hi).height n hn).1
        rw [hcar, Option.getD_some, if_pos hpos]
        exact .height ⟨i, hi, hr⟩ hheight (isGreatest_latest hpos)
      · have hany := any_timeOnly_iff.2 hheight
        have htime : AllHave timeLocktime p.inputs := by
          by_contra h
          exact hno ⟨hany, any_heightOnly_iff.2 h⟩
        have hany' : p.inputs.any heightOnly = false :=
          Bool.eq_false_iff.2 fun h => any_heightOnly_iff.1 h htime
        have hcar : carried heightLocktime timeOnly p.inputs (some 0) = none := by simp [carried, hany]
        have hcar' : carried timeLocktime heightOnly p.inputs (some 0) =
            some (latest timeLocktime p.inputs 0) := by simp [carried, hany']
        obtain ⟨i, hi, hr⟩ := hreq
        obtain ⟨n, hn⟩ := Option.ne_none_iff_exists'.1 (htime i hi hr)
        have hpos := latest_pos hi hn (by have := (hrange i hi).time n hn; omega)
        rw [hcar, hcar', Option.getD_none, if_neg (lt_irrefl 0), Option.getD_some, if_pos hpos]
        exact .time hheight htime (isGreatest_latest hpos)
    · have hnone : ∀ i ∈ p.inputs, ¬i.RequiresLock := fun i hi hr => hreq ⟨i, hi, hr⟩
      have hzero : (carried heightLocktime timeOnly p.inputs (some 0)).getD 0 = 0 := by
        unfold carried
        split_ifs
        · rfl
        · simp [latest_unlocked requiresLock_of_height hnone]
      have hzero' : (carried timeLocktime heightOnly p.inputs (some 0)).getD 0 = 0 := by
        unfold carried
        split_ifs
        · rfl
        · simp [latest_unlocked requiresLock_of_time hnone]
      rw [hzero, hzero', if_neg (lt_irrefl 0), if_neg (lt_irrefl 0)]
      exact .unlocked hnone

/-- The lock time is that of BIP 370, and the order of the inputs does not matter. -/
theorem computeLockTime_bip370 (p : PSBT) (hrange : ∀ i ∈ p.inputs, i.LocksInRange) :
    Bip370LockTime p.inputs p.fallbackLocktime p.computeLockTime ∧
      ∀ q : PSBT, q.inputs.Perm p.inputs → q.fallbackLocktime = p.fallbackLocktime →
        q.computeLockTime = p.computeLockTime := by
  refine ⟨computeLockTime_rules hrange, fun q hperm hfall => ?_⟩
  have hq := computeLockTime_rules (p := q) fun i hi => hrange i (hperm.mem_iff.1 hi)
  rw [hfall] at hq
  exact (hq.perm hperm).unique (computeLockTime_rules hrange)

/-- An input with both lock times before one with a height. -/
def lockedSample : PSBT :=
  { version := 2
    inputs := [{ version := 2, timeLocktime := some 500000000, heightLocktime := some 3 },
      { version := 2, heightLocktime := some 7 }] }

theorem lockedSample_inRange : ∀ i ∈ lockedSample.inputs, i.LocksInRange := by
  intro i hi
  rcases List.mem_pair.1 hi with rfl | rfl
  · exact ⟨by rintro t ⟨⟩; decide, by rintro h ⟨⟩; decide⟩
  · exact ⟨by rintro t ⟨⟩, by rintro h ⟨⟩; decide⟩

theorem computeLockTime_lockedSample :
    Bip370LockTime lockedSample.inputs lockedSample.fallbackLocktime lockedSample.computeLockTime ∧
      ∀ q : PSBT, q.inputs.Perm lockedSample.inputs →
        q.fallbackLocktime = lockedSample.fallbackLocktime →
          q.computeLockTime = lockedSample.computeLockTime :=
  computeLockTime_bip370 lockedSample lockedSample_inRange

example : lockedSample.computeLockTime = .ok 7 := by rfl

end PSBT

end Hwi
