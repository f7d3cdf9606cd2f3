import Hwi.Lib.Procedure

/-! Streams that are read through limits, one inside the other. A read of more
tokens than a limit leaves gets none; a limit goes down by what is read through it. -/

namespace Hwi

/-- The tokens that are left of a stream, and what the limits leave, the innermost first. -/
structure Source (τ : Type) where
  data : List τ
  limits : List ℕ

namespace Source

variable {ε τ α β : Type}

/-- Read `n` tokens, or those that are left. -/
def grant (n : ℕ) (data : List τ) : List ℕ → List τ × List ℕ
  | [] => (data.take n, [])
  | limit :: limits =>
    if limit < n then ([], limit :: limits)
    else
      let (tokens, limits) := grant n data limits
      (tokens, (limit - tokens.length) :: limits)

/-- `n` tokens go through every limit. -/
def Room (n : ℕ) (limits : List ℕ) : Prop := ∀ limit ∈ limits, n ≤ limit

theorem Room.mono {m n : ℕ} {limits : List ℕ} (h : Room n limits) (hmn : m ≤ n) : Room m limits :=
  fun limit hlimit => Nat.le_trans hmn (h limit hlimit)

theorem Room.sub {m n : ℕ} {limits : List ℕ} (h : Room (m + n) limits) :
    Room n (limits.map (· - m)) := by
  intro limit hlimit
  obtain ⟨limit', hlimit', rfl⟩ := List.mem_map.1 hlimit
  have hle := h limit' hlimit'
  omega

theorem grant_room {n : ℕ} {limits : List ℕ} (h : Room n limits) (data : List τ) :
    grant n data limits = (data.take n, limits.map (· - (data.take n).length)) := by
  induction limits with
  | nil => rfl
  | cons limit limits ih =>
    have hlimit : ¬limit < n := Nat.not_lt.2 (h limit List.mem_cons_self)
    rw [grant, if_neg hlimit, ih fun l hl => h l (List.mem_cons_of_mem _ hl), List.map_cons]

/-- Nothing can be read any more. -/
def Ended (s : Source τ) : Prop := s.data = [] ∨ 0 ∈ s.limits

theorem grant_ended {n : ℕ} (hn : 0 < n) {s : Source τ} (h : s.Ended) :
    (grant n s.data s.limits).1 = [] := by
  obtain ⟨data, limits⟩ := s
  induction limits with
  | nil =>
    obtain rfl : data = [] := h.resolve_right List.not_mem_nil
    exact List.take_nil
  | cons limit limits ih =>
    rw [grant]
    split_ifs with hlimit
    · rfl
    · refine ih (h.imp_right fun hmem => ?_)
      rcases List.mem_cons.1 hmem with h0 | hmem
      · exact absurd (h0 ▸ hn) hlimit
      · exact hmem

theorem grant_isPrefix (n : ℕ) (data : List τ) (limits : List ℕ) :
    (grant n data limits).1 <+: data := by
  induction limits with
  | nil => exact List.take_prefix n data
  | cons limit limits ih =>
    rw [grant]
    split_ifs
    · exact List.nil_prefix
    · exact ih

theorem grant_ended_limits {n : ℕ} (hn : 0 < n) {s : Source τ} (h : s.Ended) :
    (grant n s.data s.limits).2 = s.limits := by
  obtain ⟨data, limits⟩ := s
  induction limits with
  | nil => rfl
  | cons limit limits ih =>
    rw [grant]
    split_ifs with hlimit
    · rfl
    · have hinner : Ended ⟨data, limits⟩ := h.imp_right fun hmem => by
        rcases List.mem_cons.1 hmem with h0 | hmem
        · exact absurd (h0 ▸ hn) hlimit
        · exact hmem
      have htokens := grant_ended hn hinner
      have hlimits := ih hinner
      change (grant n data limits).1 = [] at htokens
      change (grant n data limits).2 = limits at hlimits
      change (limit - (grant n data limits).1.length) :: (grant n data limits).2 = limit :: limits
      rw [htokens, hlimits]
      rfl

/-- `reader.readinto(buf)` for a buffer of `n` tokens: what is read. -/
def readinto (n : ℕ) : Procedure ε (Source τ) (List τ) := fun s =>
  let (tokens, limits) := grant n s.data s.limits
  .ok tokens ⟨s.data.drop tokens.length, limits⟩

/-- Read through one more limit. -/
def within (limit : ℕ) (r : Procedure ε (Source τ) α) : Procedure ε (Source τ) α := fun s =>
  match r ⟨s.data, limit :: s.limits⟩ with
  | .ok a s' => .ok a ⟨s'.data, s'.limits.tail⟩
  | .error e s' => .error e ⟨s'.data, s'.limits.tail⟩

/-! ### What is read off the front -/

/-- A run gives `x` and leaves `s`, or raises an exception with `E` when there is none. -/
def Gives (E : ε → Prop) (run : EStateM.Result ε (Source τ) α) (x : Option α) (s : Source τ) : Prop :=
  match x with
  | some a => run = .ok a s
  | none => ∃ e s', run = .error e s' ∧ E e

/-- When the tokens come first and go through the limits, the reader takes them and gives `x`. -/
def Reads (E : ε → Prop) (r : Procedure ε (Source τ) α) (t : List τ) (x : Option α) : Prop :=
  ∀ rest limits, Room t.length limits →
    Gives E (r.run ⟨t ++ rest, limits⟩) x ⟨rest, limits.map (· - t.length)⟩

/-- The same when nothing can be read after the tokens. -/
def ReadsToEnd (E : ε → Prop) (r : Procedure ε (Source τ) α) (t : List τ) (x : Option α) : Prop :=
  ∀ rest limits, Room t.length limits → Ended ⟨rest, limits.map (· - t.length)⟩ →
    Gives E (r.run ⟨t ++ rest, limits⟩) x ⟨rest, limits.map (· - t.length)⟩

theorem ReadsToEnd.mono {E E' : ε → Prop} {r : Procedure ε (Source τ) α} {t : List τ} {x : Option α}
    (h : ReadsToEnd E r t x) (hE : ∀ e, E e → E' e) : ReadsToEnd E' r t x := by
  intro rest limits hroom hend
  have hrun := h rest limits hroom hend
  cases x with
  | some a => exact hrun
  | none =>
    obtain ⟨e, s, hrun, he⟩ := hrun
    exact ⟨e, s, hrun, hE e he⟩

variable {E : ε → Prop} {r : Procedure ε (Source τ) α} {k : α → Procedure ε (Source τ) β}
  {t u : List τ} {x : Option α} {f : α → Option β}

theorem reads_pure (a : α) : Reads E (pure a : Procedure ε (Source τ) α) [] (some a) := by
  intro rest limits _
  change EStateM.Result.ok a _ = .ok a _
  rw [List.nil_append, List.length_nil]
  simp only [Nat.sub_zero, List.map_id']

theorem reads_throw {e : ε} (h : E e) : Reads E (throw e : Procedure ε (Source τ) α) [] none :=
  fun _ _ _ => ⟨e, _, rfl, h⟩

theorem gives_bind {s s' s'' : Source τ} (h : Gives E (r.run s) x s')
    (hk : ∀ a, x = some a → Gives E ((k a).run s') (f a) s'') :
    Gives E ((r >>= k).run s) (x.bind f) s'' := by
  rw [EStateM.run_bind]
  cases x with
  | none =>
    obtain ⟨e, t, hrun, he⟩ := h
    exact ⟨e, t, by rw [hrun], he⟩
  | some a =>
    have hrun : r.run s = .ok a s' := h
    rw [hrun]
    exact hk a rfl

theorem map_sub_append (limits : List ℕ) (t u : List τ) :
    (limits.map (· - t.length)).map (· - u.length) = limits.map (· - (t ++ u).length) := by
  rw [List.map_map, List.length_append]
  refine List.map_congr_left fun limit _ => ?_
  exact Nat.sub_sub limit t.length u.length

theorem Reads.bind (h : Reads E r t x) (hk : ∀ a, x = some a → Reads E (k a) u (f a)) :
    Reads E (r >>= k) (t ++ u) (x.bind f) := by
  intro rest limits hroom
  rw [List.length_append] at hroom
  rw [List.append_assoc, ← map_sub_append]
  exact gives_bind (h _ limits (hroom.mono (Nat.le_add_right _ _))) fun a ha =>
    hk a ha rest _ hroom.sub

theorem Reads.bind_toEnd (h : Reads E r t x) (hk : ∀ a, x = some a → ReadsToEnd E (k a) u (f a)) :
    ReadsToEnd E (r >>= k) (t ++ u) (x.bind f) := by
  intro rest limits hroom hend
  rw [List.length_append] at hroom
  rw [← map_sub_append] at hend ⊢
  rw [List.append_assoc]
  exact gives_bind (h _ limits (hroom.mono (Nat.le_add_right _ _))) fun a ha =>
    hk a ha rest _ hroom.sub hend

theorem ReadsToEnd.bind {y : Option β} (h : ReadsToEnd E r t x)
    (hk : ∀ a, x = some a → Reads E (k a) [] y) (hnone : x = none → y = none) :
    ReadsToEnd E (r >>= k) t y := by
  intro rest limits hroom hend
  have hbind : x.bind (fun _ => y) = y := by
    cases x with
    | none => exact (hnone rfl).symm
    | some a => rfl
  rw [← hbind]
  refine gives_bind (h rest limits hroom hend) fun a ha => ?_
  have hrest := hk a ha rest (limits.map (· - t.length)) fun limit _ => Nat.zero_le limit
  rw [List.nil_append, List.length_nil] at hrest
  simpa only [Nat.sub_zero, List.map_id'] using hrest

theorem Reads.bind_some {a : α} {y : Option β} (h : Reads E r t (some a)) (hk : Reads E (k a) u y) :
    Reads E (r >>= k) (t ++ u) y :=
  h.bind (f := fun _ => y) fun _ ha => Option.some.inj ha ▸ hk

theorem Reads.bind_some_nil {a : α} {y : Option β} (h : Reads E r t (some a)) (hk : Reads E (k a) [] y) :
    Reads E (r >>= k) t y := by
  have hbind := h.bind_some hk
  rwa [List.append_nil] at hbind

theorem Reads.bind_pure {g : α → β} (h : Reads E r t x) :
    Reads E (r >>= fun a => pure (g a)) t (x.map g) := by
  have hbind := h.bind (k := fun a => pure (g a)) (f := fun a => some (g a)) (fun a _ => reads_pure (g a))
  rw [List.append_nil] at hbind
  rw [Option.map_eq_bind]
  exact hbind

theorem within_ok {limit : ℕ} {s s' : Source τ} {a : α}
    (h : r.run ⟨s.data, limit :: s.limits⟩ = .ok a s') :
    (within limit r).run s = .ok a ⟨s'.data, s'.limits.tail⟩ := by
  change r ⟨s.data, limit :: s.limits⟩ = _ at h
  change within limit r s = _
  rw [within, h]

theorem within_error {limit : ℕ} {s s' : Source τ} {e : ε}
    (h : r.run ⟨s.data, limit :: s.limits⟩ = .error e s') :
    (within limit r).run s = .error e ⟨s'.data, s'.limits.tail⟩ := by
  change r ⟨s.data, limit :: s.limits⟩ = _ at h
  change within limit r s = _
  rw [within, h]

/-- A reader that reads to the end takes what a limit leaves for it. -/
theorem ReadsToEnd.reads_within (h : ReadsToEnd E r t x) :
    Reads E (within t.length r) t x := by
  intro rest limits hroom
  have hinner := h rest (t.length :: limits)
    (fun limit hlimit => (List.mem_cons.1 hlimit).elim (fun heq => Nat.le_of_eq heq.symm) (hroom limit))
    (Or.inr (by rw [List.map_cons, Nat.sub_self]; exact List.mem_cons_self))
  cases x with
  | none =>
    obtain ⟨e, s, hrun, he⟩ := hinner
    exact ⟨e, _, within_error (s := ⟨t ++ rest, limits⟩) hrun, he⟩
  | some a =>
    have hrun : r.run ⟨t ++ rest, t.length :: limits⟩ = .ok a _ := hinner
    exact within_ok (s := ⟨t ++ rest, limits⟩) hrun

theorem reads_readinto (t : List τ) : Reads E (readinto t.length) t (some t) := by
  intro rest limits hroom
  change EStateM.Result.ok _ _ = _
  rw [grant_room hroom, List.take_left, List.drop_left]

/-- When nothing can be read, nothing is and nothing changes. -/
theorem readinto_ended {n : ℕ} (hn : 0 < n) {s : Source τ} (h : s.Ended) :
    (readinto n : Procedure ε (Source τ) (List τ)).run s = .ok [] s := by
  change EStateM.Result.ok _ _ = _
  rw [grant_ended hn h, grant_ended_limits hn h]
  rfl

/-! ### Readers only take tokens away -/

/-- The source that a run leaves, whether or not it raises an exception. -/
def left : EStateM.Result ε (Source τ) α → Source τ
  | .ok _ s => s
  | .error _ s => s

/-- No run leaves more tokens than there were. -/
def Shrinks (r : Procedure ε (Source τ) α) : Prop :=
  ∀ s : Source τ, (left (r.run s)).data.length ≤ s.data.length

theorem Shrinks.ok (h : Shrinks r) {s s' : Source τ} {a : α} (hr : r.run s = .ok a s') :
    s'.data.length ≤ s.data.length := by
  have hs := h s
  rwa [hr] at hs

theorem shrinks_pure (a : α) : Shrinks (pure a : Procedure ε (Source τ) α) := fun _ => Nat.le_refl _

theorem shrinks_throw (e : ε) : Shrinks (throw e : Procedure ε (Source τ) α) := fun _ => Nat.le_refl _

theorem shrinks_ofExcept (x : Except ε α) :
    Shrinks (Procedure.ofExcept x : Procedure ε (Source τ) α) := by
  cases x with
  | ok a => exact shrinks_pure a
  | error e => exact shrinks_throw e

theorem Shrinks.bind (h : Shrinks r) (hk : ∀ a, Shrinks (k a)) : Shrinks (r >>= k) := by
  intro s
  rw [EStateM.run_bind]
  cases hr : r.run s with
  | ok a s' => exact Nat.le_trans (hk a s') (h.ok hr)
  | error e s' =>
    have hs := h s
    rwa [hr] at hs

/-- A check in the middle of a reader. -/
theorem shrinks_ite_throw {c : Prop} [Decidable c] {e : ε} {f : PUnit → Procedure ε (Source τ) β}
    (h : Shrinks (f ⟨⟩)) : Shrinks (if c then (throw e : Procedure ε (Source τ) PUnit) >>= f else f ⟨⟩) := by
  split_ifs
  · exact (shrinks_throw e).bind fun _ => h
  · exact h

theorem shrinks_get_bind {f : Source τ → Procedure ε (Source τ) β} (h : ∀ s, Shrinks (f s)) :
    Shrinks (get >>= f) := fun s => h s s

theorem shrinks_readinto (n : ℕ) : Shrinks (readinto n : Procedure ε (Source τ) (List τ)) := by
  intro s
  change (s.data.drop _).length ≤ _
  rw [List.length_drop]
  exact Nat.sub_le _ _

theorem readinto_length {n : ℕ} {s s' : Source τ} {t : List τ}
    (h : (readinto n : Procedure ε (Source τ) (List τ)).run s = .ok t s') :
    t.length + s'.data.length = s.data.length := by
  have hle := (grant_isPrefix n s.data s.limits).length_le
  change EStateM.Result.ok _ _ = _ at h
  cases h
  change _ + (s.data.drop _).length = _
  rw [List.length_drop]
  exact Nat.add_sub_cancel' hle

theorem Shrinks.within (h : Shrinks r) (limit : ℕ) : Shrinks (within limit r) := by
  intro s
  have hs := h ⟨s.data, limit :: s.limits⟩
  cases hr : r.run ⟨s.data, limit :: s.limits⟩ with
  | ok a s' =>
    rw [hr] at hs
    rw [within_ok hr]
    exact hs
  | error e s' =>
    rw [hr] at hs
    rw [within_error hr]
    exact hs

/-- Computations that agree on the sources that are left agree after the same start. -/
theorem bind_congr_of_shrinks (h : Shrinks r) {k' : α → Procedure ε (Source τ) β} {s : Source τ}
    (hk : ∀ a s', s'.data.length ≤ s.data.length → (k a).run s' = (k' a).run s') :
    (r >>= k).run s = (r >>= k').run s := by
  rw [EStateM.run_bind, EStateM.run_bind]
  cases hr : r.run s with
  | ok a s' => exact hk a s' (h.ok hr)
  | error e s' => rfl

end Source

end Hwi
