import Hwi.Lib.Procedure
import Hwi.Lib.Result

/-! Exactly when a procedure returns, and exactly when it raises an exception of some kind.
A loop goes through the steps of its items, and stops at the first item that raises. -/

namespace Hwi

variable {ε σ τ ρ ρ' α β : Type}

/-! ### Steps over the items of a list -/

/-- One step after the other, for the items of a list. -/
inductive Steps (step : α → τ → τ → Prop) : List α → τ → τ → Prop
  | nil (t : τ) : Steps step [] t t
  | cons {a : α} {l : List α} {t t' t'' : τ} (h : step a t t') (hrest : Steps step l t' t'') :
      Steps step (a :: l) t t''

/-- The steps reach an item that they do not go past. -/
inductive FirstStop (step : α → τ → τ → Prop) (stops : α → τ → Prop) : List α → τ → Prop
  | here {a : α} {l : List α} {t : τ} (h : stops a t) : FirstStop step stops (a :: l) t
  | later {a : α} {l : List α} {t t' : τ} (h : step a t t') (hrest : FirstStop step stops l t') :
      FirstStop step stops (a :: l) t

section Steps

variable {step : α → τ → τ → Prop} {stops : α → τ → Prop}

theorem steps_nil {t t' : τ} : Steps step [] t t' ↔ t = t' := by
  constructor
  · intro h
    cases h
    rfl
  · rintro rfl
    exact .nil t

theorem steps_cons {a : α} {l : List α} {t t'' : τ} :
    Steps step (a :: l) t t'' ↔ ∃ t', step a t t' ∧ Steps step l t' t'' := by
  constructor
  · intro h
    cases h with
    | cons h hrest => exact ⟨_, h, hrest⟩
  · rintro ⟨t', h, hrest⟩
    exact .cons h hrest

theorem not_firstStop_nil {t : τ} : ¬FirstStop step stops [] t := nofun

theorem firstStop_cons {a : α} {l : List α} {t : τ} :
    FirstStop step stops (a :: l) t ↔ stops a t ∨ ∃ t', step a t t' ∧ FirstStop step stops l t' := by
  constructor
  · intro h
    cases h with
    | here h => exact Or.inl h
    | later h hrest => exact Or.inr ⟨_, h, hrest⟩
  · rintro (h | ⟨t', h, hrest⟩)
    · exact .here h
    · exact .later h hrest

theorem steps_map {f : β → α} {l : List β} {t t' : τ} :
    Steps (fun b => step (f b)) l t t' ↔ Steps step (l.map f) t t' := by
  induction l generalizing t with
  | nil => rw [List.map_nil, steps_nil, steps_nil]
  | cons b l ih => simp only [List.map_cons, steps_cons, ih]

theorem firstStop_map {f : β → α} {l : List β} {t : τ} :
    FirstStop (fun b => step (f b)) (fun b => stops (f b)) l t ↔ FirstStop step stops (l.map f) t := by
  induction l generalizing t with
  | nil => exact iff_of_false not_firstStop_nil not_firstStop_nil
  | cons b l ih => simp only [List.map_cons, firstStop_cons, ih]

end Steps

/-! ### Outcomes -/

/-- From `s` the procedure returns exactly where `returns` has a result, which `result` says
how to find, and it raises an exception with `P`, in a state with `P`, exactly where it
`stops`. -/
structure Outcome (P : ε → σ → Prop) (x : Procedure ε σ α) (s : σ) (returns : ρ → Prop)
    (result : ρ → α → σ → Prop) (stops : Prop) : Prop where
  returned : ∀ {a s'}, x.run s = .ok a s' → ∃ r, returns r ∧ result r a s'
  returns : ∀ {r}, returns r → ∃ a s', x.run s = .ok a s' ∧ result r a s'
  raises : (∃ e s', x.run s = .error e s' ∧ P e s') ↔ stops

namespace Outcome

open Procedure

variable {P : ε → σ → Prop} {x : Procedure ε σ α} {s : σ} {returns : ρ → Prop}
  {result : ρ → α → σ → Prop} {stops : Prop}

theorem pure {a : α} {r : ρ} (h : result r a s) :
    Outcome P (pure a : Procedure ε σ α) s (· = r) result False where
  returned := by
    intro a' s' hrun
    cases hrun
    exact ⟨r, rfl, h⟩
  returns := by
    rintro _ rfl
    exact ⟨a, s, rfl, h⟩
  raises := by
    refine iff_of_false ?_ id
    rintro ⟨e, s', hrun, -⟩
    cases hrun

theorem throw (e : ε) :
    Outcome P (throw e : Procedure ε σ α) s (fun _ => False) result (P e s) where
  returned := nofun
  returns := False.elim
  raises := by
    constructor
    · rintro ⟨e', s', hrun, he⟩
      cases hrun
      exact he
    · intro he
      exact ⟨e, s, rfl, he⟩

theorem ofExcept (r : Except ε α) : Outcome P (Procedure.ofExcept r) s (fun a => r = .ok a)
    (fun a a' s' => a' = a ∧ s' = s) (Raising (fun e => P e s) r) := by
  cases r with
  | ok a =>
    constructor
    case returned =>
      intro a' s' hrun
      cases hrun
      exact ⟨a, rfl, rfl, rfl⟩
    case returns =>
      intro a' ha
      cases ha
      exact ⟨a, s, rfl, rfl, rfl⟩
    case raises =>
      refine iff_of_false ?_ not_raising_ok
      rintro ⟨e, s', hrun, -⟩
      cases hrun
  | error e =>
    constructor
    case returned =>
      intro a s' hrun
      cases hrun
    case returns =>
      intro a ha
      cases ha
    case raises =>
      rw [raising_error]
      constructor
      · rintro ⟨e', s', hrun, he⟩
        cases hrun
        exact he
      · intro he
        exact ⟨e, s, rfl, he⟩

/-- When the first part raises, or what follows each of its results. -/
theorem raises_bind {k : α → Procedure ε σ β} (stops' : ρ → Prop)
    (hx : Outcome P x s returns result stops)
    (hk : ∀ r a s', returns r → result r a s' →
      ((∃ e s'', (k a).run s' = .error e s'' ∧ P e s'') ↔ stops' r)) :
    (∃ e s'', (x >>= k).run s = .error e s'' ∧ P e s'') ↔ stops ∨ ∃ r, returns r ∧ stops' r := by
  rw [← hx.raises]
  constructor
  · rintro ⟨e, s'', hrun, he⟩
    rw [EStateM.run_bind] at hrun
    cases hx' : x.run s with
    | error e' s' =>
      rw [hx'] at hrun
      cases hrun
      exact Or.inl ⟨e, s'', rfl, he⟩
    | ok a s' =>
      rw [hx'] at hrun
      obtain ⟨r, hr, hresult⟩ := hx.returned hx'
      exact Or.inr ⟨r, hr, (hk r a s' hr hresult).1 ⟨e, s'', hrun, he⟩⟩
  · rintro (⟨e, s', hx', he⟩ | ⟨r, hr, hstops⟩)
    · refine ⟨e, s', ?_, he⟩
      rw [EStateM.run_bind, hx']
    · obtain ⟨a, s', hx', hresult⟩ := hx.returns hr
      obtain ⟨e, s'', hk', he⟩ := (hk r a s' hr hresult).2 hstops
      refine ⟨e, s'', ?_, he⟩
      rw [EStateM.run_bind, hx']
      exact hk'

theorem bind {k : α → Procedure ε σ β} {returns' : ρ → ρ' → Prop} {result' : ρ' → β → σ → Prop}
    {stops' : ρ → Prop} (hx : Outcome P x s returns result stops)
    (hk : ∀ r a s', returns r → result r a s' →
      Outcome P (k a) s' (returns' r) result' (stops' r)) :
    Outcome P (x >>= k) s (fun r' => ∃ r, returns r ∧ returns' r r') result'
      (stops ∨ ∃ r, returns r ∧ stops' r) where
  returned := by
    intro b s'' hrun
    obtain ⟨a, s', hx', hk'⟩ := run_bind_eq_ok.1 hrun
    obtain ⟨r, hr, hresult⟩ := hx.returned hx'
    obtain ⟨r', hr', hresult'⟩ := (hk r a s' hr hresult).returned hk'
    exact ⟨r', ⟨r, hr, hr'⟩, hresult'⟩
  returns := by
    rintro r' ⟨r, hr, hr'⟩
    obtain ⟨a, s', hx', hresult⟩ := hx.returns hr
    obtain ⟨b, s'', hk', hresult'⟩ := (hk r a s' hr hresult).returns hr'
    exact ⟨b, s'', run_bind_eq_ok.2 ⟨a, s', hx', hk'⟩, hresult'⟩
  raises := raises_bind stops' hx fun r a s' hr hresult => (hk r a s' hr hresult).raises

theorem ofExcept_bind {r : Except ε α} {k : α → Procedure ε σ β} {returns : α → ρ → Prop}
    {result : ρ → β → σ → Prop} {stops : α → Prop}
    (hk : ∀ a, r = .ok a → Outcome P (k a) s (returns a) result (stops a)) :
    Outcome P (Procedure.ofExcept r >>= k) s (fun b => ∃ a, r = .ok a ∧ returns a b) result
      (Raising (fun e => P e s) r ∨ ∃ a, r = .ok a ∧ stops a) := by
  refine (ofExcept r).bind ?_
  rintro a _ _ ha ⟨rfl, rfl⟩
  exact hk _ ha

theorem error_bind {k : α → Procedure ε σ β} {result : ρ → β → σ → Prop} (e : ε) :
    Outcome P (Procedure.ofExcept (.error e) >>= k) s (fun _ => False) result (P e s) := by
  have h : Outcome P (MonadExcept.throw e : Procedure ε σ β) s (fun _ => False) result (P e s) := throw e
  exact ⟨h.returned, h.returns, h.raises⟩

theorem ok_bind {a : α} {k : α → Procedure ε σ β} {result : ρ → β → σ → Prop}
    (h : Outcome P (k a) s returns result stops) :
    Outcome P (Procedure.ofExcept (.ok a) >>= k) s returns result stops :=
  ⟨h.returned, h.returns, h.raises⟩

/-- The same outcome, said in another way. -/
theorem congr {returns' : ρ → Prop} {stops' : Prop} (h : Outcome P x s returns result stops)
    (hreturns : ∀ r, returns r ↔ returns' r) (hstops : stops ↔ stops') :
    Outcome P x s returns' result stops' where
  returned := by
    intro a s' hrun
    obtain ⟨r, hr, hresult⟩ := h.returned hrun
    exact ⟨r, (hreturns r).1 hr, hresult⟩
  returns := fun hr => h.returns ((hreturns _).2 hr)
  raises := h.raises.trans hstops

/-- The results are found in another place. -/
theorem image {returns' : ρ' → Prop} {result' : ρ' → α → σ → Prop}
    (h : Outcome P x s returns result stops)
    (hto : ∀ r a s', returns r → result r a s' → ∃ r', returns' r' ∧ result' r' a s')
    (hof : ∀ r', returns' r' → ∃ r, returns r ∧ ∀ a s', result r a s' → result' r' a s') :
    Outcome P x s returns' result' stops where
  returned := by
    intro a s' hrun
    obtain ⟨r, hr, hresult⟩ := h.returned hrun
    exact hto r a s' hr hresult
  returns := by
    intro r' hr'
    obtain ⟨r, hr, hresult⟩ := hof r' hr'
    obtain ⟨a, s', hrun, hrs⟩ := h.returns hr
    exact ⟨a, s', hrun, hresult a s' hrs⟩
  raises := h.raises

theorem get_bind {k : σ → Procedure ε σ α} (h : Outcome P (k s) s returns result stops) :
    Outcome P (get >>= k) s returns result stops :=
  ⟨h.returned, h.returns, h.raises⟩

theorem modify_bind {f : σ → σ} {k : PUnit → Procedure ε σ α}
    (h : Outcome P (k ⟨⟩) (f s) returns result stops) :
    Outcome P (modify f >>= k) s returns result stops :=
  ⟨h.returned, h.returns, h.raises⟩

theorem modify {f : σ → σ} {r : ρ} {result : ρ → PUnit → σ → Prop} (h : result r ⟨⟩ (f s)) :
    Outcome P (modify f : Procedure ε σ PUnit) s (· = r) result False where
  returned := by
    intro a s' hrun
    cases hrun
    exact ⟨r, rfl, h⟩
  returns := by
    rintro _ rfl
    exact ⟨⟨⟩, f s, rfl, h⟩
  raises := by
    refine iff_of_false ?_ id
    rintro ⟨e, s', hrun, -⟩
    cases hrun

/-- With an invariant that the procedure keeps. -/
theorem keeps {U : σ → Prop} (h : Outcome P x s returns result stops) (hU : Keeps U x) (hs : U s) :
    Outcome (fun e s' => P e s' ∧ U s') x s returns (fun r a s' => result r a s' ∧ U s') stops where
  returned := by
    intro a s' hrun
    obtain ⟨r, hr, hresult⟩ := h.returned hrun
    exact ⟨r, hr, hresult, Triple.ok hU hs hrun⟩
  returns := by
    intro r hr
    obtain ⟨a, s', hrun, hresult⟩ := h.returns hr
    exact ⟨a, s', hrun, hresult, Triple.ok hU hs hrun⟩
  raises := by
    rw [← h.raises]
    constructor
    · rintro ⟨e, s', hrun, he, -⟩
      exact ⟨e, s', hrun, he⟩
    · rintro ⟨e, s', hrun, he⟩
      exact ⟨e, s', hrun, he, Triple.error hU hs hrun⟩

theorem adaptExcept {f : ε → ε} (h : (∃ e s', x.run s = .error e s' ∧ P (f e) s') ↔ stops) :
    (∃ e s', (EStateM.adaptExcept f x).run s = .error e s' ∧ P e s') ↔ stops := by
  rw [← h]
  simp only [EStateM.run, EStateM.adaptExcept]
  cases x s with
  | ok a s' => simp
  | error e s' => simp

/-- A procedure of which it is only known when it raises: the results are its own. -/
theorem of_raises (h : (∃ e s', x.run s = .error e s' ∧ P e s') ↔ stops) :
    Outcome P x s (fun r : α × σ => x.run s = .ok r.1 r.2) (fun r a s' => r = (a, s')) stops where
  returned := by
    intro a s' hrun
    exact ⟨(a, s'), hrun, rfl⟩
  returns := by
    rintro ⟨a, s'⟩ hrun
    exact ⟨a, s', hrun, rfl⟩
  raises := h

/-- A loop, where `J` relates the states to what the steps are about. -/
theorem loop {J : τ → σ → Prop} {step : α → τ → τ → Prop} {stop : α → τ → Prop}
    {f : α → Procedure ε σ PUnit} {l : List α}
    (h : ∀ a ∈ l, ∀ t s, J t s →
      Outcome P (f a) s (step a t) (fun t' _ s' => J t' s') (stop a t)) {t : τ} {s : σ} (hs : J t s) :
    Outcome P (forM l f) s (Steps step l t) (fun t' _ s' => J t' s') (FirstStop step stop l t) := by
  induction l generalizing t s with
  | nil =>
    refine (Outcome.pure hs).congr (fun t' => ?_) (iff_of_false id not_firstStop_nil)
    rw [steps_nil]
    exact eq_comm
  | cons a l ih =>
    rw [List.forM_cons]
    refine ((h a List.mem_cons_self t s hs).bind fun t' _ s' _ hs' =>
      ih (fun b hb => h b (List.mem_cons_of_mem a hb)) hs').congr (fun t'' => ?_) ?_
    · exact steps_cons.symm
    · exact firstStop_cons.symm

/-- A loop over items and their indices, where the steps do not depend on the index. -/
theorem loop_zipIdx {J : τ → σ → Prop} {step : α → τ → τ → Prop} {stop : α → τ → Prop}
    {f : α × ℕ → Procedure ε σ PUnit} {l : List α}
    (h : ∀ a i t s, J t s →
      Outcome P (f (a, i)) s (step a t) (fun t' _ s' => J t' s') (stop a t)) {t : τ} {s : σ}
    (hs : J t s) :
    Outcome P (forM l.zipIdx f) s (Steps step l t) (fun t' _ s' => J t' s')
      (FirstStop step stop l t) := by
  have hloop : Outcome P (forM l.zipIdx f) s (Steps (fun x => step x.1) l.zipIdx t)
      (fun t' _ s' => J t' s') (FirstStop (fun x => step x.1) (fun x => stop x.1) l.zipIdx t) :=
    loop (fun x _ t s hs => h x.1 x.2 t s hs) hs
  refine hloop.congr (fun t' => ?_) ?_
  · rw [@steps_map τ _ _ step Prod.fst, List.zipIdx_map_fst]
  · rw [@firstStop_map τ _ _ step stop Prod.fst, List.zipIdx_map_fst]

end Outcome

end Hwi
