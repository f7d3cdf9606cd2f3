import Mathlib.Data.List.Forall2
import Mathlib.Tactic.Common

/-! Computations that may raise: how a `do` block of `Except` succeeds, when it raises
an exception of some kind, and lists related item by item, which is what `mapM`
returns. -/

namespace Hwi

variable {ε α β : Type}

@[simp] theorem ok_bind (a : α) (f : α → Except ε β) : (Except.ok a >>= f) = f a := rfl

@[simp] theorem error_bind (e : ε) (f : α → Except ε β) : (Except.error e >>= f) = .error e := rfl

@[simp] theorem pure_eq_ok (a : α) : (pure a : Except ε α) = .ok a := rfl

@[simp] theorem throw_eq_error (e : ε) : (throw e : Except ε α) = .error e := rfl

theorem bind_eq_ok {x : Except ε α} {f : α → Except ε β} {b : β} :
    (x >>= f) = .ok b ↔ ∃ a, x = .ok a ∧ f a = .ok b := by
  cases x with
  | ok a => simp
  | error e => simp

theorem bind_eq_error {x : Except ε α} {f : α → Except ε β} {e : ε} :
    (x >>= f) = .error e ↔ x = .error e ∨ ∃ a, x = .ok a ∧ f a = .error e := by
  cases x with
  | ok a => simp
  | error e' => simp

theorem ite_error_eq_ok {p : Prop} [Decidable p] {e : ε} {x : Except ε α} {a : α} :
    (if p then .error e else x) = .ok a ↔ ¬p ∧ x = .ok a := by
  split_ifs with h <;> simp [h]

@[simp] theorem toOption_ok (a : α) : (Except.ok a : Except ε α).toOption = some a := rfl

@[simp] theorem toOption_error (e : ε) : (Except.error e : Except ε α).toOption = none := rfl

theorem toOption_bind (x : Except ε α) (f : α → Except ε β) :
    (x >>= f).toOption = x.toOption.bind fun a => (f a).toOption := by
  cases x <;> rfl

theorem toOption_eq_some {x : Except ε α} {a : α} : x.toOption = some a ↔ x = .ok a := by
  cases x <;> simp

theorem mapM_eq_ok {f : α → Except ε β} {l : List α} {r : List β} :
    l.mapM f = .ok r ↔ List.Forall₂ (fun a b => f a = .ok b) l r := by
  induction l generalizing r with
  | nil => simp [eq_comm]
  | cons a t ih =>
    simp only [List.mapM_cons, bind_eq_ok, ih, pure_eq_ok, Except.ok.injEq,
      List.forall₂_cons_left_iff]
    constructor
    · rintro ⟨b, hb, bs, hbs, rfl⟩
      exact ⟨b, bs, hb, hbs, rfl⟩
    · rintro ⟨b, bs, hb, hbs, rfl⟩
      exact ⟨b, hb, bs, hbs, rfl⟩

theorem exists_bind_eq_ok {x : Except ε α} {f : α → Except ε β} :
    (∃ b, (x >>= f) = .ok b) ↔ ∃ a, x = .ok a ∧ ∃ b, f a = .ok b := by
  simp only [bind_eq_ok]
  constructor
  · rintro ⟨b, a, ha, hb⟩
    exact ⟨a, ha, b, hb⟩
  · rintro ⟨a, ha, b, hb⟩
    exact ⟨b, a, ha, hb⟩

theorem exists_mapM_eq_ok {f : α → Except ε β} {l : List α} :
    (∃ r, l.mapM f = .ok r) ↔ ∀ a ∈ l, ∃ b, f a = .ok b := by
  induction l with
  | nil => simp
  | cons a t ih =>
    rw [List.mapM_cons, exists_bind_eq_ok, List.forall_mem_cons, ← ih]
    simp only [exists_bind_eq_ok, pure_eq_ok, Except.ok.injEq, exists_eq', and_true]
    constructor
    · rintro ⟨b, hb, hr⟩
      exact ⟨⟨b, hb⟩, hr⟩
    · rintro ⟨⟨b, hb⟩, hr⟩
      exact ⟨b, hb, hr⟩

/-- A `mapM` whose steps all succeed is a `map`. -/
theorem mapM_ok {f : α → Except ε β} {g : α → β} {l : List α} (h : ∀ a ∈ l, f a = .ok (g a)) :
    l.mapM f = .ok (l.map g) := by
  rw [mapM_eq_ok, List.forall₂_map_right_iff, List.forall₂_same]
  exact h

/-- A `mapM` whose steps succeed with results of a known form. -/
theorem exists_mapM_ok {γ : Type} {f : α → Except ε β} {g : γ → β} {p : α → γ → Prop} {l : List α}
    (h : ∀ a ∈ l, ∃ c, f a = .ok (g c) ∧ p a c) :
    ∃ cs, l.mapM f = .ok (cs.map g) ∧ List.Forall₂ p l cs := by
  induction l with
  | nil => exact ⟨[], rfl, .nil⟩
  | cons a t ih =>
    obtain ⟨c, hc, hp⟩ := h a List.mem_cons_self
    obtain ⟨cs, hcs, hps⟩ := ih fun b hb => h b (List.mem_cons_of_mem _ hb)
    refine ⟨c :: cs, ?_, .cons hp hps⟩
    rw [List.mapM_cons, hc, ok_bind, hcs]
    rfl

/-- A `mapM` returns a list related to the one before if each of its steps returns
a related result. -/
theorem exists_mapM_forall₂ {f : α → Except ε β} {p : α → β → Prop} {l : List α} :
    (∃ r, l.mapM f = .ok r ∧ List.Forall₂ p l r) ↔ ∀ a ∈ l, ∃ b, f a = .ok b ∧ p a b := by
  induction l with
  | nil => simp
  | cons a t ih =>
    rw [List.forall_mem_cons, ← ih]
    simp only [mapM_eq_ok]
    constructor
    · rintro ⟨_, hmap, hrel⟩
      cases hmap with
      | cons hb hbs =>
        cases hrel with
        | cons hp hps => exact ⟨⟨_, hb, hp⟩, _, hbs, hps⟩
    · rintro ⟨⟨b, hb, hp⟩, bs, hbs, hps⟩
      exact ⟨b :: bs, .cons hb hbs, .cons hp hps⟩

theorem mapM_ok_length {f : α → Except ε β} {l : List α} {r : List β} (h : l.mapM f = .ok r) :
    r.length = l.length := (mapM_eq_ok.1 h).length_eq.symm

/-- A `mapM` that ends with an error is one of which a step does. -/
theorem exists_of_mapM_error {f : α → Except ε β} {l : List α} {e : ε} (h : l.mapM f = .error e) :
    ∃ a ∈ l, f a = .error e := by
  induction l with
  | nil => cases h
  | cons a t ih =>
    rw [List.mapM_cons] at h
    cases ha : f a with
    | error e' =>
      rw [ha, error_bind] at h
      cases h
      exact ⟨a, List.mem_cons_self, ha⟩
    | ok b =>
      rw [ha, ok_bind] at h
      cases ht : t.mapM f with
      | error e' =>
        rw [ht, error_bind] at h
        cases h
        obtain ⟨c, hc, hfc⟩ := ih ht
        exact ⟨c, List.mem_cons_of_mem a hc, hfc⟩
      | ok bs =>
        rw [ht] at h
        cases h

/-! ### Exceptions of a kind -/

/-- The computation raises an exception with `P`. -/
def Raising (P : ε → Prop) (x : Except ε α) : Prop := ∃ e, x = .error e ∧ P e

variable {P : ε → Prop}

theorem not_raising_ok {a : α} : ¬Raising P (Except.ok a : Except ε α) := by
  rintro ⟨e, he, -⟩
  cases he

theorem raising_error {e : ε} : Raising P (Except.error e : Except ε α) ↔ P e := by
  constructor
  · rintro ⟨e', he, hP⟩
    cases he
    exact hP
  · intro hP
    exact ⟨e, rfl, hP⟩

theorem raising_bind {x : Except ε α} {f : α → Except ε β} :
    Raising P (x >>= f) ↔ Raising P x ∨ ∃ a, x = .ok a ∧ Raising P (f a) := by
  cases x with
  | ok a => simp [not_raising_ok]
  | error e => simp [raising_error]

/-- What follows does not raise it. -/
theorem raising_bind_left {x : Except ε α} {f : α → Except ε β} (hf : ∀ a, x = .ok a → ¬Raising P (f a)) :
    Raising P (x >>= f) ↔ Raising P x := by
  rw [raising_bind]
  refine or_iff_left ?_
  rintro ⟨a, ha, h⟩
  exact hf a ha h

theorem raising_bind_pure {x : Except ε α} {f : α → β} :
    Raising P (x >>= fun a => pure (f a)) ↔ Raising P x :=
  raising_bind_left fun _ _ => not_raising_ok

/-- What comes first does not raise it. -/
theorem raising_bind_right {x : Except ε α} {f : α → Except ε β} (hx : ¬Raising P x) :
    Raising P (x >>= f) ↔ ∃ a, x = .ok a ∧ Raising P (f a) := by
  rw [raising_bind]
  exact or_iff_right hx

theorem not_raising_bind {x : Except ε α} {f : α → Except ε β} (hx : ¬Raising P x)
    (hf : ∀ a, x = .ok a → ¬Raising P (f a)) : ¬Raising P (x >>= f) := by
  rw [raising_bind_left hf]
  exact hx

theorem not_raising_mapM {f : α → Except ε β} {l : List α} (h : ∀ a ∈ l, ¬Raising P (f a)) :
    ¬Raising P (l.mapM f) := by
  rintro ⟨e, he, hP⟩
  obtain ⟨a, ha, hf⟩ := exists_of_mapM_error he
  exact h a ha ⟨e, hf, hP⟩

/-- A computation returns, raises an exception of a kind, or raises another one, and the
conditions for the first and the last are known. -/
inductive Verdict (P : ε → Prop) (x : Except ε α) (q : α → Prop) (passes fault : Prop) : Prop
  | ok {a : α} (hx : x = .ok a) (hq : q a) (hpass : passes) (hfault : ¬fault) :
      Verdict P x q passes fault
  | raised (hx : Raising P x) (hpass : ¬passes) (hfault : ¬fault) : Verdict P x q passes fault
  | fault (hx : Raising (fun e => ¬P e) x) (hpass : ¬passes) (hfault : fault) :
      Verdict P x q passes fault

section Verdict

variable {x : Except ε α} {q : α → Prop} {passes fault : Prop}

theorem Raising.not_ok {a : α} (h : Raising P x) : x ≠ .ok a := by
  rintro rfl
  exact not_raising_ok h

theorem Raising.not_other (h : Raising P x) : ¬Raising (fun e => ¬P e) x := by
  obtain ⟨e, rfl, hP⟩ := h
  exact fun hother => raising_error.1 hother hP

theorem Verdict.isOk_iff (h : Verdict P x q passes fault) : (∃ a, x = .ok a) ↔ passes := by
  cases h with
  | ok hx _ hpass _ => exact iff_of_true ⟨_, hx⟩ hpass
  | raised hx hpass _ => exact iff_of_false (fun ⟨_, ha⟩ => hx.not_ok ha) hpass
  | fault hx hpass _ => exact iff_of_false (fun ⟨_, ha⟩ => hx.not_ok ha) hpass

theorem Verdict.raising_iff (h : Verdict P x q passes fault) :
    Raising (fun e => ¬P e) x ↔ fault := by
  cases h with
  | ok hx _ _ hfault => exact iff_of_false (hx ▸ not_raising_ok) hfault
  | raised hx _ hfault => exact iff_of_false hx.not_other hfault
  | fault hx _ hfault => exact iff_of_true hx hfault

theorem Verdict.returned {a : α} (h : Verdict P x q passes fault) (ha : x = .ok a) : q a := by
  cases h with
  | ok hx hq _ _ =>
    rw [ha] at hx
    cases hx
    exact hq
  | raised hx _ _ => exact absurd ha hx.not_ok
  | fault hx _ _ => exact absurd ha hx.not_ok

end Verdict

/-- The elements of a list up to the first that stops have a property. -/
def UpTo (stops p : α → Prop) (l : List α) : Prop :=
  ∀ before a after, l = before ++ a :: after → (∀ b ∈ before, ¬stops b) → p a

section UpTo

variable {stops p : α → Prop}

theorem upTo_nil : UpTo stops p [] := by
  intro before a after heq
  simp at heq

theorem upTo_cons {a : α} {l : List α} :
    UpTo stops p (a :: l) ↔ p a ∧ (¬stops a → UpTo stops p l) := by
  constructor
  · intro h
    refine ⟨h [] a l rfl (by simp), fun hgoes before b after heq hbefore => ?_⟩
    refine h (a :: before) b after (by rw [heq]; rfl) ?_
    rw [List.forall_mem_cons]
    exact ⟨hgoes, hbefore⟩
  · intro ⟨ha, hrest⟩ before b after heq hbefore
    cases before with
    | nil =>
      cases heq
      exact ha
    | cons c before =>
      cases heq
      rw [List.forall_mem_cons] at hbefore
      exact hrest hbefore.1 before b after rfl hbefore.2

end UpTo

/-- The first element of a list that is not passed is a bad one. -/
def FirstBad (passes bad : α → Prop) (l : List α) : Prop :=
  ∃ before a after, l = before ++ a :: after ∧ (∀ b ∈ before, passes b) ∧ bad a

section FirstBad

variable {passes bad : α → Prop}

theorem not_firstBad_nil : ¬FirstBad passes bad [] := by
  rintro ⟨before, a, after, heq, -⟩
  simp at heq

theorem firstBad_cons {a : α} {l : List α} :
    FirstBad passes bad (a :: l) ↔ bad a ∨ passes a ∧ FirstBad passes bad l := by
  constructor
  · rintro ⟨before, b, after, heq, hbefore, hbad⟩
    cases before with
    | nil =>
      cases heq
      exact Or.inl hbad
    | cons c before =>
      cases heq
      rw [List.forall_mem_cons] at hbefore
      exact Or.inr ⟨hbefore.1, before, b, after, rfl, hbefore.2, hbad⟩
  · rintro (hbad | ⟨hpass, before, b, after, rfl, hbefore, hbad⟩)
    · exact ⟨[], a, l, rfl, by simp, hbad⟩
    · exact ⟨a :: before, b, after, rfl, List.forall_mem_cons.2 ⟨hpass, hbefore⟩, hbad⟩

/-- A `mapM` raises an exception of a kind where the first element it does not get
past raises it. -/
theorem raising_mapM {f : α → Except ε β} {l : List α}
    (hpasses : ∀ a ∈ l, (∃ b, f a = .ok b) ↔ passes a) (hbad : ∀ a ∈ l, Raising P (f a) ↔ bad a) :
    Raising P (l.mapM f) ↔ FirstBad passes bad l := by
  induction l with
  | nil => exact iff_of_false not_raising_ok not_firstBad_nil
  | cons a l ih =>
    rw [List.forall_mem_cons] at hpasses hbad
    rw [List.mapM_cons, raising_bind, firstBad_cons, hbad.1, ← hpasses.1, ← ih hpasses.2 hbad.2]
    refine or_congr_right ⟨?_, ?_⟩
    · rintro ⟨b, hb, hrest⟩
      exact ⟨⟨b, hb⟩, raising_bind_pure.1 hrest⟩
    · rintro ⟨⟨b, hb⟩, hrest⟩
      exact ⟨b, hb, raising_bind_pure.2 hrest⟩

end FirstBad

/-- Where nothing else is raised, it is raised unless the computation returns. -/
theorem raising_iff_not_ok {x : Except ε α} (h : ¬Raising (fun e => ¬P e) x) :
    Raising P x ↔ ¬∃ a, x = .ok a := by
  cases x with
  | ok a => exact iff_of_false not_raising_ok fun hno => hno ⟨a, rfl⟩
  | error e =>
    rw [raising_error, not_not] at h
    exact iff_of_true (raising_error.2 h) (by rintro ⟨a, ha⟩; cases ha)

/-! ### Lists related item by item -/

theorem exists_of_map_eq_singleton {f : α → β} {l : List α} {b : β} (h : l.map f = [b]) :
    ∃ a ∈ l, f a = b :=
  List.mem_map.1 (h ▸ List.mem_singleton_self b)

theorem exists_of_forall₂_right {α β : Type} {r : α → β → Prop} {l : List α} {l' : List β}
    (h : List.Forall₂ r l l') {b : β} (hb : b ∈ l') : ∃ a ∈ l, r a b := by
  induction h with
  | nil => exact absurd hb List.not_mem_nil
  | @cons a c l l' hac _ ih =>
    rcases List.mem_cons.1 hb with rfl | hb
    · exact ⟨a, List.mem_cons_self, hac⟩
    · obtain ⟨a', ha', hr⟩ := ih hb
      exact ⟨a', List.mem_cons_of_mem _ ha', hr⟩

/-- Two passes over a list return if each of its elements goes through both. -/
theorem exists_mapM_mapM {γ : Type} {f : α → Except ε β} {g : β → Except ε γ} {l : List α} :
    (∃ r, (l.mapM f >>= fun m => m.mapM g) = .ok r) ↔ ∀ a ∈ l, ∃ b, f a = .ok b ∧ ∃ c, g b = .ok c := by
  rw [exists_bind_eq_ok]
  constructor
  · rintro ⟨m, hm, hg⟩ a ha
    obtain ⟨b, hb, hfb⟩ := exists_of_forall₂_right (mapM_eq_ok.1 hm).flip ha
    exact ⟨b, hfb, exists_mapM_eq_ok.1 hg b hb⟩
  · intro h
    obtain ⟨m, hm⟩ := exists_mapM_eq_ok.2 fun a ha => (h a ha).imp fun b hb => hb.1
    refine ⟨m, hm, exists_mapM_eq_ok.2 fun b hb => ?_⟩
    obtain ⟨a, ha, hfb⟩ := exists_of_forall₂_right (mapM_eq_ok.1 hm) hb
    obtain ⟨b', hb', hg⟩ := h a ha
    rw [hfb] at hb'
    cases hb'
    exact hg

theorem forall₂_trans {α β γ : Type} {r : α → β → Prop} {s : β → γ → Prop} {t : α → γ → Prop}
    {as : List α} {bs : List β} {cs : List γ} (h : ∀ a ∈ as, ∀ b c, r a b → s b c → t a c)
    (hr : List.Forall₂ r as bs) (hs : List.Forall₂ s bs cs) : List.Forall₂ t as cs := by
  induction hr generalizing cs with
  | nil =>
    cases hs
    exact .nil
  | cons hab _ ih =>
    cases hs with
    | cons hbc hs =>
      exact .cons (h _ List.mem_cons_self _ _ hab hbc)
        (ih (fun a ha => h a (List.mem_cons_of_mem _ ha)) hs)

theorem forall₂_zipWith {α β γ δ : Type} {r : α → δ → Prop} {f : β → γ → δ} {as : List α}
    {bs : List β} {cs : List γ} (hab : as.length = bs.length) (hbc : bs.length = cs.length)
    (h : ∀ (i : ℕ) a b c, as[i]? = some a → bs[i]? = some b → cs[i]? = some c → r a (f b c)) :
    List.Forall₂ r as (List.zipWith f bs cs) := by
  induction as generalizing bs cs with
  | nil =>
    obtain rfl := List.length_eq_zero_iff.1 hab.symm
    exact .nil
  | cons a as ih =>
    cases bs with
    | nil => simp at hab
    | cons b bs =>
      cases cs with
      | nil => simp at hbc
      | cons c cs =>
        refine .cons (h 0 a b c rfl rfl rfl) (ih (by simpa using hab) (by simpa using hbc) ?_)
        exact fun i => h (i + 1)

theorem exists_forall₂_map {α β γ : Type} {r : α → β → Prop} {q : α → γ → Prop} {f : γ → β}
    (h : ∀ a b, r a b → ∃ c, q a c ∧ f c = b) {as : List α} {bs : List β}
    (hr : List.Forall₂ r as bs) : ∃ cs : List γ, List.Forall₂ q as cs ∧ cs.map f = bs := by
  induction hr with
  | nil => exact ⟨[], .nil, rfl⟩
  | cons hab _ ih =>
    obtain ⟨c, hc, rfl⟩ := h _ _ hab
    obtain ⟨cs, hcs, rfl⟩ := ih
    exact ⟨c :: cs, .cons hc hcs, rfl⟩

theorem forall₂_getElem? {α β : Type} {r : α → β → Prop} {l : List α} {l' : List β}
    (h : List.Forall₂ r l l') {i : ℕ} {a : α} {b : β} (ha : l[i]? = some a) (hb : l'[i]? = some b) :
    r a b := by
  obtain ⟨hi, rfl⟩ := List.getElem?_eq_some_iff.1 ha
  obtain ⟨hi', rfl⟩ := List.getElem?_eq_some_iff.1 hb
  exact h.get hi hi'

theorem forall₂_and_mem {α β : Type} {r : α → β → Prop} {l : List α} {l' : List β}
    (h : List.Forall₂ r l l') : List.Forall₂ (fun a b => r a b ∧ a ∈ l) l l' := by
  have hsame : List.Forall₂ (fun a _ => a ∈ l) l l' :=
    List.forall₂_iff_get.2 ⟨h.length_eq, fun _ _ _ => List.get_mem ..⟩
  exact h.mp (fun _ _ hr hmem => ⟨hr, hmem⟩) hsame

/-- A relation that says something of the items on the left only. -/
theorem forall₂_iff_forall {α β : Type} {r q : α → β → Prop} {p : α → Prop} {l : List α}
    {l' : List β} (h : List.Forall₂ r l l') (hiff : ∀ a b, r a b → (q a b ↔ p a)) :
    List.Forall₂ q l l' ↔ ∀ a ∈ l, p a := by
  induction h with
  | nil => simp
  | cons hab _ ih => rw [List.forall₂_cons, List.forall_mem_cons, ih, hiff _ _ hab]

theorem mapM_congr_forall₂ {γ : Type} {f : α → Except ε γ} {g : β → Except ε γ} {l : List α}
    {l' : List β} (h : List.Forall₂ (fun a b => f a = g b) l l') : l.mapM f = l'.mapM g := by
  induction h with
  | nil => rfl
  | cons hab _ ih => rw [List.mapM_cons, List.mapM_cons, hab, ih]

end Hwi
