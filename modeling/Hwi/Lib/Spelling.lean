import Hwi.Lib.Stream
import Mathlib.Data.List.Forall2

/-! What readers accept, said by the strings that spell a value instead of by the reader. A reader
that is content with fewer tokens than announced may also return at the end of the stream. -/

namespace Hwi

namespace Reader

variable {ε τ α β : Type}

/-- The reader takes every string that spells a value as that value. When it returns it has taken
such a string, or, where it may be cut, nothing is left of the stream. -/
structure Spells (cut : Prop) (r : Reader ε τ α) (S : List τ → α → Prop) : Prop where
  exactly : ∀ {ts a}, S ts a → Exactly r ts a
  split : ∀ {s a s'}, r s = .ok a s' → (cut ∧ s' = []) ∨ ∃ ts, s = ts ++ s' ∧ S ts a
  shrinks : Shrinks r

/-- The reader returns on the strings that spell a value only. -/
abbrev SpellsWhole (r : Reader ε τ α) (S : List τ → α → Prop) : Prop := Spells False r S

/-- A string for one value, then one for another. -/
def Then (S : List τ → α → Prop) (T : α → List τ → β → Prop) (ts : List τ) (b : β) : Prop :=
  ∃ us a vs, S us a ∧ T a vs b ∧ ts = us ++ vs

/-- Strings for the values of a list, one after the other. -/
def Each (S : List τ → α → Prop) (n : ℕ) (ts : List τ) (l : List α) : Prop :=
  l.length = n ∧ ∃ parts, List.Forall₂ S parts l ∧ ts = parts.flatten

variable {cut : Prop} {r : Reader ε τ α} {S : List τ → α → Prop}

theorem SpellsWhole.split (h : SpellsWhole r S) {s s' : List τ} {a : α} (hr : r s = .ok a s') :
    ∃ ts, s = ts ++ s' ∧ S ts a := (Spells.split h hr).resolve_left fun hcut => hcut.1

theorem SpellsWhole.eq_ok_iff (h : SpellsWhole r S) {s s' : List τ} {a : α} :
    r s = .ok a s' ↔ ∃ ts, s = ts ++ s' ∧ S ts a := by
  constructor
  · exact SpellsWhole.split h
  · rintro ⟨ts, rfl, hts⟩
    exact h.exactly hts s'

/-- A reader that is never cut may stand where one that is cut is asked for. -/
theorem SpellsWhole.spells (h : SpellsWhole r S) : Spells cut r S :=
  ⟨h.exactly, fun hr => Or.inr (SpellsWhole.split h hr), h.shrinks⟩

theorem spells_pure (a : α) : Spells cut (pure a : Reader ε τ α) fun ts b => ts = [] ∧ b = a where
  exactly := by
    rintro ts b ⟨rfl, rfl⟩
    exact exactly_pure b
  split hr := by
    cases hr
    exact Or.inr ⟨[], rfl, rfl, rfl⟩
  shrinks := shrinks_pure a

/-- The same strings said in another way. -/
theorem Spells.congr (h : Spells cut r S) {S' : List τ → α → Prop}
    (hS : ∀ ts a, S ts a ↔ S' ts a) : Spells cut r S' where
  exactly hts := h.exactly ((hS _ _).2 hts)
  split hr := by
    apply (h.split hr).imp_right
    rintro ⟨ts, hs, hts⟩
    exact ⟨ts, hs, (hS _ _).1 hts⟩
  shrinks := h.shrinks

theorem spells_ite {c : Prop} [Decidable c] {r' : Reader ε τ α} {S' : List τ → α → Prop}
    (h : c → Spells cut r S) (h' : ¬c → Spells cut r' S') :
    Spells cut (if c then r else r') fun ts a => (c ∧ S ts a) ∨ (¬c ∧ S' ts a) := by
  split_ifs with hc
  · apply (h hc).congr
    intro ts a
    simp [hc]
  · apply (h' hc).congr
    intro ts a
    simp [hc]

variable {k : α → Reader ε τ β} {T : α → List τ → β → Prop}

/-- What comes after a reader that has used up the stream has nothing to take. -/
theorem Spells.bind (h : Spells cut r S) (hk : ∀ a, Spells cut (k a) (T a)) :
    Spells cut (r >>= k) (Then S T) where
  exactly := by
    rintro ts b ⟨us, a, vs, hus, hvs, rfl⟩
    exact (h.exactly hus).bind ((hk a).exactly hvs)
  split {s b s''} hr := by
    obtain ⟨a, s', ha, hb⟩ := Reader.bind_eq_ok.1 hr
    rcases h.split ha with ⟨hcut, rfl⟩ | ⟨us, rfl, hus⟩
    · left
      exact ⟨hcut, List.suffix_nil.1 ((hk a).shrinks.ok hb)⟩
    · apply ((hk a).split hb).imp_right
      rintro ⟨vs, rfl, hvs⟩
      exact ⟨us ++ vs, (List.append_assoc us vs s'').symm, us, a, vs, hus, hvs, rfl⟩
  shrinks := h.shrinks.bind fun a => (hk a).shrinks

/-- A reader that needs a token shows that the one before it has not run out of them. -/
theorem Spells.bind_whole (h : Spells cut r S) (hk : ∀ a, SpellsWhole (k a) (T a))
    (hne : ∀ a vs b, T a vs b → vs ≠ []) : SpellsWhole (r >>= k) (Then S T) where
  exactly := (h.bind fun a => (hk a).spells).exactly
  split {s b s''} hr := by
    obtain ⟨a, s', ha, hb⟩ := Reader.bind_eq_ok.1 hr
    obtain ⟨vs, rfl, hvs⟩ := SpellsWhole.split (hk a) hb
    rcases h.split ha with ⟨-, hnil⟩ | ⟨us, rfl, hus⟩
    · exact absurd (List.append_eq_nil_iff.1 hnil).1 (hne a vs b hvs)
    · exact Or.inr ⟨us ++ vs, (List.append_assoc us vs s'').symm, us, a, vs, hus, hvs, rfl⟩
  shrinks := h.shrinks.bind fun a => (hk a).shrinks

theorem Spells.map (h : Spells cut r S) (f : α → β) :
    Spells cut (r >>= fun a => pure (f a)) fun ts b => ∃ a, S ts a ∧ b = f a := by
  apply (h.bind fun a => spells_pure (f a)).congr
  intro ts b
  constructor
  · rintro ⟨us, a, vs, hus, ⟨rfl, rfl⟩, rfl⟩
    exact ⟨a, by rwa [List.append_nil], rfl⟩
  · rintro ⟨a, hts, rfl⟩
    exact ⟨ts, a, [], hts, ⟨rfl, rfl⟩, (List.append_nil ts).symm⟩

theorem Spells.readN (h : Spells cut r S) (n : ℕ) : Spells cut (readN r n) (Each S n) where
  exactly := by
    rintro ts l ⟨rfl, parts, hparts, rfl⟩
    induction hparts with
    | nil => exact exactly_pure []
    | cons ha _ ih => exact (h.exactly ha).bind ih.bind_pure
  split {s l s'} hr := by
    induction n generalizing s l with
    | zero =>
      cases hr
      exact Or.inr ⟨[], rfl, rfl, [], .nil, rfl⟩
    | succ n ih =>
      obtain ⟨a, s₁, ha, hr⟩ := Reader.bind_eq_ok.1 hr
      obtain ⟨as, s₂, has, hr⟩ := Reader.bind_eq_ok.1 hr
      cases hr
      rcases h.split ha with ⟨hcut, rfl⟩ | ⟨us, rfl, hus⟩
      · left
        exact ⟨hcut, List.suffix_nil.1 ((h.shrinks.readN n).ok has)⟩
      · apply (ih has).imp_right
        rintro ⟨vs, rfl, hlen, parts, hparts, rfl⟩
        refine ⟨us ++ parts.flatten, by rw [List.append_assoc], ?_, us :: parts, .cons hus hparts, rfl⟩
        rw [List.length_cons, hlen]
  shrinks := h.shrinks.readN n

end Reader

end Hwi
