import Hwi.Lib.Alphabet
import Hwi.Lib.Digits
import Hwi.Lib.Result
import Hwi.Lib.ShiftRegister
import Hwi.Spec.Descriptor

/-! The checksum of a descriptor: a register of eight symbols of five bits, fed with
the low bits of each character and the high bits of each group of three. -/

namespace Hwi

/-! ### The register -/

/-- What a step adds for the five bits that leave the register. -/
def generator (c0 : ℕ) : ℕ :=
  (if c0.testBit 0 then 0xf5dee51989 else 0) ^^^ (if c0.testBit 1 then 0xa9fdca3312 else 0) ^^^
    (if c0.testBit 2 then 0x1bab10e32d else 0) ^^^ (if c0.testBit 3 then 0x3706b1677a else 0) ^^^
    (if c0.testBit 4 then 0x644d626ffd else 0)

theorem and_two_pow_ne_zero (c i : ℕ) : c &&& 2 ^ i ≠ 0 ↔ c.testBit i = true := by
  rw [Nat.and_two_pow]
  cases c.testBit i with
  | false => simp
  | true => simp

theorem xor_ite (c : ℕ) (b : Bool) (g : ℕ) : (if b then c ^^^ g else c) = c ^^^ if b then g else 0 := by
  cases b with
  | false => simp
  | true => rfl

theorem polyMod_eq (c val : ℕ) :
    polyMod c val = ((c % 2 ^ 35) * 2 ^ 5) ^^^ val ^^^ generator (c / 2 ^ 35) := by
  have hmask : c &&& 0x7ffffffff = c % 2 ^ 35 := Nat.and_two_pow_sub_one_eq_mod c 35
  have h0 : ∀ c0 : ℕ, c0 &&& 1 ≠ 0 ↔ c0.testBit 0 = true := fun c0 => and_two_pow_ne_zero c0 0
  have h1 : ∀ c0 : ℕ, c0 &&& 2 ≠ 0 ↔ c0.testBit 1 = true := fun c0 => and_two_pow_ne_zero c0 1
  have h2 : ∀ c0 : ℕ, c0 &&& 4 ≠ 0 ↔ c0.testBit 2 = true := fun c0 => and_two_pow_ne_zero c0 2
  have h3 : ∀ c0 : ℕ, c0 &&& 8 ≠ 0 ↔ c0.testBit 3 = true := fun c0 => and_two_pow_ne_zero c0 3
  have h4 : ∀ c0 : ℕ, c0 &&& 16 ≠ 0 ↔ c0.testBit 4 = true := fun c0 => and_two_pow_ne_zero c0 4
  unfold polyMod generator
  simp only [hmask, Nat.shiftLeft_eq, Nat.shiftRight_eq_div_pow]
  generalize c / 2 ^ 35 = c0
  simp only [h0, h1, h2, h3, h4]
  simp only [xor_ite]
  simp only [Nat.xor_assoc]

theorem testBit_ite_xor (a b i g : ℕ) : (if (a ^^^ b).testBit i then g else 0) =
    (if a.testBit i then g else 0) ^^^ if b.testBit i then g else 0 := by
  rw [Nat.testBit_xor]
  cases a.testBit i <;> cases b.testBit i <;> simp

theorem generator_xor (a b : ℕ) : generator (a ^^^ b) = generator a ^^^ generator b := by
  unfold generator
  simp only [testBit_ite_xor]
  ac_rfl

theorem xorLinear_polyMod : XorLinear polyMod := by
  intro a b x y
  have hlow : (a ^^^ b) % 2 ^ 35 * 2 ^ 5 = (a % 2 ^ 35 * 2 ^ 5) ^^^ (b % 2 ^ 35 * 2 ^ 5) := by
    rw [Nat.xor_mod_two_pow, ← Nat.shiftLeft_eq, ← Nat.shiftLeft_eq, ← Nat.shiftLeft_eq,
      Nat.shiftLeft_xor_distrib]
  have hhigh : (a ^^^ b) / 2 ^ 35 = (a / 2 ^ 35) ^^^ (b / 2 ^ 35) := Nat.xor_div_two_pow
  rw [polyMod_eq, polyMod_eq, polyMod_eq, hlow, hhigh, generator_xor]
  ac_rfl

theorem generator_small {c0 : ℕ} (h : c0 < 32) :
    generator c0 < 2 ^ 40 ∧ (generator c0 % 2 ^ 5 = 0 → c0 = 0) := by
  have hall : ∀ c : Fin 32, generator c < 2 ^ 40 ∧ (generator c % 2 ^ 5 = 0 → c.val = 0) := by decide
  exact hall ⟨c0, h⟩

theorem xor_eq_add {a x i : ℕ} (h : x < 2 ^ i) : a * 2 ^ i ^^^ x = a * 2 ^ i + x := by
  rw [Nat.mul_comm]
  apply Nat.eq_of_testBit_eq
  intro j
  rw [Nat.testBit_xor, Nat.testBit_two_pow_mul_add a h, Nat.testBit_two_pow_mul]
  by_cases hj : j < i
  · simp [hj, Nat.not_le.2 hj]
  · have hx : x.testBit j = false := Nat.testBit_lt_two_pow (h.trans_le (Nat.pow_le_pow_right (by omega) (by omega)))
    simp [hj, Nat.le_of_not_lt hj, hx]

theorem shiftRegister_polyMod : ShiftRegister 40 5 polyMod where
  linear := xorLinear_polyMod
  fits := by omega
  bounded := by
    intro a x ha hx
    have hlow : a % 2 ^ 35 * 2 ^ 5 < 2 ^ 40 := by omega
    rw [polyMod_eq]
    exact Nat.xor_lt_two_pow (Nat.xor_lt_two_pow hlow (by omega)) (generator_small (by omega)).1
  kernel := by
    intro a ha hzero
    rw [polyMod_eq, Nat.xor_zero] at hzero
    have heq := Nat.xor_eq_zero_iff.1 hzero
    have hgen : generator (a / 2 ^ 35) % 2 ^ 5 = 0 := by
      rw [← heq]
      exact Nat.mul_mod_left _ _
    have hhigh := (generator_small (by omega)).2 hgen
    rw [hhigh] at heq
    have hlow : a % 2 ^ 35 * 2 ^ 5 = 0 := heq
    omega
  shift := by
    intro a x ha hx
    have hhigh : a / 2 ^ 35 = 0 := Nat.div_eq_of_lt (by omega)
    rw [polyMod_eq, hhigh, Nat.mod_eq_of_lt (by omega)]
    change a * 2 ^ 5 ^^^ x ^^^ 0 = _
    rw [Nat.xor_zero, xor_eq_add hx]

/-! ### The symbols of a text -/

/-- What is fed to the register for the numbers of some characters: five low bits of
each, and for each group of three the rest of them. -/
def symbols : List ℕ → ℕ → ℕ → List ℕ
  | [], cls, clscount => if 0 < clscount then [cls] else []
  | pos :: ps, cls, clscount =>
    pos % 32 :: if clscount + 1 = 3 then (cls * 3 + pos / 32) :: symbols ps 0 0
      else symbols ps (cls * 3 + pos / 32) (clscount + 1)

/-- The numbers of the characters. -/
def positions (desc : Str) : Option (List ℕ) := desc.mapM fun ch => INPUT_CHARSET.idxOf? ch

theorem positions_cons (ch : Char) (desc : Str) : positions (ch :: desc) =
    (INPUT_CHARSET.idxOf? ch).bind fun pos => (positions desc).map fun ps => pos :: ps := by
  unfold positions
  rw [List.mapM_cons]
  generalize INPUT_CHARSET.idxOf? ch = pos
  generalize List.mapM (fun ch => INPUT_CHARSET.idxOf? ch) desc = ps
  cases pos <;> cases ps <;> rfl

theorem checksumLoop_nil (c cls clscount : ℕ) :
    checksumLoop [] c cls clscount = some (if 0 < clscount then polyMod c cls else c) := rfl

set_option maxRecDepth 1000 in
theorem checksumLoop_cons (ch : Char) (desc : Str) (c cls clscount : ℕ) :
    checksumLoop (ch :: desc) c cls clscount = match INPUT_CHARSET.idxOf? ch with
      | none => none
      | some pos =>
        if clscount + 1 = 3 then
          checksumLoop desc (polyMod (polyMod c (pos &&& 31)) (cls * 3 + (pos >>> 5))) 0 0
        else checksumLoop desc (polyMod c (pos &&& 31)) (cls * 3 + (pos >>> 5)) (clscount + 1) := rfl

theorem checksumLoop_eq (desc : Str) (c cls clscount : ℕ) : checksumLoop desc c cls clscount =
    (positions desc).map fun ps => (symbols ps cls clscount).foldl polyMod c := by
  induction desc generalizing c cls clscount with
  | nil =>
    have hnil : positions [] = some [] := rfl
    rw [hnil, Option.map_some, checksumLoop_nil, symbols]
    split_ifs
    · rw [List.foldl_cons, List.foldl_nil]
    · rw [List.foldl_nil]
  | cons ch desc ih =>
    have hmask : ∀ pos, pos &&& 31 = pos % 32 := fun pos => Nat.and_two_pow_sub_one_eq_mod pos 5
    have hshift : ∀ pos, pos >>> 5 = pos / 32 := fun pos => Nat.shiftRight_eq_div_pow pos 5
    rw [checksumLoop_cons, positions_cons]
    cases INPUT_CHARSET.idxOf? ch with
    | none => rfl
    | some pos =>
      simp only [hmask, hshift, ih, Option.bind_some, Option.map_map]
      split_ifs with hcount
      · refine Option.map_congr fun ps _ => ?_
        rw [Function.comp_apply, symbols, if_pos hcount, List.foldl_cons, List.foldl_cons]
      · refine Option.map_congr fun ps _ => ?_
        rw [Function.comp_apply, symbols, if_neg hcount, List.foldl_cons]

theorem positions_eq_some {desc : Str} {ps : List ℕ} (h : positions desc = some ps) :
    List.Forall₂ (fun ch pos => INPUT_CHARSET.idxOf? ch = some pos) desc ps := by
  induction desc generalizing ps with
  | nil =>
    cases h
    exact .nil
  | cons ch desc ih =>
    rw [positions_cons] at h
    obtain ⟨pos, hpos, h⟩ := Option.bind_eq_some_iff.1 h
    obtain ⟨ps', hps, rfl⟩ := Option.map_eq_some_iff.1 h
    exact .cons hpos (ih hps)

theorem INPUT_CHARSET_length : INPUT_CHARSET.length = 95 :=
  (congrArg List.length String.toList_ofList).trans rfl

theorem idxOf?_injective {c d : Char} {pos : ℕ} (hc : INPUT_CHARSET.idxOf? c = some pos)
    (hd : INPUT_CHARSET.idxOf? d = some pos) : c = d := by
  obtain ⟨hpos, hcpos, -⟩ := List.idxOf?_eq_some_iff.1 hc
  obtain ⟨hpos', hdpos, -⟩ := List.idxOf?_eq_some_iff.1 hd
  exact hcpos.symm.trans hdpos

theorem idxOf?_lt {c : Char} {pos : ℕ} (hc : INPUT_CHARSET.idxOf? c = some pos) : pos < 96 := by
  obtain ⟨hpos, -, -⟩ := List.idxOf?_eq_some_iff.1 hc
  rw [INPUT_CHARSET_length] at hpos
  omega

theorem positions_getElem? {desc : Str} {ps : List ℕ} (h : positions desc = some ps) (j : ℕ) :
    ps[j]? = desc[j]?.bind fun ch => INPUT_CHARSET.idxOf? ch := by
  have hpos := positions_eq_some h
  clear h
  induction hpos generalizing j with
  | nil => rfl
  | cons hch _ ih =>
    cases j with
    | zero => exact hch.symm
    | succ j => exact ih j

theorem positions_lt {desc : Str} {ps : List ℕ} (h : positions desc = some ps) :
    ∀ pos ∈ ps, pos < 96 := by
  intro pos hpos
  obtain ⟨ch, -, hch⟩ := exists_of_forall₂_right (positions_eq_some h) hpos
  exact idxOf?_lt hch

/-- The numbers of a text say which text it is. -/
theorem positions_injective {s t : Str} {ps : List ℕ} (hs : positions s = some ps)
    (ht : positions t = some ps) : s = t := by
  have heq : List.Forall₂ (fun c d : Char => c = d) s t := by
    refine forall₂_trans ?_ (positions_eq_some hs) (positions_eq_some ht).flip
    intro c _ pos d hc hd
    exact idxOf?_injective hc hd
  rwa [List.forall₂_eq_eq_eq] at heq

theorem exists_positions {desc : Str} (h : ∀ ch ∈ desc, ch ∈ INPUT_CHARSET) :
    ∃ ps, positions desc = some ps := by
  induction desc with
  | nil => exact ⟨[], rfl⟩
  | cons ch desc ih =>
    obtain ⟨ps, hps⟩ := ih fun d hd => h d (List.mem_cons_of_mem ch hd)
    obtain ⟨pos, hpos⟩ := Option.isSome_iff_exists.1
      (List.isSome_idxOf?.2 (h ch List.mem_cons_self))
    exact ⟨pos :: ps, by rw [positions_cons, hpos, hps]; rfl⟩

theorem mem_of_positions {desc : Str} {ps : List ℕ} (h : positions desc = some ps) {ch : Char}
    (hch : ch ∈ desc) : ch ∈ INPUT_CHARSET := by
  induction desc generalizing ps with
  | nil => cases hch
  | cons d desc ih =>
    rw [positions_cons] at h
    obtain ⟨pos, hpos, h⟩ := Option.bind_eq_some_iff.1 h
    obtain ⟨ps', hps, -⟩ := Option.map_eq_some_iff.1 h
    rcases List.mem_cons.1 hch with rfl | hch
    · exact List.isSome_idxOf?.1 (by rw [hpos]; rfl)
    · exact ih hps hch

/-! ### Groups of three -/

theorem symbols_group (a b c : ℕ) (ps : List ℕ) : symbols (a :: b :: c :: ps) 0 0 =
    [a % 32, b % 32, c % 32, (a / 32 * 3 + b / 32) * 3 + c / 32] ++ symbols ps 0 0 := by
  simp [symbols]

theorem symbols_lt {ps : List ℕ} (h : ∀ pos ∈ ps, pos < 96) {cls clscount : ℕ}
    (hcls : cls < 3 ^ clscount) (hcount : clscount < 3) : ∀ x ∈ symbols ps cls clscount, x < 2 ^ 5 := by
  induction ps generalizing cls clscount with
  | nil =>
    intro x hx
    unfold symbols at hx
    split_ifs at hx
    · rw [List.mem_singleton.1 hx]
      have : 3 ^ clscount ≤ 3 ^ 2 := Nat.pow_le_pow_right (by omega) (by omega)
      omega
    · cases hx
  | cons pos ps ih =>
    intro x hx
    have hpos := h pos List.mem_cons_self
    have hrest : ∀ pos ∈ ps, pos < 96 := fun p hp => h p (List.mem_cons_of_mem pos hp)
    have hnext : cls * 3 + pos / 32 < 3 ^ (clscount + 1) := by
      rw [pow_succ]
      omega
    unfold symbols at hx
    rcases List.mem_cons.1 hx with rfl | hx
    · omega
    · split_ifs at hx with hthree
      · rcases List.mem_cons.1 hx with rfl | hx
        · rw [hthree] at hnext
          omega
        · exact ih hrest (by omega) (by omega) x hx
      · exact ih hrest hnext (by omega) x hx

/-- Groups of three are fed one after the other. -/
theorem symbols_append {u : List ℕ} {k : ℕ} (h : u.length = 3 * k) (t : List ℕ) :
    symbols (u ++ t) 0 0 = symbols u 0 0 ++ symbols t 0 0 := by
  induction k generalizing u with
  | zero =>
    obtain rfl := List.length_eq_zero_iff.1 h
    rfl
  | succ k ih =>
    obtain ⟨a, b, c, u, rfl⟩ : ∃ a b c u', u = a :: b :: c :: u' := by
      match u, h with
      | a :: b :: c :: u, _ => exact ⟨a, b, c, u, rfl⟩
    have hu : u.length = 3 * k := by
      simp only [List.length_cons] at h
      omega
    rw [List.cons_append, List.cons_append, List.cons_append, symbols_group, symbols_group, ih hu,
      List.append_assoc]

theorem length_symbols {w : List ℕ} (h : w.length ≤ 6) : (symbols w 0 0).length ≤ 8 := by
  match w, h with
  | [], _ => simp [symbols]
  | [_], _ => simp [symbols]
  | [_, _], _ => simp [symbols]
  | [_, _, _], _ => simp [symbols]
  | [_, _, _, _], _ => simp [symbols]
  | [_, _, _, _, _], _ => simp [symbols]
  | [_, _, _, _, _, _], _ => simp [symbols]

theorem length_symbols_eq {w w' : List ℕ} (h : w.length = w'.length) (cls cls' clscount : ℕ) :
    (symbols w cls clscount).length = (symbols w' cls' clscount).length := by
  induction w generalizing w' cls cls' clscount with
  | nil =>
    obtain rfl := List.length_eq_zero_iff.1 h.symm
    unfold symbols
    split_ifs <;> rfl
  | cons a w ih =>
    match w', h with
    | a' :: w', h =>
      have hw : w.length = w'.length := by simpa using h
      unfold symbols
      split_ifs
      · simp [ih hw 0 0 0]
      · simp [ih hw _ (cls' * 3 + a' / 32) (clscount + 1)]

/-- The symbols tell texts of one length apart. -/
theorem symbols_injective : ∀ {w w' : List ℕ}, w.length = w'.length → (∀ pos ∈ w, pos < 96) →
    (∀ pos ∈ w', pos < 96) → symbols w 0 0 = symbols w' 0 0 → w = w'
  | [], [], _, _, _, _ => rfl
  | [a], [a'], _, _, _, heq => by
    simp [symbols] at heq
    rw [show a = a' by omega]
  | [a, b], [a', b'], _, hw, hw', heq => by
    simp only [List.forall_mem_cons] at hw hw'
    simp [symbols] at heq
    rw [show a = a' by omega, show b = b' by omega]
  | a :: b :: c :: w, a' :: b' :: c' :: w', hlen, hw, hw', heq => by
    simp only [List.forall_mem_cons] at hw hw'
    obtain ⟨ha, hb, hc, hw⟩ := hw
    obtain ⟨ha', hb', hc', hw'⟩ := hw'
    rw [symbols_group, symbols_group] at heq
    simp only [List.cons_append, List.nil_append, List.cons.injEq] at heq
    obtain ⟨hlow, hlow', hlow'', hhigh, hrest⟩ := heq
    rw [show a = a' by omega, show b = b' by omega, show c = c' by omega,
      symbols_injective (by simpa using hlen) hw hw' hrest]

/-! ### The text of a checksum -/

theorem CHECKSUM_CHARSET_length : CHECKSUM_CHARSET.length = 32 :=
  (congrArg List.length String.toList_ofList).trans rfl

theorem CHECKSUM_CHARSET_nodup : CHECKSUM_CHARSET.Nodup :=
  (congrArg List.Nodup String.toList_ofList).mpr (by decide)

theorem charset_injective {i j : ℕ} (hi : i < 32) (hj : j < 32)
    (h : CHECKSUM_CHARSET.getD i 'q' = CHECKSUM_CHARSET.getD j 'q') : i = j :=
  Alphabet.getD_injective 'q' CHECKSUM_CHARSET_nodup (CHECKSUM_CHARSET_length.symm ▸ hi)
    (CHECKSUM_CHARSET_length.symm ▸ hj) h

/-- The characters of a register. -/
def registerText (c : ℕ) : Str :=
  (List.range 8).map fun j => CHECKSUM_CHARSET.getD ((c >>> (5 * (7 - j))) &&& 31) 'q'

theorem registerText_injective {c c' : ℕ} (hc : c < 2 ^ 40) (hc' : c' < 2 ^ 40)
    (h : registerText c = registerText c') : c = c' := by
  refine @eq_of_digits_eq 32 8 c c' (by omega) (by omega) fun j hj => ?_
  -- the last character has the lowest digit
  have hchar := List.map_inj_left.1 h (7 - j) (List.mem_range.2 (by omega))
  have hmask : ∀ n, n &&& 31 = n % 32 := fun n => Nat.and_two_pow_sub_one_eq_mod n 5
  have hplace : 2 ^ (5 * (7 - (7 - j))) = 32 ^ j := by
    rw [pow_mul, Nat.sub_sub_self (by omega)]
    rfl
  rw [hmask, hmask, Nat.shiftRight_eq_div_pow, Nat.shiftRight_eq_div_pow, hplace] at hchar
  exact charset_injective (Nat.mod_lt _ (by omega)) (Nat.mod_lt _ (by omega)) hchar

theorem descriptorChecksum_eq {desc : Str} {ps : List ℕ} (h : positions desc = some ps) :
    descriptorChecksum desc =
      registerText ((symbols ps 0 0 ++ List.replicate 8 0).foldl polyMod 1 ^^^ 1) := by
  unfold descriptorChecksum
  rw [checksumLoop_eq, h, Option.map_some, List.foldl_append]
  rfl

theorem descriptorChecksum_foreign {desc : Str} (h : positions desc = none) :
    descriptorChecksum desc = [] := by
  unfold descriptorChecksum
  rw [checksumLoop_eq, h]
  rfl

/-! ### Changes in a window -/

/-- Two texts that agree outside of two groups of three. -/
theorem eq_of_register_eq {u w w' v : List ℕ} {k : ℕ} (hu : u.length = 3 * k) (hlen : w.length ≤ 6)
    (hsame : w.length = w'.length) (hend : w.length = 6 ∨ v = []) (hps : ∀ pos ∈ u ++ w ++ v, pos < 96)
    (hqs : ∀ pos ∈ u ++ w' ++ v, pos < 96) (heq : (symbols (u ++ w ++ v) 0 0).foldl polyMod 1 =
      (symbols (u ++ w' ++ v) 0 0).foldl polyMod 1) : w = w' := by
  simp only [List.mem_append] at hps hqs
  have hsplit : ∀ w : List ℕ, w.length = 6 ∨ v = [] →
      symbols (u ++ w ++ v) 0 0 = symbols u 0 0 ++ symbols w 0 0 ++ symbols v 0 0 := by
    intro w hw
    rw [List.append_assoc, symbols_append hu, List.append_assoc]
    rcases hw with hw | rfl
    · rw [symbols_append (k := 2) hw]
    · rw [List.append_nil]
      simp [symbols]
  rw [hsplit w hend, hsplit w' (hsame ▸ hend)] at heq
  have hbound : ∀ l : List ℕ, (∀ pos ∈ l, pos < 96) → ∀ x ∈ symbols l 0 0, x < 2 ^ 5 := fun l hl =>
    symbols_lt hl (by omega) (by omega)
  refine symbols_injective hsame (fun pos hpos => hps pos (Or.inl (Or.inr hpos)))
    (fun pos hpos => hqs pos (Or.inl (Or.inr hpos))) ?_
  refine shiftRegister_polyMod.burst_detected (by omega) (hbound u fun pos hpos => hps pos (Or.inl (Or.inl hpos)))
    (hbound w fun pos hpos => hps pos (Or.inl (Or.inr hpos)))
    (hbound w' fun pos hpos => hqs pos (Or.inl (Or.inr hpos)))
    (hbound v fun pos hpos => hps pos (Or.inr hpos)) ?_ (length_symbols_eq hsame 0 0 0) heq
  have := length_symbols hlen
  omega

theorem eq_of_window {ps qs : List ℕ} (hlen : ps.length = qs.length) (hps : ∀ pos ∈ ps, pos < 96)
    (hqs : ∀ pos ∈ qs, pos < 96) {i : ℕ} (hwindow : ∀ j, j < i ∨ i + 4 ≤ j → ps[j]? = qs[j]?)
    (heq : (symbols ps 0 0).foldl polyMod 1 = (symbols qs 0 0).foldl polyMod 1) : ps = qs := by
  have hcut : ∀ l : List ℕ, l = l.take (3 * (i / 3)) ++ (l.drop (3 * (i / 3))).take 6 ++
      l.drop (3 * (i / 3) + 6) := by
    intro l
    rw [List.append_assoc, ← List.drop_drop, List.take_append_drop, List.take_append_drop]
  have hbefore : ps.take (3 * (i / 3)) = qs.take (3 * (i / 3)) := by
    apply List.ext_getElem?
    intro j
    rw [List.getElem?_take, List.getElem?_take]
    split_ifs
    · exact hwindow j (Or.inl (by omega))
    · rfl
  have hafter : ps.drop (3 * (i / 3) + 6) = qs.drop (3 * (i / 3) + 6) := by
    apply List.ext_getElem?
    intro j
    rw [List.getElem?_drop, List.getElem?_drop]
    exact hwindow _ (Or.inr (by omega))
  by_cases hshort : ps.length < 3 * (i / 3)
  · rw [← List.take_of_length_le (l := ps) hshort.le, hbefore,
      List.take_of_length_le (hlen ▸ hshort.le)]
  · have hmiddle : (ps.drop (3 * (i / 3))).take 6 = (qs.drop (3 * (i / 3))).take 6 := by
      have hps' := hcut ps
      have hqs' := hcut qs
      rw [← hbefore, ← hafter] at hqs'
      rw [hps', hqs'] at heq
      rw [hps'] at hps
      rw [hqs'] at hqs
      refine eq_of_register_eq (k := i / 3) ?_ ?_ ?_ ?_ hps hqs heq
      · rw [List.length_take]
        omega
      · simp
      · simp [hlen]
      · by_cases hlast : ps.length < 3 * (i / 3) + 6
        · exact Or.inr (List.drop_eq_nil_of_le hlast.le)
        · left
          rw [List.length_take, List.length_drop]
          omega
    rw [hcut ps, hbefore, hmiddle, hafter, ← hcut qs]

/-- The checksum tells apart any two texts of one length that differ within four
consecutive characters. -/
theorem descriptorChecksum_ne {s t : Str} (hlen : s.length = t.length)
    (hs : ∀ ch ∈ s, ch ∈ INPUT_CHARSET) (ht : ∀ ch ∈ t, ch ∈ INPUT_CHARSET) (hne : s ≠ t) (i : ℕ)
    (hwindow : ∀ j, j < i ∨ i + 4 ≤ j → s[j]? = t[j]?) :
    descriptorChecksum s ≠ descriptorChecksum t := by
  obtain ⟨ps, hps⟩ := exists_positions hs
  obtain ⟨qs, hqs⟩ := exists_positions ht
  intro heq
  rw [descriptorChecksum_eq hps, descriptorChecksum_eq hqs] at heq
  have hbound : ∀ ps : List ℕ, (∀ pos ∈ ps, pos < 96) → (symbols ps 0 0).foldl polyMod 1 < 2 ^ 40 :=
    fun ps hps => shiftRegister_polyMod.foldl_bounded (by omega) (symbols_lt hps (by omega) (by omega))
  have hzeros : ∀ x ∈ List.replicate 8 0, x < 2 ^ 5 := fun x hx => by
    rw [List.eq_of_mem_replicate hx]
    omega
  have hps40 := hbound ps (positions_lt hps)
  have hqs40 := hbound qs (positions_lt hqs)
  have hregister := registerText_injective
    (Nat.xor_lt_two_pow (by rw [List.foldl_append]; exact shiftRegister_polyMod.foldl_bounded hps40 hzeros)
      (by omega))
    (Nat.xor_lt_two_pow (by rw [List.foldl_append]; exact shiftRegister_polyMod.foldl_bounded hqs40 hzeros)
      (by omega)) heq
  have hfinal := Nat.xor_left_injective hregister
  simp only [List.foldl_append] at hfinal
  have hsymbols := shiftRegister_polyMod.foldl_injective hps40 hqs40 hzeros hfinal
  have hlength : ps.length = qs.length := by
    rw [← (positions_eq_some hps).length_eq, ← (positions_eq_some hqs).length_eq, hlen]
  have hsame : ps = qs := by
    refine eq_of_window (i := i) hlength (positions_lt hps) (positions_lt hqs) (fun j hj => ?_) hsymbols
    rw [positions_getElem? hps, positions_getElem? hqs, hwindow j hj]
  exact hne (positions_injective hps (hsame ▸ hqs))

theorem descriptorChecksum_ne_sample :
    descriptorChecksum ['p', 'k', '(', '0', '2', ')'] ≠
      descriptorChecksum ['p', 'k', '(', '2', '0', ')'] := by
  refine descriptorChecksum_ne (i := 2) rfl (List.forall_iff_forall_mem.mp (by decide +kernel))
    (List.forall_iff_forall_mem.mp (by decide +kernel)) (by decide +kernel) ?_
  intro j hj
  match j, hj with
  | 0, _ | 1, _ => rfl
  | 2, hj | 3, hj | 4, hj | 5, hj => omega
  | _ + 6, _ => rfl

/-! ### Descriptors with a checksum -/

theorem registerText_length (c : ℕ) : (registerText c).length = 8 := by
  unfold registerText
  rw [List.length_map, List.length_range]

/-- A checksum is computed for the texts of known characters only, and no other
text has eight characters of it. -/
theorem descriptorChecksum_length (desc : Str) : (∀ ch ∈ desc, ch ∈ INPUT_CHARSET) ∧
    (descriptorChecksum desc).length = 8 ∨ descriptorChecksum desc = [] := by
  cases h : positions desc with
  | none => exact Or.inr (descriptorChecksum_foreign h)
  | some ps =>
    refine Or.inl ⟨fun ch hch => mem_of_positions h hch, ?_⟩
    rw [descriptorChecksum_eq h, registerText_length]

theorem checksum_of_stripChecksum {s body checksum desc : Str}
    (hcut : cut '#' s = some (body, checksum)) (h : stripChecksum s = .ok desc) :
    checksum = descriptorChecksum body := by
  unfold stripChecksum at h
  rw [hcut] at h
  dsimp only at h
  split_ifs at h with hne
  exact (not_not.1 hne).symm

/-- The text after the first `#` of a descriptor is its checksum, unless it is
empty: nothing is what a text with foreign characters has for a checksum. -/
theorem parseDescriptor_checksum_iff {s body checksum : Str} {d : Descriptor}
    (hcut : cut '#' s = some (body, checksum)) (h : parseDescriptor s = .ok d) :
    ((∀ ch ∈ body, ch ∈ INPUT_CHARSET) ∧ checksum.length = 8 ∧ checksum = descriptorChecksum body) ↔
      checksum ≠ [] := by
  obtain ⟨desc, hstrip, -⟩ := bind_eq_ok.1 h
  obtain rfl := checksum_of_stripChecksum hcut hstrip
  constructor
  · rintro ⟨-, hlen, -⟩ hnil
    rw [hnil] at hlen
    cases hlen
  · intro hne
    rcases descriptorChecksum_length body with ⟨hmem, hlen⟩ | hnil
    · exact ⟨hmem, hlen, rfl⟩
    · exact absurd hnil hne

theorem parseDescriptor_checksum_iff_sample :
    ∃ checksum : Str, cut '#' (addChecksum ['p', 'k', '(', 'a', 'b', ')']) =
        some (['p', 'k', '(', 'a', 'b', ')'], checksum) ∧
      (((∀ ch ∈ (['p', 'k', '(', 'a', 'b', ')'] : Str), ch ∈ INPUT_CHARSET) ∧ checksum.length = 8 ∧
        checksum = descriptorChecksum ['p', 'k', '(', 'a', 'b', ')']) ↔ checksum ≠ []) := by
  have hcut : cut '#' (addChecksum ['p', 'k', '(', 'a', 'b', ')']) =
      some (['p', 'k', '(', 'a', 'b', ')'], descriptorChecksum ['p', 'k', '(', 'a', 'b', ')']) := by
    decide +kernel
  have hsome : (parseDescriptor (addChecksum ['p', 'k', '(', 'a', 'b', ')'])).toOption.isSome = true := by
    decide +kernel
  obtain ⟨d, hd⟩ := Option.isSome_iff_exists.1 hsome
  exact ⟨_, hcut, parseDescriptor_checksum_iff hcut (toOption_eq_some.1 hd)⟩

/-- A text with a foreign character after its last parenthesis is accepted with no
checksum after the `#`. -/
theorem parseDescriptor_empty_checksum :
    ¬ ∀ (s body checksum : Str) (d : Descriptor), cut '#' s = some (body, checksum) →
      parseDescriptor s = .ok d →
      (∀ ch ∈ body, ch ∈ INPUT_CHARSET) ∧ checksum.length = 8 ∧ checksum = descriptorChecksum body := by
  intro h
  have hcut : cut '#' ['p', 'k', '(', 'a', 'b', ')', 'é', '#'] =
      some (['p', 'k', '(', 'a', 'b', ')', 'é'], []) := by decide
  have hsome : (parseDescriptor ['p', 'k', '(', 'a', 'b', ')', 'é', '#']).toOption.isSome = true := by
    decide +kernel
  obtain ⟨d, hd⟩ := Option.isSome_iff_exists.1 hsome
  obtain ⟨-, hlen, -⟩ := h _ _ _ d hcut (toOption_eq_some.1 hd)
  cases hlen

end Hwi
