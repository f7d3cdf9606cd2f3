import Hwi.Proofs.DescriptorText

/-! A printed tree of leaf scripts read back: the braces that the printer opens
and closes by depth are those of the tree, and the parser's stack follows them. -/

namespace Hwi

/-- A tree in braces. -/
def printTree {α : Type} (f : α → Str) : LeafTree α → Str
  | .leaf a => f a
  | .node l r => ['{'] ++ printTree f l ++ [','] ++ printTree f r ++ ['}']

/-! ### Printing by depth -/

theorem openBraces_succ (n : ℕ) (path : List Bool) : openBraces (n + 1) path =
    ((openBraces n path).1 ++ (if 0 < path.length + n then ['{'] else []),
      false :: (openBraces n path).2) := by
  induction n generalizing path with
  | zero => rfl
  | succ n ih =>
    rw [openBraces, ih, openBraces]
    simp only [List.length_cons]
    rw [if_pos (show 0 < path.length + 1 + n by omega), if_pos (show 0 < path.length + (n + 1) by omega)]
    split_ifs <;> rfl

theorem openBraces_length (n : ℕ) (path : List Bool) :
    (openBraces n path).2.length = n + path.length := by
  induction n generalizing path with
  | zero => exact (Nat.zero_add _).symm
  | succ n ih =>
    rw [openBraces, ih, List.length_cons]
    omega

/-- What follows a subtree. -/
def finishString (leaves : List (Str × ℕ)) (path : List Bool) : Str :=
  (closeBraces path).1 ++ treeString leaves (turnRight (closeBraces path).2)

theorem treeString_cons (leaf : Str) (depth : ℕ) (leaves : List (Str × ℕ)) (path : List Bool) :
    treeString ((leaf, depth) :: leaves) path =
      [','] ++ (openBraces (depth + 1 - path.length) path).1 ++ leaf ++
        finishString leaves (openBraces (depth + 1 - path.length) path).2 := by
  rw [treeString, finishString, ← List.append_assoc]

theorem treeString_leavesAt {α : Type} (f : α → Str) (t : LeafTree α) (n : ℕ) (path : List Bool)
    (rest : List (Str × ℕ)) (h : path.length ≤ n + 1) :
    treeString ((t.leavesAt n).map (fun q => (f q.1, q.2)) ++ rest) path =
      [','] ++ (openBraces (n + 1 - path.length) path).1 ++ printTree f t ++
        finishString rest (openBraces (n + 1 - path.length) path).2 := by
  induction t generalizing n path rest with
  | leaf a => exact treeString_cons (f a) n rest path
  | node l r ihl ihr =>
    have hsucc : n + 1 + 1 - path.length = (n + 1 - path.length) + 1 := by omega
    rw [LeafTree.leavesAt, List.map_append, List.append_assoc, ihl _ _ _ (by omega), hsucc,
      openBraces_succ, if_pos (by omega)]
    have hlen : (openBraces (n + 1 - path.length) path).2.length = n + 1 := by
      rw [openBraces_length]
      omega
    generalize openBraces (n + 1 - path.length) path = opened at hlen
    obtain ⟨braces, path'⟩ := opened
    dsimp only at hlen ⊢
    have hleft : finishString ((r.leavesAt (n + 1)).map (fun q => (f q.1, q.2)) ++ rest) (false :: path') =
        treeString ((r.leavesAt (n + 1)).map (fun q => (f q.1, q.2)) ++ rest) (true :: path') := rfl
    have hright : finishString rest (true :: path') = ['}'] ++ finishString rest path' := rfl
    rw [hleft, ihr _ _ _ (by simp [hlen]), List.length_cons, hlen, Nat.sub_self]
    dsimp only [openBraces]
    rw [hright, printTree]
    simp

/-- The printer of a descriptor draws the tree. -/
theorem treeString_depths {α : Type} (f : α → Str) (t : LeafTree α) :
    treeString ((t.leaves.map f).zip t.depths) [] = ',' :: printTree f t := by
  have hzip : (t.leaves.map f).zip t.depths = (t.leavesAt 0).map fun q => (f q.1, q.2) := by
    rw [← t.map_fst_leavesAt 0, LeafTree.depths, List.map_map, List.zip_map']
    rfl
  have htree := treeString_leavesAt f t 0 [] [] (Nat.zero_le _)
  rw [List.append_nil, ← hzip] at htree
  rw [htree]
  have hfinish : finishString [] (openBraces 1 []).2 = [] := rfl
  change [','] ++ (openBraces 1 []).1 ++ printTree f t ++ finishString [] (openBraces 1 []).2 = _
  rw [hfinish, List.append_nil]
  rfl

theorem leaves_le_printTree {α : Type} {f : α → Str} {t : LeafTree α} (h : ∀ a ∈ t.leaves, f a ≠ []) :
    t.leaves.length ≤ (printTree f t).length := by
  induction t with
  | leaf a => exact List.length_pos_of_ne_nil (h a List.mem_cons_self)
  | node l r ihl ihr =>
    have hl := ihl fun a ha => h a (List.mem_append_left _ ha)
    have hr := ihr fun a ha => h a (List.mem_append_right _ ha)
    rw [LeafTree.leaves, printTree]
    simp only [List.length_append]
    omega

/-! ### Leaf expressions -/

theorem getExpr_plain {s : Str} {level : ℕ} (h : ∀ c ∈ s, c ∉ ['(', ')', '{', '}'] ∧ (level = 0 → c ≠ ','))
    (rest : Str) : getExpr level (s ++ rest) =
      (s ++ (getExpr level rest).1, (getExpr level rest).2) := by
  induction s with
  | nil => rfl
  | cons c s ih =>
    obtain ⟨hc, hcomma⟩ := h c List.mem_cons_self
    simp only [List.mem_cons, List.not_mem_nil, or_false, not_or] at hc
    obtain ⟨h₁, h₂, h₃, h₄⟩ := hc
    rw [List.cons_append, getExpr, if_neg (by tauto), if_neg (by tauto), if_neg (by tauto),
      ih fun d hd => h d (List.mem_cons_of_mem c hd)]
    rfl

/-- The end of an expression, or what ends a leaf. -/
def Ends : Str → Prop
  | [] => True
  | c :: _ => c = ')' ∨ c = '}' ∨ c = ','

theorem getExpr_ends {tail : Str} (h : Ends tail) : getExpr 0 tail = ([], tail) := by
  cases tail with
  | nil => rfl
  | cons c tail =>
    rcases h with rfl | rfl | rfl <;> rfl

theorem getExpr_func {name : String} {body tail : Str}
    (hname : ∀ c ∈ name.toList, c ∉ ['(', ')', '{', '}', ','])
    (hbody : ∀ c ∈ body, c ∉ ['(', ')', '{', '}']) (htail : Ends tail) :
    getExpr 0 (funcString name body ++ tail) = (funcString name body, tail) := by
  have hclose : getExpr 1 (')' :: tail) = ([')'], tail) := by
    rw [getExpr, if_neg (by simp), if_pos (by simp), getExpr_ends htail]
  have hinner : getExpr 1 (body ++ ')' :: tail) = (body ++ [')'], tail) := by
    rw [getExpr_plain (fun c hc => ⟨hbody c hc, by simp⟩), hclose]
  have hopen : getExpr 0 ('(' :: (body ++ ')' :: tail)) = ('(' :: (body ++ [')']), tail) := by
    rw [getExpr, if_pos (by simp), hinner]
  have hstr : funcString name body ++ tail = name.toList ++ '(' :: (body ++ ')' :: tail) := by
    simp [funcString]
  rw [hstr, getExpr_plain (fun c hc => ⟨?_, ?_⟩), hopen]
  · simp [funcString]
  · have := hname c hc
    simp at this ⊢
    tauto
  · have := hname c hc
    simp at this ⊢
    tauto

/-! ### Parsing -/

/-- What the parser does after a subtree. -/
def finishTree (parseLeaf : Str → ℕ → Except Exc (Descriptor × ℕ)) (n : ℕ) (expr : Str)
    (branches : List Bool) (i : ℕ) (len : Option ℕ) : Except Exc (List Descriptor × List ℕ × ℕ) := do
  let (expr, branches) ← closeBranches expr branches
  let (expr, branches) ← nextBranch expr branches
  if branches = [] then return ([], [], i)
  parseTree parseLeaf n expr branches i len

variable {parseLeaf : Str → ℕ → Except Exc (Descriptor × ℕ)} {n i j : ℕ} {branches : List Bool}
  {len : Option ℕ} {expr tail : Str}

theorem parseTree_open (h : branches.length + 1 ≤ MAX_TAPROOT_NODES) :
    parseTree parseLeaf n ('{' :: expr) branches i len =
      parseTree parseLeaf n expr (false :: branches) i len := by
  cases n with
  | zero => rfl
  | succ n => rw [parseTree, parseTree, openBranches, if_neg (by simp), if_neg (not_lt.2 h)]

theorem finishTree_left :
    finishTree parseLeaf n (',' :: expr) (false :: branches) i len =
      parseTree parseLeaf n expr (true :: branches) i len := rfl

theorem finishTree_right :
    finishTree parseLeaf n ('}' :: expr) (true :: branches) i len =
      finishTree parseLeaf n expr branches i len := rfl

theorem finishTree_root : finishTree parseLeaf n [] [] i len = .ok ([], [], i) := rfl

/-- Leaves with their depths before what follows them. -/
def prependLeaves (ds : List Descriptor) (depths : List ℕ) (rest : List Descriptor × List ℕ × ℕ) :
    List Descriptor × List ℕ × ℕ :=
  (ds ++ rest.1, depths ++ rest.2.1, rest.2.2)

theorem prependLeaves_comp (ds ds' : List Descriptor) (depths depths' : List ℕ) :
    prependLeaves ds depths ∘ prependLeaves ds' depths' =
      prependLeaves (ds ++ ds') (depths ++ depths') := by
  funext rest
  simp [prependLeaves]

theorem parseTree_leaf {text : Str} {p : PubkeyProvider} {len' : Option ℕ} {c : Char} {s : Str}
    (htext : text = c :: s) (hc : c ≠ '{') (hexpr : getExpr 0 (text ++ tail) = (text, tail))
    (hleaf : parseLeaf text i = .ok (.pk p, j)) (hlen : checkMultipathLen len p = .ok len') :
    parseTree parseLeaf (n + 1) (text ++ tail) branches i len =
      prependLeaves [.pk p] [branches.length] <$> finishTree parseLeaf n tail branches j len' := by
  have hopen : openBranches (text ++ tail) branches = .ok (text ++ tail, branches) := by
    rw [htext, List.cons_append, openBranches, if_pos hc]
  have hfold : (Descriptor.pk p).pubkeys.foldlM checkMultipathLen len = .ok len' := by
    rw [Descriptor.pubkeys, List.foldlM_cons, hlen]
    rfl
  rw [parseTree, hopen, ok_bind]
  dsimp only
  rw [hexpr]
  dsimp only
  rw [hleaf, ok_bind]
  dsimp only
  rw [hfold, ok_bind, finishTree]
  cases closeBranches tail branches with
  | error e => rfl
  | ok q =>
    rw [ok_bind, ok_bind]
    dsimp only
    cases nextBranch q.1 q.2 with
    | error e => rfl
    | ok r =>
      rw [ok_bind, ok_bind]
      split_ifs
      · rfl
      · cases parseTree parseLeaf n r.1 r.2 j len' <;> rfl

/-- A length that agrees with more keys to come stays in agreement after one. -/
theorem checkMultipathLen_agree {agreed len : Option ℕ} {p : PubkeyProvider} (h : Agree agreed [p])
    (hlen : len = none ∨ len = agreed) :
    ∃ len', checkMultipathLen len p.normal = .ok len' ∧ (len' = none ∨ len' = agreed) := by
  have hp := h p List.mem_cons_self
  unfold checkMultipathLen
  rw [PubkeyProvider.normal_multipathLen]
  split_ifs with hmulti
  · have hagreed := hp hmulti
    rcases hlen with rfl | rfl
    · exact ⟨_, rfl, Or.inr hagreed.symm⟩
    · rw [hagreed]
      exact ⟨_, if_neg (by simp), Or.inr rfl⟩
  · exact ⟨len, rfl, hlen⟩

theorem getExpr_leaf {p : PubkeyProvider} (h : p.Printable) (htail : Ends tail) :
    getExpr 0 (funcString "pk" (p.toString 'h') ++ tail) = (funcString "pk" (p.toString 'h'), tail) := by
  apply getExpr_func (by simp) _ htail
  intro c hc hmem
  refine PubkeyProvider.toString_free h.parsed ?_ ?_ hc
  · simp only [List.mem_cons, List.not_mem_nil, or_false] at hmem
    rcases hmem with rfl | rfl | rfl | rfl <;> rfl
  · simp only [List.mem_cons, List.not_mem_nil, or_false] at hmem
    rcases hmem with rfl | rfl | rfl | rfl <;> simp

/-- A printed tree is read back as its leaves with their depths, whatever ends it. -/
theorem parseTree_print (parseLeaf : Str → ℕ → Except Exc (Descriptor × ℕ)) (n : ℕ)
    (branches : List Bool) (tail : Str) {t : LeafTree Descriptor} {ps : List PubkeyProvider} {agreed : Option ℕ}
    (hleaf : ∀ p ∈ ps, parseLeaf (funcString "pk" (p.toString 'h')) p.exprIndex =
      .ok (.pk p.normal, p.exprIndex + 1))
    (hleaves : t.leaves = ps.map .pk) (hprint : ∀ p ∈ ps, p.Printable)
    (hnum : ps.map PubkeyProvider.exprIndex = List.range' i ps.length) (hagree : Agree agreed ps)
    (hlen : len = none ∨ len = agreed) (hheight : branches.length + t.height ≤ MAX_TAPROOT_NODES)
    (htail : Ends tail) :
    ∃ len', (len' = none ∨ len' = agreed) ∧
      parseTree parseLeaf (ps.length + n) (printTree (Descriptor.toStringNoChecksum 'h') t ++ tail)
          branches i len =
        prependLeaves (ps.map fun p => .pk p.normal) ((t.leavesAt branches.length).map Prod.snd) <$>
          finishTree parseLeaf n tail branches (i + ps.length) len' := by
  induction t generalizing ps n i len branches tail with
  | leaf d =>
    obtain ⟨p, rfl, rfl⟩ := List.map_eq_singleton_iff.1 hleaves.symm
    obtain ⟨len', hcheck, hlen'⟩ := checkMultipathLen_agree hagree hlen
    have hp := List.mem_singleton_self p
    obtain rfl : p.exprIndex = i := by simpa using hnum
    refine ⟨len', hlen', ?_⟩
    rw [List.length_singleton, Nat.add_comm 1 n]
    exact parseTree_leaf rfl (by decide) (getExpr_leaf (hprint p hp) htail) (hleaf p hp) hcheck
  | node l r ihl ihr =>
    obtain ⟨ps₁, ps₂, rfl, hl, hr⟩ := List.append_eq_map_iff.1 hleaves
    rw [List.map_append, List.length_append, ← List.range'_append_1] at hnum
    obtain ⟨hnum₁, hnum₂⟩ := List.append_inj hnum (by simp)
    rw [LeafTree.height] at hheight
    set printed := printTree (Descriptor.toStringNoChecksum 'h')
    have hstr : printed (.node l r) ++ tail =
        '{' :: (printed l ++ ',' :: (printed r ++ '}' :: tail)) := by
      simp [printed, printTree]
    obtain ⟨len₁, hlen₁, hleft⟩ := ihl (ps₂.length + n) (false :: branches)
      (',' :: (printed r ++ '}' :: tail))
      (fun p hp => hleaf p (List.mem_append_left _ hp)) hl.symm
      (fun p hp => hprint p (List.mem_append_left _ hp)) hnum₁
      (fun p hp => hagree p (List.mem_append_left _ hp)) hlen
      (by rw [List.length_cons]; omega) (Or.inr (Or.inr rfl))
    obtain ⟨len₂, hlen₂, hright⟩ := ihr n (true :: branches) ('}' :: tail)
      (fun p hp => hleaf p (List.mem_append_right _ hp)) hr.symm
      (fun p hp => hprint p (List.mem_append_right _ hp)) hnum₂
      (fun p hp => hagree p (List.mem_append_right _ hp)) hlen₁
      (by rw [List.length_cons]; omega) (Or.inr (Or.inl rfl))
    refine ⟨len₂, hlen₂, ?_⟩
    rw [hstr, parseTree_open (by omega), List.length_append, Nat.add_assoc, hleft, finishTree_left,
      hright, finishTree_right, ← comp_map, prependLeaves_comp, Nat.add_assoc]
    simp [LeafTree.leavesAt]

end Hwi
