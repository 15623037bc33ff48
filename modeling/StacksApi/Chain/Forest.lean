import Mathlib.Data.List.Nodup
import Mathlib.Logic.Relation
import Mathlib.Order.Basic
import Mathlib.Tactic.Common

/-!
# Forests of blocks with one flagged branch

A block says where it stands by a hash, the hash of its parent and a height.
This module is about finite forests of such links, listed in the order in which
they were stored, and about flags on hashes.  `Spine` says that the flagged
blocks form one branch as far as it goes, `Canonical` that this branch ends in
the first stored block of maximum height; then the flagged blocks are exactly
the ancestors of that block.  Blocks of height one are roots: nothing is
required of the parent they name.
-/

namespace StacksApi.Chain

universe u

/-- The place of a block in a forest. -/
structure Link (ι : Type u) where
  hash : ι
  parent : ι
  height : Nat
  deriving DecidableEq

variable {ι : Type u}

/-- `p` is the block that `b`, which is no root, names as its parent. -/
def Link.IsParent (p b : Link ι) : Prop :=
  1 < b.height ∧ p.hash = b.parent

/-- `a` is reached from `b` by following parents inside `links`. -/
def Ancestor (links : List (Link ι)) : Link ι → Link ι → Prop :=
  Relation.ReflTransGen fun p b => p ∈ links ∧ p.IsParent b

/-- The greatest height, zero for the empty forest. -/
def maxHeight (links : List (Link ι)) : Nat :=
  (links.map Link.height).foldr max 0

/-- The first link of maximum height. -/
def tip? (links : List (Link ι)) : Option (Link ι) :=
  links.find? fun b => b.height = maxHeight links

/-- Hashes identify links, heights start at one and the parent of every block
above that is present one height below. -/
structure Grounded (links : List (Link ι)) : Prop where
  nodup : (links.map Link.hash).Nodup
  heightPos : ∀ b ∈ links, 1 ≤ b.height
  parentStored : ∀ b ∈ links, 1 < b.height →
    ∃ p ∈ links, p.hash = b.parent ∧ p.height + 1 = b.height

/-! ## Heights -/

theorem height_le_maxHeight {links : List (Link ι)} {b : Link ι} (mem : b ∈ links) :
    b.height ≤ maxHeight links := by
  induction links with
  | nil => cases mem
  | cons head tail ih =>
      rcases List.mem_cons.mp mem with rfl | mem
      · exact Nat.le_max_left _ _
      · exact Nat.le_trans (ih mem) (Nat.le_max_right _ _)

theorem maxHeight_le {links : List (Link ι)} {bound : Nat}
    (bounded : ∀ b ∈ links, b.height ≤ bound) : maxHeight links ≤ bound := by
  induction links with
  | nil => exact Nat.zero_le _
  | cons head tail ih =>
      exact Nat.max_le_of_le_of_le (bounded head List.mem_cons_self)
        (ih fun b mem => bounded b (List.mem_cons_of_mem _ mem))

theorem exists_height_eq_maxHeight {links : List (Link ι)} (nonempty : links ≠ []) :
    ∃ b ∈ links, b.height = maxHeight links := by
  induction links with
  | nil => exact absurd rfl nonempty
  | cons head tail ih =>
      rcases Nat.le_total (maxHeight tail) head.height with above | below
      · exact ⟨head, List.mem_cons_self, (Nat.max_eq_left above).symm⟩
      · cases tail with
        | nil => exact ⟨head, List.mem_cons_self, (Nat.max_eq_left (Nat.zero_le _)).symm⟩
        | cons next rest =>
            obtain ⟨b, mem, top⟩ := ih (List.cons_ne_nil _ _)
            exact ⟨b, List.mem_cons_of_mem _ mem, top.trans (Nat.max_eq_right below).symm⟩

theorem maxHeight_append_singleton (links : List (Link ι)) (b : Link ι) :
    maxHeight (links ++ [b]) = max (maxHeight links) b.height := by
  apply Nat.le_antisymm
  · apply maxHeight_le
    intro c mem
    rcases List.mem_append.mp mem with old | new
    · exact Nat.le_trans (height_le_maxHeight old) (Nat.le_max_left _ _)
    · rw [List.mem_singleton.mp new]
      exact Nat.le_max_right _ _
  · apply Nat.max_le_of_le_of_le
    · apply maxHeight_le
      intro c mem
      exact height_le_maxHeight (List.mem_append_left _ mem)
    · exact height_le_maxHeight (List.mem_append_right _ (List.mem_singleton_self b))

theorem tip?_mem {links : List (Link ι)} {top : Link ι} (isTip : tip? links = some top) :
    top ∈ links ∧ top.height = maxHeight links :=
  ⟨List.mem_of_find?_eq_some isTip, by simpa using List.find?_some isTip⟩

theorem exists_tip? {links : List (Link ι)} (nonempty : links ≠ []) :
    ∃ top, tip? links = some top := by
  obtain ⟨b, mem, top⟩ := exists_height_eq_maxHeight nonempty
  exact Option.isSome_iff_exists.mp
    (List.find?_isSome.mpr ⟨b, mem, decide_eq_true top⟩)

/-- A link that is not higher than the forest leaves its tip in place. -/
theorem tip?_append_of_le {links : List (Link ι)} {b : Link ι} (pos : 1 ≤ b.height)
    (low : b.height ≤ maxHeight links) : tip? (links ++ [b]) = tip? links := by
  have nonempty : links ≠ [] := by
    rintro rfl
    exact absurd (Nat.le_trans pos low) (Nat.not_succ_le_zero 0)
  obtain ⟨top, isTip⟩ := exists_tip? nonempty
  have same : maxHeight (links ++ [b]) = maxHeight links := by
    rw [maxHeight_append_singleton, Nat.max_eq_left low]
  rw [tip?, same, List.find?_append, show links.find? _ = some top from isTip, isTip]
  rfl

/-- A link above the forest becomes its tip. -/
theorem tip?_append_of_lt {links : List (Link ι)} {b : Link ι}
    (high : maxHeight links < b.height) : tip? (links ++ [b]) = some b := by
  have same : maxHeight (links ++ [b]) = b.height := by
    rw [maxHeight_append_singleton, Nat.max_eq_right (Nat.le_of_lt high)]
  have none : links.find? (fun c => c.height = b.height) = none := by
    apply List.find?_eq_none.mpr
    intro c mem
    have below := height_le_maxHeight mem
    simp only [decide_eq_true_eq]
    omega
  rw [tip?, same, List.find?_append, none]
  simp

/-! ## Links of a grounded forest -/

namespace Grounded

variable {links : List (Link ι)}

theorem nil : Grounded ([] : List (Link ι)) where
  nodup := List.nodup_nil
  heightPos _ mem := nomatch mem
  parentStored _ mem := nomatch mem

theorem eq_of_hash (grounded : Grounded links) {a b : Link ι} (aMem : a ∈ links)
    (bMem : b ∈ links) (same : a.hash = b.hash) : a = b :=
  List.inj_on_of_nodup_map grounded.nodup aMem bMem same

theorem height_of_isParent (grounded : Grounded links) {p b : Link ι} (pMem : p ∈ links)
    (bMem : b ∈ links) (isParent : p.IsParent b) : p.height + 1 = b.height := by
  obtain ⟨q, qMem, hash, height⟩ := grounded.parentStored b bMem isParent.1
  have same : p = q := grounded.eq_of_hash pMem qMem (isParent.2.trans hash.symm)
  rw [same]
  exact height

theorem append (grounded : Grounded links) {b : Link ι}
    (fresh : ∀ c ∈ links, c.hash ≠ b.hash) (pos : 1 ≤ b.height)
    (parentStored : 1 < b.height → ∃ p ∈ links, p.hash = b.parent ∧ p.height + 1 = b.height) :
    Grounded (links ++ [b]) where
  nodup := by
    rw [List.map_append, List.nodup_append]
    refine ⟨grounded.nodup, List.nodup_singleton _, ?_⟩
    rintro hash oldMem _ newMem
    obtain ⟨c, mem, rfl⟩ := List.mem_map.mp oldMem
    rw [List.map_singleton, List.mem_singleton] at newMem
    rw [newMem]
    exact fresh c mem
  heightPos c mem := by
    rcases List.mem_append.mp mem with old | new
    · exact grounded.heightPos c old
    · rw [List.mem_singleton.mp new]
      exact pos
  parentStored c mem high := by
    rcases List.mem_append.mp mem with old | new
    · obtain ⟨p, pMem, isParent⟩ := grounded.parentStored c old high
      exact ⟨p, List.mem_append_left _ pMem, isParent⟩
    · rw [List.mem_singleton.mp new] at high ⊢
      obtain ⟨p, pMem, isParent⟩ := parentStored high
      exact ⟨p, List.mem_append_left _ pMem, isParent⟩

end Grounded

/-! ## The flagged branch -/

/-- At most one flagged link at each height, each with a flagged parent. -/
structure Spine (links : List (Link ι)) (flag : ι → Bool) : Prop where
  unique : ∀ a ∈ links, ∀ b ∈ links, flag a.hash = true → flag b.hash = true →
    a.height = b.height → a = b
  parent : ∀ p ∈ links, ∀ b ∈ links, flag b.hash = true → p.IsParent b → flag p.hash = true

/-- A spine that ends in the first link of maximum height. -/
structure Canonical (links : List (Link ι)) (flag : ι → Bool) : Prop extends
    Spine links flag where
  tip : ∀ top, tip? links = some top → flag top.hash = true

namespace Canonical

variable {links : List (Link ι)} {flag : ι → Bool}

theorem nil (flag : ι → Bool) : Canonical [] flag where
  unique _ mem := nomatch mem
  parent _ mem := nomatch mem
  tip _ isTip := nomatch isTip

/-- Walking down from the tip meets a flagged ancestor at every height. -/
theorem exists_ancestor_at (grounded : Grounded links) (canonical : Canonical links flag)
    {top : Link ι} (isTip : tip? links = some top) (depth : Nat) {height : Nat}
    (pos : 1 ≤ height) (level : height + depth = maxHeight links) :
    ∃ b ∈ links, flag b.hash = true ∧ b.height = height ∧ Ancestor links b top := by
  induction depth generalizing height with
  | zero =>
      obtain ⟨mem, topHeight⟩ := tip?_mem isTip
      exact ⟨top, mem, canonical.tip top isTip, topHeight.trans level.symm,
        Relation.ReflTransGen.refl⟩
  | succ depth ih =>
      obtain ⟨b, mem, flagged, atHeight, ancestor⟩ :=
        ih (Nat.le_add_left 1 height) (by omega)
      have high : 1 < b.height := by omega
      obtain ⟨p, pMem, hash, below⟩ := grounded.parentStored b mem high
      have isParent : p.IsParent b := ⟨high, hash⟩
      exact ⟨p, pMem, canonical.parent p pMem b mem flagged isParent, by omega,
        Relation.ReflTransGen.head ⟨pMem, isParent⟩ ancestor⟩

/-- The flagged links are the tip and its ancestors. -/
theorem flag_iff_ancestor (grounded : Grounded links) (canonical : Canonical links flag)
    {b : Link ι} (mem : b ∈ links) :
    flag b.hash = true ↔ ∃ top, tip? links = some top ∧ Ancestor links b top := by
  constructor
  · intro flagged
    obtain ⟨top, isTip⟩ := exists_tip? (List.ne_nil_of_mem mem)
    have low := height_le_maxHeight mem
    obtain ⟨c, cMem, cFlagged, sameHeight, ancestor⟩ :=
      canonical.exists_ancestor_at grounded isTip (maxHeight links - b.height)
        (grounded.heightPos b mem) (by omega)
    have same : b = c := canonical.unique b mem c cMem flagged cFlagged sameHeight.symm
    rw [same]
    exact ⟨top, isTip, ancestor⟩
  · rintro ⟨top, isTip, ancestor⟩
    have climb : flag b.hash = true ∧ b ∈ links := by
      clear mem
      induction ancestor using Relation.ReflTransGen.head_induction_on with
      | refl => exact ⟨canonical.tip top isTip, (tip?_mem isTip).1⟩
      | head step _ ih =>
          obtain ⟨flagged, cMem⟩ := ih
          exact ⟨canonical.parent _ step.1 _ cMem flagged step.2, step.1⟩
    exact climb.1

/-- Every height up to the maximum carries exactly one flagged link. -/
theorem existsUnique_at (grounded : Grounded links) (canonical : Canonical links flag)
    {height : Nat} (pos : 1 ≤ height) (low : height ≤ maxHeight links) :
    ∃! b, b ∈ links ∧ flag b.hash = true ∧ b.height = height := by
  have nonempty : links ≠ [] := by
    rintro rfl
    exact absurd (Nat.le_trans pos low) (Nat.not_succ_le_zero 0)
  obtain ⟨top, isTip⟩ := exists_tip? nonempty
  obtain ⟨b, mem, flagged, atHeight, -⟩ :=
    canonical.exists_ancestor_at grounded isTip (maxHeight links - height) pos (by omega)
  refine ⟨b, ⟨mem, flagged, atHeight⟩, ?_⟩
  rintro c ⟨cMem, cFlagged, cHeight⟩
  exact canonical.unique c cMem b mem cFlagged flagged (cHeight.trans atHeight.symm)

end Canonical

theorem Ancestor.mono {links links' : List (Link ι)} (subset : ∀ b ∈ links, b ∈ links')
    {b tip : Link ι} (ancestor : Ancestor links b tip) : Ancestor links' b tip :=
  Relation.ReflTransGen.mono (fun _ _ step => ⟨subset _ step.1, step.2⟩) _ _ ancestor

/-- Forests with the same links and the same tip have the same flagged links. -/
theorem flag_eq_of_same_tip {links links' : List (Link ι)} {flag flag' : ι → Bool}
    (grounded : Grounded links) (canonical : Canonical links flag) (grounded' : Grounded links')
    (canonical' : Canonical links' flag') (same : ∀ b, b ∈ links ↔ b ∈ links')
    (sameTip : ∀ tip tip', tip? links = some tip → tip? links' = some tip' → tip = tip')
    {b : Link ι} (mem : b ∈ links) : flag b.hash = flag' b.hash := by
  have mem' : b ∈ links' := (same b).mp mem
  obtain ⟨tip, isTip⟩ := exists_tip? (List.ne_nil_of_mem mem)
  obtain ⟨tip', isTip'⟩ := exists_tip? (List.ne_nil_of_mem mem')
  have tips := sameTip tip tip' isTip isTip'
  rw [Bool.eq_iff_iff, canonical.flag_iff_ancestor grounded mem,
    canonical'.flag_iff_ancestor grounded' mem']
  constructor
  · rintro ⟨top, isTop, ancestor⟩
    rw [isTip] at isTop
    cases isTop
    exact ⟨tip', isTip', tips ▸ ancestor.mono fun c cMem => (same c).mp cMem⟩
  · rintro ⟨top, isTop, ancestor⟩
    rw [isTip'] at isTop
    cases isTop
    exact ⟨tip, isTip, tips ▸ ancestor.mono fun c cMem => (same c).mpr cMem⟩

/-! ## Storing a block -/

section Store

variable [DecidableEq ι] {links : List (Link ι)} {flag : ι → Bool} {b : Link ι}

theorem update_of_fresh (fresh : ∀ c ∈ links, c.hash ≠ b.hash) (value : Bool) {c : Link ι}
    (mem : c ∈ links) : Function.update flag b.hash value c.hash = flag c.hash :=
  Function.update_of_ne (fresh c mem) _ _

/-- A block above a spine, whose parent is flagged, becomes the flagged tip. -/
theorem Spine.extend (spine : Spine links flag)
    (fresh : ∀ c ∈ links, c.hash ≠ b.hash) (high : maxHeight links < b.height)
    (parentFlagged : ∀ p ∈ links, p.IsParent b → flag p.hash = true) :
    Canonical (links ++ [b]) (Function.update flag b.hash true) where
  unique := by
    intro a aMem c cMem aFlagged cFlagged sameHeight
    rcases List.mem_append.mp aMem with aOld | aNew <;>
      rcases List.mem_append.mp cMem with cOld | cNew
    · rw [update_of_fresh fresh true aOld] at aFlagged
      rw [update_of_fresh fresh true cOld] at cFlagged
      exact spine.unique a aOld c cOld aFlagged cFlagged sameHeight
    · rw [List.mem_singleton.mp cNew] at sameHeight
      have low := height_le_maxHeight aOld
      omega
    · rw [List.mem_singleton.mp aNew] at sameHeight
      have low := height_le_maxHeight cOld
      omega
    · rw [List.mem_singleton.mp aNew, List.mem_singleton.mp cNew]
  parent := by
    intro p pMem c cMem cFlagged isParent
    rcases List.mem_append.mp pMem with pOld | pNew
    · rw [update_of_fresh fresh true pOld]
      rcases List.mem_append.mp cMem with cOld | cNew
      · rw [update_of_fresh fresh true cOld] at cFlagged
        exact spine.parent p pOld c cOld cFlagged isParent
      · rw [List.mem_singleton.mp cNew] at isParent
        exact parentFlagged p pOld isParent
    · rw [List.mem_singleton.mp pNew, Function.update_self]
  tip top isTip := by
    rw [tip?_append_of_lt high, Option.some.injEq] at isTip
    rw [← isTip, Function.update_self]

/-- A block that is not above the forest is stored beside the flagged branch. -/
theorem Canonical.fork (grounded : Grounded links) (canonical : Canonical links flag)
    (fresh : ∀ c ∈ links, c.hash ≠ b.hash) (pos : 1 ≤ b.height)
    (low : b.height ≤ maxHeight links) :
    Canonical (links ++ [b]) (Function.update flag b.hash false) where
  unique := by
    intro a aMem c cMem aFlagged cFlagged sameHeight
    rcases List.mem_append.mp aMem with aOld | aNew
    · rcases List.mem_append.mp cMem with cOld | cNew
      · rw [update_of_fresh fresh false aOld] at aFlagged
        rw [update_of_fresh fresh false cOld] at cFlagged
        exact canonical.unique a aOld c cOld aFlagged cFlagged sameHeight
      · rw [List.mem_singleton.mp cNew, Function.update_self] at cFlagged
        cases cFlagged
    · rw [List.mem_singleton.mp aNew, Function.update_self] at aFlagged
      cases aFlagged
  parent := by
    intro p pMem c cMem cFlagged isParent
    rcases List.mem_append.mp cMem with cOld | cNew
    · rw [update_of_fresh fresh false cOld] at cFlagged
      -- the parent of a stored block is stored, so it is not the new block
      obtain ⟨q, qMem, qHash, -⟩ := grounded.parentStored c cOld isParent.1
      have pHash : p.hash = q.hash := isParent.2.trans qHash.symm
      rw [pHash, update_of_fresh fresh false qMem]
      exact canonical.parent q qMem c cOld cFlagged ⟨isParent.1, qHash⟩
    · rw [List.mem_singleton.mp cNew, Function.update_self] at cFlagged
      cases cFlagged
  tip top isTip := by
    rw [tip?_append_of_le pos low] at isTip
    rw [update_of_fresh fresh false (tip?_mem isTip).1]
    exact canonical.tip top isTip

end Store

end StacksApi.Chain
