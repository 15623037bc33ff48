import Mathlib.Data.Bool.Basic
import Mathlib.Logic.Function.Basic
import StacksApi.Chain.Forest

/-!
# Moving the flagged branch

To flag a branch that was left behind, its blocks are visited from the top
downwards; at each one, the block is flagged and the flagged block of the same
height, if any, is unflagged.  `BrokenAt` is what holds between two such levels:
the flags form a spine but for one block whose flagged children it waits for.
Every level either moves the gap one height down or closes it.
-/

namespace StacksApi.Chain

universe u

variable {ι : Type u} {links : List (Link ι)} {flag : ι → Bool} {b : Link ι}

/-- The flags are a spine except that `b`, still unflagged, is the parent of the
flagged links one height above. -/
structure BrokenAt (links : List (Link ι)) (flag : ι → Bool) (b : Link ι) : Prop where
  mem : b ∈ links
  unflagged : flag b.hash = false
  unique : ∀ a ∈ links, ∀ c ∈ links, flag a.hash = true → flag c.hash = true →
    a.height = c.height → a = c
  parent : ∀ p ∈ links, ∀ c ∈ links, flag c.hash = true → p.IsParent c →
    p = b ∨ flag p.hash = true
  above : ∀ c ∈ links, flag c.hash = true → c.height = b.height + 1 → b.IsParent c

/-- The block at the top of a spine breaks it nowhere but there. -/
theorem Spine.brokenAt (spine : Spine links flag) (mem : b ∈ links)
    (unflagged : flag b.hash = false) (top : maxHeight links ≤ b.height) :
    BrokenAt links flag b where
  mem := mem
  unflagged := unflagged
  unique := spine.unique
  parent p pMem c cMem flagged isParent := Or.inr (spine.parent p pMem c cMem flagged isParent)
  above c cMem _ height := by
    have low := height_le_maxHeight cMem
    omega

variable [DecidableEq ι]

/-- Flags after `b` replaced whatever was flagged at its height. -/
def restoreLevel (links : List (Link ι)) (flag : ι → Bool) (b : Link ι) : ι → Bool :=
  fun hash =>
    if hash = b.hash then true
    else if links.any fun c => decide (c.hash = hash ∧ c.height = b.height) then false
    else flag hash

@[simp]
theorem restoreLevel_self : restoreLevel links flag b b.hash = true :=
  if_pos rfl

theorem restoreLevel_same_height {c : Link ι} (mem : c ∈ links) (other : c.hash ≠ b.hash)
    (same : c.height = b.height) : restoreLevel links flag b c.hash = false := by
  have found : (links.any fun d => decide (d.hash = c.hash ∧ d.height = b.height)) = true :=
    List.any_eq_true.mpr ⟨c, mem, decide_eq_true ⟨rfl, same⟩⟩
  rw [restoreLevel, if_neg other, if_pos found]

theorem restoreLevel_other_height (grounded : Grounded links) (bMem : b ∈ links) {c : Link ι}
    (mem : c ∈ links) (other : c.height ≠ b.height) :
    restoreLevel links flag b c.hash = flag c.hash := by
  have otherHash : c.hash ≠ b.hash := by
    intro same
    exact other (congrArg Link.height (grounded.eq_of_hash mem bMem same))
  have absent : ¬ (links.any fun d => decide (d.hash = c.hash ∧ d.height = b.height)) = true := by
    intro found
    obtain ⟨d, dMem, matched⟩ := List.any_eq_true.mp found
    obtain ⟨hash, height⟩ := of_decide_eq_true matched
    rw [grounded.eq_of_hash dMem mem hash] at height
    exact other height
  rw [restoreLevel, if_neg otherHash, if_neg absent]

/-- Flags of hashes that no link of the level carries stay as they are. -/
theorem restoreLevel_of_absent {hash : ι} (other : hash ≠ b.hash)
    (absent : ∀ c ∈ links, c.hash = hash → c.height ≠ b.height) :
    restoreLevel links flag b hash = flag hash := by
  have notFound :
      ¬ (links.any fun d => decide (d.hash = hash ∧ d.height = b.height)) = true := by
    intro found
    obtain ⟨d, dMem, matched⟩ := List.any_eq_true.mp found
    obtain ⟨same, height⟩ := of_decide_eq_true matched
    exact absent d dMem same height
  rw [restoreLevel, if_neg other, if_neg notFound]

/-- A flagged link of the level after the exchange is the restored one. -/
theorem eq_of_restoreLevel (grounded : Grounded links) (bMem : b ∈ links) {c : Link ι}
    (mem : c ∈ links) (flagged : restoreLevel links flag b c.hash = true)
    (same : c.height = b.height) : c = b := by
  by_contra different
  have other : c.hash ≠ b.hash := fun hash => different (grounded.eq_of_hash mem bMem hash)
  rw [restoreLevel_same_height mem other same] at flagged
  cases flagged

/-- The exchange as two assignments: the one flagged link of the level, if any,
loses its flag and `b` gains it. -/
theorem restoreLevel_eq_update (orphan : Option ι)
    (sound : ∀ hash, orphan = some hash →
      ∃ c ∈ links, c.hash = hash ∧ c.height = b.height ∧ hash ≠ b.hash)
    (complete : ∀ c ∈ links, flag c.hash = true → c.height = b.height → c.hash ≠ b.hash →
      orphan = some c.hash) :
    restoreLevel links flag b =
      Function.update (orphan.elim flag fun hash => Function.update flag hash false)
        b.hash true := by
  funext hash
  by_cases self : hash = b.hash
  · rw [self, restoreLevel_self, Function.update_self]
  · rw [Function.update_of_ne self]
    by_cases level : ∃ c ∈ links, c.hash = hash ∧ c.height = b.height
    · obtain ⟨c, mem, rfl, height⟩ := level
      rw [restoreLevel_same_height mem self height]
      cases orphan with
      | none =>
          cases flagged : flag c.hash with
          | false => exact flagged.symm
          | true => cases complete c mem flagged height self
      | some other =>
          by_cases same : c.hash = other
          · rw [Option.elim_some, same, Function.update_self]
          · rw [Option.elim_some, Function.update_of_ne same]
            cases flagged : flag c.hash with
            | false => rfl
            | true => exact absurd (Option.some.inj (complete c mem flagged height self)).symm same
    · rw [restoreLevel_of_absent self fun c mem same height => level ⟨c, mem, same, height⟩]
      cases orphan with
      | none => rfl
      | some other =>
          have different : hash ≠ other := by
            rintro rfl
            obtain ⟨c, mem, same, height, -⟩ := sound hash rfl
            exact level ⟨c, mem, same, height⟩
          rw [Option.elim_some, Function.update_of_ne different]

namespace BrokenAt

theorem unique_restoreLevel (grounded : Grounded links) (broken : BrokenAt links flag b) :
    ∀ a ∈ links, ∀ c ∈ links, restoreLevel links flag b a.hash = true →
      restoreLevel links flag b c.hash = true → a.height = c.height → a = c := by
  intro a aMem c cMem aFlagged cFlagged same
  by_cases level : a.height = b.height
  · rw [eq_of_restoreLevel grounded broken.mem aMem aFlagged level,
      eq_of_restoreLevel grounded broken.mem cMem cFlagged (same.symm.trans level)]
  · rw [restoreLevel_other_height grounded broken.mem aMem level] at aFlagged
    rw [restoreLevel_other_height grounded broken.mem cMem (same ▸ level)] at cFlagged
    exact broken.unique a aMem c cMem aFlagged cFlagged same

/-- After a level, only the restored block can have an unflagged parent. -/
theorem parent_restoreLevel (grounded : Grounded links) (broken : BrokenAt links flag b)
    {p c : Link ι} (pMem : p ∈ links) (cMem : c ∈ links)
    (flagged : restoreLevel links flag b c.hash = true) (isParent : p.IsParent c) :
    c = b ∨ restoreLevel links flag b p.hash = true := by
  have below := grounded.height_of_isParent pMem cMem isParent
  by_cases level : c.height = b.height
  · exact Or.inl (eq_of_restoreLevel grounded broken.mem cMem flagged level)
  · right
    rw [restoreLevel_other_height grounded broken.mem cMem level] at flagged
    by_cases above : p.height = b.height
    · -- the flagged child one level up has the restored block as its parent
      have bParent : b.IsParent c := broken.above c cMem flagged (by omega)
      have same : p = b := grounded.eq_of_hash pMem broken.mem
        (isParent.2.trans bParent.2.symm)
      rw [same, restoreLevel_self]
    · rw [restoreLevel_other_height grounded broken.mem pMem above]
      rcases broken.parent p pMem c cMem flagged isParent with rfl | flaggedParent
      · exact absurd rfl above
      · exact flaggedParent

/-- When the parent of the restored block is flagged, the gap is closed. -/
theorem spine (grounded : Grounded links) (broken : BrokenAt links flag b)
    (parentFlagged : ∀ p ∈ links, p.IsParent b → flag p.hash = true) :
    Spine links (restoreLevel links flag b) where
  unique := broken.unique_restoreLevel grounded
  parent := by
    intro p pMem c cMem flagged isParent
    rcases broken.parent_restoreLevel grounded pMem cMem flagged isParent with rfl | done
    · have below := grounded.height_of_isParent pMem cMem isParent
      rw [restoreLevel_other_height grounded cMem pMem (by omega)]
      exact parentFlagged p pMem isParent
    · exact done

/-- When it is not, the gap moves to the parent. -/
theorem next (grounded : Grounded links) (broken : BrokenAt links flag b) {p : Link ι}
    (pMem : p ∈ links) (isParent : p.IsParent b) (unflagged : flag p.hash = false) :
    BrokenAt links (restoreLevel links flag b) p where
  mem := pMem
  unflagged := by
    have below := grounded.height_of_isParent pMem broken.mem isParent
    rw [restoreLevel_other_height grounded broken.mem pMem (by omega)]
    exact unflagged
  unique := broken.unique_restoreLevel grounded
  parent := by
    intro q qMem c cMem flagged qIsParent
    rcases broken.parent_restoreLevel grounded qMem cMem flagged qIsParent with rfl | done
    · exact Or.inl (grounded.eq_of_hash qMem pMem (qIsParent.2.trans isParent.2.symm))
    · exact Or.inr done
  above := by
    intro c cMem flagged height
    have below := grounded.height_of_isParent pMem broken.mem isParent
    rw [eq_of_restoreLevel grounded broken.mem cMem flagged (by omega)]
    exact isParent

end BrokenAt

end StacksApi.Chain
