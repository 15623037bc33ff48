import Mathlib.Data.List.DropRight
import Mathlib.Data.List.Perm.Basic
import Mathlib.Order.Lattice

/-!
# Sorting an array

`Array.prototype.sort` as a stable insertion sort: an element moves to the left past
those before it as long as the comparator is negative, and stays where it is otherwise.
A callback that is no comparison function is a comparator all the same.  One that only
looks at its first argument brings the elements with a negative result to the front, in
reverse order, and leaves the others as they were.
-/

namespace StacksApi.Collections

universe u

variable {α : Type u}

/-- Move an element that follows the elements `before` to its place among them. -/
def moveLeft (compare : α → α → Int) (before : List α) (element : α) : List α :=
  before.rdropWhile (fun other => compare element other < 0) ++
    element :: before.rtakeWhile fun other => compare element other < 0

/-- `Array.prototype.sort` with a comparison, as a stable insertion sort. -/
def arraySort (compare : α → α → Int) (elements : List α) : List α :=
  elements.foldl (moveLeft compare) []

theorem moveLeft_perm (compare : α → α → Int) (before : List α) (element : α) :
    (moveLeft compare before element).Perm (before ++ [element]) := by
  have parts : before.rdropWhile (fun other => compare element other < 0) ++
      before.rtakeWhile (fun other => compare element other < 0) = before :=
    List.rdropWhile_append_rtakeWhile
  have toFront : (moveLeft compare before element).Perm
      (element :: (before.rdropWhile (fun other => compare element other < 0) ++
        before.rtakeWhile fun other => compare element other < 0)) := List.perm_middle
  rw [parts] at toFront
  exact toFront.trans (List.perm_append_singleton element before).symm

theorem foldl_moveLeft_perm (compare : α → α → Int) (before elements : List α) :
    (elements.foldl (moveLeft compare) before).Perm (before ++ elements) := by
  induction elements generalizing before with
  | nil => simp
  | cons element elements ih =>
      rw [List.foldl_cons]
      have step := (moveLeft_perm compare before element).append_right elements
      rw [List.append_assoc, List.singleton_append] at step
      exact (ih _).trans step

theorem arraySort_perm (compare : α → α → Int) (elements : List α) :
    (arraySort compare elements).Perm elements :=
  foldl_moveLeft_perm compare [] elements

/-! ## Callbacks that look at one element -/

theorem moveLeft_of_neg {compare : α → α → Int} {before : List α} {element : α}
    (negative : ∀ other ∈ before, compare element other < 0) :
    moveLeft compare before element = element :: before := by
  have all : ∀ other ∈ before, decide (compare element other < 0) = true :=
    fun other mem => decide_eq_true (negative other mem)
  rw [moveLeft, List.rdropWhile_eq_nil_iff.mpr all, List.rtakeWhile_eq_self_iff.mpr all]
  rfl

theorem moveLeft_of_nonneg {compare : α → α → Int} {before : List α} {element : α}
    (nonneg : ∀ other ∈ before, 0 ≤ compare element other) :
    moveLeft compare before element = before ++ [element] := by
  have none : ∀ nonempty : before ≠ [],
      ¬decide (compare element (before.getLast nonempty) < 0) = true := by
    intro nonempty negative
    exact absurd (of_decide_eq_true negative)
      (Int.not_lt.mpr (nonneg _ (List.getLast_mem nonempty)))
  rw [moveLeft, List.rdropWhile_eq_self_iff.mpr none, List.rtakeWhile_eq_nil_iff.mpr none]

/-- Sorting by a callback that only looks at its first argument. -/
theorem arraySort_of_first (key : α → Int) (elements : List α) :
    arraySort (fun element _ => key element) elements =
      (elements.filter fun element => key element < 0).reverse ++
        elements.filter fun element => 0 ≤ key element := by
  induction elements using List.reverseRecOn with
  | nil => rfl
  | append_singleton elements element ih =>
      rw [arraySort] at ih
      rw [arraySort, List.foldl_append, List.foldl_cons, List.foldl_nil, ih, List.filter_append,
        List.filter_append]
      by_cases negative : key element < 0
      · rw [moveLeft_of_neg fun _ _ => negative]
        simp [negative]
      · rw [moveLeft_of_nonneg fun _ _ => Int.not_lt.mp negative]
        simp [negative, Int.not_lt.mp negative]

/-- Such a callback sorts nothing when it is never negative. -/
theorem arraySort_of_first_nonneg {key : α → Int} {elements : List α}
    (nonneg : ∀ element ∈ elements, 0 ≤ key element) :
    arraySort (fun element _ => key element) elements = elements := by
  have none : elements.filter (fun element => decide (key element < 0)) = [] :=
    List.filter_eq_nil_iff.mpr fun element mem negative =>
      absurd (of_decide_eq_true negative) (Int.not_lt.mpr (nonneg element mem))
  have all : elements.filter (fun element => decide (0 ≤ key element)) = elements :=
    List.filter_eq_self.mpr fun element mem => decide_eq_true (nonneg element mem)
  rw [arraySort_of_first, none, all]
  rfl

/-- It sorts by what it looks at exactly when the elements with a negative result stand
in descending order and the others in ascending order. -/
theorem pairwise_arraySort_of_first (key : α → Int) (elements : List α) :
    (arraySort (fun element _ => key element) elements).Pairwise
        (fun first second => key first ≤ key second) ↔
      (elements.filter fun element => key element < 0).Pairwise
          (fun first second => key second ≤ key first) ∧
        (elements.filter fun element => 0 ≤ key element).Pairwise
          fun first second => key first ≤ key second := by
  rw [arraySort_of_first, List.pairwise_append, List.pairwise_reverse]
  constructor
  · rintro ⟨negatives, others, -⟩
    exact ⟨negatives, others⟩
  · rintro ⟨negatives, others⟩
    refine ⟨negatives, others, ?_⟩
    intro first firstMem second secondMem
    have negative := of_decide_eq_true (List.mem_filter.mp (List.mem_reverse.mp firstMem)).2
    have nonneg := of_decide_eq_true (List.mem_filter.mp secondMem).2
    exact Int.le_trans (Int.le_of_lt negative) nonneg

/-! ## Comparison functions -/

section Descending

variable {κ : Type u} [LinearOrder κ] {compare : α → α → Int} {key : α → κ}

/-- An element is put among those before it by descending key. -/
theorem pairwise_moveLeft (descending : ∀ first second, compare first second < 0 ↔
    key second < key first) {before : List α} {element : α}
    (sorted : before.Pairwise fun first second => key second ≤ key first) :
    (moveLeft compare before element).Pairwise fun first second => key second ≤ key first := by
  have parts : before.rdropWhile (fun other => compare element other < 0) ++
      before.rtakeWhile (fun other => compare element other < 0) = before :=
    List.rdropWhile_append_rtakeWhile
  rw [← parts, List.pairwise_append] at sorted
  obtain ⟨front, back, across⟩ := sorted
  have below : ∀ other ∈ before.rtakeWhile (fun other => compare element other < 0),
      key other < key element := by
    intro other mem
    have smaller := List.mem_rtakeWhile_imp mem
    exact (descending element other).mp (of_decide_eq_true smaller)
  have above : ∀ other ∈ before.rdropWhile (fun other => compare element other < 0),
      key element ≤ key other := by
    intro other mem
    have nonempty := List.ne_nil_of_mem mem
    have last := List.rdropWhile_last_not _ _ nonempty
    rw [decide_eq_true_eq, descending, not_lt] at last
    rw [← List.dropLast_append_getLast nonempty] at mem front
    rcases List.mem_append.mp mem with earlier | isLast
    · exact last.trans ((List.pairwise_append.mp front).2.2 other earlier _
        (List.mem_singleton_self _))
    · rw [List.mem_singleton.mp isLast]
      exact last
  rw [moveLeft, List.pairwise_append, List.pairwise_cons]
  refine ⟨front, ⟨fun other mem => (below other mem).le, back⟩, ?_⟩
  intro first firstMem second secondMem
  rcases List.mem_cons.mp secondMem with rfl | later
  · exact above first firstMem
  · exact across first firstMem second later

/-- Sorting by a comparison function for descending keys. -/
theorem pairwise_arraySort (descending : ∀ first second, compare first second < 0 ↔
    key second < key first) (elements : List α) :
    (arraySort compare elements).Pairwise fun first second => key second ≤ key first :=
  List.foldlRecOn elements (moveLeft compare)
    (motive := fun sorted => sorted.Pairwise fun first second => key second ≤ key first)
    List.Pairwise.nil fun _ sorted _ _ => pairwise_moveLeft descending sorted

end Descending

end StacksApi.Collections
