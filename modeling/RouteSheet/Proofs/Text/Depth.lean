import RouteSheet.Proofs.Text.Block
import RouteSheet.Proofs.Text.Trim

/-!
# Depth and the number of parentheses

Reading a text from a place deeper down leads deeper down by as much. The depth
changes only at parentheses, so two cuts of one text, read from different depths,
never leave the same number of parentheses before them.
-/

namespace RouteSheet.Text

/-- The character is a parenthesis. -/
def isParenthesis (c : Char) : Bool := c == '(' || c == ')'

/-- How many parentheses a text holds. -/
def parentheses (s : List Char) : Nat := s.countP isParenthesis

@[simp] theorem parentheses_nil : parentheses [] = 0 := rfl

@[simp] theorem parentheses_append (s t : List Char) :
    parentheses (s ++ t) = parentheses s + parentheses t := List.countP_append

@[simp] theorem parentheses_cons (c : Char) (s : List Char) :
    parentheses (c :: s) = parentheses s + if isParenthesis c then 1 else 0 := List.countP_cons

/-- Blanks hold no parentheses. -/
theorem parentheses_of_blank {b : List Char} (h : isBlankText b = true) : parentheses b = 0 := by
  rw [parentheses, List.countP_eq_zero]
  intro c hc
  have hplain := Nesting.isPlain_of_isBlank (isBlank_of_mem h hc)
  simp only [Nesting.isPlain, Bool.and_eq_true, bne_iff_ne, ne_eq] at hplain
  simp only [isParenthesis, Bool.or_eq_true, beq_iff_eq, hplain.1.2, hplain.2, or_self,
    not_false_eq_true]

/-- Trimming takes no parentheses away. -/
theorem parentheses_trim (s : List Char) : parentheses (trim s) = parentheses s := by
  obtain ⟨b₁, b₂, h₁, h₂, hs⟩ := exists_trim s
  have hp := congrArg parentheses hs
  rw [parentheses_append, parentheses_append, parentheses_of_blank h₁,
    parentheses_of_blank h₂] at hp
  omega

namespace Nesting

/-- The place with so many more parentheses open. -/
def deepened (n : Nesting) (d : Int) : Nesting := { n with depth := n.depth + d }

/-- A character does the same at every depth. -/
theorem next_deepened (n : Nesting) (d : Int) (c : Char) :
    (n.deepened d).next c = (n.next c).deepened d := by
  obtain ⟨depth, quote⟩ := n
  cases quote with
  | some q =>
    simp only [next, deepened]
    split <;> rfl
  | none =>
    simp only [next, deepened]
    split
    · rfl
    · split
      · simp only [Int.add_right_comm]
      · split
        · simp only [mk.injEq, and_true]
          omega
        · rfl

/-- Reading from deeper down leads deeper down. -/
theorem run_deepened (n : Nesting) (d : Int) (s : List Char) :
    (n.deepened d).run s = (n.run s).deepened d := by
  induction s generalizing n with
  | nil => rfl
  | cons c s ih => rw [run_cons, next_deepened, ih, run_cons]

/-- A character that is no parenthesis leaves the depth. -/
theorem depth_next {c : Char} (h : isParenthesis c = false) (n : Nesting) :
    (n.next c).depth = n.depth := by
  simp only [isParenthesis, Bool.or_eq_false_iff, beq_eq_false_iff_ne] at h
  obtain ⟨depth, quote⟩ := n
  cases quote with
  | some q =>
    simp only [next]
    split <;> rfl
  | none =>
    simp only [next, h.1, h.2, ite_false]
    split <;> rfl

/-- Without parentheses the depth stays. -/
theorem depth_run {s : List Char} (h : parentheses s = 0) (n : Nesting) :
    (n.run s).depth = n.depth := by
  induction s generalizing n with
  | nil => rfl
  | cons c s ih =>
    rw [parentheses, List.countP_eq_zero] at h
    have hc : isParenthesis c = false :=
      (Bool.not_eq_true _).mp (h c (List.mem_cons_self ..))
    have hs : parentheses s = 0 := by
      rw [parentheses, List.countP_eq_zero]
      exact fun d hd => h d (List.mem_cons_of_mem c hd)
    rw [run_cons, ih hs, depth_next hc]

/-- A closing parenthesis outside quotes leads one parenthesis up. -/
theorem next_closing {n : Nesting} (h : n.quote = none) : n.next ')' = n.deepened (-1) := by
  obtain ⟨depth, quote⟩ := n
  obtain rfl : quote = none := h
  rfl

/-- Forgetting parentheses that were never opened never makes a place less deep. -/
theorem depth_run_le_runFloored (n : Nesting) {d : Int} (hd : 0 ≤ d) (s : List Char) :
    (n.run s).depth ≤ ((n.deepened d).runFloored s).depth := by
  induction s generalizing n d with
  | nil => exact Int.le_add_of_nonneg_right hd
  | cons c s ih =>
    have hfloored : ((n.next c).deepened d).floored =
        (n.next c).deepened (max ((n.next c).depth + d) 0 - (n.next c).depth) := by
      simp only [deepened, floored, mk.injEq, and_true]
      omega
    rw [run_cons, runFloored_cons, next_deepened, hfloored]
    exact ih _ (by omega)

end Nesting

open Nesting

/-- Two cuts of one text, read from different depths, leave different numbers of parentheses
before them. -/
theorem parentheses_ne_of_cuts {sep : Char} {n : Nesting} {d : Int} (hd : d ≠ 0)
    {s before after before' after' : List Char} (h : cutFrom? sep n s = some (before, after))
    (h' : cutFrom? sep (n.deepened d) s = some (before', after')) :
    parentheses before ≠ parentheses before' := by
  obtain ⟨hs, -, hsep⟩ := cutFrom?_eq_some.mp h
  obtain ⟨hs', -, hsep'⟩ := cutFrom?_eq_some.mp h'
  have hdepth : (n.run before).depth = 0 := by
    rw [(separates_iff.mp hsep).1]
    rfl
  have hdepth' : (n.run before').depth + d = 0 := by
    have hrun := congrArg depth (separates_iff.mp hsep').1
    rwa [run_deepened] at hrun
  intro hp
  rcases List.append_eq_append_iff.mp (hs.symm.trans hs') with ⟨w, hw, -⟩ | ⟨w, hw, -⟩
  · rw [hw, parentheses_append] at hp
    rw [hw, run_append, depth_run (by omega), hdepth] at hdepth'
    omega
  · rw [hw, parentheses_append] at hp
    rw [hw, run_append, depth_run (by omega)] at hdepth
    omega

end RouteSheet.Text
