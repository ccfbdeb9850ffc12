import RouteSheet.Proofs.Text.Scan

/-!
# Bodies of blocks

The scanner of bodies forgets parentheses that were never opened. A body that is
closed inside a text ends at a brace at the top, does not depend on what stands
behind that brace, and grows by exactly one character when a stray parenthesis is
put into it at the top.
-/

namespace RouteSheet.Text

namespace Nesting

/-- The place behind a text when parentheses that were never opened are forgotten. -/
def runFloored (n : Nesting) (s : List Char) : Nesting := s.foldl (fun n c => (n.next c).floored) n

@[simp] theorem runFloored_nil (n : Nesting) : n.runFloored [] = n := rfl

@[simp] theorem runFloored_cons (n : Nesting) (c : Char) (s : List Char) :
    n.runFloored (c :: s) = (n.next c).floored.runFloored s := rfl

/-- What a character does to the open quote. -/
def quoteNext (quote : Option Char) (c : Char) : Option Char :=
  match quote with
  | some q => if c = q then none else some q
  | none => if isQuote c then some c else none

/-- The depth has no say in which quote is open. -/
theorem quote_next (n : Nesting) (c : Char) : (n.next c).quote = quoteNext n.quote c := by
  obtain ⟨depth, quote⟩ := n
  cases quote with
  | some q =>
    simp only [next, quoteNext]
    split <;> rfl
  | none =>
    simp only [next, quoteNext]
    by_cases hq : isQuote c = true
    · rw [if_pos hq, if_pos hq]
    · rw [if_neg hq, if_neg hq]
      split
      · rfl
      · split <;> rfl

/-- The open quote behind a text depends on the open quote before it alone. -/
theorem quote_run (n : Nesting) (s : List Char) :
    (n.run s).quote = s.foldl quoteNext n.quote := by
  induction s generalizing n with
  | nil => rfl
  | cons c s ih => rw [run_cons, ih, quote_next, List.foldl_cons]

/-- The open quote behind a text is the same with the depth floored. -/
theorem quote_runFloored (n : Nesting) (s : List Char) :
    (n.runFloored s).quote = s.foldl quoteNext n.quote := by
  induction s generalizing n with
  | nil => rfl
  | cons c s ih =>
    rw [runFloored_cons, ih, List.foldl_cons, floored, quote_next]

/-- A plain character opens no quote. -/
theorem quoteNext_of_isPlain {c : Char} (h : isPlain c = true) : quoteNext none c = none := by
  simp only [isPlain, Bool.and_eq_true, Bool.not_eq_true'] at h
  simp only [quoteNext, h.1.1, Bool.false_eq_true, ite_false]

end Nesting

open Nesting

variable {n : Nesting} {braces : Nat} {s t : List Char}

/-- The body is a beginning of the text: either all of it, or it ends before a brace at the
top. -/
theorem blockBody_cases (n : Nesting) (braces : Nat) (s : List Char) :
    blockBody n braces s = s ∨
      ∃ rest, s = blockBody n braces s ++ '\x7d' :: rest ∧
        n.runFloored (blockBody n braces s) = top := by
  induction s generalizing n braces with
  | nil => exact Or.inl rfl
  | cons c s ih =>
    rw [blockBody]
    split
    · next h =>
      simp only [Bool.and_eq_true, beq_iff_eq] at h
      obtain ⟨⟨hsep, rfl⟩, -⟩ := h
      exact Or.inr ⟨s, rfl, (separates_iff.mp hsep).1⟩
    · refine (ih (n.next c).floored _).imp (congrArg (c :: ·)) ?_
      rintro ⟨rest, hs, hrun⟩
      exact ⟨rest, congrArg (c :: ·) hs, hrun⟩

/-- A body that is closed in a text ends before a brace at the top. -/
theorem exists_of_blockBody_closed (h : (blockBody n braces s).length < s.length) :
    ∃ rest, s = blockBody n braces s ++ '\x7d' :: rest ∧
      n.runFloored (blockBody n braces s) = top := by
  rcases blockBody_cases n braces s with hs | hs
  · rw [hs] at h
    exact absurd h (Nat.lt_irrefl _)
  · exact hs

/-- A closed body does not depend on what stands behind its brace. -/
theorem blockBody_append (h : (blockBody n braces s).length < s.length) (t : List Char) :
    blockBody n braces (s ++ t) = blockBody n braces s := by
  induction s generalizing n braces with
  | nil => exact absurd h (Nat.not_lt_zero _)
  | cons c s ih =>
    rw [blockBody] at h
    rw [List.cons_append, blockBody, blockBody]
    split
    · rfl
    · next hc =>
      rw [if_neg hc, List.length_cons, List.length_cons] at h
      exact congrArg (c :: ·) (ih (Nat.lt_of_succ_lt_succ h))

/-- A body whose brace lies in the text is found without what stands behind it. -/
theorem blockBody_of_append (h : (blockBody n braces (s ++ t)).length < s.length) :
    blockBody n braces s = blockBody n braces (s ++ t) := by
  induction s generalizing n braces with
  | nil => exact absurd h (Nat.not_lt_zero _)
  | cons c s ih =>
    rw [List.cons_append, blockBody] at h
    rw [List.cons_append, blockBody, blockBody]
    split
    · rfl
    · next hc =>
      rw [if_neg hc, List.length_cons, List.length_cons] at h
      exact congrArg (c :: ·) (ih (Nat.lt_of_succ_lt_succ h))

/-- A stray parenthesis inside a body, at the top, lengthens the body by itself only. -/
theorem blockBody_insert {x : List Char} (hx : n.runFloored x = top)
    (hp : x <+: blockBody n braces (x ++ t)) :
    ∃ y, blockBody n braces (x ++ t) = x ++ y ∧
      blockBody n braces (x ++ ')' :: t) = x ++ ')' :: y := by
  induction x generalizing n braces with
  | nil =>
    rw [runFloored_nil] at hx
    subst hx
    exact ⟨_, rfl, rfl⟩
  | cons c x ih =>
    rw [List.cons_append, blockBody] at hp ⊢
    rw [List.cons_append, blockBody]
    split at hp
    · exact absurd hp (by simp only [List.prefix_nil, reduceCtorEq, not_false_eq_true])
    · next hc =>
      obtain ⟨y, hy, hy'⟩ := ih hx (List.cons_prefix_cons.mp hp).2
      refine ⟨y, ?_, ?_⟩
      · rw [if_neg hc]
        exact congrArg (c :: ·) hy
      · rw [if_neg hc]
        exact congrArg (c :: ·) hy'

end RouteSheet.Text
