import RouteSheet.Proofs.Text.Depth
import RouteSheet.Proofs.Text.Index

/-!
# What a parenthesis encloses

Behind an opening parenthesis the depth is one. It changes by one at a time, so the first
character behind which it is zero is a closing parenthesis outside quotes, and the scan takes
what stands in front of it. This fixes what is taken: a text with its closing parenthesis behind
it is taken as a whole exactly if it is balanced, whatever follows.
-/

namespace RouteSheet.Text

open Nesting

/-- What is enclosed in a text from a place on: a beginning behind no part of which the depth is
zero. It is the whole text, or behind it stands the closing parenthesis that leads to the top. -/
structure Encloses (n : Nesting) (s enclosed : List Char) : Prop where
  isPrefix : enclosed <+: s
  deep : ∀ part, part <+: enclosed → 0 < (n.run part).depth
  stops : enclosed = s ∨ ∃ rest, s = enclosed ++ ')' :: rest ∧ n.run (enclosed ++ [')']) = top

/-- Read from the top, the text never leads below depth zero and leads back to the top. -/
structure ScansBalanced (s : List Char) : Prop where
  nonneg : ∀ part, part <+: s → 0 ≤ (top.run part).depth
  returns : top.run s = top

section

variable {n : Nesting} {c : Char} {s t r r' : List Char}

/-- From above zero, depth zero is reached by a closing parenthesis outside quotes only. -/
theorem depth_next_cases (h : 0 < n.depth) (c : Char) :
    0 < (n.next c).depth ∨ c = ')' ∧ n = ⟨1, none⟩ := by
  by_cases hparenthesis : isParenthesis c = true
  · obtain ⟨depth, quote⟩ := n
    cases quote with
    | some q =>
      refine Or.inl ?_
      simp only [next]
      split <;> exact h
    | none =>
      rcases Bool.or_eq_true_iff.mp hparenthesis with hc | hc
      · obtain rfl := beq_iff_eq.mp hc
        have hnext : (Nesting.next ⟨depth, none⟩ '(').depth = depth + 1 := rfl
        simp only at h
        omega
      · obtain rfl := beq_iff_eq.mp hc
        have hnext : (Nesting.next ⟨depth, none⟩ ')').depth = depth - 1 := rfl
        simp only at h
        by_cases hone : depth = 1
        · exact Or.inr ⟨rfl, by rw [hone]⟩
        · omega
  · rw [depth_next ((Bool.not_eq_true _).mp hparenthesis)]
    exact Or.inl h

/-- What the scan takes is enclosed. -/
theorem encloses_enclosed (h : 0 < n.depth) (s : List Char) : Encloses n s (enclosed n s) := by
  induction s generalizing n with
  | nil =>
    refine ⟨List.prefix_refl [], fun part hpart => ?_, Or.inl rfl⟩
    rwa [List.prefix_nil.mp hpart]
  | cons c s ih =>
    rcases depth_next_cases h c with hdeep | ⟨rfl, rfl⟩
    · obtain ⟨hbeginning, hinner, hstops⟩ := ih hdeep
      rw [enclosed, if_neg (Int.ne_of_gt hdeep)]
      refine ⟨List.cons_prefix_cons.mpr ⟨rfl, hbeginning⟩, fun part hpart => ?_, ?_⟩
      · rcases List.prefix_cons_iff.mp hpart with rfl | ⟨part, rfl, hbehind⟩
        · exact h
        · exact hinner part hbehind
      · refine hstops.imp (congrArg (c :: ·)) ?_
        rintro ⟨rest, hs, hrun⟩
        exact ⟨rest, congrArg (c :: ·) hs, hrun⟩
    · refine ⟨List.nil_prefix, fun part hpart => ?_, Or.inr ⟨s, rfl, rfl⟩⟩
      have hnil : part = [] := List.prefix_nil.mp hpart
      rwa [hnil]

/-- Of two beginnings that are enclosed, neither goes beyond the other. -/
theorem Encloses.prefix_of (h : Encloses n s r) (h' : Encloses n s r') : r' <+: r := by
  rcases h.stops with rfl | ⟨rest, hs, hrun⟩
  · exact h'.isPrefix
  · rcases List.prefix_or_prefix_of_prefix h'.isPrefix h.isPrefix with hle | ⟨more, rfl⟩
    · exact hle
    · cases more with
      | nil => simp
      | cons c more =>
        obtain ⟨behind, hbehind⟩ := h'.isPrefix
        rw [hs, List.append_assoc, List.append_cancel_left_eq, List.cons_append] at hbehind
        obtain ⟨rfl, -⟩ := List.cons.inj hbehind
        have hpart : r ++ [')'] <+: r ++ ')' :: more := ⟨more, by rw [← List.append_cons]⟩
        have hdeep := h'.deep _ hpart
        rw [hrun] at hdeep
        exact absurd hdeep (Int.lt_irrefl 0)

/-- The scan takes what is enclosed, and nothing else is enclosed. -/
theorem enclosed_eq_iff (h : 0 < n.depth) : enclosed n s = r ↔ Encloses n s r := by
  have henclosed := encloses_enclosed h s
  constructor
  · rintro rfl
    exact henclosed
  · intro hr
    have hle := (henclosed.prefix_of hr).length_le
    exact (hr.prefix_of henclosed).eq_of_length_le hle

/-- Behind an opening parenthesis every place is one deeper than from the top. -/
theorem run_inside (s : List Char) : Nesting.run ⟨1, none⟩ s = (top.run s).deepened 1 :=
  run_deepened top 1 s

/-- A text in front of a closing parenthesis is enclosed exactly if it is balanced. -/
theorem encloses_iff_scansBalanced (t u : List Char) :
    Encloses ⟨1, none⟩ (t ++ ')' :: u) t ↔ ScansBalanced t := by
  constructor
  · rintro ⟨-, hdeep, hstops⟩
    refine ⟨fun part hpart => ?_, ?_⟩
    · have hpos := hdeep part hpart
      rw [run_inside, deepened] at hpos
      simp only at hpos
      omega
    · rcases hstops with hall | ⟨rest, -, hrun⟩
      · exact absurd hall.symm (by simp)
      · rw [run_append, run_cons, run_nil] at hrun
        rcases depth_next_cases (hdeep t (List.prefix_refl t)) ')' with hpos | ⟨-, hplace⟩
        · rw [hrun] at hpos
          exact absurd hpos (Int.lt_irrefl 0)
        · rw [run_inside, deepened, mk.injEq] at hplace
          obtain ⟨hdepth, hquote⟩ := hplace
          exact atTop_iff.mp (by simp [atTop, hquote]; omega)
  · rintro ⟨hnonneg, hreturns⟩
    refine ⟨List.prefix_append t _, fun part hpart => ?_, Or.inr ⟨u, rfl, ?_⟩⟩
    · have hpos := hnonneg part hpart
      rw [run_inside, deepened]
      simp only
      omega
    · rw [run_append, run_inside, hreturns]
      rfl

end

/-- A closing parenthesis in quotes closes nothing, and neither does a quote of the other kind. -/
example : callArguments? "sql".toList "sql(\"it's )\", f(')'))) tail".toList =
    some "\"it's )\", f(')')".toList := by decide

end RouteSheet.Text
