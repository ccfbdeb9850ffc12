import RouteSheet.Proofs.Text.Scan
import RouteSheet.Proofs.Text.Trim

/-!
# Balanced texts

A text is balanced when its quotes and parentheses are closed inside it. The class
names characters that do not stand at its top. A balanced text leads back to the
place it began at, is enclosed as a whole, and is clear of every separator of the class.
-/

namespace RouteSheet.Text

open Nesting

/-- Quotes and parentheses are closed, and no character of a class stands outside them. -/
inductive Balanced : (Char → Bool) → List Char → Prop
  | nil {p : Char → Bool} : Balanced p []
  | plain {p : Char → Bool} {c : Char} (hc : isPlain c = true) (hp : p c = false) : Balanced p [c]
  | quoted {p : Char → Bool} {q : Char} {s : List Char} (hq : isQuote q = true) (hs : q ∉ s) :
      Balanced p (q :: (s ++ [q]))
  | parens {p : Char → Bool} {s : List Char} (hs : Balanced (fun _ => false) s) :
      Balanced p ('(' :: (s ++ [')']))
  | append {p : Char → Bool} {s t : List Char} (hs : Balanced p s) (ht : Balanced p t) :
      Balanced p (s ++ t)

variable {p : Char → Bool} {s t : List Char} {d : Int}

namespace Balanced

/-- A class may be made smaller. -/
theorem mono {p' : Char → Bool} (h : Balanced p s) (hp : ∀ c, p c = false → p' c = false) :
    Balanced p' s := by
  induction h generalizing p' with
  | nil => exact nil
  | plain hc hpc => exact plain hc (hp _ hpc)
  | quoted hq hs => exact quoted hq hs
  | parens hs => exact parens hs
  | append _ _ ihs iht => exact append (ihs hp) (iht hp)

/-- Inside parentheses no class counts. -/
theorem inner (h : Balanced p s) : Balanced (fun _ => false) s := h.mono fun _ _ => rfl

/-- Plain characters that do not separate are balanced. -/
theorem of_plain (hs : ∀ c ∈ s, isPlain c = true ∧ p c = false) : Balanced p s := by
  induction s with
  | nil => exact nil
  | cons c s ih =>
    obtain ⟨hc, hp⟩ := hs c (List.mem_cons_self ..)
    have ht := ih fun d hd => hs d (List.mem_cons_of_mem c hd)
    exact append (plain hc hp) ht

/-- The same for a given text, as a check. -/
theorem of_all (hs : s.all (fun c => isPlain c && !p c) = true) : Balanced p s :=
  of_plain fun c hc => by
    simpa only [Bool.and_eq_true, Bool.not_eq_true'] using List.all_eq_true.mp hs c hc

/-- Blanks are balanced where blanks do not separate. -/
theorem of_blank (hb : isBlankText s = true) (hp : ∀ c, isBlank c = true → p c = false) :
    Balanced p s :=
  of_plain fun c hc =>
    have hblank := isBlank_of_mem hb hc
    ⟨isPlain_of_isBlank hblank, hp c hblank⟩

private theorem next_opening {q : Char} (hq : isQuote q = true) :
    Nesting.next ⟨d, none⟩ q = ⟨d, some q⟩ := by
  simp only [next, hq, ite_true]

private theorem next_quoted {q c : Char} (h : q ≠ c) :
    Nesting.next ⟨d, some q⟩ c = ⟨d, some q⟩ := by
  simp only [next, if_neg (Ne.symm h)]

private theorem next_closing {q : Char} : Nesting.next ⟨d, some q⟩ q = ⟨d, none⟩ := by
  simp only [next, ite_true]

private theorem next_open : Nesting.next ⟨d, none⟩ '(' = ⟨d + 1, none⟩ := rfl

private theorem next_close : Nesting.next ⟨d + 1, none⟩ ')' = ⟨d, none⟩ := by
  have hd : d + 1 - 1 = d := by omega
  have hnext : Nesting.next ⟨d + 1, none⟩ ')' = ⟨d + 1 - 1, none⟩ := rfl
  rw [hnext, hd]

private theorem run_quoted {q : Char} (hs : q ∉ s) :
    Nesting.run ⟨d, some q⟩ s = ⟨d, some q⟩ := by
  induction s with
  | nil => rfl
  | cons c s ih =>
    rw [List.mem_cons, not_or] at hs
    rw [run_cons, next_quoted hs.1, ih hs.2]

/-- A balanced text leads back to where it began. -/
theorem run (h : Balanced p s) (d : Int) : Nesting.run ⟨d, none⟩ s = ⟨d, none⟩ := by
  induction h generalizing d with
  | nil => rfl
  | plain hc _ => exact next_of_isPlain hc ⟨d, none⟩ rfl
  | quoted hq hs =>
    rw [run_cons, next_opening hq, run_append, run_quoted hs, run_cons, next_closing, run_nil]
  | parens _ ih => rw [run_cons, next_open, run_append, ih, run_cons, next_close, run_nil]
  | append _ _ ihs iht => rw [run_append, ihs, iht]

private theorem clear_quoted {q : Char} (sep : Char) (hq : isQuote q = true) (hs : q ∉ s) :
    Text.clear sep ⟨d, none⟩ (q :: (s ++ [q])) = true := by
  have hinner : ∀ t : List Char, q ∉ t → Text.clear sep ⟨d, some q⟩ (t ++ [q]) = true := by
    intro t ht
    induction t with
    | nil =>
      refine clear_cons.mpr ⟨?_, rfl⟩
      rintro ⟨hsep, -⟩
      exact absurd (separates_iff.mp hsep).1 nofun
    | cons c t ih =>
      rw [List.mem_cons, not_or] at ht
      refine clear_cons.mpr ⟨?_, ?_⟩
      · rintro ⟨hsep, -⟩
        exact absurd (separates_iff.mp hsep).1 nofun
      · rw [next_quoted ht.1]
        exact ih ht.2
  refine clear_cons.mpr ⟨?_, ?_⟩
  · rintro ⟨hsep, -⟩
    have hplain := (separates_iff.mp hsep).2
    simp only [isPlain, hq, Bool.not_true, Bool.false_and, Bool.false_eq_true] at hplain
  · rw [next_opening hq]
    exact hinner s hs

private theorem clear_parens {sep : Char} (hs : Text.clear sep ⟨d + 1, none⟩ s = true) :
    Text.clear sep ⟨d, none⟩ ('(' :: (s ++ [')'])) = true := by
  refine clear_cons.mpr ⟨?_, clear_append.mpr ⟨hs, clear_cons.mpr ⟨?_, rfl⟩⟩⟩
  · rintro ⟨hsep, -⟩
    exact absurd (separates_iff.mp hsep).2 (by decide)
  · rintro ⟨hsep, -⟩
    exact absurd (separates_iff.mp hsep).2 (by decide)

/-- Between parentheses no separator counts. -/
theorem clear_deep (h : Balanced p s) (sep : Char) (hd : 1 ≤ d) :
    Text.clear sep ⟨d, none⟩ s = true := by
  induction h generalizing d with
  | nil => rfl
  | plain _ _ =>
    refine clear_cons.mpr ⟨?_, rfl⟩
    rintro ⟨hsep, -⟩
    have hdepth : d = 0 := congrArg depth (separates_iff.mp hsep).1
    omega
  | quoted hq hs => exact clear_quoted sep hq hs
  | parens _ ih => exact clear_parens (ih (by omega))
  | append hs _ ihs iht => exact clear_append.mpr ⟨ihs hd, by rw [hs.run]; exact iht hd⟩

/-- A balanced text is clear of the characters of the class. -/
theorem clear (h : Balanced p s) {sep : Char} (hsep : p sep = true) :
    Text.clear sep top s = true := by
  induction h with
  | nil => rfl
  | plain _ hp =>
    refine clear_cons.mpr ⟨?_, rfl⟩
    rintro ⟨-, rfl⟩
    exact Bool.false_ne_true (hp.symm.trans hsep)
  | quoted hq hs => exact clear_quoted sep hq hs
  | parens hs _ => exact clear_parens (hs.clear_deep sep (by omega))
  | append hs _ ihs iht =>
    refine clear_append.mpr ⟨ihs hsep, ?_⟩
    rw [top, hs.run]
    exact iht hsep

private theorem enclosed_quoted {q : Char} (hs : q ∉ s) (hd : 1 ≤ d) (t : List Char) :
    enclosed ⟨d, some q⟩ (s ++ q :: t) = s ++ q :: enclosed ⟨d, none⟩ t := by
  have hne : d ≠ 0 := by omega
  induction s with
  | nil => rw [List.nil_append, enclosed, next_closing, if_neg hne, List.nil_append]
  | cons c s ih =>
    rw [List.mem_cons, not_or] at hs
    rw [List.cons_append, enclosed, next_quoted hs.1, if_neg hne, ih hs.2, List.cons_append]

/-- What is balanced is passed over on the way to the closing parenthesis. -/
theorem enclosed_append (h : Balanced p s) (hd : 1 ≤ d) (t : List Char) :
    enclosed ⟨d, none⟩ (s ++ t) = s ++ enclosed ⟨d, none⟩ t := by
  induction h generalizing d t with
  | nil => rfl
  | @plain _ c hc _ =>
    have hnext : Nesting.next ⟨d, none⟩ c = ⟨d, none⟩ := next_of_isPlain hc ⟨d, none⟩ rfl
    have hne : d ≠ 0 := by omega
    rw [List.singleton_append, enclosed, hnext, if_neg hne, List.singleton_append]
  | @quoted _ q s hq hs =>
    have hne : d ≠ 0 := by omega
    simp only [List.cons_append, List.append_assoc, List.nil_append]
    rw [enclosed, next_opening hq, if_neg hne, enclosed_quoted hs hd]
  | @parens _ s hs ih =>
    have hne : d ≠ 0 := by omega
    have hne' : d + 1 ≠ 0 := by omega
    simp only [List.cons_append, List.append_assoc, List.nil_append]
    rw [enclosed, next_open, if_neg hne', ih (by omega), enclosed, next_close, if_neg hne]
  | append _ _ ihs iht => rw [List.append_assoc, ihs hd, iht hd, List.append_assoc]

/-- The parenthesis behind a balanced text closes it. -/
theorem enclosed_closed (h : Balanced p s) : enclosed ⟨1, none⟩ (s ++ [')']) = s := by
  rw [h.enclosed_append (Int.le_refl 1)]
  exact List.append_nil s

end Balanced

end RouteSheet.Text
