import RouteSheet.Proofs.Text.Trim

/-!
# Where runs end and phrases begin

A run of a class of characters ends at the first character outside it.
Whether a phrase begins inside a text depends on what follows the text, too: it may
begin there and end behind. A text in which the phrase does not begin is what stands
before the first cut.
-/

namespace RouteSheet.Text

/-- A run ends at the first character outside its class. -/
theorem takeRun_append_of_all {p : Char → Bool} {s t : List Char} (hs : s.all p = true)
    (ht : ∀ c, t.head? = some c → p c = false) : takeRun p (s ++ t) = (s, t) := by
  have hall : ∀ c ∈ s, p c = true := List.all_eq_true.mp hs
  have hstop : t.takeWhile p = [] ∧ t.dropWhile p = t := by
    cases t with
    | nil => exact ⟨rfl, rfl⟩
    | cons c t =>
      have hc := ht c rfl
      exact ⟨List.takeWhile_cons_of_neg (by rw [hc]; exact Bool.false_ne_true),
        List.dropWhile_cons_of_neg (by rw [hc]; exact Bool.false_ne_true)⟩
  rw [takeRun, List.takeWhile_append_of_pos hall, List.dropWhile_append_of_pos hall, hstop.1,
    hstop.2, List.append_nil]

/-- A text behind that begins outside the class does not make a run longer. -/
theorem takeRun_append_of_head {p : Char → Bool} {u : List Char} (s : List Char)
    (hu : ∀ c, u.head? = some c → p c = false) :
    takeRun p (s ++ u) = ((takeRun p s).1, (takeRun p s).2 ++ u) := by
  have hall : (s.takeWhile p).all p = true := List.all_takeWhile
  have hstop : ∀ c, (s.dropWhile p ++ u).head? = some c → p c = false := by
    intro c hc
    cases hs : s.dropWhile p with
    | nil =>
      rw [hs] at hc
      exact hu c hc
    | cons d t =>
      have hd : d = c := by
        rw [hs] at hc
        exact Option.some.inj hc
      have hne : s.dropWhile p ≠ [] := by
        rw [hs]
        exact List.cons_ne_nil d t
      have hhead := List.head_dropWhile_not p hne
      simpa only [hs, List.head_cons, hd] using hhead
  have hsplit : s ++ u = s.takeWhile p ++ (s.dropWhile p ++ u) := by
    rw [← List.append_assoc, List.takeWhile_append_dropWhile]
  rw [hsplit, takeRun_append_of_all hall hstop, takeRun]

/-- A given beginning is taken off. -/
theorem stripStart?_append (start rest : List Char) :
    stripStart? start (start ++ rest) = some rest := by
  rw [stripStart?, if_pos (List.isPrefixOf_iff_prefix.mpr (List.prefix_append start rest)),
    List.drop_left]

/-- Without the given beginning nothing is taken off. -/
theorem stripStart?_eq_none {start s : List Char} (h : ¬start <+: s) :
    stripStart? start s = none := by
  rw [stripStart?, if_neg (fun hp => h (List.isPrefixOf_iff_prefix.mp hp))]

/-- No occurrence of the phrase begins in the text when a given rest follows it. -/
def FreeOf (phrase : List Char) : List Char → List Char → Prop
  | [], _ => True
  | c :: s, rest => ¬phrase <+: c :: (s ++ rest) ∧ FreeOf phrase s rest

variable {phrase s t rest : List Char}

/-- A phrase begins nowhere in two texts exactly if it begins nowhere in either, with the text
behind it in place. -/
theorem freeOf_append :
    FreeOf phrase (s ++ t) rest ↔ FreeOf phrase s (t ++ rest) ∧ FreeOf phrase t rest := by
  induction s with
  | nil => exact (and_iff_right trivial).symm
  | cons c s ih =>
    rw [List.cons_append, FreeOf, FreeOf, ih, List.append_assoc, and_assoc]

/-- A text without the first character of the phrase. -/
theorem freeOf_of_not_mem {c : Char} (h : c ∉ s) (rest : List Char) :
    FreeOf (c :: phrase) s rest := by
  induction s with
  | nil => trivial
  | cons d s ih =>
    rw [List.mem_cons, not_or] at h
    refine ⟨?_, ih h.2⟩
    intro hp
    exact h.1 (List.cons_prefix_cons.mp hp).1

/-- In blanks a phrase begins only if its second character follows them. -/
theorem freeOf_of_blank {c d : Char} (hd : isBlank d = false) (hs : isBlankText s = true)
    (hrest : rest.head? ≠ some d) : FreeOf (c :: d :: phrase) s rest := by
  induction s with
  | nil => trivial
  | cons e s ih =>
    rw [isBlankText, List.all_cons, Bool.and_eq_true] at hs
    refine ⟨?_, ih hs.2⟩
    intro hp
    have htail := (List.cons_prefix_cons.mp hp).2
    cases s with
    | nil =>
      cases rest with
      | nil =>
        rw [List.nil_append, List.prefix_nil] at htail
        exact absurd htail (List.cons_ne_nil _ _)
      | cons x rest =>
        rw [List.nil_append] at htail
        rw [(List.cons_prefix_cons.mp htail).1] at hrest
        exact hrest rfl
    | cons x s =>
      rw [List.cons_append] at htail
      rw [(List.cons_prefix_cons.mp htail).1] at hd
      rw [List.all_cons, Bool.and_eq_true, hd] at hs
      exact Bool.false_ne_true hs.2.1

/-- Less text behind leaves a phrase less room. -/
theorem FreeOf.of_append_rest {u : List Char} (h : FreeOf phrase s (u ++ t)) :
    FreeOf phrase s u := by
  induction s with
  | nil => trivial
  | cons c s ih =>
    refine ⟨fun hp => h.1 (hp.trans ?_), ih h.2⟩
    rw [← List.append_assoc, ← List.cons_append]
    exact List.prefix_append _ _

/-- The phrase cannot reach over a character that it does not hold. -/
theorem FreeOf.cons_rest {c : Char} (h : FreeOf phrase s []) (hc : c ∉ phrase) (rest : List Char) :
    FreeOf phrase s (c :: rest) := by
  induction s with
  | nil => trivial
  | cons d s ih =>
    refine ⟨?_, ih h.2⟩
    rintro ⟨u, hu⟩
    rw [← List.cons_append] at hu
    rcases List.append_eq_append_iff.mp hu with ⟨w, hw, -⟩ | ⟨w, hw, hcw⟩
    · exact h.1 (by rw [List.append_nil, hw]; exact List.prefix_append _ _)
    · cases w with
      | nil =>
        rw [List.append_nil] at hw
        rw [hw, FreeOf, List.append_nil] at h
        exact h.1 (List.prefix_refl _)
      | cons x w =>
        rw [List.cons_append, List.cons.injEq] at hcw
        rw [hw, hcw.1] at hc
        exact hc (List.mem_append_right _ (List.mem_cons_self ..))

/-- A phrase is found exactly where one begins. -/
theorem cutAtPhrase?_eq_none (hne : phrase ≠ []) :
    cutAtPhrase? phrase s = none ↔ FreeOf phrase s [] := by
  induction s with
  | nil =>
    refine iff_of_true ?_ trivial
    rw [cutAtPhrase?, if_neg (fun h => hne (List.isEmpty_iff.mp h))]
  | cons c s ih =>
    rw [cutAtPhrase?, FreeOf, List.append_nil]
    by_cases hp : phrase <+: c :: s
    · obtain ⟨after, ha⟩ := hp
      rw [← ha, stripStart?_append]
      exact iff_of_false nofun (fun h => h.1 (List.prefix_append _ _))
    · rw [stripStart?_eq_none hp]
      simp only [Option.map_eq_none_iff, ih, hp, not_false_eq_true, true_and]

/-- The text before the first beginning of a phrase is cut off. -/
theorem cutAtPhrase?_of_freeOf (hne : phrase ≠ []) (h : FreeOf phrase s (phrase ++ t)) :
    cutAtPhrase? phrase (s ++ (phrase ++ t)) = some (s, t) := by
  induction s with
  | nil =>
    cases hpt : phrase ++ t with
    | nil => exact absurd (List.append_eq_nil_iff.mp hpt).1 hne
    | cons c u =>
      rw [List.nil_append, cutAtPhrase?, ← hpt, stripStart?_append]
  | cons c s ih =>
    rw [List.cons_append, cutAtPhrase?, stripStart?_eq_none h.1, ih h.2]
    rfl

/-- Where a phrase is cut out, it stands behind a text in which none begins. -/
theorem cutAtPhrase?_eq_some {before after : List Char}
    (h : cutAtPhrase? phrase s = some (before, after)) :
    s = before ++ (phrase ++ after) ∧ FreeOf phrase before (phrase ++ after) := by
  induction s generalizing before with
  | nil =>
    rw [cutAtPhrase?] at h
    by_cases hne : phrase.isEmpty = true
    · rw [if_pos hne] at h
      obtain ⟨rfl, rfl⟩ := Prod.mk.inj (Option.some.inj h)
      rw [List.isEmpty_iff.mp hne]
      exact ⟨rfl, trivial⟩
    · rw [if_neg hne] at h
      cases h
  | cons c s ih =>
    rw [cutAtPhrase?] at h
    by_cases hp : phrase <+: c :: s
    · obtain ⟨rest, hrest⟩ := hp
      rw [← hrest, stripStart?_append] at h
      obtain ⟨rfl, rfl⟩ := Prod.mk.inj (Option.some.inj h)
      exact ⟨hrest.symm, trivial⟩
    · rw [stripStart?_eq_none hp] at h
      obtain ⟨⟨tail, rest⟩, hcut, hpair⟩ := Option.map_eq_some_iff.mp h
      obtain ⟨rfl, rfl⟩ := Prod.mk.inj hpair
      obtain ⟨rfl, hfree⟩ := ih hcut
      exact ⟨rfl, hp, hfree⟩

/-- What stands behind the phrase does not matter for what begins before it. -/
theorem FreeOf.replace_rest (h : FreeOf phrase s (phrase ++ rest)) (t : List Char) :
    FreeOf phrase s (phrase ++ t) := by
  induction s with
  | nil => trivial
  | cons c s ih =>
    refine ⟨fun hp => h.1 ?_, ih h.2⟩
    have hwithin : c :: (s ++ phrase) <+: c :: (s ++ (phrase ++ t)) :=
      ⟨t, by rw [List.cons_append, List.append_assoc]⟩
    have hlength : phrase.length ≤ (c :: (s ++ phrase)).length := by
      rw [List.length_cons, List.length_append]
      omega
    refine (List.prefix_of_prefix_length_le hp hwithin hlength).trans ?_
    exact ⟨rest, by rw [List.cons_append, List.append_assoc]⟩

end RouteSheet.Text
