import RouteSheet.Text.Nesting
import RouteSheet.Text.Offset

/-!
# Cutting makes texts shorter

What is left of a text after trimming is no longer than the text, and what stands
behind a beginning, a separator or an opening parenthesis is shorter. The readers
that call themselves on a part of their input end because of these facts.
-/

namespace RouteSheet.Text

/-- Behind a run no more of the text is left. -/
theorem length_dropWhile_le (p : Char → Bool) (s : List Char) :
    (s.dropWhile p).length ≤ s.length :=
  (List.dropWhile_suffix p).length_le

/-- A run and the rest together are the text. -/
theorem takeRun_append (p : Char → Bool) (s : List Char) :
    (takeRun p s).1 ++ (takeRun p s).2 = s := by
  simp only [takeRun, List.takeWhile_append_dropWhile]

/-- A run and the rest are as long as the text. -/
theorem length_takeRun (p : Char → Bool) (s : List Char) :
    (takeRun p s).1.length + (takeRun p s).2.length = s.length := by
  simpa only [List.length_append] using congrArg List.length (takeRun_append p s)

/-- Trimming makes no text longer. -/
theorem length_trim_le (s : List Char) : (trim s).length ≤ s.length := by
  have inner := length_dropWhile_le isBlank (trimStart s).reverse
  have outer := length_dropWhile_le isBlank s
  simp only [trim, trimEnd, trimStart, List.length_reverse] at *
  omega

/-- A beginning and the rest are as long as the text. -/
theorem length_of_stripStart? {start s rest : List Char} (h : stripStart? start s = some rest) :
    rest.length + start.length = s.length := by
  unfold stripStart? at h
  split at h
  · next hp =>
    have := (List.isPrefixOf_iff_prefix.mp hp).length_le
    cases h
    simp only [List.length_drop]
    omega
  · cases h

/-- A phrase and the text on both sides of it are as long as the text. -/
theorem length_of_cutAtPhrase? {phrase s before after : List Char}
    (h : cutAtPhrase? phrase s = some (before, after)) :
    before.length + phrase.length + after.length = s.length := by
  induction s generalizing before with
  | nil =>
    unfold cutAtPhrase? at h
    split at h
    · next he => cases h; simp [List.isEmpty_iff.mp he]
    · cases h
  | cons c s ih =>
    unfold cutAtPhrase? at h
    split at h
    · next after' hs =>
      cases h
      have := length_of_stripStart? hs
      simp only [List.length_nil, List.length_cons] at *
      omega
    · obtain ⟨⟨b, a⟩, hc, he⟩ := Option.map_eq_some_iff.mp h
      simp only [Prod.mk.injEq] at he
      obtain ⟨rfl, rfl⟩ := he
      have := ih hc
      simp only [List.length_cons] at *
      omega

/-- What a parenthesis encloses is no longer than what stands behind it. -/
theorem length_enclosed_le (n : Nesting) (s : List Char) : (enclosed n s).length ≤ s.length := by
  induction s generalizing n with
  | nil => simp [enclosed]
  | cons c s ih =>
    unfold enclosed
    split
    · simp
    · simpa using ih (n.next c)

/-- The arguments of a call are shorter than the call. -/
theorem length_of_callArguments? {name s inner : List Char}
    (h : callArguments? name s = some inner) : inner.length < s.length := by
  unfold callArguments? at h
  split at h
  · next rest hs =>
    have := length_of_stripStart? hs
    have := length_enclosed_le ⟨1, none⟩ rest
    cases h
    simp only [List.length_cons] at *
    omega
  · cases h

/-- A part to which a character may be added is longer by at most one. -/
theorem length_of_mem_extendFirst {c : Char} {parts : List (List Char)} {part : List Char} {n : Nat}
    (hn : ∀ p ∈ parts, p.length ≤ n) (h : part ∈ extendFirst c parts) : part.length ≤ n + 1 := by
  cases parts with
  | nil => simp [extendFirst] at h; subst h; simp
  | cons p rest =>
    simp only [extendFirst, List.mem_cons] at h
    rcases h with h | h
    · subst h
      have := hn p (by simp)
      simp only [List.length_cons]
      omega
    · have := hn part (by simp [h])
      omega

/-- A part is no longer than the text behind the place. -/
theorem length_of_mem_splitFrom {sep : Char} {n : Nesting} {s part : List Char}
    (h : part ∈ splitFrom sep n s) : part.length ≤ s.length := by
  induction s generalizing n part with
  | nil => simp [splitFrom] at h; simp [h]
  | cons c s ih =>
    unfold splitFrom at h
    split at h
    · simp only [List.mem_cons] at h
      rcases h with h | h
      · simp [h]
      · have := ih h
        simp only [List.length_cons]
        omega
    · exact length_of_mem_extendFirst (fun p hp => ih hp) h

/-- A part is no longer than the text. -/
theorem length_of_mem_splitTop {sep : Char} {s part : List Char} (h : part ∈ splitTop sep s) :
    part.length ≤ s.length :=
  length_of_mem_splitFrom h

/-- A separator and the text on both sides of it are as long as the text. -/
theorem length_of_cutFrom? {sep : Char} {n : Nesting} {s before after : List Char}
    (h : cutFrom? sep n s = some (before, after)) :
    before.length + 1 + after.length = s.length := by
  induction s generalizing n before with
  | nil => simp [cutFrom?] at h
  | cons c s ih =>
    unfold cutFrom? at h
    split at h
    · cases h; simp; omega
    · obtain ⟨⟨b, a⟩, hc, he⟩ := Option.map_eq_some_iff.mp h
      simp only [Prod.mk.injEq] at he
      obtain ⟨rfl, rfl⟩ := he
      have := ih hc
      simp only [List.length_cons] at *
      omega

/-- A separator at the top and the text on both sides of it are as long as the text. -/
theorem length_of_cutTop? {sep : Char} {s before after : List Char}
    (h : cutTop? sep s = some (before, after)) : before.length + 1 + after.length = s.length :=
  length_of_cutFrom? h

/-- A bracket and the text on both sides of it are as long as the text. -/
theorem length_of_cutOpeningFrom? {bracket : Char} {n : Nesting} {s before after : List Char}
    (h : cutOpeningFrom? bracket n s = some (before, after)) :
    before.length + 1 + after.length = s.length := by
  induction s generalizing n before with
  | nil => simp [cutOpeningFrom?] at h
  | cons c s ih =>
    unfold cutOpeningFrom? at h
    split at h
    · cases h; simp; omega
    · obtain ⟨⟨b, a⟩, hc, he⟩ := Option.map_eq_some_iff.mp h
      simp only [Prod.mk.injEq] at he
      obtain ⟨rfl, rfl⟩ := he
      have := ih hc
      simp only [List.length_cons] at *
      omega

/-- A bracket at the top and the text on both sides of it are as long as the text. -/
theorem length_of_cutOpening? {bracket : Char} {s before after : List Char}
    (h : cutOpening? bracket s = some (before, after)) :
    before.length + 1 + after.length = s.length :=
  length_of_cutOpeningFrom? h

/-- A character and the text on both sides of it are as long as the text. -/
theorem length_of_cutAtChar? {sep : Char} {s before after : List Char}
    (h : cutAtChar? sep s = some (before, after)) :
    before.length + 1 + after.length = s.length := by
  unfold cutAtChar? at h
  have hs := length_takeRun (· != sep) s
  split at h
  · next b x a he =>
    cases h
    simp only [he, List.length_cons] at hs
    omega
  · cases h

/-- Behind a quoted run less of the text is left. -/
theorem length_of_firstQuoted? {s : List Char} {run : QuotedRun} (h : firstQuoted? s = some run) :
    run.after.length < s.length := by
  unfold firstQuoted? at h
  have hs := length_takeRun (!isQuote ·) s
  split at h
  · cases h
  · next b q rest he =>
    obtain ⟨⟨c, a⟩, hc, rfl⟩ := Option.map_eq_some_iff.mp h
    have := length_of_cutAtChar? hc
    simp only [he, List.length_cons] at hs
    simp only
    omega

end RouteSheet.Text
