import RouteSheet.Proofs.Text.Split
import RouteSheet.Route.Match

/-!
# Paths and patterns

A path is written as its segments with slashes between them and any number of slashes
around. What a route captures from a path is exactly what fills the open segments of its
pattern to give the path: matching inverts filling in, and filling in inverts matching.
-/

namespace RouteSheet

open Text

/-- So many slashes. -/
def slashes (n : Nat) : List Char := List.replicate n '/'

/-- Segments with a slash between neighbours. -/
def joined (segments : List (List Char)) : List Char := ['/'].intercalate segments

/-- Segments that can be told from the text that joins them, with slashes around it or without:
none holds a slash, and neither the first nor the last is empty. -/
structure Separable (segments : List (List Char)) : Prop where
  free : ∀ segment ∈ segments, '/' ∉ segment
  first : segments.head? ≠ some []
  last : segments.getLast? ≠ some []

/-- The path is written as the segments, with any number of slashes around. -/
structure Written (segments : List (List Char)) (path : List Char) : Prop extends
    Separable segments where
  padded : ∃ before after, path = slashes before ++ (joined segments ++ slashes after)

/-- Slashes are nothing but slashes. -/
theorem all_slashes (n : Nat) : (slashes n).all (· == '/') = true :=
  List.all_eq_true.mpr fun _ hc => beq_iff_eq.mpr (List.eq_of_mem_replicate hc)

/-- A text of nothing but slashes is so many slashes. -/
theorem exists_slashes {s : List Char} (h : s.all (· == '/') = true) : ∃ n, s = slashes n :=
  ⟨s.length, List.eq_replicate_of_mem fun c hc => beq_iff_eq.mp (List.all_eq_true.mp h c hc)⟩

section

variable {segments : List (List Char)} {segment path : List Char}

/-- Segments are joined by slashes. -/
theorem joined_cons_cons (segment next : List Char) (rest : List (List Char)) :
    joined (segment :: next :: rest) = segment ++ '/' :: joined (next :: rest) := by
  rw [joined, List.intercalate_cons_cons, List.append_assoc]
  rfl

/-- Joined segments begin with the first of them, and with a slash behind it if there are more. -/
theorem joined_of_head? (h : segments.head? = some segment) :
    joined segments = segment ∨ ∃ s, joined segments = segment ++ '/' :: s := by
  obtain ⟨rest, rfl⟩ := List.head?_eq_some_iff.mp h
  cases rest with
  | nil => exact .inl (List.intercalate_singleton ..)
  | cons next rest => exact .inr ⟨joined (next :: rest), joined_cons_cons segment next rest⟩

/-- Joined segments end in the last of them, and in a slash before it if there are more. -/
theorem joined_of_getLast? (h : segments.getLast? = some segment) :
    joined segments = segment ∨ ∃ s, joined segments = s ++ '/' :: segment := by
  induction segments with
  | nil => exact nomatch h
  | cons first rest ih =>
    cases rest with
    | nil =>
      rw [← Option.some.inj h]
      exact .inl (List.intercalate_singleton ..)
    | cons next rest =>
      rw [List.getLast?_cons_cons] at h
      rcases ih h with hone | ⟨s, hs⟩
      · exact .inr ⟨first, by rw [joined_cons_cons, hone]⟩
      · refine .inr ⟨first ++ '/' :: s, ?_⟩
        rw [joined_cons_cons, hs, List.append_assoc, List.cons_append]

namespace Separable

/-- Separable segments do not begin with a slash when they are joined. -/
theorem head?_joined (h : Separable segments) {c : Char} (hc : (joined segments).head? = some c) :
    (c == '/') = false := by
  cases hfirst : segments.head? with
  | none =>
    rw [List.head?_eq_none_iff.mp hfirst] at hc
    exact nomatch hc
  | some segment =>
    cases segment with
    | nil => exact absurd hfirst h.first
    | cons d segment =>
      have hd : d = c := by
        rcases joined_of_head? hfirst with hj | ⟨s, hj⟩ <;>
          exact Option.some.inj (by rwa [hj] at hc)
      have hfree := h.free _ (List.mem_of_mem_head? hfirst)
      rw [← hd]
      exact beq_eq_false_iff_ne.mpr fun he => hfree (he ▸ List.mem_cons_self)

/-- Nor do they end in one. -/
theorem getLast?_joined (h : Separable segments) {c : Char}
    (hc : (joined segments).getLast? = some c) : (c == '/') = false := by
  cases hlast : segments.getLast? with
  | none =>
    rw [List.getLast?_eq_none_iff.mp hlast] at hc
    exact nomatch hc
  | some segment =>
    have hne : segment ≠ [] := by
      rintro rfl
      exact h.last hlast
    have hin : segment.getLast? = some c := by
      rcases joined_of_getLast? hlast with hj | ⟨s, hj⟩
      · rwa [hj] at hc
      · obtain ⟨d, hd⟩ := Option.ne_none_iff_exists'.mp (mt List.getLast?_eq_none_iff.mp hne)
        rw [hj, List.getLast?_append, List.getLast?_cons, hd, Option.getD_some,
          Option.some_or] at hc
        rw [hd, hc]
    have hfree := h.free _ (List.mem_of_mem_getLast? hlast)
    exact beq_eq_false_iff_ne.mpr fun he => hfree (he ▸ List.mem_of_mem_getLast? hin)

/-- Only no segments at all join to nothing. -/
theorem joined_eq_nil_iff (h : Separable segments) : joined segments = [] ↔ segments = [] := by
  refine ⟨fun hj => ?_, fun hs => by rw [hs]; rfl⟩
  cases hfirst : segments.head? with
  | none => exact List.head?_eq_none_iff.mp hfirst
  | some segment =>
    have hnil : segment = [] := by
      rcases joined_of_head? hfirst with hone | ⟨s, hmore⟩
      · rw [← hone, hj]
      · exact (List.append_eq_nil_iff.mp (hmore.symm.trans hj)).1
    rw [hnil] at hfirst
    exact absurd hfirst h.first

/-- Joined segments are what is left of a path between its outer slashes. -/
theorem trimMatches_padded (h : Separable segments) (before after : Nat) :
    trimMatches (· == '/') (slashes before ++ (joined segments ++ slashes after)) =
      joined segments :=
  Text.trimMatches_padded (all_slashes before) (all_slashes after)
    (fun _ => h.head?_joined) fun _ => h.getLast?_joined

end Separable

namespace Written

/-- What is left of a path between its outer slashes joins its segments. -/
theorem trimMatches_eq (h : Written segments path) :
    trimMatches (· == '/') path = joined segments := by
  obtain ⟨before, after, rfl⟩ := h.padded
  exact h.trimMatches_padded before after

/-- A path has the segments that it is written as. -/
theorem pathSegments_eq (h : Written segments path) : pathSegments path = segments := by
  rw [pathSegments, h.trimMatches_eq]
  cases segments with
  | nil => rfl
  | cons segment rest =>
    have hne : joined (segment :: rest) ≠ [] := fun hj =>
      List.cons_ne_nil segment rest (h.joined_eq_nil_iff.mp hj)
    simp only [List.isEmpty_eq_false_iff.mpr hne, Bool.false_eq_true, ite_false]
    exact splitAtChar_intercalate h.free (List.cons_ne_nil segment rest)

end Written

/-- Cutting what is left of a path between its outer slashes gives separable segments. -/
theorem separable_splitAtChar (hne : trimMatches (· == '/') path ≠ []) :
    Separable (splitAtChar '/' (trimMatches (· == '/') path)) where
  free _ hmem := not_mem_of_mem_splitAtChar hmem
  first hfirst := by
    rcases joined_of_head? hfirst with hone | ⟨s, hmore⟩
    · exact hne ((intercalate_splitAtChar '/' _).symm.trans hone)
    · have hslash : (trimMatches (· == '/') path).head? = some '/' := by
        rw [← intercalate_splitAtChar '/' (trimMatches (· == '/') path)]
        exact congrArg List.head? hmore
      exact absurd (head?_trimMatches hslash) (by decide)
  last hlast := by
    rcases joined_of_getLast? hlast with hone | ⟨s, hmore⟩
    · exact hne ((intercalate_splitAtChar '/' _).symm.trans hone)
    · have hslash : (trimMatches (· == '/') path).getLast? = some '/' := by
        rw [← intercalate_splitAtChar '/' (trimMatches (· == '/') path)]
        exact (congrArg List.getLast? hmore).trans List.getLast?_concat
      exact absurd (getLast?_trimMatches hslash) (by decide)

/-- Every path is written as its segments. -/
theorem written_pathSegments (path : List Char) : Written (pathSegments path) path := by
  obtain ⟨before, after, hbefore, hafter, hpath⟩ := exists_trimMatches (· == '/') path
  obtain ⟨m, rfl⟩ := exists_slashes hbefore
  obtain ⟨n, rfl⟩ := exists_slashes hafter
  unfold pathSegments
  by_cases hempty : trimMatches (· == '/') path = []
  · rw [hempty] at hpath ⊢
    exact ⟨⟨nofun, nofun, nofun⟩, m, n, hpath⟩
  · simp only [List.isEmpty_eq_false_iff.mpr hempty, Bool.false_eq_true, ite_false]
    refine ⟨separable_splitAtChar hempty, m, n, ?_⟩
    rw [joined, intercalate_splitAtChar]
    exact hpath

/-- A path is written as its segments and as no others. -/
theorem written_iff : Written segments path ↔ segments = pathSegments path :=
  ⟨fun h => h.pathSegments_eq.symm, fun h => h ▸ written_pathSegments path⟩

end

end RouteSheet
