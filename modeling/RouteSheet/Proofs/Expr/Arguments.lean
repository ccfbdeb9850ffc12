import RouteSheet.Proofs.Expr.Parts
import RouteSheet.Proofs.Surface.Reads
import RouteSheet.Proofs.Text.Parts

/-!
# The arguments that pieces make up

The commas at the top of an argument text cut it into pieces, and the arguments are the texts
of consecutive runs of these pieces. A run of several pieces is the shortest join that makes a
JSON document of a piece that begins one; every other piece is a run of its own. These rules
leave no choice: the pieces have one partition into runs, and the reader finds it.
-/

namespace RouteSheet

open Text

/-- One part more stands behind one separator more. -/
theorem Text.intercalate_concat {parts : List (List Char)} (h : parts ≠ []) (sep : Char)
    (last : List Char) :
    [sep].intercalate (parts ++ [last]) = [sep].intercalate parts ++ sep :: last := by
  obtain ⟨part, rest, rfl⟩ := List.exists_cons_of_ne_nil h
  rw [List.cons_append, intercalate_cons_eq, intercalate_cons_eq, List.flatMap_append,
    List.flatMap_singleton, List.append_assoc]

namespace Expr

/-- The text of a run of pieces: the pieces joined by commas, without blanks at its ends. -/
def runText (run : List (List Char)) : List Char := trim ([','].intercalate run)

/-- A piece makes up a run together with the pieces in `more`, in front of the pieces in
`after`. -/
structure IsRun (piece : List Char) (more after : List (List Char)) : Prop where
  /-- The piece is joined exactly if it begins a document, is none, and some join is one. -/
  joined_iff : more ≠ [] ↔
    beginsJson (trim piece) = true ∧ Json.isDocument (trim piece) = false ∧
    ∃ taken, taken ≠ [] ∧ taken <+: more ++ after ∧
      Json.isDocument (runText (piece :: taken)) = true
  /-- A joined run is a document. -/
  document : more ≠ [] → Json.isDocument (runText (piece :: more)) = true
  /-- No shorter join of the piece is a document. -/
  shortest : ∀ taken, taken ≠ [] → taken <+: more →
    Json.isDocument (runText (piece :: taken)) = true → taken = more

/-- Pieces in order, parted into the runs that they make up. -/
structure IsPartition (pieces : List (List Char)) (runs : List (List (List Char))) : Prop where
  flatten : runs.flatten = pieces
  isRun : ∀ before run after, runs = before ++ run :: after →
    ∃ piece more, run = piece :: more ∧ IsRun piece more after.flatten

section

variable {piece document : List Char} {run pieces more after rest : List (List Char)}

/-- A piece makes up one run only with the pieces behind it. -/
theorem IsRun.unique {more' after' : List (List Char)} (h : IsRun piece more after)
    (h' : IsRun piece more' after') (hpieces : more ++ after = more' ++ after') :
    more = more' := by
  have hjoined : more ≠ [] ↔ more' ≠ [] := by rw [h.joined_iff, h'.joined_iff, hpieces]
  by_cases hmore : more = []
  · rw [hmore, Classical.not_not.mp fun hne => hjoined.mpr hne hmore]
  · have hmore' := hjoined.mp hmore
    have hprefix : more' <+: more ++ after := hpieces ▸ List.prefix_append more' after'
    rcases List.prefix_or_prefix_of_prefix (List.prefix_append more after) hprefix with hle | hle
    · exact h'.shortest more hmore hle (h.document hmore)
    · exact (h.shortest more' hmore' hle (h'.document hmore')).symm

/-- What is rejoined is the shortest join that is a document. -/
theorem rejoin?_eq_some (hrun : run ≠ [])
    (h : rejoin? ([','].intercalate run) pieces = some (document, rest)) :
    ∃ taken, taken ≠ [] ∧ pieces = taken ++ rest ∧ document = runText (run ++ taken) ∧
      Json.isDocument document = true ∧
      ∀ part, part ≠ [] → part <+: taken →
        Json.isDocument (runText (run ++ part)) = true → part = taken := by
  induction pieces generalizing run with
  | nil => simp [rejoin?] at h
  | cons next pieces ih =>
    rw [rejoin?, ← intercalate_concat hrun] at h
    by_cases hdoc : Json.isDocument (runText (run ++ [next])) = true
    · obtain ⟨rfl, rfl⟩ := Prod.mk.inj (Option.some.inj ((if_pos hdoc).symm.trans h))
      refine ⟨[next], List.cons_ne_nil _ _, rfl, rfl, hdoc, fun part hne hpart _ => ?_⟩
      obtain rfl | ⟨part, rfl, hnil⟩ := List.prefix_cons_iff.mp hpart
      · exact absurd rfl hne
      · rw [List.prefix_nil.mp hnil]
    · obtain ⟨taken, hne, hpieces, hdocument, hjoin, hshort⟩ :=
        ih (List.append_ne_nil_of_left_ne_nil hrun _) ((if_neg hdoc).symm.trans h)
      refine ⟨next :: taken, List.cons_ne_nil _ _, by rw [hpieces, List.cons_append],
        by rw [hdocument, ← List.append_cons], hjoin, fun part hpartNe hpart hpartJoin => ?_⟩
      obtain rfl | ⟨part, rfl, hprefix⟩ := List.prefix_cons_iff.mp hpart
      · exact absurd rfl hpartNe
      · by_cases hnil : part = []
        · rw [hnil] at hpartJoin
          exact absurd hpartJoin hdoc
        · rw [List.append_cons] at hpartJoin
          rw [hshort part hnil hprefix hpartJoin]

/-- If nothing is rejoined, no join is a document. -/
theorem rejoin?_eq_none (hrun : run ≠ [])
    (h : rejoin? ([','].intercalate run) pieces = none) :
    ∀ taken, taken ≠ [] → taken <+: pieces →
      Json.isDocument (runText (run ++ taken)) = false := by
  induction pieces generalizing run with
  | nil => exact fun taken hne hprefix => absurd (List.prefix_nil.mp hprefix) hne
  | cons next pieces ih =>
    rw [rejoin?, ← intercalate_concat hrun] at h
    by_cases hdoc : Json.isDocument (runText (run ++ [next])) = true
    · cases (if_pos hdoc).symm.trans h
    · have hlonger := ih (List.append_ne_nil_of_left_ne_nil hrun _) ((if_neg hdoc).symm.trans h)
      intro taken hne hprefix
      obtain rfl | ⟨taken, rfl, hrest⟩ := List.prefix_cons_iff.mp hprefix
      · exact absurd rfl hne
      · by_cases hnil : taken = []
        · rw [hnil]
          exact Bool.not_eq_true _ ▸ hdoc
        · rw [List.append_cons]
          exact hlonger taken hnil hrest

/-- A piece that takes in others makes up a run with them. -/
theorem joinOf?_eq_some (h : joinOf? piece pieces = some (document, rest)) :
    ∃ more, pieces = more ++ rest ∧ document = runText (piece :: more) ∧ IsRun piece more rest := by
  rw [joinOf?] at h
  split at h
  · next hbegins =>
    rw [Bool.and_eq_true, Bool.not_eq_true'] at hbegins
    have hone : [','].intercalate [piece] = piece := List.intercalate_singleton
    rw [← hone] at h
    obtain ⟨more, hne, hpieces, hdocument, hjoin, hshort⟩ :=
      rejoin?_eq_some (List.cons_ne_nil _ _) h
    rw [hdocument] at hjoin
    refine ⟨more, hpieces, hdocument, ⟨fun _ => ?_, fun _ => hne⟩, fun _ => hjoin, hshort⟩
    exact ⟨hbegins.1, hbegins.2, more, hne, List.prefix_append _ _, hjoin⟩
  · cases h

/-- A piece that takes in no other is a run of its own. -/
theorem joinOf?_eq_none (h : joinOf? piece pieces = none) : IsRun piece [] pieces := by
  refine ⟨⟨fun hne => absurd rfl hne, ?_⟩, fun hne => absurd rfl hne,
    fun taken _ hprefix _ => List.prefix_nil.mp hprefix⟩
  rintro ⟨hbegins, hnone, taken, hne, hprefix, hjoin⟩
  have hone : [','].intercalate [piece] = piece := List.intercalate_singleton
  rw [joinOf?, hbegins, hnone, Bool.not_false, Bool.and_self, if_pos rfl, ← hone] at h
  have hno := rejoin?_eq_none (List.cons_ne_nil _ _) h taken hne hprefix
  exact absurd hjoin (Bool.eq_false_iff.mp hno)

/-- Of no pieces there is one partition, without groups. -/
theorem isPartition_nil : IsPartition [] [] where
  flatten := rfl
  isRun before run after h := by
    cases before <;> cases h

/-- A run in front of a partition makes a partition. -/
theorem IsRun.isPartition_cons {runs : List (List (List Char))} (h : IsRun piece more rest)
    (hrest : IsPartition rest runs) :
    IsPartition (piece :: (more ++ rest)) ((piece :: more) :: runs) where
  flatten := by rw [List.flatten_cons, hrest.flatten, List.cons_append]
  isRun before run after hsplit := by
    cases before with
    | nil =>
      obtain ⟨rfl, rfl⟩ := List.cons.inj hsplit
      exact ⟨piece, more, rfl, hrest.flatten ▸ h⟩
    | cons first before => exact hrest.isRun before run after (List.cons.inj hsplit).2

/-- The first run of a partition stands in front of a partition of the pieces behind it. -/
theorem IsPartition.of_cons {runs : List (List (List Char))}
    (h : IsPartition pieces (run :: runs)) :
    ∃ piece more, run = piece :: more ∧ pieces = piece :: (more ++ runs.flatten) ∧
      IsRun piece more runs.flatten ∧ IsPartition runs.flatten runs := by
  obtain ⟨piece, more, rfl, hrun⟩ := h.isRun [] run runs rfl
  refine ⟨piece, more, rfl, h.flatten.symm, hrun, rfl, fun before run after hsplit => ?_⟩
  exact h.isRun ((piece :: more) :: before) run after (by rw [hsplit, List.cons_append])

/-- Pieces have one partition into runs at most. -/
theorem IsPartition.unique {runs runs' : List (List (List Char))} (h : IsPartition pieces runs)
    (h' : IsPartition pieces runs') : runs = runs' := by
  induction runs generalizing pieces runs' with
  | nil =>
    obtain rfl := h.flatten
    cases runs' with
    | nil => rfl
    | cons run' runs' =>
      obtain ⟨piece, more, -, hpieces, -⟩ := h'.of_cons
      cases hpieces
  | cons run runs ih =>
    obtain ⟨piece, more, rfl, rfl, hrun, hrest⟩ := h.of_cons
    cases runs' with
    | nil => cases h'.flatten
    | cons run' runs' =>
      obtain ⟨piece', more', rfl, hpieces, hrun', hrest'⟩ := h'.of_cons
      obtain ⟨rfl, hbehind⟩ := List.cons.inj hpieces
      obtain rfl := hrun.unique hrun' hbehind
      rw [← List.append_cancel_left hbehind] at hrest'
      rw [ih hrest hrest']

/-- The reader takes the pieces by the runs of a partition. -/
theorem exists_isPartition (pieces : List (List Char)) :
    ∃ runs, IsPartition pieces runs ∧ joinPieces pieces = runs.map runText := by
  fun_induction joinPieces pieces with
  | case1 => exact ⟨[], isPartition_nil, rfl⟩
  | case2 piece pieces document rest hjoin ih =>
    obtain ⟨runs, hruns, htexts⟩ := ih
    obtain ⟨more, rfl, rfl, hrun⟩ := joinOf?_eq_some hjoin
    exact ⟨(piece :: more) :: runs, hrun.isPartition_cons hruns, by rw [htexts, List.map_cons]⟩
  | case3 piece pieces hjoin ih =>
    obtain ⟨runs, hruns, htexts⟩ := ih
    refine ⟨[piece] :: runs, (joinOf?_eq_none hjoin).isPartition_cons hruns, ?_⟩
    rw [htexts, List.map_cons, runText, List.intercalate_singleton]

end

/-- What stands behind the statement of a query, without one comma in front. -/
def behindStatement (after : List Char) : List Char :=
  (stripStart? [','] (trim after)).getD (trim after)

/-- A call is written with the given argument text: all that a concatenation encloses, or what
stands behind the statement of a query. -/
def HasArguments (text inner : List Char) : Prop :=
  Call.ofText? (trim text) = some (.concat, inner) ∨
  ∃ whole run, Call.ofText? (trim text) = some (.sql, whole) ∧ firstQuoted? whole = some run ∧
    inner = behindStatement run.after

/-- The arguments of a call are the texts of its argument text, each read once. -/
theorem parts_parse {text inner : List Char} (h : HasArguments text inner) :
    (parse text).parts = (argumentTexts inner).map parse := by
  rcases h with h | ⟨whole, run, h, hrun, rfl⟩
  · rw [parse_eq, h]
    rfl
  · rw [parse_eq, h]
    simp only [queryTexts, hrun, parts]
    rfl

/-- The top-level pieces of an argument text, which joined by commas are the text, have exactly
one partition into runs. The arguments are the texts of the runs in order, without the empty
ones, and a call with this argument text has each of them as an expression, read once. -/
theorem arguments_partition (inner : List Char) :
    [','].intercalate (splitTop ',' inner) = inner ∧
    ∃ runs, IsPartition (splitTop ',' inner) runs ∧
      (∀ other, IsPartition (splitTop ',' inner) other → other = runs) ∧
      argumentTexts inner = (runs.map runText).filter (fun s => !s.isEmpty) ∧
      ∀ text, HasArguments text inner →
        (parse text).parts = ((runs.map runText).filter fun s => !s.isEmpty).map parse := by
  obtain ⟨runs, hruns, htexts⟩ := exists_isPartition (splitTop ',' inner)
  have harguments : argumentTexts inner = (runs.map runText).filter fun s => !s.isEmpty := by
    rw [argumentTexts, htexts]
  refine ⟨intercalate_splitTop ',' inner, runs, hruns, fun other hother => hother.unique hruns,
    harguments, fun text htext => ?_⟩
  rw [parts_parse htext, harguments]

/-- An array is joined again, an array without an end stays in pieces, and an empty piece is no
argument. -/
theorem arguments_partition_array :
    HasArguments "concat([1, 2], a, , [3)".toList "[1, 2], a, , [3".toList ∧
    (parse "concat([1, 2], a, , [3)".toList).parts =
      ["[1, 2]", "a", "[3"].map fun s => parse s.toList := by
  have hcall : HasArguments "concat([1, 2], a, , [3)".toList "[1, 2], a, , [3".toList :=
    Or.inl (by decide +kernel)
  have hread : argumentTexts "[1, 2], a, , [3".toList =
      ["[1, 2]".toList, "a".toList, "[3".toList] := by decide +kernel
  obtain ⟨-, runs, -, -, htexts, hparts⟩ := arguments_partition "[1, 2], a, , [3".toList
  refine ⟨hcall, ?_⟩
  rw [hparts _ hcall, ← htexts, hread]
  rfl

end Expr

end RouteSheet
