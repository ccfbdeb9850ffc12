import RouteSheet.Proofs.Condition.Cut

/-!
# Chains of clauses

Clauses are joined by conjunctions within a group and by disjunctions between groups. The words of
a clause stand between single spaces and none of them is a connective, so no connective begins in
a clause, nor where it meets the next one. A chain is therefore cut exactly where its clauses were
joined, and it holds when all clauses of some group do.
-/

namespace RouteSheet.Condition

open Text Surface

/-- A value without blanks that is no connective. -/
structure BareValue where
  chars : List Char
  notBlank : chars.all (!isBlank ·) = true
  ne_or : chars ≠ "or".toList
  ne_and : chars ≠ "and".toList

/-- A variable, alone or compared with a bare value, behind any number of negations. -/
structure Clause where
  negations : Nat
  name : List Char
  comparison : Option (Relation × BareValue)
  isName : name.all isNameChar = true

namespace Clause

/-- The text of a comparison behind the name of a variable. -/
def comparisonText : Option (Relation × BareValue) → List Char
  | none => []
  | some (relation, value) =>
    " ".toList ++ (relation.symbol.toList ++ (" ".toList ++ value.chars))

/-- The text of a clause. -/
def text (c : Clause) : List Char :=
  (List.replicate c.negations "not ".toList).flatten ++
    ("--".toList ++ (c.name ++ comparisonText c.comparison))

/-- The clause with one more negation in front. -/
def negated (c : Clause) : Clause := { c with negations := c.negations + 1 }

end Clause

/-- The text of a group: its clauses joined by conjunctions. -/
def groupText (group : List Clause) : List Char :=
  Connective.and.text.intercalate (group.map Clause.text)

/-- The text of a chain: its groups joined by disjunctions. -/
def chainText (groups : List (List Clause)) : List Char :=
  Connective.or.text.intercalate (groups.map groupText)

/-- No occurrence of the connective begins in the text when a space follows it. -/
def Lacks (k : Connective) (s : List Char) : Prop := ∀ t, FreeOf k.text s (' ' :: t)

/-- The text begins with a mark or a negation. -/
def Opens (s : List Char) : Prop := s.head? = some '-' ∨ s.head? = some 'n'

section Lacks

variable {k : Connective} {w l r s t : List Char}

/-- A connective does not begin in tame characters. -/
theorem lacks_of_tame (hw : w.all isTame = true) : Lacks k w := fun _ => k.freeOf_of_tame hw

/-- What stands before the first space is determined by the text. -/
private theorem eq_of_append_space {u : List Char} (hu : ' ' ∉ u) (hw : ' ' ∉ w)
    (h : u ++ ' ' :: s = w ++ ' ' :: t) : u = w := by
  have hrun : ∀ {u s : List Char}, ' ' ∉ u →
      takeRun (· != ' ') (u ++ ' ' :: s) = (u, ' ' :: s) := by
    intro u s hu
    refine takeRun_append_of_all (List.all_eq_true.mpr fun c hc => bne_iff_ne.mpr ?_) ?_
    · rintro rfl
      exact hu hc
    · intro c hc
      rw [← Option.some.inj hc]
      rfl
  have hboth := hrun (s := s) hu
  rw [h, hrun hw] at hboth
  exact (Prod.mk.inj hboth).1.symm

/-- A space and a word that is not that of the connective: both words would end at the first space
behind. -/
theorem lacks_word (hw : w.all (!isBlank ·) = true) (hne : w ≠ k.word) : Lacks k (' ' :: w) := by
  have hspace : ' ' ∉ w := fun hmem => absurd (List.all_eq_true.mp hw _ hmem) (by decide)
  have hword : ' ' ∉ k.word := by
    cases k <;> decide
  have htext : k.text = ' ' :: (k.word ++ [' ']) := by
    cases k <;> rfl
  intro t
  rw [htext]
  refine ⟨?_, freeOf_of_not_mem hspace _⟩
  rintro ⟨u, hu⟩
  rw [List.cons_append, List.cons.injEq, List.append_assoc] at hu
  exact hne (eq_of_append_space hword hspace hu.2).symm

/-- A space and a text that begins with no letter of a connective. -/
theorem lacks_space (hs : Lacks k s) (ho : Opens s) : Lacks k (' ' :: s) := by
  intro t
  have hblank : FreeOf k.text [' '] (s ++ ' ' :: t) := by
    refine k.freeOf_blanks ⟨[' '], rfl⟩ ?_
    rw [List.head?_append]
    rcases ho with h | h <;> rw [h, Option.some_or] <;> cases k <;> decide
  exact freeOf_append (s := [' ']).mpr ⟨hblank, hs t⟩

/-- Two texts of which the second begins with a space. -/
theorem Lacks.append (hl : Lacks k l) (hs : Lacks k (' ' :: s)) : Lacks k (l ++ ' ' :: s) :=
  fun t => freeOf_append.mpr ⟨hl (s ++ ' ' :: t), hs t⟩

/-- A negation adds no connective. -/
theorem Lacks.not (hs : Lacks k s) (ho : Opens s) : Lacks k ("not ".toList ++ s) :=
  (lacks_of_tame (w := "not".toList) rfl).append (lacks_space hs ho)

/-- Nor does one begin in the text alone, without what stands at its end. -/
theorem Lacks.freeOf {b : List Char} (hs : Lacks k (s ++ b)) : FreeOf k.text s [] :=
  (freeOf_append.mp (hs [])).1.of_append_rest (u := [])

end Lacks

section Opens

variable {l r s : List Char}

/-- A text that begins with a mark or a negation does so with more text behind it. -/
theorem Opens.append (h : Opens l) (r : List Char) : Opens (l ++ r) := by
  rcases h with h | h
  · exact Or.inl (by rw [List.head?_append, h, Option.some_or])
  · exact Or.inr (by rw [List.head?_append, h, Option.some_or])

/-- A text that opens is trimmed once the blanks behind it are gone. -/
theorem Opens.exists_trimmed (h : Opens s) :
    ∃ t b, s = t ++ b ∧ isTrimmed t = true ∧ isBlankText b = true := by
  obtain ⟨c, rest, rfl, hc⟩ : ∃ c rest, s = c :: rest ∧ isBlank c = false := by
    rcases h with h | h <;> obtain ⟨rest, rfl⟩ := List.head?_eq_some_iff.mp h <;>
      exact ⟨_, rest, rfl, by decide⟩
  obtain ⟨b, hb, hs⟩ := exists_append_trimEnd (c :: rest)
  refine ⟨trimEnd (c :: rest), b, hs.symm, ?_, hb⟩
  have htrim : isTrimmed (trim (c :: rest)) = true := by
    refine isTrimmed_trim ?_
    rw [isBlankText, List.all_cons, hc, Bool.false_and]
  rwa [trim, trimStart_cons hc] at htrim

/-- Only the beginning and the end of a text decide whether it is trimmed. -/
theorem Opens.isTrimmed_append (h : Opens l) (hr : isTrimmed r = true) (u : List Char) :
    isTrimmed (l ++ (u ++ r)) = true := by
  obtain ⟨-, c, hc, hblank⟩ := isTrimmed_iff.mp hr
  refine isTrimmed_iff.mpr ⟨?_, c, ?_, hblank⟩
  · rw [List.head?_append]
    rcases h with h | h <;> rw [h] <;> exact ⟨_, rfl, by decide⟩
  · rw [← List.append_assoc, List.getLast?_append, hc, Option.some_or]

end Opens

section Joined

variable {l r : List Char} (hl : Opens l) (hr : Opens r)

include hl hr

/-- A text is cut at the disjunction that it was joined by. A clause that compares with an empty
value ends with a space, which is trimmed away. -/
theorem parse_joined_or (hor : Lacks .or l) :
    parse (l ++ (Connective.or.text ++ r)) = .or (parse l) (parse r) := by
  obtain ⟨s, b, rfl, hs, hb⟩ := hr.exists_trimmed
  have hcut : cutAtPhrase? Connective.or.text (l ++ (Connective.or.text ++ s)) = some (l, s) :=
    cutAtPhrase?_of_freeOf Connective.or.text_ne_nil (hor _)
  rw [← List.append_assoc, ← List.append_assoc, parse_append_of_blank hb, List.append_assoc,
    parse_or (hl.isTrimmed_append hs _) hcut, parse_append_of_blank hb]

/-- A text without disjunctions is cut at the conjunction that it was joined by. -/
theorem parse_joined_and (hand : Lacks .and l) (hor : Lacks .or (l ++ (Connective.and.text ++ r))) :
    parse (l ++ (Connective.and.text ++ r)) = .and (parse l) (parse r) := by
  obtain ⟨s, b, rfl, hs, hb⟩ := hr.exists_trimmed
  have hcut : cutAtPhrase? Connective.and.text (l ++ (Connective.and.text ++ s)) = some (l, s) :=
    cutAtPhrase?_of_freeOf Connective.and.text_ne_nil (hand _)
  rw [← List.append_assoc, ← List.append_assoc, List.append_assoc l] at hor ⊢
  rw [parse_append_of_blank hb, parse_and (hl.isTrimmed_append hs _) hor.freeOf hcut,
    parse_append_of_blank hb]

end Joined

/-- A negation in front of a text without connectives is taken off. -/
theorem parse_not {s : List Char} (ho : Opens s) (hs : ∀ k, Lacks k s) :
    parse ("not ".toList ++ s) = .not (parse s) := by
  have hnot := fun k => (hs k).not ho
  obtain ⟨s, b, rfl, htrim, hb⟩ := ho.exists_trimmed
  have hopens : Opens "not ".toList := Or.inr rfl
  have htrimmed : isTrimmed ("not ".toList ++ s) = true := hopens.isTrimmed_append htrim []
  rw [← List.append_assoc] at hnot ⊢
  rw [parse_append_of_blank hb, parse_unconnected htrimmed fun k => (hnot k).freeOf,
    stripStart?_append, parse_append_of_blank hb]

namespace Clause

variable (c : Clause)

/-- A clause begins with a mark or a negation. -/
theorem opens_text : Opens c.text := by
  cases hc : c.negations with
  | zero =>
    refine Or.inl ?_
    rw [text, hc]
    rfl
  | succ n =>
    refine Or.inr ?_
    rw [text, hc, List.replicate_succ]
    rfl

/-- A negation stands in front of its clause. -/
theorem text_negated : c.negated.text = "not ".toList ++ c.text := by
  simp only [text, negated, List.replicate_succ, List.flatten_cons, List.append_assoc]

/-- No connective begins in a variable, alone or compared. -/
theorem lacks_question (k : Connective) {name : List Char} (hname : name.all isNameChar = true)
    (comparison : Option (Relation × BareValue)) :
    Lacks k ("--".toList ++ (name ++ comparisonText comparison)) := by
  have hmark : ("--".toList ++ name).all isTame = true := by
    have htame : name.all isTame = true := List.all_eq_true.mpr fun c hc =>
      isTame_of_isNameChar (List.all_eq_true.mp hname c hc)
    rw [List.all_append, htame]
    rfl
  rw [← List.append_assoc]
  cases comparison with
  | none =>
    rw [comparisonText, List.append_nil]
    exact lacks_of_tame hmark
  | some compared =>
    obtain ⟨relation, value⟩ := compared
    have hsymbol : Lacks k (' ' :: relation.symbol.toList) := by
      refine lacks_word ?_ ?_ <;> cases relation <;> cases k <;> decide
    have hvalue : Lacks k (' ' :: value.chars) := by
      refine lacks_word value.notBlank ?_
      cases k with
      | or => exact value.ne_or
      | and => exact value.ne_and
    exact (lacks_of_tame hmark).append (hsymbol.append hvalue)

/-- No connective begins in a clause. -/
theorem lacks_text (k : Connective) : Lacks k c.text := by
  obtain ⟨n, name, comparison, hname⟩ := c
  induction n with
  | zero => exact lacks_question k hname comparison
  | succ n ih =>
    rw [show (⟨n + 1, name, comparison, hname⟩ : Clause) =
      (⟨n, name, comparison, hname⟩ : Clause).negated from rfl, text_negated]
    exact ih.not (opens_text _)

/-- A negation binds tighter than anything else. -/
theorem parse_negated : parse c.negated.text = .not (parse c.text) := by
  rw [text_negated, parse_not c.opens_text c.lacks_text]

end Clause

/-- A group of one clause is the clause. -/
theorem groupText_singleton (c : Clause) : groupText [c] = c.text := List.intercalate_singleton

/-- The clauses of a group are joined by the conjunction. -/
theorem groupText_cons_cons (c d : Clause) (rest : List Clause) :
    groupText (c :: d :: rest) = c.text ++ (Connective.and.text ++ groupText (d :: rest)) := by
  rw [groupText, List.map_cons, List.map_cons, List.intercalate_cons_cons, List.append_assoc]
  rfl

/-- A chain of one group is the group. -/
theorem chainText_singleton (group : List Clause) : chainText [group] = groupText group :=
  List.intercalate_singleton

/-- The groups of a chain are joined by the disjunction. -/
theorem chainText_cons_cons (group next : List Clause) (rest : List (List Clause)) :
    chainText (group :: next :: rest) =
      groupText group ++ (Connective.or.text ++ chainText (next :: rest)) := by
  rw [chainText, List.map_cons, List.map_cons, List.intercalate_cons_cons, List.append_assoc]
  rfl

/-- A group begins with a mark or a negation. -/
theorem opens_groupText {group : List Clause} (hne : group ≠ []) : Opens (groupText group) := by
  obtain ⟨c, rest, rfl⟩ := List.exists_cons_of_ne_nil hne
  cases rest with
  | nil =>
    rw [groupText_singleton]
    exact c.opens_text
  | cons d rest =>
    rw [groupText_cons_cons]
    exact c.opens_text.append _

/-- A chain begins with a mark or a negation. -/
theorem opens_chainText {groups : List (List Clause)} (hne : groups ≠ [])
    (hgroups : ∀ group ∈ groups, group ≠ []) : Opens (chainText groups) := by
  obtain ⟨group, rest, rfl⟩ := List.exists_cons_of_ne_nil hne
  have hgroup := opens_groupText (hgroups group (List.mem_cons_self ..))
  cases rest with
  | nil => rwa [chainText_singleton]
  | cons next rest =>
    rw [chainText_cons_cons]
    exact hgroup.append _

/-- No disjunction begins in a group. -/
theorem lacks_groupText (group : List Clause) : Lacks .or (groupText group) := by
  induction group with
  | nil => exact fun _ => trivial
  | cons c rest ih =>
    cases rest with
    | nil =>
      rw [groupText_singleton]
      exact c.lacks_text .or
    | cons d rest =>
      have hword : Lacks .or (' ' :: "and".toList) := lacks_word (by decide) (by decide)
      have hrest := lacks_space ih (opens_groupText (List.cons_ne_nil d rest))
      rw [groupText_cons_cons]
      exact (c.lacks_text .or).append (hword.append hrest)

variable (lookup : String → Value)

/-- A group holds when all its clauses do. -/
theorem holds_parse_groupText {group : List Clause} (hne : group ≠ []) :
    (parse (groupText group)).holds lookup =
      group.all fun c => (parse c.text).holds lookup := by
  induction group with
  | nil => exact absurd rfl hne
  | cons c rest ih =>
    cases rest with
    | nil => rw [groupText_singleton, List.all_cons, List.all_nil, Bool.and_true]
    | cons d rest =>
      have hrest : d :: rest ≠ [] := List.cons_ne_nil d rest
      have hlacks := lacks_groupText (c :: d :: rest)
      rw [groupText_cons_cons] at hlacks ⊢
      rw [parse_joined_and c.opens_text (opens_groupText hrest) (c.lacks_text .and) hlacks, holds,
        ih hrest]
      rfl

/-- A chain holds when some group does. -/
theorem holds_parse_chainText {groups : List (List Clause)} (hne : groups ≠ [])
    (hgroups : ∀ group ∈ groups, group ≠ []) :
    (parse (chainText groups)).holds lookup =
      groups.any fun group => (parse (groupText group)).holds lookup := by
  induction groups with
  | nil => exact absurd rfl hne
  | cons group rest ih =>
    cases rest with
    | nil => rw [chainText_singleton, List.any_cons, List.any_nil, Bool.or_false]
    | cons next rest =>
      have hrest : next :: rest ≠ [] := List.cons_ne_nil next rest
      obtain ⟨hgroup, hmore⟩ := List.forall_mem_cons.mp hgroups
      rw [chainText_cons_cons, parse_joined_or (opens_groupText hgroup)
        (opens_chainText hrest hmore) (lacks_groupText group), holds, ih hrest hmore]
      rfl

/-- Negations bind tighter than conjunctions, and these tighter than disjunctions: a chain holds
exactly when all clauses of some group hold, each read and asked on its own, and one more negation
in front of a clause turns that clause around. -/
theorem holds_chain {groups : List (List Clause)} (hne : groups ≠ [])
    (hgroups : ∀ group ∈ groups, group ≠ []) :
    (parse (chainText groups)).holds lookup =
        (groups.any fun group => group.all fun c => (parse c.text).holds lookup) ∧
      ∀ c : Clause, (parse c.negated.text).holds lookup = !(parse c.text).holds lookup := by
  constructor
  · rw [holds_parse_chainText lookup hne hgroups, Bool.eq_iff_iff, List.any_eq_true,
      List.any_eq_true]
    refine exists_congr fun group => and_congr_right fun hgroup => ?_
    rw [holds_parse_groupText lookup (hgroups group hgroup)]
  · intro c
    rw [c.parse_negated, holds]

/-- A chain of two groups, the second with a clause that is negated twice. -/
def visitorChain : List (List Clause) :=
  [[⟨1, "guest".toList, none, rfl⟩,
    ⟨0, "age".toList, some (.ge, ⟨"18".toList, by decide, by decide, by decide⟩), rfl⟩],
   [⟨2, "admin".toList, none, rfl⟩]]

/-- A visitor of whom only the age is known. -/
def visitorOfAge (name : String) : Value :=
  if name = "age" then .number (.ofInt 20) else .missing

/-- A visitor of age passes a chain with negations in both groups. -/
theorem holds_chain_visitor :
    String.ofList (chainText visitorChain) =
        "not --guest and --age >= 18 or not not --admin" ∧
      (parse (chainText visitorChain)).holds visitorOfAge = true := by
  refine ⟨by decide, ?_⟩
  rw [(holds_chain visitorOfAge (by decide) (by decide)).1]
  decide +kernel

end RouteSheet.Condition
