import RouteSheet.Files.Tree
import RouteSheet.Project.Basic
import RouteSheet.Proofs.Fields
import RouteSheet.Proofs.Text.Split

/-!
# Variables files

A variables file is read line by line. A line that was written for a variable, with its value in
quotes, gives back the name and the value, whatever stands between the quotes; blank lines and
remarks give nothing. The variables are then set one after the other, each only if it has no
value yet, so a name has the value it had before, else that of its first line.
-/

namespace RouteSheet

open Text

namespace Environment

/-- The word that may stand in front of a name. -/
def exportMark : List Char := ['e', 'x', 'p', 'o', 'r', 't', ' ']

/-- A variable and its value as a line can set them. -/
structure Setting where
  name : List Char
  value : List Char
  isTrimmed : Text.isTrimmed name = true
  equals_not_mem : '=' ∉ name
  not_remark : name.head? ≠ some '#'
  not_marked : ¬exportMark <+: name
  oneLine : '\n' ∉ name ∧ '\n' ∉ value
  zero_not_mem : '\x00' ∉ name ∧ '\x00' ∉ value

/-- Blanks that do not end a line. -/
structure Padding where
  chars : List Char
  isBlank : isBlankText chars = true
  oneLine : '\n' ∉ chars

/-- A line of a variables file. -/
inductive FileLine where
  /-- a variable, marked or not, with its value in quotes of a kind, between blanks -/
  | setting (before : Padding) (marked : Bool) (s : Setting) (quote : Char)
      (isQuote : Text.isQuote quote = true) (behind : Padding)
  /-- nothing but blanks -/
  | blank (chars : Padding)
  /-- a remark behind a hash sign -/
  | remark (before : Padding) (words : List Char) (oneLine : '\n' ∉ words)

namespace Setting

/-- The name and the value. -/
def pair (s : Setting) : String × String := (String.ofList s.name, String.ofList s.value)

/-- The value in quotes. -/
def quoted (s : Setting) (quote : Char) : List Char := quote :: (s.value ++ [quote])

end Setting

namespace FileLine

/-- The text of a line. -/
def text : FileLine → List Char
  | .setting before marked s quote _ behind =>
    before.chars ++ ((if marked then exportMark else []) ++ s.name ++ '=' :: s.quoted quote) ++
      behind.chars
  | .blank chars => chars.chars
  | .remark before words _ => before.chars ++ '#' :: words

/-- What a line sets. -/
def pair? : FileLine → Option (String × String)
  | .setting _ _ s _ _ _ => some s.pair
  | .blank _ | .remark _ _ _ => none

end FileLine

/-- The text of a file with lines. -/
def fileText (lines : List FileLine) : List Char := ['\n'].intercalate (lines.map FileLine.text)

section Lines

/-- A carriage return at the end of a line says nothing. -/
theorem ofLine?_withoutReturn (line : List Char) :
    ofLine? ((stripEnd? ['\r'] line).getD line) = ofLine? line := by
  unfold stripEnd?
  split
  · next h =>
    obtain ⟨s, rfl⟩ := List.isSuffixOf_iff_suffix.mp h
    have htrim : trim (s ++ ['\r']) = trim s := trim_padded isBlankText_nil (by rfl) s
    simp [ofLine?, htrim]
  · rfl

/-- An empty line gives no variable. -/
theorem ofLine?_nil : ofLine? [] = none := rfl

/-- The variables of a file are those of the parts between its line feeds. -/
theorem ofText_eq (text : List Char) : ofText text = (splitAtChar '\n' text).filterMap ofLine? := by
  have hne : splitAtChar '\n' text ≠ [] := splitWhere_ne_nil _ text
  obtain ⟨ended, last, hparts⟩ : ∃ ended last, splitAtChar '\n' text = ended ++ [last] :=
    ⟨_, _, (List.dropLast_append_getLast hne).symm⟩
  have hended : (ended.map fun line => (stripEnd? ['\r'] line).getD line).filterMap ofLine? =
      ended.filterMap ofLine? := by
    simp only [List.filterMap_map, Function.comp_def, ofLine?_withoutReturn]
  rw [ofText, lines, hparts, List.dropLast_concat, List.getLast?_concat, List.filterMap_append]
  cases last with
  | nil => simp [hended, ofLine?_nil]
  | cons c last => simp [hended]

/-- A line that begins with no blank and no hash sign is cut at its equals sign. -/
theorem ofLine?_of_cut {line name value : List Char} (htrim : isTrimmed line = true)
    (hremark : line.head? ≠ some '#')
    (hcut : cutAtChar? '=' ((stripStart? exportMark line).getD line) = some (name, value))
    (hname : trim name ≠ []) :
    ofLine? line = some (String.ofList (trim name), String.ofList (stripQuotes (trim value))) := by
  have hread : ¬(line.isEmpty || line.head? == some '#') = true := by
    simp [ne_nil_of_isTrimmed htrim, hremark]
  have hmark : "export ".toList = exportMark := rfl
  simp only [ofLine?, trim_of_isTrimmed htrim, if_neg hread, hmark, hcut, List.isEmpty_iff,
    if_neg hname]

/-- A line is read without the blanks around it. -/
theorem ofLine?_padded (before behind : Padding) (s : List Char) :
    ofLine? (before.chars ++ s ++ behind.chars) = ofLine? s := by
  simp only [ofLine?, trim_padded before.isBlank behind.isBlank s]

/-- A blank line gives no variable. -/
theorem ofLine?_blank (chars : Padding) : ofLine? chars.chars = none := by
  simp [ofLine?, trim_eq_nil chars.isBlank]

/-- A remark gives no variable. -/
theorem ofLine?_remark (before : Padding) (words : List Char) :
    ofLine? (before.chars ++ '#' :: words) = none := by
  have hlast : ∀ c, ['#'].getLast? = some c → isBlank c = false := by
    intro c hc
    rw [← Option.some.inj hc]
    rfl
  have htrim : trim (before.chars ++ '#' :: words) = '#' :: trimEnd words := by
    rw [trim, trimStart_append_of_blank before.isBlank, trimStart_cons rfl]
    exact trimEnd_append hlast words
  simp [ofLine?, htrim]

end Lines

namespace Setting

variable (s : Setting) {quote : Char}

/-- A quoted value has no blanks at its ends. -/
theorem isTrimmed_quoted (hq : isQuote quote = true) : Text.isTrimmed (s.quoted quote) = true := by
  have hblank : isBlank quote = false := by
    rcases Bool.or_eq_true_iff.mp hq with h | h <;> rw [beq_iff_eq.mp h] <;> rfl
  have hone : Text.isTrimmed [quote] = true := by simp [Text.isTrimmed, hblank]
  exact isTrimmed_append hone hone s.value

/-- Behind a name that is not marked the equals sign keeps a mark from being read. -/
theorem stripStart?_unmarked (rest : List Char) :
    stripStart? exportMark (s.name ++ '=' :: rest) = none := by
  apply stripStart?_eq_none
  intro hmark
  have hname : s.name ++ ['='] <+: s.name ++ '=' :: rest := ⟨rest, by simp⟩
  rcases List.prefix_or_prefix_of_prefix hmark hname with h | h
  · rcases List.prefix_concat_iff.mp h with h | h
    · exact absurd (h ▸ List.mem_append_right s.name (List.mem_singleton_self '=')) (by decide)
    · exact s.not_marked h
  · exact absurd (h.subset (List.mem_append_right s.name (List.mem_singleton_self '='))) (by decide)

/-- A line gives back the name and the value that it was written for. -/
theorem ofLine?_line (marked : Bool) (hq : isQuote quote = true) :
    ofLine? ((if marked then exportMark else []) ++ s.name ++ '=' :: s.quoted quote) =
      some s.pair := by
  have hcut := cutAtChar?_append s.equals_not_mem (s.quoted quote)
  have hname := trim_of_isTrimmed s.isTrimmed
  have hvalue := trim_of_isTrimmed (s.isTrimmed_quoted hq)
  have hstrip : stripQuotes (s.quoted quote) = s.value := stripQuotes_quoted hq s.value
  have hne := ne_nil_of_isTrimmed s.isTrimmed
  have hline : Text.isTrimmed (s.name ++ '=' :: s.quoted quote) = true :=
    isTrimmed_append s.isTrimmed (s.isTrimmed_quoted hq) ['=']
  have hread : ∀ line, Text.isTrimmed line = true → line.head? ≠ some '#' →
      (stripStart? exportMark line).getD line = s.name ++ '=' :: s.quoted quote →
      ofLine? line = some s.pair := by
    intro line htrim hremark hbehind
    rw [← hbehind] at hcut
    rw [ofLine?_of_cut htrim hremark hcut (by rwa [hname]), hname, hvalue, hstrip, pair]
  cases marked with
  | true =>
    apply hread
    · simpa [exportMark] using isTrimmed_append (s := ['e']) rfl hline "xport ".toList
    · simp [exportMark]
    · simp [stripStart?_append]
  | false =>
    apply hread
    · exact hline
    · simpa [List.head?_append_of_ne_nil _ hne] using s.not_remark
    · simp [s.stripStart?_unmarked]

end Setting

/-- A line sets what it was written for. -/
theorem FileLine.ofLine?_text (line : FileLine) : ofLine? line.text = line.pair? := by
  cases line with
  | setting before marked s quote isQuote behind =>
    exact (ofLine?_padded before behind _).trans (s.ofLine?_line marked isQuote)
  | blank chars => exact ofLine?_blank chars
  | remark before words oneLine => exact ofLine?_remark before words

/-- A line holds no line feed. -/
theorem FileLine.lineFeed_not_mem (line : FileLine) : '\n' ∉ line.text := by
  cases line with
  | setting before marked s quote isQuote behind =>
    have hquote : '\n' ≠ quote := by
      rintro rfl
      exact absurd isQuote (by decide)
    have hmark : '\n' ∉ (if marked then exportMark else []) := by
      cases marked <;> decide
    simp [text, Setting.quoted, before.oneLine, behind.oneLine, s.oneLine, hquote, hmark]
  | blank chars => exact chars.oneLine
  | remark before words oneLine => simp [text, before.oneLine, oneLine]

/-- A file sets what its lines were written for, in order. -/
theorem ofText_fileText (lines : List FileLine) :
    ofText (fileText lines) = lines.filterMap FileLine.pair? := by
  rw [ofText_eq, fileText]
  cases lines with
  | nil => rfl
  | cons line lines =>
    rw [splitAtChar_intercalate]
    · rw [List.filterMap_map]
      exact List.filterMap_congr fun line _ => line.ofLine?_text
    · intro part hpart
      obtain ⟨line, -, rfl⟩ := List.mem_map.mp hpart
      exact line.lineFeed_not_mem
    · simp

section Extend

variable {env env' : Environment} {settings : List (String × String)}

/-- A setting counts if its name has no value yet, and then must be one that can be set. -/
theorem extend?_cons (name value : String) :
    extend? env ((name, value) :: settings) =
      if (Fields.get? name env).isSome then extend? env settings
      else (env.set? name value).bind fun env => extend? env settings := by
  simp only [extend?, List.foldlM_cons]
  split <;> rfl

/-- A name has the value that it had before, else the first one that is set. -/
theorem get?_extend? (h : extend? env settings = some env') (name : String) :
    Fields.get? name env' = (Fields.get? name env).or (Fields.get? name settings) := by
  induction settings generalizing env with
  | nil =>
    obtain rfl : env = env' := Option.some.inj h
    simp [Fields.get?]
  | cons setting settings ih =>
    obtain ⟨key, value⟩ := setting
    rw [extend?_cons] at h
    split at h
    · next hset =>
      rw [ih h, Fields.get?]
      by_cases hk : key = name
      · subst hk
        obtain ⟨old, hold⟩ := Option.isSome_iff_exists.mp hset
        simp [hold]
      · simp [hk]
    · next hset =>
      obtain ⟨between, hbetween, h⟩ := Option.bind_eq_some_iff.mp h
      obtain ⟨-, rfl⟩ : _ ∧ Fields.insert key value env = between := by
        simpa [set?] using hbetween
      rw [ih h, Fields.get?_insert, Fields.get?]
      by_cases hk : key = name
      · subst hk
        simp [Option.not_isSome_iff_eq_none.mp hset]
      · simp [hk]

/-- An environment is extended exactly if every variable that is to be set can be set: those
without a value, to the first one that the settings have for them. -/
theorem extend?_isSome_iff : (extend? env settings).isSome = true ↔
    ∀ name value, Fields.get? name env = none → Fields.get? name settings = some value →
      isSettable name value = true := by
  induction settings generalizing env with
  | nil => simp [extend?, Fields.get?]
  | cons setting settings ih =>
    obtain ⟨key, first⟩ := setting
    rw [extend?_cons]
    split
    · next hset =>
      rw [ih]
      refine forall_congr' fun name => forall_congr' fun value => ?_
      by_cases hk : key = name
      · subst hk
        simp [Option.isSome_iff_ne_none.mp hset]
      · simp [Fields.get?, hk]
    · next hset =>
      have hnone := Option.not_isSome_iff_eq_none.mp hset
      rw [set?]
      split
      · next hsettable =>
        rw [Option.bind_some, ih]
        refine forall_congr' fun name => forall_congr' fun value => ?_
        by_cases hk : key = name
        · subst hk
          simp only [Fields.get?_insert, Fields.get?, hnone, if_true, reduceCtorEq, false_implies,
            true_iff, Option.some.injEq, forall_const]
          rintro rfl
          exact hsettable
        · simp [Fields.get?_insert, Fields.get?, hk]
      · next hsettable =>
        refine iff_of_false (by simp) fun h => ?_
        exact hsettable (h key first hnone (by simp [Fields.get?]))

end Extend

/-- What a line sets can be set. -/
theorem FileLine.isSettable_of_pair? {line : FileLine} {name value : String}
    (h : line.pair? = some (name, value)) : isSettable name value = true := by
  cases line with
  | setting before marked s quote isQuote behind =>
    obtain ⟨rfl, rfl⟩ : String.ofList s.name = name ∧ String.ofList s.value = value := by
      simpa [pair?, Setting.pair] using h
    simp [isSettable, s.equals_not_mem, s.zero_not_mem, ne_nil_of_isTrimmed s.isTrimmed]
  | blank chars => cases h
  | remark before words oneLine => cases h

end Environment

namespace Project

open Environment

variable {m : Type → Type} [Monad m] [LawfulMonad m] {files : Files m} {project : Project}

/-- The environment of a project whose variables are read is extended by them. -/
theorem environment_of_read {text : String}
    (h : files.read project.variablesPath = pure (.ok text)) (env : Environment) :
    project.environment files env = pure (env.extend? (Environment.ofText text.toList)) := by
  simp [environment, h]

/-- A file that was written for variables sets them in order, one for each line. Every variable
that had a value keeps it, a blank one too, every other one that the file names has the value of
its first line, and the rest have none as before. -/
theorem environment_of_fileText {lines : List FileLine}
    (h : files.read project.variablesPath = pure (.ok (String.ofList (fileText lines))))
    (env : Environment) :
    Environment.ofText (fileText lines) = lines.filterMap FileLine.pair? ∧
    ∃ env', project.environment files env = pure (some env') ∧
      ∀ name, Fields.get? name env' =
        (Fields.get? name env).or (Fields.get? name (lines.filterMap FileLine.pair?)) := by
  have hpairs := ofText_fileText lines
  have hsettable : (env.extend? (lines.filterMap FileLine.pair?)).isSome = true := by
    refine extend?_isSome_iff.mpr fun name value _ hvalue => ?_
    obtain ⟨line, -, hline⟩ := List.mem_filterMap.mp (Fields.mem_of_get? hvalue)
    exact FileLine.isSettable_of_pair? hline
  obtain ⟨env', hextend⟩ := Option.isSome_iff_exists.mp hsettable
  refine ⟨hpairs, env', ?_, get?_extend? hextend⟩
  rw [environment_of_read h, String.toList_ofList, hpairs, hextend]

/-- The double quote is a quote. -/
theorem isQuote_double : isQuote '"' = true := rfl

/-- No blanks. -/
def noPadding : Padding := ⟨[], rfl, List.not_mem_nil⟩

/-- A file with a remark, an empty line and three lines for two variables: a value with a quote, a
hash sign, an equals sign and blanks at its ends, behind a mark and on a line that ends in a
carriage return, one in the other quotes, and a second one for the first name. -/
def mixedLines : List FileLine :=
  [.remark noPadding " A='0'".toList (by decide),
   .setting noPadding true ⟨"A".toList, " export \"#=\" ".toList, by decide, by decide, by decide,
     by decide, by decide, by decide⟩ '"' isQuote_double ⟨['\r'], by decide, by decide⟩,
   .blank noPadding,
   .setting noPadding false ⟨"B b".toList, "it's".toList, by decide, by decide, by decide,
     by decide, by decide, by decide⟩ '\'' rfl noPadding,
   .setting noPadding false ⟨"A".toList, [], by decide, by decide, by decide, by decide,
     by decide, by decide⟩ '"' isQuote_double noPadding]

/-- A manifest's directory with a file of lines in it. -/
def mixedTree : FileTree :=
  ⟨[(["p".toList, ".env".toList], String.ofList (fileText mixedLines))], []⟩

/-- The mixed file sets its names to what their first lines say; a blank value that was there
stays. -/
theorem environment_of_mixedLines :
    mixedTree.access.read (Project.mk .empty (some "p")).variablesPath =
      pure (.ok (String.ofList (fileText mixedLines))) ∧
    Environment.ofText (fileText mixedLines) =
      [("A", " export \"#=\" "), ("B b", "it's"), ("A", "")] ∧
    ∃ env', (Project.mk .empty (some "p")).environment mixedTree.access [("B b", "")] =
        pure (some env') ∧
      Fields.get? "A" env' = some " export \"#=\" " ∧ Fields.get? "B b" env' = some "" ∧
      Fields.get? "C" env' = none := by
  have hread : mixedTree.access.read (Project.mk .empty (some "p")).variablesPath =
      pure (.ok (String.ofList (fileText mixedLines))) := by
    rfl
  obtain ⟨hpairs, env', henv, hget⟩ := environment_of_fileText hread [("B b", "")]
  have hlines : mixedLines.filterMap FileLine.pair? =
      [("A", " export \"#=\" "), ("B b", "it's"), ("A", "")] := by
    rfl
  refine ⟨hread, hpairs.trans hlines, env', henv, ?_, ?_, ?_⟩
  · rw [hget, hlines]
    decide
  · rw [hget, hlines]
    decide
  · rw [hget, hlines]
    decide

end Project

end RouteSheet
