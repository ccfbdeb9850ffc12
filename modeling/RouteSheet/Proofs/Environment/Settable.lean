import RouteSheet.Cli.Session
import RouteSheet.Proofs.Environment.VariablesFile

/-!
# Variables that can be set

What a line of a variables file names is never empty and holds no equals sign, so the character
of code zero is all that can keep the variable from being set. No step of the reading takes that
character away and none brings it in: a line that sets a variable holds it exactly if the name or
the value does. Such a line breaks the program off, unless the name has a value already.
-/

namespace RouteSheet

open Text

/-- Nothing but quotes is taken off. -/
theorem Text.mem_stripQuotes_iff {c : Char} (hc : isQuote c = false) {s : List Char} :
    c ∈ stripQuotes s ↔ c ∈ s := by
  cases s with
  | nil => rfl
  | cons q rest =>
    rw [stripQuotes]
    split
    · next h =>
      obtain ⟨hq, hlast⟩ := Bool.and_eq_true_iff.mp h
      have hrest := List.dropLast_append_getLast? q (beq_iff_eq.mp hlast)
      have hne : c ≠ q := by
        rintro rfl
        exact Bool.false_ne_true (hc.symm.trans hq)
      have hmem : c ∈ rest ↔ c ∈ rest.dropLast ++ [q] := by rw [hrest]
      simp [hmem, hne]
    · rfl

namespace Environment

section Lines

variable {line : List Char} {name value : String}

/-- A line that sets a variable is cut at its first equals sign, behind the mark that it may begin
with, and has a name in front of it. -/
theorem cut_of_ofLine? (h : ofLine? line = some (name, value)) : ∃ before after,
    (stripStart? exportMark (trim line)).getD (trim line) = before ++ '=' :: after ∧
      '=' ∉ before ∧ trim before ≠ [] ∧
      name = String.ofList (trim before) ∧ value = String.ofList (stripQuotes (trim after)) := by
  simp only [ofLine?] at h
  split at h
  · cases h
  · split at h
    · cases h
    · next before after hcut =>
      obtain ⟨hline, hbefore⟩ := of_cutAtChar? hcut
      by_cases hname : trim before = []
      · simp [hname] at h
      · obtain ⟨rfl, rfl⟩ : String.ofList (trim before) = name ∧
            String.ofList (stripQuotes (trim after)) = value := by
          simpa [hname] using h
        exact ⟨before, after, hline, hbefore, hname, rfl, rfl⟩

/-- The name of a variable that a line sets is not empty and holds no equals sign. -/
theorem name_of_ofLine? (h : ofLine? line = some (name, value)) :
    name ≠ "" ∧ '=' ∉ name.toList := by
  obtain ⟨before, after, -, hbefore, hne, rfl, rfl⟩ := cut_of_ofLine? h
  constructor
  · intro hempty
    exact hne (by simpa using congrArg String.toList hempty)
  · rw [String.toList_ofList]
    exact fun hmem => hbefore ((mem_trim_iff (by rfl)).mp hmem)

/-- The mark in front of a name holds no character of code zero. -/
theorem zero_mem_withoutMark (s : List Char) :
    '\x00' ∈ (stripStart? exportMark s).getD s ↔ '\x00' ∈ s := by
  unfold stripStart?
  split
  · next hmark =>
    obtain ⟨rest, rfl⟩ := List.isPrefixOf_iff_prefix.mp hmark
    have hno : '\x00' ∉ exportMark := by decide
    simp [hno]
  · rfl

/-- A line that sets a variable holds the character of code zero exactly if the name or the value
holds it. -/
theorem zero_mem_iff_of_ofLine? (h : ofLine? line = some (name, value)) :
    '\x00' ∈ line ↔ '\x00' ∈ name.toList ∨ '\x00' ∈ value.toList := by
  obtain ⟨before, after, hline, -, -, rfl, rfl⟩ := cut_of_ofLine? h
  have hblank : isBlank '\x00' = false := by rfl
  have hquote : isQuote '\x00' = false := by rfl
  rw [← mem_trim_iff hblank, ← zero_mem_withoutMark, hline, String.toList_ofList,
    String.toList_ofList, mem_stripQuotes_iff hquote, mem_trim_iff hblank, mem_trim_iff hblank]
  simp

/-- The variable of a line can be set exactly if the line holds no character of code zero. -/
theorem isSettable_iff_of_ofLine? (h : ofLine? line = some (name, value)) :
    isSettable name value = true ↔ '\x00' ∉ line := by
  obtain ⟨hne, hequals⟩ := name_of_ofLine? h
  rw [zero_mem_iff_of_ofLine? h]
  simp [isSettable, hne, hequals]

/-- The variables of a file can all be set exactly if no line that sets one holds the character of
code zero. -/
theorem forall_isSettable_ofText_iff (text : List Char) :
    (∀ name value, (name, value) ∈ ofText text → isSettable name value = true) ↔
      ∀ line ∈ lines text, (ofLine? line).isSome = true → '\x00' ∉ line := by
  simp only [ofText, List.mem_filterMap]
  constructor
  · intro h line hline hsome
    obtain ⟨⟨name, value⟩, hpair⟩ := Option.isSome_iff_exists.mp hsome
    exact (isSettable_iff_of_ofLine? hpair).mp (h name value ⟨line, hline, hpair⟩)
  · rintro h name value ⟨line, hline, hpair⟩
    exact (isSettable_iff_of_ofLine? hpair).mpr (h line hline (by simp [hpair]))

/-- A variable of a file has a name, and no equals sign in it. -/
theorem name_of_mem_ofText {text : List Char} (h : (name, value) ∈ ofText text) :
    name ≠ "" ∧ '=' ∉ name.toList := by
  obtain ⟨line, -, hpair⟩ := List.mem_filterMap.mp h
  exact name_of_ofLine? hpair

/-- Only a variable that is still to be set can break the program off, and only by a character of
code zero. -/
theorem extend?_ofText_isSome_iff (text : List Char) (env : Environment) :
    (env.extend? (ofText text)).isSome = true ↔
      ∀ name value, Fields.get? name env = none → Fields.get? name (ofText text) = some value →
        '\x00' ∉ name.toList ∧ '\x00' ∉ value.toList := by
  rw [extend?_isSome_iff]
  refine forall_congr' fun name => forall_congr' fun value => imp_congr_right fun _ =>
    forall_congr' fun hvalue => ?_
  obtain ⟨hne, hequals⟩ := name_of_mem_ofText (Fields.mem_of_get? hvalue)
  simp [isSettable, hne, hequals]

end Lines

end Environment

namespace Project

open Environment

variable {m : Type → Type} [Monad m] [LawfulMonad m] {files : Files m} {project : Project}

/-- No name that a variables file sets is empty or holds an equals sign. All its variables can be
set, and all environments be completed by it, exactly if no line of it that sets a variable holds
the character of code zero; a given environment is completed exactly if that character is in no
variable that is still to be set. -/
theorem environment_isSome_iff_of_read {text : String}
    (h : files.read project.variablesPath = pure (.ok text)) :
    (∀ name value, (name, value) ∈ Environment.ofText text.toList →
      name ≠ "" ∧ '=' ∉ name.toList) ∧
    (((∀ name value, (name, value) ∈ Environment.ofText text.toList →
          isSettable name value = true) ∧
        ∀ env : Environment, (env.extend? (Environment.ofText text.toList)).isSome = true) ↔
      ∀ line ∈ lines text.toList, (ofLine? line).isSome = true → '\x00' ∉ line) ∧
    ∀ env : Environment,
      project.environment files env = pure (env.extend? (Environment.ofText text.toList)) ∧
      ((env.extend? (Environment.ofText text.toList)).isSome = true ↔
        ∀ name value, Fields.get? name env = none →
          Fields.get? name (Environment.ofText text.toList) = some value →
            '\x00' ∉ name.toList ∧ '\x00' ∉ value.toList) := by
  refine ⟨fun name value => name_of_mem_ofText, ?_, fun env =>
    ⟨environment_of_read h env, extend?_ofText_isSome_iff text.toList env⟩⟩
  rw [← forall_isSettable_ofText_iff]
  refine and_iff_left_of_imp fun hall env => extend?_isSome_iff.mpr fun name value _ hvalue => ?_
  exact hall name value (Fields.mem_of_get? hvalue)

/-- A sheet and a variables file with a text. -/
def zeroTree (text : String) : FileTree :=
  ⟨[(["s.css".toList], ""), ([".env".toList], text)], []⟩

/-- A remark with a character of code zero, and two lines for one name whose second value has
one. -/
def laterZero : String := "# \x00\nA=1\nA=\x00\n"

/-- A character of code zero does no harm in a remark or in a second value, though not all
variables of the file can be set. -/
theorem environment_laterZero :
    (zeroTree laterZero).access.read bare.variablesPath = pure (.ok laterZero) ∧
    ¬(∀ name value, (name, value) ∈ Environment.ofText laterZero.toList →
      isSettable name value = true) ∧
    ∃ env', bare.environment (zeroTree laterZero).access [] = pure (some env') := by
  have hread : (zeroTree laterZero).access.read bare.variablesPath = pure (.ok laterZero) := by
    rfl
  obtain ⟨-, -, hcompleted⟩ := environment_isSome_iff_of_read hread
  obtain ⟨henv, hsome⟩ := hcompleted []
  have hsettings : Environment.ofText laterZero.toList = [("A", "1"), ("A", "\x00")] := by
    rfl
  refine ⟨hread, ?_, ?_⟩
  · intro hall
    have hsecond := hall "A" "\x00" (by simp [hsettings])
    exact absurd hsecond (by decide)
  · have hfirst : (Environment.extend? [] (Environment.ofText laterZero.toList)).isSome = true := by
      apply hsome.mpr
      intro name value _ hvalue
      obtain ⟨rfl, rfl⟩ : "A" = name ∧ "1" = value := by
        by_cases hname : "A" = name <;> simp_all [Fields.get?]
      decide
    obtain ⟨env', henv'⟩ := Option.isSome_iff_exists.mp hfirst
    exact ⟨env', by rw [henv, henv']⟩

/-- A value with a character of code zero breaks both commands off before the sheet is read. -/
theorem environment_zero :
    Environment.ofText "A=x\x00y".toList = [("A", "x\x00y")] ∧
    isSettable "A" "x\x00y" = false ∧
    bare.environment (zeroTree "A=x\x00y").access [] = pure none ∧
    (Cli.Command.check (some "s.css") none false).perform (zeroTree "A=x\x00y").access [] =
      pure .crashed ∧
    (Cli.Command.run (some "s.css") none none none).perform (zeroTree "A=x\x00y").access [] =
      pure .crashed := by
  refine ⟨?_, ?_, ?_, ?_, ?_⟩
  · rfl
  · decide
  · rfl
  · rfl
  · rfl

end Project

end RouteSheet
