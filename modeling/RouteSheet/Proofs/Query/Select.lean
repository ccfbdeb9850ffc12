import RouteSheet.Proofs.Expr.Parts
import RouteSheet.Proofs.Text.Phrase
import RouteSheet.Query.Script
import RouteSheet.Text.Basic

/-!
# How many rows a SELECT is asked for

A statement is a SELECT by the word it begins with; how many rows it is asked for is decided by
the rest. With any number of arguments but one it fetches all rows unless the characters
`LIMIT 1` stand somewhere in its text. Nothing is read of what follows them, so a larger limit
that begins with the digit 1 asks for one row as well.
-/

namespace RouteSheet

open Text

/-- A phrase is found exactly where the text holds it. -/
theorem Text.containsPhrase_iff {phrase s : List Char} (hne : phrase ≠ []) :
    containsPhrase phrase s = true ↔ phrase <:+: s := by
  rw [containsPhrase, Option.isSome_iff_exists]
  constructor
  · rintro ⟨⟨before, after⟩, hcut⟩
    obtain ⟨hs, -⟩ := cutAtPhrase?_eq_some hcut
    exact ⟨before, after, by rw [hs, List.append_assoc]⟩
  · rintro ⟨before, after, hs⟩
    cases hcut : cutAtPhrase? phrase s with
    | some cut => exact ⟨cut, rfl⟩
    | none =>
      have hfree := (cutAtPhrase?_eq_none hne).mp hcut
      rw [← hs, List.append_assoc, freeOf_append] at hfree
      obtain ⟨c, phrase, rfl⟩ := List.exists_cons_of_ne_nil hne
      refine absurd ?_ hfree.2.1
      rw [List.append_nil]
      exact List.prefix_append _ _

/-- The letters that a text begins with, behind its leading blanks. -/
def leadingLetters (s : List Char) : List Char := (trimStart s).takeWhile isLetter

/-- The leading word of the statement is SELECT, in any case. -/
def IsSelect (statement : String) : Prop :=
  upper (leadingLetters statement.toList) = "SELECT".toList

/-- The characters `LIMIT 1` stand in the statement. -/
def MentionsLimitOne (statement : String) : Prop := "LIMIT 1".toList <:+: statement.toList

/-- Every `LIMIT 1` of the statement begins a larger number: a digit stands directly behind it. -/
def LimitsGoOn (statement : String) : Prop :=
  ∀ before after, statement.toList = before ++ "LIMIT 1".toList ++ after →
    ∃ c, after.head? = some c ∧ isDigit c = true

/-- Blanks behind a text are no part of the word that it begins with. -/
theorem takeWhile_isLetter_trim (s : List Char) :
    (trim s).takeWhile isLetter = leadingLetters s := by
  obtain ⟨b, hb, hs⟩ := exists_append_trimEnd (trimStart s)
  have hhead : ∀ c, b.head? = some c → isLetter c = false := fun c hc =>
    isLetter_of_isBlank (isBlank_of_mem hb (List.mem_of_mem_head? hc))
  have hrun := congrArg Prod.fst (takeRun_append_of_head (trimEnd (trimStart s)) hhead)
  rw [hs] at hrun
  exact hrun.symm

/-- The leading word alone makes a statement a SELECT. -/
theorem StatementKind.ofStatement_select {statement : String} (h : IsSelect statement) :
    ofStatement statement = .select := by
  rw [ofStatement, takeWhile_isLetter_trim, show upper _ = _ from h]
  rfl

/-- With other than one argument a statement asks for one row exactly if it mentions the limit. -/
theorem asksOneRow_iff {statement : String} {params : List Value} (h : params.length ≠ 1) :
    asksOneRow statement params = true ↔ MentionsLimitOne statement := by
  have hphrase : "LIMIT 1".toList ≠ [] := by decide
  rw [asksOneRow, beq_eq_false_iff_ne.mpr h, Bool.or_false, containsPhrase_iff hphrase]
  rfl

namespace Expr

variable {σ : Type} (db : Option (Executor σ)) (scope : Scope)

/-- Every expression has one value. -/
theorem length_evalAll (es : List Expr) (s : σ) : (evalAll db scope es s).1.length = es.length := by
  induction es generalizing s with
  | nil => rfl
  | cons e es ih => rw [evalAll, List.length_cons, ih, List.length_cons]

end Expr

/-- A SELECT with any number of arguments but one fetches all rows if `LIMIT 1` does not stand in
its text, and is worth the array of all rows in the order of the executor, or the error of the
executor. If `LIMIT 1` stands in the text, whatever follows it, the SELECT fetches the first row
and is worth that row, or null. -/
theorem Expr.eval_select {σ : Type} (db : Executor σ) (scope : Scope) {statement : String}
    {args : List Expr} (hselect : IsSelect statement) (hargs : args.length ≠ 1) (s : σ) :
    (¬MentionsLimitOne statement → ∃ params t answer u,
      evalAll (some db) scope args s = (params, t) ∧ db.all statement params t = (answer, u) ∧
      eval (some db) scope (.sql statement args) s =
        (match answer with
          | .ok rows => .array (rows.map .object)
          | .error e => .ofError e.message, u)) ∧
    (MentionsLimitOne statement → ∃ params t answer u,
      evalAll (some db) scope args s = (params, t) ∧ db.first statement params t = (answer, u) ∧
      eval (some db) scope (.sql statement args) s =
        (match answer with
          | .ok (some row) => .object row
          | .ok none => .null
          | .error e => .ofError e.message, u)) := by
  have hlength : (evalAll (some db) scope args s).1.length ≠ 1 := by
    rwa [length_evalAll]
  have hkind := StatementKind.ofStatement_select hselect
  constructor
  · intro hmentions
    have hall := Bool.not_eq_true _ ▸ mt (asksOneRow_iff hlength).mp hmentions
    refine ⟨_, _, _, _, rfl, rfl, ?_⟩
    rw [eval_sql, queryValue, Executor.query, hkind]
    simp only [hall]
    cases (db.all _ _ _).1 <;> rfl
  · intro hmentions
    have hone := (asksOneRow_iff hlength).mpr hmentions
    refine ⟨_, _, _, _, rfl, rfl, ?_⟩
    rw [eval_sql, queryValue, Executor.query, hkind]
    simp only [hone]
    rcases (db.first _ _ _).1 with e | _ | row <;> rfl

/-- Replies of an executor that has two rows to give. -/
def twoRows : List ScriptReply :=
  [⟨none, some [("n", .bool true)], [[("n", .bool true)], [("n", .bool false)]], ⟨0, 0⟩⟩]

/-- A SELECT in lower case with a limit of two rows is worth both. -/
theorem Expr.eval_select_limitTwo :
    IsSelect "\n select n from t LIMIT 2" ∧ ([] : List Expr).length ≠ 1 ∧
    ¬MentionsLimitOne "\n select n from t LIMIT 2" ∧
    (eval (some scriptExecutor) ⟨[], [], [], [], []⟩ (.sql "\n select n from t LIMIT 2" [])
      twoRows).1 = .array [.object [("n", .bool true)], .object [("n", .bool false)]] := by
  have hselect : IsSelect "\n select n from t LIMIT 2" := by
    unfold IsSelect
    decide +kernel
  have hmentions : ¬MentionsLimitOne "\n select n from t LIMIT 2" := by
    unfold MentionsLimitOne
    decide +kernel
  have hargs : ([] : List Expr).length ≠ 1 := by decide
  refine ⟨hselect, hargs, hmentions, ?_⟩
  obtain ⟨params, t, answer, u, hparams, hall, heval⟩ :=
    (eval_select scriptExecutor ⟨[], [], [], [], []⟩ hselect hargs twoRows).1 hmentions
  rw [evalAll] at hparams
  obtain ⟨rfl, rfl⟩ := Prod.mk.inj hparams
  obtain ⟨rfl, rfl⟩ := Prod.mk.inj hall
  rw [heval]
  rfl

/-- A SELECT with a limit of ten rows is asked for its first row, and is worth that row alone. -/
theorem Expr.eval_select_limitTen :
    IsSelect "SELECT n FROM t LIMIT 10" ∧ LimitsGoOn "SELECT n FROM t LIMIT 10" ∧
    ([] : List Expr).length ≠ 1 ∧
    (scriptExecutor.all "SELECT n FROM t LIMIT 10" [] twoRows).1 =
      .ok [[("n", .bool true)], [("n", .bool false)]] ∧
    eval (some scriptExecutor.watched) ⟨[], [], [], [], []⟩ (.sql "SELECT n FROM t LIMIT 10" [])
      (twoRows, []) =
        (.object [("n", .bool true)], [], [⟨.first, "SELECT n FROM t LIMIT 10", []⟩]) := by
  refine ⟨by unfold IsSelect; decide +kernel, ?_, by decide, rfl, ?_⟩
  · intro before after hs
    have honly : ∀ n < 25, "LIMIT 1".toList <+: "SELECT n FROM t LIMIT 10".toList.drop n →
        n = 16 := by decide +kernel
    have hplace : before.length = 16 := by
      refine honly _ ?_ ?_
      · have hlength := congrArg List.length hs
        rw [List.append_assoc, List.length_append,
          show "SELECT n FROM t LIMIT 10".toList.length = 24 by decide +kernel] at hlength
        omega
      · rw [hs, List.append_assoc, List.drop_left]
        exact List.prefix_append _ _
    have hafter : "SELECT n FROM t LIMIT 10".toList.drop (before ++ "LIMIT 1".toList).length =
        after := by rw [hs, List.drop_left]
    rw [List.length_append, hplace] at hafter
    rw [← hafter]
    exact ⟨'0', by decide +kernel, rfl⟩
  · have hkind : StatementKind.ofStatement "SELECT n FROM t LIMIT 10" = .select := by
      decide +kernel
    have hone : asksOneRow "SELECT n FROM t LIMIT 10" [] = true := by decide +kernel
    rw [eval_sql, queryValue, Executor.query, hkind]
    simp only [evalAll, hone]
    rfl

end RouteSheet
