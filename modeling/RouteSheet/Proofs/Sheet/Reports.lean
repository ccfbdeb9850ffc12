import RouteSheet.Proofs.Sheet.Contribution
import RouteSheet.Proofs.Sheet.Layout

/-!
# What is reported of items

Whatever is reported of an item falls into three parts. First come the problems of the item that
have nothing to do with its being a block of declarations, such as an unknown attribute. What is
wrong with its declarations follows, each on its own line. Last, if the item is a block that adds no
route, stands the one problem that says why.
-/

namespace RouteSheet

open Text

/-- The problem is one of a declaration. -/
def Problem.isOfDeclaration : Problem → Bool
  | .missingValue _ | .variableRepeated _ | .badStatus _ | .returnRepeated | .unknownProperty _
  | .emptyStatement => true
  | _ => false

/-- The problems of empty statements are problems of declarations. -/
theorem isOfDeclaration_of_mem_emptyStatements (e : Expr) :
    ∀ problem ∈ e.emptyStatements, problem.isOfDeclaration = true := by
  intro problem h
  obtain ⟨statement, -, rfl⟩ := List.mem_map.mp h
  rfl

/-- The diagnostics of declarations. -/
def ofDeclarations (diagnostics : List Diagnostic) : List Diagnostic :=
  diagnostics.filter (·.problem.isOfDeclaration)

/-- The problem is one of a block as a whole, and says why the block has added no route. -/
def Problem.isOfBlock : Problem → Bool
  | .unknownSelector _ | .missingPath _ | .missingReturn _ _ | .duplicateRoute _ _ => true
  | _ => false

/-- The diagnostics of blocks as a whole. -/
def ofBlocks (diagnostics : List Diagnostic) : List Diagnostic :=
  diagnostics.filter (·.problem.isOfBlock)

/-- A problem of a declaration is none of a block. -/
theorem Problem.isOfBlock_of_isOfDeclaration {problem : Problem}
    (h : problem.isOfDeclaration = true) : problem.isOfBlock = false := by
  cases problem <;> first | rfl | cases h

namespace RouteParts

/-- What is wrong with a declaration behind the parts that were declared before. -/
def problems (parts : RouteParts) (d : Declaration) : List Problem :=
  (declare ⟨parts, []⟩ d).diagnostics.map (·.problem)

/-- What is reported about declarations, each on its own line. -/
def reports (parts : RouteParts) : List Declaration → List Diagnostic
  | [] => []
  | d :: ds =>
    ((parts.problems d).map fun problem => ⟨problem, d.line⟩) ++ (parts.adding d).reports ds

variable (parts : RouteParts) (d : Declaration) (ds : List Declaration)

/-- A declaration reports problems of declarations on its line, whatever was reported before. -/
theorem exists_problems : ∃ problems : List Problem,
    (∀ problem ∈ problems, problem.isOfDeclaration = true) ∧
    ∀ diagnostics, (declare ⟨parts, diagnostics⟩ d).diagnostics =
      diagnostics ++ problems.map fun problem => ⟨problem, d.line⟩ := by
  unfold declare
  simp only
  split
  · exact ⟨[_], by simp [Problem.isOfDeclaration], fun _ => rfl⟩
  · next property value _ =>
    split
    · next name _ =>
      refine ⟨(if parts.assignments.any (·.name == String.ofList name) then
        [.variableRepeated (String.ofList name)] else []) ++
          (Expr.parse (trim value)).emptyStatements, ?_, fun _ => rfl⟩
      refine List.forall_mem_append.mpr ⟨?_, isOfDeclaration_of_mem_emptyStatements _⟩
      split <;> simp [Problem.isOfDeclaration]
    · split
      · unfold setStatus
        split
        · exact ⟨[_], by simp [Problem.isOfDeclaration], fun _ => rfl⟩
        · simp only [Loading.modify, Loading.reportAll]
          refine ⟨_, ?_, fun _ => rfl⟩
          split
          · exact isOfDeclaration_of_mem_emptyStatements _
          · simp
      · split
        · refine ⟨(if parts.returns.isSome then [.returnRepeated] else []) ++
            (ReturnSpec.parse (trim value)).body.emptyStatements, ?_, fun _ => rfl⟩
          refine List.forall_mem_append.mpr ⟨?_, isOfDeclaration_of_mem_emptyStatements _⟩
          split <;> simp [Problem.isOfDeclaration]
        · exact ⟨[_], by simp [Problem.isOfDeclaration], fun _ => rfl⟩

/-- The problems of a declaration are those that it reports. -/
theorem problems_reported : (∀ problem ∈ parts.problems d, problem.isOfDeclaration = true) ∧
    ∀ diagnostics, (declare ⟨parts, diagnostics⟩ d).diagnostics =
      diagnostics ++ (parts.problems d).map fun problem => ⟨problem, d.line⟩ := by
  obtain ⟨problems, hproblems, hreport⟩ := exists_problems parts d
  have heq : parts.problems d = problems := by
    rw [RouteParts.problems, hreport, List.nil_append, List.map_map]
    exact List.map_id problems
  rw [heq]
  exact ⟨hproblems, hreport⟩

/-- Declarations report what each of them reports, in order. -/
theorem diagnostics_foldl_declare (l : Loading RouteParts) :
    (ds.foldl declare l).diagnostics = l.diagnostics ++ l.built.reports ds := by
  induction ds generalizing l with
  | nil => simp [reports]
  | cons d ds ih =>
    have hdeclare := (problems_reported l.built d).2 l.diagnostics
    rw [List.foldl_cons, ih, hdeclare, built_declare, reports, List.append_assoc]

/-- All that is reported about declarations is of declarations. -/
theorem isOfDeclaration_of_mem_reports :
    ∀ diagnostic ∈ parts.reports ds, diagnostic.problem.isOfDeclaration = true := by
  induction ds generalizing parts with
  | nil => exact List.forall_mem_nil _
  | cons d ds ih =>
    rw [reports]
    refine List.forall_mem_append.mpr ⟨?_, ih _⟩
    intro diagnostic h
    obtain ⟨problem, hproblem, rfl⟩ := List.mem_map.mp h
    exact (problems_reported parts d).1 problem hproblem

end RouteParts

namespace Item

/-- The declarations that a sheet reads in an item: those of the body of a route's block. -/
def declarations : Item → List Declaration
  | .block selector body line bodyLine =>
    match stripStart? "route".toList (trim selector) with
    | some text =>
      if (Target.ofText text line).built.path.isSome then Declaration.ofBody bodyLine body else []
    | none => []
  | _ => []

end Item

namespace Sheet

/-- What is said of a block behind a sheet; nothing is said if its route is appended. -/
def refusal? (sheet : Sheet) : Item → Option Problem
  | .block selector body line bodyLine =>
    match stripStart? "route".toList (trim selector) with
    | none => some (.unknownSelector (String.ofList (trim selector)))
    | some text =>
      let target := (Target.ofText text line).built
      match target.path with
      | none => some (.missingPath (String.ofList (trim selector)))
      | some path =>
        match ((Declaration.ofBody bodyLine body).foldl RouteParts.adding .empty).returns with
        | none => some (.missingReturn target.method path)
        | some _ =>
          if sheet.declares target.method path then some (.duplicateRoute target.method path)
          else none
  | _ => none

/-- What is said of a block is of blocks. -/
theorem isOfBlock_of_refusal? {sheet : Sheet} {item : Item} {problem : Problem}
    (h : sheet.refusal? item = some problem) : problem.isOfBlock = true := by
  cases item with
  | block selector body line bodyLine =>
    simp only [refusal?] at h
    split at h
    · exact Option.some.inj h ▸ rfl
    · split at h
      · exact Option.some.inj h ▸ rfl
      · split at h
        · exact Option.some.inj h ▸ rfl
        · split at h
          · exact Option.some.inj h ▸ rfl
          · cases h
  | _ => cases h

/-- The diagnostic is neither of a declaration nor of a block as a whole. -/
private def OfItem (d : Diagnostic) : Prop :=
  d.problem.isOfDeclaration = false ∧ d.problem.isOfBlock = false

private theorem ofItem_ofText (text : List Char) (line : Nat) :
    ∀ d ∈ (Target.ofText text line).diagnostics, OfItem d := by
  have htake : ∀ (attributes : List Attribute) (l : Loading Target),
      (∀ d ∈ l.diagnostics, OfItem d) →
      ∀ d ∈ (attributes.foldl (fun l a => Target.take l line a) l).diagnostics, OfItem d := by
    intro attributes
    induction attributes with
    | nil => exact fun _ h => h
    | cons a attributes ih =>
      intro l hl
      refine ih _ ?_
      simp only [Target.take]
      split
      · exact hl
      · split
        · exact hl
        · exact List.forall_mem_append.mpr ⟨hl, List.forall_mem_singleton.mpr ⟨rfl, rfl⟩⟩
  exact htake _ _ (List.forall_mem_nil _)

section

variable (env : Environment) (l : Loading Sheet)

private theorem exists_addRule (text : List Char) (line : Nat) :
    ∃ own, (∀ d ∈ own, OfItem d) ∧
      (addRule env l text line).diagnostics = l.diagnostics ++ own := by
  have hone : ∀ problem : Problem, OfItem ⟨problem, line⟩ →
      ∀ d ∈ [(⟨problem, line⟩ : Diagnostic)], OfItem d :=
    fun problem h => List.forall_mem_singleton.mpr h
  simp only [addRule]
  split
  · cases env.resolve? _ with
    | none => exact ⟨_, hone _ ⟨rfl, rfl⟩, rfl⟩
    | some url =>
      refine ⟨_, ?_, rfl⟩
      split
      · exact hone _ ⟨rfl, rfl⟩
      · exact List.forall_mem_nil _
  · split
    · split
      · exact ⟨_, hone _ ⟨rfl, rfl⟩, rfl⟩
      · exact ⟨[], List.forall_mem_nil _, (List.append_nil _).symm⟩
    · exact ⟨_, hone _ ⟨rfl, rfl⟩, rfl⟩

private theorem diagnostics_addRoute (method path : String) (body : List Char)
    (line bodyLine : Nat) :
    ∃ last : Option Problem,
      (addRoute l method path body line bodyLine).diagnostics =
        l.diagnostics ++ RouteParts.empty.reports (Declaration.ofBody bodyLine body) ++
          (last.map fun problem => (⟨problem, line⟩ : Diagnostic)).toList ∧
      last =
        match ((Declaration.ofBody bodyLine body).foldl RouteParts.adding .empty).returns with
        | none => some (.missingReturn method path)
        | some _ =>
          if l.built.declares method path then some (.duplicateRoute method path) else none := by
  simp only [addRoute, RouteParts.built_foldl_declare, RouteParts.diagnostics_foldl_declare,
    List.nil_append]
  cases ((Declaration.ofBody bodyLine body).foldl RouteParts.adding .empty).returns with
  | none => exact ⟨_, rfl, rfl⟩
  | some returns =>
    by_cases hdeclares : l.built.declares method path = true
    · simp only [if_pos hdeclares]
      exact ⟨_, rfl, rfl⟩
    · simp only [if_neg hdeclares]
      exact ⟨_, (List.append_nil _).symm, rfl⟩

/-- All that is reported of an item: its own problems, those of its declarations, and last what is
said of the block. -/
theorem exists_addItem (item : Item) :
    ∃ own : List Diagnostic,
      (∀ d ∈ own, d.problem.isOfDeclaration = false ∧ d.problem.isOfBlock = false) ∧
      (addItem env l item).diagnostics =
        l.diagnostics ++ own ++ RouteParts.empty.reports item.declarations ++
          ((l.built.refusal? item).map fun problem => ⟨problem, item.line⟩).toList := by
  cases item with
  | rule text line =>
    obtain ⟨own, hown, hreport⟩ := exists_addRule env l text line
    exact ⟨own, hown, hreport.trans ((List.append_nil _).trans (List.append_nil _)).symm⟩
  | block selector body line bodyLine =>
    simp only [addItem, addBlock, refusal?, Item.line, Item.declarations]
    cases stripStart? "route".toList (trim selector) with
    | none =>
      refine ⟨[], List.forall_mem_nil _, ?_⟩
      rw [List.append_nil, RouteParts.reports, List.append_nil]
      rfl
    | some text =>
      refine ⟨_, ofItem_ofText text line, ?_⟩
      simp only
      cases (Target.ofText text line).built.path with
      | none =>
        rw [Option.isSome_none, if_neg Bool.false_ne_true, RouteParts.reports, List.append_nil]
        rfl
      | some path =>
        obtain ⟨last, hreport, hlast⟩ := diagnostics_addRoute
          { l with diagnostics := l.diagnostics ++ (Target.ofText text line).diagnostics }
          (Target.ofText text line).built.method path body line bodyLine
        rw [Option.isSome_some, if_pos rfl]
        exact hreport.trans (hlast ▸ rfl)
  | stray text line =>
    exact ⟨[⟨.strayText (String.ofList (trim text)), line⟩],
      List.forall_mem_singleton.mpr ⟨rfl, rfl⟩,
      ((List.append_nil _).trans (List.append_nil _)).symm⟩
  | unopened text line =>
    exact ⟨[⟨.unopenedBlock (String.ofList (trim text)), line⟩],
      List.forall_mem_singleton.mpr ⟨rfl, rfl⟩,
      ((List.append_nil _).trans (List.append_nil _)).symm⟩

/-- An item adds what is to be reported about its declarations, and nothing else about any. -/
theorem ofDeclarations_addItem (item : Item) :
    ofDeclarations (addItem env l item).diagnostics =
      ofDeclarations l.diagnostics ++ RouteParts.empty.reports item.declarations := by
  obtain ⟨own, hown, hreport⟩ := exists_addItem env l item
  have hownNone : own.filter (·.problem.isOfDeclaration) = [] :=
    List.filter_eq_nil_iff.mpr fun d hd => Bool.eq_false_iff.mp (hown d hd).1
  have hrefusalNone : ((l.built.refusal? item).map fun problem =>
      (⟨problem, item.line⟩ : Diagnostic)).toList.filter (·.problem.isOfDeclaration) = [] := by
    refine List.filter_eq_nil_iff.mpr fun d hd hdeclaration => ?_
    obtain ⟨problem, hproblem, rfl⟩ := Option.map_eq_some_iff.mp (Option.mem_toList.mp hd)
    have hblock := isOfBlock_of_refusal? hproblem
    rw [Problem.isOfBlock_of_isOfDeclaration hdeclaration] at hblock
    cases hblock
  rw [hreport, ofDeclarations, List.filter_append, List.filter_append, List.filter_append,
    hownNone, hrefusalNone, List.append_nil, List.append_nil,
    List.filter_eq_self.mpr (RouteParts.isOfDeclaration_of_mem_reports _ _), ofDeclarations]

/-- An item adds to the diagnostics of blocks what is said of it. -/
theorem ofBlocks_addItem (item : Item) :
    ofBlocks (addItem env l item).diagnostics = ofBlocks l.diagnostics ++
      ((l.built.refusal? item).map fun problem => ⟨problem, item.line⟩).toList := by
  obtain ⟨own, hown, hreport⟩ := exists_addItem env l item
  have hownNone : own.filter (·.problem.isOfBlock) = [] :=
    List.filter_eq_nil_iff.mpr fun d hd => Bool.eq_false_iff.mp (hown d hd).2
  have hreportsNone : (RouteParts.empty.reports item.declarations).filter
      (·.problem.isOfBlock) = [] :=
    List.filter_eq_nil_iff.mpr fun d hd => Bool.eq_false_iff.mp <|
      Problem.isOfBlock_of_isOfDeclaration (RouteParts.isOfDeclaration_of_mem_reports _ _ d hd)
  rw [hreport, ofBlocks, List.filter_append, List.filter_append, List.filter_append,
    hownNone, hreportsNone, List.append_nil, List.append_nil]
  refine congrArg _ (List.filter_eq_self.mpr fun d hd => ?_)
  obtain ⟨problem, hproblem, rfl⟩ := Option.map_eq_some_iff.mp (Option.mem_toList.mp hd)
  exact isOfBlock_of_refusal? hproblem

/-- What is said of an item is reported on its line. -/
theorem mem_diagnostics_of_refusal? {item : Item} {problem : Problem}
    (h : l.built.refusal? item = some problem) :
    ⟨problem, item.line⟩ ∈ (addItem env l item).diagnostics := by
  obtain ⟨own, -, hreport⟩ := exists_addItem env l item
  rw [hreport, h]
  exact List.mem_append_right _ (List.mem_singleton_self _)

/-- An item takes back no diagnostics. -/
theorem diagnostics_prefix_addItem (item : Item) :
    l.diagnostics <+: (addItem env l item).diagnostics := by
  obtain ⟨own, -, hreport⟩ := exists_addItem env l item
  rw [hreport, List.append_assoc, List.append_assoc]
  exact List.prefix_append _ _

end

end Sheet

end RouteSheet
