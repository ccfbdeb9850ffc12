import RouteSheet.Project.Basic
import RouteSheet.Proofs.Text.Phrase
import RouteSheet.Store.Basic

/-!
# Where the database of a project lies

A database url is read twice: a project puts the manifest's directory in front of a
relative path in it, and opening the database looks for the path. Opening knows two
marks before the path, trims the url and refuses one without a path; resolving knows the
longer mark alone and neither trims nor refuses. So a url leads to where the manifest
means it exactly when resolving sees in it what opening sees, or when the directory is
the place where relative paths start anyway.
-/

namespace RouteSheet

open Text

namespace Path

/-- The path begins at the root, or with a colon as that of a database in memory does. -/
def standsAlone (path : List Char) : Bool := path.head? == some ':' || isAbsolute path

/-- The path as it is meant in a directory. -/
def placed (dir path : List Char) : List Char := if standsAlone path then path else join dir path

variable {dir path : List Char}

/-- A path that does not stand alone is not absolute. -/
theorem isAbsolute_of_standsAlone (h : standsAlone path = false) : isAbsolute path = false :=
  (Bool.or_eq_false_iff.mp h).2

/-- A relative path stands behind what the directory becomes in front of it. -/
theorem join_of_relative (h : isAbsolute path = false) (dir : List Char) :
    join dir path = join dir [] ++ path := by
  have hnil : isAbsolute [] = false := rfl
  simp only [join, h, hnil, Bool.false_eq_true, ite_false]
  split
  · rw [List.append_nil]
  · rw [List.append_assoc, List.singleton_append]

/-- What a directory becomes in front of a path is empty or ends in a slash. -/
theorem getLast?_join_nil {c : Char} (h : (join dir []).getLast? = some c) : c = '/' := by
  have hnil : isAbsolute [] = false := rfl
  simp only [join, hnil, Bool.false_eq_true, ite_false] at h
  split at h
  · next hdir =>
    rw [List.append_nil] at h
    rcases Bool.or_eq_true_iff.mp hdir with hempty | hslash
    · rw [List.isEmpty_iff.mp hempty] at h
      exact absurd h (by simp)
    · rw [h] at hslash
      simpa using hslash
  · rw [List.getLast?_append] at h
    exact (Option.some.inj h).symm

/-- Only the empty path joined to the empty one is empty. -/
theorem join_nil_eq_nil : join dir [] = [] ↔ dir = [] := by
  have hnil : isAbsolute [] = false := rfl
  simp only [join, hnil, Bool.false_eq_true, ite_false]
  split
  · rw [List.append_nil]
  · next hdir =>
    constructor
    · intro h
      exact absurd (List.append_eq_nil_iff.mp h).2 (List.cons_ne_nil _ _)
    · rintro rfl
      exact absurd rfl hdir

/-- A path and what is left of it without the blanks at its end begin alike. -/
theorem standsAlone_trimEnd (path : List Char) : standsAlone (trimEnd path) = standsAlone path := by
  obtain ⟨blanks, hblank, hpath⟩ := exists_append_trimEnd path
  cases htrim : trimEnd path with
  | nil =>
    rw [htrim, List.nil_append] at hpath
    cases path with
    | nil => rfl
    | cons c rest =>
      have hc : isBlank c = true := isBlank_of_mem hblank (by rw [hpath]; exact List.mem_cons_self)
      have hcolon : c ≠ ':' := by
        rintro rfl
        exact absurd hc (by decide)
      have hslash : c ≠ '/' := by
        rintro rfl
        exact absurd hc (by decide)
      simp [standsAlone, isAbsolute, hcolon, hslash]
  | cons c rest =>
    rw [← hpath, htrim]
    rfl

/-- Blanks at the end of a path are at its end in every directory. -/
theorem trimEnd_placed (dir path : List Char) :
    trimEnd (placed dir path) = placed dir (trimEnd path) := by
  have hsame := standsAlone_trimEnd path
  rw [placed, placed, hsame]
  cases halone : standsAlone path with
  | true => rfl
  | false =>
    rw [halone] at hsame
    have hlast : ∀ c, (join dir []).getLast? = some c → isBlank c = false := by
      intro c hc
      rw [getLast?_join_nil hc]
      decide
    simp only [Bool.false_eq_true, ite_false]
    rw [join_of_relative (isAbsolute_of_standsAlone halone), trimEnd_append hlast,
      join_of_relative (isAbsolute_of_standsAlone hsame)]

/-- Only the empty path placed in the empty directory is empty. -/
theorem placed_eq_nil_iff : placed dir path = [] ↔ dir = [] ∧ path = [] := by
  cases halone : standsAlone path with
  | true =>
    have hne : path ≠ [] := by
      rintro rfl
      exact absurd halone (by decide)
    simp only [placed, halone, ite_true, hne, and_false]
  | false =>
    simp only [placed, halone, Bool.false_eq_true, ite_false]
    rw [join_of_relative (isAbsolute_of_standsAlone halone), List.append_eq_nil_iff,
      join_nil_eq_nil]

/-- A path stays as it is where it stands alone, and behind no directory. -/
theorem placed_eq_self_iff : placed dir path = path ↔ dir = [] ∨ standsAlone path = true := by
  cases halone : standsAlone path with
  | true => simp only [placed, halone, ite_true, or_true]
  | false =>
    simp only [placed, halone, Bool.false_eq_true, ite_false, or_false]
    rw [join_of_relative (isAbsolute_of_standsAlone halone), List.append_left_eq_self,
      join_nil_eq_nil]

end Path

namespace Project

/-- The mark in front of a path that resolving a url knows. -/
def urlMark : List Char := "sqlite://".toList

/-- The url begins with the mark that resolving knows. -/
def isMarked (url : String) : Bool := urlMark.isPrefixOf url.toList

/-- The path as a manifest in a directory means it. -/
def placed (dir path : String) : String := String.ofList (Path.placed dir.toList path.toList)

/-- What stands behind the mark. -/
theorem exists_of_isMarked {url : String} (h : isMarked url = true) :
    ∃ path, url.toList = urlMark ++ path := by
  obtain ⟨path, hpath⟩ := List.isPrefixOf_iff_prefix.mp h
  exact ⟨path, hpath.symm⟩

/-- Opening finds behind the mark what is left of the text without the blanks at its end. -/
theorem sqlitePath?_marked {url : String} {path : List Char} (h : url.toList = urlMark ++ path) :
    sqlitePath? url =
      if trimEnd path = [] then .error .missingPath else .ok (String.ofList (trimEnd path)) := by
  have hmark : isTrimmed urlMark = true := by decide
  have hslash : urlMark.getLast? = some '/' := by decide
  have hlast : ∀ c, urlMark.getLast? = some c → isBlank c = false := by
    intro c hc
    rw [← Option.some.inj (hslash.symm.trans hc)]
    decide
  have htrim : trim url.toList = urlMark ++ trimEnd path := by
    rw [h, trim, trimStart_append_of_isTrimmed hmark, trimEnd_append hlast]
  have hstrip : stripStart? "sqlite://".toList (urlMark ++ trimEnd path) = some (trimEnd path) :=
    stripStart?_append urlMark (trimEnd path)
  simp only [sqlitePath?, htrim, hstrip, Option.some_or, List.isEmpty_iff]

variable {project : Project} {dir url : String}

/-- Resolving puts the path behind the mark where the manifest means it. -/
theorem resolvedUrl_marked (hdir : project.dir = some dir) {path : List Char}
    (h : url.toList = urlMark ++ path) :
    (project.resolvedUrl url).toList = urlMark ++ Path.placed dir.toList path := by
  have hstrip : stripStart? "sqlite://".toList url.toList = some path := by
    rw [h]
    exact stripStart?_append urlMark path
  have hresolved : project.resolvedUrl url =
      if Path.standsAlone path then url else "sqlite://" ++ under dir (String.ofList path) := by
    rw [resolvedUrl, hdir, hstrip]
    rfl
  have hunder : (under dir (String.ofList path)).toList = Path.join dir.toList path := by
    rw [under, String.toList_ofList, String.toList_ofList]
  rw [hresolved, Path.placed]
  split
  · exact h
  · rw [String.toList_append, hunder]
    rfl

/-- Resolving leaves a url without the mark as it is. -/
theorem resolvedUrl_unmarked (h : isMarked url = false) : project.resolvedUrl url = url := by
  have hnone : stripStart? "sqlite://".toList url.toList = none :=
    stripStart?_eq_none fun hp => Bool.eq_false_iff.mp h (List.isPrefixOf_iff_prefix.mpr hp)
  rw [resolvedUrl, hnone]
  cases project.dir with
  | none => rfl
  | some dir => rfl

/-- What opening finds in a resolved url: a path where the manifest means it if the mark is there,
else the path as it is written. A url with the mark and no path leads to the directory. -/
theorem sqlitePath?_resolvedUrl (hdir : project.dir = some dir) (url : String) :
    sqlitePath? (project.resolvedUrl url) =
      match sqlitePath? url with
      | .ok path => .ok (if isMarked url then placed dir path else path)
      | .error e => if isMarked url ∧ dir ≠ "" then .ok (under dir "") else .error e := by
  cases hmark : isMarked url with
  | false =>
    rw [resolvedUrl_unmarked hmark]
    cases sqlitePath? url with
    | ok path => rfl
    | error e => rfl
  | true =>
    obtain ⟨path, hpath⟩ := exists_of_isMarked hmark
    rw [sqlitePath?_marked (resolvedUrl_marked hdir hpath), sqlitePath?_marked hpath,
      Path.trimEnd_placed]
    simp only [Path.placed_eq_nil_iff, String.toList_eq_nil_iff]
    by_cases hnil : trimEnd path = []
    · by_cases hdir : dir = ""
      · simp only [hnil, hdir, and_self, ite_true, ne_eq, not_true, and_false, ite_false]
      · simp only [hnil, hdir, and_true, ite_true, ite_false, ne_eq, not_false_eq_true]
        rfl
    · simp only [hnil, and_false, ite_true, ite_false, placed, String.toList_ofList]

/-- Resolving sees in the url what opening sees. -/
inductive SeenAlike (url : String) : Prop where
  /-- the mark that resolving knows stands before a path -/
  | marked {path : String} (h : sqlitePath? url = .ok path) (hm : isMarked url = true)
  /-- the path is the same in every directory -/
  | alone {path : String} (h : sqlitePath? url = .ok path)
      (ha : Path.standsAlone path.toList = true)
  /-- opening refuses a url in which resolving sees no mark -/
  | refused {e : QueryError} (h : sqlitePath? url = .error e) (hm : isMarked url = false)

/-- A url that is opened is seen alike exactly if it is marked or its path stands alone. -/
theorem seenAlike_of_ok {path : String} (h : sqlitePath? url = .ok path) :
    SeenAlike url ↔ isMarked url = true ∨ Path.standsAlone path.toList = true := by
  constructor
  · rintro (⟨-, hm⟩ | ⟨h', ha⟩ | ⟨h', -⟩)
    · exact .inl hm
    · rw [Except.ok.inj (h.symm.trans h')]
      exact .inr ha
    · exact nomatch h.symm.trans h'
  · rintro (hm | ha)
    · exact .marked h hm
    · exact .alone h ha

/-- A url that is not opened is seen alike exactly if it is not marked. -/
theorem seenAlike_of_error {e : QueryError} (h : sqlitePath? url = .error e) :
    SeenAlike url ↔ isMarked url = false := by
  constructor
  · rintro (⟨h', -⟩ | ⟨h', -⟩ | ⟨-, hm⟩)
    · exact nomatch h.symm.trans h'
    · exact nomatch h.symm.trans h'
    · exact hm
  · exact .refused h

/-- Placing leaves a path exactly if there is no directory or the path stands alone. -/
theorem placed_eq_self_iff {path : String} :
    placed dir path = path ↔ dir = "" ∨ Path.standsAlone path.toList = true := by
  rw [placed, ← String.toList_inj, String.toList_ofList, Path.placed_eq_self_iff,
    String.toList_eq_nil_iff]

/-- The url of a manifest leads to where the manifest means it exactly when resolving sees in it
what opening sees, or relative paths start from the manifest's directory anyway. Any other path
is left where it is written, and any other url that opening refuses leads to the directory. -/
theorem databaseUrl_placed_iff {env : Environment} (henv : env.override? "database" "url" = none)
    (hdir : project.dir = some dir) (hurl : project.manifest.databaseUrl = some url) :
    ((project.databaseUrl env).map sqlitePath? = some ((sqlitePath? url).map (placed dir)) ↔
      dir = "" ∨ SeenAlike url) ∧
    (¬(dir = "" ∨ SeenAlike url) →
      (project.databaseUrl env).map sqlitePath? =
        some (.ok (match sqlitePath? url with
          | .ok path => path
          | .error _ => under dir ""))) := by
  have hfound : (project.databaseUrl env).map sqlitePath? =
      some (sqlitePath? (project.resolvedUrl url)) := by
    rw [databaseUrl, henv, hurl]
    rfl
  rw [hfound, sqlitePath?_resolvedUrl hdir]
  cases hpath : sqlitePath? url with
  | ok path =>
    rw [seenAlike_of_ok hpath]
    cases isMarked url with
    | true => simp only [ite_true, Except.map, true_or, or_true, not_true, false_implies, and_self]
    | false =>
      simp only [Bool.false_eq_true, ite_false, Except.map, Option.some_inj, Except.ok.injEq,
        false_or, implies_true, and_true]
      rw [eq_comm, placed_eq_self_iff]
  | error e =>
    rw [seenAlike_of_error hpath]
    cases isMarked url with
    | true =>
      by_cases hempty : dir = ""
      · simp [hempty, Except.map]
      · simp [hempty, Except.map]
    | false => simp [Except.map]

/-- A project in a directory, with a database url in its manifest. -/
def serviceProject (url : String) : Project :=
  ⟨{ Manifest.empty with databaseUrl := some url }, some "/srv/api"⟩

/-- Blanks behind the path do not keep it from its directory. -/
theorem databaseUrl_placed_padded :
    Environment.override? [] "database" "url" = none ∧
    (serviceProject "sqlite://data/app.db \n").dir = some "/srv/api" ∧
    (serviceProject "sqlite://data/app.db \n").manifest.databaseUrl =
      some "sqlite://data/app.db \n" ∧
    ((serviceProject "sqlite://data/app.db \n").databaseUrl []).map sqlitePath? =
      some (.ok "/srv/api/data/app.db") := by
  have hpath : sqlitePath? "sqlite://data/app.db \n" = .ok "data/app.db" := by rfl
  have hplaced : placed "/srv/api" "data/app.db" = "/srv/api/data/app.db" := by decide +kernel
  have henv : Environment.override? [] "database" "url" = none := rfl
  have hdir : (serviceProject "sqlite://data/app.db \n").dir = some "/srv/api" := rfl
  have hurl : (serviceProject "sqlite://data/app.db \n").manifest.databaseUrl =
      some "sqlite://data/app.db \n" := rfl
  have h := (databaseUrl_placed_iff henv hdir hurl).1.mpr
    (.inr (.marked hpath (by decide +kernel)))
  refine ⟨henv, hdir, hurl, ?_⟩
  rw [h, hpath, ← hplaced]
  rfl

/-- With the shorter mark a relative path is left where it is written and does not lead to the
directory of the manifest. A url without a path leads to that directory and is not refused. -/
theorem databaseUrl_not_placed :
    ((serviceProject "sqlite:data/app.db").databaseUrl []).map sqlitePath? =
      some (.ok "data/app.db") ∧
    (sqlitePath? "sqlite:data/app.db").map (placed "/srv/api") = .ok "/srv/api/data/app.db" ∧
    ((serviceProject "sqlite:data/app.db").databaseUrl []).map sqlitePath? ≠
      some ((sqlitePath? "sqlite:data/app.db").map (placed "/srv/api")) ∧
    ((serviceProject "sqlite://").databaseUrl []).map sqlitePath? = some (.ok "/srv/api/") ∧
    (sqlitePath? "sqlite://").map (placed "/srv/api") = .error .missingPath ∧
    ((serviceProject "sqlite://").databaseUrl []).map sqlitePath? ≠
      some ((sqlitePath? "sqlite://").map (placed "/srv/api")) := by
  have hshort : ((serviceProject "sqlite:data/app.db").databaseUrl []).map sqlitePath? =
      some (.ok "data/app.db") := by rfl
  have hmeant : (sqlitePath? "sqlite:data/app.db").map (placed "/srv/api") =
      .ok "/srv/api/data/app.db" := by rfl
  have hempty : ((serviceProject "sqlite://").databaseUrl []).map sqlitePath? =
      some (.ok "/srv/api/") := by rfl
  have hrefused : (sqlitePath? "sqlite://").map (placed "/srv/api") = .error .missingPath := by rfl
  refine ⟨hshort, hmeant, ?_, hempty, hrefused, ?_⟩
  · rw [hshort, hmeant]
    intro h
    exact absurd (Except.ok.inj (Option.some.inj h)) (by decide)
  · rw [hempty, hrefused]
    intro h
    exact nomatch Option.some.inj h

end Project

end RouteSheet
