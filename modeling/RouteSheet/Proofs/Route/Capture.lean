import RouteSheet.Proofs.Route.Path

/-!
# Captures

A segment of a pattern that begins with a colon stands for any segment of a path, and every
other one for itself. What a route captures from a path is exactly what fills the segments
with a colon to give the path: filling in what was matched gives the path back, and a path
that was filled in matches with what filled it, however many slashes stand around it.
-/

namespace RouteSheet

open Text

/-- The name under which a segment of a pattern captures. -/
def captureName? : List Char → Option String
  | ':' :: name => some (String.ofList name)
  | _ => none

/-- The names under which a pattern captures, in path order. -/
def captureNames (pattern : List (List Char)) : List String := pattern.filterMap captureName?

/-- What a segment of a pattern captures from the segment of a path at its place. -/
def captured? (pair : List Char × List Char) : Option (String × String) :=
  (captureName? pair.1).map fun name => (name, String.ofList pair.2)

/-- The path has as many segments as the pattern and the same where those of the pattern are
fixed, and the captures are the others under their names, in path order. -/
structure Fits (pattern segments : List (List Char)) (captures : List (String × String)) :
    Prop where
  length : pattern.length = segments.length
  fixed : ∀ pair ∈ pattern.zip segments, captureName? pair.1 = none → pair.2 = pair.1
  captured : captures = (pattern.zip segments).filterMap captured?

/-- The pattern with its captures replaced by values, one after the other. -/
def fill : List (List Char) → List String → List (List Char)
  | [], _ => []
  | text :: pattern, values =>
    match captureName? text, values with
    | some _, value :: values => value.toList :: fill pattern values
    | _, values => text :: fill pattern values

section

variable {text segment : List Char} {pattern segments : List (List Char)} {name : String}
  {captures : List (String × String)} {values : List String}

/-- A segment that names no capture is fixed. -/
theorem ofText_of_fixed (h : captureName? text = none) : Segment.ofText text = .fixed text := by
  unfold Segment.ofText
  split
  · exact nomatch h
  · rfl

/-- A segment that names a capture is one. -/
theorem ofText_of_capture (h : captureName? text = some name) :
    Segment.ofText text = .capture name := by
  unfold captureName? at h
  split at h
  · rw [← Option.some.inj h]
    rfl
  · exact nomatch h

/-- Nothing fits the empty pattern but the empty path, without captures. -/
theorem fits_nil : Fits [] [] captures ↔ captures = [] :=
  ⟨fun h => h.captured, fun h => ⟨rfl, nofun, h⟩⟩

/-- A fixed segment fits itself. -/
theorem fits_fixed (h : captureName? text = none) :
    Fits (text :: pattern) (segment :: segments) captures ↔
      segment = text ∧ Fits pattern segments captures := by
  have hnone : captured? (text, segment) = none := by rw [captured?, h, Option.map_none]
  constructor
  · rintro ⟨hlength, hfixed, hcaptured⟩
    rw [List.zip_cons_cons, List.filterMap_cons_none hnone] at hcaptured
    rw [List.zip_cons_cons, List.forall_mem_cons] at hfixed
    exact ⟨hfixed.1 h, Nat.succ.inj hlength, hfixed.2, hcaptured⟩
  · rintro ⟨rfl, hlength, hfixed, hcaptured⟩
    refine ⟨congrArg Nat.succ hlength, ?_, ?_⟩
    · rw [List.zip_cons_cons, List.forall_mem_cons]
      exact ⟨fun _ => rfl, hfixed⟩
    · rw [List.zip_cons_cons, List.filterMap_cons_none hnone, hcaptured]

/-- A segment with a colon fits every segment and captures it. -/
theorem fits_capture (h : captureName? text = some name) :
    Fits (text :: pattern) (segment :: segments) captures ↔
      ∃ rest, Fits pattern segments rest ∧ (name, String.ofList segment) :: rest = captures := by
  have hsome : captured? (text, segment) = some (name, String.ofList segment) := by
    rw [captured?, h, Option.map_some]
  constructor
  · rintro ⟨hlength, hfixed, hcaptured⟩
    rw [List.zip_cons_cons, List.filterMap_cons_some hsome] at hcaptured
    rw [List.zip_cons_cons, List.forall_mem_cons] at hfixed
    exact ⟨_, ⟨Nat.succ.inj hlength, hfixed.2, rfl⟩, hcaptured.symm⟩
  · rintro ⟨rest, ⟨hlength, hfixed, hcaptured⟩, rfl⟩
    refine ⟨congrArg Nat.succ hlength, ?_, ?_⟩
    · rw [List.zip_cons_cons, List.forall_mem_cons]
      exact ⟨fun hnone => absurd (h.symm.trans hnone) nofun, hfixed⟩
    · rw [List.zip_cons_cons, List.filterMap_cons_some hsome, hcaptured]

/-- The captures of a path are those with which it fits the pattern. -/
theorem captures?_eq_some_iff :
    captures? (pattern.map Segment.ofText) segments = some captures ↔
      Fits pattern segments captures := by
  induction pattern generalizing segments captures with
  | nil =>
    cases segments with
    | nil => exact Option.some_inj.trans (eq_comm.trans fits_nil.symm)
    | cons segment segments => exact iff_of_false nofun fun h => nomatch h.length
  | cons text pattern ih =>
    cases segments with
    | nil =>
      refine iff_of_false ?_ fun h => nomatch h.length
      rw [List.map_cons]
      cases Segment.ofText text <;> exact nofun
    | cons segment segments =>
      cases hname : captureName? text with
      | none =>
        rw [List.map_cons, ofText_of_fixed hname, captures?, fits_fixed hname, ← ih]
        split
        · next he => exact (and_iff_right he.symm).symm
        · next hne => exact iff_of_false nofun fun h => hne h.1.symm
      | some name =>
        rw [List.map_cons, ofText_of_capture hname, captures?, fits_capture hname,
          Option.map_eq_some_iff]
        simp only [ih]

/-- Filling in what was captured gives the segments back. -/
theorem Fits.fill_eq (h : Fits pattern segments captures) :
    fill pattern (captures.map Prod.snd) = segments := by
  induction pattern generalizing segments captures with
  | nil => exact (List.length_eq_zero_iff.mp h.length.symm).symm
  | cons text pattern ih =>
    obtain ⟨segment, segments, rfl⟩ := List.exists_cons_of_length_eq_add_one h.length.symm
    cases hname : captureName? text with
    | none =>
      obtain ⟨rfl, hf⟩ := (fits_fixed hname).mp h
      simp only [fill, hname, ih hf]
    | some name =>
      obtain ⟨rest, hf, rfl⟩ := (fits_capture hname).mp h
      simp only [fill, hname, List.map_cons, ih hf, String.toList_ofList]

/-- What a pattern was filled with is captured under its names. -/
theorem fits_fill (h : values.length = (captureNames pattern).length) :
    Fits pattern (fill pattern values) ((captureNames pattern).zip values) := by
  induction pattern generalizing values with
  | nil => exact fits_nil.mpr rfl
  | cons text pattern ih =>
    cases hname : captureName? text with
    | none =>
      have hnames : captureNames (text :: pattern) = captureNames pattern :=
        List.filterMap_cons_none hname
      rw [hnames] at h ⊢
      simp only [fill, hname]
      exact (fits_fixed hname).mpr ⟨rfl, ih h⟩
    | some name =>
      have hnames : captureNames (text :: pattern) = name :: captureNames pattern :=
        List.filterMap_cons_some hname
      rw [hnames] at h ⊢
      obtain ⟨value, values, rfl⟩ := List.exists_cons_of_length_eq_add_one h
      simp only [fill, hname, List.zip_cons_cons]
      refine (fits_capture hname).mpr ⟨_, ih (Nat.succ.inj h), ?_⟩
      rw [String.ofList_toList]

/-- A filled pattern holds segments of the pattern and values only. -/
theorem mem_fill {s : List Char} (h : s ∈ fill pattern values) :
    s ∈ pattern ∨ ∃ value ∈ values, s = value.toList := by
  induction pattern generalizing values with
  | nil => exact absurd h List.not_mem_nil
  | cons text pattern ih =>
    unfold fill at h
    split at h
    · next value values _ =>
      rcases List.mem_cons.mp h with rfl | h
      · exact .inr ⟨value, List.mem_cons_self, rfl⟩
      · refine (ih h).imp (List.mem_cons_of_mem _) ?_
        rintro ⟨later, hlater, rfl⟩
        exact ⟨later, List.mem_cons_of_mem _ hlater, rfl⟩
    · rcases List.mem_cons.mp h with rfl | h
      · exact .inl List.mem_cons_self
      · exact (ih h).imp_left (List.mem_cons_of_mem _)

/-- A separable pattern that is filled with values free of slashes is separable, unless a value
leaves an end of it empty. -/
theorem separable_fill (h : Separable pattern) (hvalues : ∀ value ∈ values, '/' ∉ value.toList)
    (hfirst : (fill pattern values).head? ≠ some [])
    (hlast : (fill pattern values).getLast? ≠ some []) : Separable (fill pattern values) := by
  refine ⟨fun segment hsegment => ?_, hfirst, hlast⟩
  rcases mem_fill hsegment with hpattern | ⟨value, hvalue, rfl⟩
  · exact h.free segment hpattern
  · exact hvalues value hvalue

end

namespace Route

/-- The route matches the paths whose segments fit its pattern. -/
theorem match?_eq_some_iff {route : Route} {pattern : List (List Char)}
    (h : Written pattern route.path.toList) {path : String} {captures : List (String × String)} :
    route.match? path = some captures ↔
      ∃ segments, Written segments path.toList ∧ Fits pattern segments captures := by
  rw [match?, Route.pattern, h.pathSegments_eq, captures?_eq_some_iff]
  constructor
  · exact fun hf => ⟨_, written_pathSegments _, hf⟩
  · rintro ⟨segments, hsegments, hf⟩
    rwa [hsegments.pathSegments_eq]

/-- A route matches the paths whose segments fit those of its pattern, and captures the segments
at the places of the names. The pattern filled with the captures is the path without its outer
slashes. A path written by filling the pattern with values free of slashes, with any number of
slashes around, is matched with these values as its captures, if no value leaves an end of the
filled pattern empty. -/
theorem match?_fill (route : Route) :
    ∃ pattern, Written pattern route.path.toList ∧
      (∀ path captures, route.match? path = some captures ↔
        ∃ segments, Written segments path.toList ∧ Fits pattern segments captures) ∧
      (∀ path captures, route.match? path = some captures →
        joined (fill pattern (captures.map Prod.snd)) = trimMatches (· == '/') path.toList) ∧
      ∀ values before after, values.length = (captureNames pattern).length →
        (∀ value ∈ values, '/' ∉ value.toList) →
        (fill pattern values).head? ≠ some [] → (fill pattern values).getLast? ≠ some [] →
        route.match? (String.ofList
            (slashes before ++ (joined (fill pattern values) ++ slashes after))) =
          some ((captureNames pattern).zip values) := by
  have hpattern := written_pathSegments route.path.toList
  refine ⟨_, hpattern, fun _ _ => match?_eq_some_iff hpattern, ?_, ?_⟩
  · intro path captures h
    obtain ⟨segments, hsegments, hfits⟩ := (match?_eq_some_iff hpattern).mp h
    rw [hfits.fill_eq, hsegments.trimMatches_eq]
  · intro values before after hlength hvalues hfirst hlast
    have hfilled := separable_fill hpattern.toSeparable hvalues hfirst hlast
    refine (match?_eq_some_iff hpattern).mpr ⟨_, ⟨hfilled, before, after, ?_⟩, fits_fill hlength⟩
    rw [String.toList_ofList]

/-- A route whose pattern has a name twice and an empty segment between. -/
def memberRoute : Route where
  method := "GET"
  path := "/teams/:id//:id/"
  assignments := []
  status := none
  returns := ⟨.json, .param "id"⟩
  line := 1

/-- The segments of its pattern. -/
def memberPattern : List (List Char) :=
  ["teams".toList, ":id".toList, [], ":id".toList]

/-- The route matches a path that its pattern was filled to, and keeps both captures apart. -/
theorem match?_fill_member :
    Written memberPattern memberRoute.path.toList ∧
    joined (fill memberPattern ["7", "%2F"]) = "teams/7//%2F".toList ∧
    memberRoute.match? "//teams/7//%2F/" = some [("id", "7"), ("id", "%2F")] := by
  obtain ⟨pattern, hpattern, -, -, hfill⟩ := match?_fill memberRoute
  obtain rfl : pattern = memberPattern := (written_iff.mp hpattern).trans (by decide)
  have hvalues : ∀ value ∈ ["7", "%2F"], '/' ∉ value.toList := by decide
  exact ⟨hpattern, by decide, hfill ["7", "%2F"] 2 1 rfl hvalues (by decide) (by decide)⟩

end Route

end RouteSheet
