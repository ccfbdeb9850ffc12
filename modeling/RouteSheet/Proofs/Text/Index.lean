import RouteSheet.Proofs.Text.Phrase
import RouteSheet.Proofs.Text.Scan
import RouteSheet.Proofs.Text.Slice
import RouteSheet.Text.Offset

/-!
# Scanning by byte offsets

A scan goes through a text character by character, counts the bytes that it has passed, and stops
at an offset. The scanners for separators, brackets, parentheses, bodies and parts are such scans,
and the text is cut at the offsets that they stop at. All of these are boundaries, and what is cut
out is what is found without offsets.
-/

namespace RouteSheet.Text

open Nesting

section Scan

variable {σ : Type}

/-- The offset of the first character at which a scan stops, with the bytes passed before. -/
def stopIndex? (step : σ → Char → Option σ) : σ → Nat → List Char → Option Nat
  | _, _, [] => none
  | a, i, c :: s =>
    match step a c with
    | none => some i
    | some b => stopIndex? step b (i + c.utf8Size) s

/-- The characters before the first one at which a scan stops. -/
def passed (step : σ → Char → Option σ) : σ → List Char → List Char
  | _, [] => []
  | a, c :: s =>
    match step a c with
    | none => []
    | some b => c :: passed step b s

/-- The text up to where a scan stops, cut out by the offset, or all of it. -/
def passedSlice? (step : σ → Char → Option σ) (a : σ) (s : List Char) : Option (List Char) :=
  match stopIndex? step a 0 s with
  | some i => takeBytes? i s
  | none => some s

variable (step : σ → Char → Option σ) (a : σ) (s : List Char)

/-- What a scan has passed is a beginning of the text. -/
theorem passed_prefix : passed step a s <+: s := by
  induction s generalizing a with
  | nil => exact List.prefix_refl []
  | cons c s ih =>
    rw [passed]
    cases step a c with
    | none => exact List.nil_prefix
    | some b => exact List.cons_prefix_cons.mpr ⟨rfl, ih b⟩

/-- A scan stops behind the bytes of what it has passed, unless it passes all. -/
theorem stopIndex?_eq (i : Nat) : stopIndex? step a i s =
    if passed step a s = s then none else some (i + byteSize (passed step a s)) := by
  induction s generalizing a i with
  | nil => rfl
  | cons c s ih =>
    rw [stopIndex?, passed]
    cases step a c with
    | none => simp
    | some b => simp [ih, Nat.add_assoc]

/-- The offset at which a scan stops is a boundary. -/
theorem passedSlice?_eq : passedSlice? step a s = some (passed step a s) := by
  rw [passedSlice?, stopIndex?_eq, Nat.zero_add]
  split
  · next i h =>
    split at h
    · cases h
    · obtain rfl := Option.some.inj h
      obtain ⟨after, hs⟩ := passed_prefix step a s
      exact takeBytes?_eq_some.mpr ⟨after, hs.symm, rfl⟩
  · next h =>
    split at h
    · next hall => rw [hall]
    · cases h

end Scan

/-- One character of the search for a separator at the top. -/
def separatorStep (sep : Char) (n : Nesting) (c : Char) : Option Nesting :=
  if n.separates c && c == sep then none else some (n.next c)

/-- One character of the search for a bracket that stands at the top. -/
def openingStep (bracket : Char) (n : Nesting) (c : Char) : Option Nesting :=
  if c == bracket && n.atTop then none else some (n.next c)

/-- One character of what a parenthesis encloses. -/
def enclosedStep (n : Nesting) (c : Char) : Option Nesting :=
  if (n.next c).depth = 0 then none else some (n.next c)

/-- One character of a body: the place behind it and the braces that are still open there. -/
def bodyStep : Nesting × Nat → Char → Option (Nesting × Nat)
  | (n, braces), c =>
    if n.separates c && c == '\x7d' && braces ≤ 1 then none
    else
      some ((n.next c).floored,
        if n.separates c && c == '\x7b' then braces + 1
        else if n.separates c && c == '\x7d' then braces - 1
        else braces)

/-- One character of the search for a blank. -/
def blankStep (_ : Unit) (c : Char) : Option Unit := if isBlank c then none else some ()

/-- The offset of the first separator at the top. -/
def topIndex? (sep : Char) (s : List Char) : Option Nat := stopIndex? (separatorStep sep) top 0 s

/-- The offset of the first bracket that stands at the top. -/
def openingIndex? (bracket : Char) (s : List Char) : Option Nat :=
  stopIndex? (openingStep bracket) top 0 s

/-- What a parenthesis at an offset encloses, cut out by the offset of its counterpart. -/
def enclosedSlice? (offset : Nat) (s : List Char) : Option (List Char) :=
  match dropBytes? (offset + 1) s with
  | none => some []
  | some rest => passedSlice? enclosedStep ⟨1, none⟩ rest

/-- The body of a block whose brace stands at an offset, cut out by the offset of the brace that
closes it. -/
def bodySlice? (offset : Nat) (s : List Char) : Option (List Char) :=
  match dropBytes? (offset + 1) s with
  | none => some []
  | some rest => passedSlice? bodyStep (top, 1) rest

/-- What stands before and behind the first separator at the top, cut out by its offset. -/
def cutSlices? (sep : Char) (s : List Char) : Option (Option (List Char × List Char)) :=
  match topIndex? sep s with
  | none => some none
  | some i => do
    let before ← takeBytes? i s
    let after ← dropBytes? (i + 1) s
    some (some (before, after))

/-- What stands before the first blank, and the rest, cut out by its offset. -/
def wordSlices? (s : List Char) : Option (List Char × List Char) :=
  match stopIndex? blankStep () 0 s with
  | none => some (s, [])
  | some i => do
    let before ← takeBytes? i s
    let rest ← dropBytes? i s
    some (before, rest)

/-- The text without one layer of equal quotes around it, cut out between its first and its last
byte. -/
def unquotedSlice? : List Char → Option (List Char)
  | [] => some []
  | q :: rest =>
    if isQuote q && rest.getLast? == some q then slice? 1 (byteSize (q :: rest) - 1) (q :: rest)
    else some (q :: rest)

/-- The parts between the separators at the top with the offsets that they begin at, cut out of
the text: a part is open since an offset, and the scan has come to another one. -/
def splitFromSlices? (sep : Char) (text : List Char) :
    Nesting → Nat → Nat → List Char → Option (List (Nat × List Char))
  | _, start, _, [] => (dropBytes? start text).map fun part => [(start, part)]
  | n, start, i, c :: s =>
    if n.separates c && c == sep then do
      let part ← slice? start i text
      let others ← splitFromSlices? sep text (n.next c) (i + c.utf8Size) (i + c.utf8Size) s
      some ((start, part) :: others)
    else splitFromSlices? sep text (n.next c) start (i + c.utf8Size) s

/-- The parts of a text between the separators at the top, with their offsets. -/
def splitSlices? (sep : Char) (s : List Char) : Option (List (Nat × List Char)) :=
  splitFromSlices? sep s top 0 0 s

/-- Parts with the offsets that they begin at, when a separator stands behind each. -/
def placed (sep : Char) : Nat → List (List Char) → List (Nat × List Char)
  | _, [] => []
  | i, part :: rest => (i, part) :: placed sep (i + byteSize part + sep.utf8Size) rest

section Found

variable {sep : Char} {n : Nesting} {s : List Char}

/-- A separator is found where it is found without offsets. -/
theorem topIndex?_eq (sep : Char) (s : List Char) : topIndex? sep s = topOffset? sep s := by
  have hfrom : ∀ n i, stopIndex? (separatorStep sep) n i s =
      (cutFrom? sep n s).map fun cut => i + byteSize cut.1 := by
    induction s with
    | nil => exact fun _ _ => rfl
    | cons c s ih =>
      intro n i
      rw [stopIndex?, separatorStep, cutFrom?]
      cases n.separates c && c == sep with
      | true => simp
      | false => simp [ih, Function.comp_def, Nat.add_assoc]
  simp [topIndex?, topOffset?, cutTop?, hfrom]

/-- A bracket is found where it is found without offsets. -/
theorem openingIndex?_eq (bracket : Char) (s : List Char) :
    openingIndex? bracket s = openingOffset? bracket s := by
  have hfrom : ∀ n i, stopIndex? (openingStep bracket) n i s =
      (cutOpeningFrom? bracket n s).map fun cut => i + byteSize cut.1 := by
    induction s with
    | nil => exact fun _ _ => rfl
    | cons c s ih =>
      intro n i
      rw [stopIndex?, openingStep, cutOpeningFrom?]
      cases c == bracket && n.atTop with
      | true => simp
      | false => simp [ih, Function.comp_def, Nat.add_assoc]
  simp [openingIndex?, openingOffset?, cutOpening?, hfrom]

/-- What a parenthesis encloses is what the scan for its counterpart passes. -/
theorem enclosed_eq_passed (n : Nesting) (s : List Char) :
    enclosed n s = passed enclosedStep n s := by
  induction s generalizing n with
  | nil => rfl
  | cons c s ih =>
    rw [enclosed, passed, enclosedStep]
    by_cases h : (n.next c).depth = 0 <;> simp [h, ih]

/-- The body of a block is what the scan for its closing brace passes. -/
theorem blockBody_eq_passed (n : Nesting) (braces : Nat) (s : List Char) :
    blockBody n braces s = passed bodyStep (n, braces) s := by
  induction s generalizing n braces with
  | nil => rfl
  | cons c s ih =>
    rw [blockBody, passed, bodyStep]
    split
    · rfl
    · simp [ih]

/-- What a parenthesis encloses is cut out as it is found without offsets. -/
theorem enclosedSlice?_eq (offset : Nat) (s : List Char) :
    enclosedSlice? offset s = some (enclosedAt offset s) := by
  rw [enclosedSlice?, enclosedAt]
  cases dropBytes? (offset + 1) s with
  | none => rfl
  | some rest => simp [passedSlice?_eq, enclosed_eq_passed]

/-- The body of a block is cut out as it is found without offsets. -/
theorem bodySlice?_eq (offset : Nat) (s : List Char) :
    bodySlice? offset s = some (blockBodyAt offset s) := by
  rw [bodySlice?, blockBodyAt]
  cases dropBytes? (offset + 1) s with
  | none => rfl
  | some rest => simp [passedSlice?_eq, blockBody_eq_passed]

/-- A text is cut at a separator of one byte as it is cut without offsets. -/
theorem cutSlices?_eq (sep : Char) (hsep : sep.utf8Size = 1) (s : List Char) :
    cutSlices? sep s = some (cutTop? sep s) := by
  rw [cutSlices?, topIndex?_eq, topOffset?]
  cases h : cutTop? sep s with
  | none => rfl
  | some cut =>
    obtain ⟨before, after⟩ := cut
    obtain ⟨rfl, -⟩ := cutFrom?_eq_some.mp h
    have hbehind : dropBytes? (byteSize before + 1) (before ++ sep :: after) = some after := by
      have hdrop := dropBytes?_append (before ++ [sep]) after
      simpa [hsep] using hdrop
    simp [takeBytes?_append, hbehind]

/-- The first word is cut out as it is found without offsets. -/
theorem wordSlices?_eq (s : List Char) : wordSlices? s = some (takeRun (!isBlank ·) s) := by
  have hpassed : ∀ s, passed blankStep () s =
      s.takeWhile (!isBlank ·) := by
    intro s
    induction s with
    | nil => rfl
    | cons c s ih => cases hc : isBlank c <;> simp [passed, blankStep, hc, ih]
  have hs : s.takeWhile (!isBlank ·) ++ s.dropWhile (!isBlank ·) = s :=
    List.takeWhile_append_dropWhile
  rw [wordSlices?, stopIndex?_eq, hpassed, Nat.zero_add, takeRun]
  by_cases hall : s.takeWhile (!isBlank ·) = s
  · have hnone : s.dropWhile (!isBlank ·) = [] := by
      rwa [hall, List.append_right_eq_self] at hs
    simp [hall, hnone]
  · have htake := takeBytes?_append (s.takeWhile (!isBlank ·)) (s.dropWhile (!isBlank ·))
    have hdrop := dropBytes?_append (s.takeWhile (!isBlank ·)) (s.dropWhile (!isBlank ·))
    rw [hs] at htake hdrop
    simp [hall, htake, hdrop]

/-- Quotes are taken off by offsets as they are without them. -/
theorem unquotedSlice?_eq (s : List Char) : unquotedSlice? s = some (stripQuotes s) := by
  cases s with
  | nil => rfl
  | cons q rest =>
    rw [unquotedSlice?, stripQuotes]
    split
    · next h =>
      obtain ⟨hq, hlast⟩ := Bool.and_eq_true_iff.mp h
      obtain ⟨inner, rfl⟩ := List.getLast?_eq_some_iff.mp (beq_iff_eq.mp hlast)
      have hsize : q.utf8Size = 1 := by
        rcases Bool.or_eq_true_iff.mp hq with h | h <;> rw [beq_iff_eq.mp h] <;> rfl
      have hslice := slice?_append [q] inner [q]
      simpa [hsize, Nat.add_comm] using hslice
    · rfl

/-- A part that is open since an offset is cut out at the next separator, and the parts behind it
likewise. -/
theorem splitFromSlices?_eq (before current : List Char) {part : List Char}
    {rest : List (List Char)} (h : splitFrom sep n s = part :: rest) :
    splitFromSlices? sep (before ++ (current ++ s)) n (byteSize before)
        (byteSize before + byteSize current) s =
      some (placed sep (byteSize before) ((current ++ part) :: rest)) := by
  induction s generalizing n before current part rest with
  | nil =>
    obtain ⟨rfl, rfl⟩ := List.cons.inj h
    simp [splitFromSlices?, placed, dropBytes?_append]
  | cons c s ih =>
    obtain ⟨next, others, hs⟩ := exists_splitFrom sep (n.next c) s
    rw [splitFrom, hs] at h
    rw [splitFromSlices?]
    split
    · next hc =>
      rw [if_pos hc] at h
      obtain ⟨rfl, rfl⟩ := List.cons.inj h
      obtain ⟨-, rfl⟩ : n.separates c = true ∧ c = sep := by
        simpa using hc
      have hnext := ih (before ++ (current ++ [c])) [] hs
      simp only [byteSize_append, byteSize_cons, byteSize_nil, Nat.add_zero, List.append_assoc,
        List.singleton_append, List.nil_append, ← Nat.add_assoc] at hnext
      simp [slice?_append, hnext, placed]
    · next hc =>
      rw [if_neg hc, extendFirst] at h
      obtain ⟨rfl, rfl⟩ := List.cons.inj h
      have hnext := ih before (current ++ [c]) hs
      simpa [Nat.add_assoc] using hnext

/-- The parts of a text are cut out at the offsets where they stand in it. -/
theorem splitSlices?_eq (sep : Char) (s : List Char) :
    splitSlices? sep s = some (placed sep 0 (splitTop sep s)) := by
  obtain ⟨part, rest, hs⟩ := exists_splitFrom sep top s
  have hsplit := splitFromSlices?_eq [] [] hs
  rw [splitSlices?, splitTop, hs]
  simpa using hsplit

end Found

end RouteSheet.Text
