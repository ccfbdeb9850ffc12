import Mathlib.Data.List.TakeDrop
import RouteSheet.Http.Message
import RouteSheet.Proofs.Http.Lines

/-!
# Reading a head line by line

A head can be read one line after the other, where every line is charged against what is
left of the limit. A line is looked at no further than one byte beyond that, which tells
that it does not fit. Reading in this way never charges more than is left, and comes to the
head of the connection or to the same failure.
-/

namespace RouteSheet.Http

/-- Why no further line comes from a client that sends no more. -/
def endError : Ending → RequestError
  | .closed => .headMissing
  | .stalled => .timedOut

/-- Reads a line from what is there within one byte more than the budget. A line without a line
feed is one when the client has closed; a client that stalls in it is waited for in vain. -/
def readLine (ending : Ending) (budget : Nat) (bytes : List UInt8) :
    Except RequestError (List UInt8) :=
  let line := (cutLines (bytes.take (budget + 1))).headD []
  if budget < line.length then .error .headTooLarge
  else if isEnded line || (ending == .closed && !line.isEmpty) then .ok line
  else .error (endError ending)

/-- What is left of a budget that a line is charged against; the line may not be longer. -/
def charge? (budget : Nat) (line : List UInt8) : Option Nat :=
  if line.length ≤ budget then some (budget - line.length) else none

/-- What stands in the way of a line when none can be read within a budget. -/
def lineError (ending : Ending) (budget : Nat) (bytes : List UInt8) : RequestError :=
  if budget < bytes.length then .headTooLarge else endError ending

section

variable {s bytes line : List UInt8} {lines : List (List UInt8)} {ending : Ending} {budget : Nat}

/-- Where nothing is left to read, no line is read. -/
theorem readLine_nil (ending : Ending) (budget : Nat) :
    readLine ending budget [] = .error (lineError ending budget []) := by
  cases ending <;> rfl

/-- No line is read where more bytes than the budget come before a line feed. -/
theorem readLine_of_long (hs : lineFeed ∉ bytes.take (budget + 1)) (hlong : budget < bytes.length) :
    readLine ending budget bytes = .error (lineError ending budget bytes) := by
  have hlength : (bytes.take (budget + 1)).length = budget + 1 :=
    List.length_take_of_le (Nat.succ_le_of_lt hlong)
  have hsome : bytes.take (budget + 1) ≠ [] := by
    rw [← List.length_pos_iff, hlength]
    exact Nat.succ_pos budget
  rw [readLine, cutLines_open hs hsome, List.headD_cons, hlength, if_pos (Nat.lt_succ_self budget),
    lineError, if_pos hlong]

/-- A line without a line feed is read when it fits the budget and the client has closed. -/
theorem readLine_open (hs : lineFeed ∉ s) (hne : s ≠ []) :
    readLine ending budget s =
      if ending = .closed ∧ s.length ≤ budget then .ok s
      else .error (lineError ending budget s) := by
  by_cases hfit : s.length ≤ budget
  · have hall : s.take (budget + 1) = s := List.take_of_length_le (Nat.le_succ_of_le hfit)
    rw [readLine, hall, cutLines_open hs hne, List.headD_cons]
    simp only [Nat.not_lt.mpr hfit, isEnded_open hs, List.isEmpty_eq_false_iff.mpr hne,
      Bool.not_false, Bool.and_true, Bool.false_or, beq_iff_eq, ite_false, hfit, and_true,
      lineError]
  · have hwindow : lineFeed ∉ s.take (budget + 1) := fun h => hs (List.mem_of_mem_take h)
    rw [readLine_of_long hwindow (Nat.lt_of_not_le hfit), if_neg fun h => hfit h.2]

/-- A line that is ended is read when it fits the budget, its line feed included. -/
theorem readLine_ended (hs : lineFeed ∉ s) (rest : List UInt8) :
    readLine ending budget (s ++ lineFeed :: rest) =
      if s.length < budget then .ok (s ++ [lineFeed])
      else .error (lineError ending budget (s ++ lineFeed :: rest)) := by
  have hlength : (s ++ lineFeed :: rest).length = s.length + (rest.length + 1) := by
    rw [List.length_append, List.length_cons]
  by_cases hline : s.length ≤ budget
  · obtain ⟨k, rfl⟩ : ∃ k, budget = s.length + k := Nat.exists_eq_add_of_le hline
    have hended : (s ++ [lineFeed]).length = s.length + 1 := List.length_append
    rw [readLine, Nat.add_assoc, List.take_length_add_append, List.take_succ_cons,
      cutLines_ended hs, List.headD_cons, hended]
    by_cases hfit : s.length < s.length + k
    · have hcharged : ¬ s.length + k < s.length + 1 := by omega
      simp only [if_neg hcharged, isEnded_ended, Bool.true_or, ite_true, if_pos hfit]
    · have hcharged : s.length + k < s.length + 1 := by omega
      have hlong : s.length + k < (s ++ lineFeed :: rest).length := by omega
      rw [if_pos hcharged, if_neg hfit, lineError, if_pos hlong]
  · have hwindow : (s ++ lineFeed :: rest).take (budget + 1) = s.take (budget + 1) :=
      List.take_append_of_le_length (Nat.lt_of_not_le hline)
    have hopen : lineFeed ∉ (s ++ lineFeed :: rest).take (budget + 1) := by
      rw [hwindow]
      exact fun h => hs (List.mem_of_mem_take h)
    rw [readLine_of_long hopen (by omega), if_neg fun h => hline (Nat.le_of_lt h)]

/-- No line is read where none is within the budget. -/
theorem readLine_of_nil (h : linesWithin ending budget bytes = []) :
    readLine ending budget bytes = .error (lineError ending budget bytes) := by
  rcases firstLine_cases bytes with rfl | ⟨hne, hs⟩ | ⟨s, rest, hs, rfl⟩
  · exact readLine_nil ending budget
  · rw [linesWithin_open hs hne] at h
    rw [readLine_open hs hne]
    split
    · next hfit => rw [if_pos hfit] at h; exact absurd h (List.cons_ne_nil _ _)
    · rfl
  · rw [linesWithin_ended hs] at h
    rw [readLine_ended hs]
    split
    · next hfit => rw [if_pos hfit] at h; exact absurd h (List.cons_ne_nil _ _)
    · rfl

/-- The first line within the budget is read and can be charged. Behind it stand the other lines,
within what is left of the budget, and what stands in the way behind them is the same. -/
theorem readLine_of_cons (h : linesWithin ending budget bytes = line :: lines) :
    readLine ending budget bytes = .ok line ∧
      charge? budget line = some (budget - line.length) ∧
      linesWithin ending (budget - line.length) (bytes.drop line.length) = lines ∧
      lineError ending (budget - line.length) (bytes.drop line.length) =
        lineError ending budget bytes := by
  rcases firstLine_cases bytes with rfl | ⟨hne, hs⟩ | ⟨s, rest, hs, rfl⟩
  · exact absurd ((linesWithin_nil ending budget).symm.trans h) (List.cons_ne_nil line lines).symm
  · rw [linesWithin_open hs hne] at h
    split at h
    · next hfit =>
      obtain ⟨rfl, rfl⟩ := List.cons.inj h
      rw [readLine_open hs hne, if_pos hfit, charge?, if_pos hfit.2, List.drop_length]
      refine ⟨rfl, rfl, linesWithin_nil ending _, ?_⟩
      have hnone : ¬ budget - bytes.length < ([] : List UInt8).length := Nat.not_lt_zero _
      rw [lineError, lineError, if_neg hnone, if_neg (Nat.not_lt.mpr hfit.2)]
    · exact absurd h (List.cons_ne_nil line lines).symm
  · rw [linesWithin_ended hs] at h
    split at h
    · next hfit =>
      obtain ⟨rfl, rfl⟩ := List.cons.inj h
      have hlength : (s ++ [lineFeed]).length = s.length + 1 := List.length_append
      have hdrop : (s ++ lineFeed :: rest).drop (s.length + 1) = rest := by
        rw [List.drop_length_add_append, List.drop_succ_cons, List.drop_zero]
      rw [readLine_ended hs, if_pos hfit, charge?, hlength, if_pos (Nat.succ_le_of_lt hfit), hdrop]
      refine ⟨rfl, rfl, rfl, ?_⟩
      have hlonger : budget < (s ++ lineFeed :: rest).length ↔
          budget - (s.length + 1) < rest.length := by
        rw [List.length_append, List.length_cons]
        omega
      simp only [lineError, hlonger]
    · exact absurd h (List.cons_ne_nil line lines).symm

/-- Behind a line that is read there are fewer bytes. -/
theorem length_drop_of_readLine (h : readLine ending budget bytes = .ok line) :
    (bytes.drop line.length).length < bytes.length := by
  have hbytes : bytes ≠ [] := by
    rintro rfl
    exact nomatch (readLine_nil ending budget).symm.trans h
  have hline : line ≠ [] := by
    rintro rfl
    simp only [readLine] at h
    split at h
    · exact nomatch h
    · split at h
      · next hend =>
        rw [Except.ok.inj h] at hend
        exact absurd hend (by cases ending <;> decide)
      · exact nomatch h
  rw [List.length_drop]
  exact Nat.sub_lt (List.length_pos_iff.mpr hbytes) (List.length_pos_iff.mpr hline)

end

/-- Reads the lines up to the first blank one, and that one. Nothing comes of a line that is
charged against too small a budget. -/
def readHeaders (ending : Ending) (budget : Nat) (bytes : List UInt8) :
    Option (Except RequestError (List (List UInt8) × List UInt8)) :=
  match _h : readLine ending budget bytes with
  | .error e => some (.error e)
  | .ok line =>
    (charge? budget line).bind fun left =>
      if isBlankLine line then some (.ok ([], line))
      else
        (readHeaders ending left (bytes.drop line.length)).map fun read =>
          read.map fun (headers, blank) => (line :: headers, blank)
termination_by bytes.length
decreasing_by exact length_drop_of_readLine _h

/-- Reads a head line by line. Nothing comes of a line that is charged against too small a
budget. -/
def Connection.readHead (c : Connection) : Option (Except RequestError (Head × String × String)) :=
  match readLine c.ending headLimit c.bytes with
  | .error e => some (.error e)
  | .ok first =>
    (charge? headLimit first).bind fun left =>
      match requestLine? (lineText first) with
      | none => some (.error .badRequestLine)
      | some (method, target) =>
        (readHeaders c.ending left (c.bytes.drop first.length)).map fun read =>
          read.map fun (headers, blank) => (⟨first, headers, blank⟩, method, target)

section

variable {bytes line : List UInt8} {lines : List (List UInt8)} {ending : Ending} {budget : Nat}

/-- The lines before the first blank one, and that one. -/
def headersIn (error : RequestError) (lines : List (List UInt8)) :
    Except RequestError (List (List UInt8) × List UInt8) :=
  match lines.dropWhile fun line => !isBlankLine line with
  | [] => .error error
  | blank :: _ => .ok (lines.takeWhile fun line => !isBlankLine line, blank)

/-- Where a line is not read, the headers are not read. -/
theorem readHeaders_error {e : RequestError} (h : readLine ending budget bytes = .error e) :
    readHeaders ending budget bytes = some (.error e) := by
  rw [readHeaders]
  split
  · next h' => rw [Except.error.inj (h.symm.trans h')]
  · next h' => exact nomatch h.symm.trans h'

/-- A line that is read is charged to the budget, and ends the headers or stands in front of the
others. -/
theorem readHeaders_ok (h : readLine ending budget bytes = .ok line) :
    readHeaders ending budget bytes = (charge? budget line).bind fun left =>
      if isBlankLine line then some (.ok ([], line))
      else
        (readHeaders ending left (bytes.drop line.length)).map fun read =>
          read.map fun (headers, blank) => (line :: headers, blank) := by
  rw [readHeaders]
  split
  · next h' => exact nomatch h.symm.trans h'
  · next h' => rw [Except.ok.inj (h.symm.trans h')]

/-- A line ends the headers if it is blank, and otherwise stands in front of the others. -/
theorem headersIn_cons (error : RequestError) (line : List UInt8) (lines : List (List UInt8)) :
    headersIn error (line :: lines) =
      if isBlankLine line then .ok ([], line)
      else (headersIn error lines).map fun (headers, blank) => (line :: headers, blank) := by
  unfold headersIn
  rw [List.takeWhile_cons, List.dropWhile_cons]
  cases isBlankLine line with
  | true => rfl
  | false =>
    simp only [Bool.not_false, ite_true, Bool.false_eq_true, ite_false]
    cases lines.dropWhile fun line => !isBlankLine line <;> rfl

/-- The lines up to the first blank one are read from those within the budget, which lose their
first one with every line that is read. -/
theorem readHeaders_eq (ending : Ending) (budget : Nat) (bytes : List UInt8) :
    readHeaders ending budget bytes =
      some (headersIn (lineError ending budget bytes) (linesWithin ending budget bytes)) := by
  generalize hlines : linesWithin ending budget bytes = lines
  induction lines generalizing budget bytes with
  | nil => exact readHeaders_error (readLine_of_nil hlines)
  | cons line lines ih =>
    obtain ⟨hread, hcharge, hbehind, herror⟩ := readLine_of_cons hlines
    rw [readHeaders_ok hread, hcharge, Option.bind_some, ih _ _ hbehind, herror, Option.map_some,
      headersIn_cons]
    split <;> rfl

/-- Reading a head line by line never charges a line against too small a budget, and comes to the
head of the connection or to the failure that it comes to. -/
theorem Connection.readHead_eq (c : Connection) : c.readHead = some c.head := by
  have herror : c.headError = lineError c.ending headLimit c.bytes := by
    simp only [headError, lineError, exceedsHead, decide_eq_true_eq]
    cases c.ending <;> rfl
  have hlines : c.headLines = linesWithin c.ending headLimit c.bytes := rfl
  rw [readHead, head, hlines, herror]
  cases hfirst : linesWithin c.ending headLimit c.bytes with
  | nil => rw [readLine_of_nil hfirst]
  | cons first lines =>
    obtain ⟨hread, hcharge, hbehind, hlater⟩ := readLine_of_cons hfirst
    simp only [hread, hcharge, Option.bind_some]
    cases requestLine? (lineText first) with
    | none => rfl
    | some found =>
      simp only [readHeaders_eq, hbehind, hlater, Option.map_some, headersIn,
        List.span_eq_takeWhile_dropWhile]
      cases lines.dropWhile fun line => !isBlankLine line <;> rfl

end

end RouteSheet.Http
