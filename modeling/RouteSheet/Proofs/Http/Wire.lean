import RouteSheet.Http.Server
import RouteSheet.Proofs.Sheet.Status
import RouteSheet.Proofs.Text.Bytes

/-!
# Responses on the wire

A response is a head of four lines, a blank line and a body. A client finds the body
behind the first blank line and takes as many bytes of it as the head says, so a line of
the head that had a line end inside it, or a length that is not that of the body, would
let the text of a body pass for something else. What a request, a database or an
expression brings reaches the wire in two places only: as a status code, which is a
number of three digits, and as the body.
-/

namespace RouteSheet

/-- The route that answers is one of the routes. -/
theorem Route.mem_of_find? {routes : List Route} {method path : String} {route : Route}
    {captures : List (String × String)}
    (h : Route.find? routes method path = some (route, captures)) : route ∈ routes := by
  obtain ⟨found, hfound, hcaptures⟩ := List.exists_of_findSome?_eq_some h
  split at hcaptures
  · obtain ⟨_, -, heq⟩ := Option.map_eq_some_iff.mp hcaptures
    rwa [← (Prod.mk.inj heq).1]
  · exact nomatch hcaptures

namespace Http

open Text

/-- A carriage return and a line feed, which end a line on the wire. -/
def crlf : List UInt8 := [carriageReturn, lineFeed]

/-- The end of the last line of a head and a blank line. -/
def headEnd : List UInt8 := crlf ++ crlf

section

variable {line rest before after body : List UInt8} {lines : List (List UInt8)}

/-- A head does not end inside a line that has no carriage return: its end begins with one. -/
theorem exists_of_line_append (hline : carriageReturn ∉ line)
    (h : line ++ rest = before ++ (headEnd ++ after)) :
    ∃ between, before = line ++ between ∧ rest = between ++ (headEnd ++ after) := by
  rcases List.append_eq_append_iff.mp h with ⟨between, hbefore, hrest⟩ | ⟨inside, hl, hend⟩
  · exact ⟨between, hbefore, hrest⟩
  · cases inside with
    | nil => exact ⟨[], by rw [hl, List.append_nil, List.append_nil], hend.symm⟩
    | cons b inside =>
      have hb : carriageReturn = b := (List.cons.inj hend).1
      rw [hl, ← hb] at hline
      exact absurd (List.mem_append_right _ List.mem_cons_self) hline

/-- Nor does it end with a line behind which another one begins. -/
theorem exists_of_line_crlf_append (hline : carriageReturn ∉ line)
    (hrest : rest.head? ≠ some carriageReturn)
    (h : line ++ (crlf ++ rest) = before ++ (headEnd ++ after)) :
    ∃ between, before = line ++ (crlf ++ between) ∧ rest = between ++ (headEnd ++ after) := by
  obtain ⟨between, rfl, hbetween⟩ := exists_of_line_append hline h
  match between with
  | [] =>
    have hfirst : rest = crlf ++ after := (List.cons.inj (List.cons.inj hbetween).2).2
    rw [hfirst] at hrest
    exact absurd rfl hrest
  | [b] =>
    have hfeed : lineFeed = carriageReturn := (List.cons.inj (List.cons.inj hbetween).2).1
    exact absurd hfeed (by decide)
  | b :: d :: between =>
    obtain ⟨hb, htail⟩ := List.cons.inj hbetween
    obtain ⟨hd, hrest'⟩ := List.cons.inj htail
    rw [← hb, ← hd]
    exact ⟨between, rfl, hrest'⟩

/-- Joined lines begin as the first of them does. -/
theorem head?_intercalate_append (hline : line ≠ []) :
    (crlf.intercalate (line :: lines) ++ rest).head? = line.head? := by
  obtain ⟨b, line, rfl⟩ := List.exists_cons_of_ne_nil hline
  cases lines with
  | nil => rw [List.intercalate_singleton, List.cons_append, List.head?_cons, List.head?_cons]
  | cons next lines =>
    rw [List.intercalate_cons_cons, List.append_assoc, List.append_assoc, List.cons_append,
      List.head?_cons, List.head?_cons]

/-- Lines with a content and without a carriage return end where the first blank line is. Each is
passed as a whole, with its end when another line follows. -/
theorem length_intercalate_le (hlines : ∀ line ∈ lines, line ≠ [] ∧ carriageReturn ∉ line)
    (h : crlf.intercalate lines ++ (headEnd ++ body) = before ++ (headEnd ++ after)) :
    (crlf.intercalate lines).length ≤ before.length := by
  induction lines generalizing before with
  | nil => exact Nat.zero_le _
  | cons line lines ih =>
    obtain ⟨hline, hlater⟩ := List.forall_mem_cons.mp hlines
    cases lines with
    | nil =>
      rw [List.intercalate_singleton] at h ⊢
      obtain ⟨between, rfl, -⟩ := exists_of_line_append hline.2 h
      rw [List.length_append]
      exact Nat.le_add_right _ _
    | cons next lines =>
      obtain ⟨hnext, hreturn⟩ := (List.forall_mem_cons.mp hlater).1
      have hfirst : (crlf.intercalate (next :: lines) ++ (headEnd ++ body)).head? ≠
          some carriageReturn := by
        rw [head?_intercalate_append hnext]
        exact fun hhead => hreturn (List.mem_of_head? hhead)
      rw [List.intercalate_cons_cons] at h ⊢
      rw [List.append_assoc, List.append_assoc] at h
      obtain ⟨between, rfl, hrest⟩ := exists_of_line_crlf_append hline.2 hfirst h
      have hle := ih hlater hrest
      simp only [List.length_append] at hle ⊢
      omega

end

/-- A text that can stand on a line: one with a content and without a carriage return. -/
def IsLine (text : List Char) : Prop := text ≠ [] ∧ '\r' ∉ text

instance (text : List Char) : Decidable (IsLine text) :=
  inferInstanceAs (Decidable (text ≠ [] ∧ '\r' ∉ text))

/-- A line stays one when text without carriage return is added. -/
theorem IsLine.append {text more : List Char} (h : IsLine text) (hmore : '\r' ∉ more) :
    IsLine (text ++ more) :=
  ⟨List.append_ne_nil_of_left_ne_nil h.1 more, fun hmem =>
    (List.mem_append.mp hmem).elim h.2 hmore⟩

/-- Decimal digits that write a number. -/
structure Numeral (n : Nat) where
  digits : List Char
  ne_nil : digits ≠ []
  isDigit : ∀ c ∈ digits, Text.isDigit c
  value : natOfDigits digits = n

namespace Numeral

variable {n : Nat}

/-- The numeral without leading zeros. -/
def ofNat (n : Nat) : Numeral n where
  digits := natDigits n
  ne_nil := natDigits_ne_nil n
  isDigit _ := isDigit_of_mem_natDigits
  value := natOfDigits_natDigits n

/-- Digits are a line. -/
theorem isLine (numeral : Numeral n) : IsLine numeral.digits :=
  ⟨numeral.ne_nil, fun h => absurd (numeral.isDigit _ h) (by decide)⟩

end Numeral

/-- Words on one line. -/
structure Phrase where
  text : List Char
  ne_nil : text ≠ []
  noReturn : '\r' ∉ text
  noFeed : '\n' ∉ text

/-- A response as a client is to find it: a code of three digits, words for it, the media type
of the body, and the length of the body in bytes. -/
structure Frame where
  status : Nat
  inRange : 100 ≤ status ∧ status ≤ 999
  code : Numeral status
  threeDigits : code.digits.length = 3
  reason : Phrase
  kind : BodyKind
  body : String
  length : Numeral (bytesOf body.toList).length

namespace Frame

variable (frame : Frame)

/-- The lines of the head. -/
def lines : List (List Char) :=
  ["HTTP/1.1 ".toList ++ (frame.code.digits ++ (" ".toList ++ frame.reason.text)),
   "Content-Type: ".toList ++ frame.kind.contentType.toList,
   "Content-Length: ".toList ++ frame.length.digits,
   "Connection: close".toList]

/-- The bytes of the head, up to the blank line. -/
def head : List UInt8 := crlf.intercalate (frame.lines.map bytesOf)

/-- The bytes of the response. -/
def bytes : List UInt8 := frame.head ++ (headEnd ++ bytesOf frame.body.toList)

/-- No line of the head is empty or has a carriage return in it. -/
theorem lines_isLine : ∀ line ∈ frame.lines, IsLine line := by
  have hkind : '\r' ∉ frame.kind.contentType.toList := by
    cases frame.kind <;> decide
  have hblank : IsLine " ".toList := by decide
  have hstatus : '\r' ∉ frame.code.digits ++ (" ".toList ++ frame.reason.text) :=
    (frame.code.isLine.append (hblank.append frame.reason.noReturn).2).2
  have hversion : IsLine "HTTP/1.1 ".toList := by decide
  have htype : IsLine "Content-Type: ".toList := by decide
  have hlength : IsLine "Content-Length: ".toList := by decide
  have hclose : IsLine "Connection: close".toList := by decide
  simp only [lines, List.forall_mem_cons]
  exact ⟨hversion.append hstatus, htype.append hkind, hlength.append frame.length.isLine.2,
    hclose, fun _ h => nomatch h⟩

/-- The first blank line of a response ends its head. -/
theorem length_head_le {before after : List UInt8}
    (h : frame.bytes = before ++ (headEnd ++ after)) : frame.head.length ≤ before.length := by
  refine length_intercalate_le (fun bytes hbytes => ?_) h
  obtain ⟨line, hline, rfl⟩ := List.mem_map.mp hbytes
  obtain ⟨hne, hreturn⟩ := frame.lines_isLine line hline
  exact ⟨fun hnil => hne (bytesOf_eq_nil_iff.mp hnil),
    fun hmem => hreturn ((mem_bytesOf_iff (by decide)).mp hmem)⟩

end Frame

/-- The words of every status fit on a line. -/
def Phrase.ofStatus (status : Nat) : Phrase where
  text := (reason status).toList
  ne_nil := by unfold reason; split <;> decide
  noReturn := by unfold reason; split <;> decide
  noFeed := by unfold reason; split <;> decide

namespace Reply

variable (reply : Reply)

/-- The status of the reply is a status code. -/
def InRange : Prop := 100 ≤ reply.status ∧ reply.status ≤ 999

/-- The status of a request without route is in range. -/
theorem inRange_notFound : notFound.InRange := (by decide : 100 ≤ 404 ∧ 404 ≤ 999)

/-- The status of a request that is refused is in range. -/
theorem inRange_rejected (e : RequestError) : (rejected e).InRange :=
  (by decide : 100 ≤ 400 ∧ 400 ≤ 999)

/-- A status that a response leaves open is 200. -/
theorem inRange_ofResponse {response : Response}
    (h : ∀ code, response.status = some code → isStatusCode code) :
    (ofResponse response).InRange := by
  rw [InRange, ofResponse]
  cases hstatus : response.status with
  | none => exact (by decide : 100 ≤ 200 ∧ 200 ≤ 999)
  | some code => exact isStatusCode_iff.mp (h code hstatus)

/-- What a reply with a status code is to look like on the wire. -/
def frame (h : reply.InRange) : Frame where
  status := reply.status
  inRange := h
  code := .ofNat reply.status
  threeDigits := length_natDigits_eq_three h
  reason := .ofStatus reply.status
  kind := reply.kind
  body := reply.body
  length := .ofNat (bytesOf reply.body.toList).length

/-- A reply is sent as its frame. -/
theorem render_bytes (h : reply.InRange) :
    reply.render.toUTF8.data.toList = (reply.frame h).bytes := by
  have hend : bytesOf lineEnd.toList = crlf := by decide
  rw [toUTF8_toList, Frame.bytes, Frame.head, Frame.lines]
  unfold render head
  simp only [String.toList_append, toList_intText, bytesOf_append, hend]
  simp only [frame, Numeral.ofNat, Phrase.ofStatus, length_bytesOf, List.map_cons, List.map_nil,
    List.intercalate_cons_cons, List.intercalate_singleton, bytesOf_append, headEnd,
    List.append_assoc]

/-- The bytes sent for a reply are those of a frame with its status, kind and body, and the
first blank line in them is the one that ends the head. -/
def Framed : Prop :=
  ∃ frame : Frame,
    (frame.status = reply.status ∧ frame.kind = reply.kind ∧ frame.body = reply.body) ∧
    reply.render.toUTF8.data.toList = frame.bytes ∧
    ∀ before after, frame.bytes = before ++ (headEnd ++ after) →
      frame.head.length ≤ before.length

/-- A reply whose status is in range is framed. -/
theorem framed (h : reply.InRange) : reply.Framed :=
  ⟨reply.frame h, ⟨rfl, rfl, rfl⟩, reply.render_bytes h, fun _ _ => Frame.length_head_le _⟩

end Reply

section

variable {σ : Type} {app : App σ}

/-- Where every fixed status is a status code, every reply has one. -/
theorem respond_inRange (h : ∀ route ∈ app.routes, route.StatusInRange) (c : Connection) (s : σ) :
    (respond app c s).1.InRange := by
  cases hc : c.message with
  | error e =>
    rw [respond, hc]
    exact Reply.inRange_rejected e
  | ok m =>
    simp only [respond, hc, answer, App.handle]
    cases hfind : Route.find? app.routes m.method (splitTarget m.target).1 with
    | none => exact Reply.inRange_notFound
    | some found =>
      obtain ⟨route, captures⟩ := found
      exact Reply.inRange_ofResponse fun _ =>
        Route.isStatusCode_of_run (h route (Route.mem_of_find? hfind))

/-- A server sends frames for as long as it runs. -/
theorem framed_of_mem_serve (h : ∀ route ∈ app.routes, route.StatusInRange)
    (connections : List Connection) (s : σ) :
    ∀ reply ∈ (serve app connections s).1, reply.Framed := by
  induction connections generalizing s with
  | nil => exact fun _ hreply => absurd hreply List.not_mem_nil
  | cons c connections ih =>
    exact List.forall_mem_cons.mpr ⟨Reply.framed _ (respond_inRange h c s), ih _⟩

end

/-- Every response to a connection is framed, whatever the client sends and however it ends,
whatever the sheet declares and whatever the database holds. -/
theorem respond_framed (env : Environment) (text : List Char) {σ : Type}
    (database : Option (Executor σ)) (c : Connection) (s : σ) :
    (respond ⟨(Sheet.load env text).built.routes, database⟩ c s).1.Framed :=
  Reply.framed _ (respond_inRange (fun _ => Sheet.statusInRange_of_mem_routes) c s)

end Http

end RouteSheet
