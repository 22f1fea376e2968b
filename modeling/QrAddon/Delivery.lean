import QrAddon.Reply

/-!
# How curl delivers a reply

Curl hands the body of a reply to the callback in pieces of its choice. The callback parses
each piece as a document of its own, and takes its text from the memory at the pointer, up
to a NUL: it does not look at the size of the piece.

Results:
1. `received_iff`: a login receives the session id of the body exactly when the last of the
   texts that are responses carries it, and no text is a document that the handler cannot
   take apart.
2. `not_received`: a body in two pieces, and no session id.
-/

namespace QrAddon

/-- A call of the callback: the piece of the body, and the memory behind it. -/
structure WriteCall where
  piece : List Char
  behind : List Char

/-- The text that `doc.Parse((char *)ptr)` sees. -/
def WriteCall.text (c : WriteCall) : List Char :=
  (c.piece ++ c.behind).takeWhile fun x => x ≠ Char.ofNat 0

/-- A body that is a response to a login, and the calls in which curl delivers it. -/
structure Delivery (parse : List Char → Option Json) where
  body : List Char
  doc : Json
  sessionId : String
  calls : List WriteCall
  parsed : parse body = some doc
  reply : LogInReply doc sessionId
  nonempty : ∀ c ∈ calls, c.piece ≠ []
  pieces : calls.flatMap WriteCall.piece = body

section

variable {parse : List Char → Option Json} (d : Delivery parse)

/-- What the callback makes of the calls. -/
def Delivery.replies : Reply Json := d.calls.map fun c => parse c.text

/-- The login leaves the session id of the body, whatever the strings held before. -/
def Delivery.Received : Prop :=
  ∀ ids : SessionIds, ∃ ids', ids.getSessionId Json.reader d.replies = some ids' ∧
    ids'.login = d.sessionId

/-- A text that the handler can take apart, if it parses. -/
def Readable (parse : List Char → Option Json) (c : WriteCall) : Prop :=
  ∀ doc, parse c.text = some doc → ErrorReply doc ∨ ∃ text, LogInReply doc text

/-- The text of a call is a response with that session id. -/
def Carries (parse : List Char → Option Json) (c : WriteCall) (text : String) : Prop :=
  ∃ doc, parse c.text = some doc ∧ LogInReply doc text

/-- The last call whose text is a response carries `id'`. Without such a call the string
stays `id`. -/
def LeavesId (parse : List Char → Option Json) (calls : List WriteCall) (id id' : String) : Prop :=
  (∃ before c after text, calls = before ++ c :: after ∧ Carries parse c text ∧
      id' = cString text ∧ ∀ c' ∈ after, ∀ text', ¬ Carries parse c' text') ∨
    id' = id ∧ ∀ c ∈ calls, ∀ text, ¬ Carries parse c text

end

namespace DeliveryLemmas

open ReplyLemmas

variable {parse : List Char → Option Json} {c : WriteCall} {calls : List WriteCall}
  {id id' : String}

theorem not_error_of_logIn {doc : Json} {text : String} (h : LogInReply doc text) :
    ¬ ErrorReply doc := by
  obtain ⟨response, hresponse, _⟩ := h
  rintro ⟨error, _, _, herror, _⟩
  exact hresponse.1 error herror

/-- One call: a readable text, and the string of a response or the string as it was. -/
theorem writeCbLogIn_iff :
    RpcClientSessLogIn.writeCbLogIn Json.reader id (parse c.text) = some id' ↔
      Readable parse c ∧ ((∃ text, Carries parse c text ∧ id' = cString text) ∨
        id' = id ∧ ∀ text, ¬ Carries parse c text) := by
  unfold Readable Carries
  cases hparse : parse c.text with
  | none => simp [RpcClientSessLogIn.writeCbLogIn, eq_comm]
  | some doc =>
    simp only [RpcClientSessLogIn.writeCbLogIn, PraseResponseLogIn_eq_some, Option.some.injEq,
      forall_eq', exists_eq_left']
    constructor
    · rintro (⟨herror, rfl⟩ | ⟨text, hreply, rfl⟩)
      · exact ⟨.inl herror, .inr ⟨rfl, fun text hreply => not_error_of_logIn hreply herror⟩⟩
      · exact ⟨.inr ⟨text, hreply⟩, .inl ⟨text, hreply, rfl⟩⟩
    · rintro ⟨hread, ⟨text, hreply, rfl⟩ | ⟨rfl, hno⟩⟩
      · exact .inr ⟨text, hreply, rfl⟩
      · rcases hread with herror | ⟨text, hreply⟩
        · exact .inl ⟨herror, rfl⟩
        · exact absurd hreply (hno text)

/-- What a first call leaves, and the others after it. -/
theorem leavesId_cons : LeavesId parse (c :: calls) id id' ↔
    ∃ id1, ((∃ text, Carries parse c text ∧ id1 = cString text) ∨
      id1 = id ∧ ∀ text, ¬ Carries parse c text) ∧ LeavesId parse calls id1 id' := by
  constructor
  · rintro (⟨before, c', after, text, hcalls, hcarries, rfl, hafter⟩ | ⟨rfl, hno⟩)
    · cases before with
      | nil =>
        -- the last response is the first call
        obtain ⟨rfl, rfl⟩ := List.cons.inj hcalls
        exact ⟨_, .inl ⟨text, hcarries, rfl⟩, .inr ⟨rfl, hafter⟩⟩
      | cons b before =>
        obtain ⟨rfl, rfl⟩ := List.cons.inj hcalls
        have hrest (id1 : String) : LeavesId parse (before ++ c' :: after) id1 (cString text) :=
          .inl ⟨before, c', after, text, rfl, hcarries, rfl, hafter⟩
        by_cases hfirst : ∃ text, Carries parse c text
        · obtain ⟨text1, hfirst⟩ := hfirst
          exact ⟨_, .inl ⟨text1, hfirst, rfl⟩, hrest _⟩
        · exact ⟨id, .inr ⟨rfl, not_exists.mp hfirst⟩, hrest _⟩
    · exact ⟨_, .inr ⟨rfl, hno c List.mem_cons_self⟩,
        .inr ⟨rfl, fun c' hc' => hno c' (List.mem_cons_of_mem c hc')⟩⟩
  · rintro ⟨id1, hfirst, ⟨before, c', after, text, rfl, hcarries, rfl, hafter⟩ | ⟨rfl, hno⟩⟩
    · exact .inl ⟨c :: before, c', after, text, rfl, hcarries, rfl, hafter⟩
    · rcases hfirst with ⟨text, hcarries, rfl⟩ | ⟨rfl, hfirst⟩
      · exact .inl ⟨[], c, calls, text, rfl, hcarries, rfl, hno⟩
      · exact .inr ⟨rfl, List.forall_mem_cons.mpr ⟨hfirst, hno⟩⟩

/-- All calls of a login. -/
theorem sessionLogIn_iff :
    RpcClientSessLogIn.sessionLogIn Json.reader (calls.map fun c => parse c.text) id = some id' ↔
      (∀ c ∈ calls, Readable parse c) ∧ LeavesId parse calls id id' := by
  induction calls generalizing id with
  | nil => simp [RpcClientSessLogIn.sessionLogIn, LeavesId, eq_comm]
  | cons c calls ih =>
    have hcons : RpcClientSessLogIn.sessionLogIn Json.reader
        ((c :: calls).map fun c => parse c.text) id = some id' ↔
          ∃ id1, RpcClientSessLogIn.writeCbLogIn Json.reader id (parse c.text) = some id1 ∧
            RpcClientSessLogIn.sessionLogIn Json.reader (calls.map fun c => parse c.text) id1 =
              some id' := Option.bind_eq_some_iff
    simp only [hcons, ih, writeCbLogIn_iff, leavesId_cons, List.forall_mem_cons]
    constructor
    · rintro ⟨id1, ⟨hread, hfirst⟩, hreads, hrest⟩
      exact ⟨⟨hread, hreads⟩, id1, hfirst, hrest⟩
    · rintro ⟨⟨hread, hreads⟩, id1, hfirst, hrest⟩
      exact ⟨id1, ⟨hread, hfirst⟩, hreads, hrest⟩

/-- `getSessionId` empties the string in front of the login. -/
theorem received_iff_sessionLogIn {d : Delivery parse} :
    d.Received ↔ RpcClientSessLogIn.sessionLogIn Json.reader d.replies "" = some d.sessionId := by
  unfold Delivery.Received SessionIds.getSessionId
  simp only [Option.bind_eq_bind, Option.bind_eq_some_iff, Option.pure_def, Option.some.injEq]
  constructor
  · intro h
    obtain ⟨_, ⟨id', hlogin, rfl⟩, hid⟩ := h ⟨"", ""⟩
    rw [hlogin]
    exact congrArg some hid
  · intro hlogin ids
    exact ⟨_, ⟨d.sessionId, hlogin, rfl⟩, rfl⟩

end DeliveryLemmas

open DeliveryLemmas

/-- For every body and every delivery of it: the login receives the session id of the body
exactly when the handler can take apart every text that parses, and the last text that is
a response carries that id. -/
theorem received_iff {parse : List Char → Option Json} (d : Delivery parse) :
    d.Received ↔ (∀ c ∈ d.calls, Readable parse c) ∧ LeavesId parse d.calls "" d.sessionId :=
  received_iff_sessionLogIn.trans sessionLogIn_iff

/-- A body without NULs that arrives in one call, in front of a NUL, is received, unless its
session id has a NUL. -/
theorem received_whole {parse : List Char → Option Json} {d : Delivery parse}
    {behind : List Char} (hcalls : d.calls = [⟨d.body, Char.ofNat 0 :: behind⟩])
    (hbody : Char.ofNat 0 ∉ d.body) (hid : cString d.sessionId = d.sessionId) : d.Received := by
  have htext : WriteCall.text ⟨d.body, Char.ofNat 0 :: behind⟩ = d.body := by
    have hkeep : ∀ x ∈ d.body, decide (x ≠ Char.ofNat 0) = true := by
      intro x hx
      exact decide_eq_true (ne_of_mem_of_not_mem hx hbody)
    rw [WriteCall.text, List.takeWhile_append_of_pos hkeep, List.takeWhile_cons_of_neg (by simp),
      List.append_nil]
  have hcarries : Carries parse ⟨d.body, Char.ofNat 0 :: behind⟩ d.sessionId := by
    refine ⟨d.doc, ?_, d.reply⟩
    rw [htext, d.parsed]
  rw [received_iff_sessionLogIn, Delivery.replies, sessionLogIn_iff, hcalls]
  constructor
  · intro c hc
    rw [List.mem_singleton.mp hc]
    intro doc hdoc
    rw [htext, d.parsed] at hdoc
    obtain rfl := Option.some.inj hdoc
    exact .inr ⟨d.sessionId, d.reply⟩
  · exact .inl ⟨[], _, [], d.sessionId, rfl, hcarries, hid.symm, nofun⟩

/-- The text of `exResponse "abc"`. -/
def exBody : List Char :=
  ("\x7b\"jsonrpc\":\"2.0\",\"id\":1,\"result\":\x7b\"response\":" ++
    "\x7b\"responseCode\":0,\"sessionId\":\"abc\"\x7d\x7d\x7d").toList

/-- A parser of that text. A part of the text is no document. -/
def exParse (text : List Char) : Option Json :=
  if text = exBody then some (exResponse "abc") else none

theorem logInReply_exResponse (id : String) : LogInReply (exResponse id) id := by
  have hhas {d v : Json} {key : String} (h : d.member key = some v) : d.Has key v :=
    Json.member_eq_some.mp h
  exact ⟨_, ⟨(Json.hasMember_eq_false.mp rfl).2, _, hhas rfl, hhas rfl⟩, ⟨0, hhas rfl, by decide⟩,
    hhas rfl⟩

/-- The text in two pieces, each in front of a NUL. -/
def exSplit : Delivery exParse where
  body := exBody
  doc := exResponse "abc"
  sessionId := "abc"
  calls := [⟨exBody.take 40, [Char.ofNat 0]⟩, ⟨exBody.drop 40, [Char.ofNat 0]⟩]
  parsed := if_pos rfl
  reply := logInReply_exResponse "abc"
  nonempty := by decide +kernel
  pieces := by simp [List.take_append_drop]

/-- Neither piece is a document, and the login returns no id. -/
theorem not_received : ¬ exSplit.Received := by
  rw [received_iff_sessionLogIn]
  decide +kernel

end QrAddon
