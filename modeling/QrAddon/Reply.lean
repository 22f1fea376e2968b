import QrAddon.Login

/-!
# The handlers of the replies

Each request has a handler for ROKIT's reply. It takes the document apart with accessors
that have preconditions, tests for a member `error`, and tests nothing else.

Results:
1. `handled_iff`: a handler stays within the preconditions exactly when the document is an
   error with a code and a message, or a response with the members that the handler reads.
   There the session id comes from a string of the document.
2. `not_handled`: an array, and an object without members.
-/

namespace QrAddon

/-- The branch of a handler for a document with a member `error`: what it logs. -/
def logError (doc : Json) : Option (List String) := do
  let err1 ← Json.reader.path doc ["error", "code"]
  let err2 ← Json.reader.path doc ["error", "message"]
  -- both members are there; their kinds have not been looked at
  let code ← err1.getInt
  let message ← err2.getString
  return ["RPC Error code:  ", toString code, "RPC Error message:  ", cString message]

/-- `PraseResponseGLA`: what it logs, `none` if an accessor is misused. -/
def RpcClientGLA.PraseResponseGLA (doc : Json) : Option (List String) := do
  if ← doc.hasMember "error" then
    logError doc
  else
    let res1 ← Json.reader.path doc ["result", "response", "observationId"]
    let observationId ← res1.getInt64
    let res2 ← Json.reader.path doc ["result", "response", "responseCode"]
    let responseCode ← res2.getUint64
    return ["RPC observationId: ", toString observationId, "RPC responseCode: ",
      toString responseCode]

/-- `PraseResponseSETS`: what it logs, `none` if an accessor is misused. -/
def RpcClientSetSeed.PraseResponseSETS (doc : Json) : Option (List String) := do
  if ← doc.hasMember "error" then
    logError doc
  else
    let res ← Json.reader.path doc ["result", "response", "responseCode"]
    let responseCode ← res.getUint64
    return ["RPC responseCode: ", toString responseCode]

/-! ## The shapes of a reply -/

/-- An error with a code in the range of an `int` and a message. -/
def ErrorReply (doc : Json) : Prop :=
  ∃ error code message, doc.Has "error" error ∧ error.Has "code" (.int code) ∧
    -2 ^ 31 ≤ code ∧ code < 2 ^ 31 ∧ error.Has "message" (.string message)

/-- No error, and a response. -/
def Response (doc response : Json) : Prop :=
  (∀ error, ¬ doc.Has "error" error) ∧
    ∃ result, doc.Has "result" result ∧ result.Has "response" response

def HasResponseCode (response : Json) : Prop :=
  ∃ code : ℕ, response.Has "responseCode" (.int code) ∧ code < 2 ^ 64

def GLAReply (doc : Json) : Prop :=
  ∃ response observationId, Response doc response ∧
    response.Has "observationId" (.int observationId) ∧ -2 ^ 63 ≤ observationId ∧
    observationId < 2 ^ 63 ∧ HasResponseCode response

def SETSReply (doc : Json) : Prop := ∃ response, Response doc response ∧ HasResponseCode response

def LogInReply (doc : Json) (sessionId : String) : Prop :=
  ∃ response, Response doc response ∧ HasResponseCode response ∧
    response.Has "sessionId" (.string sessionId)

namespace ReplyLemmas

variable {doc v : Json}

/-- There is one response. -/
theorem response_unique {response response' : Json} (h : Response doc response)
    (h' : Response doc response') : response = response' := by
  obtain ⟨_, result, hresult, hresponse⟩ := h
  obtain ⟨_, result', hresult', hresponse'⟩ := h'
  obtain rfl := hresult.unique hresult'
  exact hresponse.unique hresponse'

/-- A handler tests for an error first, and the test needs an object. -/
theorem handler_eq_some {α : Type} {onError onResponse : Option α} {x : α} :
    ((doc.hasMember "error").bind fun hasError => if hasError then onError else onResponse) =
        some x ↔
      (∃ error, doc.Has "error" error) ∧ onError = some x ∨
        (∃ members, doc = .object members) ∧ (∀ error, ¬ doc.Has "error" error) ∧
          onResponse = some x := by
  rw [← Json.hasMember_eq_true, ← and_assoc, ← Json.hasMember_eq_false]
  cases doc.hasMember "error" with
  | none => simp
  | some hasError => cases hasError <;> simp

/-- The accesses of an error. -/
theorem error_iff : (∃ err1 err2 code message,
      Json.reader.path doc ["error", "code"] = some err1 ∧
      Json.reader.path doc ["error", "message"] = some err2 ∧ err1.getInt = some code ∧
      err2.getString = some message) ↔ ErrorReply doc := by
  simp only [Json.path_cons, Json.path_nil, Option.some.injEq, Json.getInt_eq_some,
    Json.getString_eq_some, ErrorReply]
  constructor
  · rintro ⟨_, _, code, message, ⟨error, herror, _, hcode, rfl⟩,
      ⟨error', herror', _, hmessage, rfl⟩, ⟨rfl, hrange⟩, rfl⟩
    obtain rfl := herror.unique herror'
    exact ⟨error, code, message, herror, hcode, hrange.1, hrange.2, hmessage⟩
  · rintro ⟨error, code, message, herror, hcode, hlow, hhigh, hmessage⟩
    exact ⟨_, _, code, message, ⟨error, herror, _, hcode, rfl⟩, ⟨error, herror, _, hmessage, rfl⟩,
      ⟨rfl, hlow, hhigh⟩, rfl⟩

/-- An access to a response. -/
theorem response_iff {key : String} (h : ∀ error, ¬ doc.Has "error" error) :
    Json.reader.path doc ["result", "response", key] = some v ↔
      ∃ response, Response doc response ∧ response.Has key v := by
  simp only [Json.path_cons, Json.path_nil, Option.some.injEq, Response]
  constructor
  · rintro ⟨result, hresult, response, hresponse, w, hw, rfl⟩
    exact ⟨response, ⟨h, result, hresult, hresponse⟩, hw⟩
  · rintro ⟨response, ⟨_, result, hresult, hresponse⟩, hv⟩
    exact ⟨result, hresult, response, hresponse, v, hv, rfl⟩

/-- A document with a response is an object. -/
theorem object_of_response {response : Json} (h : Response doc response) :
    ∃ members, doc = .object members := by
  obtain ⟨_, result, ⟨before, after, hdoc, _⟩, _⟩ := h
  exact ⟨_, hdoc⟩

theorem logError_isSome : (∃ x, logError doc = some x) ↔ ErrorReply doc := by
  rw [← error_iff]
  simp only [logError, Option.bind_eq_bind, Option.bind_eq_some_iff]
  constructor
  · rintro ⟨x, err1, h1, err2, h2, code, hcode, message, hmessage, _⟩
    exact ⟨err1, err2, code, message, h1, h2, hcode, hmessage⟩
  · rintro ⟨err1, err2, code, message, h1, h2, hcode, hmessage⟩
    exact ⟨_, err1, h1, err2, h2, code, hcode, message, hmessage, rfl⟩

/-- A handler that logs an error stays within the preconditions for an error, and for what
its other branch takes. -/
theorem handler_isSome {onResponse : Option (List String)} {Reply : Prop}
    (h : (∀ error, ¬ doc.Has "error" error) → ((∃ x, onResponse = some x) ↔ Reply))
    (hreply : Reply → ∃ response, Response doc response) :
    (∃ x, ((doc.hasMember "error").bind fun hasError =>
        if hasError then logError doc else onResponse) = some x) ↔ ErrorReply doc ∨ Reply := by
  simp only [handler_eq_some, exists_or, exists_and_left, logError_isSome]
  constructor
  · rintro (⟨_, herror⟩ | ⟨_, hno, hresponse⟩)
    · exact .inl herror
    · exact .inr ((h hno).mp hresponse)
  · rintro (herror | hr)
    · obtain ⟨error, code, message, hhas, hrest⟩ := herror
      exact .inl ⟨⟨error, hhas⟩, error, code, message, hhas, hrest⟩
    · obtain ⟨response, hresponse⟩ := hreply hr
      exact .inr ⟨object_of_response hresponse, hresponse.1, (h hresponse.1).mpr hr⟩

theorem PraseResponseGLA_isSome :
    (∃ x, RpcClientGLA.PraseResponseGLA doc = some x) ↔ ErrorReply doc ∨ GLAReply doc := by
  refine handler_isSome ?_ fun ⟨response, _, h, _⟩ => ⟨response, h⟩
  intro hno
  simp only [Option.bind_eq_bind, Option.bind_eq_some_iff, response_iff hno, Json.getInt64_eq_some,
    Json.getUint64_eq_some, GLAReply, HasResponseCode]
  constructor
  · rintro ⟨_, _, ⟨response, hresponse, hid⟩, id, ⟨rfl, hlow, hhigh⟩, _,
      ⟨response', hresponse', hcode⟩, code, ⟨rfl, hlt⟩, _⟩
    obtain rfl := response_unique hresponse hresponse'
    exact ⟨response, id, hresponse, hid, hlow, hhigh, code, hcode, hlt⟩
  · rintro ⟨response, id, hresponse, hid, hlow, hhigh, code, hcode, hlt⟩
    exact ⟨_, _, ⟨response, hresponse, hid⟩, id, ⟨rfl, hlow, hhigh⟩, _,
      ⟨response, hresponse, hcode⟩, code, ⟨rfl, hlt⟩, rfl⟩

theorem PraseResponseSETS_isSome :
    (∃ x, RpcClientSetSeed.PraseResponseSETS doc = some x) ↔ ErrorReply doc ∨ SETSReply doc := by
  refine handler_isSome ?_ fun ⟨response, h, _⟩ => ⟨response, h⟩
  intro hno
  simp only [Option.bind_eq_bind, Option.bind_eq_some_iff, response_iff hno,
    Json.getUint64_eq_some, SETSReply, HasResponseCode]
  constructor
  · rintro ⟨_, _, ⟨response, hresponse, hcode⟩, code, ⟨rfl, hlt⟩, _⟩
    exact ⟨response, hresponse, code, hcode, hlt⟩
  · rintro ⟨response, hresponse, code, hcode, hlt⟩
    exact ⟨_, _, ⟨response, hresponse, hcode⟩, code, ⟨rfl, hlt⟩, rfl⟩

/-- What the handler of a login leaves: the string as it was behind an error, and the text
of a response. -/
theorem PraseResponseLogIn_eq_some {sessionId sessionId' : String} :
    RpcClientSessLogIn.PraseResponseLogIn Json.reader doc sessionId = some sessionId' ↔
      ErrorReply doc ∧ sessionId' = sessionId ∨
        ∃ text, LogInReply doc text ∧ sessionId' = cString text := by
  have hhandler : RpcClientSessLogIn.PraseResponseLogIn Json.reader doc sessionId =
      some sessionId' ↔ _ := handler_eq_some
  rw [hhandler]
  simp only [Option.bind_eq_bind, Option.bind_eq_some_iff, Option.pure_def, Option.some.injEq,
    Json.reader_getInt, Json.reader_getUint64, Json.reader_getString]
  constructor
  · rintro (⟨_, err1, h1, err2, h2, code, hcode, message, hmessage, rfl⟩ |
      ⟨_, hno, res1, h1, code, hcode, res2, h2, text, htext, rfl⟩)
    · exact .inl ⟨error_iff.mp ⟨err1, err2, code, message, h1, h2, hcode, hmessage⟩, rfl⟩
    · obtain ⟨response, hresponse, hcode'⟩ := (response_iff hno).mp h1
      obtain ⟨response', hresponse', htext'⟩ := (response_iff hno).mp h2
      obtain rfl := response_unique hresponse hresponse'
      obtain ⟨rfl, hlt⟩ := Json.getUint64_eq_some.mp hcode
      obtain rfl := Json.getString_eq_some.mp htext
      exact .inr ⟨text, ⟨response, hresponse, ⟨code, hcode', hlt⟩, htext'⟩, rfl⟩
  · rintro (⟨herror, rfl⟩ | ⟨text, ⟨response, hresponse, ⟨code, hcode, hlt⟩, htext⟩, rfl⟩)
    · obtain ⟨err1, err2, code, message, h1, h2, hcode, hmessage⟩ := error_iff.mpr herror
      obtain ⟨error, _, _, hhas, _⟩ := herror
      exact .inl ⟨⟨error, hhas⟩, err1, h1, err2, h2, code, hcode, message, hmessage, rfl⟩
    · have h1 := (response_iff hresponse.1).mpr ⟨response, hresponse, hcode⟩
      have h2 := (response_iff hresponse.1).mpr ⟨response, hresponse, htext⟩
      have hcode : (Json.int code).getUint64 = some code :=
        Json.getUint64_eq_some.mpr ⟨rfl, hlt⟩
      exact .inr ⟨object_of_response hresponse, hresponse.1, _, h1, code, hcode, _, h2, text, rfl,
        rfl⟩

end ReplyLemmas

open ReplyLemmas

/-- For every document: each handler stays within the preconditions of the accessors exactly
when the document is an error with a code and a message, or a response with what the
handler reads. There the handler of a login leaves the string as it was, or the text of a string
at `result.response.sessionId`. -/
theorem handled_iff (doc : Json) :
    ((∃ lines, RpcClientGLA.PraseResponseGLA doc = some lines) ↔
        ErrorReply doc ∨ GLAReply doc) ∧
      ((∃ lines, RpcClientSetSeed.PraseResponseSETS doc = some lines) ↔
        ErrorReply doc ∨ SETSReply doc) ∧
      ∀ sessionId,
        ((∃ sessionId', RpcClientSessLogIn.PraseResponseLogIn Json.reader doc sessionId =
            some sessionId') ↔ ErrorReply doc ∨ ∃ text, LogInReply doc text) ∧
        ∀ sessionId', RpcClientSessLogIn.PraseResponseLogIn Json.reader doc sessionId =
            some sessionId' →
          sessionId' = sessionId ∨ ∃ result response text, doc.Has "result" result ∧
            result.Has "response" response ∧ response.Has "sessionId" (.string text) ∧
            sessionId' = cString text := by
  refine ⟨PraseResponseGLA_isSome, PraseResponseSETS_isSome, fun sessionId => ⟨?_, ?_⟩⟩
  · simp only [PraseResponseLogIn_eq_some, exists_or]
    simp only [exists_and_left, exists_eq, and_true]
    rw [exists_comm]
    simp only [exists_and_left, exists_eq, and_true]
  · intro sessionId' h
    rcases PraseResponseLogIn_eq_some.mp h with ⟨_, rfl⟩ | ⟨text, hreply, rfl⟩
    · exact .inl rfl
    · obtain ⟨response, ⟨_, result, hresult, hresponse⟩, _, htext⟩ := hreply
      exact .inr ⟨result, response, text, hresult, hresponse, htext, rfl⟩

/-- Neither an object without members nor an array is handled by any of the three. -/
theorem not_handled :
    (RpcClientGLA.PraseResponseGLA (.object []) = none ∧
      RpcClientSetSeed.PraseResponseSETS (.object []) = none ∧
      RpcClientSessLogIn.PraseResponseLogIn Json.reader (.object []) "" = none) ∧
    (RpcClientGLA.PraseResponseGLA (.array []) = none ∧
      RpcClientSetSeed.PraseResponseSETS (.array []) = none ∧
      RpcClientSessLogIn.PraseResponseLogIn Json.reader (.array []) "" = none) :=
  ⟨⟨rfl, rfl, rfl⟩, rfl, rfl, rfl⟩

end QrAddon
