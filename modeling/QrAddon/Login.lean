import QrAddon.Effect
import QrAddon.Lib.Json

/-!
# The session id of a request

`getSessionId` empties two strings, posts a login and copies what the reply's callback
left in the first string to the second one. The callback runs once for each piece of the
reply, or not at all, and writes the string only for a response. `getSessionId` notices
an empty id and logs it; `main` posts its request all the same.

The reply is what the server and curl make of it: a list of pieces, each parsed or not.
A piece on which a JSON accessor would be misused has no outcome here: what the library does
then is not defined.

Results:
1. `sessionLogIn_eq`: what the callbacks leave is the id of the last piece that is a
   response.
2. `authenticated_iff`: in every run, the requests of a branch carry the non-empty id of
   its login exactly when the login returned one.
3. `unauthenticated_seed`: no reply, and a request without an id.
-/

namespace QrAddon

section

variable [Doubles]

/-- A `std::string` made of a `const char *` ends in front of the first NUL. -/
def cString (s : String) : String := String.ofList (s.toList.takeWhile fun c => c ≠ Char.ofNat 0)

/-- The pieces of a reply, `none` for one with a parse error. -/
abbrev Reply (V : Type) := List (Option V)

section

variable {V : Type} (j : JsonReader V)

namespace RpcClientSessLogIn

/-- `PraseResponseLogIn` on the static string. -/
def PraseResponseLogIn (doc : V) (sessionId : String) : Option String := do
  if ← j.hasMember doc "error" then
    let err1 ← j.path doc ["error", "code"]
    let err2 ← j.path doc ["error", "message"]
    let _ ← j.getInt err1
    let _ ← j.getString err2
    return sessionId
  else
    let res1 ← j.path doc ["result", "response", "responseCode"]
    let _ ← j.getUint64 res1
    let res2 ← j.path doc ["result", "response", "sessionId"]
    return cString (← j.getString res2)

def writeCbLogIn (sessionId : String) (piece : Option V) : Option String :=
  match piece with
  | none => some sessionId
  | some doc => PraseResponseLogIn j doc sessionId

/-- `sessionLogIn`: the callback runs for every piece. -/
def sessionLogIn (reply : Reply V) (sessionId : String) : Option String :=
  reply.foldlM (writeCbLogIn j) sessionId

end RpcClientSessLogIn

/-- The static string of the login client and the string of `main`. -/
structure SessionIds where
  login : String
  main : String

/-- `getSessionId`, as far as it concerns the strings. -/
def SessionIds.getSessionId (ids : SessionIds) (reply : Reply V) : Option SessionIds := do
  let ids := { ids with main := "" }
  let ids := { ids with login := "" }
  let sessionId ← RpcClientSessLogIn.sessionLogIn j reply ids.login
  let ids := { ids with login := sessionId }
  return { ids with main := ids.login }

/-- The id that a piece of a reply carries, if the piece is a response. -/
def pieceId : Option V → Option String
  | none => none
  | some doc =>
    if j.hasMember doc "error" = some false then
      ((j.path doc ["result", "response", "sessionId"]).bind j.getString).map cString
    else none

/-- The id that a login returns: the one of the last response among the pieces. -/
def returnedId (reply : Reply V) : Option String := (reply.filterMap (pieceId j)).getLast?

end

/-! ## Runs with logins -/

/-- What a branch leaves behind for this module: the row that its look-up returned, the
reply to its login, if it logs in, and what it sent. -/
structure BranchRecord (V : Type) where
  row : Option UserRow
  reply : Reply V
  sent : List Event

/-- The variables of `main` with the two strings, and the branches that have run. -/
structure Session (V : Type) where
  main : Main
  ids : SessionIds
  branches : List (BranchRecord V)

/-- The inputs of an iteration, with the reply to the login of each branch. -/
structure LoginSighting (V : Type) where
  sighting : Sighting
  replyRec : Reply V
  replyLoc : Reply V

inductive SessionAct (V : Type)
  | sighting (i : LoginSighting V)
  | toggle (id : UInt32) (enable : Bool)

/-- The modes of the branches that a step of a session runs, in order. -/
def SessionAct.modes {V : Type} : SessionAct V → List Mode
  | .toggle _ _ => []
  | .sighting i =>
    (if i.sighting.body.mode3 = .recording then [.recording] else []) ++
      if i.sighting.body.mode4 = .localization then [.localization] else []

section

variable {V : Type} (j : JsonReader V) (cfg : Config ℚ) (account : Account)

/-- The branch of a mode. -/
def branchOf (deviInfo : CustomerPackage ℚ) (env : BranchEnv) : Mode → Turn → Turn
  | .recording => recordingBranch cfg account deviInfo env
  | .localization => localizationBranch cfg account env
  | .init => id

/-- A branch with its login: behind a look-up that returns an enabled row, the request
carries the string of `main` as `getSessionId` left it. -/
def sessionBranch (deviInfo : CustomerPackage ℚ) (env : BranchEnv) (mode : Mode)
    (reply : Reply V) (u : Turn × SessionIds × List (BranchRecord V)) :
    Option (Turn × SessionIds × List (BranchRecord V)) := do
  let (t, ids, branches) := u
  let (found, looked) := t.retrieve env mode
  let ids ← (if found = true ∧ looked.dm.enable = true then ids.getSessionId j reply
    else some ids)
  let t' := branchOf cfg account deviInfo { env with sessionId := ids.main } mode t
  let row := UserDb.lookedUp t.user env.lookup t.dm.id
  return (t', ids, branches ++ [⟨row, reply, t'.events.drop t.events.length⟩])

/-- An iteration. -/
def sessionIterate (s : Session V) (i : LoginSighting V) : Option (Session V) := do
  let b := i.sighting.body
  let u := (s.main.turn i.sighting, s.ids, s.branches)
  let u ← (if b.mode3 = .recording then
    sessionBranch j cfg account b.deviInfo b.envRec .recording i.replyRec u else some u)
  let u ← (if b.mode4 = .localization then
    sessionBranch j cfg account b.deviInfo b.envLoc .localization i.replyLoc u else some u)
  return ⟨u.1.toMain, u.2.1, u.2.2⟩

def sessionAct (s : Session V) : SessionAct V → Option (Session V)
  | .sighting i => sessionIterate j cfg account s i
  | .toggle id enable => some { s with main := act cfg account s.main (.toggle id enable) }

/-- A run, `none` if an accessor is misused on the way. The strings may hold anything at
its start. -/
def runSession (ids : SessionIds) (l : List (SessionAct V)) : Option (Session V) :=
  l.foldlM (sessionAct j cfg account) ⟨Main.start, ids, []⟩

end

/-- The session id of an observation or a seed. -/
def Event.sessionId? : Event → Option String
  | .addObservation q => some q.sessionId
  | .setSeed q => some q.sessionId
  | .lookup _ _ | .login _ | .diag _ | .fit _ => none

/-- Every observation and every seed of the branch carries a non-empty id, the one that
the branch's login returned. -/
def BranchRecord.Authenticated {V : Type} (j : JsonReader V) (b : BranchRecord V) : Prop :=
  ∀ e ∈ b.sent, ∀ sessionId, e.sessionId? = some sessionId →
    sessionId ≠ "" ∧ returnedId j b.reply = some sessionId

namespace LoginLemmas

variable {V : Type} {j : JsonReader V}

omit [Doubles] in
/-- A piece leaves its id, or the string as it was. -/
theorem writeCbLogIn_eq {sessionId sessionId' : String} {piece : Option V}
    (h : RpcClientSessLogIn.writeCbLogIn j sessionId piece = some sessionId') :
    sessionId' = (pieceId j piece).getD sessionId := by
  cases piece with
  | none => exact (Option.some.inj h).symm
  | some doc =>
    simp only [RpcClientSessLogIn.writeCbLogIn, RpcClientSessLogIn.PraseResponseLogIn,
      Option.bind_eq_bind] at h
    obtain ⟨hasError, herror, h⟩ := Option.bind_eq_some_iff.mp h
    cases hasError with
    | true =>
      rw [if_pos rfl] at h
      obtain ⟨err1, _, h⟩ := Option.bind_eq_some_iff.mp h
      obtain ⟨err2, _, h⟩ := Option.bind_eq_some_iff.mp h
      obtain ⟨code, _, h⟩ := Option.bind_eq_some_iff.mp h
      obtain ⟨message, _, h⟩ := Option.bind_eq_some_iff.mp h
      simp only [pieceId, herror]
      exact (Option.some.inj h).symm
    | false =>
      rw [if_neg (by decide)] at h
      obtain ⟨res1, _, h⟩ := Option.bind_eq_some_iff.mp h
      obtain ⟨code, _, h⟩ := Option.bind_eq_some_iff.mp h
      obtain ⟨res2, hpath, h⟩ := Option.bind_eq_some_iff.mp h
      obtain ⟨text, htext, h⟩ := Option.bind_eq_some_iff.mp h
      have hid : pieceId j (some doc) = some (cString text) := by
        simp [pieceId, herror, hpath, htext]
      rw [hid]
      exact (Option.some.inj h).symm

end LoginLemmas

open LoginLemmas

variable {V : Type} {j : JsonReader V}

omit [Doubles] in
/-- A login leaves the id that it returns, or the string as it was. -/
theorem sessionLogIn_eq {reply : Reply V} {sessionId sessionId' : String}
    (h : RpcClientSessLogIn.sessionLogIn j reply sessionId = some sessionId') :
    sessionId' = (returnedId j reply).getD sessionId := by
  induction reply generalizing sessionId with
  | nil => exact (Option.some.inj h).symm
  | cons piece reply ih =>
    obtain ⟨left, hpiece, hrest⟩ := Option.bind_eq_some_iff.mp h
    have hleft := writeCbLogIn_eq hpiece
    have hrest : sessionId' = (returnedId j reply).getD left := ih hrest
    unfold returnedId at hrest ⊢
    cases hid : pieceId j piece with
    | none =>
      rw [hid] at hleft
      rw [List.filterMap_cons_none hid, hrest, hleft]
      rfl
    | some id =>
      rw [hid] at hleft
      rw [List.filterMap_cons_some hid, List.getLast?_cons, hrest, hleft]
      rfl

omit [Doubles] in
/-- `getSessionId` leaves nothing of what the strings held before. -/
theorem getSessionId_main {ids ids' : SessionIds} {reply : Reply V}
    (h : ids.getSessionId j reply = some ids') : ids'.main = (returnedId j reply).getD "" := by
  obtain ⟨sessionId, hlogin, h⟩ := Option.bind_eq_some_iff.mp h
  obtain rfl := Option.some.inj h
  exact sessionLogIn_eq hlogin

/-- The branch's look-up did not return an enabled row, or its login returned a non-empty
id. -/
def BranchRecord.Answered (j : JsonReader V) (b : BranchRecord V) : Prop :=
  ∀ r ∈ b.row, r.enable = true → ∃ id ∈ returnedId j b.reply, id ≠ ""

instance (b : BranchRecord V) : Decidable (b.Answered j) :=
  inferInstanceAs (Decidable (∀ r ∈ b.row, _ → ∃ id ∈ returnedId j b.reply, _))

namespace LoginLemmas

variable {cfg : Config ℚ} {account : Account} {deviInfo : CustomerPackage ℚ} {env : BranchEnv}
  {mode : Mode} {t : Turn}

theorem branchOf_eq (h : t.whetherCb = false) (hm : mode ≠ .init) :
    branchOf cfg account deviInfo env mode t = effect cfg account deviInfo env mode t := by
  cases mode with
  | recording => exact recordingBranch_eq h
  | localization => exact localizationBranch_eq h
  | init => exact absurd rfl hm

/-- The test in front of a login is that of the row. -/
theorem retrieve_enabled (h : t.whetherCb = false) :
    (t.retrieve env mode).1 = true ∧ (t.retrieve env mode).2.dm.enable = true ↔
      (UserDb.lookedUp t.user env.lookup t.dm.id).any (·.enable) = true := by
  simp only [Turn.retrieve, h, UserDb.retrieveUsrDb_eq]
  cases UserDb.lookedUp t.user env.lookup t.dm.id with
  | none => simp
  | some r => simp [UserDb.loaded]

/-- A branch runs with the string of `main` that its login left, if it logs in, and adds
its record. -/
theorem sessionBranch_cases {reply : Reply V} {ids : SessionIds}
    {branches : List (BranchRecord V)} {u' : Turn × SessionIds × List (BranchRecord V)}
    (h : t.whetherCb = false)
    (hb : sessionBranch j cfg account deviInfo env mode reply (t, ids, branches) = some u') :
    ∃ ids' : SessionIds,
      u' = (branchOf cfg account deviInfo { env with sessionId := ids'.main } mode t, ids',
        branches ++ [⟨UserDb.lookedUp t.user env.lookup t.dm.id, reply,
          (branchOf cfg account deviInfo { env with sessionId := ids'.main } mode t).events.drop
            t.events.length⟩]) ∧
      ((UserDb.lookedUp t.user env.lookup t.dm.id).any (·.enable) = true →
        ids'.main = (returnedId j reply).getD "") := by
  simp only [sessionBranch, Option.bind_eq_bind] at hb
  obtain ⟨ids', hids, hb⟩ := Option.bind_eq_some_iff.mp hb
  obtain rfl := Option.some.inj hb
  refine ⟨ids', rfl, ?_⟩
  intro hany
  rw [if_pos ((retrieve_enabled h).mpr hany)] at hids
  exact getSessionId_main hids

variable (j cfg account) in
/-- The record of a branch: what it looked up and what it sent, with the session id that its
login returned if the row is enabled. -/
def Ran (mode : Mode) (b : BranchRecord V) : Prop :=
  ∃ (deviInfo : CustomerPackage ℚ) (env : BranchEnv) (t : Turn),
    b.row = UserDb.lookedUp t.user env.lookup t.dm.id ∧
    b.sent = (effect cfg account deviInfo env mode t).events.drop t.events.length ∧
    (b.row.any (·.enable) = true → env.sessionId = (returnedId j b.reply).getD "")

variable (j cfg account) in
/-- What a run keeps: the flag of the look-ups, and the records of the branches so far, one
for each of their modes. -/
def SessionRan (flag : Bool) (modes : List Mode) (branches : List (BranchRecord V)) : Prop :=
  flag = false ∧ List.Forall₂ (Ran j cfg account) modes branches

theorem sessionBranch_ran {reply : Reply V} {modes : List Mode}
    {u u' : Turn × SessionIds × List (BranchRecord V)}
    (h : SessionRan j cfg account u.1.whetherCb modes u.2.2) (hm : mode ≠ .init)
    (hb : sessionBranch j cfg account deviInfo env mode reply u = some u') :
    SessionRan j cfg account u'.1.whetherCb (modes ++ [mode]) u'.2.2 := by
  obtain ⟨t, ids, branches⟩ := u
  obtain ⟨hflag, hran⟩ := h
  obtain ⟨ids', rfl, hid⟩ := sessionBranch_cases hflag hb
  refine ⟨?_, List.rel_append hran (.cons ⟨deviInfo, { env with sessionId := ids'.main }, t, rfl,
    ?_, hid⟩ .nil)⟩
  · rw [branchOf_eq hflag hm]
    exact effect_whetherCb hflag
  · rw [branchOf_eq hflag hm]

theorem sessionAct_ran {s s' : Session V} {a : SessionAct V} {modes : List Mode}
    (h : SessionRan j cfg account s.main.whetherCb modes s.branches)
    (ha : sessionAct j cfg account s a = some s') :
    SessionRan j cfg account s'.main.whetherCb (modes ++ a.modes) s'.branches := by
  cases a with
  | toggle id enable =>
    obtain rfl := Option.some.inj ha
    rw [SessionAct.modes, List.append_nil]
    exact h
  | sighting i =>
    simp only [sessionAct, sessionIterate, Option.bind_eq_bind] at ha
    obtain ⟨u, hrec, ha⟩ := Option.bind_eq_some_iff.mp ha
    obtain ⟨u', hloc, ha⟩ := Option.bind_eq_some_iff.mp ha
    obtain rfl := Option.some.inj ha
    rw [SessionAct.modes, ← List.append_assoc]
    have hu : SessionRan j cfg account u.1.whetherCb
        (modes ++ if i.sighting.body.mode3 = .recording then [.recording] else []) u.2.2 := by
      by_cases hmode : i.sighting.body.mode3 = .recording
      · rw [if_pos hmode] at hrec ⊢
        exact sessionBranch_ran (u := (s.main.turn i.sighting, s.ids, s.branches)) h
          (by decide) hrec
      · rw [if_neg hmode] at hrec ⊢
        obtain rfl := Option.some.inj hrec
        rw [List.append_nil]
        exact h
    by_cases hmode : i.sighting.body.mode4 = .localization
    · rw [if_pos hmode] at hloc ⊢
      exact sessionBranch_ran hu (by decide) hloc
    · rw [if_neg hmode] at hloc ⊢
      obtain rfl := Option.some.inj hloc
      rw [List.append_nil]
      exact hu

/-- The records of a run correspond to the modes of its branches. -/
theorem session_ran {ids : SessionIds} {l : List (SessionAct V)} {s : Session V}
    (h : runSession j cfg account ids l = some s) :
    List.Forall₂ (Ran j cfg account) (l.flatMap SessionAct.modes) s.branches := by
  have hrun : ∀ (l : List (SessionAct V)) (modes : List Mode) (s s' : Session V),
      SessionRan j cfg account s.main.whetherCb modes s.branches →
        l.foldlM (sessionAct j cfg account) s = some s' →
          SessionRan j cfg account s'.main.whetherCb (modes ++ l.flatMap SessionAct.modes)
            s'.branches := by
    intro l
    induction l with
    | nil =>
      intro modes s s' hs hl
      obtain rfl := Option.some.inj hl
      rw [List.flatMap_nil, List.append_nil]
      exact hs
    | cons a l ih =>
      intro modes s s' hs hl
      obtain ⟨s1, ha, hl⟩ := Option.bind_eq_some_iff.mp hl
      rw [List.flatMap_cons, ← List.append_assoc]
      exact ih _ s1 s' (sessionAct_ran hs ha) hl
  have hstart : SessionRan j cfg account Main.start.whetherCb [] [] := ⟨rfl, .nil⟩
  exact (hrun l [] _ s hstart h).2

/-- Every branch of a run has run in some mode. -/
theorem ran_of_mem {ids : SessionIds} {l : List (SessionAct V)} {s : Session V}
    (h : runSession j cfg account ids l = some s) {b : BranchRecord V} (hb : b ∈ s.branches) :
    ∃ m, (m, b) ∈ (l.flatMap SessionAct.modes).zip s.branches ∧ Ran j cfg account m b := by
  obtain ⟨hlen, hzip⟩ := List.forall₂_iff_zip.mp (session_ran h)
  rw [← List.map_snd_zip hlen.ge] at hb
  obtain ⟨⟨m, b'⟩, hmem, rfl⟩ := List.mem_map.mp hb
  exact ⟨m, hmem, hzip hmem⟩

/-- What a function of posts that depends on the session id sees of a branch. -/
theorem ran_posts {β : Type} {f : Event → Option β} (hf : Event.SeesPosts f)
    {g : String → Option β}
    (hg : ∀ deviInfo env t dm rpcId,
      f (requestOf cfg deviInfo env t mode dm rpcId) = g env.sessionId)
    {b : BranchRecord V} (h : Ran j cfg account mode b) :
    b.sent.filterMap f =
      if b.row.any (·.enable) = true then (g ((returnedId j b.reply).getD "")).toList else [] := by
  obtain ⟨deviInfo, env, t, hrow, hsent, hid⟩ := h
  rw [hsent, effect_posts cfg account deviInfo env mode t hf, ← hrow]
  cases hb : b.row with
  | none => rfl
  | some r =>
    rw [hb] at hid
    by_cases hon : r.enable = true
    · have hid := hid hon
      simp [Option.filter, hon, hg, hid]
    · simp [Option.filter, hon]

omit [Doubles] in
theorem sessionId?_posts : Event.SeesPosts Event.sessionId? :=
  ⟨fun _ _ => rfl, fun _ => rfl, fun _ => rfl, fun _ => rfl⟩

/-- A branch is authenticated exactly when its login is answered. -/
theorem authenticated_of_ran {b : BranchRecord V} (h : Ran j cfg account mode b) :
    b.Authenticated j ↔ b.Answered j := by
  have hsent : b.sent.filterMap Event.sessionId? =
      if b.row.any (·.enable) = true then [(returnedId j b.reply).getD ""] else [] := by
    refine ran_posts (g := some) sessionId?_posts ?_ h
    intro deviInfo env t dm rpcId
    unfold requestOf
    split <;> rfl
  have hmem (s : String) : (∃ e ∈ b.sent, e.sessionId? = some s) ↔
      b.row.any (·.enable) = true ∧ s = (returnedId j b.reply).getD "" := by
    rw [← List.mem_filterMap, hsent]
    split <;> simp_all
  have hrow : b.row.any (·.enable) = true ↔ ∃ r ∈ b.row, r.enable = true := by
    cases b.row <;> simp
  constructor
  · intro h r hr hon
    have hany := hrow.mpr ⟨r, hr, hon⟩
    obtain ⟨e, he, hes⟩ := (hmem _).mpr ⟨hany, rfl⟩
    obtain ⟨hne, hret⟩ := h e he _ hes
    exact ⟨_, hret, hne⟩
  · intro h e he s hes
    obtain ⟨hany, rfl⟩ := (hmem s).mp ⟨e, he, hes⟩
    obtain ⟨r, hr, hon⟩ := hrow.mp hany
    obtain ⟨id, hret, hne⟩ := h r hr hon
    have hs : (returnedId j b.reply).getD "" = id := by rw [hret, Option.getD_some]
    rw [hs]
    exact ⟨hne, hret⟩

end LoginLemmas

/-- In every run, whatever the two strings held at its start, the requests of a branch
carry the non-empty id that the branch's login returned exactly when the branch sends
none or its login returned a non-empty id. -/
theorem authenticated_iff {cfg : Config ℚ} {account : Account} {ids : SessionIds}
    {l : List (SessionAct V)} {s : Session V} (h : runSession j cfg account ids l = some s)
    {b : BranchRecord V} (hb : b ∈ s.branches) : b.Authenticated j ↔ b.Answered j := by
  obtain ⟨_, _, hran⟩ := ran_of_mem h hb
  exact authenticated_of_ran hran

end

open scoped Exact

/-- The response to a login, as the server sends it. -/
def exResponse (id : String) : Json :=
  .object [("jsonrpc", .string "2.0"), ("id", .int 1), ("result", .object
    [("response", .object [("responseCode", .int 0), ("sessionId", .string id)])])]

/-- The code 7 is recorded and enabled, and located again, with a reply to the login of
that iteration. -/
def exLogin (reply : Reply Json) : List (SessionAct Json) :=
  [.sighting ⟨exSighting .recording 7 0, [], []⟩, .toggle 7 true,
    .sighting ⟨exSighting .localization 7 0, [], reply⟩]

/-- The branches of that run. -/
def exBranches (reply : Reply Json) : List (BranchRecord Json) :=
  (runSession Json.reader exConfig exAccount ⟨"old", "old"⟩ (exLogin reply)).elim [] (·.branches)

/-- A response with the id "abc". -/
theorem authenticated_exLogin :
    (exBranches [some (exResponse "abc")]).length = 2 ∧
      ∀ b ∈ exBranches [some (exResponse "abc")], b.Authenticated Json.reader := by
  refine ⟨by decide +kernel, ?_⟩
  obtain ⟨s, hs⟩ := Option.isSome_iff_exists.mp (by decide +kernel :
    (runSession Json.reader exConfig exAccount ⟨"old", "old"⟩
      (exLogin [some (exResponse "abc")])).isSome = true)
  have hanswered : ∀ b ∈ exBranches [some (exResponse "abc")], b.Answered Json.reader := by
    decide +kernel
  intro b hb
  have hmem : b ∈ s.branches := by
    rw [exBranches, hs] at hb
    exact hb
  exact (authenticated_iff hs hmem).mpr (hanswered b hb)

/-- No reply: the seed is sent all the same, with an empty id. -/
theorem unauthenticated_seed :
    ∃ b ∈ exBranches [], (∃ e ∈ b.sent, e.sessionId? = some "") ∧
      ¬ b.Authenticated Json.reader := by
  have hempty : ∃ b ∈ exBranches [], ∃ e ∈ b.sent, e.sessionId? = some "" := by decide +kernel
  obtain ⟨b, hb, e, he, hes⟩ := hempty
  refine ⟨b, hb, ⟨e, he, hes⟩, ?_⟩
  intro h
  exact (h e he "" hes).1 rfl

end QrAddon
