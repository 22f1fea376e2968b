import QrAddon.Login
import QrAddon.Restart
import QrAddon.Lib.JsonWriter

/-!
# The documents of the requests

The three `writeJson` functions call a writer once for every brace, name and value, with the
texts cut at a NUL by `c_str`. Here the calls stand in the order of the source, `ofJson` is
what a server takes from the document, by the names alone, and the two are compared. How the
calls become a text and how the server reads it is a `JsonWriter.Wire`.

Results:
1. `ofJson_document`: the calls of a request are those of one document, and a server reads the
   request from it that was to be sent.
2. `posted_read`: so it is for every request of every run, kills and operator updates in
   between, and the document is read back from the text if its numbers have one.
-/

namespace QrAddon

open JsonWriter

/-! ## The calls -/

/-- `writeJsonGLA`. -/
def RpcClientGLA.calls (q : AddObservation ℚ) : List Call :=
  [.startObject, .key "jsonrpc", .string q.jsonrpc, .key "method", .string (cString q.method),
    .key "params", .startObject, .key "query", .startObject, .key "sessionId",
    .string (cString q.sessionId), .key "observation", .startObject, .key "landmarkName",
    .string (cString q.landmarkName), .key "sensorName", .string (cString q.sensorName),
    .key "VEHICLEstaticCalibSENSOR", .startObject, .key "x", .double q.vehicleStaticCalibSensor.x,
    .key "y", .double q.vehicleStaticCalibSensor.y, .key "a",
    .double q.vehicleStaticCalibSensor.yaw, .endObject,
    .key "SENSORlandmark", .startObject, .key "x", .double q.sensorLandmark.x,
    .key "y", .double q.sensorLandmark.y, .key "a", .double q.sensorLandmark.yaw, .endObject,
    .key "MAPlandmark", .startObject, .key "x", .double q.mapLandmark.x,
    .key "y", .double q.mapLandmark.y, .key "a", .double q.mapLandmark.yaw, .endObject,
    .key "observationType", .int q.observationType.toNat, .key "calibrationType",
    .int q.calibrationType.toNat, .key "hasOrientation", .bool q.hasOrientation, .endObject,
    .endObject, .endObject, .key "id", .int q.id.toInt, .endObject]

/-- `writeJsonSetSeed`. -/
def RpcClientSetSeed.calls (q : SetSeed ℚ) : List Call :=
  [.startObject, .key "jsonrpc", .string q.jsonrpc, .key "method", .string (cString q.method),
    .key "params", .startObject, .key "query", .startObject, .key "sessionId",
    .string (cString q.sessionId), .key "enforceSeed", .bool q.enforceSeed,
    .key "uncertainSeed", .bool q.uncertainSeed, .key "seedPose", .startObject,
    .key "x", .double q.seedPose.x, .key "y", .double q.seedPose.y, .key "a",
    .double q.seedPose.yaw, .endObject,
    .endObject, .endObject, .key "id", .int q.id.toInt, .endObject]

/-- `writeJsonLogIn`. -/
def RpcClientSessLogIn.calls (q : SessionLogin) : List Call :=
  [.startObject, .key "jsonrpc", .string q.jsonrpc, .key "method", .string (cString q.method),
    .key "params", .startObject, .key "query", .startObject, .key "timeout", .startObject,
    .key "valid", .bool q.timeoutValid, .key "time", .int q.timeoutTime.toInt,
    .key "resolution", .int q.timeoutResolution, .endObject, .key "userName",
    .string (cString q.userName), .key "password", .string (cString q.password), .endObject,
    .endObject, .key "id", .int q.id.toInt, .endObject]

/-- The calls of a request. -/
def Event.calls : Event → Option (List Call)
  | .login q => some (RpcClientSessLogIn.calls q)
  | .addObservation q => some (RpcClientGLA.calls q)
  | .setSeed q => some (RpcClientSetSeed.calls q)
  | .lookup _ _ | .diag _ | .fit _ => none

/-! ## What a server reads -/

def Int64.ofJson (d : Json) : Option Int64 := d.getInt64.map Int64.ofInt

def UInt16.ofJson (d : Json) : Option UInt16 := d.getUint64.map UInt16.ofNat

def DmPose.ofJson (d : Json) : Option (DmPose ℚ) := do
  let x ← (← d.member "x").getDouble
  let y ← (← d.member "y").getDouble
  let yaw ← (← d.member "a").getDouble
  return ⟨x, y, yaw⟩

def SessionLogin.ofJson (d : Json) : Option SessionLogin := do
  let jsonrpc ← d.text "jsonrpc"
  let method ← d.text "method"
  let query ← Json.reader.path d ["params", "query"]
  let timeout ← query.member "timeout"
  let valid ← (← timeout.member "valid").getBool
  let time ← Int64.ofJson (← timeout.member "time")
  let resolution ← (← timeout.member "resolution").getInt64
  let userName ← query.text "userName"
  let password ← query.text "password"
  let id ← Int64.ofJson (← d.member "id")
  return ⟨jsonrpc, method, valid, time, resolution, userName, password, id⟩

def AddObservation.ofJson (d : Json) : Option (AddObservation ℚ) := do
  let jsonrpc ← d.text "jsonrpc"
  let method ← d.text "method"
  let query ← Json.reader.path d ["params", "query"]
  let sessionId ← query.text "sessionId"
  let observation ← query.member "observation"
  let landmarkName ← observation.text "landmarkName"
  let sensorName ← observation.text "sensorName"
  let vehicle ← DmPose.ofJson (← observation.member "VEHICLEstaticCalibSENSOR")
  let sensor ← DmPose.ofJson (← observation.member "SENSORlandmark")
  let map ← DmPose.ofJson (← observation.member "MAPlandmark")
  let observationType ← UInt16.ofJson (← observation.member "observationType")
  let calibrationType ← UInt16.ofJson (← observation.member "calibrationType")
  let hasOrientation ← (← observation.member "hasOrientation").getBool
  let id ← Int64.ofJson (← d.member "id")
  return ⟨jsonrpc, method, sessionId, landmarkName, sensorName, vehicle, sensor, map,
    observationType, calibrationType, hasOrientation, id⟩

def SetSeed.ofJson (d : Json) : Option (SetSeed ℚ) := do
  let jsonrpc ← d.text "jsonrpc"
  let method ← d.text "method"
  let query ← Json.reader.path d ["params", "query"]
  let sessionId ← query.text "sessionId"
  let enforceSeed ← (← query.member "enforceSeed").getBool
  let uncertainSeed ← (← query.member "uncertainSeed").getBool
  let seedPose ← DmPose.ofJson (← query.member "seedPose")
  let id ← Int64.ofJson (← d.member "id")
  return ⟨jsonrpc, method, sessionId, enforceSeed, uncertainSeed, seedPose, id⟩

/-- The method tells the kind of the request. -/
def Event.ofJson (d : Json) : Option Event := do
  let method ← d.text "method"
  if method = "sessionLogin" then return .login (← SessionLogin.ofJson d)
  else if method = "clientGlobalAlignAddObservation" then
    return .addObservation (← AddObservation.ofJson d)
  else if method = "clientLocalizationSetSeed" then return .setSeed (← SetSeed.ofJson d)
  else none

/-- The request with its texts cut by `c_str`. -/
def Event.cut : Event → Event
  | .login q => .login { q with
      method := cString q.method, userName := cString q.userName, password := cString q.password }
  | .addObservation q => .addObservation { q with
      method := cString q.method, sessionId := cString q.sessionId,
      landmarkName := cString q.landmarkName, sensorName := cString q.sensorName }
  | .setSeed q => .setSeed { q with
      method := cString q.method, sessionId := cString q.sessionId }
  | e => e

namespace DocumentLemmas

theorem ofJson_int64 (n : Int64) : Int64.ofJson (.int n.toInt) = some n := by
  have hlower := Int64.le_toInt n
  have hupper := Int64.toInt_lt n
  rw [Int64.ofJson, Json.getInt64, if_pos ⟨hlower, hupper⟩, Option.map_some, Int64.ofInt_toInt]

theorem ofJson_uint16 (n : UInt16) : UInt16.ofJson (.int n.toNat) = some n := by
  have hupper := n.toNat_lt
  rw [UInt16.ofJson, Json.getUint64, if_pos ⟨by omega, by omega⟩, Option.map_some,
    Int.toNat_natCast, UInt16.ofNat_toNat]

theorem bind_some {α β : Type} {x : Option α} {f : α → Option β} {a : α} {b : β}
    (hx : x = some a) (hf : f a = some b) : x >>= f = some b := by
  rw [hx]
  exact hf

/-- The object of a pose. -/
def poseDocument (p : DmPose ℚ) : Json :=
  .object [("x", .double p.x), ("y", .double p.y), ("a", .double p.yaw)]

theorem writes_pose (p : DmPose ℚ) :
    Writes [.startObject, .key "x", .double p.x, .key "y", .double p.y, .key "a", .double p.yaw,
      .endObject] (poseDocument p) :=
  .object (by simp) <| .cons "x" (.double _) <| .cons "y" (.double _) <|
    .cons "a" (.double _) .nil

theorem writes_int64 (n : Int64) : Writes [.int n.toInt] (.int n.toInt) :=
  .int ⟨Int64.le_toInt n, Int64.toInt_lt n⟩

theorem writes_uint16 (n : UInt16) : Writes [.int n.toNat] (.int n.toNat) :=
  .int ⟨by omega, by have := n.toNat_lt; omega⟩

theorem ofJson_pose (p : DmPose ℚ) : DmPose.ofJson (poseDocument p) = some p := rfl

/-! ### Login -/

def loginDocument (q : SessionLogin) : Json :=
  .object [("jsonrpc", .string q.jsonrpc), ("method", .string (cString q.method)),
    ("params", .object [("query", .object [
      ("timeout", .object [("valid", .bool q.timeoutValid), ("time", .int q.timeoutTime.toInt),
        ("resolution", .int q.timeoutResolution)]),
      ("userName", .string (cString q.userName)), ("password", .string (cString q.password))])]),
    ("id", .int q.id.toInt)]

theorem writes_login {q : SessionLogin} (hresolution : q.timeoutResolution = 1) :
    Writes (RpcClientSessLogIn.calls q) (loginDocument q) :=
  .object (by simp) <|
    .cons "jsonrpc" (.string _) <| .cons "method" (.string _) <|
    .cons "params" (.object (by simp) <| .cons "query" (.object (by simp) <|
      .cons "timeout" (.object (by simp) <|
        .cons "valid" (.bool _) <| .cons "time" (writes_int64 _) <|
        .cons "resolution" (.int (by omega)) .nil) <|
      .cons "userName" (.string _) <|
      .cons "password" (.string _) .nil) .nil) <|
    .cons "id" (writes_int64 _) .nil

theorem ofJson_login {q : SessionLogin} (hmethod : q.method = "sessionLogin")
    (hresolution : q.timeoutResolution = 1) :
    Event.ofJson (loginDocument q) = some (Event.login q).cut := by
  have hkind : (loginDocument q).text "method" = some "sessionLogin" := by
    show some (cString q.method) = _
    rw [hmethod]
    decide
  have hread : SessionLogin.ofJson (loginDocument q) = some { q with
      method := cString q.method, userName := cString q.userName,
      password := cString q.password } := by
    have htime := ofJson_int64 q.timeoutTime
    have hid := ofJson_int64 q.id
    have hres : (Json.int q.timeoutResolution).getInt64 = some q.timeoutResolution := by
      rw [hresolution]
      rfl
    simp [SessionLogin.ofJson, loginDocument, Json.text, Json.member, Json.reader,
      JsonReader.path, Json.getString, Json.getBool, htime, hid, hres]
  rw [Event.ofJson, hkind]
  simp [hread, Event.cut]

/-! ### Observation -/

def observationPart (q : AddObservation ℚ) : Json :=
  .object [("landmarkName", .string (cString q.landmarkName)),
    ("sensorName", .string (cString q.sensorName)),
    ("VEHICLEstaticCalibSENSOR", poseDocument q.vehicleStaticCalibSensor),
    ("SENSORlandmark", poseDocument q.sensorLandmark),
    ("MAPlandmark", poseDocument q.mapLandmark),
    ("observationType", .int q.observationType.toNat),
    ("calibrationType", .int q.calibrationType.toNat),
    ("hasOrientation", .bool q.hasOrientation)]

def observationQuery (q : AddObservation ℚ) : Json :=
  .object [("sessionId", .string (cString q.sessionId)), ("observation", observationPart q)]

def observationDocument (q : AddObservation ℚ) : Json :=
  .object [("jsonrpc", .string q.jsonrpc), ("method", .string (cString q.method)),
    ("params", .object [("query", observationQuery q)]), ("id", .int q.id.toInt)]

theorem writes_observation (q : AddObservation ℚ) :
    Writes (RpcClientGLA.calls q) (observationDocument q) :=
  .object (by simp) <|
    .cons "jsonrpc" (.string _) <| .cons "method" (.string _) <|
    .cons "params" (.object (by simp) <| .cons "query" (.object (by simp) <|
      .cons "sessionId" (.string _) <|
      .cons "observation" (.object (by simp) <|
        .cons "landmarkName" (.string _) <|
        .cons "sensorName" (.string _) <|
        .cons "VEHICLEstaticCalibSENSOR" (writes_pose _) <|
        .cons "SENSORlandmark" (writes_pose _) <|
        .cons "MAPlandmark" (writes_pose _) <|
        .cons "observationType" (writes_uint16 _) <|
        .cons "calibrationType" (writes_uint16 _) <|
        .cons "hasOrientation" (.bool _) .nil) .nil) .nil) <|
    .cons "id" (writes_int64 _) .nil

theorem ofJson_observation {q : AddObservation ℚ}
    (hmethod : q.method = "clientGlobalAlignAddObservation") :
    Event.ofJson (observationDocument q) = some (Event.addObservation q).cut := by
  have hkind : (observationDocument q).text "method" = some "clientGlobalAlignAddObservation" := by
    show some (cString q.method) = _
    rw [hmethod]
    decide
  have hread : AddObservation.ofJson (observationDocument q) = some { q with
      method := cString q.method, sessionId := cString q.sessionId,
      landmarkName := cString q.landmarkName, sensorName := cString q.sensorName } := by
    have hpath : Json.reader.path (observationDocument q) ["params", "query"] =
        some (observationQuery q) := by simp [observationDocument, JsonReader.path, Json.reader]
    have hquery : (observationQuery q).text "sessionId" = some (cString q.sessionId) ∧
        (observationQuery q).member "observation" = some (observationPart q) := by
      simp [observationQuery, Json.text, Json.getString]
    have houter : (observationDocument q).text "jsonrpc" = some q.jsonrpc ∧
        (observationDocument q).text "method" = some (cString q.method) ∧
        (observationDocument q).member "id" = some (.int q.id.toInt) := by
      simp [observationDocument, Json.text, Json.getString]
    have htexts : (observationPart q).text "landmarkName" = some (cString q.landmarkName) ∧
        (observationPart q).text "sensorName" = some (cString q.sensorName) := by
      simp [observationPart, Json.text, Json.getString]
    have hposes : (observationPart q).member "VEHICLEstaticCalibSENSOR" =
          some (poseDocument q.vehicleStaticCalibSensor) ∧
        (observationPart q).member "SENSORlandmark" = some (poseDocument q.sensorLandmark) ∧
        (observationPart q).member "MAPlandmark" = some (poseDocument q.mapLandmark) := by
      simp [observationPart]
    have htypes : (observationPart q).member "observationType" =
          some (.int q.observationType.toNat) ∧
        (observationPart q).member "calibrationType" = some (.int q.calibrationType.toNat) ∧
        (observationPart q).member "hasOrientation" = some (.bool q.hasOrientation) := by
      simp [observationPart]
    exact bind_some houter.1 <| bind_some houter.2.1 <| bind_some hpath <| bind_some hquery.1 <|
      bind_some hquery.2 <| bind_some htexts.1 <| bind_some htexts.2 <|
      bind_some hposes.1 <| bind_some (ofJson_pose _) <|
      bind_some hposes.2.1 <| bind_some (ofJson_pose _) <|
      bind_some hposes.2.2 <| bind_some (ofJson_pose _) <|
      bind_some htypes.1 <| bind_some (ofJson_uint16 _) <|
      bind_some htypes.2.1 <| bind_some (ofJson_uint16 _) <|
      bind_some htypes.2.2 <| bind_some rfl <|
      bind_some houter.2.2 <| bind_some (ofJson_int64 _) rfl
  rw [Event.ofJson, hkind]
  simp [hread, Event.cut]

/-! ### Seed -/

def seedDocument (q : SetSeed ℚ) : Json :=
  .object [("jsonrpc", .string q.jsonrpc), ("method", .string (cString q.method)),
    ("params", .object [("query", .object [("sessionId", .string (cString q.sessionId)),
      ("enforceSeed", .bool q.enforceSeed), ("uncertainSeed", .bool q.uncertainSeed),
      ("seedPose", poseDocument q.seedPose)])]),
    ("id", .int q.id.toInt)]

theorem writes_seed (q : SetSeed ℚ) :
    Writes (RpcClientSetSeed.calls q) (seedDocument q) :=
  .object (by simp) <|
    .cons "jsonrpc" (.string _) <| .cons "method" (.string _) <|
    .cons "params" (.object (by simp) <| .cons "query" (.object (by simp) <|
      .cons "sessionId" (.string _) <| .cons "enforceSeed" (.bool _) <|
      .cons "uncertainSeed" (.bool _) <|
      .cons "seedPose" (writes_pose _) .nil) .nil) <|
    .cons "id" (writes_int64 _) .nil

theorem ofJson_seed {q : SetSeed ℚ} (hmethod : q.method = "clientLocalizationSetSeed") :
    Event.ofJson (seedDocument q) = some (Event.setSeed q).cut := by
  have hkind : (seedDocument q).text "method" = some "clientLocalizationSetSeed" := by
    show some (cString q.method) = _
    rw [hmethod]
    decide
  have hread : SetSeed.ofJson (seedDocument q) = some { q with
      method := cString q.method, sessionId := cString q.sessionId } := by
    have hid := ofJson_int64 q.id
    simp [SetSeed.ofJson, seedDocument, Json.text, Json.member, Json.reader, JsonReader.path,
      Json.getString, Json.getBool, ofJson_pose, hid]
  rw [Event.ofJson, hkind]
  simp [hread, Event.cut]

end DocumentLemmas

/-! ## The events of a run -/

section

variable [Doubles]

/-- The event is one that main emits with this configuration and account. -/
def Event.Own (cfg : Config ℚ) (account : Account) : Event → Prop
  | .login q => ∃ rpcId, q = RpcClientSessLogIn.writeJsonLogIn "sessionLogin" rpcId account
  | .addObservation q => ∃ rpcId dmInfo deviInfo sessionId,
      q = RpcClientGLA.writeJsonGLA "clientGlobalAlignAddObservation" rpcId dmInfo cfg deviInfo
        sessionId
  | .setSeed q => ∃ rpcId dmInfo locStat rokitPose sessionId,
      q = @RpcClientSetSeed.writeJsonSetSeed ℚ Doubles.toAdd _ "clientLocalizationSetSeed" rpcId
        dmInfo locStat rokitPose cfg sessionId
  | .lookup _ _ | .diag _ | .fit _ => True

/-- From `t` to `u` main adds only own events. -/
def Turn.Adds (cfg : Config ℚ) (account : Account) (t u : Turn) : Prop :=
  ∀ e ∈ u.events, e ∈ t.events ∨ e.Own cfg account

namespace DocumentLemmas

variable {cfg : Config ℚ} {account : Account}

theorem adds_snoc {t u : Turn} {e : Event} (hu : u.events = t.events ++ [e])
    (he : e.Own cfg account) : t.Adds cfg account u := by
  intro e' he'
  rw [hu] at he'
  rcases List.mem_append.mp he' with he' | he'
  · exact .inl he'
  · rw [List.mem_singleton.mp he']
    exact .inr he

theorem adds_same {t u : Turn} (hu : u.events = t.events) : t.Adds cfg account u :=
  fun _ he => .inl (hu ▸ he)

theorem adds_trans {t u w : Turn} (h : t.Adds cfg account u) (h' : u.Adds cfg account w) :
    t.Adds cfg account w := by
  intro e he
  rcases h' e he with he | he
  · exact h e he
  · exact .inr he

theorem checkDeviation_adds (sloppy : Length ℚ) (t : Turn) :
    t.Adds cfg account (t.checkDeviation cfg sloppy) := by
  unfold Turn.checkDeviation
  split
  · exact adds_snoc rfl trivial
  · exact adds_same rfl

theorem known_adds (b : Branch) (t : Turn) : t.Adds cfg account (b.known cfg account t).2 := by
  have hlogin (u : Turn) (hu : u.events = t.events) :
      t.Adds cfg account (u.getSessionId account) :=
    adds_trans (adds_same hu) (adds_snoc rfl ⟨u.globalId, rfl⟩)
  cases b with
  | recording deviInfo env =>
    simp only [Branch.known]
    split
    · refine adds_trans (adds_trans (hlogin _ rfl) ?_) (checkDeviation_adds _ _)
      exact adds_snoc rfl ⟨_, _, _, _, rfl⟩
    · split <;> exact adds_same rfl
  | localization env =>
    simp only [Branch.known]
    split
    · refine adds_trans (adds_trans (hlogin _ rfl) ?_) (checkDeviation_adds _ _)
      exact adds_snoc rfl ⟨_, _, _, _, _, rfl⟩
    · split <;> exact adds_same rfl

theorem look_adds (b : Branch) (t : Turn) : t.Adds cfg account (b.look cfg account t).2 := by
  have hlooked : t.Adds cfg account (t.retrieve b.env b.mode).2 := adds_snoc rfl trivial
  unfold Branch.look
  generalize t.retrieve b.env b.mode = r at hlooked
  obtain ⟨found, u⟩ := r
  cases found with
  | true => exact adds_trans hlooked (known_adds b u)
  | false => cases b <;> exact hlooked

/-- A move adds only own events. -/
theorem move_adds (s : Machine) (m : Machine.Move) :
    s.turn.Adds cfg account (s.move cfg account m).turn := by
  obtain ⟨t, pc, rest⟩ := s
  cases m with
  | operator id enable => exact adds_same rfl
  | package i =>
    cases pc <;> try exact adds_same rfl
    cases rest with
    | nil => exact fun e he => absurd he List.not_mem_nil
    | cons b bs => exact adds_same rfl
  | exec =>
    cases pc with
    | retrieve =>
      cases rest with
      | nil => exact adds_same rfl
      | cons b bs => exact look_adds b t
    | insert env => exact adds_snoc rfl trivial
    | logNew env | update env => exact adds_same rfl
    | log env fit => cases fit <;> exact adds_same rfl
    | fit env n => exact adds_snoc rfl trivial

/-- All events of a history are own ones. -/
theorem own_lives (cfg : Config ℚ) (account : Account) (l : List Machine.Op) :
    ∀ e ∈ (Machine.lives cfg account l).turn.events, e.Own cfg account := by
  refine Run.exec_invariant (P := fun s : Machine => ∀ e ∈ s.turn.events, e.Own cfg account)
    (fun e he => absurd he List.not_mem_nil) fun v _ h => ?_
  obtain ⟨s, o⟩ := v
  cases o with
  | move m => exact fun e he => (move_adds s m e he).elim (h e) id
  | kill => exact fun e he => absurd he List.not_mem_nil

/-- The calls of an own request are those of one document, and a server reads the request from
it. -/
theorem ofJson_document {e : Event} (h : e.Own cfg account) :
    ∀ calls ∈ e.calls, ∃ d, Writes calls d ∧ Event.ofJson d = some e.cut := by
  intro calls hcalls
  cases e with
  | login q =>
    obtain ⟨rpcId, rfl⟩ := h
    obtain rfl := Option.some.inj hcalls
    exact ⟨_, writes_login rfl, ofJson_login rfl rfl⟩
  | addObservation q =>
    obtain ⟨rpcId, dmInfo, deviInfo, sessionId, rfl⟩ := h
    obtain rfl := Option.some.inj hcalls
    exact ⟨_, writes_observation _, ofJson_observation rfl⟩
  | setSeed q =>
    obtain ⟨rpcId, dmInfo, locStat, rokitPose, sessionId, rfl⟩ := h
    obtain rfl := Option.some.inj hcalls
    exact ⟨_, writes_seed _, ofJson_seed rfl⟩
  | lookup mode dm => cases hcalls
  | diag w => cases hcalls
  | fit c => cases hcalls

end DocumentLemmas

/-- Whatever the history of the program, kills and operator updates in between: the calls of a
request are those of one document. A server that goes by the names of its members finds in it
the request that main had in hand, with its texts up to the first NUL. It is what is read from
the text of the calls, if their numbers have a text. -/
theorem posted_read (wire : Wire) (cfg : Config ℚ) (account : Account) (l : List Machine.Op) :
    ∀ e ∈ (Machine.lives cfg account l).turn.events, ∀ calls ∈ e.calls,
      ∃ d, Writes calls d ∧ Event.ofJson d = some e.cut ∧
        ((∀ q, .double q ∈ calls → wire.Number q) →
          wire.read (wire.write calls) = some d) := by
  intro e he calls hcalls
  obtain ⟨d, hd, hread⟩ :=
    DocumentLemmas.ofJson_document (DocumentLemmas.own_lives cfg account l e he) calls hcalls
  exact ⟨d, hd, hread, wire.read_write hd⟩

deriving instance DecidableEq for Event

end

open scoped Exact

/-- The code 7 is recorded and enabled, and its look-up returns the row at the next sighting. -/
def exPosted : List Machine.Op :=
  let seen := .move (.package (exSighting .recording 7 0))
  [seen, .move .exec, .move .exec, .move .exec, .move (.operator 7 true), seen, .move .exec]

/-- The request of that sighting. -/
def exRequest : AddObservation ℚ :=
  RpcClientGLA.writeJsonGLA "clientGlobalAlignAddObservation" 2 { id := 7, pose := 0 } exConfig
    (exPackage 7) "session"

/-- It is sent, and a server reads it. -/
theorem posted_read_exPosted :
    .addObservation exRequest ∈ (Machine.lives exConfig exAccount exPosted).turn.events ∧
      ∃ d, Wire.kept.read (Wire.kept.write (RpcClientGLA.calls exRequest)) = some d ∧
        Event.ofJson d = some (Event.addObservation exRequest).cut := by
  have hsent : .addObservation exRequest ∈
      (Machine.lives exConfig exAccount exPosted).turn.events := by decide +kernel
  obtain ⟨d, _, hread, htext⟩ :=
    posted_read Wire.kept exConfig exAccount exPosted (.addObservation exRequest) hsent _ rfl
  exact ⟨hsent, d, htext fun _ _ => trivial, hread⟩

end QrAddon
