import QrAddon.Login

/-!
# The names of the landmarks

An observation names the landmark that it is of. `writeJsonGLA` writes the session id
there, and the id of the code into the name of the sensor. So two observations have the
same name when their logins returned the same id.

Results:
1. `observation_iff`: the landmark names of a run are the session ids of its RECORDING
   branches with an enabled row.
2. `namesIdentifyCodes_iff`: in every run, the names tell the codes apart exactly when the
   session ids do.
3. `not_namesIdentifyCodes`: one session and two codes.
-/

namespace QrAddon

section

variable [Doubles]

/-- The landmark name of an observation. -/
def Event.landmarkName? : Event → Option String
  | .addObservation q => some q.landmarkName
  | .lookup _ _ | .login _ | .setSeed _ | .diag _ | .fit _ => none

/-- The RECORDING branches of a run of these steps. -/
def recordings {V : Type} (l : List (SessionAct V)) (s : Session V) : List (BranchRecord V) :=
  (((l.flatMap SessionAct.modes).zip s.branches).filter fun p => p.1 = .recording).map Prod.snd

/-- The code of a branch, the one of the row that its look-up returned. -/
def BranchRecord.code {V : Type} (b : BranchRecord V) : Option UInt32 := b.row.map (·.dmId)

/-- Any two observations have the same landmark name if and only if they are of the same
code. -/
def NamesIdentifyCodes {V : Type} (s : Session V) : Prop :=
  ∀ b ∈ s.branches, ∀ b' ∈ s.branches, ∀ q q',
    .addObservation q ∈ b.sent → .addObservation q' ∈ b'.sent →
      (q.landmarkName = q'.landmarkName ↔ b.code = b'.code)

/-- Any two RECORDING branches whose look-up returned an enabled row have got the same
session id if and only if the rows are of the same code. -/
def LoginsIdentifyCodes {V : Type} (j : JsonReader V) (l : List (SessionAct V))
    (s : Session V) : Prop :=
  ∀ b ∈ recordings l s, ∀ b' ∈ recordings l s,
    b.row.any (·.enable) = true → b'.row.any (·.enable) = true →
      ((returnedId j b.reply).getD "" = (returnedId j b'.reply).getD "" ↔ b.code = b'.code)

instance {V : Type} (j : JsonReader V) (l : List (SessionAct V)) (s : Session V) :
    Decidable (LoginsIdentifyCodes j l s) :=
  inferInstanceAs (Decidable (∀ b ∈ recordings l s, ∀ b' ∈ recordings l s, _ → _ → _))

namespace LandmarkLemmas

open LoginLemmas

variable {V : Type} {j : JsonReader V} {cfg : Config ℚ} {account : Account} {mode : Mode}
  {l : List (SessionAct V)} {s : Session V} {b : BranchRecord V}

omit [Doubles] in
theorem landmarkName?_posts : Event.SeesPosts Event.landmarkName? :=
  ⟨fun _ _ => rfl, fun _ => rfl, fun _ => rfl, fun _ => rfl⟩

/-- A branch sends a landmark name in RECORDING for an enabled row, and the name is the
session id. -/
theorem ran_landmarkNames (h : Ran j cfg account mode b) :
    b.sent.filterMap Event.landmarkName? =
      if b.row.any (·.enable) = true ∧ mode = .recording then [(returnedId j b.reply).getD ""]
      else [] := by
  have hposts := ran_posts (g := fun id => if mode = .recording then some id else none)
    landmarkName?_posts (by
      intro deviInfo env t dm rpcId
      unfold requestOf
      split <;> rfl) h
  by_cases hm : mode = .recording <;> simp [hposts, hm]

omit [Doubles] in
/-- A name among the sent ones belongs to an observation. -/
theorem mem_landmarkNames {name : String} :
    name ∈ b.sent.filterMap Event.landmarkName? ↔
      ∃ q, .addObservation q ∈ b.sent ∧ q.landmarkName = name := by
  rw [List.mem_filterMap]
  constructor
  · rintro ⟨e, he, hname⟩
    cases e with
    | addObservation q => exact ⟨q, he, Option.some.inj hname⟩
    | _ => cases hname
  · rintro ⟨q, hq, rfl⟩
    exact ⟨_, hq, rfl⟩

omit [Doubles] in
theorem mem_recordings : b ∈ recordings l s ↔
    (.recording, b) ∈ (l.flatMap SessionAct.modes).zip s.branches := by
  simp only [recordings, List.mem_map, List.mem_filter, decide_eq_true_eq, Prod.exists,
    exists_eq_right]

/-- The observations of a run are those of its RECORDING branches with an enabled row. -/
theorem observation_iff {ids : SessionIds} (h : runSession j cfg account ids l = some s)
    {name : String} :
    (b ∈ s.branches ∧ ∃ q, .addObservation q ∈ b.sent ∧ q.landmarkName = name) ↔
      b ∈ recordings l s ∧ b.row.any (·.enable) = true ∧
        name = (returnedId j b.reply).getD "" := by
  rw [mem_recordings, ← mem_landmarkNames]
  constructor
  · rintro ⟨hb, hname⟩
    obtain ⟨m, hmem, hran⟩ := ran_of_mem h hb
    rw [ran_landmarkNames hran] at hname
    split at hname
    · next hon =>
      obtain ⟨hany, rfl⟩ := hon
      exact ⟨hmem, hany, List.mem_singleton.mp hname⟩
    · cases hname
  · rintro ⟨hmem, hany, rfl⟩
    have hran := (List.forall₂_iff_zip.mp (session_ran h)).2 hmem
    refine ⟨(List.of_mem_zip hmem).2, ?_⟩
    rw [ran_landmarkNames hran, if_pos ⟨hany, rfl⟩]
    exact List.mem_singleton_self _

end LandmarkLemmas

open LandmarkLemmas

/-- In every run, the landmark names tell the codes apart exactly when the session ids
that the server hands out to the RECORDING branches of enabled codes do. -/
theorem namesIdentifyCodes_iff {V : Type} {j : JsonReader V} {cfg : Config ℚ}
    {account : Account} {ids : SessionIds} {l : List (SessionAct V)} {s : Session V}
    (h : runSession j cfg account ids l = some s) :
    NamesIdentifyCodes s ↔ LoginsIdentifyCodes j l s := by
  constructor
  · intro hnames b hb b' hb' hany hany'
    obtain ⟨hmem, q, hq, hname⟩ := (observation_iff h).mpr ⟨hb, hany, rfl⟩
    obtain ⟨hmem', q', hq', hname'⟩ := (observation_iff h).mpr ⟨hb', hany', rfl⟩
    rw [← hname, ← hname']
    exact hnames b hmem b' hmem' q q' hq hq'
  · intro hlogins b hb b' hb' q q' hq hq'
    obtain ⟨hrec, hany, hname⟩ := (observation_iff h).mp ⟨hb, q, hq, rfl⟩
    obtain ⟨hrec', hany', hname'⟩ := (observation_iff h).mp ⟨hb', q', hq', rfl⟩
    rw [hname, hname']
    exact hlogins b hrec b' hrec' hany hany'

end

open scoped Exact

open LandmarkLemmas

/-- The codes 7 and 9 are recorded, enabled and recorded again, each with the reply to its
login. -/
def exTwoCodes (reply reply' : Reply Json) : List (SessionAct Json) :=
  [.sighting ⟨exSighting .recording 7 0, [], []⟩, .sighting ⟨exSighting .recording 9 0, [], []⟩,
    .toggle 7 true, .toggle 9 true,
    .sighting ⟨exSighting .recording 7 0, reply, []⟩,
    .sighting ⟨exSighting .recording 9 0, reply', []⟩]

def exTwo (reply reply' : Reply Json) : Option (Session Json) :=
  runSession Json.reader exConfig exAccount ⟨"", ""⟩ (exTwoCodes reply reply')

/-- A session for each code. -/
theorem namesIdentifyCodes_exTwo :
    ∃ s, exTwo [some (exResponse "abc")] [some (exResponse "def")] = some s ∧
      NamesIdentifyCodes s := by
  obtain ⟨s, hs⟩ := Option.isSome_iff_exists.mp (by decide +kernel :
    (exTwo [some (exResponse "abc")] [some (exResponse "def")]).isSome = true)
  have hlogins : ∀ s ∈ exTwo [some (exResponse "abc")] [some (exResponse "def")],
      LoginsIdentifyCodes Json.reader
        (exTwoCodes [some (exResponse "abc")] [some (exResponse "def")]) s := by
    decide +kernel
  exact ⟨s, hs, (namesIdentifyCodes_iff hs).mpr (hlogins s hs)⟩

/-- One session for both codes: two landmarks of one name. -/
theorem not_namesIdentifyCodes :
    ∃ s, exTwo [some (exResponse "abc")] [some (exResponse "abc")] = some s ∧
      ¬ NamesIdentifyCodes s := by
  obtain ⟨s, hs⟩ := Option.isSome_iff_exists.mp (by decide +kernel :
    (exTwo [some (exResponse "abc")] [some (exResponse "abc")]).isSome = true)
  have hsame : ∀ s ∈ exTwo [some (exResponse "abc")] [some (exResponse "abc")],
      ∃ b ∈ s.branches, ∃ b' ∈ s.branches, "abc" ∈ b.sent.filterMap Event.landmarkName? ∧
        "abc" ∈ b'.sent.filterMap Event.landmarkName? ∧ b.code ≠ b'.code := by
    decide +kernel
  obtain ⟨b, hb, b', hb', hname, hname', hcode⟩ := hsame s hs
  obtain ⟨q, hq, hn⟩ := mem_landmarkNames.mp hname
  obtain ⟨q', hq', hn'⟩ := mem_landmarkNames.mp hname'
  refine ⟨s, hs, ?_⟩
  intro h
  exact hcode ((h b hb b' hb' q q' hq hq').mp (hn.trans hn'.symm))

end QrAddon
