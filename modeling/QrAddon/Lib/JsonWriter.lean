import QrAddon.Lib.Json

/-!
# Documents written call by call

A writer is called once for every brace, name and value of a document. `Writes calls v` is the
grammar of the calls: `calls` are those of the value `v`. A `Wire` is a writer of this kind
and a reader of its texts, which gets back what the calls wrote.

`Wire.kept` keeps the calls instead of a text and reads them with `document`, which follows the
objects that are open: the grammar decides what it reads.
-/

namespace JsonWriter

inductive Call
  | startObject
  | endObject
  | key (name : String)
  | string (s : String)
  | int (z : ℤ)
  | double (q : ℚ)
  | bool (b : Bool)

mutual
/-- The calls of a value. An object has no name twice. -/
inductive Writes : List Call → Json → Prop
  | string (t : String) : Writes [.string t] (.string t)
  | int {z : ℤ} (h : -2 ^ 63 ≤ z ∧ z < 2 ^ 63) : Writes [.int z] (.int z)
  | double (q : ℚ) : Writes [.double q] (.double q)
  | bool (b : Bool) : Writes [.bool b] (.bool b)
  | object {calls : List Call} {ms : List (String × Json)} (hnames : (ms.map Prod.fst).Nodup)
      (h : WritesMembers calls ms) : Writes (.startObject :: calls ++ [.endObject]) (.object ms)

/-- The calls of the members of an object. -/
inductive WritesMembers : List Call → List (String × Json) → Prop
  | nil : WritesMembers [] []
  | cons (name : String) {calls rest : List Call} {v : Json} {ms : List (String × Json)}
      (h : Writes calls v) (hrest : WritesMembers rest ms) :
      WritesMembers (.key name :: calls ++ rest) ((name, v) :: ms)
end

/-- A writer of documents and a reader of its texts. -/
structure Wire where
  Text : Type
  write : List Call → Text
  read : Text → Option Json
  /-- The numbers that have a text: those of a machine are its finite ones. -/
  Number : ℚ → Prop
  /-- What the calls wrote is read back. -/
  read_write : ∀ {calls : List Call} {v : Json}, Writes calls v →
    (∀ q, .double q ∈ calls → Number q) → read (write calls) = some v

/-! ## Reading the calls -/

/-- An object that is open: its members so far, and the name that waits for a value. -/
structure Level where
  members : List (String × Json)
  name : Option String

/-- The document, once it is there, and the open objects, the innermost first. -/
structure State where
  root : Option Json
  levels : List Level

/-- A value may stand here. -/
def State.Expects (s : State) : Prop :=
  match s.levels with
  | [] => s.root = none
  | level :: _ => level.name ≠ none

instance (s : State) : Decidable s.Expects := by
  unfold State.Expects
  split <;> infer_instance

/-- A value is complete. -/
def put (s : State) (v : Json) : Option State :=
  match s.levels with
  | [] => if s.root = none then some { s with root := some v } else none
  | ⟨members, some name⟩ :: outer =>
    some { s with levels := ⟨members ++ [(name, v)], none⟩ :: outer }
  | ⟨_, none⟩ :: _ => none

def step (s : State) : Call → Option State
  | .startObject => if s.Expects then some { s with levels := ⟨[], none⟩ :: s.levels } else none
  | .endObject =>
    match s.levels with
    | ⟨members, none⟩ :: outer => put { s with levels := outer } (.object members)
    | _ => none
  | .key name =>
    match s.levels with
    | ⟨members, none⟩ :: outer => some { s with levels := ⟨members, some name⟩ :: outer }
    | _ => none
  | .string t => put s (.string t)
  | .int z => put s (.int z)
  | .double q => put s (.double q)
  | .bool b => put s (.bool b)

/-- The document that the calls have written, if they have written one. -/
def document (calls : List Call) : Option Json :=
  match calls.foldlM step ⟨none, []⟩ with
  | some ⟨root, []⟩ => root
  | _ => none

/-- What `document` does with the calls of a value. -/
def Puts (calls : List Call) (v : Json) : Prop :=
  ∀ s : State, s.Expects → calls.foldlM step s = put s v

/-- What it does with the calls of some members. -/
def PutsMembers (calls : List Call) (ms : List (String × Json)) : Prop :=
  ∀ (root : Option Json) (members : List (String × Json)) (outer : List Level),
    calls.foldlM step ⟨root, ⟨members, none⟩ :: outer⟩ =
      some ⟨root, ⟨members ++ ms, none⟩ :: outer⟩

theorem puts_one {c : Call} {v : Json} (h : ∀ s, step s c = put s v) : Puts [c] v := by
  intro s _
  rw [List.foldlM_cons, h]
  cases put s v <;> rfl

theorem putsMembers_nil : PutsMembers [] [] := by
  intro root members outer
  rw [List.append_nil]
  rfl

theorem putsMembers_cons (name : String) {calls rest : List Call} {v : Json}
    {ms : List (String × Json)} (h : Puts calls v) (hrest : PutsMembers rest ms) :
    PutsMembers (.key name :: calls ++ rest) ((name, v) :: ms) := by
  intro root members outer
  have hvalue : calls.foldlM step ⟨root, ⟨members, some name⟩ :: outer⟩ =
      some ⟨root, ⟨members ++ [(name, v)], none⟩ :: outer⟩ :=
    h ⟨root, ⟨members, some name⟩ :: outer⟩ (Option.some_ne_none name)
  rw [List.foldlM_append, List.foldlM_cons]
  show (calls.foldlM step ⟨root, ⟨members, some name⟩ :: outer⟩).bind (rest.foldlM step ·) = _
  rw [hvalue, Option.bind_some, hrest, List.append_assoc]
  rfl

theorem puts_object {calls : List Call} {ms : List (String × Json)}
    (h : PutsMembers calls ms) :
    Puts (.startObject :: calls ++ [.endObject]) (.object ms) := by
  intro s hs
  have hopen : step s .startObject = some { s with levels := ⟨[], none⟩ :: s.levels } := if_pos hs
  have hmembers := h s.root [] s.levels
  rw [List.foldlM_append, List.foldlM_cons, hopen]
  show (calls.foldlM step ⟨s.root, ⟨[], none⟩ :: s.levels⟩).bind _ = _
  rw [hmembers, Option.bind_some, List.foldlM_cons, List.nil_append]
  show (put s (.object ms)).bind _ = _
  cases put s (.object ms) <;> rfl

mutual
/-- By induction over the grammar. -/
theorem puts_of_writes {calls : List Call} {v : Json} : Writes calls v → Puts calls v
  | .string _ | .int _ | .double _ | .bool _ => puts_one fun _ => rfl
  | .object _ h => puts_object (putsMembers_of_writes h)

theorem putsMembers_of_writes {calls : List Call} {ms : List (String × Json)} :
    WritesMembers calls ms → PutsMembers calls ms
  | .nil => putsMembers_nil
  | .cons name h hrest => putsMembers_cons name (puts_of_writes h) (putsMembers_of_writes hrest)
end

theorem document_of_writes {calls : List Call} {v : Json} (h : Writes calls v) :
    document calls = some v := by
  have hrun : calls.foldlM step ⟨none, []⟩ = some ⟨some v, []⟩ := puts_of_writes h ⟨none, []⟩ rfl
  rw [document, hrun]

/-- The calls themselves for the text. -/
def Wire.kept : Wire where
  Text := List Call
  write calls := calls
  read := document
  Number _ := True
  read_write h _ := document_of_writes h

end JsonWriter
