import Mathlib

/-!
# Parsed JSON documents behind checked accessors

A program that reads a parsed document calls accessors each of which has a precondition:
a member is asked for only of an object that has it, a text only of a string.
`JsonReader` is such a set of accessors over documents of any type, with `none` for a
call outside its precondition, so a program over it is a computation in `Option` that
fails where the accessors would be misused. `Json.reader` is the reader of JSON trees.
What an accessor returns is a shape of the document; the lemmas say which.
-/

/-- The accessors of parsed documents of type `V`. -/
structure JsonReader (V : Type) where
  hasMember : V → String → Option Bool
  member : V → String → Option V
  getInt : V → Option ℤ
  getUint64 : V → Option ℕ
  getString : V → Option String

namespace JsonReader

variable {V : Type} (j : JsonReader V)

/-- The value behind several members. -/
def path (d : V) (keys : List String) : Option V := keys.foldlM j.member d

end JsonReader

/-- A JSON tree. An object keeps its members in the order of the text, and a number in
the range of a 64-bit integer is kept apart from the other numbers. -/
inductive Json
  | null
  | bool (b : Bool)
  | int (z : ℤ)
  | double (q : ℚ)
  | string (s : String)
  | array (elements : List Json)
  | object (members : List (String × Json))

namespace Json

def hasMember : Json → String → Option Bool
  | object members, key => some (members.any fun m => m.1 = key)
  | _, _ => none

/-- The first member of that name. -/
def member : Json → String → Option Json
  | object members, key => (members.find? fun m => m.1 = key).map Prod.snd
  | _, _ => none

def getInt : Json → Option ℤ
  | int z => if -2 ^ 31 ≤ z ∧ z < 2 ^ 31 then some z else none
  | _ => none

def getUint64 : Json → Option ℕ
  | int z => if 0 ≤ z ∧ z < 2 ^ 64 then some z.toNat else none
  | _ => none

def getString : Json → Option String
  | string s => some s
  | _ => none

def reader : JsonReader Json := ⟨hasMember, member, getInt, getUint64, getString⟩

@[simp] theorem reader_getInt : reader.getInt = getInt := rfl
@[simp] theorem reader_getUint64 : reader.getUint64 = getUint64 := rfl
@[simp] theorem reader_getString : reader.getString = getString := rfl

def getInt64 : Json → Option ℤ
  | int z => if -2 ^ 63 ≤ z ∧ z < 2 ^ 63 then some z else none
  | _ => none

def getDouble : Json → Option ℚ
  | double q => some q
  | _ => none

def getBool : Json → Option Bool
  | bool b => some b
  | _ => none

/-- The text of a member. -/
def text (d : Json) (name : String) : Option String := (d.member name).bind getString

@[simp] theorem member_cons (key name : String) (v : Json) (members : List (String × Json)) :
    (object ((name, v) :: members)).member key =
      if name = key then some v else (object members).member key := by
  by_cases h : name = key <;> simp [member, h]

/-! ## The shape of a document

`d.Has key v`: `d` is an object, and `v` is the value of its first member of that name. -/

def Has (d : Json) (key : String) (v : Json) : Prop :=
  ∃ before after, d = object (before ++ (key, v) :: after) ∧ ∀ m ∈ before, m.1 ≠ key

variable {d v : Json} {key : String}

theorem member_eq_some : d.member key = some v ↔ d.Has key v := by
  unfold Has
  cases d with
  | object members =>
    simp only [member, Option.map_eq_some_iff, List.find?_eq_some_iff_append, decide_eq_true_eq,
      object.injEq, Prod.exists]
    constructor
    · rintro ⟨k, w, ⟨rfl, before, after, rfl, hbefore⟩, rfl⟩
      exact ⟨before, after, rfl, fun m hm => by simpa using hbefore m hm⟩
    · rintro ⟨before, after, rfl, hbefore⟩
      exact ⟨key, v, ⟨rfl, before, after, rfl, fun m hm => by simpa using hbefore m hm⟩, rfl⟩
  | _ => simp [member]

/-- An object has one first member of a name. -/
theorem Has.unique {w : Json} (h : d.Has key v) (h' : d.Has key w) : v = w :=
  Option.some.inj ((member_eq_some.mpr h).symm.trans (member_eq_some.mpr h'))

theorem hasMember_eq_true : d.hasMember key = some true ↔ ∃ v, d.Has key v := by
  simp only [← member_eq_some]
  cases d with
  | object members =>
    simp only [hasMember, member, Option.some.injEq, ← Option.isSome_iff_exists, Option.isSome_map,
      List.find?_isSome, List.any_eq_true]
  | _ => simp [hasMember, member]

/-- Only an object can be asked. -/
theorem hasMember_eq_false :
    d.hasMember key = some false ↔ (∃ members, d = object members) ∧ ∀ v, ¬ d.Has key v := by
  rw [← not_exists, ← hasMember_eq_true]
  cases d with
  | object members =>
    simp only [hasMember, Option.some.injEq, Bool.not_eq_true, object.injEq, exists_eq', true_and]
  | _ => simp [hasMember]

theorem getInt_eq_some {z : ℤ} :
    d.getInt = some z ↔ d = int z ∧ -2 ^ 31 ≤ z ∧ z < 2 ^ 31 := by
  cases d with
  | int y =>
    simp only [getInt, Option.ite_none_right_eq_some, Option.some.injEq, int.injEq]
    constructor
    · rintro ⟨h, rfl⟩
      exact ⟨rfl, h⟩
    · rintro ⟨rfl, h⟩
      exact ⟨h, rfl⟩
  | _ => simp [getInt]

theorem getInt64_eq_some {z : ℤ} :
    d.getInt64 = some z ↔ d = int z ∧ -2 ^ 63 ≤ z ∧ z < 2 ^ 63 := by
  cases d with
  | int y =>
    simp only [getInt64, Option.ite_none_right_eq_some, Option.some.injEq, int.injEq]
    constructor
    · rintro ⟨h, rfl⟩
      exact ⟨rfl, h⟩
    · rintro ⟨rfl, h⟩
      exact ⟨h, rfl⟩
  | _ => simp [getInt64]

theorem getUint64_eq_some {n : ℕ} : d.getUint64 = some n ↔ d = int n ∧ n < 2 ^ 64 := by
  cases d with
  | int y =>
    simp only [getUint64, Option.ite_none_right_eq_some, Option.some.injEq, int.injEq]
    constructor
    · rintro ⟨h, rfl⟩
      omega
    · rintro ⟨rfl, h⟩
      omega
  | _ => simp [getUint64]

theorem getString_eq_some {s : String} : d.getString = some s ↔ d = string s := by
  cases d <;> simp [getString]

/-- A document behind a path of members. -/
theorem path_cons {keys : List String} :
    reader.path d (key :: keys) = some v ↔ ∃ w, d.Has key w ∧ reader.path w keys = some v := by
  simp only [← member_eq_some]
  exact Option.bind_eq_some_iff

@[simp] theorem path_nil : reader.path d [] = some d := rfl

end Json
