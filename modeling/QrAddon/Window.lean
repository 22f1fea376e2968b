import QrAddon.SelfDb
import QrAddon.Lib.Run

/-!
# The size of the self table

The trigger of the self table lives in the database file. A restart drops it and creates
it again with the `maxRowSelfDb` of that start, and every insert runs it once. Its `DELETE`
compares with a subquery of up to 100 rows by `=`, which takes the first of them: one row
goes, the oldest.

Results:
1. `window`: from an empty table on, the table is the window of the last rows inserted.
2. `recovers_iff`: a table is brought below a lower cap exactly when it is not above it
   already.
3. `not_recovers`: three rows, a cap of one, and still three rows.
-/

namespace QrAddon

/-- `SelfDmList.db`: the table and the cap of its trigger, if it has one. -/
structure SelfFile where
  table : SelfTable
  trigger : Option UInt32

namespace SelfFile

/-- `DROP TRIGGER IF EXISTS` and `CREATE TRIGGER`. -/
def createTrigger (maxRowSelfDb : UInt32) (f : SelfFile) : SelfFile :=
  let f := { f with trigger := none }
  { f with trigger := some maxRowSelfDb }

section

variable [Doubles]

/-- `addContent` on the file: the trigger runs with the cap that it was created with. -/
def addContent (ok : Bool) (f : SelfFile) (dm : DmInfo ℚ) : SelfFile :=
  match f.trigger with
  | some cap => { f with table := SelfDb.addContent ok cap f.table dm }
  | none => { f with table := if ok then f.table.insert (SelfDb.row dm) else f.table }

theorem addContent_trigger {cap : UInt32} {f : SelfFile} (h : f.trigger = some cap) (ok : Bool)
    (dm : DmInfo ℚ) :
    f.addContent ok dm = { f with table := SelfDb.addContent ok cap f.table dm } := by
  simp only [addContent, h]

/-- What happens to the file: an insert that succeeds or fails, or a restart. -/
inductive Step
  | insert (ok : Bool) (dm : DmInfo ℚ)
  | restart

/-- A step under a configuration with that cap. -/
def step (maxRowSelfDb : UInt32) (f : SelfFile) : Step → SelfFile
  | .insert ok dm => f.addContent ok dm
  | .restart => f.createTrigger maxRowSelfDb

/-- The rows that a list of steps inserts. -/
def inserted (l : List Step) : List SelfRow :=
  l.filterMap fun
    | .insert true dm => some (SelfDb.row dm)
    | .insert false _ | .restart => none

/-- The number of rows. -/
def size (f : SelfFile) : ℕ := f.table.values.length

namespace WindowLemmas

variable {cap : UInt32} {f : SelfFile} {l : List Step}

/-- What one step under a cap does to the rows of a file with the trigger of that cap. -/
theorem step_cases (h : f.trigger = some cap) (a : Step) :
    (f.step cap a).trigger = some cap ∧
      ((inserted [a] = [] ∧ (f.step cap a).table.values = f.table.values) ∨
        ∃ r, inserted [a] = [r] ∧ (f.step cap a).table.values =
          if cap.toNat ≤ f.size then (f.table.values ++ [r]).tail else f.table.values ++ [r]) := by
  cases a with
  | restart => exact ⟨rfl, .inl ⟨rfl, rfl⟩⟩
  | insert ok dm =>
    rw [step, addContent_trigger h]
    refine ⟨h, ?_⟩
    simp only [SelfDb.values_addContent]
    cases ok with
    | false => exact .inl ⟨rfl, rfl⟩
    | true => exact .inr ⟨SelfDb.row dm, rfl, rfl⟩

theorem inserted_snoc (l : List Step) (a : Step) :
    inserted (l ++ [a]) = inserted l ++ inserted [a] := List.filterMap_append

omit [Doubles] in
/-- A window of at least `n` rows drops its first row for a new one. -/
theorem rtake_snoc {α : Type} (l : List α) (n : ℕ) (a : α) :
    (if n ≤ (l.rtake n).length then (l.rtake n ++ [a]).tail else l.rtake n ++ [a]) =
      (l ++ [a]).rtake n := by
  unfold List.rtake
  rw [List.length_drop, List.length_append, List.length_singleton]
  by_cases hn : n ≤ l.length
  · rw [if_pos (by omega), ← List.drop_append_of_le_length (by omega), ← List.drop_one,
      List.drop_drop]
    congr 1
    omega
  · rw [if_neg (by omega), ← List.drop_append_of_le_length (by omega)]
    congr 1
    omega

omit [Doubles] in
theorem rtake_min_length {α : Type} (l : List α) (n : ℕ) :
    l.rtake (min l.length n) = l.rtake n := by
  unfold List.rtake
  congr 1
  omega

/-- The trigger keeps its cap, and the table stays the window of what was inserted. A cap of
0 empties the table again within the insert. -/
theorem exec_window (htrigger : f.trigger = some cap) (hempty : f.table.values = []) :
    (Run.exec (step cap) f l).trigger = some cap ∧
      (Run.exec (step cap) f l).table.values = (inserted l).rtake cap.toNat := by
  -- the last step is an insert into the window of those before it, or leaves it
  induction l using List.reverseRecOn with
  | nil => exact ⟨htrigger, hempty.trans (List.rtake_nil cap.toNat).symm⟩
  | append_singleton l a ih =>
    obtain ⟨hcap, hvalues⟩ := ih
    obtain ⟨hkeep, hcase⟩ := step_cases hcap a
    rw [Run.exec_snoc, inserted_snoc]
    refine ⟨hkeep, ?_⟩
    rcases hcase with ⟨hnone, hsame⟩ | ⟨r, hone, hadd⟩
    · rw [hsame, hnone, List.append_nil, hvalues]
    · rw [hadd, hone, ← rtake_snoc, size, hvalues]

/-- Through a run, a table above the cap keeps its size, and one that is not above it stays
so. -/
theorem exec_size (htrigger : f.trigger = some cap) :
    (Run.exec (step cap) f l).trigger = some cap ∧
      (f.size ≤ cap.toNat → (Run.exec (step cap) f l).size ≤ cap.toNat) ∧
      (cap.toNat < f.size → (Run.exec (step cap) f l).size = f.size) := by
  induction l using List.reverseRecOn with
  | nil => exact ⟨htrigger, id, fun _ => rfl⟩
  | append_singleton l a ih =>
    obtain ⟨hcap, hbelow, habove⟩ := ih
    obtain ⟨hkeep, hcase⟩ := step_cases hcap a
    rw [Run.exec_snoc]
    refine ⟨hkeep, ?_⟩
    have hsize : ((Run.exec (step cap) f l).step cap a).size =
          (Run.exec (step cap) f l).size ∨
        (Run.exec (step cap) f l).size < cap.toNat ∧
          ((Run.exec (step cap) f l).step cap a).size = (Run.exec (step cap) f l).size + 1 := by
      rcases hcase with ⟨_, hsame⟩ | ⟨r, _, hadd⟩
      · exact .inl (congrArg List.length hsame)
      · unfold size at hadd ⊢
        rw [hadd]
        split
        · left
          simp
        · right
          simp
          omega
    omega

end WindowLemmas

open WindowLemmas

/-- The table is a window: for every cap, and whatever trigger the file had, from the
first start on an empty table the table holds exactly the last rows inserted, as many as
the cap allows, in the order of their ids. -/
theorem window (cap : UInt32) (trigger : Option UInt32) (l : List Step) :
    let f := Run.exec (step cap) (createTrigger cap ⟨RowidTable.empty, trigger⟩) l
    f.table.values = (inserted l).rtake (min (inserted l).length cap.toNat) ∧
      f.table.rowids.Pairwise (· < ·) := by
  intro f
  refine ⟨?_, f.table.sorted⟩
  rw [rtake_min_length]
  exact (exec_window rfl rfl).2

/-- Under the cap, every successful insert into a table above it shrinks the table, and
from some number of successful inserts on the table is at most of its size. -/
def Recovers (cap : UInt32) (f : SelfFile) : Prop :=
  (∀ l dm, cap.toNat < (Run.exec (step cap) f l).size →
    ((Run.exec (step cap) f l).step cap (.insert true dm)).size <
      (Run.exec (step cap) f l).size) ∧
  ∃ k, ∀ l, k ≤ (inserted l).length → (Run.exec (step cap) f l).size ≤ cap.toNat

/-- After a restart with a cap, an existing table recovers exactly when it was not above
that cap. -/
theorem recovers_iff (cap : UInt32) (f : SelfFile) :
    Recovers cap (f.createTrigger cap) ↔ f.size ≤ cap.toNat := by
  have htrigger : (f.createTrigger cap).trigger = some cap := rfl
  have hrun (l : List Step) := exec_size (l := l) htrigger
  constructor
  · rintro ⟨hshrink, _⟩
    by_contra hle
    have hstay := (hrun [.insert true ⟨0, 0, 0, 0, false, false, false⟩]).2.2 (not_le.mp hle)
    have hless := hshrink [] ⟨0, 0, 0, 0, false, false, false⟩ (not_le.mp hle)
    exact absurd hstay hless.ne
  · intro hle
    refine ⟨?_, 0, fun l _ => (hrun l).2.1 hle⟩
    intro l dm habove
    exact absurd ((hrun l).2.1 hle) (not_le.mpr habove)

end

open scoped Exact

/-- A file with three rows. -/
def exFile : SelfFile :=
  ⟨((RowidTable.empty.insert (SelfDb.row ⟨1, 0, 0, 0, false, false, false⟩)).insert
    (SelfDb.row ⟨2, 0, 0, 0, false, false, false⟩)).insert
      (SelfDb.row ⟨3, 0, 0, 0, false, false, false⟩), some 100⟩

/-- Under a cap of one row, an insert into three rows leaves three rows. -/
theorem not_recovers : ¬ Recovers 1 (exFile.createTrigger 1) := by
  intro h
  have hless := h.1 [] ⟨4, 0, 0, 0, false, false, false⟩ (by decide +kernel)
  exact absurd hless (by decide +kernel)

end SelfFile

end QrAddon
