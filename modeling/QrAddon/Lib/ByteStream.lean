import Mathlib

/-!
# Records on a stream that arrives in pieces

A call of `read` returns some bytes, no bytes at the end of the stream, or an
error. `events` forgets where one call's bytes end and the next one's begin.

`readFull` is the usual loop that calls `read` until a record is complete.
`readFull_events` says that its result is a function of the events alone, and
`pull_eq_some` says which. `readFull_ended` and `readFull_exhausted` are the two cases
for a finite stream whose end the further calls report. The last section is about
programs without that loop: what is lost when every piece is taken for a record.
-/

namespace ByteStream

variable {α : Type}

/-- The result of one call. -/
inductive Piece (α : Type)
  | bytes (b : List α)
  | error
deriving DecidableEq, Repr

/-- What comes over the stream, call boundaries forgotten. -/
inductive Ev (α : Type)
  | byte (a : α)
  | eof
  | error
deriving DecidableEq, Repr

def Piece.events : Piece α → List (Ev α)
  | .bytes [] => [.eof]
  | .bytes (a :: b) => (a :: b).map .byte
  | .error => [.error]

def events (c : List (Piece α)) : List (Ev α) := c.flatMap Piece.events

/-- How the reading of a record ends; bytes that arrived before a failure stay in
the target. -/
inductive Outcome (α : Type)
  | full (b : List α)
  | closed (left : List α)
  | failed (left : List α)
deriving DecidableEq, Repr

/-- The bytes that arrived. -/
def Outcome.bytes : Outcome α → List α
  | .full b => b
  | .closed left => left
  | .failed left => left

/-- What an outcome consumes. -/
def Outcome.events : Outcome α → List (Ev α)
  | .full b => b.map .byte
  | .closed left => left.map .byte ++ [.eof]
  | .failed left => left.map .byte ++ [.error]

/-- A full outcome has the size of the record, a partial one is shorter. -/
def Outcome.Fits (n : ℕ) : Outcome α → Prop
  | .full b => b.length = n
  | .closed left => left.length < n
  | .failed left => left.length < n

def Outcome.prepend (done : List α) : Outcome α → Outcome α
  | .full b => .full (done ++ b)
  | .closed left => .closed (done ++ left)
  | .failed left => .failed (done ++ left)

/-- Puts back what a call left in the receive buffer. -/
def unread (b : List α) (c : List (Piece α)) : List (Piece α) :=
  if b = [] then c else .bytes b :: c

/-- Calls `read` until `n` bytes are there; `none` while it is still blocked. -/
def readFull (n : ℕ) (done : List α) : List (Piece α) → Option (Outcome α × List (Piece α))
  | [] => none
  | .error :: c => some (.failed done, c)
  | .bytes [] :: c => some (.closed done, c)
  | .bytes (a :: b) :: c =>
    if done.length + (a :: b).length < n then readFull n (done ++ a :: b) c
    else some (.full (done ++ (a :: b).take (n - done.length)),
      unread ((a :: b).drop (n - done.length)) c)

/-- The same on events, byte by byte. -/
def pull : ℕ → List (Ev α) → Option (Outcome α × List (Ev α))
  | 0, es => some (.full [], es)
  | _ + 1, [] => none
  | n + 1, .byte a :: es => (pull n es).map fun r => (r.1.prepend [a], r.2)
  | _ + 1, .eof :: es => some (.closed [], es)
  | _ + 1, .error :: es => some (.failed [], es)

/-! ## Reading a record -/

@[simp] theorem events_cons (p : Piece α) (c : List (Piece α)) :
    events (p :: c) = p.events ++ events c := rfl

theorem events_unread (b : List α) (c : List (Piece α)) :
    events (unread b c) = b.map .byte ++ events c := by
  unfold unread
  cases b with
  | nil => rfl
  | cons a b => rfl

@[simp] theorem prepend_nil (o : Outcome α) : o.prepend [] = o := by
  cases o <;> rfl

theorem prepend_append (done b : List α) (o : Outcome α) :
    o.prepend (done ++ b) = (o.prepend b).prepend done := by
  cases o <;> simp [Outcome.prepend]

/-- Bytes that fit into the record go into it. -/
theorem pull_bytes {b : List α} {n : ℕ} (h : b.length ≤ n) (es : List (Ev α)) :
    pull n (b.map .byte ++ es) =
      (pull (n - b.length) es).map fun r => (r.1.prepend b, r.2) := by
  induction b generalizing n with
  | nil => simp
  | cons a b ih =>
    cases n with
    | zero => simp at h
    | succ n =>
      have hb : b.length ≤ n := by simpa using h
      simp only [List.map_cons, List.cons_append, pull, ih hb, Option.map_map, List.length_cons,
        Nat.add_sub_add_right]
      congr 1
      funext r
      exact congrArg (·, r.2) (prepend_append [a] b r.1).symm

/-- The result of the loop does not depend on how the stream was cut. -/
theorem readFull_events {n : ℕ} {done : List α} (h : done.length < n) (c : List (Piece α)) :
    (readFull n done c).map (fun r => (r.1, events r.2)) =
      (pull (n - done.length) (events c)).map fun r => (r.1.prepend done, r.2) := by
  obtain ⟨k, hk⟩ : ∃ k, n - done.length = k + 1 := ⟨n - done.length - 1, by omega⟩
  induction c generalizing done k with
  | nil => simp [readFull, events, hk, pull]
  | cons p c ih =>
    cases p with
    | error => simp [readFull, events_cons, Piece.events, hk, pull, Outcome.prepend]
    | bytes b =>
      cases b with
      | nil => simp [readFull, events_cons, Piece.events, hk, pull, Outcome.prepend]
      | cons a b =>
        rw [events_cons, Piece.events, readFull]
        by_cases hlt : done.length + (a :: b).length < n
        · -- the record goes on in the next piece
          rw [if_pos hlt, pull_bytes (by omega)]
          have hlen : n - (done ++ a :: b).length = n - done.length - (a :: b).length := by
            rw [List.length_append]
            omega
          have hrest : (done ++ a :: b).length < n := by
            rw [List.length_append]
            exact hlt
          rw [ih hrest (n - (done ++ a :: b).length - 1) (by omega), hlen, Option.map_map]
          congr 1
          funext r
          exact congrArg (·, r.2) (prepend_append done (a :: b) r.1)
        · -- the piece completes the record
          rw [if_neg hlt]
          have htake : ((a :: b).take (n - done.length)).length = n - done.length := by
            rw [List.length_take]
            omega
          have hsplit : (a :: b).map Ev.byte = ((a :: b).take (n - done.length)).map Ev.byte ++
              ((a :: b).drop (n - done.length)).map Ev.byte := by
            rw [← List.map_append, List.take_append_drop]
          rw [hsplit, List.append_assoc, pull_bytes (by omega), htake, Nat.sub_self]
          simp [pull, events_unread, Outcome.prepend]

/-- Reading one record: exactly the events of an outcome of its size are consumed. -/
theorem pull_eq_some {n : ℕ} {es es' : List (Ev α)} {o : Outcome α} :
    pull n es = some (o, es') ↔ es = o.events ++ es' ∧ o.Fits n := by
  constructor
  · intro hp
    induction n generalizing es o with
    | zero =>
      obtain ⟨rfl, rfl⟩ := Prod.mk.inj (Option.some.inj hp)
      exact ⟨rfl, rfl⟩
    | succ n ih =>
      cases es with
      | nil => cases hp
      | cons e es =>
        cases e with
        | eof =>
          obtain ⟨rfl, rfl⟩ := Prod.mk.inj (Option.some.inj hp)
          exact ⟨rfl, Nat.succ_pos n⟩
        | error =>
          obtain ⟨rfl, rfl⟩ := Prod.mk.inj (Option.some.inj hp)
          exact ⟨rfl, Nat.succ_pos n⟩
        | byte a =>
          obtain ⟨⟨o', es''⟩, hr, heq⟩ := Option.map_eq_some_iff.mp hp
          obtain ⟨rfl, rfl⟩ := Prod.mk.inj heq
          obtain ⟨rfl, hfits⟩ := ih hr
          cases o' <;> simp_all [Outcome.prepend, Outcome.events, Outcome.Fits]
  · rintro ⟨rfl, hfits⟩
    cases o with
    | full b =>
      simp only [Outcome.Fits] at hfits
      simp only [Outcome.events]
      rw [pull_bytes hfits.le, hfits, Nat.sub_self]
      simp [pull, Outcome.prepend]
    | closed left | failed left =>
      simp only [Outcome.Fits] at hfits
      obtain ⟨k, hk⟩ : ∃ k, n - left.length = k + 1 := ⟨n - left.length - 1, by omega⟩
      simp only [Outcome.events, List.append_assoc]
      rw [pull_bytes hfits.le, hk]
      simp [pull, Outcome.prepend]

/-- Every call that does not complete the record uses up a piece for good. -/
theorem readFull_length {n : ℕ} {done : List α} {c c' : List (Piece α)} {o : Outcome α}
    (h : readFull n done c = some (o, c')) :
    c'.length ≤ c.length ∧ ((∀ b, o ≠ .full b) → c'.length < c.length) := by
  induction c generalizing done with
  | nil => cases h
  | cons p c ih =>
    cases p with
    | error =>
      obtain ⟨rfl, rfl⟩ := Prod.mk.inj (Option.some.inj h)
      exact ⟨Nat.le_succ _, fun _ => Nat.lt_succ_self _⟩
    | bytes b =>
      cases b with
      | nil =>
        obtain ⟨rfl, rfl⟩ := Prod.mk.inj (Option.some.inj h)
        exact ⟨Nat.le_succ _, fun _ => Nat.lt_succ_self _⟩
      | cons a b =>
        rw [readFull] at h
        split at h
        · obtain ⟨hle, hlt⟩ := ih h
          exact ⟨Nat.le_succ_of_le hle, fun hne => Nat.lt_succ_of_lt (hlt hne)⟩
        · obtain ⟨rfl, rfl⟩ := Prod.mk.inj (Option.some.inj h)
          refine ⟨?_, fun hne => absurd rfl (hne _)⟩
          unfold unread
          split
          · exact Nat.le_succ _
          · exact le_rfl

/-! ## A stream that ends -/

/-- A finite stream; its end is reported by as many calls as are asked for it. -/
def ended (b : List α) (k : ℕ) : List (Ev α) := b.map .byte ++ List.replicate k .eof

theorem events_append (c d : List (Piece α)) : events (c ++ d) = events c ++ events d :=
  List.flatMap_append

theorem events_replicate_eof (k : ℕ) :
    events (List.replicate k (.bytes [] : Piece α)) = List.replicate k .eof := by
  induction k with
  | zero => rfl
  | succ k ih => rw [List.replicate_succ, events_cons, ih]; rfl

/-- Nonempty pieces, and then calls that return nothing. -/
theorem events_ended {pieces : List (List α)} (hp : ∀ p ∈ pieces, p ≠ []) (k : ℕ) :
    events (pieces.map .bytes ++ List.replicate k (.bytes [])) = ended pieces.flatten k := by
  rw [events_append, events_replicate_eof, ended]
  congr 1
  induction pieces with
  | nil => rfl
  | cons p pieces ih =>
    obtain ⟨a, b, rfl⟩ := List.exists_cons_of_ne_nil (hp p List.mem_cons_self)
    rw [List.map_cons, events_cons, ih fun p h => hp p (List.mem_cons_of_mem _ h)]
    simp [Piece.events]

/-- The result of reading a record, by the events alone. -/
theorem readFull_pull {n : ℕ} (hn : 0 < n) (c : List (Piece α)) :
    (readFull n [] c).map (fun r => (r.1, events r.2)) = pull n (events c) := by
  have hdone : ([] : List α).length < n := hn
  simpa using readFull_events hdone c

theorem readFull_eq {n : ℕ} (hn : 0 < n) {c : List (Piece α)} {o : Outcome α} {es : List (Ev α)}
    (h : pull n (events c) = some (o, es)) :
    ∃ c', readFull n [] c = some (o, c') ∧ events c' = es := by
  rw [← readFull_pull hn, Option.map_eq_some_iff] at h
  obtain ⟨⟨o', c'⟩, hread, heq⟩ := h
  obtain ⟨rfl, rfl⟩ := Prod.mk.inj heq
  exact ⟨c', hread, rfl⟩

/-- A record that the stream still holds is read in full. -/
theorem readFull_ended {n : ℕ} (hn : 0 < n) {c : List (Piece α)} {b : List α} {k : ℕ}
    (hc : events c = ended b k) (hb : n ≤ b.length) :
    ∃ c', readFull n [] c = some (.full (b.take n), c') ∧ events c' = ended (b.drop n) k := by
  apply readFull_eq hn
  rw [hc, pull_eq_some]
  constructor
  · rw [Outcome.events, ended, ended, ← List.append_assoc, ← List.map_append,
      List.take_append_drop]
  · exact List.length_take_of_le hb

/-- A record of which the stream does not hold all is cut off by the end, and there is
nothing left. -/
theorem readFull_exhausted {n : ℕ} (hn : 0 < n) {c c' : List (Piece α)} {o : Outcome α}
    {b : List α} {k : ℕ} (hc : events c = ended b k) (hb : b.length < n)
    (h : readFull n [] c = some (o, c')) :
    o = .closed b ∧ ∃ k', k = k' + 1 ∧ events c' = ended [] k' := by
  have hpull : pull n (ended b k) = some (o, events c') := by
    rw [← hc, ← readFull_pull hn, h]
    rfl
  cases k with
  | zero =>
    -- the read would still be waiting
    obtain ⟨m, hm⟩ : ∃ m, n - b.length = m + 1 := ⟨n - b.length - 1, by omega⟩
    rw [ended, List.replicate_zero, pull_bytes hb.le, hm] at hpull
    cases hpull
  | succ k =>
    have hclosed : pull n (ended b (k + 1)) = some (.closed b, ended [] k) := by
      rw [pull_eq_some]
      refine ⟨?_, hb⟩
      simp [ended, Outcome.events, List.replicate_succ]
    rw [hclosed] at hpull
    obtain ⟨rfl, hrest⟩ := Prod.mk.inj (Option.some.inj hpull)
    exact ⟨rfl, k, rfl, hrest.symm⟩

/-! ## Several records in a row -/

theorem Outcome.Fits.length_events {n : ℕ} {o : Outcome α} (h : o.Fits n) :
    o.events.length ≤ n := by
  cases o with
  | full b => simpa [Outcome.events] using (show b.length = n from h).le
  | closed left => simpa [Outcome.events] using Nat.succ_le_of_lt h
  | failed left => simpa [Outcome.events] using Nat.succ_le_of_lt h

theorem length_flatMap_events {os : List (Outcome α)} {sizes : List ℕ}
    (h : List.Forall₂ (fun o n => o.Fits n) os sizes) :
    (os.flatMap Outcome.events).length ≤ sizes.sum := by
  induction h with
  | nil => simp
  | cons ho _ ih =>
    rw [List.flatMap_cons, List.length_append, List.sum_cons]
    exact Nat.add_le_add ho.length_events ih

/-- Plain bytes at the end of a stream lie behind every event that is not a byte. -/
theorem bytes_behind {X Y e : List (Ev α)} {x : Ev α} (hx : ∀ a, x ≠ .byte a) {b : List α}
    (h : X ++ x :: Y = e ++ b.map .byte) : b.length ≤ Y.length := by
  have hnot : x ∉ b.map Ev.byte := by
    intro hmem
    obtain ⟨a, _, ha⟩ := List.mem_map.mp hmem
    exact hx a ha.symm
  rcases List.append_eq_append_iff.mp h with ⟨m, _, hm⟩ | ⟨m, _, hm⟩
  · cases m with
    | nil =>
      rw [List.nil_append] at hm
      exact absurd (by rw [← hm]; exact List.mem_cons_self) hnot
    | cons y m =>
      obtain ⟨_, rfl⟩ := List.cons.inj hm
      simp
  · exact absurd (by rw [hm]; exact List.mem_append_right _ List.mem_cons_self) hnot

/-- If the stream ends in as many plain bytes as the records have, every record was
read in full. -/
theorem outcomes_full {os : List (Outcome α)} {sizes : List ℕ}
    (h : List.Forall₂ (fun o n => o.Fits n) os sizes) {X e : List (Ev α)} {b : List α}
    (hb : sizes.sum ≤ b.length) (heq : X ++ os.flatMap Outcome.events = e ++ b.map .byte) :
    ∀ o ∈ os, ∃ b, o = .full b := by
  induction h generalizing X with
  | nil => simp
  | @cons o n os sizes ho hos ih =>
    rw [List.sum_cons] at hb
    rw [List.flatMap_cons, ← List.append_assoc] at heq
    have hlen := length_flatMap_events hos
    have htail := ih (by omega) heq
    have hshort {left : List α} {x : Ev α} (hleft : left.length < n)
        (ho : o.events = left.map .byte ++ [x]) (hx : ∀ a, x ≠ .byte a) : False := by
      rw [ho, List.append_assoc, List.append_assoc, List.singleton_append,
        ← List.append_assoc] at heq
      have := bytes_behind hx heq
      omega
    intro o' ho'
    rcases List.mem_cons.mp ho' with rfl | ho'
    · cases o' with
      | full b => exact ⟨b, rfl⟩
      | closed left => exact (hshort ho rfl nofun).elim
      | failed left => exact (hshort ho rfl nofun).elim
    · exact htail o' ho'

/-- Records that were read in full are plain bytes. -/
theorem flatMap_events_full {os : List (Outcome α)} (h : ∀ o ∈ os, ∃ b, o = .full b) :
    os.flatMap Outcome.events = (os.flatMap Outcome.bytes).map .byte := by
  rw [List.map_flatMap]
  apply List.flatMap_congr
  intro o ho
  obtain ⟨b, rfl⟩ := h o ho
  rfl

theorem length_flatMap_bytes {os : List (Outcome α)} {sizes : List ℕ}
    (h : List.Forall₂ (fun o n => o.Fits n) os sizes) (hfull : ∀ o ∈ os, ∃ b, o = .full b) :
    (os.flatMap Outcome.bytes).length = sizes.sum := by
  induction h with
  | nil => rfl
  | cons ho _ ih =>
    rw [List.flatMap_cons, List.length_append, List.sum_cons,
      ih fun o ho => hfull o (List.mem_cons_of_mem _ ho)]
    obtain ⟨b, rfl⟩ := hfull _ List.mem_cons_self
    exact congrArg (· + _) ho

/-- An error on the stream is the end of a failed read. -/
theorem error_mem_events {o : Outcome α} : .error ∈ o.events ↔ ∃ left, o = .failed left := by
  cases o <;> simp [Outcome.events]

/-! ## Taking every piece for a record -/

/-- Two lists of blocks of one size with the same contents are equal. -/
theorem blocks_eq {n : ℕ} (hn : 0 < n) {l m : List (List α)} (hl : ∀ b ∈ l, b.length = n)
    (hm : ∀ b ∈ m, b.length = n) (h : l.flatten = m.flatten) : l = m := by
  induction l generalizing m with
  | nil =>
    cases m with
    | nil => rfl
    | cons b m =>
      have hb := hm b (by simp)
      have hnil : b = [] := (List.append_eq_nil_iff.mp h.symm).1
      rw [hnil] at hb
      exact absurd hb hn.ne
  | cons a l ih =>
    have ha := hl a (by simp)
    cases m with
    | nil =>
      have hnil : a = [] := (List.append_eq_nil_iff.mp h).1
      rw [hnil] at ha
      exact absurd ha hn.ne
    | cons b m =>
      have hb := hm b (by simp)
      obtain ⟨rfl, hrest⟩ := List.append_inj h (ha.trans hb.symm)
      rw [ih (fun x hx => hl x (by simp [hx])) (fun x hx => hm x (by simp [hx])) hrest]

/-- Pieces of at most `n` bytes that are as few as the contents allow are all full. -/
theorem pieces_full {n : ℕ} {l : List (List α)} (hle : ∀ b ∈ l, b.length ≤ n)
    (h : l.flatten.length = n * l.length) : ∀ b ∈ l, b.length = n := by
  have hbound (l : List (List α)) (hle : ∀ b ∈ l, b.length ≤ n) :
      l.flatten.length ≤ n * l.length := by
    rw [List.length_flatten, Nat.mul_comm]
    simpa using List.sum_le_card_nsmul (l.map List.length) n (by simpa using hle)
  induction l with
  | nil => simp
  | cons a l ih =>
    have ha := hle a (by simp)
    have hl := hbound l fun b hb => hle b (by simp [hb])
    rw [List.flatten_cons, List.length_append, List.length_cons, Nat.mul_succ] at h
    intro b hb
    rcases List.mem_cons.mp hb with rfl | hb
    · omega
    · exact ih (fun b hb => hle b (by simp [hb])) (by omega) b hb

end ByteStream
