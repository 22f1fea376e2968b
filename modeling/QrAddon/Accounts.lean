import QrAddon.Backup
import QrAddon.Documents
import QrAddon.Lib.Words

/-!
# The account

`Account::inputAccount` reads `account.yaml` and, as long as one of the two texts in it is
empty, asks for a name and a password on the standard input until a login returns a session
id. Only then is the file written, and nothing checks how that ends. A file with two texts is
taken as it is. What the dialog leaves of the input goes to `execUserCommand`, which ends the
program at a `q`.

The file keeps what is left in it, and a start finds it. A start whose dialog is still
going on has no loop.

Results:
1. `dialog_words`: the logins of a dialog carry the words of the input, two by two, and a
   `q` ends the program only behind the last of them.
2. `accounts_accepted`: across any starts, if the file is written in full or not at all, main's
   loop logs in with a pair that a dialog's login was answered for, and the file holds such
   pairs only.
3. `account_settled`: from the first complete file on, nothing that is typed or answered
   changes the account.
-/

namespace QrAddon

/-! ## The input -/

/-- `std::cin >> s`. At the end of the input `s` stays as it is. -/
def extract (stdin : List Char) (s : String) : List Char × String :=
  match Words.next? isSpace stdin with
  | none => ([], s)
  | some (w, rest) => (rest, String.ofList w)

/-- How the thread of `execUserCommand` goes on: it has raised `SIGTERM`, it has returned, or
it reads on, also behind the end of the input. -/
inductive CommandThread
  | raised
  | returned
  | reading
deriving DecidableEq, Repr

/-- `execUserCommand`. A NUL ends the loop. -/
def execUserCommand : List Char → CommandThread
  | [] => .reading
  | quit :: stdin =>
    if quit = Char.ofNat 0 then .returned
    else if quit = 'q' ∨ quit = 'Q' then .raised
    else execUserCommand stdin

/-! ## The dialog -/

/-- A login of the dialog and the reply to it. -/
structure Attempt (V : Type) where
  login : SessionLogin
  reply : Reply V

/-- How the file is written: it cannot be opened, the whole document is written, or something
else is left, from which a start reads two texts or not even those. -/
inductive SaveOutcome
  | refused
  | whole
  | cut (left : Option Account)
deriving DecidableEq, Repr

/-- What a start reads from the file behind the writing of `account`, with `none` where it
throws. -/
def SaveOutcome.leaves (save : SaveOutcome) (file : Option Account) (account : Account) :
    Option Account :=
  match save with
  | .refused => file
  | .whole => some account
  | .cut left => left

/-- What a start leaves when it has used up the replies: the account, unless the dialog goes
on, the file cannot be read or a reply misuses an accessor, what the next start reads from
`account.yaml`, the rest of the input and the logins that were answered. -/
structure Entered (V : Type) where
  account : Option Account
  file : Option Account
  stdin : List Char
  attempts : List (Attempt V)

section

variable {V : Type} (j : JsonReader V) (save : SaveOutcome)

namespace Account

/-- From the label `INPUTACCOUNT` on, once for every reply. -/
def enter (file : Option Account) (account : Account) (stdin : List Char) (ids : SessionIds) :
    List (Reply V) → Entered V
  | [] => ⟨none, file, stdin, []⟩
  | reply :: replies =>
    let name := extract stdin account.userName
    let word := extract name.1 account.passWord
    let account : Account := ⟨name.2, word.2⟩
    let stdin := word.1
    let localId : UInt64 := 3333
    match ({ ids with main := "" } : SessionIds).getSessionId j reply with
    | none => ⟨none, file, stdin, []⟩
    | some ids =>
      let attempt : Attempt V :=
        ⟨RpcClientSessLogIn.writeJsonLogIn "sessionLogin" localId account, reply⟩
      if ids.main = "" then
        let e := enter file account stdin ids replies
        { e with attempts := attempt :: e.attempts }
      else ⟨some account, save.leaves file account, stdin, [attempt]⟩

/-- `inputAccount`, for the replies to its logins. A file that cannot be read stops the
program. -/
def inputAccount (file : Option Account) (stdin : List Char) (replies : List (Reply V)) :
    Entered V :=
  match file with
  | none => ⟨none, none, stdin, []⟩
  | some account =>
    if account.userName = "" ∨ account.passWord = "" then
      enter j save file account stdin ⟨"", ""⟩ replies
    else ⟨some account, file, stdin, []⟩

end Account

end

/-- Both texts are there. -/
def Account.Complete (a : Account) : Prop := a.userName ≠ "" ∧ a.passWord ≠ ""

instance (a : Account) : Decidable a.Complete := inferInstanceAs (Decidable (_ ∧ _))

/-- The account of each attempt: the next two words, and where there is none what the
attempt before it had. -/
def Account.typed (a : Account) (words : List String) : ℕ → Account
  | 0 => ⟨words.headD a.userName, words.tail.headD a.passWord⟩
  | k + 1 => typed ⟨words.headD a.userName, words.tail.headD a.passWord⟩ (words.drop 2) k

/-- The words of an input. -/
def inputWords (stdin : List Char) : List String := (Words.all isSpace stdin).map String.ofList

/-- The login carries the account. -/
def SessionLogin.Carries (q : SessionLogin) (a : Account) : Prop :=
  q.userName = a.userName ∧ q.password = a.passWord

section

variable {V : Type} (j : JsonReader V)

/-- The reply had a session id. -/
def Attempt.Answered (t : Attempt V) : Prop := ∃ id ∈ returnedId j t.reply, id ≠ ""

/-- What a dialog has done that started with the texts of `account`. -/
structure Entered.Follows (save : SaveOutcome) (file : Option Account) (account : Account)
    (stdin : List Char) (e : Entered V) : Prop where
  logins : ∀ k, ∀ t ∈ e.attempts[k]?, t.login =
    RpcClientSessLogIn.writeJsonLogIn "sessionLogin" 3333 (account.typed (inputWords stdin) k)
  refused : ∀ t ∈ e.attempts.dropLast, ¬ t.Answered j
  goesOn : e.account = none → e.file = file ∧ ∀ t ∈ e.attempts, ¬ t.Answered j
  entered : ∀ a ∈ e.account, e.file = save.leaves file a ∧
    (∃ t ∈ e.attempts.getLast?, t.login.Carries a ∧ t.Answered j) ∧
    inputWords e.stdin = (inputWords stdin).drop (2 * e.attempts.length) ∧ e.stdin <:+ stdin

end

namespace AccountLemmas

/-! ### The input -/

theorem extract_words (stdin : List Char) (s : String) :
    (extract stdin s).2 = (inputWords stdin).headD s ∧
      inputWords (extract stdin s).1 = (inputWords stdin).tail ∧
      (extract stdin s).1 <:+ stdin := by
  unfold extract
  cases h : Words.next? isSpace stdin with
  | none =>
    have hwords : inputWords stdin = [] := by
      rw [inputWords, Words.all_of_none h]
      rfl
    rw [hwords]
    exact ⟨rfl, rfl, List.nil_suffix⟩
  | some r =>
    obtain ⟨w, rest⟩ := r
    have hwords : inputWords stdin = String.ofList w :: inputWords rest := by
      rw [inputWords, Words.all_of_some h]
      rfl
    obtain ⟨blank, hstdin, _⟩ := Words.append_of_some h
    rw [hwords]
    exact ⟨rfl, rfl, blank ++ w, hstdin.symm⟩

theorem execUserCommand_raised (stdin : List Char) :
    execUserCommand stdin = .raised ↔ ∃ before quit behind,
      stdin = before ++ quit :: behind ∧ (quit = 'q' ∨ quit = 'Q') ∧
        Char.ofNat 0 ∉ before := by
  induction stdin with
  | nil =>
    constructor
    · intro h
      cases h
    · rintro ⟨before, quit, behind, h, _⟩
      simp at h
  | cons c stdin ih =>
    unfold execUserCommand
    by_cases hnul : c = Char.ofNat 0
    · rw [if_pos hnul]
      constructor
      · intro h
        cases h
      · rintro ⟨before, quit, behind, h, hquit, hfree⟩
        exfalso
        cases before with
        | nil =>
          obtain rfl := (List.cons.inj h).1
          rcases hquit with rfl | rfl <;> exact absurd hnul (by decide)
        | cons d before =>
          obtain rfl := (List.cons.inj h).1
          exact hfree (hnul ▸ List.mem_cons_self)
    · rw [if_neg hnul]
      by_cases hq : c = 'q' ∨ c = 'Q'
      · rw [if_pos hq]
        exact ⟨fun _ => ⟨[], c, stdin, rfl, hq, List.not_mem_nil⟩, fun _ => rfl⟩
      · rw [if_neg hq, ih]
        constructor
        · rintro ⟨before, quit, behind, rfl, hquit, hfree⟩
          refine ⟨c :: before, quit, behind, rfl, hquit, ?_⟩
          rw [List.mem_cons, not_or]
          exact ⟨Ne.symm hnul, hfree⟩
        · rintro ⟨before, quit, behind, h, hquit, hfree⟩
          cases before with
          | nil =>
            obtain rfl := (List.cons.inj h).1
            exact absurd hquit hq
          | cons d before =>
            exact ⟨before, quit, behind, (List.cons.inj h).2, hquit,
              fun hmem => hfree (List.mem_cons_of_mem _ hmem)⟩

/-! ### The dialog -/

variable {V : Type} {j : JsonReader V} {save : SaveOutcome}

theorem answered_iff {ids ids' : SessionIds} {t : Attempt V}
    (h : ids.getSessionId j t.reply = some ids') : t.Answered j ↔ ids'.main ≠ "" := by
  rw [getSessionId_main h, Attempt.Answered]
  cases returnedId j t.reply <;> simp

/-- Two words and a login. -/
theorem extract_two (account : Account) (stdin : List Char) :
    (⟨(extract stdin account.userName).2,
        (extract (extract stdin account.userName).1 account.passWord).2⟩ : Account) =
        account.typed (inputWords stdin) 0 ∧
      inputWords (extract (extract stdin account.userName).1 account.passWord).1 =
        (inputWords stdin).drop 2 ∧
      (extract (extract stdin account.userName).1 account.passWord).1 <:+ stdin := by
  obtain ⟨hname, hwords, hsuffix⟩ := extract_words stdin account.userName
  obtain ⟨hword, hwords', hsuffix'⟩ :=
    extract_words (extract stdin account.userName).1 account.passWord
  refine ⟨?_, ?_, hsuffix'.trans hsuffix⟩
  · rw [hname, hword, hwords]
    rfl
  · rw [hwords', hwords, ← List.drop_one, ← List.drop_one, List.drop_drop]

theorem typed_succ (account : Account) (words : List String) (k : ℕ) :
    account.typed words (k + 1) = (account.typed words 0).typed (words.drop 2) k := rfl

theorem follows_none (file : Option Account) (account : Account) (stdin stdin' : List Char) :
    (⟨none, file, stdin', []⟩ : Entered V).Follows j save file account stdin where
  logins := by simp
  refused := by simp
  goesOn _ := ⟨rfl, by simp⟩
  entered := by simp

/-- An attempt that is refused, and a dialog that begins with its texts. -/
theorem follows_again {file : Option Account} {account : Account} {stdin stdin' : List Char}
    {attempt : Attempt V}
    (hlogin : attempt.login = RpcClientSessLogIn.writeJsonLogIn "sessionLogin" 3333
      (account.typed (inputWords stdin) 0))
    (hnot : ¬ attempt.Answered j) (hwords : inputWords stdin' = (inputWords stdin).drop 2)
    (hsuffix : stdin' <:+ stdin) {e : Entered V}
    (h : e.Follows j save file (account.typed (inputWords stdin) 0) stdin') :
    ({ e with attempts := attempt :: e.attempts } : Entered V).Follows j save file account
      stdin := by
  obtain ⟨hlogins, hrefused, hgoesOn, hentered⟩ := h
  rw [hwords] at hlogins hentered
  constructor
  · intro k t ht
    cases k with
    | zero =>
      obtain rfl := Option.some.inj ht
      exact hlogin
    | succ k =>
      rw [typed_succ]
      exact hlogins k t ht
  · show ∀ t ∈ (attempt :: e.attempts).dropLast, _
    intro t ht
    cases hl : e.attempts with
    | nil =>
      rw [hl] at ht
      cases ht
    | cons t' l =>
      rw [hl, List.dropLast_cons_cons, ← hl] at ht
      rcases List.mem_cons.mp ht with rfl | ht
      · exact hnot
      · exact hrefused t ht
  · intro hnone
    obtain ⟨hfile, hall⟩ := hgoesOn hnone
    refine ⟨hfile, ?_⟩
    intro t ht
    rcases List.mem_cons.mp ht with rfl | ht
    · exact hnot
    · exact hall t ht
  · intro a ha
    obtain ⟨hfile, ⟨t, ht, hanswered⟩, hrest, hsuffix'⟩ := hentered a ha
    refine ⟨hfile, ⟨t, ?_, hanswered⟩, ?_, hsuffix'.trans hsuffix⟩
    · show t ∈ (attempt :: e.attempts).getLast?
      rw [List.getLast?_cons, Option.mem_def.mp ht]
      rfl
    · rw [hrest, List.drop_drop, List.length_cons, Nat.mul_succ, Nat.add_comm]

/-- An attempt that is answered. -/
theorem follows_entered (file : Option Account) {account : Account} {stdin stdin' : List Char}
    {attempt : Attempt V}
    (hlogin : attempt.login = RpcClientSessLogIn.writeJsonLogIn "sessionLogin" 3333
      (account.typed (inputWords stdin) 0))
    (hanswered : attempt.Answered j) (hwords : inputWords stdin' = (inputWords stdin).drop 2)
    (hsuffix : stdin' <:+ stdin) :
    (⟨some (account.typed (inputWords stdin) 0),
      save.leaves file (account.typed (inputWords stdin) 0), stdin', [attempt]⟩ :
        Entered V).Follows j save file account stdin := by
  constructor
  · intro k t ht
    cases k with
    | zero =>
      obtain rfl := Option.some.inj ht
      exact hlogin
    | succ k => cases ht
  · intro t ht
    cases ht
  · intro h
    cases h
  · intro a ha
    obtain rfl := Option.some.inj ha
    refine ⟨rfl, ⟨attempt, rfl, ?_, hanswered⟩, hwords, hsuffix⟩
    rw [hlogin]
    exact ⟨rfl, rfl⟩

theorem enter_follows (file : Option Account) (account : Account) (stdin : List Char)
    (ids : SessionIds) (replies : List (Reply V)) :
    (Account.enter j save file account stdin ids replies).Follows j save file account
      stdin := by
  induction replies generalizing account stdin ids with
  | nil => exact follows_none file account stdin stdin
  | cons reply replies ih =>
    obtain ⟨haccount, hwords, hsuffix⟩ := extract_two account stdin
    unfold Account.enter
    simp only [haccount]
    cases hids : SessionIds.getSessionId j { ids with main := "" } reply with
    | none => exact follows_none file account stdin _
    | some ids' =>
      have hanswered := answered_iff (t := ⟨RpcClientSessLogIn.writeJsonLogIn "sessionLogin" 3333
        (account.typed (inputWords stdin) 0), reply⟩) hids
      by_cases hempty : ids'.main = ""
      · simp only [hempty, if_true]
        exact follows_again rfl (fun h => hanswered.mp h hempty) hwords hsuffix (ih _ _ _)
      · simp only [hempty, if_false]
        exact follows_entered file rfl (hanswered.mpr hempty) hwords hsuffix

theorem typed_words (account : Account) {words : List String} {k : ℕ}
    (h : 2 * k + 1 < words.length) : account.typed words k = ⟨words[2 * k], words[2 * k + 1]⟩ := by
  induction k generalizing account words with
  | zero =>
    obtain _ | ⟨u, _ | ⟨p, words⟩⟩ := words
    · simp at h
    · simp at h
    · rfl
  | succ k ih =>
    have hdrop : 2 * k + 1 < (words.drop 2).length := by
      rw [List.length_drop]
      omega
    rw [typed_succ, ih _ hdrop, List.getElem_drop, List.getElem_drop]
    congr 2 <;> ring

/-- Behind the last word every attempt repeats the one before it. -/
theorem typed_repeats (account : Account) {words : List String} {k : ℕ}
    (h : words.length ≤ 2 * (k + 1)) : account.typed words (k + 1) = account.typed words k := by
  induction k generalizing account words with
  | zero =>
    have hnil : words.drop 2 = [] := List.drop_eq_nil_of_le h
    rw [typed_succ, hnil]
    rfl
  | succ k ih =>
    have hdrop : (words.drop 2).length ≤ 2 * (k + 1) := by
      rw [List.length_drop]
      omega
    rw [typed_succ, ih _ hdrop]
    rfl

theorem inputAccount_complete {file : Account} (h : file.Complete) (stdin : List Char)
    (replies : List (Reply V)) :
    Account.inputAccount j save (some file) stdin replies =
      ⟨some file, some file, stdin, []⟩ :=
  if_neg (not_or.mpr h)

theorem inputAccount_follows {file : Account} (h : ¬ file.Complete) (stdin : List Char)
    (replies : List (Reply V)) :
    (Account.inputAccount j save (some file) stdin replies).Follows j save (some file) file
      stdin := by
  have hempty : file.userName = "" ∨ file.passWord = "" := by
    by_contra hnot
    exact h (not_or.mp hnot)
  rw [Account.inputAccount, if_pos hempty]
  exact enter_follows (some file) file stdin _ replies

end AccountLemmas

open AccountLemmas

/-- A dialog takes the words of the input two by two, one pair for each login, and repeats
the last ones behind the end of the input. It ends with the first login that is answered. What
it leaves ends the program at the first `q`, unless a NUL stands in front of it. -/
theorem dialog_words {V : Type} (j : JsonReader V) (save : SaveOutcome) {file : Account}
    (hfile : ¬ file.Complete) (stdin : List Char) (replies : List (Reply V)) :
    (Account.inputAccount j save (some file) stdin replies).Follows j save (some file) file
        stdin ∧
      (∀ k, ∀ h : 2 * k + 1 < (inputWords stdin).length, file.typed (inputWords stdin) k =
        ⟨(inputWords stdin)[2 * k], (inputWords stdin)[2 * k + 1]⟩) ∧
      (∀ k, (inputWords stdin).length ≤ 2 * (k + 1) →
        file.typed (inputWords stdin) (k + 1) = file.typed (inputWords stdin) k) ∧
      (execUserCommand (Account.inputAccount j save (some file) stdin replies).stdin = .raised ↔
        ∃ before quit behind,
          (Account.inputAccount j save (some file) stdin replies).stdin =
            before ++ quit :: behind ∧
            (quit = 'q' ∨ quit = 'Q') ∧ Char.ofNat 0 ∉ before) :=
  ⟨inputAccount_follows hfile stdin replies, fun _ h => typed_words file h,
    fun _ h => typed_repeats file h, execUserCommand_raised _⟩

/-- A refused pair, and an accepted one. -/
def exTyped : List Char := "ann wrong\nann right\n".toList

/-- The replies to them. -/
def exReplies : List (Reply Json) := [[], [some (exResponse "abc")]]

theorem dialog_exTyped :
    (Account.inputAccount Json.reader .whole (some ⟨"", ""⟩) exTyped exReplies).account =
        some ⟨"ann", "right"⟩ ∧
      (Account.inputAccount Json.reader .whole (some ⟨"", ""⟩) exTyped exReplies).Follows
        Json.reader .whole (some ⟨"", ""⟩) ⟨"", ""⟩ exTyped :=
  ⟨by decide, (dialog_words Json.reader .whole (by decide) exTyped exReplies).1⟩

/-! ## Starts of the program -/

/-- What a start reads from `account.yaml`, the machine, the account of the running loop, and
the answered logins of all dialogs. -/
structure Program (V : Type) where
  file : Option Account
  machine : Machine
  account : Option Account
  attempts : List (Attempt V)

namespace Program

variable {V : Type} (j : JsonReader V)

/-- As shipped, with two empty texts in `account.yaml`. -/
def shipped : Program V := ⟨some ⟨"", ""⟩, Machine.start, none, []⟩

/-- The program ends and starts, or a move of the machine. -/
inductive Op (V : Type)
  | start (stdin : List Char) (replies : List (Reply V)) (save : SaveOutcome)
  | move (m : Machine.Move)

/-- Without an account main is not in its loop, and only the operator moves. -/
def op [Doubles] (cfg : Config ℚ) (p : Program V) : Op V → Program V
  | .start stdin replies save =>
    let e := Account.inputAccount j save p.file stdin replies
    ⟨e.file, p.machine.restart, e.account, p.attempts ++ e.attempts⟩
  | .move m =>
    match p.account, m with
    | some account, m => { p with machine := p.machine.move cfg account m }
    | none, .operator id enable => { p with machine := p.machine.operator id enable }
    | none, .package _ | none, .exec => p

/-- The program after the operations `l`. -/
def lives [Doubles] (cfg : Config ℚ) (p : Program V) (l : List (Op V)) : Program V :=
  Run.exec (op j cfg) p l

/-- If it writes the file, the start writes it in full or not at all. -/
def Op.Saves : Op V → Prop
  | .start _ _ save => save = .refused ∨ save = .whole
  | .move _ => True

instance : (o : Op V) → Decidable o.Saves
  | .start _ _ save => inferInstanceAs (Decidable (save = .refused ∨ save = .whole))
  | .move _ => .isTrue trivial

def Op.isStart : Op V → Bool
  | .start _ _ _ => true
  | .move _ => false

/-- A login of a dialog with the account got a session id. -/
def Accepted (p : Program V) (a : Account) : Prop :=
  ∃ t ∈ p.attempts, t.login.Carries a ∧ t.Answered j

/-- What holds of the program from its first start on, as long as the file is written in full
or not at all. -/
structure Sound (p : Program V) : Prop where
  account : ∀ a ∈ p.account, p.Accepted j a ∧
    (p.file = some a ∨ ∃ b, p.file = some b ∧ ¬ b.Complete)
  file : ∃ b, p.file = some b ∧ (b = ⟨"", ""⟩ ∨ p.Accepted j b)

/-- The logins of the current iteration carry the account of the running loop. -/
def OwnLogins (p : Program V) : Prop :=
  ∀ q, Event.login q ∈ p.machine.turn.events → ∃ a ∈ p.account, q.Carries a

/-- The file is complete, and no dialog has logged in since. -/
structure Settled (a : Account) (attempts : List (Attempt V)) (p : Program V) : Prop where
  complete : a.Complete
  file : p.file = some a
  attempts : p.attempts = attempts

end Program

section

variable [Doubles] {V : Type} {j : JsonReader V} {cfg : Config ℚ} {p : Program V}

namespace AccountLemmas

variable (j cfg) in
/-- A move changes only the machine. -/
theorem op_move (p : Program V) (m : Machine.Move) :
    ∃ s, p.op j cfg (.move m) = { p with machine := s } ∧
      ∀ q, Event.login q ∈ s.turn.events → Event.login q ∈ p.machine.turn.events ∨
        ∃ a ∈ p.account, q.Carries a := by
  obtain ⟨file, machine, account, attempts⟩ := p
  cases account with
  | some a =>
    refine ⟨machine.move cfg a m, rfl, ?_⟩
    intro q hq
    rcases DocumentLemmas.move_adds machine m _ hq with hq | ⟨rpcId, rfl⟩
    · exact .inl hq
    · exact .inr ⟨a, rfl, rfl, rfl⟩
  | none =>
    cases m with
    | operator id enable => exact ⟨machine.operator id enable, rfl, fun _ => .inl⟩
    | package i => exact ⟨machine, rfl, fun _ => .inl⟩
    | exec => exact ⟨machine, rfl, fun _ => .inl⟩

theorem ownLogins_op (h : p.OwnLogins) (o : Program.Op V) : (p.op j cfg o).OwnLogins := by
  cases o with
  | start stdin replies save => exact fun q hq => absurd hq List.not_mem_nil
  | move m =>
    obtain ⟨s, hop, hlogins⟩ := op_move j cfg p m
    rw [hop]
    exact fun q hq => (hlogins q hq).elim (h q) id

theorem accepted_mono {stdin : List Char} {replies : List (Reply V)} {save : SaveOutcome}
    {a : Account} (h : p.Accepted j a) : (p.op j cfg (.start stdin replies save)).Accepted j a := by
  obtain ⟨t, ht, hcarries, hanswered⟩ := h
  exact ⟨t, List.mem_append_left _ ht, hcarries, hanswered⟩

/-- A start that asks. -/
theorem sound_asked (h : p.Sound j) {b : Account} (hfile : p.file = some b)
    (hempty : ¬ b.Complete) (stdin : List Char) (replies : List (Reply V)) {save : SaveOutcome}
    (hsave : save = .refused ∨ save = .whole) :
    (p.op j cfg (.start stdin replies save)).Sound j := by
  have hfollows : (Account.inputAccount j save (some b) stdin replies).Follows j save (some b) b
      stdin := inputAccount_follows hempty stdin replies
  rw [← hfile] at hfollows
  have haccepted : ∀ a ∈ (Account.inputAccount j save p.file stdin replies).account,
      (p.op j cfg (.start stdin replies save)).Accepted j a := by
    intro a ha
    obtain ⟨_, ⟨t, ht, hcarries, hanswered⟩, _⟩ := hfollows.entered a ha
    exact ⟨t, List.mem_append_right _ (List.mem_of_getLast? ht), hcarries, hanswered⟩
  have hkept : (Account.inputAccount j save p.file stdin replies).file = p.file →
      ∃ c, (p.op j cfg (.start stdin replies save)).file = some c ∧
        (c = ⟨"", ""⟩ ∨ (p.op j cfg (.start stdin replies save)).Accepted j c) := by
    intro hsame
    obtain ⟨c, hc, hor⟩ := h.file
    exact ⟨c, hsame.trans hc, hor.imp id accepted_mono⟩
  constructor
  · intro a ha
    have hleft := (hfollows.entered a ha).1
    refine ⟨haccepted a ha, ?_⟩
    rcases hsave with rfl | rfl
    · exact .inr ⟨b, hleft.trans hfile, hempty⟩
    · exact .inl hleft
  · cases haccount : (Account.inputAccount j save p.file stdin replies).account with
    | none => exact hkept (hfollows.goesOn haccount).1
    | some a =>
      have hleft := (hfollows.entered a haccount).1
      rcases hsave with rfl | rfl
      · exact hkept hleft
      · exact ⟨a, hleft, .inr (haccepted a haccount)⟩

theorem sound_op (h : p.Sound j) {o : Program.Op V} (ho : o.Saves) : (p.op j cfg o).Sound j := by
  cases o with
  | start stdin replies save =>
    obtain ⟨b, hfile, hor⟩ := h.file
    by_cases hcomplete : b.Complete
    · have haccepted : p.Accepted j b := by
        rcases hor with rfl | haccepted
        · exact absurd rfl hcomplete.1
        · exact haccepted
      have hsame : Account.inputAccount j save p.file stdin replies =
          ⟨some b, some b, stdin, []⟩ := by
        rw [hfile]
        exact inputAccount_complete hcomplete stdin replies
      have hop : p.op j cfg (.start stdin replies save) =
          ⟨some b, p.machine.restart, some b, p.attempts⟩ := by
        simp only [Program.op, hsame, List.append_nil]
      rw [hop]
      refine ⟨fun a ha => ?_, b, rfl, .inr haccepted⟩
      obtain rfl := Option.some.inj ha
      exact ⟨haccepted, .inl rfl⟩
    · exact sound_asked h hfile hcomplete stdin replies ho
  | move m =>
    obtain ⟨s, hop, _⟩ := op_move j cfg p m
    rw [hop]
    exact ⟨h.account, h.file⟩

theorem lives_append (l l' : List (Program.Op V)) :
    p.lives j cfg (l ++ l') = (p.lives j cfg l).lives j cfg l' := Run.exec_append _ _ _

theorem ownLogins_lives (cfg : Config ℚ) (l : List (Program.Op V)) :
    (Program.shipped.lives j cfg l).OwnLogins :=
  Run.exec_invariant (fun q hq => by cases hq) fun v _ h => ownLogins_op h v.2

theorem sound_lives (cfg : Config ℚ) {l : List (Program.Op V)} (hl : ∀ o ∈ l, o.Saves) :
    (Program.shipped.lives j cfg l).Sound j := by
  refine Run.exec_invariant ⟨nofun, ⟨"", ""⟩, rfl, .inl rfl⟩ fun v hv h => sound_op h ?_
  have hmem := List.mem_map_of_mem (f := Prod.snd) hv
  rw [Run.visits_inputs] at hmem
  exact hl _ hmem

variable {a : Account} {attempts : List (Attempt V)}

/-- A start takes the file as it is. -/
theorem settled_start (h : p.Settled a attempts) (stdin : List Char) (replies : List (Reply V))
    (save : SaveOutcome) : p.op j cfg (.start stdin replies save) =
      ⟨some a, p.machine.restart, some a, attempts⟩ := by
  have hsame : Account.inputAccount j save p.file stdin replies =
      ⟨some a, some a, stdin, []⟩ := by
    rw [h.file]
    exact inputAccount_complete h.complete stdin replies
  rw [← h.attempts]
  simp only [Program.op, hsame, List.append_nil]

theorem settled_op (h : p.Settled a attempts) (o : Program.Op V) :
    (p.op j cfg o).Settled a attempts := by
  cases o with
  | start stdin replies save =>
    rw [settled_start h]
    exact ⟨h.complete, rfl, rfl⟩
  | move m =>
    obtain ⟨s, hop, _⟩ := op_move j cfg p m
    rw [hop]
    exact ⟨h.complete, h.file, h.attempts⟩

theorem settled_lives (h : p.Settled a attempts) (l : List (Program.Op V)) :
    (p.lives j cfg l).Settled a attempts :=
  Run.exec_invariant h fun v _ h => settled_op h v.2

/-- A loop that has the pair in the file keeps it. -/
theorem account_lives (h : p.Settled a attempts) (haccount : ∀ b ∈ p.account, b = a)
    (l : List (Program.Op V)) : ∀ b ∈ (p.lives j cfg l).account, b = a := by
  refine (Run.exec_invariant (P := fun p : Program V => p.Settled a attempts ∧
    ∀ b ∈ p.account, b = a) ⟨h, haccount⟩ fun v _ hv => ⟨settled_op hv.1 v.2, ?_⟩).2
  obtain ⟨p, o⟩ := v
  cases o with
  | start stdin replies save =>
    rw [settled_start hv.1]
    exact fun b hb => (Option.some.inj hb).symm
  | move m =>
    obtain ⟨s, hop, _⟩ := op_move j cfg p m
    rw [hop]
    exact hv.2

/-- A start in between gives it to the loop. -/
theorem account_started (h : p.Settled a attempts) {l : List (Program.Op V)}
    (hl : ∃ o ∈ l, o.isStart = true) : ∀ b ∈ (p.lives j cfg l).account, b = a := by
  obtain ⟨o, ho, hstart⟩ := hl
  obtain ⟨l₁, l₂, rfl⟩ := List.append_of_mem ho
  have hmid : (p.lives j cfg l₁).Settled a attempts := settled_lives h l₁
  rw [lives_append]
  show ∀ b ∈ (((p.lives j cfg l₁).op j cfg o).lives j cfg l₂).account, b = a
  refine account_lives (settled_op hmid o) ?_ l₂
  cases o with
  | start stdin replies save =>
    rw [settled_start hmid]
    exact fun b hb => (Option.some.inj hb).symm
  | move m => cases hstart

end AccountLemmas

variable (j) (cfg)

/-- Across any starts of the program as shipped, whatever is typed and answered, and as long as
the file is written in full or cannot be opened: every login of the loop carries the account of
the loop. ROKIT has answered a dialog's login with that pair by a session id, and the file holds
it, or is still incomplete. Nothing but such pairs and the two empty texts is ever in the
file. -/
theorem accounts_accepted {l : List (Program.Op V)} (hl : ∀ o ∈ l, o.Saves) :
    let p := Program.shipped.lives j cfg l
    (∀ q, Event.login q ∈ p.machine.turn.events → ∃ a ∈ p.account, q.Carries a) ∧
      (∀ a ∈ p.account, p.Accepted j a ∧
        (p.file = some a ∨ ∃ b, p.file = some b ∧ ¬ b.Complete)) ∧
      ∃ b, p.file = some b ∧ (b = ⟨"", ""⟩ ∨ p.Accepted j b) := by
  have h := sound_lives (j := j) cfg hl
  exact ⟨ownLogins_lives cfg l, h.account, h.file⟩

end

section

open scoped Exact

/-- The file cannot be opened at the first start, and is written at the second one. -/
def exSaved : List (Program.Op Json) :=
  [.start exTyped exReplies .refused, .move (.operator 7 true), .start exTyped exReplies .whole]

theorem accounts_exSaved :
    (Program.shipped.lives Json.reader exConfig exSaved).file = some ⟨"ann", "right"⟩ ∧
      ∀ a ∈ (Program.shipped.lives Json.reader exConfig exSaved).account,
        (Program.shipped.lives Json.reader exConfig exSaved).Accepted Json.reader a :=
  ⟨by decide, fun a ha =>
    ((accounts_accepted Json.reader exConfig (l := exSaved) (by decide)).2.1 a ha).1⟩

end

section

variable [Doubles] {V : Type} (j : JsonReader V) (cfg : Config ℚ)

/-- From the first complete file on, however it came to be, the account is settled: no start
asks or logs in again, the file stays, and every login carries the account of the loop. That is
the pair in the file, from the next start on, and at once if the file was written in full or
not at all until then. -/
theorem account_settled {l : List (Program.Op V)} {a : Account}
    (hfile : (Program.shipped.lives j cfg l).file = some a) (hcomplete : a.Complete)
    (l' : List (Program.Op V)) :
    let p := Program.shipped.lives j cfg (l ++ l')
    p.Settled a (Program.shipped.lives j cfg l).attempts ∧
      (∀ q, Event.login q ∈ p.machine.turn.events → ∃ b ∈ p.account, q.Carries b) ∧
      ((∃ o ∈ l', o.isStart = true) ∨ (∀ o ∈ l, o.Saves) → ∀ b ∈ p.account, b = a) := by
  have hsettled : (Program.shipped.lives j cfg l).Settled a
      (Program.shipped.lives j cfg l).attempts := ⟨hcomplete, hfile, rfl⟩
  refine ⟨?_, ownLogins_lives cfg (l ++ l'), ?_⟩
  · rw [lives_append]
    exact settled_lives hsettled l'
  · rw [lives_append]
    rintro (hstart | hsaves)
    · exact account_started hsettled hstart
    · refine account_lives hsettled (fun b hb => ?_) l'
      rcases ((sound_lives (j := j) cfg hsaves).account b hb).2 with hsame | ⟨c, hc, hempty⟩
      · exact (Option.some.inj (hfile.symm.trans hsame)).symm
      · obtain rfl := Option.some.inj (hfile.symm.trans hc)
        exact absurd hcomplete hempty

end

open scoped Exact

/-- A start at which the pair is accepted, and one at which something else is typed. -/
theorem account_exTyped :
    let l : List (Program.Op Json) := [.start exTyped exReplies .whole]
    let l' : List (Program.Op Json) := [.start "bob q".toList [] .refused]
    (Program.shipped.lives Json.reader exConfig l).file = some ⟨"ann", "right"⟩ ∧
      (Program.shipped.lives Json.reader exConfig (l ++ l')).Settled ⟨"ann", "right"⟩
        (Program.shipped.lives Json.reader exConfig l).attempts :=
  ⟨by decide, (account_settled Json.reader exConfig (l := [.start exTyped exReplies .whole])
    (a := ⟨"ann", "right"⟩) (by decide) (by decide) [.start "bob q".toList [] .refused]).1⟩

end QrAddon
