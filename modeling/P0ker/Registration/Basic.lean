import P0ker.Pages.Login

/-!
# Registration: any number of Login forms over one backend

The system of Login forms that share the `users` collection, and what is true of every message in
it: which calls there are, and which answers led to them (`Sent`).
-/

namespace P0ker.Registration

open Async Login

variable {ι : Type} [DecidableEq ι]

abbrev LoginMessage (ι : Type) := Message ι (Call Cont) Answer

abbrev LoginConfig (ι : Type) := Config ι LoginState (Backend ι) (Call Cont) Answer

abbrev LoginAction (ι : Type) := Action ι Event Unit Outcome

/-- Fresh forms over a backend `b`, nothing in flight. -/
def start (b : Backend ι) : LoginConfig ι :=
  Config.start (fun _ => {}) b []

def loginSystem (ι : Type) [DecidableEq ι] (B : Backend ι → Prop) :
    Machine (LoginConfig ι) (LoginAction ι) :=
  Async.system program (firebase ι Cont) fun c => ∃ b, B b ∧ c = start b

/-! ## The calls of a form, and the answers that lead to them -/

/-- `saveUserData()` for a user `k`, with the e-mail and the name the form held at that moment. -/
def saveCall (k : String) (email username : Option String) : Call Cont :=
  ⟨.saveUserData, .setData (userPath (some k))
    [("uid", .str k), ("email", .ofString email), ("brukernavn", .ofString username)]⟩

/-- A call of a form, and the answers that led to it: a query and a `signIn` come from a button, or
a `signIn` from a query's answer; `createUser` comes from a query that found its name free, and a
profile is written on the answer of a `createUser`. -/
inductive Sent : Call Cont → List (Call Cont × Answer) → Prop
  | query (n : String) : Sent (usernameQuery n) []
  | signIn (e p : Option String) (cause : List (Call Cont × Answer)) :
      Sent ⟨.signIn, .signIn e p⟩ cause
  | createUser (e p n : String) :
      Sent ⟨.createUser, .createUser (some e) (some p)⟩ [(usernameQuery n, .documents [])]
  | save (k e p n : String) (email username : Option String) :
      Sent (saveCall k email username)
        [(⟨.createUser, .createUser (some e) (some p)⟩, .uid k),
          (usernameQuery n, .documents [])]

theorem Sent.inv {call : Call Cont} {cause : List (Call Cont × Answer)} (h : Sent call cause) :
    (∃ n, call = usernameQuery n ∧ cause = []) ∨
    (∃ e p, call = ⟨.signIn, .signIn e p⟩) ∨
    (∃ e p n, call = ⟨.createUser, .createUser (some e) (some p)⟩ ∧
      cause = [(usernameQuery n, .documents [])]) ∨
    (∃ k e p n email username, call = saveCall k email username ∧
      cause = [(⟨.createUser, .createUser (some e) (some p)⟩, .uid k),
        (usernameQuery n, .documents [])]) := by
  cases h with
  | query n => exact Or.inl ⟨n, rfl, rfl⟩
  | signIn e p => exact Or.inr (Or.inl ⟨e, p, rfl⟩)
  | createUser e p n => exact Or.inr (Or.inr (Or.inl ⟨e, p, n, rfl, rfl⟩))
  | save k e p n email username =>
      exact Or.inr (Or.inr (Or.inr ⟨k, e, p, n, email, username, rfl, rfl⟩))

/-- What an event of the interface issues: nothing, one query, or one `signIn`. -/
theorem onEvent_calls {s s' : LoginState} {e : Event} {out : List Effect}
    (h : onEvent s e = some (s', out)) :
    calls out = [] ∨
      (e = .pressRegister ∧ calls out = [usernameQuery (normalise s.usernameText)]) ∨
      (e = .pressLogin ∧ formErrors s = [] ∧ s' = formSave s ∧ calls out = [⟨.signIn,
        .signIn (some (normalise s.emailText)) (some (normalise s.passwordText))⟩]) := by
  cases (ran h).2 with
  | pressLogin hl =>
      by_cases he : formErrors s = []
      · rw [validateAndSubmit_login he hl]
        exact Or.inr (Or.inr ⟨rfl, he, rfl, rfl⟩)
      · rw [validateAndSubmit_invalid he]
        exact Or.inl rfl
  | pressRegister => exact Or.inr (Or.inl ⟨rfl, rfl⟩)
  -- the other events only edit the form
  | editUsername | editEmail | editPassword | moveToRegister | moveToLogin | dispose =>
      exact Or.inl rfl

/-- What the answer to a `createUser` issues: one profile, or nothing. -/
theorem onAnswer_createUser_calls (s : LoginState) (a : Answer) :
    (∃ k, a = .uid k ∧ calls (onAnswer s .createUser a).2 = [saveCall k s.email s.username]) ∨
      ((∀ k, a ≠ .uid k) ∧ calls (onAnswer s .createUser a).2 = []) := by
  cases a with
  | uid k => exact Or.inl ⟨k, rfl, rfl⟩
  | failed e =>
      refine Or.inr ⟨nofun, ?_⟩
      simp only [onAnswer, submitFailed]
      split <;> rfl
  | documents | snapshot | done | user => exact Or.inr ⟨nofun, rfl⟩

/-- Answers to a `signIn` and to a profile write issue nothing. -/
theorem onAnswer_signIn_calls (s : LoginState) (a : Answer) :
    calls (onAnswer s .signIn a).2 = [] := by
  cases a with
  | failed e =>
      simp only [onAnswer, submitFailed]
      split <;> rfl
  | documents | snapshot | done | user | uid => rfl

theorem onAnswer_save (s : LoginState) (a : Answer) : onAnswer s .saveUserData a = (s, []) := by
  cases a <;> rfl

theorem saveCall_inj {k k' : String} {e e' u u' : Option String} :
    saveCall k e u = saveCall k' e' u' ↔ k = k' ∧ e = e' ∧ u = u' := by
  simp [saveCall, userPath, interp, Value.ofString_inj]

@[simp] theorem usernameQuery_cont (n : String) : (usernameQuery n).cont = .checkUsername := rfl

@[simp] theorem saveCall_cont (k : String) (email username : Option String) :
    (saveCall k email username).cont = .saveUserData := rfl

/-- What the answer to a query issues: nothing; or, if it found the name free and the form validates
at this moment, one `signIn` or one `createUser` with the e-mail of this moment. -/
theorem onAnswer_query_calls (s : LoginState) (a : Answer) :
    calls (onAnswer s .checkUsername a).2 = [] ∨
      (a = .documents [] ∧ s.mounted = true ∧ formErrors s = [] ∧ s.formType = .login ∧
        calls (onAnswer s .checkUsername a).2 = [⟨.signIn,
          .signIn (some (normalise s.emailText)) (some (normalise s.passwordText))⟩]) ∨
      (a = .documents [] ∧ s.mounted = true ∧ formErrors s = [] ∧ s.formType = .register ∧
        calls (onAnswer s .checkUsername a).2 = [⟨.createUser,
          .createUser (some (normalise s.emailText)) (some (normalise s.passwordText))⟩]) := by
  cases a with
  | documents ds =>
      by_cases hm : s.mounted = true
      · by_cases hd : ds = []
        · subst hd
          by_cases he : formErrors s = []
          · cases hf : s.formType with
            | login =>
                refine Or.inr (Or.inl ⟨rfl, hm, he, rfl, ?_⟩)
                simp only [onAnswer, usernameChecked_login hm rfl he hf]
                rfl
            | register =>
                refine Or.inr (Or.inr ⟨rfl, hm, he, rfl, ?_⟩)
                simp only [onAnswer, usernameChecked_register hm rfl he hf]
                rfl
          · exact Or.inl (by simp only [onAnswer, usernameChecked_invalid hm rfl he]; rfl)
        · exact Or.inl (by simp only [onAnswer, usernameChecked_taken hm hd]; rfl)
      · exact Or.inl (by simp only [onAnswer, usernameChecked_disposed hm]; rfl)
  | snapshot | done | user | uid | failed => exact Or.inl rfl

/-! ## Every message is of one of these kinds -/

def AllSent (c : LoginConfig ι) : Prop :=
  ∀ m ∈ c.issued, Sent m.call m.cause

omit [DecidableEq ι] in
theorem mem_map_message {out : List (Call Cont)} {i : ι} {cause : List (Call Cont × Answer)}
    {m : LoginMessage ι} (h : m ∈ out.map (Message.mk i · cause)) :
    m.call ∈ out ∧ m.client = i ∧ m.cause = cause := by
  obtain ⟨call, hc, rfl⟩ := List.mem_map.mp h
  exact ⟨hc, rfl, rfl⟩

theorem sent_of_event {s s' : LoginState} {e : Event} {out : List Effect}
    (h : onEvent s e = some (s', out)) {call : Call Cont} (hc : call ∈ calls out) :
    Sent call [] := by
  rcases onEvent_calls h with h | ⟨-, h⟩ | ⟨-, -, -, h⟩
  · rw [h] at hc
    cases hc
  · rw [h, List.mem_singleton] at hc
    exact hc ▸ Sent.query _
  · rw [h, List.mem_singleton] at hc
    exact hc ▸ Sent.signIn _ _ _

theorem sent_of_answer {call call' : Call Cont} {cause : List (Call Cont × Answer)}
    (hs : Sent call cause) (s : LoginState) (a : Answer)
    (hc : call' ∈ calls (onAnswer s call.cont a).2) : Sent call' ((call, a) :: cause) := by
  rcases hs.inv with ⟨n, rfl, rfl⟩ | ⟨e, p, rfl⟩ | ⟨e, p, n, rfl, rfl⟩ |
    ⟨k, e, p, n, email, username, rfl, rfl⟩
  · rw [usernameQuery_cont] at hc
    rcases onAnswer_query_calls s a with h | ⟨-, -, -, -, h⟩ | ⟨rfl, -, -, -, h⟩ <;> rw [h] at hc
    · cases hc
    · exact List.mem_singleton.mp hc ▸ Sent.signIn _ _ _
    · exact List.mem_singleton.mp hc ▸ Sent.createUser _ _ n
  · rw [onAnswer_signIn_calls] at hc
    cases hc
  · rcases onAnswer_createUser_calls s a with ⟨k, rfl, h⟩ | ⟨-, h⟩ <;> rw [h] at hc
    · exact List.mem_singleton.mp hc ▸ Sent.save k e p n _ _
    · cases hc
  · rw [saveCall_cont, onAnswer_save] at hc
    cases hc

theorem program_onEvent {s s' : LoginState} {e : Event} {out : List (Call Cont)}
    (h : program.onEvent s e = some (s', out)) :
    ∃ eff, onEvent s e = some (s', eff) ∧ out = calls eff := by
  obtain ⟨⟨t, eff⟩, he, heq⟩ := Option.map_eq_some_iff.mp h
  obtain ⟨rfl, rfl⟩ := Prod.mk.inj heq
  exact ⟨eff, he, rfl⟩

theorem program_onAnswer {s s' : LoginState} {call : Call Cont} {a : Answer} {d : Unit}
    {out : List (Call Cont)} (h : program.onAnswer s call a d = (s', out)) :
    s' = (onAnswer s call.cont a).1 ∧ out = calls (onAnswer s call.cont a).2 := by
  obtain ⟨rfl, rfl⟩ := Prod.mk.inj h
  exact ⟨rfl, rfl⟩

section Reach

variable {B : Backend ι → Prop} {C : LoginConfig ι → LoginAction ι → Prop} {c : LoginConfig ι}

theorem inFlightIssued (h : (loginSystem ι B).Reach C c) : InFlightIssued c := by
  apply Reach.inFlightIssued h
  rintro _ ⟨b, -, rfl⟩
  exact InFlightIssued.start _ _ _

theorem allSent (h : (loginSystem ι B).Reach C c) : AllSent c := by
  refine Reach.issued (K := fun m => Sent m.call m.cause) h ?_ ?_ ?_
  · rintro _ ⟨b, -, rfl⟩
    exact ⟨InFlightIssued.start _ _ _, List.forall_mem_nil _⟩
  · intro c i e s out _ _ he call hc
    obtain ⟨eff, heff, rfl⟩ := program_onEvent he
    exact sent_of_event heff hc
  · intro c k m a d s out _ _ _ hq ha call hc
    obtain ⟨-, rfl⟩ := program_onAnswer ha
    exact sent_of_answer hq (c.clients m.client) a hc

/-- An outstanding call is one of the form's calls. -/
theorem sent_of_call (h : (loginSystem ι B).Reach C c) {k : Nat} {m : LoginMessage ι}
    (hk : c.calls[k]? = some m) : Sent m.call m.cause :=
  allSent h m ((inFlightIssued h).1 m (List.mem_of_getElem? hk))

theorem sent_of_outstanding (h : (loginSystem ι B).Reach C c) {k : Nat}
    {m : LoginMessage ι} {a : Answer} (hk : c.answers[k]? = some (m, a)) : Sent m.call m.cause :=
  allSent h m ((inFlightIssued h).2 _ (List.mem_of_getElem? hk))

end Reach

/-- The name a registration asked about: the name of the query at the head of the answers that led
to it, if that query found the name free. -/
def asked : List (Call Cont × Answer) → Option String
  | (⟨_, .whereEq _ _ (.str n)⟩, .documents []) :: _ => some n
  | _ => none

/-- Switch to register mode and fill in the form. -/
def fillForm (i : ι) (username email password : String) : List (LoginAction ι) :=
  [.event i .moveToRegister, .event i (.editUsername username), .event i (.editEmail email),
    .event i (.editPassword password)]

end P0ker.Registration
