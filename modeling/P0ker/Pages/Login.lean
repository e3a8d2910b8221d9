import P0ker.Firebase
import P0ker.Dart.Text

/-!
# The Login page (`pages/login/login.dart`)

One form in two modes. In register mode the button 'Create an account' runs `checkUsername`: it
asks whether the name is taken and returns; the code that runs on the answer (`usernameChecked`)
submits the form. Each `await` of `validateAndSubmit` and each `then` cuts the source function in
two; the second half is a definition of its own, named after the answer it waits for.

The form's fields are re-read on every submission: `form.save()` copies the texts as they are at
that moment into `_username`, `_email` and `_password`.

A `State` that Flutter has disposed is not `mounted`. Its event handlers are gone, and `setState`
on it is an error. It is assumed here that the closure passed to it does not run. That is so in a
debug build, where an assertion throws first; a release build runs the closure before it fails.
-/

namespace P0ker.Login

open Dart

inductive FormType where
  | login
  | register
  deriving DecidableEq

/-- `LoginState`. The last three fields are what the text fields of the form show. -/
structure LoginState where
  finalUsername : Option String := none
  uid : Option String := none
  username : Option String := none
  email : Option String := none
  password : Option String := none
  formType : FormType := .login
  authHint : String := ""
  usernameAvailable : Bool := false
  mounted : Bool := true
  usernameText : String := ""
  emailText : String := ""
  passwordText : String := ""
  deriving DecidableEq

/-- `val.trim().toLowerCase()`, the normalisation of every field. -/
def normalise (val : String) : String :=
  toLowerCase (trim val)

/-! ## The form -/

/-- A `TextFormField`: its key, its text, its validator's message for an empty text, and what
`onSaved` does with the text. -/
structure FormField where
  key : String
  text : LoginState → String
  emptyMessage : String
  onSaved : String → LoginState → LoginState

def brukernavnField : FormField where
  key := "Brukernavn"
  text := LoginState.usernameText
  emptyMessage := "Brukernavn kan ikke være tomt"
  onSaved val s := { s with username := some (normalise val) }

def emailField : FormField where
  key := "email"
  text := LoginState.emailText
  emptyMessage := "Email can't be empty."
  onSaved val s := { s with email := some (normalise val) }

def passwordField : FormField where
  key := "password"
  text := LoginState.passwordText
  emptyMessage := "Password can't be empty."
  onSaved val s := { s with password := some (normalise val) }

/-- The fields of the form in each mode. -/
def usernameAndPassword : FormType → List FormField
  | .register => [brukernavnField, emailField, passwordField]
  | .login => [emailField, passwordField]

/-- The validator of a field. -/
def FormField.validator (f : FormField) (val : String) : Option String :=
  if val.isEmpty then some f.emptyMessage else none

/-- The messages `form.validate()` shows, each under the key of its field. -/
def formErrors (s : LoginState) : List (String × String) :=
  (usernameAndPassword s.formType).filterMap fun f =>
    (f.validator (f.text s)).map fun msg => (f.key, msg)

/-- `form.save()`. -/
def formSave (s : LoginState) : LoginState :=
  (usernameAndPassword s.formType).foldl (fun s f => f.onSaved (f.text s) s) s

def validateAndSave (s : LoginState) : LoginState × Bool :=
  if formErrors s = [] then (formSave s, true) else (s, false)

/-! ## Calls -/

/-- The code that runs on an answer. -/
inductive Cont where
  | checkUsername
  | signIn
  | createUser
  | saveUserData
  deriving DecidableEq

/-- What a handler does besides changing the state: issue a call, or call `widget.onSignIn()`. -/
inductive Effect where
  | call (c : Call Cont)
  | onSignIn
  deriving DecidableEq

def Effect.call? : Effect → Option (Call Cont)
  | .call c => some c
  | .onSignIn => none

abbrev usersPath : Path := ["users"]

def userPath (uid : Option String) : Path := ["users", interp uid]

/-- The availability query for a name. -/
def usernameQuery (name : String) : Call Cont :=
  ⟨.checkUsername, .whereEq usersPath "brukernavn" (.str name)⟩

def saveUserData (s : LoginState) : List Effect :=
  [.call ⟨.saveUserData, .setData (userPath s.uid)
    [("uid", .ofString s.uid), ("email", .ofString s.email), ("brukernavn", .ofString s.username)]⟩]

/-! ## Submitting -/

/-- `validateAndSubmit` up to its `await`. -/
def validateAndSubmit (s : LoginState) : LoginState × List Effect :=
  match validateAndSave s with
  | (s, true) =>
      if s.formType = .login then (s, [.call ⟨.signIn, .signIn s.email s.password⟩])
      else if s.usernameAvailable then (s, [.call ⟨.createUser, .createUser s.email s.password⟩])
      else (s, [])
  | (s, false) => ({ s with authHint := "" }, [])

/-- The `catch` of `validateAndSubmit`. -/
def submitFailed (s : LoginState) (e : String) : LoginState × List Effect :=
  if s.mounted then ({ s with authHint := "Sign In Error\n\n" ++ e }, []) else (s, [])

/-- `validateAndSubmit` after `await signIn`. -/
def signedIn (s : LoginState) (userId : String) : LoginState × List Effect :=
  ({ s with uid := some userId }, [.onSignIn])

/-- `validateAndSubmit` after `await createUser`. -/
def userCreated (s : LoginState) (userId : String) : LoginState × List Effect :=
  let s := { s with uid := some userId }
  (s, .onSignIn :: saveUserData s)

/-- `checkUsername` up to the query. -/
def checkUsername (s : LoginState) : LoginState × List Effect :=
  let name := normalise s.usernameText
  ({ s with username := some name }, [.call (usernameQuery name)])

/-- `checkUsername` on the answer of the query: all of it runs inside `setState`. -/
def usernameChecked (s : LoginState) (documents : List (String × Doc)) :
    LoginState × List Effect :=
  if s.mounted then
    if documents = [] then
      let (s, out) := validateAndSubmit { s with usernameAvailable := true, authHint := "" }
      ({ s with finalUsername := s.username }, out)
    else ({ s with authHint := "Brukernavn er opptatt", usernameAvailable := false }, [])
  else (s, [])

/-! ## The page as a client program -/

/-- What the interface can raise. Resetting the form empties the e-mail and password fields; the
name field goes back to the text it was last built with, which the event leaves open. -/
inductive Event where
  | editUsername (text : String)
  | editEmail (text : String)
  | editPassword (text : String)
  | pressLogin
  | pressRegister
  | moveToRegister
  | moveToLogin (usernameText : String)
  | dispose
  deriving DecidableEq

def moveToRegister (s : LoginState) : LoginState :=
  { s with emailText := "", passwordText := "", formType := .register, authHint := "" }

def moveToLogin (s : LoginState) (usernameText : String) : LoginState :=
  { s with
    usernameText := usernameText, emailText := "", passwordText := ""
    formType := .login, authHint := "" }

/-- The handlers of a page that is on the screen. -/
def handle (s : LoginState) : Event → Option (LoginState × List Effect)
  | .editUsername t =>
      if s.formType = .register then some ({ s with usernameText := t }, []) else none
  | .editEmail t => some ({ s with emailText := t }, [])
  | .editPassword t => some ({ s with passwordText := t }, [])
  | .pressLogin => if s.formType = .login then some (validateAndSubmit s) else none
  | .pressRegister => if s.formType = .register then some (checkUsername s) else none
  | .moveToRegister => if s.formType = .login then some (moveToRegister s, []) else none
  | .moveToLogin t => if s.formType = .register then some (moveToLogin s t, []) else none
  | .dispose => some ({ s with mounted := false }, [])

def onEvent (s : LoginState) (e : Event) : Option (LoginState × List Effect) :=
  if s.mounted then handle s e else none

/-- The code that runs on an answer. A rejected query has no handler. -/
def onAnswer (s : LoginState) (cont : Cont) (a : Answer) : LoginState × List Effect :=
  match cont, a with
  | .checkUsername, .documents ds => usernameChecked s ds
  | .signIn, .uid userId => signedIn s userId
  | .signIn, .failed e => submitFailed s e
  | .createUser, .uid userId => userCreated s userId
  | .createUser, .failed e => submitFailed s e
  | _, _ => (s, [])

/-- The calls among the effects of a handler. -/
def calls (out : List Effect) : List (Call Cont) :=
  out.filterMap Effect.call?

/-- The form on its own: `onSignIn` leaves no trace in it, except that the page may be disposed at
any later moment. -/
def program : Async.Program LoginState Event Unit (Call Cont) Answer where
  onEvent s e := (onEvent s e).map fun r => (r.1, calls r.2)
  onAnswer s c a _ := let r := onAnswer s c.cont a; (r.1, calls r.2)

/-! ## What the handlers do -/

/-- `Ran s e s' out`: the handler of `e` takes the page from `s` to `s'`, with the effects `out`. -/
inductive Ran (s : LoginState) : Event → LoginState → List Effect → Prop
  | editUsername (t : String) : s.formType = .register →
      Ran s (.editUsername t) { s with usernameText := t } []
  | editEmail (t : String) : Ran s (.editEmail t) { s with emailText := t } []
  | editPassword (t : String) : Ran s (.editPassword t) { s with passwordText := t } []
  | pressLogin : s.formType = .login →
      Ran s .pressLogin (validateAndSubmit s).1 (validateAndSubmit s).2
  | pressRegister : s.formType = .register →
      Ran s .pressRegister (checkUsername s).1 (checkUsername s).2
  | moveToRegister : s.formType = .login → Ran s .moveToRegister (moveToRegister s) []
  | moveToLogin (t : String) : s.formType = .register →
      Ran s (.moveToLogin t) (moveToLogin s t) []
  | dispose : Ran s .dispose { s with mounted := false } []

theorem ran {s s' : LoginState} {e : Event} {out : List Effect}
    (h : onEvent s e = some (s', out)) : s.mounted = true ∧ Ran s e s' out := by
  obtain ⟨hm, h⟩ := Option.ite_none_right_eq_some.mp h
  refine ⟨hm, ?_⟩
  cases e with
  | editEmail | editPassword | dispose =>
      obtain ⟨rfl, rfl⟩ := Prod.mk.inj (Option.some.inj h)
      constructor
  | editUsername | pressRegister | moveToRegister | moveToLogin =>
      obtain ⟨hf, h⟩ := Option.ite_none_right_eq_some.mp h
      obtain ⟨rfl, rfl⟩ := Prod.mk.inj (Option.some.inj h)
      constructor
      exact hf
  | pressLogin =>
      obtain ⟨hf, h⟩ := Option.ite_none_right_eq_some.mp h
      have hran := Ran.pressLogin hf
      rwa [Option.some.inj h] at hran

/-- Every message of the form names a field of the form whose text is empty. -/
theorem mem_formErrors {s : LoginState} {key msg : String} :
    (key, msg) ∈ formErrors s ↔
      ∃ f ∈ usernameAndPassword s.formType, f.text s = "" ∧ f.key = key ∧ f.emptyMessage = msg := by
  simp only [formErrors, List.mem_filterMap, FormField.validator]
  constructor
  · rintro ⟨f, hf, h⟩
    obtain ⟨msg', hmsg, heq⟩ := Option.map_eq_some_iff.mp h
    split at hmsg
    · next he =>
        obtain ⟨rfl, rfl⟩ := Prod.mk.inj heq
        exact ⟨f, hf, by simpa using he, rfl, Option.some.inj hmsg⟩
    · cases hmsg
  · rintro ⟨f, hf, he, rfl, rfl⟩
    exact ⟨f, hf, by simp [he]⟩

@[simp] theorem formSave_login {s : LoginState} (h : s.formType = .login) :
    formSave s = { s with
      email := some (normalise s.emailText), password := some (normalise s.passwordText) } := by
  simp [formSave, h, usernameAndPassword, emailField, passwordField]

@[simp] theorem formSave_register {s : LoginState} (h : s.formType = .register) :
    formSave s = { s with
      username := some (normalise s.usernameText)
      email := some (normalise s.emailText), password := some (normalise s.passwordText) } := by
  simp [formSave, h, usernameAndPassword, brukernavnField, emailField, passwordField]

/-- Submitting a form that does not validate only clears the hint. -/
theorem validateAndSubmit_invalid {s : LoginState} (h : formErrors s ≠ []) :
    validateAndSubmit s = ({ s with authHint := "" }, []) := by
  simp [validateAndSubmit, validateAndSave, h]

theorem validateAndSubmit_login {s : LoginState} (h : formErrors s = [])
    (hl : s.formType = .login) : validateAndSubmit s = (formSave s,
      [.call ⟨.signIn,
        .signIn (some (normalise s.emailText)) (some (normalise s.passwordText))⟩]) := by
  simp [validateAndSubmit, validateAndSave, h, hl]

theorem validateAndSubmit_register {s : LoginState} (h : formErrors s = [])
    (hr : s.formType = .register) (ha : s.usernameAvailable = true) :
    validateAndSubmit s = (formSave s, [.call ⟨.createUser,
      .createUser (some (normalise s.emailText)) (some (normalise s.passwordText))⟩]) := by
  simp [validateAndSubmit, validateAndSave, h, hr, ha]

theorem formErrors_congr {s t : LoginState} (hf : s.formType = t.formType)
    (hu : s.usernameText = t.usernameText) (he : s.emailText = t.emailText)
    (hp : s.passwordText = t.passwordText) : formErrors s = formErrors t := by
  have htext : ∀ f ∈ usernameAndPassword t.formType, f.text s = f.text t := by
    intro f hmem
    cases ht : t.formType <;> simp only [ht, usernameAndPassword, List.mem_cons,
      List.not_mem_nil, or_false] at hmem
    · rcases hmem with rfl | rfl
      · exact he
      · exact hp
    · rcases hmem with rfl | rfl | rfl
      · exact hu
      · exact he
      · exact hp
  unfold formErrors
  rw [hf]
  exact List.filterMap_congr fun f hmem => by rw [htext f hmem]

/-! ### The answer to the availability query

On a disposed page nothing happens. On a mounted one a taken name is reported, and a free one
submits the form *as it is now*: it is refused, signs in, or creates a user, depending on the texts
and the mode of this moment, not of the moment the query was asked. -/

section UsernameChecked

variable {s : LoginState} {ds : List (String × Doc)}

theorem usernameChecked_disposed (hm : ¬ s.mounted = true) : usernameChecked s ds = (s, []) := by
  rw [usernameChecked, if_neg hm]

theorem usernameChecked_taken (hm : s.mounted = true) (hd : ds ≠ []) : usernameChecked s ds =
    ({ s with authHint := "Brukernavn er opptatt", usernameAvailable := false }, []) := by
  rw [usernameChecked, if_pos hm, if_neg hd]

theorem formErrors_available :
    formErrors { s with usernameAvailable := true, authHint := "" } = formErrors s :=
  formErrors_congr rfl rfl rfl rfl

theorem usernameChecked_invalid (hm : s.mounted = true) (hd : ds = []) (he : formErrors s ≠ []) :
    usernameChecked s ds =
      ({ s with usernameAvailable := true, authHint := "", finalUsername := s.username }, []) := by
  rw [← formErrors_available] at he
  rw [usernameChecked, if_pos hm, if_pos hd, validateAndSubmit_invalid he]

theorem usernameChecked_login (hm : s.mounted = true) (hd : ds = []) (he : formErrors s = [])
    (hf : s.formType = .login) : usernameChecked s ds =
      ({ s with
          usernameAvailable := true, authHint := "", finalUsername := s.username
          email := some (normalise s.emailText), password := some (normalise s.passwordText) },
        [.call ⟨.signIn,
          .signIn (some (normalise s.emailText)) (some (normalise s.passwordText))⟩]) := by
  rw [← formErrors_available] at he
  rw [usernameChecked, if_pos hm, if_pos hd, validateAndSubmit_login he hf,
    formSave_login (s := { s with usernameAvailable := true, authHint := "" }) hf]

theorem usernameChecked_register (hm : s.mounted = true) (hd : ds = []) (he : formErrors s = [])
    (hf : s.formType = .register) : usernameChecked s ds =
      ({ s with
          usernameAvailable := true, authHint := ""
          finalUsername := some (normalise s.usernameText)
          username := some (normalise s.usernameText)
          email := some (normalise s.emailText), password := some (normalise s.passwordText) },
        [.call ⟨.createUser,
          .createUser (some (normalise s.emailText)) (some (normalise s.passwordText))⟩]) := by
  rw [← formErrors_available] at he
  rw [usernameChecked, if_pos hm, if_pos hd, validateAndSubmit_register he hf rfl,
    formSave_register (s := { s with usernameAvailable := true, authHint := "" }) hf]

end UsernameChecked

/-! ### Who calls `onSignIn` -/

theorem validateAndSubmit_stays (s : LoginState) : .onSignIn ∉ (validateAndSubmit s).2 := by
  unfold validateAndSubmit
  split
  · split
    · simp
    · split <;> simp
  · simp

theorem usernameChecked_stays (s : LoginState) (ds : List (String × Doc)) :
    .onSignIn ∉ (usernameChecked s ds).2 := by
  unfold usernameChecked
  split
  · split
    · exact validateAndSubmit_stays _
    · exact List.not_mem_nil
  · exact List.not_mem_nil

theorem submitFailed_stays (s : LoginState) (e : String) : .onSignIn ∉ (submitFailed s e).2 := by
  unfold submitFailed
  split <;> exact List.not_mem_nil

/-- No event signs in. -/
theorem onEvent_stays {s s' : LoginState} {e : Event} {out : List Effect}
    (h : onEvent s e = some (s', out)) : .onSignIn ∉ out := by
  cases (ran h).2 with
  | pressLogin => exact validateAndSubmit_stays s
  | pressRegister => simp [checkUsername]
  | editUsername | editEmail | editPassword | moveToRegister | moveToLogin | dispose =>
      exact List.not_mem_nil

/-- Only the success of a submission signs in. -/
theorem onAnswer_onSignIn {s : LoginState} {cont : Cont} {a : Answer}
    (h : .onSignIn ∈ (onAnswer s cont a).2) :
    (cont = .signIn ∨ cont = .createUser) ∧ ∃ userId, a = .uid userId := by
  cases cont with
  | checkUsername =>
      cases a with
      | documents ds => exact absurd h (usernameChecked_stays s ds)
      | snapshot | done | user | uid | failed => exact absurd h List.not_mem_nil
  | signIn =>
      cases a with
      | uid userId => exact ⟨Or.inl rfl, userId, rfl⟩
      | failed e => exact absurd h (submitFailed_stays s e)
      | documents | snapshot | done | user => exact absurd h List.not_mem_nil
  | createUser =>
      cases a with
      | uid userId => exact ⟨Or.inr rfl, userId, rfl⟩
      | failed e => exact absurd h (submitFailed_stays s e)
      | documents | snapshot | done | user => exact absurd h List.not_mem_nil
  | saveUserData => cases a <;> exact absurd h List.not_mem_nil

/-! ### The name of the form

Once `checkUsername` or `form.save()` has set the name, the form has one. -/

theorem formSave_named {s : LoginState} (h : s.username ≠ none) : (formSave s).username ≠ none := by
  cases hf : s.formType with
  | login =>
      rw [formSave_login hf]
      exact h
  | register =>
      rw [formSave_register hf]
      nofun

theorem validateAndSubmit_named {s : LoginState} (h : s.username ≠ none) :
    (validateAndSubmit s).1.username ≠ none := by
  have hsaved : (validateAndSave s).1.username ≠ none := by
    unfold validateAndSave
    split
    · exact formSave_named h
    · exact h
  unfold validateAndSubmit
  split
  · next hv =>
      rw [hv] at hsaved
      split
      · exact hsaved
      · split <;> exact hsaved
  · next hv =>
      rw [hv] at hsaved
      exact hsaved

theorem onEvent_named {s s' : LoginState} {e : Event} {out : List Effect}
    (h : onEvent s e = some (s', out)) (hs : s.username ≠ none) : s'.username ≠ none := by
  cases (ran h).2 with
  | pressLogin => exact validateAndSubmit_named hs
  | pressRegister => exact Option.some_ne_none _
  | editUsername | editEmail | editPassword | moveToRegister | moveToLogin | dispose => exact hs

theorem onAnswer_named {s : LoginState} (cont : Cont) (a : Answer) (hs : s.username ≠ none) :
    (onAnswer s cont a).1.username ≠ none := by
  unfold onAnswer
  split
  · unfold usernameChecked
    split
    · split
      · exact validateAndSubmit_named (s := { s with usernameAvailable := true, authHint := "" }) hs
      · exact hs
    · exact hs
  · exact hs
  · unfold submitFailed
    split <;> exact hs
  · exact hs
  · unfold submitFailed
    split <;> exact hs
  · exact hs

/-! ### Who removes the page

Nobody but `dispose`. -/

@[simp] theorem formSave_mounted (s : LoginState) : (formSave s).mounted = s.mounted := by
  cases hf : s.formType with
  | login => rw [formSave_login hf]
  | register => rw [formSave_register hf]

theorem validateAndSubmit_mounted (s : LoginState) :
    (validateAndSubmit s).1.mounted = s.mounted := by
  have hsaved : (validateAndSave s).1.mounted = s.mounted := by
    unfold validateAndSave
    split
    · exact formSave_mounted s
    · rfl
  unfold validateAndSubmit
  split
  · next hv =>
      rw [hv] at hsaved
      split
      · exact hsaved
      · split <;> exact hsaved
  · next hv =>
      rw [hv] at hsaved
      exact hsaved

theorem onAnswer_mounted (s : LoginState) (cont : Cont) (a : Answer) :
    (onAnswer s cont a).1.mounted = s.mounted := by
  unfold onAnswer
  split
  · unfold usernameChecked
    split
    · split
      · exact validateAndSubmit_mounted { s with usernameAvailable := true, authHint := "" }
      · rfl
    · rfl
  · rfl
  · unfold submitFailed
    split <;> rfl
  · rfl
  · unfold submitFailed
    split <;> rfl
  · rfl

end P0ker.Login
