import P0ker.Pages.Login

/-!
# The root page (`root_page.dart`)

`RootPage` shows the Login page or the home page, depending on `authStatus`. Three things change
`authStatus`: the answer to the `currentUser()` lookup that `initState` starts, and `onSignIn`,
which the Login page calls after a `signIn` and after a `createUser`. (`MyHomePage` is handed an
`onSignOut` too, and never calls it.)

A change of `authStatus` is seen on the screen at the next frame (`build`): the Login page's
`State` is then disposed, and if the Login page is shown again later, it is a new one. Calls of a
disposed Login page may still be outstanding, so every call names the Login page it belongs to.
-/

namespace P0ker.RootPage

inductive AuthStatus where
  | notSignedIn
  | signedIn
  deriving DecidableEq

structure RootPageState where
  currentUser : Option String := none
  authStatus : AuthStatus := .notSignedIn
  deriving DecidableEq

/-- The `then` of `initState`. -/
def currentUserFound (userId : Option String) (s : RootPageState) : RootPageState :=
  { s with
    authStatus := if userId ≠ none then .signedIn else .notSignedIn
    currentUser := userId }

def updateAuthStatus (status : AuthStatus) (s : RootPageState) : RootPageState :=
  { s with authStatus := status }

/-- The app: the root page and the Login pages it has built so far, the last one being the one on
the screen, unless it has been disposed. -/
structure App where
  launched : Bool := false
  root : RootPageState := {}
  logins : List Login.LoginState := []
  deriving DecidableEq

/-- The code that runs on an answer. -/
inductive Cont where
  | currentUser
  | login (page : Nat) (cont : Login.Cont)
  deriving DecidableEq

inductive Event where
  | launch
  | build
  | login (e : Login.Event)
  deriving DecidableEq

/-- `widget.auth.currentUser()`. -/
def currentUserCall : Call Cont := ⟨.currentUser, .currentUser⟩

/-- What the effects of a Login page come to: its calls are issued, and `onSignIn` sets the
status. -/
def runEffects (page : Nat) (root : RootPageState) : List Login.Effect →
    RootPageState × List (Call Cont)
  | [] => (root, [])
  | .onSignIn :: es => runEffects page (updateAuthStatus .signedIn root) es
  | .call c :: es =>
      let r := runEffects page root es
      (r.1, ⟨.login page c.cont, c.req⟩ :: r.2)

/-- The `page`-th Login page has run a handler. -/
def loginRan (app : App) (page : Nat) (r : Login.LoginState × List Login.Effect) :
    App × List (Call Cont) :=
  let r' := runEffects page app.root r.2
  ({ app with root := r'.1, logins := app.logins.set page r.1 }, r'.2)

/-- The next frame: off the Login page if signed in, onto a new one if not. -/
def build (app : App) : App :=
  match app.root.authStatus with
  | .signedIn => { app with logins := app.logins.map fun s => { s with mounted := false } }
  | .notSignedIn =>
      if app.logins.any (·.mounted) then app else { app with logins := app.logins ++ [{}] }

def onEvent (app : App) : Event → Option (App × List (Call Cont))
  | .launch =>
      if app.launched then none
      else some ({ launched := true, logins := [{}] }, [currentUserCall])
  | .build => if app.launched then some (build app, []) else none
  | .login e =>
      -- a page is disposed by the root page only
      if e = .dispose then none
      else
        match app.logins.getLast? with
        | some s => (Login.onEvent s e).map (loginRan app (app.logins.length - 1))
        | none => none

def onAnswer (app : App) (cont : Cont) (a : Answer) : App × List (Call Cont) :=
  match cont, a with
  | .currentUser, .user userId => ({ app with root := currentUserFound userId app.root }, [])
  | .currentUser, _ => (app, [])
  | .login page cont, a =>
      match app.logins[page]? with
      | some s => loginRan app page (Login.onAnswer s cont a)
      | none => (app, [])

def program : Async.Program App Event Unit (Call Cont) Answer where
  onEvent := onEvent
  onAnswer app c a _ := onAnswer app c.cont a

/-! ## What a handler does to the status -/

/-- An event of a Login page is raised on the last of them. -/
theorem onEvent_login {app app' : App} {e : Login.Event} {out : List (Call Cont)}
    (h : onEvent app (.login e) = some (app', out)) :
    ∃ s r, app.logins.getLast? = some s ∧ app.logins[app.logins.length - 1]? = some s ∧
      Login.onEvent s e = some r ∧ (app', out) = loginRan app (app.logins.length - 1) r := by
  simp only [onEvent] at h
  split at h
  · cases h
  · split at h
    · next s hlast =>
        obtain ⟨r, hr, heq⟩ := Option.map_eq_some_iff.mp h
        exact ⟨s, r, hlast, List.getLast?_eq_getElem? ▸ hlast, hr, heq.symm⟩
    · cases h

theorem runEffects_status (page : Nat) (es : List Login.Effect) (root : RootPageState) :
    (runEffects page root es).1.authStatus = root.authStatus ∨
      (.onSignIn ∈ es ∧ (runEffects page root es).1.authStatus = .signedIn) := by
  induction es generalizing root with
  | nil => exact Or.inl rfl
  | cons e es ih =>
      cases e with
      | call c =>
          rcases ih root with h | ⟨hm, h⟩
          · exact Or.inl h
          · exact Or.inr ⟨List.mem_cons_of_mem _ hm, h⟩
      | onSignIn =>
          rcases ih (updateAuthStatus .signedIn root) with h | ⟨-, h⟩
          · exact Or.inr ⟨List.mem_cons_self, h⟩
          · exact Or.inr ⟨List.mem_cons_self, h⟩

/-- No event touches the status once the app runs, except by signing in. -/
theorem onEvent_status {app app' : App} {e : Event} {out : List (Call Cont)}
    (h : onEvent app e = some (app', out)) (hs : app.root.authStatus = .signedIn)
    (hl : app.launched = true) : app'.root.authStatus = .signedIn := by
  cases e with
  | launch => simp [onEvent, hl] at h
  | build =>
      simp only [onEvent, hl, if_true, Option.some.injEq, Prod.mk.injEq] at h
      rw [← h.1, build, hs]
      exact hs
  | login e =>
      obtain ⟨s, r, -, -, -, heq⟩ := onEvent_login h
      obtain ⟨rfl, -⟩ := Prod.mk.inj heq
      rcases runEffects_status (app.logins.length - 1) r.2 app.root with h' | ⟨-, h'⟩
      · exact h'.trans hs
      · exact h'

theorem build_root (app : App) : (build app).root = app.root := by
  unfold build
  split
  · rfl
  · split <;> rfl

/-- No event opens the gate. -/
theorem signedIn_of_onEvent {app app' : App} {e : Event} {out : List (Call Cont)}
    (h : onEvent app e = some (app', out)) (hs : app'.root.authStatus = .signedIn) :
    app.root.authStatus = .signedIn := by
  cases e with
  | launch =>
      simp only [onEvent] at h
      split at h
      · cases h
      · obtain ⟨rfl, -⟩ := Prod.mk.inj (Option.some.inj h)
        cases hs
  | build =>
      simp only [onEvent] at h
      split at h
      · obtain ⟨rfl, -⟩ := Prod.mk.inj (Option.some.inj h)
        rwa [build_root] at hs
      · cases h
  | login e =>
      obtain ⟨s, r, -, -, hr, heq⟩ := onEvent_login h
      obtain ⟨rfl, -⟩ := Prod.mk.inj heq
      rcases runEffects_status (app.logins.length - 1) r.2 app.root with h' | ⟨hm, -⟩
      · exact h'.symm.trans hs
      · exact absurd hm (Login.onEvent_stays hr)

/-- The gate is opened by a lookup that has found a user, and by the success of a submission. -/
theorem signedIn_of_onAnswer {app : App} {cont : Cont} {a : Answer}
    (hs : (onAnswer app cont a).1.root.authStatus = .signedIn) :
    app.root.authStatus = .signedIn ∨ (∃ u, a = .user (some u)) ∨ ∃ u, a = .uid u := by
  cases cont with
  | currentUser =>
      cases a with
      | user userId =>
          cases userId with
          | none => cases hs
          | some u => exact Or.inr (Or.inl ⟨u, rfl⟩)
      | documents | snapshot | done | uid | failed => exact Or.inl hs
  | login page cont =>
      simp only [onAnswer] at hs
      split at hs
      · next s _ =>
          rcases runEffects_status page (Login.onAnswer s cont a).2 app.root with h | ⟨hm, -⟩
          · exact Or.inl (h.symm.trans hs)
          · exact Or.inr (Or.inr (Login.onAnswer_onSignIn hm).2)
      · exact Or.inl hs

/-- The only answer that takes the status back is a null answer to the lookup. -/
theorem onAnswer_status {app : App} {cont : Cont} {a : Answer}
    (hs : app.root.authStatus = .signedIn) (hn : ¬ (cont = .currentUser ∧ a = .user none)) :
    (onAnswer app cont a).1.root.authStatus = .signedIn := by
  cases cont with
  | currentUser =>
      cases a with
      | user userId =>
          have hu : userId ≠ none := fun hu => hn ⟨rfl, by rw [hu]⟩
          exact if_pos hu
      | documents | snapshot | done | uid | failed => exact hs
  | login page cont =>
      simp only [onAnswer]
      split
      · next s _ =>
          rcases runEffects_status page (Login.onAnswer s cont a).2 app.root with h | ⟨-, h⟩
          · exact h.trans hs
          · exact h
      · exact hs

/-- A null answer to the lookup always does. -/
theorem onAnswer_null (app : App) :
    (onAnswer app .currentUser (.user none)).1.root.authStatus = .notSignedIn := rfl

end P0ker.RootPage
