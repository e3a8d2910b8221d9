import P0ker.Pages.RootPage

/-!
# The gate between the Login page and the home page

Any number of devices run the app over one backend. A successful `signIn` or `createUser` calls
`onSignIn`, which opens the gate; the answer to the `currentUser()` lookup that was started with the
app sets the gate a second time, whenever it comes. A lookup that was evaluated before the sign-in
answers null, and closes a gate that has been opened meanwhile.

`staysSignedIn_iff` says exactly when that can happen: a sign-in lasts in every later state if and
only if no null answer to the lookup is on its way when the sign-in is handled.
-/

namespace P0ker.AuthGate

open Async RootPage

variable {ι : Type} [DecidableEq ι]

abbrev AppMessage (ι : Type) := Message ι (Call Cont) Answer

abbrev AppConfig (ι : Type) := Config ι App (Backend ι) (Call Cont) Answer

abbrev AppAction (ι : Type) := Action ι Event Unit Outcome

/-- No device has launched the app yet. -/
def start (b : Backend ι) : AppConfig ι :=
  Config.start (fun _ => {}) b []

def rootSystem (ι : Type) [DecidableEq ι] : Machine (AppConfig ι) (AppAction ι) :=
  Async.system program (firebase ι Cont) fun c => ∃ b, c = start b

/-- What the screen of device `i` depends on. -/
def authStatus (c : AppConfig ι) (i : ι) : AuthStatus :=
  (c.clients i).root.authStatus

/-- A null answer to the lookup of device `i` is on its way. -/
def StaleLookup (c : AppConfig ι) (i : ι) : Prop :=
  ∃ p ∈ c.answers, p.1.client = i ∧ p.1.call.cont = .currentUser ∧ p.2 = .user none

instance (c : AppConfig ι) (i : ι) : Decidable (StaleLookup c i) := by
  unfold StaleLookup
  infer_instance

/-- A Login page of the device waits for this answer in `validateAndSubmit`. -/
def IsSubmission (cont : Cont) : Prop :=
  ∃ page, cont = .login page .signIn ∨ cont = .login page .createUser

/-! ## The pages of an app -/

/-- An app that has not been launched has no page, and a call names a page that has been built. -/
structure PagesBuilt (c : AppConfig ι) : Prop where
  unlaunched : ∀ i, (c.clients i).launched = false → (c.clients i).logins = []
  built : ∀ m ∈ c.issued, ∀ page cont, m.call.cont = .login page cont →
    page < (c.clients m.client).logins.length

theorem runEffects_cont (page : Nat) (es : List Login.Effect) (root : RootPageState) :
    ∀ call ∈ (runEffects page root es).2, ∃ cont, call.cont = .login page cont := by
  induction es generalizing root with
  | nil => exact List.forall_mem_nil _
  | cons e es ih =>
      cases e with
      | onSignIn => exact ih (updateAuthStatus .signedIn root)
      | call c =>
          intro call hc
          rcases List.mem_cons.mp hc with rfl | hc
          · exact ⟨c.cont, rfl⟩
          · exact ih root call hc

theorem length_loginRan (app : App) (page : Nat) (r : Login.LoginState × List Login.Effect) :
    (loginRan app page r).1.logins.length = app.logins.length := by
  simp [loginRan]

theorem length_build (app : App) : app.logins.length ≤ (build app).logins.length := by
  unfold build
  split
  · simp
  · split <;> simp

/-- An app that has run a handler is launched, has lost no page, and names built pages only. -/
theorem onEvent_pages {app app' : App} {e : Event} {out : List (Call Cont)}
    (h : onEvent app e = some (app', out)) (hu : app.launched = false → app.logins = []) :
    app'.launched = true ∧ app.logins.length ≤ app'.logins.length ∧
      ∀ call ∈ out, ∀ page cont, call.cont = .login page cont → page < app'.logins.length := by
  cases e with
  | launch =>
      simp only [onEvent] at h
      split at h
      · cases h
      · next hl =>
          obtain ⟨rfl, rfl⟩ := Prod.mk.inj (Option.some.inj h)
          -- no page is built before the launch
          have hnil : app.logins = [] := hu (by simpa using hl)
          refine ⟨rfl, by simp [hnil], ?_⟩
          intro call hc page cont hcont
          rw [List.mem_singleton.mp hc] at hcont
          cases hcont
  | build =>
      simp only [onEvent] at h
      split at h
      · next hl =>
          obtain ⟨rfl, rfl⟩ := Prod.mk.inj (Option.some.inj h)
          refine ⟨?_, length_build app, List.forall_mem_nil _⟩
          unfold build
          split
          · exact hl
          · split <;> exact hl
      · cases h
  | login e =>
      obtain ⟨s, r, hlast, -, -, heq⟩ := onEvent_login h
      obtain ⟨rfl, rfl⟩ := Prod.mk.inj heq
      -- the handler ran on the last page, so there is one
      have hne : app.logins ≠ [] := by
        intro hnil
        rw [hnil] at hlast
        cases hlast
      have hlen := length_loginRan app (app.logins.length - 1) r
      refine ⟨?_, hlen.ge, ?_⟩
      · show app.launched = true
        cases hl : app.launched with
        | true => rfl
        | false => exact absurd (hu hl) hne
      · intro call hc page cont hcont
        obtain ⟨cont', hcont'⟩ := runEffects_cont _ _ _ call hc
        rw [hcont'] at hcont
        obtain ⟨rfl, -⟩ := Cont.login.inj hcont
        have hpos : 0 < app.logins.length := List.length_pos_iff.mpr hne
        exact (Nat.sub_lt hpos Nat.one_pos).trans_eq hlen.symm

theorem onAnswer_pages (app : App) (cont : Cont) (a : Answer) :
    (onAnswer app cont a).1.launched = app.launched ∧
      (onAnswer app cont a).1.logins.length = app.logins.length ∧
      ∀ call ∈ (onAnswer app cont a).2, ∀ page cont, call.cont = .login page cont →
        page < app.logins.length := by
  cases cont with
  | currentUser => cases a <;> exact ⟨rfl, rfl, List.forall_mem_nil _⟩
  | login page cont =>
      simp only [onAnswer]
      split
      · next s hs =>
          refine ⟨rfl, length_loginRan _ _ _, ?_⟩
          intro call hc page' cont' hcont
          obtain ⟨cont'', hcont'⟩ := runEffects_cont _ _ _ call hc
          rw [hcont'] at hcont
          obtain ⟨rfl, -⟩ := Cont.login.inj hcont
          exact (List.getElem?_eq_some_iff.mp hs).1
      · exact ⟨rfl, rfl, List.forall_mem_nil _⟩

section Reach

variable {C : AppConfig ι → AppAction ι → Prop} {c c' c'' : AppConfig ι}

theorem inFlightIssued (h : (rootSystem ι).Reach C c) : InFlightIssued c := by
  apply Reach.inFlightIssued h
  rintro _ ⟨b, rfl⟩
  exact InFlightIssued.start _ _ _

/-- Client `i` moves to an app with no fewer pages, and names built pages only. -/
theorem PagesBuilt.post {i : ι} {app : App} {out : List (Call Cont)}
    {cause : List (Call Cont × Answer)} (hq : PagesBuilt c)
    (hu : app.launched = false → app.logins = [])
    (hlen : (c.clients i).logins.length ≤ app.logins.length)
    (hout : ∀ call ∈ out, ∀ page cont, call.cont = .login page cont → page < app.logins.length) :
    PagesBuilt (c.post i app out cause) := by
  constructor
  · intro j
    exact Config.client_post (p := fun app : App => app.launched = false → app.logins = [])
      (fun _ => hu) fun _ => hq.unlaunched j
  · intro m hm page cont hcont
    rcases mem_issued_post hm with hm | ⟨call, hc, rfl⟩
    · -- an earlier call: its page is still there, as none is ever removed from the list
      have hpage := hq.built m hm page cont hcont
      refine Config.client_post (p := fun app : App => page < app.logins.length) ?_ fun _ => hpage
      rintro rfl
      exact hpage.trans_le hlen
    · rw [Config.post_clients_self]
      exact hout call hc page cont hcont

theorem pagesBuilt (h : (rootSystem ι).Reach C c) : PagesBuilt c := by
  refine h.invariant (P := PagesBuilt) ?_ ?_
  · rintro _ ⟨b, rfl⟩
    exact ⟨fun _ _ => rfl, List.forall_mem_nil _⟩
  · intro c a c' hr hq _ hs
    refine step_keeps hs ?_ ?_ ?_
    · intro i e app out _ he
      obtain ⟨hl, hlen, hout⟩ := onEvent_pages he (hq.unlaunched i)
      apply hq.post _ hlen hout
      intro hl'
      rw [hl] at hl'
      cases hl'
    · intro k o m b r _ _ _
      exact ⟨hq.unlaunched, hq.built⟩
    · intro k d m r app out _ hk ha
      obtain ⟨rfl, rfl⟩ := Prod.mk.inj ha
      have htaken : PagesBuilt (c.taken k) := ⟨hq.unlaunched, hq.built⟩
      obtain ⟨hl, hlen, hout⟩ := onAnswer_pages (c.clients m.client) m.call.cont r
      apply htaken.post _ hlen.ge
      · intro call hc page cont hcont
        exact (hout call hc page cont hcont).trans_le hlen.ge
      · intro hl'
        have hnil := hq.unlaunched m.client (hl.symm.trans hl')
        rw [hnil] at hlen
        exact List.eq_nil_of_length_eq_zero hlen

/-- A successful sign-in, answered but not yet handled, is known to the session. -/
def SessionKnown (c : AppConfig ι) : Prop :=
  ∀ p ∈ c.answers, ∀ uid, p.2 = .uid uid → c.backend.session p.1.client ≠ none

theorem sessionKnown (h : (rootSystem ι).Reach C c) : SessionKnown c := by
  refine h.invariant (P := SessionKnown) ?_ ?_
  · rintro _ ⟨b, rfl⟩ p hp
    cases hp
  · intro c a c' hr hq _ hs
    refine step_keeps (Q := SessionKnown) hs (fun _ _ _ _ _ _ => hq) ?_ ?_
    · intro k o m b r _ _ hserve p hp uid huid
      rcases mem_answers_served hp with hp | rfl
      · -- no call signs a user out
        exact Backend.serve_session_ne_none hserve (hq p hp uid huid)
      · obtain rfl : r = .uid uid := huid
        exact Backend.serve_uid hserve
    · intro k d m r app out _ _ _ p hp
      exact hq p (List.mem_of_mem_eraseIdx hp)

end Reach

/-! ## The gate stays open -/

/-- The gate of device `i` is open and nothing can close it: the session has a user, so a lookup
still to be evaluated will find one, and no null answer is on its way. -/
structure Settled (c : AppConfig ι) (i : ι) : Prop where
  launched : (c.clients i).launched = true
  open_ : authStatus c i = .signedIn
  session : c.backend.session i ≠ none
  fresh : ¬ StaleLookup c i

theorem Settled.step {c c' : AppConfig ι} {i : ι} {a : AppAction ι} (h : Settled c i)
    (hs : (rootSystem ι).step c a = some c') : Settled c' i := by
  refine step_keeps (Q := (Settled · i)) hs ?_ ?_ ?_
  · intro j e app out _ he
    by_cases hj : i = j
    · subst hj
      have hl : app.launched = true := (onEvent_pages he (by rw [h.launched]; nofun)).1
      have hopen := onEvent_status he h.open_ h.launched
      refine ⟨?_, ?_, h.session, h.fresh⟩
      · rw [Config.post_clients_self]
        exact hl
      · rw [authStatus, Config.post_clients_self]
        exact hopen
    · refine ⟨?_, ?_, h.session, h.fresh⟩
      · rw [Config.post_clients_ne _ _ _ _ _ hj]
        exact h.launched
      · rw [authStatus, Config.post_clients_ne _ _ _ _ _ hj]
        exact h.open_
  · intro k o m b r _ _ hserve
    refine ⟨h.launched, h.open_, Backend.serve_session_ne_none hserve h.session, ?_⟩
    -- a lookup evaluated now finds the user of the session
    rintro ⟨p, hp, hi, hcont, hnull⟩
    rcases mem_answers_served hp with hp | rfl
    · exact h.fresh ⟨p, hp, hi, hcont, hnull⟩
    · obtain rfl : r = .user none := hnull
      have hsession := Backend.serve_user hserve
      apply h.session
      rw [← hi]
      exact hsession.symm
  · intro k d m r app out _ hk ha
    obtain ⟨rfl, rfl⟩ := Prod.mk.inj ha
    have hfresh : ¬ StaleLookup (c.taken k) i := by
      rintro ⟨p, hp, hrest⟩
      exact h.fresh ⟨p, List.mem_of_mem_eraseIdx hp, hrest⟩
    by_cases hj : i = m.client
    · -- the one answer that closes a gate is not the one at hand
      have hn : ¬ (m.call.cont = .currentUser ∧ r = .user none) := by
        rintro ⟨hcont, hnull⟩
        exact h.fresh ⟨(m, r), List.mem_of_getElem? hk, hj.symm, hcont, hnull⟩
      have hopen : (c.clients m.client).root.authStatus = .signedIn := hj ▸ h.open_
      refine ⟨?_, ?_, h.session, hfresh⟩
      · rw [hj, Config.post_clients_self]
        exact (onAnswer_pages _ _ _).1.trans (hj ▸ h.launched)
      · rw [authStatus, hj, Config.post_clients_self]
        exact onAnswer_status hopen hn
    · refine ⟨?_, ?_, h.session, hfresh⟩
      · rw [Config.post_clients_ne _ _ _ _ _ hj]
        exact h.launched
      · rw [authStatus, Config.post_clients_ne _ _ _ _ _ hj]
        exact h.open_

theorem Settled.steps {c c' : AppConfig ι} {i : ι} (h : Settled c i)
    (hs : (rootSystem ι).Steps (fun _ _ => True) c c') : Settled c' i :=
  hs.preserves (P := (Settled · i)) h fun _ _ _ hq _ hstep => hq.step hstep

/-- The page that submitted handles the success: `onSignIn` is called. -/
theorem onAnswer_submission {app : App} {cont : Cont} {uid : String} (h : IsSubmission cont)
    (hbuilt : ∀ page cont', cont = .login page cont' → page < app.logins.length) :
    (onAnswer app cont (.uid uid)).1.root.authStatus = .signedIn := by
  obtain ⟨page, rfl | rfl⟩ := h
  · have hpage := List.getElem?_eq_getElem (hbuilt page _ rfl)
    simp only [onAnswer, hpage]
    rfl
  · have hpage := List.getElem?_eq_getElem (hbuilt page _ rfl)
    simp only [onAnswer, hpage]
    rfl

omit [DecidableEq ι] in
/-- Handling an answer that is not the stale lookup leaves the stale lookup where it is. -/
theorem StaleLookup.taken {c : AppConfig ι} {i : ι} {k : Nat} {p : AppMessage ι × Answer}
    (h : StaleLookup c i) (hk : c.answers[k]? = some p) (hp : p.2 ≠ .user none) :
    StaleLookup (c.taken k) i := by
  obtain ⟨q, hq, hrest⟩ := h
  rcases mem_eraseIdx_or hk hq with rfl | hq
  · exact absurd hrest.2.2 hp
  · exact ⟨q, hq, hrest⟩

/-- A stale lookup closes the gate as soon as it is handled. -/
theorem StaleLookup.closes {c : AppConfig ι} {i : ι} (h : StaleLookup c i) :
    ∃ c', (rootSystem ι).Steps (fun _ _ => True) c c' ∧ authStatus c' i = .notSignedIn := by
  obtain ⟨⟨m, r⟩, hp, rfl, hcont, rfl⟩ := h
  obtain ⟨k, hk⟩ := List.mem_iff_getElem?.mp hp
  have hstep : (rootSystem ι).step c (.deliver k ()) = some _ :=
    step_deliver_of (S := firebase ι Cont) hk
  refine ⟨_, Machine.Steps.single trivial hstep, ?_⟩
  rw [authStatus, Config.post_clients_self]
  show (onAnswer _ m.call.cont _).1.root.authStatus = _
  rw [hcont]
  exact onAnswer_null _

/-- A successful `signIn` or `createUser` that is handled from `c` lasts in every later state,
whatever the steps, if and only if no null answer to the lookup of its device is on its way in
`c`. -/
theorem staysSignedIn_iff {c c' : AppConfig ι} {k : Nat} {m : AppMessage ι} {uid : String}
    (h : (rootSystem ι).Reachable c) (hk : c.answers[k]? = some (m, .uid uid))
    (hm : IsSubmission m.call.cont) (hs : (rootSystem ι).step c (.deliver k ()) = some c') :
    (∀ c'', (rootSystem ι).Steps (fun _ _ => True) c' c'' →
      authStatus c'' m.client = .signedIn) ↔ ¬ StaleLookup c m.client := by
  obtain ⟨_, _, app, out, hk', ha, rfl⟩ := step_deliver (S := firebase ι Cont) hs
  obtain ⟨rfl, rfl⟩ := Prod.mk.inj (Option.some.inj (hk.symm.trans hk'))
  obtain ⟨rfl, rfl⟩ := Prod.mk.inj ha
  have hpages := pagesBuilt h
  have hissued : m ∈ c.issued := (inFlightIssued h).2 _ (List.mem_of_getElem? hk)
  have hbuilt := hpages.built m hissued
  constructor
  · intro hall hstale
    have hstale' := hstale.taken hk (by nofun)
    -- the stale lookup may be handled next
    obtain ⟨c'', hsteps, hclosed⟩ := StaleLookup.closes (c := (c.taken k).post m.client
      (onAnswer (c.clients m.client) m.call.cont (.uid uid)).1
      (onAnswer (c.clients m.client) m.call.cont (.uid uid)).2 ((m.call, .uid uid) :: m.cause))
      hstale'
    have hopen := hall c'' hsteps
    rw [hclosed] at hopen
    cases hopen
  · intro hfresh c'' hsteps
    -- a page has submitted, so one was built, and the app was launched
    have hlaunched : (c.clients m.client).launched = true := by
      cases hl : (c.clients m.client).launched with
      | true => rfl
      | false =>
          obtain ⟨page, hcont | hcont⟩ := hm
          · have := hbuilt page _ hcont
            simp [hpages.unlaunched _ hl] at this
          · have := hbuilt page _ hcont
            simp [hpages.unlaunched _ hl] at this
    have hsettled : Settled ((c.taken k).post m.client
        (onAnswer (c.clients m.client) m.call.cont (.uid uid)).1
        (onAnswer (c.clients m.client) m.call.cont (.uid uid)).2
        ((m.call, .uid uid) :: m.cause)) m.client := by
      refine ⟨?_, ?_, ?_, ?_⟩
      · rw [Config.post_clients_self]
        exact (onAnswer_pages _ _ _).1.trans hlaunched
      · rw [authStatus, Config.post_clients_self]
        exact onAnswer_submission hm hbuilt
      · exact sessionKnown h _ (List.mem_of_getElem? hk) uid rfl
      · rintro ⟨p, hp, hrest⟩
        exact hfresh ⟨p, List.mem_of_mem_eraseIdx hp, hrest⟩
    exact (hsettled.steps hsteps).open_

/-! ## A lookup in time, and a stale one -/

/-- A backend that knows the account of one user, signed in nowhere. -/
def withOla : Backend Unit :=
  { Backend.empty Unit with accounts := AList.insert "o@p" ⟨"x", "u1"⟩ ∅ }

/-- Fill in the form, press the login button, and let the call be answered. -/
def signInOla : List (AppAction Unit) :=
  [.event () (.login (.editEmail "o@p")), .event () (.login (.editPassword "x")),
    .event () (.login .pressLogin), .serve 0 (.accept "")]

def olaSignIn : AppMessage Unit :=
  ⟨(), ⟨.login 0 .signIn, .signIn (some "o@p") (some "x")⟩, []⟩

/-- What is left of a configuration whose `k`-th answer is handled. -/
structure Seen where
  stale : Bool
  answer : Option (AppMessage Unit × Answer)
  status : Option AuthStatus
  later : Option AuthStatus
  deriving DecidableEq

/-- Handle the `k`-th answer, then the first one. -/
def seen (k : Nat) (c : AppConfig Unit) : Seen :=
  let c' := (rootSystem Unit).step c (.deliver k ())
  ⟨decide (StaleLookup c ()), c.answers[k]?, c'.map (authStatus · ()),
    (c'.bind ((rootSystem Unit).step · (.deliver 0 ()))).map (authStatus · ())⟩

/-- The lookup is answered before the sign-in, and handled: the sign-in lasts. -/
theorem staysSignedIn_iff_ola : ∃ c c' : AppConfig Unit,
    (rootSystem Unit).run (start withOla)
      ([.event () .launch, .serve 0 (.accept ""), .deliver 0 ()] ++ signInOla) = some c ∧
    (rootSystem Unit).step c (.deliver 0 ()) = some c' ∧
    ∀ c'', (rootSystem Unit).Steps (fun _ _ => True) c' c'' → authStatus c'' () = .signedIn := by
  have hrun : ((rootSystem Unit).run (start withOla)
      (([.event () .launch, .serve 0 (.accept ""), .deliver 0 ()] : List (AppAction Unit)) ++
        signInOla)).map (seen 0)
      = some ⟨false, some (olaSignIn, .uid "u1"), some .signedIn, none⟩ := by
    decide +kernel
  obtain ⟨c, hc, hseen⟩ := Option.map_eq_some_iff.mp hrun
  obtain ⟨hfresh, hk, hstatus, -⟩ := Seen.mk.inj hseen
  obtain ⟨c', hs, -⟩ := Option.map_eq_some_iff.mp hstatus
  have hlasts := (staysSignedIn_iff (Machine.Reach.of_follow ⟨_, rfl⟩ hc) hk ⟨0, Or.inl rfl⟩ hs).mpr
    (of_decide_eq_false hfresh)
  exact ⟨c, c', hc, hs, hlasts⟩

/-- The lookup is evaluated before the sign-in and handled after it: the app is back on the Login
page, with a user in the session. -/
theorem not_staysSignedIn : ¬ ∀ (c c' : AppConfig Unit) (k : Nat) (m : AppMessage Unit)
    (uid : String), (rootSystem Unit).Reachable c → c.answers[k]? = some (m, .uid uid) →
    IsSubmission m.call.cont → (rootSystem Unit).step c (.deliver k ()) = some c' →
    ∀ c'', (rootSystem Unit).Steps (fun _ _ => True) c' c'' →
      authStatus c'' m.client = .signedIn := by
  intro h
  have hrun : ((rootSystem Unit).run (start withOla)
      (([.event () .launch, .serve 0 (.accept "")] : List (AppAction Unit)) ++
        signInOla)).map (seen 1)
      = some ⟨true, some (olaSignIn, .uid "u1"), some .signedIn, some .notSignedIn⟩ := by
    decide +kernel
  obtain ⟨c, hc, hseen⟩ := Option.map_eq_some_iff.mp hrun
  obtain ⟨-, hk, hstatus, hlater⟩ := Seen.mk.inj hseen
  obtain ⟨c', hs, -⟩ := Option.map_eq_some_iff.mp hstatus
  rw [hs] at hlater
  obtain ⟨c'', hs', hclosed⟩ := Option.map_eq_some_iff.mp hlater
  have hopen := h c c' 1 olaSignIn "u1" (Machine.Reach.of_follow ⟨_, rfl⟩ hc) hk ⟨0, Or.inl rfl⟩ hs
    c'' (Machine.Steps.single trivial hs')
  rw [show authStatus c'' olaSignIn.client = .notSignedIn from hclosed] at hopen
  cases hopen

end P0ker.AuthGate
