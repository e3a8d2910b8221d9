import P0ker.AuthGate

/-!
# Who gets past the gate

Three answers open the gate between the Login page and the home page: a lookup that has found a
user, a `signIn` and a `createUser`. Each was evaluated at a moment when the session had a user, and
nothing in the app signs a user out, so behind an open gate there is always a user.

What fails opens nothing and leaves nothing: a form that does not validate, wherever the validation
runs, and a rejected `signIn` or `createUser`.
-/

namespace P0ker.AuthGate

open Async RootPage

variable {ι : Type} [DecidableEq ι]

/-! ## Behind an open gate there is a user -/

section Reach

variable {C : AppConfig ι → AppAction ι → Prop} {c : AppConfig ι}

/-- A user found by a lookup is signed in. -/
def LookupKnown (c : AppConfig ι) : Prop :=
  ∀ p ∈ c.answers, ∀ u, p.2 = .user (some u) → c.backend.session p.1.client ≠ none

theorem lookupKnown (h : (rootSystem ι).Reach C c) : LookupKnown c := by
  refine h.invariant (P := LookupKnown) ?_ ?_
  · rintro _ ⟨b, rfl⟩ p hp
    cases hp
  · intro c a c' hr hq _ hs
    refine step_keeps (Q := LookupKnown) hs (fun _ _ _ _ _ _ => hq) ?_ ?_
    · intro k o m b r _ _ hserve p hp u hu
      rcases mem_answers_served hp with hp | rfl
      · exact Backend.serve_session_ne_none hserve (hq p hp u hu)
      · obtain rfl : r = .user (some u) := hu
        refine Backend.serve_session_ne_none hserve ?_
        rw [← Backend.serve_user hserve]
        exact Option.some_ne_none u
    · intro k d m r app out _ _ _ p hp
      exact hq p (List.mem_of_mem_eraseIdx hp)

/-- A device whose gate is open has a user. -/
def GateBacked (c : AppConfig ι) : Prop :=
  ∀ i, authStatus c i = .signedIn → c.backend.session i ≠ none

theorem gateBacked (h : (rootSystem ι).Reach C c) : GateBacked c := by
  refine h.invariant (P := GateBacked) ?_ ?_
  · rintro _ ⟨b, rfl⟩ i hi
    cases hi
  · intro c a c' hr hq _ hs
    refine step_keeps (Q := GateBacked) hs ?_ ?_ ?_
    · intro j e app out _ he i hi
      by_cases hj : i = j
      · subst hj
        rw [authStatus, Config.post_clients_self] at hi
        exact hq i (signedIn_of_onEvent he hi)
      · rw [authStatus, Config.post_clients_ne _ _ _ _ _ hj] at hi
        exact hq i hi
    · intro k o m b r _ _ hserve i hi
      exact Backend.serve_session_ne_none hserve (hq i hi)
    · intro k d m r app out _ hk ha i hi
      obtain ⟨rfl, rfl⟩ := Prod.mk.inj ha
      have hmem : (m, r) ∈ c.answers := List.mem_of_getElem? hk
      by_cases hj : i = m.client
      · subst hj
        rw [authStatus, Config.post_clients_self] at hi
        -- the gate was open, or the lookup opens it, or a submission
        rcases signedIn_of_onAnswer hi with hopen | ⟨u, rfl⟩ | ⟨u, rfl⟩
        · exact hq m.client hopen
        · exact lookupKnown hr _ hmem u rfl
        · exact sessionKnown hr _ hmem u rfl
      · rw [authStatus, Config.post_clients_ne _ _ _ _ _ hj] at hi
        exact hq i hi

end Reach

/-! ## What fails changes nothing -/

/-- What the Login page's code does in a step, besides changing its own state. -/
def loginEffects (c : AppConfig ι) : AppAction ι → List Login.Effect
  | .event i (.login e) =>
      match (c.clients i).logins.getLast? with
      | some s => ((Login.onEvent s e).map Prod.snd).getD []
      | none => []
  | .deliver k _ =>
      match c.answers[k]? with
      | some (m, a) =>
          match m.call.cont with
          | .login page cont =>
              match (c.clients m.client).logins[page]? with
              | some s => (Login.onAnswer s cont a).2
              | none => []
          | .currentUser => []
      | none => []
  | _ => []

/-- The step submits a form that does not validate, or handles a failed submission. -/
def Fails (c : AppConfig ι) : AppAction ι → Prop
  | .event i (.login .pressLogin) =>
      ∃ s ∈ (c.clients i).logins.getLast?, Login.formErrors s ≠ []
  | .deliver k _ => ∃ p ∈ c.answers[k]?,
      (IsSubmission p.1.call.cont ∧ ∃ e, p.2 = .failed e) ∨
        ∃ page, p.1.call.cont = .login page .checkUsername ∧ p.2 = .documents [] ∧
          ∃ s ∈ (c.clients p.1.client).logins[page]?, s.mounted ∧ Login.formErrors s ≠ []
  | _ => False

/-- The uids the Login pages of device `i` hold. -/
def uids (c : AppConfig ι) (i : ι) : List (Option String) :=
  (c.clients i).logins.map (·.uid)

/-- Every gate, every uid and the backend are as they were, and no call has been issued. -/
structure Unharmed (c c' : AppConfig ι) : Prop where
  status : ∀ i, authStatus c' i = authStatus c i
  uids : ∀ i, uids c' i = uids c i
  backend : c'.backend = c.backend
  calls : c'.calls = c.calls

theorem map_set_same {γ η : Type} (f : γ → η) {l : List γ} {n : Nat} {x y : γ} (hx : l[n]? = some x)
    (hf : f y = f x) : (l.set n y).map f = l.map f := by
  rw [List.map_set, hf]
  apply List.ext_getElem?
  intro k
  by_cases hk : n = k
  · subst hk
    rw [List.getElem?_set_self (by simpa using (List.getElem?_eq_some_iff.mp hx).1),
      List.getElem?_map, hx]
    rfl
  · rw [List.getElem?_set_ne hk]

section Unharmed

variable {c : AppConfig ι} {i : ι} {page : Nat} {s s' : Login.LoginState}

/-- A page that keeps its uid has run a handler without effects. -/
theorem Unharmed.ran (cause : List (Call Cont × Answer))
    (hs : (c.clients i).logins[page]? = some s) (huid : s'.uid = s.uid) :
    Unharmed c (c.post i (loginRan (c.clients i) page (s', [])).1
      (loginRan (c.clients i) page (s', [])).2 cause) := by
  refine ⟨?_, ?_, rfl, ?_⟩
  · intro j
    by_cases hj : j = i
    · rw [hj, authStatus, Config.post_clients_self]
      rfl
    · rw [authStatus, authStatus, Config.post_clients_ne _ _ _ _ _ hj]
  · intro j
    by_cases hj : j = i
    · rw [hj, AuthGate.uids, Config.post_clients_self]
      exact map_set_same _ hs huid
    · rw [AuthGate.uids, AuthGate.uids, Config.post_clients_ne _ _ _ _ _ hj]
  · rw [Config.post_calls]
    exact List.append_nil _

/-- The code that runs on a failure clears or sets the hint, and does nothing else. -/
theorem onAnswer_fails {cont : Login.Cont} {a : Answer}
    (h : ((cont = .signIn ∨ cont = .createUser) ∧ ∃ e, a = .failed e) ∨
      (cont = .checkUsername ∧ a = .documents [] ∧ s.mounted ∧ Login.formErrors s ≠ [])) :
    ∃ s', Login.onAnswer s cont a = (s', []) ∧ s'.uid = s.uid := by
  have hfailed : ∀ e, ∃ s', Login.submitFailed s e = (s', []) ∧ s'.uid = s.uid := by
    intro e
    unfold Login.submitFailed
    split <;> exact ⟨_, rfl, rfl⟩
  rcases h with ⟨rfl | rfl, e, rfl⟩ | ⟨rfl, rfl, hm, he⟩
  · exact hfailed e
  · exact hfailed e
  · exact ⟨_, Login.usernameChecked_invalid hm rfl he, rfl⟩

theorem pressLogin_fails {r : Login.LoginState × List Login.Effect}
    (h : Login.onEvent s .pressLogin = some r) (he : Login.formErrors s ≠ []) :
    ∃ s', r = (s', []) ∧ s'.uid = s.uid := by
  obtain ⟨s', out⟩ := r
  cases (Login.ran h).2 with
  | pressLogin => exact ⟨_, Login.validateAndSubmit_invalid he, rfl⟩

end Unharmed

theorem Unharmed.pressLogin {c c' : AppConfig ι} {i : ι}
    (h : Fails c (.event i (.login .pressLogin)))
    (hs : (rootSystem ι).step c (.event i (.login .pressLogin)) = some c') :
    Unharmed c c' ∧ .onSignIn ∉ loginEffects c (.event i (.login .pressLogin)) := by
  obtain ⟨s, hlast, herrors⟩ := h
  have hlast' : (c.clients i).logins.getLast? = some s := hlast
  obtain ⟨app, out, he, rfl⟩ := step_event (S := firebase ι Cont) hs
  have hpress : onEvent (c.clients i) (.login .pressLogin) = some (app, out) := he
  -- the button is on the last page
  obtain ⟨t, r, ht, hpage, hr, heq⟩ := onEvent_login hpress
  obtain rfl := Option.some.inj (hlast'.symm.trans ht)
  obtain ⟨s', rfl, huid⟩ := pressLogin_fails hr herrors
  obtain ⟨rfl, rfl⟩ := Prod.mk.inj heq
  refine ⟨Unharmed.ran _ hpage huid, ?_⟩
  simp only [loginEffects, hlast', hr]
  exact List.not_mem_nil

theorem Unharmed.deliver {c c' : AppConfig ι} {k : Nat} {d : Unit} (hr : (rootSystem ι).Reachable c)
    (h : Fails c (.deliver k d)) (hs : (rootSystem ι).step c (.deliver k d) = some c') :
    Unharmed c c' ∧ .onSignIn ∉ loginEffects c (.deliver k d) := by
  obtain ⟨⟨m, a⟩, hk, hfail⟩ := h
  have hk' : c.answers[k]? = some (m, a) := hk
  obtain ⟨_, _, app, out, hk'', ha, rfl⟩ := step_deliver (S := firebase ι Cont) hs
  obtain ⟨rfl, rfl⟩ := Prod.mk.inj (Option.some.inj (hk'.symm.trans hk''))
  have hissued : m ∈ c.issued := (inFlightIssued hr).2 _ (List.mem_of_getElem? hk')
  have hbuilt := (pagesBuilt hr).built m hissued
  -- the code runs on the page the call names, which has been built
  have hcode : ∃ page cont s s', m.call.cont = .login page cont ∧
      (c.clients m.client).logins[page]? = some s ∧ Login.onAnswer s cont a = (s', []) ∧
      s'.uid = s.uid := by
    rcases hfail with ⟨⟨page, hcont⟩, hfailed⟩ | ⟨page, hcont, hfree, s, hs, hm, herrors⟩
    · have hpage : page < (c.clients m.client).logins.length := by
        rcases hcont with hcont | hcont
        · exact hbuilt page _ hcont
        · exact hbuilt page _ hcont
      have hget := List.getElem?_eq_getElem hpage
      rcases hcont with hcont | hcont
      · obtain ⟨s', hs', huid⟩ := onAnswer_fails (Or.inl ⟨Or.inl rfl, hfailed⟩)
        exact ⟨page, _, _, s', hcont, hget, hs', huid⟩
      · obtain ⟨s', hs', huid⟩ := onAnswer_fails (Or.inl ⟨Or.inr rfl, hfailed⟩)
        exact ⟨page, _, _, s', hcont, hget, hs', huid⟩
    · obtain ⟨s', hs', huid⟩ := onAnswer_fails (Or.inr ⟨rfl, hfree, hm, herrors⟩)
      exact ⟨page, _, s, s', hcont, hs, hs', huid⟩
  obtain ⟨page, cont, s, s', hcont, hpage, hans, huid⟩ := hcode
  have ha' : RootPage.onAnswer (c.clients m.client) m.call.cont a = (app, out) := ha
  rw [hcont] at ha'
  simp only [RootPage.onAnswer, hpage, hans] at ha'
  obtain ⟨rfl, rfl⟩ := Prod.mk.inj ha'
  have hran := Unharmed.ran (c := c.taken k) ((m.call, a) :: m.cause) hpage huid
  refine ⟨⟨hran.status, hran.uids, hran.backend, hran.calls⟩, ?_⟩
  simp only [loginEffects, hk', hcont, hpage, hans]
  exact List.not_mem_nil

/-- **The gate is sound.** In every reachable state a device that shows the home page has a user in
its session; and a step that handles a failed validation or a failed submission leaves every gate,
every uid and the backend as they were, issues nothing and does not call `onSignIn`. -/
theorem gate_sound {c : AppConfig ι} (h : (rootSystem ι).Reachable c) :
    (∀ i, authStatus c i = .signedIn → c.backend.session i ≠ none) ∧
      ∀ a c', (rootSystem ι).step c a = some c' → Fails c a →
        Unharmed c c' ∧ .onSignIn ∉ loginEffects c a := by
  refine ⟨gateBacked h, ?_⟩
  intro a c' hs hfail
  cases a with
  | event i e =>
      cases e with
      | launch | build => exact hfail.elim
      | login e =>
          cases e with
          | pressLogin => exact Unharmed.pressLogin hfail hs
          | editUsername | editEmail | editPassword | pressRegister | moveToRegister |
              moveToLogin | dispose => exact hfail.elim
  | serve => exact hfail.elim
  | deliver k d => exact Unharmed.deliver h hfail hs

/-- Two submissions of one page: the first signs Ola in, the second is rejected and its answer is
still to be handled. -/
theorem gate_sound_ola : ∃ c c' : AppConfig Unit,
    (rootSystem Unit).run (start withOla)
      ([.event () .launch, .serve 0 (.accept ""), .deliver 0 ()] ++ signInOla ++
        [.event () (.login .pressLogin), .serve 0 (.reject "wrong"), .deliver 0 ()]) = some c ∧
    (rootSystem Unit).step c (.deliver 0 ()) = some c' ∧ authStatus c () = .signedIn ∧
    c.backend.session () ≠ none ∧ Unharmed c c' ∧ .onSignIn ∉ loginEffects c (.deliver 0 ()) := by
  have hrun : ((rootSystem Unit).run (start withOla)
      (([.event () .launch, .serve 0 (.accept ""), .deliver 0 ()] : List (AppAction Unit)) ++
        signInOla ++ ([.event () (.login .pressLogin), .serve 0 (.reject "wrong"), .deliver 0 ()] :
          List (AppAction Unit)))).map (seen 0)
      = some ⟨false, some (olaSignIn, .failed "wrong"), some .signedIn, none⟩ := by
    decide +kernel
  obtain ⟨c, hc, hseen⟩ := Option.map_eq_some_iff.mp hrun
  obtain ⟨-, hk, hstatus, -⟩ := Seen.mk.inj hseen
  obtain ⟨c', hs, hopen⟩ := Option.map_eq_some_iff.mp hstatus
  obtain ⟨hgate, hfails⟩ := gate_sound (Machine.Reach.of_follow ⟨_, rfl⟩ hc)
  obtain ⟨hunharmed, heffects⟩ :=
    hfails _ c' hs ⟨_, hk, Or.inl ⟨⟨0, Or.inl rfl⟩, "wrong", rfl⟩⟩
  have hopen' : authStatus c () = .signedIn := (hunharmed.status ()).symm.trans hopen
  exact ⟨c, c', hc, hs, hopen', hgate () hopen', hunharmed, heffects⟩

end P0ker.AuthGate
