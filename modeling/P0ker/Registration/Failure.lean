import P0ker.Writes
import P0ker.AuthGate

/-!
# One registration, and what may fail

A press of 'Create an account' starts a chain of three calls: the availability query, `createUser`,
and the profile's write. The root page switches to the home page on the answer to the second, before
the third is even evaluated.

`Stage` follows one press through the app, with nothing else happening but frames being drawn: the
query is out; or answered; the account is being created; or has been answered; the profile is being
written; or the chain has stopped, and left nothing.
-/

namespace P0ker.Registration.Failure

open Async RootPage AuthGate Login

variable {ι : Type} [DecidableEq ι]

/-- The service follows the choice, and nothing is raised but frames. -/
def Watched (rej : Rejected ι RootPage.Cont) (c : AppConfig ι) : AppAction ι → Prop
  | .event _ e => e = .build
  | .serve k o => ∀ m ∈ c.calls[k]?, o.rejected = rej m
  | .deliver _ _ => True

instance (rej : Rejected ι RootPage.Cont) (c : AppConfig ι) :
    ∀ a : AppAction ι, Decidable (Watched rej c a)
  | .event _ _ => by unfold Watched; infer_instance
  | .serve _ _ => by unfold Watched; infer_instance
  | .deliver _ _ => .isTrue trivial

omit [DecidableEq ι] in
theorem Watched.chosen {rej : Rejected ι RootPage.Cont} {c : AppConfig ι} {a : AppAction ι}
    (h : Watched rej c a) : Chosen rej c a := by
  cases a with
  | event => trivial
  | serve => exact h
  | deliver => trivial

/-- 'Create an account' is pressed when nothing is in flight, and nothing else is raised but frames
until nothing is in flight. -/
structure Registered (rej : Rejected ι RootPage.Cont) (i : ι) (c₀ c₁ c : AppConfig ι) : Prop where
  quiet : c₀.Quiet
  press : (rootSystem ι).step c₀ (.event i (.login .pressRegister)) = some c₁
  run : (rootSystem ι).Steps (Watched rej) c₁ c
  done : c.Quiet

/-! ## The form of one page -/

/-- The app shows `status`, and its Login page number `page` meets `P`. -/
def HasForm (app : App) (page : Nat) (status : AuthStatus) (P : LoginState → Prop) : Prop :=
  app.root.authStatus = status ∧ ∃ s, app.logins[page]? = some s ∧ P s

section HasForm

variable {app : App} {page : Nat} {status status' : AuthStatus} {P Q : LoginState → Prop}

/-- A frame may dispose the page, and does nothing else to it. -/
theorem HasForm.build (h : HasForm app page status P)
    (hP : ∀ s, P s → P { s with mounted := false }) :
    HasForm (build app) page status P := by
  obtain ⟨hstatus, s, hs, hPs⟩ := h
  refine ⟨by rw [build_root, hstatus], ?_⟩
  have hpage : page < app.logins.length := (List.getElem?_eq_some_iff.mp hs).1
  unfold RootPage.build
  split
  · refine ⟨{ s with mounted := false }, ?_, hP s hPs⟩
    show (app.logins.map _)[page]? = _
    rw [List.getElem?_map, hs]
    rfl
  · split
    · exact ⟨s, hs, hPs⟩
    · refine ⟨s, ?_, hPs⟩
      show (app.logins ++ [({} : LoginState)])[page]? = _
      rw [List.getElem?_append_left hpage, hs]

/-- The page has run a handler that set the status to `status'`. -/
theorem HasForm.ran {r : LoginState × List Effect} (h : HasForm app page status P) (hQ : Q r.1)
    (hstatus : (runEffects page app.root r.2).1.authStatus = status') :
    HasForm (loginRan app page r).1 page status' Q := by
  obtain ⟨-, s, hs, -⟩ := h
  refine ⟨hstatus, r.1, ?_, hQ⟩
  have hpage : page < app.logins.length := (List.getElem?_eq_some_iff.mp hs).1
  show (app.logins.set page r.1)[page]? = _
  rw [List.getElem?_set_self hpage]

/-- The device is at what came of the handler. -/
theorem HasForm.posted {ι : Type} [DecidableEq ι] {c : AppConfig ι} {i : ι}
    {out : List (Call RootPage.Cont)} {cause : List (Call RootPage.Cont × Answer)}
    {r : LoginState × List Effect} (h : HasForm app page status P) (hQ : Q r.1)
    (hstatus : (runEffects page app.root r.2).1.authStatus = status') :
    HasForm ((c.post i (loginRan app page r).1 out cause).clients i) page status' Q := by
  rw [Config.post_clients_self]
  exact h.ran hQ hstatus

/-- The code of a page that has been built runs on that page. -/
theorem HasForm.onAnswer (h : HasForm app page status P) (cont : Login.Cont) (a : Answer) :
    ∃ s, P s ∧ app.logins[page]? = some s ∧
      RootPage.onAnswer app (.login page cont) a =
        loginRan app page (Login.onAnswer s cont a) := by
  obtain ⟨-, s, hs, hP⟩ := h
  exact ⟨s, hP, hs, by simp only [RootPage.onAnswer, hs]⟩

end HasForm

/-- The page is in register mode and shows the name `name`. -/
def Shows (name : String) (s : LoginState) : Prop :=
  s.formType = .register ∧ normalise s.usernameText = name

/-- The page has saved `name` and `email`. -/
def Saved (name email : String) (s : LoginState) : Prop :=
  s.username = some name ∧ s.email = some email

/-- The answer to the availability query ends the chain, or creates a user with what the form
shows. -/
theorem onAnswer_checkUsername {s : LoginState} {a : Answer} {name : String} (h : Shows name s)
    (ha : (∃ e, a = .failed e) ∨ ∃ ds, a = .documents ds) :
    (∃ s', Login.onAnswer s .checkUsername a = (s', [])) ∨
      ∃ s' email password, Saved name email s' ∧ Login.onAnswer s .checkUsername a =
        (s', [.call ⟨.createUser, .createUser (some email) (some password)⟩]) := by
  rcases ha with ⟨e, rfl⟩ | ⟨ds, rfl⟩
  · exact Or.inl ⟨s, rfl⟩
  · show (∃ s', usernameChecked s ds = (s', [])) ∨ ∃ s' email password, Saved name email s' ∧
      usernameChecked s ds = (s', _)
    by_cases hm : s.mounted = true
    · by_cases hd : ds = []
      · by_cases he : formErrors s = []
        · refine Or.inr ⟨_, _, _, ?_, usernameChecked_register hm hd he h.1⟩
          exact ⟨congrArg some h.2, rfl⟩
        · exact Or.inl ⟨_, usernameChecked_invalid hm hd he⟩
      · exact Or.inl ⟨_, usernameChecked_taken hm hd⟩
    · exact Or.inl ⟨_, usernameChecked_disposed hm⟩

/-- The profile of a user. -/
def profile (uid email name : String) : Doc :=
  [("uid", .str uid), ("email", .str email), ("brukernavn", .str name)]

theorem onAnswer_created {s : LoginState} {name email : String} (h : Saved name email s)
    (uid : String) : Login.onAnswer s .createUser (.uid uid) =
      ({ s with uid := some uid },
        [.onSignIn, .call ⟨.saveUserData, .setData (userPath (some uid))
          (profile uid email name)⟩]) := by
  show userCreated s uid = _
  simp only [userCreated, saveUserData, h.1, h.2]
  rfl

theorem onAnswer_notCreated (s : LoginState) (e : String) :
    ∃ s', Login.onAnswer s .createUser (.failed e) = (s', []) := by
  show ∃ s', submitFailed s e = (s', [])
  unfold submitFailed
  split
  · exact ⟨_, rfl⟩
  · exact ⟨_, rfl⟩

/-! ## The stages of a registration -/

section Stage

variable {rej : Rejected ι RootPage.Cont} {c₀ c c' : AppConfig ι} {i : ι} {page : Nat}
  {name : String}

/-- The availability query of a press. -/
def asks (i : ι) (page : Nat) (name : String) : AppMessage ι :=
  ⟨i, ⟨.login page .checkUsername, .whereEq usersPath "brukernavn" (.str name)⟩, []⟩

/-- The call that creates the account. -/
def creates (i : ι) (page : Nat) (email password : String)
    (cause : List (Call RootPage.Cont × Answer)) : AppMessage ι :=
  ⟨i, ⟨.login page .createUser, .createUser (some email) (some password)⟩, cause⟩

/-- The write of the profile. -/
def saves (i : ι) (page : Nat) (uid email name : String)
    (cause : List (Call RootPage.Cont × Answer)) : AppMessage ι :=
  ⟨i, ⟨.login page .saveUserData, .setData (userPath (some uid)) (profile uid email name)⟩, cause⟩

/-- The account of `email` has been added to those of `c₀`, and the documents are the same. -/
structure AccountAdded (c₀ c : AppConfig ι) (email password uid : String) : Prop where
  fresh : email ∉ c₀.backend.accounts
  accounts : c.backend.accounts = c₀.backend.accounts.insert email ⟨password, uid⟩

/-- Where a registration can be. -/
inductive Stage (rej : Rejected ι RootPage.Cont) (c₀ : AppConfig ι) (i : ι) (page : Nat)
    (name : String) (c : AppConfig ι) : Prop
  | asking :
      HasForm (c.clients i) page (authStatus c₀ i) (Shows name) →
      since c₀ c = [asks i page name] → c.backend = c₀.backend →
      c.calls = [asks i page name] → c.answers = [] → Stage rej c₀ i page name c
  | asked (a : Answer) :
      HasForm (c.clients i) page (authStatus c₀ i) (Shows name) →
      since c₀ c = [asks i page name] → c.backend = c₀.backend →
      c.calls = [] → c.answers = [(asks i page name, a)] →
      (∃ e, a = .failed e) ∨ (∃ ds, a = .documents ds) → Stage rej c₀ i page name c
  | creating (email password : String) (cause : List (Call RootPage.Cont × Answer)) :
      HasForm (c.clients i) page (authStatus c₀ i) (Saved name email) →
      since c₀ c = [asks i page name, creates i page email password cause] →
      c.backend = c₀.backend →
      c.calls = [creates i page email password cause] → c.answers = [] →
      Stage rej c₀ i page name c
  | refused (email password e : String) (cause : List (Call RootPage.Cont × Answer)) :
      HasForm (c.clients i) page (authStatus c₀ i) (Saved name email) →
      since c₀ c = [asks i page name, creates i page email password cause] →
      c.backend = c₀.backend → rej (creates i page email password cause) = true →
      c.calls = [] → c.answers = [(creates i page email password cause, .failed e)] →
      Stage rej c₀ i page name c
  | created (email password uid : String) (cause : List (Call RootPage.Cont × Answer)) :
      HasForm (c.clients i) page (authStatus c₀ i) (Saved name email) →
      since c₀ c = [asks i page name, creates i page email password cause] →
      AccountAdded c₀ c email password uid →
      rej (creates i page email password cause) = false →
      c.calls = [] → c.answers = [(creates i page email password cause, .uid uid)] →
      Stage rej c₀ i page name c
  | stopped (ms : List (AppMessage ι)) :
      authStatus c i = authStatus c₀ i → since c₀ c = asks i page name :: ms →
      (∀ m ∈ ms, ∃ email password cause, m = creates i page email password cause ∧ rej m = true) →
      c.backend = c₀.backend → c.Quiet → Stage rej c₀ i page name c
  | saving (email password uid : String) (cause cause' : List (Call RootPage.Cont × Answer)) :
      HasForm (c.clients i) page .signedIn (Saved name email) →
      since c₀ c = [asks i page name, creates i page email password cause,
        saves i page uid email name cause'] →
      AccountAdded c₀ c email password uid →
      rej (creates i page email password cause) = false →
      (∀ m ∈ c.calls, m = saves i page uid email name cause') →
      (∀ p ∈ c.answers, p.1 = saves i page uid email name cause') →
      Stage rej c₀ i page name c

/-- A frame changes no stage. -/
theorem Stage.frame (h : Stage rej c₀ i page name c) (j : ι) :
    Stage rej c₀ i page name (c.post j (build (c.clients j)) [] []) := by
  have hsince : since c₀ (c.post j (build (c.clients j)) [] []) = since c₀ c := by
    simp [since]
  have hcalls : (c.post j (build (c.clients j)) [] []).calls = c.calls := by simp
  -- a frame may dispose the form, and no stage asks whether it is there
  have hform : ∀ {status : AuthStatus} {P : LoginState → Prop},
      (∀ s, P s → P { s with mounted := false }) → HasForm (c.clients i) page status P →
      HasForm ((c.post j (build (c.clients j)) [] []).clients i) page status P := by
    intro status P hP hc
    refine Config.client_post (p := (HasForm · page status P)) ?_ fun _ => hc
    rintro rfl
    exact hc.build hP
  cases h with
  | asking hf hs hb hc ha =>
      exact .asking (hform (fun s h => h) hf) (hsince.trans hs) hb (hcalls.trans hc) ha
  | asked a hf hs hb hc ha hr =>
      exact .asked a (hform (fun s h => h) hf) (hsince.trans hs) hb (hcalls.trans hc) ha hr
  | creating email password cause hf hs hb hc ha =>
      exact .creating email password cause (hform (fun s h => h) hf) (hsince.trans hs) hb
        (hcalls.trans hc) ha
  | refused email password e cause hf hs hb hr hc ha =>
      exact .refused email password e cause (hform (fun s h => h) hf) (hsince.trans hs) hb hr
        (hcalls.trans hc) ha
  | created email password uid cause hf hs hb hr hc ha =>
      exact .created email password uid cause (hform (fun s h => h) hf) (hsince.trans hs)
        ⟨hb.fresh, hb.accounts⟩ hr (hcalls.trans hc) ha
  | stopped ms hf hs hr hb hq =>
      refine .stopped ms ?_ (hsince.trans hs) hr hb ⟨hcalls.trans hq.1, hq.2⟩
      rw [← hf, authStatus, authStatus]
      refine Config.client_post (p := fun app : App => app.root.authStatus = _) ?_ fun _ => rfl
      rintro rfl
      rw [build_root]
  | saving email password uid cause cause' hf hs hb hr hc ha =>
      refine .saving email password uid cause cause' (hform (fun s h => h) hf) (hsince.trans hs)
        ⟨hb.fresh, hb.accounts⟩ hr ?_ ha
      intro m hm
      exact hc m (hcalls ▸ hm)

/-- What a `createUser` does to the accounts. -/
theorem serve_createUser {b b' : Backend ι} {email password : String} {o : Outcome} {a : Answer}
    (h : b.serve i (.createUser (some email) (some password)) o = some (b', a)) :
    (o.rejected = true ∧ b' = b ∧ ∃ e, a = .failed e) ∨
      (o.rejected = false ∧ ∃ uid, email ∉ b.accounts ∧
        b'.accounts = b.accounts.insert email ⟨password, uid⟩ ∧ a = .uid uid) := by
  cases o with
  | reject e =>
      obtain ⟨rfl, rfl⟩ := Prod.mk.inj (Option.some.inj h)
      exact Or.inl ⟨rfl, rfl, e, rfl⟩
  | accept uid =>
      simp only [Backend.serve] at h
      split at h
      · next hfresh =>
          obtain ⟨rfl, rfl⟩ := Prod.mk.inj (Option.some.inj h)
          exact Or.inr ⟨rfl, uid, hfresh.1, rfl, rfl⟩
      · cases h

/-- A call of the registration is evaluated. -/
theorem Stage.served {k : Nat} {o : Outcome} {m : AppMessage ι} {b : Backend ι} {a : Answer}
    (h : Stage rej c₀ i page name c) (hk : c.calls[k]? = some m) (hrej : o.rejected = rej m)
    (hserve : c.backend.serve m.client m.call.req o = some (b, a)) :
    Stage rej c₀ i page name (c.served k m b a) := by
  cases h with
  | asking hf hs hb hc ha =>
      rw [hc] at hk
      obtain ⟨rfl, rfl⟩ := eq_of_getElem?_singleton hk
      obtain ⟨rfl, hans⟩ := Backend.serve_whereEq hserve
      exact .asked a hf hs hb (Config.served_calls_of_lone hc) (Config.served_answers_of_nil ha)
        (hans.symm.imp id fun h => ⟨_, h⟩)
  | creating email password cause hf hs hb hc ha =>
      rw [hc] at hk
      obtain ⟨rfl, rfl⟩ := eq_of_getElem?_singleton hk
      rcases serve_createUser hserve with ⟨hr, rfl, e, rfl⟩ | ⟨hr, uid, hfresh, hacc, rfl⟩
      · exact .refused email password e cause hf hs hb (hrej.symm.trans hr)
          (Config.served_calls_of_lone hc) (Config.served_answers_of_nil ha)
      · rw [hb] at hfresh hacc
        exact .created email password uid cause hf hs ⟨hfresh, hacc⟩ (hrej.symm.trans hr)
          (Config.served_calls_of_lone hc) (Config.served_answers_of_nil ha)
  | saving email password uid cause cause' hf hs hb hr hc ha =>
      have hm := hc m (List.mem_of_getElem? hk)
      subst hm
      -- a write touches no account
      have haccounts : b.accounts = c.backend.accounts := by
        rcases Backend.serve_setData hserve with ⟨rfl, -⟩ | ⟨rfl, -⟩
        · rfl
        · rfl
      refine .saving email password uid cause cause' hf hs ⟨hb.fresh, haccounts.trans hb.accounts⟩
        hr ?_ ?_
      · intro m hm
        exact hc m (List.mem_of_mem_eraseIdx hm)
      · intro p hp
        rcases mem_answers_served hp with hp | rfl
        · exact ha p hp
        · rfl
  | asked a hf hs hb hc =>
      rw [hc] at hk
      cases hk
  | refused email password e cause hf hs hb hr hc =>
      rw [hc] at hk
      cases hk
  | created email password uid cause hf hs hb hr hc =>
      rw [hc] at hk
      cases hk
  | stopped ms hf hs hr hb hq =>
      rw [hq.1] at hk
      cases hk

/-- The page that waits for an answer handles it. -/
theorem HasForm.handles {app app' : App} {status : AuthStatus} {P : LoginState → Prop}
    {cont : Login.Cont} {a : Answer} {out : List (Call RootPage.Cont)}
    (hf : HasForm app page status P)
    (hans : RootPage.onAnswer app (.login page cont) a = (app', out)) :
    ∃ s, P s ∧ app' = (loginRan app page (Login.onAnswer s cont a)).1 ∧
      out = (runEffects page app.root (Login.onAnswer s cont a).2).2 := by
  obtain ⟨s, hP, -, hran⟩ := hf.onAnswer cont a
  rw [hran] at hans
  exact ⟨s, hP, (congrArg Prod.fst hans).symm, (congrArg Prod.snd hans).symm⟩

/-- An answer of the registration is handled. -/
theorem Stage.delivered {k : Nat} {m : AppMessage ι} {a : Answer} {app : App}
    {out : List (Call RootPage.Cont)} (h : Stage rej c₀ i page name c)
    (hg : c₀.issued.length ≤ c.issued.length) (hk : c.answers[k]? = some (m, a))
    (hans : RootPage.onAnswer (c.clients m.client) m.call.cont a = (app, out)) :
    Stage rej c₀ i page name ((c.taken k).post m.client app out ((m.call, a) :: m.cause)) := by
  have hsince : since c₀ ((c.taken k).post m.client app out ((m.call, a) :: m.cause)) =
      since c₀ c ++ out.map (⟨m.client, ·, (m.call, a) :: m.cause⟩) :=
    since_post (c := c.taken k) hg
  cases h with
  | asked a' hf hs hb hc ha hr =>
      obtain ⟨heq, hempty⟩ := Config.taken_of_lone ha hk
      obtain ⟨rfl, rfl⟩ := Prod.mk.inj heq
      obtain ⟨s, hshows, rfl, rfl⟩ := hf.handles hans
      -- the chain ends here, or goes on to the account
      rcases onAnswer_checkUsername hshows hr with ⟨s', hs'⟩ | ⟨s', email, password, hsaved, hs'⟩
      · rw [hs'] at hsince ⊢
        refine .stopped [] ?_ (hsince.trans (by rw [hs]; rfl)) (List.forall_mem_nil _) hb
          ⟨?_, hempty⟩
        · exact (hf.posted (Q := fun _ => True) (r := (s', [])) trivial hf.1).1
        · exact Config.post_calls_of_nil hc
      · rw [hs'] at hsince ⊢
        refine .creating email password _ ?_ (hsince.trans (by rw [hs]; rfl)) hb ?_ hempty
        · exact hf.posted hsaved hf.1
        · exact Config.post_calls_of_nil hc
  | refused email password e cause hf hs hb hr hc ha =>
      obtain ⟨heq, hempty⟩ := Config.taken_of_lone ha hk
      obtain ⟨rfl, rfl⟩ := Prod.mk.inj heq
      obtain ⟨s, -, rfl, rfl⟩ := hf.handles hans
      obtain ⟨s', hs'⟩ := onAnswer_notCreated s e
      rw [hs'] at hsince ⊢
      refine .stopped [creates i page email password cause] ?_ (hsince.trans (by rw [hs]; rfl)) ?_
        hb ⟨?_, hempty⟩
      · exact (hf.posted (Q := fun _ => True) (r := (s', [])) trivial hf.1).1
      · intro m hm
        obtain rfl := List.mem_singleton.mp hm
        exact ⟨email, password, cause, rfl, hr⟩
      · exact Config.post_calls_of_nil hc
  | created email password uid cause hf hs hb hr hc ha =>
      obtain ⟨heq, hempty⟩ := Config.taken_of_lone ha hk
      obtain ⟨rfl, rfl⟩ := Prod.mk.inj heq
      obtain ⟨s, hsaved, rfl, rfl⟩ := hf.handles hans
      rw [onAnswer_created hsaved] at hsince ⊢
      refine .saving email password uid cause _ ?_ (hsince.trans (by rw [hs]; rfl))
        ⟨hb.fresh, hb.accounts⟩ hr ?_ ?_
      · exact hf.posted hsaved rfl
      · intro m hm
        rw [Config.post_calls_of_nil (c := c.taken k) hc] at hm
        exact List.mem_singleton.mp hm
      · intro p hp
        rw [Config.post_answers, hempty] at hp
        cases hp
  | saving email password uid cause cause' hf hs hb hr hc ha =>
      -- no code runs on the answer to the write
      obtain rfl : m = saves i page uid email name cause' := ha (m, a) (List.mem_of_getElem? hk)
      obtain ⟨s, hsaved, rfl, rfl⟩ := hf.handles hans
      have hnone : Login.onAnswer s .saveUserData a = (s, []) := by
        cases a <;> rfl
      rw [hnone] at hsince ⊢
      refine .saving email password uid cause cause' ?_ (hsince.trans (by rw [hs]; rfl))
        ⟨hb.fresh, hb.accounts⟩ hr ?_ ?_
      · exact hf.posted hsaved hf.1
      · intro m hm
        rcases mem_calls_post hm with hm | ⟨call, hcall, -⟩
        · exact hc m hm
        · cases hcall
      · intro p hp
        exact ha p (List.mem_of_mem_eraseIdx hp)
  | asking hf hs hb hc ha =>
      rw [ha] at hk
      cases hk
  | creating email password cause hf hs hb hc ha =>
      rw [ha] at hk
      cases hk
  | stopped ms hf hs hr hb hq =>
      rw [hq.2] at hk
      cases hk

theorem Stage.step {a : AppAction ι} (h : Stage rej c₀ i page name c)
    (hg : c₀.issued.length ≤ c.issued.length) (hC : Watched rej c a)
    (hs : (rootSystem ι).step c a = some c') : Stage rej c₀ i page name c' := by
  refine step_keeps (Q := Stage rej c₀ i page name) hs ?_ ?_ ?_
  · intro j e app out hact he
    subst hact
    obtain rfl : e = .build := hC
    have hbuild : (if (c.clients j).launched then some (build (c.clients j), []) else none) =
        some (app, out) := he
    split at hbuild
    · obtain ⟨rfl, rfl⟩ := Prod.mk.inj (Option.some.inj hbuild)
      exact h.frame j
    · cases hbuild
  · intro k o m b r hact hk hserve
    subst hact
    exact h.served hk (hC m hk) hserve
  · intro k d m r app out _ hk hans
    exact h.delivered hg hk hans

/-! ## What a registration comes to -/

omit [DecidableEq ι] in
theorem asks_stores_nothing {p : Path} {d : Doc} : ¬ (asks i page name).call.req.Stores p d := id

omit [DecidableEq ι] in
theorem creates_stores_nothing {email password : String}
    {cause : List (Call RootPage.Cont × Answer)} {p : Path} {d : Doc} :
    ¬ (creates i page email password cause).call.req.Stores p d := id

/-- A press of 'Create an account' asks about the name in the form. -/
theorem asking_of_press (rej : Rejected ι RootPage.Cont) {c₁ : AppConfig ι} (hq : c₀.Quiet)
    (hs : (rootSystem ι).step c₀ (.event i (.login .pressRegister)) = some c₁) :
    ∃ page name, Stage rej c₀ i page name c₁ := by
  obtain ⟨app, out, he, rfl⟩ := step_event (S := firebase ι RootPage.Cont) hs
  have hpress : RootPage.onEvent (c₀.clients i) (.login .pressRegister) = some (app, out) := he
  obtain ⟨s, ⟨s', eff⟩, -, hpage, hr, heq⟩ := onEvent_login hpress
  obtain ⟨rfl, rfl⟩ := Prod.mk.inj heq
  cases (Login.ran hr).2 with
  | pressRegister hregister =>
      have hform : HasForm (c₀.clients i) ((c₀.clients i).logins.length - 1)
          (authStatus c₀ i) (fun _ => True) := ⟨rfl, s, hpage, trivial⟩
      refine ⟨(c₀.clients i).logins.length - 1, normalise s.usernameText, .asking ?_ ?_ rfl ?_
        hq.2⟩
      · exact hform.posted ⟨hregister, rfl⟩ rfl
      · simp only [since, Config.post_issued, List.drop_left]
        rfl
      · exact Config.post_calls_of_nil hq.1

/-- A press that is left alone comes to nothing, and then no account has been created; or an account
has been added and its owner is signed in, and the profile has been written if that write was
accepted. -/
theorem Registered.outcome {c₁ : AppConfig ι} (h : Registered rej i c₀ c₁ c) :
    (c.backend = c₀.backend ∧ authStatus c i = authStatus c₀ i ∧
      ∃ page name ms, since c₀ c = asks i page name :: ms ∧
        ∀ m ∈ ms, ∃ email password cause, m = creates i page email password cause ∧ rej m = true) ∨
    ∃ page name email password uid cause cause',
      since c₀ c = [asks i page name, creates i page email password cause,
        saves i page uid email name cause'] ∧
      rej (creates i page email password cause) = false ∧
      AccountAdded c₀ c email password uid ∧ authStatus c i = .signedIn ∧
      Effects rej [saves i page uid email name cause'] c₀.backend.db c.backend.db := by
  obtain ⟨page, name, hasking⟩ := asking_of_press rej h.quiet h.press
  have hprogress : Progress rej c₀ c₁ := by
    obtain ⟨app, out, -, rfl⟩ := step_event (S := firebase ι RootPage.Cont) h.press
    exact (Progress.start h.quiet).post
  obtain ⟨hstage, hp⟩ := h.run.preserves
    (P := fun c => Stage rej c₀ i page name c ∧ Progress rej c₀ c)
    ⟨hasking, hprogress⟩ fun c a c' h hC hstep =>
      ⟨h.1.step h.2.grown.length_le hC hstep, h.2.step hC.chosen hstep⟩
  have hq := h.done
  cases hstage with
  | stopped ms hstatus hsince hrej hb =>
      exact Or.inl ⟨hb, hstatus, page, name, ms, hsince, hrej⟩
  | saving email password uid cause cause' hf hsince hb hr =>
      refine Or.inr ⟨page, name, email, password, uid, cause, cause', hsince, hr, hb, hf.1, ?_⟩
      -- of the three calls only the last stores anything
      have hparts : since c₀ c = [asks i page name, creates i page email password cause] ++
          [saves i page uid email name cause'] := hsince
      refine hp.effects hq hparts ?_ ?_
      · intro m hm p d
        rcases List.mem_cons.mp hm with rfl | hm
        · exact asks_stores_nothing
        · obtain rfl := List.mem_singleton.mp hm
          exact creates_stores_nothing
      · intro w hw w' hw' p d d' _ _
        rw [List.mem_singleton.mp hw, List.mem_singleton.mp hw']
  | asking _ _ _ hc | creating _ _ _ _ _ _ hc =>
      rw [hq.1] at hc
      cases hc
  | asked _ _ _ _ _ ha | refused _ _ _ _ _ _ _ _ _ ha | created _ _ _ _ _ _ _ _ _ ha =>
      rw [hq.2] at ha
      cases ha

end Stage

end P0ker.Registration.Failure
