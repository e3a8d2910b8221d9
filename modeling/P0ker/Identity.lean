import P0ker.Composition
import P0ker.Paths

/-!
# For whom the pages work

The pages behind the Login page take it that a user is signed in: they print `mCurrentUser` before
anything else, and spell it into the paths they write to. `behind_gate` says that their lookups do
find a user, `known_users` that nobody is written for but users of the device, and `current_user`
when it is the user who is signed in now.
-/

namespace P0ker.Identity

open Async MyApp Navigation P0ker.Composition
open RootPage (AuthStatus)

variable {ι : Type} [DecidableEq ι]

/-! ## Behind the Login page -/

/-- The home page is shown, or a page other than a Login page has been built. -/
def Behind (app : App) : Prop :=
  app.home ≠ none ∨ ∃ k ∈ kinds app, k ≠ .login

instance (app : App) : Decidable (Behind app) := by
  unfold Behind
  infer_instance

theorem behind_of_state {app : App} {n : Nat} {state : State} (hn : app.states[n]? = some state)
    (hkind : state.kind ≠ .login) : Behind app :=
  Or.inr ⟨state.kind, List.mem_map_of_mem (List.mem_of_getElem? hn), hkind⟩

theorem behind_of_shown {app : App} {state : State} (h : shown app = some state)
    (hkind : state.kind ≠ .login) : Behind app := by
  obtain ⟨n, -, hn⟩ := shown_eq h
  exact behind_of_state hn hkind

theorem Behind.same {app app' : App} (h : Behind app') (hhome : app'.home = app.home)
    (hkinds : kinds app' = kinds app) : Behind app := by
  unfold Behind at h ⊢
  rwa [hhome, hkinds] at h

/-- A new Login page. -/
theorem behind_showLogin {app : App} (h : Behind (showLogin app).1) : Behind app := by
  rcases h with hhome | ⟨k, hk, hne⟩
  · exact absurd rfl hhome
  · have hkinds : kinds (showLogin app).1 = kinds app ++ [.login] := kinds_create _ _ _
    rw [hkinds, List.mem_append, List.mem_singleton] at hk
    exact Or.inr ⟨k, hk.resolve_right hne, hne⟩

theorem root_dispose (app : App) (place : Option Nat) : (dispose app place).root = app.root := by
  cases place <;> rfl

theorem home_dispose (app : App) (place : Option Nat) : (dispose app place).home = app.home := by
  cases place <;> rfl

theorem Behind.of_dispose {app : App} {place : Option Nat} (h : Behind (dispose app place)) :
    Behind app :=
  h.same (home_dispose app place) (kinds_dispose app place)

/-- What the user does on a page. -/
theorem behind_onPage {app app' : App} {e : Pages.Event} {out : List (Call Cont)}
    (he : onPage app e = some (app', out)) (huser : fromUser e = true) :
    app'.root = app.root ∧ app'.home = app.home ∧ kinds app' = kinds app ∧
      (eventKind e ≠ .login → Behind app) := by
  obtain ⟨n, page, ⟨page', out'⟩, -, hn, hraised, heq⟩ := onPage_eq he
  obtain ⟨rfl, rfl⟩ := Prod.mk.inj heq
  obtain ⟨hkind, -⟩ := stays_event hraised huser
  rw [withFresh_kind] at hkind
  refine ⟨rfl, rfl, kinds_ran hn hkind, fun hlogin => behind_of_state hn ?_⟩
  rwa [← withFresh_kind app.fresh page, raised_kind hraised]

/-- **What the screen leads to**: behind the Login page one gets through the root page. -/
theorem behind_onEvent {app app' : App} {e : Event} {out : List (Call Cont)}
    (he : onEvent app e = some (app', out)) : app'.root = app.root ∧
      (Behind app' → Behind app ∨ app.root.authStatus = .signedIn) := by
  cases e with
  | launch =>
      obtain ⟨-, he⟩ := Option.ite_none_left_eq_some.mp he
      obtain ⟨rfl, -⟩ := Prod.mk.inj (Option.some.inj he)
      exact ⟨rfl, fun h => Or.inl ((behind_showLogin h).same rfl rfl)⟩
  | build =>
      obtain ⟨-, he⟩ := Option.ite_none_right_eq_some.mp he
      rw [build] at he
      split at he
      · next hstatus =>
          refine ⟨?_, fun _ => Or.inr hstatus⟩
          split at he <;> obtain ⟨rfl, -⟩ := Prod.mk.inj (Option.some.inj he)
          · exact root_dispose app app.login
          · rfl
      · split at he <;> obtain ⟨rfl, -⟩ := Prod.mk.inj (Option.some.inj he)
        · exact ⟨root_dispose app (tab app), fun h => Or.inl (behind_showLogin h).of_dispose⟩
        · exact ⟨rfl, Or.inl⟩
  | onTap index =>
      rw [onEvent, onTap] at he
      split at he
      · next home page _ hhome _ =>
          have hbehind : Behind app := Or.inl (by rw [hhome]; exact Option.some_ne_none _)
          split at he <;> obtain ⟨rfl, -⟩ := Prod.mk.inj (Option.some.inj he)
          · exact ⟨rfl, fun _ => Or.inl hbehind⟩
          · refine ⟨?_, fun _ => Or.inl hbehind⟩
            cases page <;> exact root_dispose app home.tab
      · cases he
  | page e =>
      obtain ⟨huser, he⟩ := Option.ite_none_right_eq_some.mp he
      split at he
      · obtain ⟨⟨app'', out'⟩, hpage, heq⟩ := Option.map_eq_some_iff.mp he
        obtain ⟨rfl, -⟩ := Prod.mk.inj heq
        obtain ⟨hroot, -, -, hbehind⟩ := behind_onPage hpage huser
        exact ⟨hroot, fun _ => Or.inl (hbehind (by simp [eventKind]))⟩
      · obtain ⟨hroot, hhome, hkinds, -⟩ := behind_onPage he huser
        exact ⟨hroot, fun h => Or.inl (h.same hhome hkinds)⟩
  | add | tapNewGroup | tapNewGame =>
      simp only [onEvent] at he
      split at he
      · next hshown =>
          obtain ⟨-, he⟩ := Option.ite_none_right_eq_some.mp he
          obtain ⟨rfl, -⟩ := Prod.mk.inj (Option.some.inj he)
          exact ⟨rfl, fun _ => Or.inl (behind_of_shown hshown (by simp [State.kind]))⟩
      · cases he
  | pop =>
      obtain ⟨app'', hpop, heq⟩ := Option.map_eq_some_iff.mp he
      obtain ⟨rfl, -⟩ := Prod.mk.inj heq
      unfold pop at hpop
      split at hpop
      · next n routes _ =>
          obtain rfl := Option.some.inj hpop
          refine ⟨rfl, fun h => Or.inl ?_⟩
          have hdispose : Behind (dispose app (some n)) := h.same rfl rfl
          exact hdispose.of_dispose
      · cases hpop

theorem behind_onAnswer {app : App} {cont : Cont} {a : Answer} {r : Draw}
    (h : Behind (onAnswer app cont a r).1) : Behind app :=
  h.same (same_onAnswer app cont a r).home (same_onAnswer app cont a r).kinds

/-- The root page takes a user for signed in when it is told of one. -/
theorem status_onAnswer {app : App} {cont : Cont} {a : Answer} {r : Draw}
    (h : (onAnswer app cont a r).1.root.authStatus = .signedIn) :
    app.root.authStatus = .signedIn ∨ ∃ u, a = .user (some u) ∨ a = .uid u := by
  cases cont with
  | root =>
      cases a with
      | user userId =>
          cases userId with
          | none => cases h
          | some u => exact Or.inr ⟨u, Or.inl rfl⟩
      | documents | snapshot | done | uid | failed => exact Or.inl h
  | state n cont =>
      simp only [onAnswer] at h
      split at h
      · next page _ =>
          split at h
          · next hsigns =>
              cases page with
              | login s =>
                  cases cont with
                  | login cont =>
                      obtain ⟨-, uid, rfl⟩ := Login.onAnswer_onSignIn (of_decide_eq_true hsigns)
                      exact Or.inr ⟨uid, Or.inr rfl⟩
                  | currentUser | newGame | newGroup | search | friends | written => cases hsigns
              | gamePage | newGame | newGroup | search | friends => cases hsigns
          · exact Or.inl h
      · split at h <;> exact Or.inl h
      · exact Or.inl h

/-! ## Who asks -/

section Reach

variable {B : Backend ι → Prop} {C : DeviceConfig ι → DeviceAction ι → Prop} {c : DeviceConfig ι}

theorem kind_of_isLogin {fresh : Bool} {state : State} :
    Pages.isLogin (withFresh fresh (pageOf state)) = true ↔ state.kind = .login := by
  rcases state with p | s
  · cases p <;> simp [withFresh, pageOf, Pages.isLogin, State.kind]
  · simp [withFresh, pageOf, Pages.isLogin, State.kind]

/-- The `State` that a call belongs to asks for the user or signs one in, by its kind. -/
theorem asks_by_kind (h : (devices ι B).Reach C c) {m : Message ι (Call Cont) Answer}
    (hm : m ∈ c.issued) {n : Nat} {cont : Pages.Cont} (hcont : m.call.cont = .state n cont) :
    ∃ state, (c.clients m.client).states[n]? = some state ∧
      (Pages.Submits m.call.req → state.kind = .login) ∧
      (m.call.req = .currentUser → state.kind ≠ .login) := by
  have hplace := placed h m hm n cont hcont
  obtain ⟨c', hc', htraffic, hclients⟩ :=
    mirrored h (fun _ => (.gamePage {}, none)) ⟨fun _ => rfl, fun _ => rfl⟩
  have hstate := List.getElem?_eq_getElem hplace
  obtain ⟨f, hf⟩ := (hclients.built m.client n _ hstate).2
  have hissued : messageOf m ∈ c'.issued := by
    rw [htraffic.issued]
    exact List.mem_map_of_mem hm
  have hclient : (messageOf m).client = (m.client, some n) := by
    rw [messageOf, hcont]
    rfl
  obtain ⟨hsubmits, hasks⟩ := Pages.submitters hc' _ hissued
  rw [hclient, hf] at hsubmits hasks
  refine ⟨_, hstate, fun hs => kind_of_isLogin.mp (hsubmits hs), fun hreq hlogin => ?_⟩
  have hnot := hasks hreq
  rw [kind_of_isLogin.mpr hlogin] at hnot
  cases hnot

/-! ## The gate -/

/-- A user is signed in on every device whose root page says so, or that is behind it; and no lookup
of a page comes home without a user. -/
structure Gated (c : DeviceConfig ι) : Prop where
  status : ∀ i, (c.clients i).root.authStatus = .signedIn → c.backend.session i ≠ none
  behind : ∀ i, Behind (c.clients i) → c.backend.session i ≠ none
  told : ∀ p ∈ c.answers, ∀ u, p.2 = .user (some u) ∨ p.2 = .uid u →
    c.backend.session p.1.client ≠ none
  found : ∀ p ∈ c.answers, p.1.call.cont ≠ .root → p.2 ≠ .user none

theorem Gated.post {i : ι} {app : App} {out : List (Call Cont)} {cause : List (Call Cont × Answer)}
    (h : Gated c) (hstatus : app.root.authStatus = .signedIn → c.backend.session i ≠ none)
    (hbehind : Behind app → c.backend.session i ≠ none) : Gated (c.post i app out cause) where
  status j :=
    Config.client_post (p := fun app : App => app.root.authStatus = .signedIn →
      c.backend.session j ≠ none) (fun hj => hj ▸ hstatus) fun _ => h.status j
  behind j :=
    Config.client_post (p := fun app : App => Behind app → c.backend.session j ≠ none)
      (fun hj => hj ▸ hbehind) fun _ => h.behind j
  told := h.told
  found := h.found

theorem gated (h : (devices ι B).Reach C c) : Gated c := by
  refine h.invariant ?_ ?_
  · rintro _ ⟨b, -, rfl⟩
    refine ⟨?_, ?_, List.forall_mem_nil _, List.forall_mem_nil _⟩
    · intro i hi
      cases hi
    · rintro i (hhome | ⟨k, hk, -⟩)
      · exact absurd rfl hhome
      · cases hk
  · intro c a c' hr hq _ hs
    refine step_keeps (Q := Gated) hs ?_ ?_ ?_
    · intro i e app out _ he
      obtain ⟨hroot, hbehind⟩ := behind_onEvent he
      refine hq.post ?_ fun h => (hbehind h).elim (hq.behind i) (hq.status i)
      rw [hroot]
      exact hq.status i
    · intro k o m b r _ hk hserve
      have hkeeps : ∀ j, c.backend.session j ≠ none → b.session j ≠ none :=
        fun j => Backend.serve_session_ne_none hserve
      refine ⟨fun i hi => hkeeps i (hq.status i hi), fun i hi => hkeeps i (hq.behind i hi), ?_, ?_⟩
      · intro p hp u hu
        rcases List.mem_append.mp hp with hp | hp
        · exact hkeeps _ (hq.told p hp u hu)
        · obtain rfl := List.mem_singleton.mp hp
          rcases hu with rfl | rfl
          · refine hkeeps _ ?_
            rw [← Backend.serve_user hserve]
            exact Option.some_ne_none u
          · exact Backend.serve_uid hserve
      · intro p hp hcont
        rcases List.mem_append.mp hp with hp | hp
        · exact hq.found p hp hcont
        · obtain rfl := List.mem_singleton.mp hp
          rintro rfl
          obtain ⟨n, cont, hplace⟩ : ∃ n cont, m.call.cont = .state n cont := by
            cases hc : m.call.cont with
            | root => exact absurd hc hcont
            | state n cont => exact ⟨n, cont, rfl⟩
          -- the page that asks is not a Login page, so it is behind the gate
          have hreq : m.call.req = .currentUser := Backend.serve_user_req hserve
          have hissued := (inFlightIssued hr).1 m (List.mem_of_getElem? hk)
          obtain ⟨state, hstate, -, hkind⟩ := asks_by_kind hr hissued hplace
          exact hq.behind _ (behind_of_state hstate (hkind hreq)) (Backend.serve_user hserve).symm
    · intro k d m r app out _ hk ha
      obtain ⟨rfl, rfl⟩ := Prod.mk.inj ha
      have hp := List.mem_of_getElem? hk
      have htaken : Gated (c.taken k) :=
        ⟨hq.status, hq.behind, fun p hp => hq.told p (List.mem_of_mem_eraseIdx hp),
          fun p hp => hq.found p (List.mem_of_mem_eraseIdx hp)⟩
      refine htaken.post ?_ fun h => hq.behind _ (behind_onAnswer h)
      intro hsigned
      rcases status_onAnswer hsigned with hstatus | ⟨u, hu⟩
      · exact hq.status _ hstatus
      · exact hq.told _ hp u hu

/-- **The gate.** On every device that shows the home page or has built a page behind the Login page
a user is signed in, and the lookup of such a page, whenever it comes home, has found a user. -/
theorem behind_gate {c : DeviceConfig ι} (h : (devices ι B).Reachable c) (i : ι) :
    (Behind (c.clients i) → c.backend.session i ≠ none) ∧
      ∀ p ∈ c.answers, p.1.client = i → p.1.call.cont ≠ .root → p.2 ≠ .user none :=
  ⟨(gated h).behind i, fun p hp _ => (gated h).found p hp⟩

/-- The GamePage has asked for its user, and been answered. -/
theorem behind_gate_ola : ∃ c : DeviceConfig Unit, anyDevices.run olaDevice
      ([.event () .launch] ++ home ++ [.event () .build, .event () (.onTap 1),
        .serve 0 (.accept "")] : List (DeviceAction Unit)) = some c ∧
    c.answers.map (placeOf ·.1.call.cont) = [some 1] ∧ c.backend.session () ≠ none ∧
      ∀ p ∈ c.answers, p.1.client = () → p.1.call.cont ≠ .root → p.2 ≠ .user none := by
  have hrun : (anyDevices.run olaDevice ([.event () .launch] ++ home ++ [.event () .build,
      .event () (.onTap 1), .serve 0 (.accept "")] : List (DeviceAction Unit))).map
        (fun c => (c.answers.map (placeOf ·.1.call.cont), decide (Behind (c.clients ())))) =
      some ([some 1], true) := by
    decide +kernel
  obtain ⟨c, hc, hseen⟩ := Option.map_eq_some_iff.mp hrun
  obtain ⟨hanswers, hbehind⟩ := Prod.mk.inj hseen
  obtain ⟨hsession, hfound⟩ := behind_gate (Machine.Reach.of_follow ⟨_, trivial, rfl⟩ hc) ()
  exact ⟨c, hc, hanswers, hsession (of_decide_eq_true hbehind), hfound⟩

end Reach

/-! ## For whom a page works -/

/-- The user whose id a `State` has. -/
def userOf : State → Option String
  | .page p => Pages.user p
  | .new s => s.mCurrentUser

/-- The request writes something that belongs to the user `x`. -/
def WritesFor (r : Request) (x : String) : Prop :=
  ∃ rest, Paths.target r = some ("users" :: x :: rest)

theorem WritesFor.writes {r : Request} {x : String} (h : WritesFor r x) : r.Writes := by
  obtain ⟨rest, hrest⟩ := h
  cases r with
  | setData | add => trivial
  | whereEq | get | currentUser | signIn | createUser => cases hrest

/-- What an answer says of the user. -/
def heard : Answer → Option String
  | .user u => u
  | .uid u => some u
  | _ => none

theorem user_withFresh (fresh : Bool) (page : Pages.Page) :
    Pages.user (withFresh fresh page) = Pages.user page := by
  cases page <;> rfl

theorem formSave_uid (s : Login.LoginState) : (Login.formSave s).uid = s.uid := by
  cases hf : s.formType with
  | login => rw [Login.formSave_login hf]
  | register => rw [Login.formSave_register hf]

theorem validateAndSubmit_uid (s : Login.LoginState) :
    (Login.validateAndSubmit s).1.uid = s.uid := by
  have hsaved : (Login.validateAndSave s).1.uid = s.uid := by
    unfold Login.validateAndSave
    split
    · exact formSave_uid s
    · rfl
  unfold Login.validateAndSubmit
  split
  · next hv =>
      rw [hv] at hsaved
      split
      · exact hsaved
      · split <;> exact hsaved
  · next hv =>
      rw [hv] at hsaved
      exact hsaved

theorem login_uid {s s' : Login.LoginState} {e : Login.Event} {out : List (Call Login.Cont)}
    (h : Login.program.onEvent s e = some (s', out)) : s'.uid = s.uid := by
  obtain ⟨eff, he, -⟩ := Registration.program_onEvent h
  cases (Login.ran he).2 with
  | pressLogin => exact validateAndSubmit_uid s
  | pressRegister | editUsername | editEmail | editPassword => rfl
  | moveToRegister | moveToLogin | dispose => rfl

/-- No event changes for whom a page works. -/
theorem user_event {page page' : Pages.Page} {e : Pages.Event} {out : List (Call Pages.Cont)}
    (h : Pages.onEvent page e = some (page', out)) : Pages.user page' = Pages.user page := by
  cases (Pages.raised h).2 with
  | login hs => exact login_uid hs
  | gamePage hs => exact (Pages.gamePage_asks hs).user
  | newGame hs => exact (Pages.newGame_asks hs).user
  | newGroup hs => exact (Pages.newGroup_asks hs).user
  | search hs => exact (Pages.search_asks hs).user
  | friends hs => exact (Pages.friends_asks hs).user

theorem login_heard (s : Login.LoginState) (cont : Login.Cont) (a : Answer) :
    (Login.onAnswer s cont a).1.uid = s.uid ∨ (Login.onAnswer s cont a).1.uid = heard a := by
  unfold Login.onAnswer
  split
  · refine Or.inl ?_
    unfold Login.usernameChecked
    split
    · split
      · exact validateAndSubmit_uid { s with usernameAvailable := true, authHint := "" }
      · rfl
    · rfl
  · exact Or.inr rfl
  · refine Or.inl ?_
    unfold Login.submitFailed
    split <;> rfl
  · exact Or.inr rfl
  · refine Or.inl ?_
    unfold Login.submitFailed
    split <;> rfl
  · exact Or.inl rfl

theorem told_heard {a : Answer} {u u' : Option String} (h : u' = u ∨ a = .user u') :
    u' = u ∨ u' = heard a :=
  h.imp_right fun ha => by rw [ha]; rfl

/-- An answer changes it to whom the answer says. -/
theorem user_answer (page : Pages.Page) (cont : Pages.Cont) (a : Answer) (r : Draw) :
    Pages.user (Pages.onAnswer page cont a r).1 = Pages.user page ∨
      Pages.user (Pages.onAnswer page cont a r).1 = heard a := by
  have hcases := Pages.answered page cont a r
  generalize Pages.onAnswer page cont a r = res at hcases
  obtain ⟨page', out⟩ := res
  cases hcases with
  | login s cont => exact login_heard s cont a
  | gamePage s => exact told_heard (Pages.gamePage_told s .userIdFound a).user
  | newGame => exact told_heard (Pages.newGame_told _ _ a r).user
  | newGroup => exact told_heard (Pages.newGroup_told _ _ a r).user
  | search s cont => exact told_heard (Pages.search_told s cont a).user
  | friends s cont => exact told_heard (Pages.friends_told s cont a).user
  | idle => exact Or.inl rfl

/-- What a page writes on an answer belongs to the user it works for then. -/
theorem writes_answer {page page' : Pages.Page} {cont : Pages.Cont} {a : Answer} {r : Request}
    (h : Pages.AnswerWrites a page cont page' r) {x : String} (hx : WritesFor r x) :
    x = interp (Pages.user page') := by
  obtain ⟨rest, hrest⟩ := hx
  cases h with
  | profile s k =>
      obtain ⟨rfl, -⟩ := List.cons.inj (List.cons.inj (Option.some.inj hrest)).2
      rfl
  | game s call hc =>
      rcases NewGame.mem_saveGame.mp hc with rfl | rfl
      · exact absurd (List.cons.inj (Option.some.inj hrest)).1 (by decide)
      · obtain ⟨rfl, -⟩ := List.cons.inj (List.cons.inj (Option.some.inj hrest)).2
        rfl
  | group s call hc =>
      rcases NewGroup.mem_saved.mp hc with rfl | rfl | rfl
      · exact absurd (List.cons.inj (Option.some.inj hrest)).1 (by decide)
      · obtain ⟨rfl, -⟩ := List.cons.inj (List.cons.inj (Option.some.inj hrest)).2
        rfl
      · obtain ⟨rfl, -⟩ := List.cons.inj (List.cons.inj (Option.some.inj hrest)).2
        rfl
  | friend s profile =>
      obtain ⟨rfl, -⟩ := List.cons.inj (List.cons.inj (Option.some.inj hrest)).2
      rfl

/-- What a page writes at an event belongs to no user. -/
theorem writes_event {page page' : Pages.Page} {e : Pages.Event} {out : List (Call Pages.Cont)}
    (h : Pages.onEvent page e = some (page', out)) : ∀ call ∈ out, ∀ x, ¬ WritesFor call.req x := by
  intro call hc x hx
  obtain ⟨s, -, -, -, rfl⟩ := Pages.event_writes h hc hx.writes
  obtain ⟨rest, hrest⟩ := hx
  exact absurd (List.cons.inj (Option.some.inj hrest)).1 (by decide)

/-! ### The `State`s of a device -/

theorem userOf_initState (now : Now) (state : State) :
    userOf (initState now state).1 = userOf state ∧
      ∀ call ∈ (initState now state).2, ∀ x, ¬ WritesFor call.req x := by
  cases state with
  | page p =>
      simp only [initState]
      split
      · next page' out h =>
          obtain ⟨e, -, he⟩ := Option.bind_eq_some_iff.mp h
          exact ⟨user_event he, writes_event he⟩
      · exact ⟨rfl, List.forall_mem_nil _⟩
  | new s =>
      simp only [initState, New.onEvent]
      split
      · next h =>
          obtain ⟨-, h⟩ := Option.ite_none_left_eq_some.mp h
          obtain ⟨rfl, rfl⟩ := Prod.mk.inj (Option.some.inj h)
          refine ⟨rfl, List.forall_mem_singleton.mpr ?_⟩
          rintro x ⟨rest, hrest⟩
          cases hrest
      · exact ⟨rfl, List.forall_mem_nil _⟩

theorem userOf_new {fresh : Bool} {state : State} (h : state.New fresh) : userOf state = none := by
  cases state with
  | page p =>
      have hnew := h.1
      cases p with
      | search s =>
          have hs : s = { fresh := s.fresh } := hnew
          show s.mCurrentUser = none
          rw [hs]
      | login s | gamePage s | newGame s | newGroup s | friends s =>
          obtain rfl : s = {} := hnew
          rfl
  | new s =>
      obtain rfl : s = {} := h
      rfl

theorem userOf_disposed (state : State) : userOf state.disposed = userOf state := by
  rcases state with p | s
  · cases p <;> rfl
  · rfl

theorem writes_calls {n : Nat} {out : List (Call Pages.Cont)}
    (h : ∀ call ∈ out, ∀ x, ¬ WritesFor call.req x) :
    ∀ call ∈ calls n out, ∀ x, ¬ WritesFor call.req x := by
  intro call hc
  obtain ⟨c, hmem, rfl⟩ := List.mem_map.mp hc
  exact h c hmem

/-- **What an event changes**: a `State` stays what it is and works for whom it did, or for
nobody. -/
structure SameUsers (states states' : List State) (out : List (Call Cont)) : Prop where
  kinds : ∀ n < states.length, (states'.map State.kind)[n]? = (states.map State.kind)[n]?
  users : ∀ (n : Nat) (state' : State) (u : String), states'[n]? = some state' →
    userOf state' = some u → ∃ state, states[n]? = some state ∧ userOf state = some u
  writes : ∀ call ∈ out, ∀ x, ¬ WritesFor call.req x

theorem SameUsers.refl (states : List State) {out : List (Call Cont)}
    (h : ∀ call ∈ out, ∀ x, ¬ WritesFor call.req x) : SameUsers states states out :=
  ⟨fun _ _ => rfl, fun _ state' _ hn hu => ⟨state', hn, hu⟩, h⟩

theorem SameUsers.set {states : List State} {n : Nat} {state state' : State}
    {out : List (Call Cont)} (hn : states[n]? = some state) (hkind : state'.kind = state.kind)
    (huser : userOf state' = userOf state) (hout : ∀ call ∈ out, ∀ x, ¬ WritesFor call.req x) :
    SameUsers states (states.set n state') out where
  kinds m _ := congrArg (·[m]?) (AuthGate.map_set_same State.kind hn hkind)
  users m state'' u hm hu := by
    by_cases hmn : n = m
    · subst hmn
      rw [List.getElem?_set_self (List.getElem?_eq_some_iff.mp hn).1] at hm
      obtain rfl := Option.some.inj hm
      exact ⟨state, hn, huser ▸ hu⟩
    · rw [List.getElem?_set_ne hmn] at hm
      exact ⟨state'', hm, hu⟩
  writes := hout

theorem sameUsers {core core' : Core} {out : List (Call Cont)} (h : Moves core core' out) :
    SameUsers core.states core'.states out := by
  induction h with
  | stays => exact .refl _ (List.forall_mem_nil _)
  | launches =>
      refine .refl _ (List.forall_mem_singleton.mpr ?_)
      rintro x ⟨rest, hrest⟩
      cases hrest
  | @creates _ states _ now state hnew =>
      obtain ⟨huser, hwrites⟩ := userOf_initState now state
      refine ⟨?_, ?_, writes_calls hwrites⟩
      · intro n hn
        have hmap : (states.map State.kind).length = states.length := List.length_map _
        rw [List.map_append, List.getElem?_append_left (hmap ▸ hn)]
      · intro n state' u hn hu
        rw [List.getElem?_append] at hn
        split at hn
        · exact ⟨state', hn, hu⟩
        · obtain rfl := List.mem_singleton.mp (List.mem_of_getElem? hn)
          rw [huser, userOf_new hnew] at hu
          cases hu
  | disposes n state hn _ =>
      exact .set hn (kind_disposed state) (userOf_disposed state) (List.forall_mem_nil _)
  | @raises _ _ fresh n page e r hn huser he _ =>
      obtain ⟨page', out⟩ := r
      refine .set hn ?_ ?_ (writes_calls (writes_event he))
      · rw [(stays_event he huser).1, withFresh_kind]
      · exact (user_event he).trans (user_withFresh fresh page)
  | @trans core₁ core₂ core₃ out₁ out₂ h₁ h₂ ih₁ ih₂ =>
      have hle := (placed_moves h₁).1
      refine ⟨fun n hn => (ih₂.kinds n (lt_of_lt_of_le hn hle)).trans (ih₁.kinds n hn), ?_, ?_⟩
      · intro n state' u hn hu
        obtain ⟨state, hn', hu'⟩ := ih₂.users n state' u hn hu
        exact ih₁.users n state u hn' hu'
      · intro call hc
        exact (List.mem_append.mp hc).elim (ih₁.writes call) (ih₂.writes call)

/-- **What an answer changes**: the `State` it belongs to works for whom the answer says, and writes
for whom it works. -/
theorem users_onAnswer {app : App} {cont : Cont} {a : Answer} {r : Draw} :
    (∀ n state' u, (onAnswer app cont a r).1.states[n]? = some state' → userOf state' = some u →
      (∃ state, app.states[n]? = some state ∧ userOf state = some u) ∨
        heard a = some u ∧ ∃ cont', cont = .state n cont') ∧
      ∀ call ∈ (onAnswer app cont a r).2, ∀ n cont' x, call.cont = .state n cont' →
        WritesFor call.req x → x = "null" ∨
          ∃ state', (onAnswer app cont a r).1.states[n]? = some state' ∧
            userOf state' = some x := by
  have hstays : ∀ n state' u, app.states[n]? = some state' → userOf state' = some u →
      (∃ state, app.states[n]? = some state ∧ userOf state = some u) ∨
        heard a = some u ∧ ∃ cont', cont = .state n cont' :=
    fun n state' u hn hu => Or.inl ⟨state', hn, hu⟩
  cases cont with
  | root =>
      have hstates : (onAnswer app .root a r).1.states = app.states ∧
          (onAnswer app .root a r).2 = [] := by
        cases a <;> exact ⟨rfl, rfl⟩
      rw [hstates.1, hstates.2]
      exact ⟨hstays, List.forall_mem_nil _⟩
  | state n cont =>
      -- the `State` in place `n` has become `after`
      have hset : ∀ {before after : State}, app.states[n]? = some before →
          (userOf after = userOf before ∨ userOf after = heard a) →
          ∀ m state' u, (app.states.set n after)[m]? = some state' → userOf state' = some u →
            (∃ state, app.states[m]? = some state ∧ userOf state = some u) ∨
              heard a = some u ∧ ∃ cont', Cont.state n cont = .state m cont' := by
        intro before after hn hafter m state' u hm hu
        by_cases hmn : n = m
        · subst hmn
          rw [List.getElem?_set_self (List.getElem?_eq_some_iff.mp hn).1] at hm
          obtain rfl := Option.some.inj hm
          rcases hafter with hsame | hheard
          · exact Or.inl ⟨before, hn, hsame ▸ hu⟩
          · exact Or.inr ⟨hheard ▸ hu, cont, rfl⟩
        · rw [List.getElem?_set_ne hmn] at hm
          exact Or.inl ⟨state', hm, hu⟩
      simp only [onAnswer]
      split
      · next page hn =>
          have hstates : ∀ app' : App, app'.states = app.states →
              (ran app' n (Pages.onAnswer (withFresh app.fresh page) cont a r)).1.states =
                app.states.set n (.page (Pages.onAnswer (withFresh app.fresh page) cont a r).1) :=
            fun app' happ => by rw [← happ]; rfl
          rw [hstates _ (by split <;> rfl)]
          refine ⟨hset hn ?_, ?_⟩
          · have hanswer := user_answer (withFresh app.fresh page) cont a r
            rwa [user_withFresh] at hanswer
          · intro call hc m cont' x hcont hx
            obtain ⟨c, hmem, rfl⟩ := List.mem_map.mp hc
            obtain ⟨rfl, -⟩ := Cont.state.inj hcont
            obtain ⟨hwrites, -⟩ := Pages.answer_writes (Prod.eta _).symm hmem hx.writes
            have hwho := writes_answer hwrites hx
            cases hu : Pages.user (Pages.onAnswer (withFresh app.fresh page) cont a r).1 with
            | none => exact Or.inl (by rw [hwho, hu]; rfl)
            | some u =>
                refine Or.inr ⟨_, List.getElem?_set_self (List.getElem?_eq_some_iff.mp hn).1, ?_⟩
                show Pages.user _ = some x
                rw [hwho, hu]
                rfl
      · next s hn =>
          split
          · have hnew : (New.onAnswer s .userIdFound a).2 = [] ∧
                (userOf (.new (New.onAnswer s .userIdFound a).1) = userOf (.new s) ∨
                  userOf (.new (New.onAnswer s .userIdFound a).1) = heard a) := by
              cases a with
              | user u => exact ⟨rfl, Or.inr (Pages.mCurrentUser_userIdFound u _)⟩
              | documents | snapshot | done | uid | failed => exact ⟨rfl, Or.inl rfl⟩
            rw [hnew.1]
            exact ⟨hset hn hnew.2, List.forall_mem_nil _⟩
          · exact ⟨hstays, List.forall_mem_nil _⟩
      · exact ⟨hstays, List.forall_mem_nil _⟩

/-! ## What the backend says of the user -/

section Serve

variable {b b' : Backend ι} {i j : ι} {r : Request} {o : Outcome} {a : Answer}

theorem heard_session {u : String} (h : b.serve i r o = some (b', a)) (hu : heard a = some u) :
    b'.session i = some u := by
  cases Backend.served_of_serve h with
  | rejected | found | got | wrote | added => cases hu
  | user => exact hu
  | signedIn | created =>
      rw [← hu]
      exact Function.update_self _ _ _

theorem serve_session_ne (h : b.serve i r o = some (b', a)) (hj : j ≠ i) :
    b'.session j = b.session j := by
  cases Backend.served_of_serve h with
  | rejected | found | got | wrote | added | user => rfl
  | signedIn | created => exact Function.update_of_ne hj _ _

theorem serve_session (h : b.serve i r o = some (b', a)) (hr : ¬ Pages.Submits r) :
    b'.session = b.session := by
  cases Backend.served_of_serve h with
  | rejected | found | got | wrote | added | user => rfl
  | signedIn | created => exact absurd trivial hr

theorem serve_reject {e : String} (h : b.serve i r (.reject e) = some (b', a)) : b' = b := by
  cases r <;> exact (Prod.mk.inj (Option.some.inj h)).1.symm

end Serve

/-! ## Every run -/

section Reach

variable {B : Backend ι → Prop} {C : DeviceConfig ι → DeviceAction ι → Prop} {c c' : DeviceConfig ι}
  {R R' : ι → Nat → String → Prop}

/-- The `State` in place `n` of device `i` works and writes for `u` only if `R i n u`; and so will
it when the answers on their way have come home. -/
structure WorksFor (R : ι → Nat → String → Prop) (c : DeviceConfig ι) : Prop where
  told : ∀ p ∈ c.answers, ∀ n cont u, p.1.call.cont = .state n cont → heard p.2 = some u →
    R p.1.client n u
  users : ∀ (i : ι) (n : Nat) (state : State) (u : String), (c.clients i).states[n]? = some state →
    userOf state = some u → R i n u
  writes : ∀ m ∈ c.issued, ∀ n cont x, m.call.cont = .state n cont → WritesFor m.call.req x →
    x = "null" ∨ R m.client n x

omit [DecidableEq ι] in
theorem WorksFor.start (b : Backend ι) : WorksFor R (Config.start (fun _ => {}) b []) where
  told := List.forall_mem_nil _
  users _ _ _ _ hn _ := by cases hn
  writes := List.forall_mem_nil _

/-- What `R` says is kept for the `State`s that have been built. -/
def Kept (c : DeviceConfig ι) (R R' : ι → Nat → String → Prop) : Prop :=
  ∀ i n u, n < (c.clients i).states.length → R i n u → R' i n u

theorem WorksFor.mono (hr : (devices ι B).Reach C c) (h : WorksFor R c) (hkept : Kept c R R') :
    WorksFor R' c where
  told p hp n cont u hcont hu :=
    hkept _ _ _ (placed hr p.1 ((inFlightIssued hr).2 p hp) n cont hcont)
      (h.told p hp n cont u hcont hu)
  users i n state u hn hu :=
    hkept _ _ _ (List.getElem?_eq_some_iff.mp hn).1 (h.users i n state u hn hu)
  writes m hm n cont x hcont hx :=
    (h.writes m hm n cont x hcont hx).imp_right (hkept _ _ _ (placed hr m hm n cont hcont))

/-- A device runs a handler. -/
theorem WorksFor.post {i : ι} {app : App} {out : List (Call Cont)}
    {cause : List (Call Cont × Answer)} (h : WorksFor R c)
    (husers : ∀ (n : Nat) (state : State) (u : String), app.states[n]? = some state →
      userOf state = some u → R i n u)
    (hwrites : ∀ call ∈ out, ∀ n cont x, call.cont = .state n cont → WritesFor call.req x →
      x = "null" ∨ R i n x) : WorksFor R (c.post i app out cause) where
  told := h.told
  users j :=
    Config.client_post (p := fun app : App => ∀ (n : Nat) (state : State) (u : String),
      app.states[n]? = some state → userOf state = some u → R j n u) (fun hj => hj ▸ husers)
      fun _ => h.users j
  writes m hm := by
    rcases mem_issued_post hm with hm | ⟨call, hc, rfl⟩
    · exact h.writes m hm
    · exact hwrites call hc

/-- **The step lemma.** A step keeps to `R`, if `R` allows the user who is signed in then. -/
theorem WorksFor.step {a : DeviceAction ι} (hr : (devices ι B).Reach C c) (h : WorksFor R c)
    (hs : (devices ι B).step c a = some c') (hkept : Kept c R R')
    (hsession : ∀ i n u, n < (c'.clients i).states.length → c'.backend.session i = some u →
      R' i n u) : WorksFor R' c' := by
  have hbefore := h.mono hr hkept
  revert hsession
  refine step_keeps (Q := fun c' => (∀ i n u, n < (c'.clients i).states.length →
    c'.backend.session i = some u → R' i n u) → WorksFor R' c') hs ?_ ?_ ?_
  · intro i e app out _ he _
    have hsame := sameUsers (moves_reach hr he)
    refine hbefore.post ?_ fun call hc _ _ x _ hx => absurd hx (hsame.writes call hc x)
    intro n state' u hn hu
    obtain ⟨state, hn', hu'⟩ := hsame.users n state' u hn hu
    exact hbefore.users i n state u hn' hu'
  · intro k o m b r _ hk hserve hsession
    have hissued := (inFlightIssued hr).1 m (List.mem_of_getElem? hk)
    refine ⟨?_, hbefore.users, hbefore.writes⟩
    intro p hp n cont u hcont hu
    rcases List.mem_append.mp hp with hp | hp
    · exact hbefore.told p hp n cont u hcont hu
    · obtain rfl := List.mem_singleton.mp hp
      -- the answer names the user who is signed in when it is given
      exact hsession m.client n u (placed hr m hissued n cont hcont) (heard_session hserve hu)
  · intro k d m r app out _ hk ha _
    obtain ⟨rfl, rfl⟩ := Prod.mk.inj ha
    have htaken : WorksFor R' (c.taken k) :=
      ⟨fun p hp => hbefore.told p (List.mem_of_mem_eraseIdx hp), hbefore.users, hbefore.writes⟩
    obtain ⟨husers, hwrites⟩ := @users_onAnswer (c.clients m.client) m.call.cont r d
    have hafter : ∀ (n : Nat) (state : State) (u : String),
        (onAnswer (c.clients m.client) m.call.cont r d).1.states[n]? = some state →
          userOf state = some u → R' m.client n u := by
      intro n state' u hn hu
      rcases husers n state' u hn hu with ⟨state, hn', hu'⟩ | ⟨hheard, cont, hcont⟩
      · exact hbefore.users m.client n state u hn' hu'
      · exact hbefore.told _ (List.mem_of_getElem? hk) n cont u hcont hheard
    refine htaken.post hafter ?_
    intro call hc n cont x hcont hx
    refine (hwrites call hc n cont x hcont hx).imp_right ?_
    rintro ⟨state', hn, hu⟩
    exact hafter n state' x hn hu

end Reach

/-! ### Users of the device -/

section History

variable {B : Backend ι → Prop} {s₀ c : DeviceConfig ι}

/-- `u` was signed in on device `i`, at a time when the `State` in place `n` had been built. -/
def Since (B : Backend ι → Prop) (s₀ : DeviceConfig ι) (as : List (DeviceAction ι)) (i : ι)
    (n : Nat) (u : String) : Prop :=
  ∃ as₁ c₁, as₁ <+: as ∧ (devices ι B).run s₀ as₁ = some c₁ ∧
    n < (c₁.clients i).states.length ∧ c₁.backend.session i = some u

theorem worksFor_run {as : List (DeviceAction ι)} (h₀ : (devices ι B).init s₀)
    (h : (devices ι B).run s₀ as = some c) : WorksFor (Since B s₀ as) c := by
  refine (Machine.Reach.history (Q := fun as c => (devices ι B).run s₀ as = some c ∧
    WorksFor (Since B s₀ as) c) h₀ h ⟨rfl, ?_⟩ ?_).2
  · obtain ⟨b, -, rfl⟩ := h₀
    exact .start b
  · intro as c a c' hr hq _ hs
    obtain ⟨hrun, hworks⟩ := hq
    have hrun' : (devices ι B).run s₀ (as ++ [a]) = some c' :=
      Machine.follow_concat.mpr ⟨c, hrun, trivial, hs⟩
    refine ⟨hrun', hworks.step hr hs ?_ ?_⟩
    · rintro i n u - ⟨as₁, c₁, hpre, hrest⟩
      exact ⟨as₁, c₁, hpre.trans (List.prefix_append _ _), hrest⟩
    · intro i n u hn hu
      exact ⟨_, c', List.prefix_refl _, hrun', hn, hu⟩

/-- **Whose documents are written.** In every run of the devices, what a page writes under `users`
is written under `null`, or under a user who was signed in on its device after the page had been
built. -/
theorem known_users {as : List (DeviceAction ι)} (h₀ : (devices ι B).init s₀)
    (h : (devices ι B).run s₀ as = some c) {m : Message ι (Call Cont) Answer} (hm : m ∈ c.issued)
    {n : Nat} {cont : Pages.Cont} (hcont : m.call.cont = .state n cont) {x : String}
    (hx : WritesFor m.call.req x) : x = "null" ∨ ∃ as₁ c₁, as₁ <+: as ∧
      (devices ι B).run s₀ as₁ = some c₁ ∧ n < (c₁.clients m.client).states.length ∧
      c₁.backend.session m.client = some x :=
  (worksFor_run h₀ h).writes m hm n cont x hcont hx

/-- From the launch to the group that is stored. -/
def toGroup : List (DeviceAction Unit) :=
  toNewGroup ++ [.event () (.page (.newGroup (.pressCreate 7)))] ++ home

/-- The documents of the group go to `u1`, who is signed in. -/
theorem known_users_ola : ∃ (c : DeviceConfig Unit) (m : Message Unit (Call Cont) Answer),
    anyDevices.run olaDevice toGroup = some c ∧ m ∈ c.issued ∧
    Paths.target m.call.req = some ["users", "u1", "groups", "7"] ∧
      ("u1" = "null" ∨ ∃ as₁ c₁, as₁ <+: toGroup ∧ anyDevices.run olaDevice as₁ = some c₁ ∧
        3 < (c₁.clients m.client).states.length ∧ c₁.backend.session m.client = some "u1") := by
  have hrun : (anyDevices.run olaDevice toGroup).map (fun c => c.issued[8]?.map fun m =>
        (placeOf m.call.cont, Paths.target m.call.req)) =
      some (some (some 3, some ["users", "u1", "groups", "7"])) := by
    decide +kernel
  obtain ⟨c, hc, hseen⟩ := Option.map_eq_some_iff.mp hrun
  obtain ⟨m, hm, hplace⟩ := Option.map_eq_some_iff.mp hseen
  obtain ⟨hcont, htarget⟩ := Prod.mk.inj hplace
  have hmem := List.mem_of_getElem? hm
  cases hstate : m.call.cont with
  | root =>
      rw [hstate] at hcont
      cases hcont
  | state n cont =>
      rw [hstate] at hcont
      obtain rfl := Option.some.inj hcont
      exact ⟨c, m, hc, hmem, htarget, known_users ⟨_, trivial, rfl⟩ hc hmem hstate ⟨_, htarget⟩⟩

end History

/-! ### The user who is signed in now -/

section Current

variable {B : Backend ι → Prop} {c : DeviceConfig ι}

/-- Nobody is signed in on a device that is past its Login page; an attempt may be rejected
there. -/
def Once (c : DeviceConfig ι) : DeviceAction ι → Prop
  | .serve k (.accept _) =>
      ∀ m ∈ c.calls[k]?, Pages.Submits m.call.req → ¬ Behind (c.clients m.client)
  | _ => True

instance : ∀ r : Request, Decidable (Pages.Submits r)
  | .signIn _ _ | .createUser _ _ => .isTrue trivial
  | .whereEq _ _ _ | .get _ | .setData _ _ | .add _ _ | .currentUser => .isFalse id

instance (c : DeviceConfig ι) : ∀ a, Decidable (Once c a)
  | .serve k (.accept _) => inferInstanceAs
      (Decidable (∀ m ∈ c.calls[k]?, Pages.Submits m.call.req → ¬ Behind (c.clients m.client)))
  | .event _ _ | .serve _ (.reject _) | .deliver _ _ => .isTrue trivial

/-- `u` is signed in, unless it is a Login page that is in place `n`. -/
def Current (c : DeviceConfig ι) (i : ι) (n : Nat) (u : String) : Prop :=
  ∀ k, (kinds (c.clients i))[n]? = some k → k ≠ .login → c.backend.session i = some u

theorem session_once {a : DeviceAction ι} {c' : DeviceConfig ι} (hr : (devices ι B).Reach Once c)
    (hc : Once c a) (hs : (devices ι B).step c a = some c') : Kept c (Current c) (Current c') := by
  intro i n u hn hnow k hk hne
  revert hk
  refine step_keeps (Q := fun c' : DeviceConfig ι => (kinds (c'.clients i))[n]? = some k →
    c'.backend.session i = some u) hs ?_ ?_ ?_
  · intro j e app out _ he
    have hkinds := (sameUsers (moves_reach hr he)).kinds
    refine Config.client_post (p := fun app : App => (kinds app)[n]? = some k →
      c.backend.session i = some u) ?_ fun _ hk => hnow k hk hne
    rintro rfl hk
    exact hnow k ((hkinds n hn).symm.trans hk) hne
  · rintro j o m b r rfl hj hserve hk
    have hsession := hnow k hk hne
    cases o with
    | reject e =>
        have hb : b = c.backend := serve_reject (i := m.client) (r := m.call.req) hserve
        rw [Config.served_backend, hb]
        exact hsession
    | accept x =>
        by_cases hsubmits : Pages.Submits m.call.req
        · refine (serve_session_ne hserve fun hi => ?_).trans hsession
          subst hi
          exact hc m hj hsubmits (Or.inr ⟨k, List.mem_of_getElem? hk, hne⟩)
        · exact (congrFun (serve_session hserve hsubmits) i).trans hsession
  · intro j d m r app out _ _ ha
    obtain ⟨rfl, rfl⟩ := Prod.mk.inj ha
    refine Config.client_post (p := fun app : App => (kinds app)[n]? = some k →
      c.backend.session i = some u) ?_ fun _ hk => hnow k hk hne
    rintro rfl hk
    have hkinds := (same_onAnswer (c.clients m.client) m.call.cont r d).kinds
    exact hnow k ((congrArg (·[n]?) hkinds).symm.trans hk) hne

theorem worksFor_current (h : (devices ι B).Reach Once c) : WorksFor (Current c) c := by
  refine h.invariant (P := fun c => WorksFor (Current c) c) ?_ ?_
  · rintro _ ⟨b, -, rfl⟩
    exact .start b
  · intro c a c' hr hq hc hs
    exact hq.step hr hs (session_once hr hc hs) fun _ _ _ _ hu _ _ _ => hu

/-- **One user.** If nobody is signed in on a device that is past its Login page, then every page
behind it works and writes for the user who is signed in on the device, or spells `null`. -/
theorem current_user (h : (devices ι B).Reach Once c) {i : ι} {n : Nat} {state : State}
    (hn : (c.clients i).states[n]? = some state) (hkind : state.kind ≠ .login) :
    (userOf state = none ∨ userOf state = c.backend.session i) ∧
      ∀ m ∈ c.issued, m.client = i → ∀ cont, m.call.cont = .state n cont →
        ∀ x, WritesFor m.call.req x → x = "null" ∨ c.backend.session i = some x := by
  have hat : (kinds (c.clients i))[n]? = some state.kind := by
    rw [kinds, List.getElem?_map, hn]
    rfl
  refine ⟨?_, ?_⟩
  · cases hu : userOf state with
    | none => exact Or.inl rfl
    | some u => exact Or.inr ((worksFor_current h).users i n state u hn hu _ hat hkind).symm
  · rintro m hm rfl cont hcont x hx
    exact ((worksFor_current h).writes m hm n cont x hcont hx).imp_right fun hnow =>
      hnow _ hat hkind

/-- 'Login' is pressed while the app looks up its user; the home page is there when it is
rejected. -/
def rejectedPast : List (DeviceAction Unit) :=
  [.event () .launch, .event () (.page (.login (.editEmail "o@p"))),
    .event () (.page (.login (.editPassword "x"))),
      .event () (.page (.login .pressLogin))] ++ home ++
    [.event () .build, .serve 0 (.reject "no account"), .deliver 0 0,
      .event () (.onTap 1)] ++ home ++
    [.event () .add] ++ home ++ [.event () .tapNewGroup] ++ home ++
    [.event () (.page (.newGroup (.pressCreate 7)))] ++ home

/-- The NewGroup page works for `u1`. -/
theorem current_user_ola : ∃ (c : DeviceConfig Unit) (state : State),
    anyDevices.follow Once olaDevice rejectedPast = some c ∧
    (c.clients ()).states[3]? = some state ∧ userOf state = some "u1" ∧
    (userOf state = none ∨ userOf state = c.backend.session ()) ∧
      ∀ m ∈ c.issued, m.client = () → ∀ cont, m.call.cont = .state 3 cont →
        ∀ x, WritesFor m.call.req x → x = "null" ∨ c.backend.session () = some x := by
  have hrun : (anyDevices.follow Once olaDevice rejectedPast).map (fun c =>
        (c.clients ()).states[3]?.map fun state => (state.kind, userOf state)) =
      some (some (.newGroup, some "u1")) := by
    decide +kernel
  obtain ⟨c, hc, hseen⟩ := Option.map_eq_some_iff.mp hrun
  obtain ⟨state, hn, hstate⟩ := Option.map_eq_some_iff.mp hseen
  obtain ⟨hkind, huser⟩ := Prod.mk.inj hstate
  have hne : state.kind ≠ .login := by
    rw [hkind]
    decide
  exact ⟨c, state, hc, hn, huser,
    current_user (Machine.Reach.of_follow ⟨_, trivial, rfl⟩ hc) hn hne⟩

end Current

end P0ker.Identity
