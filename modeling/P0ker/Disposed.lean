import P0ker.Pages.Together

/-!
# Do late answers act on removed pages?

Popping a route, switching a tab or leaving the Login form disposes the page; the answers to its
calls come home all the same, and no handler asks whether the page is still there. A handler that
calls `setState` then acts on a disposed `State`. So does the back button, when a search page has
gone while its search field was open: the entry of the field is still in the history of the route,
and its `onRemove` is the `setState` of the page.

`none_late` says when that does not happen: when a page is removed only while nothing of it is
outstanding whose handler calls `setState`, and its search field is closed.
-/

namespace P0ker.Disposed

open Async Pages

/-! ## What the handlers do to the `State` -/

inductive Kind where
  | login
  | gamePage
  | newGame
  | newGroup
  | search
  | friends
  deriving DecidableEq

def kind : Page → Kind
  | .login _ => .login
  | .gamePage _ => .gamePage
  | .newGame _ => .newGame
  | .newGroup _ => .newGroup
  | .search _ => .search
  | .friends _ => .friends

/-- On this answer the code of a Login form, a GamePage, a NewGame or a search page calls
`setState`. -/
def callsSetState : Kind → Cont → Answer → Bool
  | .login, .login .checkUsername, .documents _ => true
  -- `setState(() {})` after a success, the hint of the `catch` after a failure
  | .login, .login .signIn, .uid _ => true
  | .login, .login .signIn, .failed _ => true
  | .login, .login .createUser, .uid _ => true
  | .login, .login .createUser, .failed _ => true
  -- a null user throws in the `print` before it
  | .gamePage, .currentUser, .user (some _) => true
  | .newGame, .currentUser, .user (some _) => true
  | .newGame, .newGame .checkGameId, .documents _ => true
  | .search, .search .fetch, .snapshot (some _) => true
  | _, _, _ => false

/-- The code reads `formKey.currentState`: a free name submits the form. -/
def readsForm : Kind → Cont → Answer → Bool
  | .login, .login .checkUsername, .documents [] => true
  | _, _, _ => false

/-- What the code does on this answer needs the page to be there. -/
def Acts (page : Page) (cont : Cont) (a : Answer) : Prop :=
  callsSetState (kind page) cont a = true ∨ readsForm (kind page) cont a = true

instance (page : Page) (cont : Cont) (a : Answer) : Decidable (Acts page cont a) := by
  unfold Acts
  infer_instance

/-- The code acts on some answer. -/
def mayAct : Kind → Cont → Bool
  | .login, .login .checkUsername => true
  | .login, .login .signIn => true
  | .login, .login .createUser => true
  | .gamePage, .currentUser => true
  | .newGame, .currentUser => true
  | .newGame, .newGame .checkGameId => true
  | .search, .search .fetch => true
  | _, _ => false

/-- The entries of a page in the history of the route, each of which calls its `setState` when it is
removed. -/
def historyEntries : Page → Nat
  | .search s => s.historyEntries
  | _ => 0

/-- The event takes the page off the screen. -/
def disposes : Event → Bool
  | .login .dispose => true
  | .gamePage .dispose => true
  | .newGame .dispose => true
  | .newGroup .dispose => true
  | .search .dispose => true
  | .friends .dispose => true
  | _ => false

theorem Acts.of_kind {page page' : Page} {cont : Cont} {a : Answer} (h : kind page' = kind page)
    (ha : Acts page' cont a) : Acts page cont a := by
  rwa [Acts, h] at ha

theorem Acts.may {page : Page} {cont : Cont} {a : Answer} (h : Acts page cont a) :
    mayAct (kind page) cont = true := by
  unfold Acts at h
  generalize kind page = k at h ⊢
  rcases h with h | h
  · unfold callsSetState at h
    split at h <;> first | rfl | cases h
  · unfold readsForm at h
    split at h
    · rfl
    · cases h

/-- `mayAct` says no more than that: there is an answer the code acts on. -/
theorem exists_acts {page : Page} {cont : Cont} (h : mayAct (kind page) cont = true) :
    ∃ a, Acts page cont a := by
  unfold Acts
  generalize kind page = k at h
  unfold mayAct at h
  split at h
  · exact ⟨.documents [], Or.inl rfl⟩
  · exact ⟨.uid "", Or.inl rfl⟩
  · exact ⟨.uid "", Or.inl rfl⟩
  · exact ⟨.user (some ""), Or.inl rfl⟩
  · exact ⟨.user (some ""), Or.inl rfl⟩
  · exact ⟨.documents [], Or.inl rfl⟩
  · exact ⟨.snapshot (some []), Or.inl rfl⟩
  · cases h

/-- No code runs on the answer to a write. -/
theorem mayAct_written (k : Kind) (page : Page) : mayAct k (.written page) = false := by
  cases k <;> rfl

/-! ## Which handlers dispose a page -/

/-- An event that disposes the page issues nothing; any other leaves the page where it is. -/
def Removes {κ : Type} (d : Bool) (out : List (Call κ)) (before after : Bool) : Prop :=
  (d = true ∧ out = [] ∧ after = false) ∨ (d = false ∧ after = before)

theorem Removes.lift {σ κ : Type} {page : σ → Page} {name : Page → κ → Cont} {s : σ} {d : Bool}
    {out : List (Call κ)} {before after : Bool} (h : Removes d out before after) :
    Removes d (lift page name (s, out)).2 before after := by
  rcases h with ⟨hd, rfl, hgone⟩ | hstays
  · exact Or.inl ⟨hd, rfl, hgone⟩
  · exact Or.inr hstays

theorem login_event {s s' : Login.LoginState} {e : Login.Event} {out : List (Call Login.Cont)}
    (h : Login.program.onEvent s e = some (s', out)) :
    Removes (disposes (.login e)) out s.mounted s'.mounted := by
  obtain ⟨eff, he, rfl⟩ := Registration.program_onEvent h
  cases (Login.ran he).2 with
  | dispose => exact Or.inl ⟨rfl, rfl, rfl⟩
  | pressLogin => exact Or.inr ⟨rfl, Login.validateAndSubmit_mounted s⟩
  | editUsername | editEmail | editPassword | pressRegister | moveToRegister | moveToLogin =>
      exact Or.inr ⟨rfl, rfl⟩

theorem newGame_event {s s' : NewGame.NewGameState} {e : NewGame.Event}
    {out : List (Call NewGame.Cont)} (h : NewGame.onEvent s e = some (s', out)) :
    Removes (disposes (.newGame e)) out s.mounted s'.mounted := by
  cases e <;> simp only [NewGame.onEvent] at h <;> split at h
  case dispose.isTrue =>
    obtain ⟨rfl, rfl⟩ := Prod.mk.inj (Option.some.inj h)
    exact Or.inl ⟨rfl, rfl, rfl⟩
  case initState.isFalse | pressStart.isTrue =>
    obtain ⟨rfl, -⟩ := Prod.mk.inj (Option.some.inj h)
    exact Or.inr ⟨rfl, rfl⟩
  case editName.isTrue | editAdress.isTrue | selectDate.isTrue | selectTime.isTrue |
      moveSlider.isTrue | editSBlind.isTrue | editBBlind.isTrue | editInfo.isTrue =>
    obtain ⟨t, ht, heq⟩ := Option.map_eq_some_iff.mp h
    obtain ⟨rfl, -⟩ := Prod.mk.inj heq
    exact Or.inr ⟨rfl, NewGame.formEvent_mounted ht⟩
  all_goals cases h

theorem newGroup_event {s s' : NewGroup.NewGroupState} {e : NewGroup.Event}
    {out : List (Call NewGroup.Cont)} (h : NewGroup.onEvent s e = some (s', out)) :
    Removes (disposes (.newGroup e)) out s.mounted s'.mounted := by
  cases e <;> simp only [NewGroup.onEvent, NewGroup.handle] at h <;> split at h
  case dispose.isTrue =>
    obtain ⟨rfl, rfl⟩ := Prod.mk.inj (Option.some.inj h)
    exact Or.inl ⟨rfl, rfl, rfl⟩
  case initState.isFalse | editName.isTrue | editInfo.isTrue | tapPublic.isTrue |
      tapPrivate.isTrue | pressCreate.isTrue =>
    obtain ⟨rfl, -⟩ := Prod.mk.inj (Option.some.inj h)
    exact Or.inr ⟨rfl, rfl⟩
  all_goals cases h

theorem search_event {s s' : UserSearch.DisplaySearchState} {e : UserSearch.Event}
    {out : List (Call UserSearch.Cont)} (h : UserSearch.onEvent s e = some (s', out)) :
    Removes (disposes (.search e)) out s.mounted s'.mounted := by
  cases UserSearch.ran h with
  | dispose => exact Or.inl ⟨rfl, rfl, rfl⟩
  | build =>
      obtain ⟨stream, snapshot, heq⟩ := UserSearch.build_eq s
      rw [heq]
      exact Or.inr ⟨rfl, rfl⟩
  | initState | beginSearch | back | onSubmitted | snapshot | tapNull | tapAdd =>
      exact Or.inr ⟨rfl, rfl⟩

theorem friends_event {s s' : Friends.HomeeState} {e : Friends.Event}
    {out : List (Call Friends.Cont)} (h : Friends.onEvent s e = some (s', out)) :
    Removes (disposes (.friends e)) out s.mounted s'.mounted := by
  cases e <;> simp only [Friends.onEvent] at h <;> split at h
  case dispose.isTrue =>
    obtain ⟨rfl, rfl⟩ := Prod.mk.inj (Option.some.inj h)
    exact Or.inl ⟨rfl, rfl, rfl⟩
  case initState.isFalse | tap.isTrue | pressNext.isTrue =>
    obtain ⟨rfl, -⟩ := Prod.mk.inj (Option.some.inj h)
    exact Or.inr ⟨rfl, rfl⟩
  all_goals cases h

theorem gamePage_event {s s' : GamePage.GamePageState} {e : GamePage.Event}
    {out : List (Call GamePage.Cont)} (h : GamePage.onEvent s e = some (s', out)) :
    Removes (disposes (.gamePage e)) out s.mounted s'.mounted := by
  rcases GamePage.onEvent_cases h with ⟨rfl, -, rfl, rfl⟩ | ⟨rfl, rfl, rfl⟩
  · exact Or.inr ⟨rfl, rfl⟩
  · exact Or.inl ⟨rfl, rfl, rfl⟩

theorem event_mounted {page page' : Page} {e : Event} {out : List (Call Cont)}
    (h : onEvent page e = some (page', out)) :
    kind page' = kind page ∧ Removes (disposes e) out page.mounted page'.mounted := by
  cases (raised h).2 with
  | login hs => exact ⟨rfl, (login_event hs).lift⟩
  | gamePage hs => exact ⟨rfl, (gamePage_event hs).lift⟩
  | newGame hs => exact ⟨rfl, (newGame_event hs).lift⟩
  | newGroup hs => exact ⟨rfl, (newGroup_event hs).lift⟩
  | search hs => exact ⟨rfl, (search_event hs).lift⟩
  | friends hs => exact ⟨rfl, (friends_event hs).lift⟩

/-- A page leaves its entries behind. -/
theorem historyEntries_disposes {page page' : Page} {e : Event} {out : List (Call Cont)}
    (h : onEvent page e = some (page', out)) (hd : disposes e = true) :
    historyEntries page' = historyEntries page := by
  cases (raised h).2 with
  | login | gamePage | newGame | newGroup | friends => rfl
  | search hs =>
      cases UserSearch.ran hs with
      | dispose => rfl
      | initState | beginSearch | back | onSubmitted | build | snapshot | tapNull | tapAdd =>
          cases hd

/-- On a page that is gone only the back button does anything. -/
theorem raised_gone {page page' : Page} {e : Event} {out : List (Call Cont)}
    (h : onEvent page e = some (page', out)) (hm : page.mounted = false) :
    e = .search .back ∧ 0 < historyEntries page := by
  obtain ⟨hmounted | rfl, hraised⟩ := raised h
  · rw [hm] at hmounted
    cases hmounted
  · cases hraised with
    | search hs =>
        cases UserSearch.ran hs with
        | back hentry => exact ⟨rfl, hentry⟩

theorem login_answer {s : Login.LoginState} (cont : Login.Cont) (a : Answer)
    (hm : s.mounted = false) :
    ∀ call ∈ Login.calls (Login.onAnswer s cont a).2, call.cont = .saveUserData := by
  intro call hc
  cases cont with
  | checkUsername =>
      rcases Registration.onAnswer_query_calls s a with h | ⟨-, hm', -⟩ | ⟨-, hm', -⟩
      · rw [h] at hc
        cases hc
      · rw [hm] at hm'
        cases hm'
      · rw [hm] at hm'
        cases hm'
  | signIn =>
      rw [Registration.onAnswer_signIn_calls] at hc
      cases hc
  | createUser =>
      rcases Registration.onAnswer_createUser_calls s a with ⟨k, -, h⟩ | ⟨-, h⟩ <;> rw [h] at hc
      · rw [List.mem_singleton.mp hc]
        rfl
      · cases hc
  | saveUserData =>
      rw [Registration.onAnswer_save] at hc
      cases hc

theorem friends_answer (s : Friends.HomeeState) (cont : Friends.Cont) (a : Answer) :
    (Friends.onAnswer s cont a).1.mounted = s.mounted := by
  unfold Friends.onAnswer
  split
  · rfl
  · unfold Friends.userGot
    split
    · split <;> rfl
    · rfl
  · unfold Friends.groupStatusGot
    split
    · split <;> rfl
    · rfl
  · rfl

/-- An answer leaves the page as it is there; and one that is gone issues nothing but a write. -/
theorem answer_mounted {page page' : Page} {cont : Cont} {a : Answer} {r : Draw}
    {out : List (Call Cont)} (h : onAnswer page cont a r = (page', out)) :
    kind page' = kind page ∧ page'.mounted = page.mounted ∧
      (page.mounted = false → ∀ call ∈ out, ∃ p, call.cont = .written p) := by
  have hcases := answered page cont a r
  rw [h] at hcases
  cases hcases with
  | idle => exact ⟨rfl, rfl, fun _ => List.forall_mem_nil _⟩
  | login s cont =>
      refine ⟨rfl, Login.onAnswer_mounted s cont a, ?_⟩
      intro hm call hc
      obtain ⟨c, hmem, rfl⟩ := mem_lift.mp hc
      rw [login_answer cont a hm c hmem]
      exact ⟨_, rfl⟩
  | gamePage s =>
      rcases GamePage.onAnswer_cases s .userIdFound a with h | ⟨u, -, h⟩ <;> rw [h] <;>
        exact ⟨rfl, rfl, fun _ => List.forall_mem_nil _⟩
  | @newGame s cont _ hcont =>
      rcases NewGame.onAnswer_cases s cont a r with h | ⟨u, -, -, h⟩ | ⟨-, hm, -, h⟩ |
        ⟨-, hm, -, h⟩ <;> rw [h]
      · exact ⟨rfl, rfl, fun _ => List.forall_mem_nil _⟩
      · exact ⟨rfl, rfl, fun _ => List.forall_mem_nil _⟩
      · exact ⟨rfl, rfl, fun hgone => absurd hm (by simpa [Page.mounted] using hgone)⟩
      · exact ⟨rfl, rfl, fun hgone => absurd hm (by simpa [Page.mounted] using hgone)⟩
  | @newGroup s cont _ hcont =>
      rcases NewGroup.onAnswer_cases s cont a r with h | ⟨u, -, -, h⟩ | ⟨-, hm, -, h⟩ |
        ⟨-, hm, -, h⟩ <;> rw [h]
      · exact ⟨rfl, rfl, fun _ => List.forall_mem_nil _⟩
      · exact ⟨rfl, rfl, fun _ => List.forall_mem_nil _⟩
      · exact ⟨rfl, rfl, fun hgone => absurd hm (by simpa [Page.mounted] using hgone)⟩
      · exact ⟨rfl, rfl, fun hgone => absurd hm (by simpa [Page.mounted] using hgone)⟩
  | search s cont =>
      rcases UserSearch.onAnswer_cases s cont a with h | ⟨u, -, -, h⟩ | ⟨profile, -, -, hm, h⟩ <;>
        rw [h]
      · exact ⟨rfl, rfl, fun _ => List.forall_mem_nil _⟩
      · exact ⟨rfl, rfl, fun _ => List.forall_mem_nil _⟩
      · exact ⟨rfl, rfl, fun hgone => absurd hm (by simpa [Page.mounted] using hgone)⟩
  | friends s cont =>
      refine ⟨rfl, friends_answer s cont a, ?_⟩
      intro _ call hc
      obtain ⟨c, hmem, rfl⟩ := mem_lift.mp hc
      rw [(Friends.onAnswer_cases s cont a).1] at hmem
      cases hmem

theorem historyEntries_answer (page : Page) (cont : Cont) (a : Answer) (r : Draw) :
    historyEntries (onAnswer page cont a r).1 = historyEntries page := by
  have hcases := answered page cont a r
  revert hcases
  generalize onAnswer page cont a r = res
  obtain ⟨page', out⟩ := res
  intro hcases
  cases hcases with
  | login | gamePage | newGame | newGroup | friends | idle => rfl
  | search s cont =>
      obtain ⟨-, -, -, -, hentries, -⟩ := UserSearch.onAnswer_keeps s cont a
      exact hentries

/-! ## Removed pages are settled -/

variable {ι : Type} [DecidableEq ι] {c c' : PageConfig ι}

/-- No call of the page is outstanding whose code may act, no answer on which it does, and no entry
of it is in the history of the route. -/
def Settled (i : ι) (c : PageConfig ι) : Prop :=
  (∀ m ∈ c.calls, m.client = i → mayAct (kind (c.clients i)) m.call.cont = false) ∧
    (∀ p ∈ c.answers, p.1.client = i → ¬ Acts (c.clients i) p.1.call.cont p.2) ∧
    historyEntries (c.clients i) = 0

/-- A page is removed only when it is settled. -/
def RemovedSettled (c : PageConfig ι) : PageAction ι → Prop
  | .event i e => disposes e = true → Settled i c
  | _ => True

instance (i : ι) (c : PageConfig ι) : Decidable (Settled i c) := by
  unfold Settled
  infer_instance

instance (c : PageConfig ι) : ∀ a : PageAction ι, Decidable (RemovedSettled c a)
  | .event _ _ => by unfold RemovedSettled; infer_instance
  | .serve _ _ | .deliver _ _ => .isTrue trivial

def RemovedAreSettled (c : PageConfig ι) : Prop :=
  ∀ i, (c.clients i).mounted = false → Settled i c

theorem RemovedAreSettled.post {i : ι} {page : Page} {out : List (Call Cont)}
    {cause : List (Call Cont × Answer)} (h : RemovedAreSettled c)
    (hkind : kind page = kind (c.clients i))
    (hgone : page.mounted = false →
      Settled i c ∧ historyEntries page = historyEntries (c.clients i) ∧
        ∀ call ∈ out, ∃ p, call.cont = .written p) :
    RemovedAreSettled (c.post i page out cause) := by
  intro j hj
  by_cases hji : j = i
  · subst hji
    rw [Config.post_clients_self] at hj
    obtain ⟨⟨hcalls, hanswers, hentries⟩, hsame, hout⟩ := hgone hj
    rw [Settled, Config.post_clients_self, hkind]
    refine ⟨?_, ?_, hsame.trans hentries⟩
    · intro m hm hclient
      rcases mem_calls_post hm with hm | ⟨call, hc, rfl⟩
      · exact hcalls m hm hclient
      · -- a page that is gone issues writes only, and no code acts on their answers
        obtain ⟨p, hp⟩ := hout call hc
        rw [hp]
        exact mayAct_written _ _
    · exact fun p hp hclient hacts => hanswers p hp hclient (hacts.of_kind hkind)
  · rw [Config.post_clients_ne _ _ _ _ _ hji] at hj
    obtain ⟨hcalls, hanswers, hentries⟩ := h j hj
    rw [Settled, Config.post_clients_ne _ _ _ _ _ hji]
    refine ⟨?_, hanswers, hentries⟩
    intro m hm hclient
    rcases mem_calls_post hm with hm | ⟨call, hc, rfl⟩
    · exact hcalls m hm hclient
    · exact absurd hclient.symm hji

theorem removedAreSettled (h : (anywhere ι).Reach RemovedSettled c) : RemovedAreSettled c := by
  refine h.invariant ?_ ?_
  · rintro _ ⟨p, b, hp, -, rfl⟩ i hm
    -- a new page is mounted
    exact absurd ((hp i).mounted.symm.trans hm) (by decide)
  · intro c a c' _ hq hC hs
    refine step_keeps (Q := RemovedAreSettled) hs ?_ ?_ ?_
    · intro i e page out hact he
      subst hact
      obtain ⟨hkind, ⟨hd, rfl, -⟩ | ⟨-, hm⟩⟩ := event_mounted he
      · exact hq.post hkind fun _ => ⟨hC hd, historyEntries_disposes he hd, List.forall_mem_nil _⟩
      · refine hq.post hkind fun hgone => ?_
        -- the page was gone before, and settled, so the back button has nothing to remove
        have hbefore := hm.symm.trans hgone
        have hentry := (raised_gone he hbefore).2
        rw [(hq i hbefore).2.2] at hentry
        exact absurd hentry (lt_irrefl 0)
    · intro k o m b r _ hk _ i hi
      obtain ⟨hcalls, hanswers, hentries⟩ := hq i hi
      refine ⟨fun m' hm' => hcalls m' (List.mem_of_mem_eraseIdx hm'), ?_, hentries⟩
      intro p hp hclient hacts
      rcases mem_answers_served hp with hp | rfl
      · exact hanswers p hp hclient hacts
      · -- such a call was not outstanding
        have hnot := hcalls m (List.mem_of_getElem? hk) hclient
        rw [show mayAct (kind (c.clients i)) m.call.cont = true from hacts.may] at hnot
        cases hnot
    · intro k d m r page out _ hk ha
      obtain ⟨hkind, hmounted, hout⟩ := answer_mounted ha
      have hentries : historyEntries page = historyEntries (c.clients m.client) := by
        have hsame := historyEntries_answer (c.clients m.client) m.call.cont r d
        rwa [show onAnswer (c.clients m.client) m.call.cont r d = (page, out) from ha] at hsame
      have htaken : RemovedAreSettled (c.taken k) := by
        intro i hi
        obtain ⟨hcalls, hanswers, hentries⟩ := hq i hi
        exact ⟨hcalls, fun p hp => hanswers p (List.mem_of_mem_eraseIdx hp), hentries⟩
      refine htaken.post hkind fun hgone => ?_
      rw [hmounted] at hgone
      exact ⟨htaken _ hgone, hentries, hout hgone⟩

/-! ## Late answers -/

/-- The action, if it is taken now, acts on a page that has been removed: it handles an answer on
which the code of the page acts, or removes an entry of the page from the history of the route. -/
def Late (c : PageConfig ι) : PageAction ι → Prop
  | .deliver k _ => ∃ p ∈ c.answers[k]?, (c.clients p.1.client).mounted = false ∧
      Acts (c.clients p.1.client) p.1.call.cont p.2
  | .event i e => e = .search .back ∧ (c.clients i).mounted = false ∧
      0 < historyEntries (c.clients i)
  | .serve _ _ => False

instance (c : PageConfig ι) : ∀ a : PageAction ι, Decidable (Late c a)
  | .deliver _ _ | .event _ _ => by unfold Late; infer_instance
  | .serve _ _ => .isFalse id

/-- An answer of page `i` is outstanding on which its code acts, or a call the backend can answer so
that it does; or an entry of the page is in the history of the route. -/
def Pending (i : ι) (c : PageConfig ι) : Prop :=
  (∃ p ∈ c.answers, p.1.client = i ∧ Acts (c.clients i) p.1.call.cont p.2) ∨
    (∃ m ∈ c.calls, m.client = i ∧ ∃ o b a, c.backend.serve i m.call.req o = some (b, a) ∧
      Acts (c.clients i) m.call.cont a) ∨
    0 < historyEntries (c.clients i)

/-- A page that is removed while something is pending is acted on late, in some run. -/
theorem late_of_pending {i : ι} (h : Pending i c) (hm : (c.clients i).mounted = false) :
    ∃ c', (anywhere ι).Steps (fun _ _ => True) c c' ∧ ∃ a, Late c' a := by
  rcases h with ⟨p, hp, rfl, hacts⟩ | ⟨m, hmem, rfl, o, b, a, hserve, hacts⟩ | hentry
  · obtain ⟨k, hk⟩ := List.mem_iff_getElem?.mp hp
    exact ⟨c, Relation.ReflTransGen.refl, .deliver k 0, p, hk, hm, hacts⟩
  · obtain ⟨n, hn⟩ := List.mem_iff_getElem?.mp hmem
    have hstep : (anywhere ι).step c (.serve n o) = some (c.served n m b a) := by
      show Async.step program (firebase ι Cont) c (.serve n o) = _
      simp only [Async.step, hn, firebase_serve, hserve]
    refine ⟨c.served n m b a, Machine.Steps.single trivial hstep,
      .deliver c.answers.length 0, (m, a), ?_, hm, hacts⟩
    rw [Option.mem_def, Config.served_answers, List.getElem?_append_right le_rfl, Nat.sub_self]
    rfl
  · exact ⟨c, Relation.ReflTransGen.refl, .event i (.search .back), rfl, hm, hentry⟩

/-- **Nothing acts late on a removed page** in any run in which pages are removed only when they are
settled; and something does, in some run that goes on from there, whenever a page is removed while
something of it is pending. -/
theorem none_late :
    (∀ c : PageConfig ι, (anywhere ι).Reach RemovedSettled c → ∀ a, ¬ Late c a) ∧
    ∀ (c c' : PageConfig ι) i e, (anywhere ι).step c (.event i e) = some c' → disposes e = true →
      Pending i c → ∃ c'', (anywhere ι).Steps (fun _ _ => True) c' c'' ∧ ∃ a, Late c'' a := by
  constructor
  · intro c h a hlate
    have hsettled := removedAreSettled h
    cases a with
    | serve => exact hlate
    | deliver k d =>
        obtain ⟨p, hk, hm, hacts⟩ := hlate
        exact (hsettled p.1.client hm).2.1 p (List.mem_of_getElem? hk) rfl hacts
    | event i e =>
        obtain ⟨-, hm, hentry⟩ := hlate
        exact hentry.ne' (hsettled i hm).2.2
  · intro c c' i e hs hd hpending
    obtain ⟨page, out, he, rfl⟩ := step_event (S := firebase ι Cont) hs
    obtain ⟨hkind, ⟨-, rfl, hgone⟩ | ⟨hstays, -⟩⟩ := event_mounted he
    · apply late_of_pending (i := i)
      · rw [Pending, Config.post_clients_self, historyEntries_disposes he hd]
        refine hpending.imp ?_ (Or.imp_left ?_)
        · rintro ⟨p, hp, hclient, hacts⟩
          exact ⟨p, hp, hclient, hacts.of_kind hkind.symm⟩
        · rintro ⟨m, hmem, hclient, o, b, a, hserve, hacts⟩
          exact ⟨m, List.mem_append_left _ hmem, hclient, o, b, a, hserve,
            hacts.of_kind hkind.symm⟩
      · rw [Config.post_clients_self]
        exact hgone
    · rw [hd] at hstays
      cases hstays

/-! ### A NewGame page and a search page -/

section Example

/-- A NewGame page and a search page on the device of `u1`. -/
def start : PageConfig Bool :=
  Config.start (fun i => if i then .search {} else .newGame {}) ⟨∅, ∅, fun _ => some "u1"⟩ []

theorem start_opened : (anywhere Bool).init start :=
  ⟨fun i => if i then .search {} else .newGame {}, _, fun | true => rfl | false => rfl,
    trivial, rfl⟩

/-- The NewGame page is opened and finds its user. -/
def opening : List (PageAction Bool) :=
  [.event false (.newGame (.initState {} {})), .serve 0 (.accept ""), .deliver 0 0]

/-- 'Start game', and the query for the id is out. -/
def asking : List (PageAction Bool) :=
  opening ++ [.event false (.newGame (.pressStart 7))]

def cancel : PageAction Bool := .event false (.newGame .dispose)

def switchTab : PageAction Bool := .event true (.search .dispose)

/-- The search field is opened, and what is submitted closes it. -/
def searching : List (PageAction Bool) :=
  [.event true (.search .beginSearch), .event true (.search (.onSubmitted "Kai"))]

/-- The pages are left before 'Start game' and after the search, and nothing is late; after it, and
an answer may be; and so may the back button, when the search field is open. -/
theorem none_late_cancelled :
    (∃ c, (anywhere Bool).follow RemovedSettled start
        (opening ++ searching ++ [cancel, switchTab]) = some c ∧
      (∀ i, (c.clients i).mounted = false) ∧ ∀ a, ¬ Late c a) ∧
    (∃ c c', (anywhere Bool).run start asking = some c ∧ (anywhere Bool).step c cancel = some c' ∧
      ∃ c'', (anywhere Bool).Steps (fun _ _ => True) c' c'' ∧ ∃ a, Late c'' a) ∧
    ∃ c c', (anywhere Bool).run start [.event true (.search .beginSearch)] = some c ∧
      (anywhere Bool).step c switchTab = some c' ∧
      ∃ c'', (anywhere Bool).Steps (fun _ _ => True) c' c'' ∧ ∃ a, Late c'' a := by
  refine ⟨?_, ?_, ?_⟩
  · have hrun : ((anywhere Bool).follow RemovedSettled start
        (opening ++ searching ++ ([cancel, switchTab] : List (PageAction Bool)))).map
        (fun c => decide (∀ i, (c.clients i).mounted = false)) = some true := by
      decide +kernel
    obtain ⟨c, hc, hm⟩ := Option.map_eq_some_iff.mp hrun
    exact ⟨c, hc, of_decide_eq_true hm, none_late.1 c (Machine.Reach.of_follow start_opened hc)⟩
  · have hrun : ((anywhere Bool).run start asking).bind (fun c =>
        ((anywhere Bool).step c cancel).map fun _ =>
          (kind (c.clients false), c.calls.map fun m => (m.client, m.call))) =
        some (.newGame, [(false, ⟨.newGame .checkGameId,
          .whereEq NewGame.gamesPath "gameid" (.ofInt (some 7))⟩)]) := by
      decide +kernel
    obtain ⟨c, hc, hfirst⟩ := Option.bind_eq_some_iff.mp hrun
    obtain ⟨c', hs, heq⟩ := Option.map_eq_some_iff.mp hfirst
    obtain ⟨hkind, hcalls⟩ := Prod.mk.inj heq
    obtain ⟨m, ms, hm, hcall, -⟩ := List.map_eq_cons_iff.mp hcalls
    obtain ⟨hclient, hcall⟩ := Prod.mk.inj hcall
    refine ⟨c, c', hc, hs,
      none_late.2 c c' false _ hs rfl (Or.inr (Or.inl ⟨m, ?_, hclient, .accept "", ?_⟩))⟩
    · rw [hm]
      exact List.mem_cons_self
    · rw [hcall]
      refine ⟨_, _, rfl, Or.inl ?_⟩
      rw [hkind]
      rfl
  · have hrun : ((anywhere Bool).run start [.event true (.search .beginSearch)]).bind (fun c =>
        ((anywhere Bool).step c switchTab).map fun _ => historyEntries (c.clients true)) =
        some 1 := by
      decide +kernel
    obtain ⟨c, hc, hfirst⟩ := Option.bind_eq_some_iff.mp hrun
    obtain ⟨c', hs, hentries⟩ := Option.map_eq_some_iff.mp hfirst
    refine ⟨c, c', hc, hs, none_late.2 c c' true _ hs rfl (Or.inr (Or.inr ?_))⟩
    rw [hentries]
    exact Nat.zero_lt_one

/-- 'Start game', 'Cancel', and then the answer to the query for the id. -/
theorem not_none_late : ¬ ∀ c : PageConfig Bool, (anywhere Bool).Reachable c → ∀ a, ¬ Late c a := by
  intro h
  have hrun : ((anywhere Bool).run start (asking ++
      ([cancel, .serve 0 (.accept "")] : List (PageAction Bool)))).map
      (fun c => decide (Late c (.deliver 0 0))) = some true := by
    decide +kernel
  obtain ⟨c, hc, hlate⟩ := Option.map_eq_some_iff.mp hrun
  exact h c (Machine.Reach.of_follow start_opened hc) (.deliver 0 0) (of_decide_eq_true hlate)

end Example

end P0ker.Disposed
