import P0ker.Pages.Together

/-!
# What the pages ask the auth service

A page asks for its user once, when its `initState` runs, and takes the answer as the user it writes
for; the Login page does not ask, and alone signs users in. `Asks` is about the request itself, not
about the code that runs on its answer: the search and the Friends page have code of their own for
it.
-/

namespace P0ker.Pages

open Async

def isLogin : Page → Bool
  | .login _ => true
  | _ => false

/-- `initState` has run; the Login page has none. -/
def begun : Page → Bool
  | .login _ => true
  | .gamePage s => s.opened
  | .newGame s => s.opened
  | .newGroup s => s.opened
  | .search s => s.opened
  | .friends s => s.opened

/-- `mCurrentUser`, and on the Login page the `uid` of the account it has made last. -/
def user : Page → Option String
  | .login s => s.uid
  | .gamePage s => s.mCurrentUser
  | .newGame s => s.mCurrentUser
  | .newGroup s => s.mCurrentUser
  | .search s => s.mCurrentUser
  | .friends s => s.mCurrentUser

/-- The request signs a user in. -/
def Submits : Request → Prop
  | .signIn _ _ => True
  | .createUser _ _ => True
  | _ => False

/-- The handler asks for the user, once, when it is the first to run; or it does not ask. -/
def Asks {κ : Type} (out : List (Call κ)) (before after : Bool) : Prop :=
  (after = before ∧ ∀ call ∈ out, call.req ≠ .currentUser) ∨
    (before = false ∧ after = true ∧ ∃ call rest, out = call :: rest ∧ call.req = .currentUser ∧
      ∀ call ∈ rest, call.req ≠ .currentUser)

section Lift

variable {σ κ : Type} {page : σ → Page} {name : Page → κ → Cont} {s : σ} {out : List (Call κ)}

/-- A fact about the requests of a handler is one about the requests of its page. -/
theorem forall_lift (p : Request → Prop) (h : ∀ call ∈ out, p call.req) :
    ∀ call ∈ (lift page name (s, out)).2, p call.req := by
  intro call hc
  obtain ⟨c, hmem, rfl⟩ := mem_lift.mp hc
  exact h c hmem

theorem Asks.lift {before after : Bool} (h : Asks out before after) :
    Asks (lift page name (s, out)).2 before after := by
  refine h.imp (fun hnone => ⟨hnone.1, forall_lift (· ≠ .currentUser) hnone.2⟩) ?_
  rintro ⟨hbefore, hafter, call, rest, rfl, hcall, hrest⟩
  refine ⟨hbefore, hafter, ⟨name (page s) call.cont, call.req⟩, _, rfl, hcall, ?_⟩
  intro call' hc
  obtain ⟨c, hmem, rfl⟩ := List.mem_map.mp hc
  exact hrest c hmem

/-- What an event of a page other than the Login page does: it asks at most for the user, and the
page does not take another user for it. -/
structure Plain {κ : Type} (out : List (Call κ)) (before after : Bool) (u u' : Option String) :
    Prop where
  asks : Asks out before after
  user : u' = u
  submits : ∀ call ∈ out, ¬ Submits call.req

theorem Plain.lift {before after : Bool} {u u' : Option String} (h : Plain out before after u u') :
    Plain (lift page name (s, out)).2 before after u u' :=
  ⟨h.asks.lift, h.user, forall_lift (¬ Submits ·) h.submits⟩

end Lift

/-! ## The handlers -/

theorem login_reads {s s' : Login.LoginState} {e : Login.Event} {out : List (Call Login.Cont)}
    (h : Login.program.onEvent s e = some (s', out)) : ∀ call ∈ out, call.req ≠ .currentUser := by
  obtain ⟨eff, he, rfl⟩ := Registration.program_onEvent h
  rcases Registration.onEvent_calls he with hnone | ⟨-, hquery⟩ | ⟨-, -, -, hsign⟩
  · rw [hnone]
    exact List.forall_mem_nil _
  · rw [hquery]
    exact List.forall_mem_singleton.mpr (by intro hreq; cases hreq)
  · rw [hsign]
    exact List.forall_mem_singleton.mpr (by intro hreq; cases hreq)

theorem login_answers (s : Login.LoginState) (cont : Login.Cont) (a : Answer) :
    ∀ call ∈ Login.calls (Login.onAnswer s cont a).2, call.req ≠ .currentUser := by
  cases cont with
  | checkUsername =>
      rcases Registration.onAnswer_query_calls s a with h | ⟨-, -, -, -, h⟩ | ⟨-, -, -, -, h⟩ <;>
        rw [h]
      · exact List.forall_mem_nil _
      · exact List.forall_mem_singleton.mpr (by intro hreq; cases hreq)
      · exact List.forall_mem_singleton.mpr (by intro hreq; cases hreq)
  | signIn =>
      rw [Registration.onAnswer_signIn_calls]
      exact List.forall_mem_nil _
  | createUser =>
      rcases Registration.onAnswer_createUser_calls s a with ⟨k, -, h⟩ | ⟨-, h⟩ <;> rw [h]
      · exact List.forall_mem_singleton.mpr (by intro hreq; cases hreq)
      · exact List.forall_mem_nil _
  | saveUserData =>
      rw [Registration.onAnswer_save]
      exact List.forall_mem_nil _

theorem newGame_asks {s s' : NewGame.NewGameState} {e : NewGame.Event}
    {out : List (Call NewGame.Cont)} (h : NewGame.onEvent s e = some (s', out)) :
    Plain out s.opened s'.opened s.mCurrentUser s'.mCurrentUser := by
  rcases NewGame.onEvent_cases h with ⟨rfl, hpage⟩ | ⟨ho, hl, -, ho', rfl⟩ | ⟨r, -, -, -, rfl, rfl⟩
  · refine ⟨Or.inl ⟨hpage.opened, List.forall_mem_nil _⟩, ?_, List.forall_mem_nil _⟩
    rw [hpage.lookup]
  · refine ⟨Or.inr ⟨ho, ho', _, _, rfl, rfl, List.forall_mem_nil _⟩, ?_,
      List.forall_mem_singleton.mpr id⟩
    rw [hl]
  · exact ⟨Or.inl ⟨rfl,
      List.forall_mem_singleton.mpr (by intro hreq; cases hreq)⟩, rfl,
      List.forall_mem_singleton.mpr id⟩

theorem newGroup_asks {s s' : NewGroup.NewGroupState} {e : NewGroup.Event}
    {out : List (Call NewGroup.Cont)} (h : NewGroup.onEvent s e = some (s', out)) :
    Plain out s.opened s'.opened s.mCurrentUser s'.mCurrentUser := by
  rcases NewGroup.onEvent_cases h with ⟨rfl, hl, ho⟩ | ⟨-, ho, rfl, rfl⟩ | ⟨r, -, -, -, rfl, rfl⟩
  · refine ⟨Or.inl ⟨ho, List.forall_mem_nil _⟩, ?_, List.forall_mem_nil _⟩
    rw [hl]
  · exact ⟨Or.inr ⟨ho, rfl, _, _, rfl, rfl, List.forall_mem_nil _⟩, rfl,
      List.forall_mem_singleton.mpr id⟩
  · exact ⟨Or.inl ⟨rfl,
      List.forall_mem_singleton.mpr (by intro hreq; cases hreq)⟩, rfl,
      List.forall_mem_singleton.mpr id⟩

theorem gamePage_asks {s s' : GamePage.GamePageState} {e : GamePage.Event}
    {out : List (Call GamePage.Cont)} (h : GamePage.onEvent s e = some (s', out)) :
    Plain out s.opened s'.opened s.mCurrentUser s'.mCurrentUser := by
  rcases GamePage.onEvent_cases h with ⟨-, ho, rfl, rfl⟩ | ⟨-, rfl, rfl⟩
  · exact ⟨Or.inr ⟨ho, rfl, _, _, rfl, rfl, List.forall_mem_nil _⟩, rfl,
      List.forall_mem_singleton.mpr id⟩
  · exact ⟨Or.inl ⟨rfl, List.forall_mem_nil _⟩, rfl, List.forall_mem_nil _⟩

theorem search_asks {s s' : UserSearch.DisplaySearchState} {e : UserSearch.Event}
    {out : List (Call UserSearch.Cont)} (h : UserSearch.onEvent s e = some (s', out)) :
    Plain out s.opened s'.opened s.mCurrentUser s'.mCurrentUser := by
  cases UserSearch.ran h with
  | initState hclosed =>
      exact ⟨Or.inr ⟨hclosed, rfl, _, _, rfl, rfl, List.forall_mem_nil _⟩, rfl,
        List.forall_mem_singleton.mpr id⟩
  | tapAdd =>
      exact ⟨Or.inl ⟨rfl,
          List.forall_mem_singleton.mpr (by intro hreq; cases hreq)⟩, rfl,
          List.forall_mem_singleton.mpr id⟩
  | build =>
      obtain ⟨stream, snapshot, heq⟩ := UserSearch.build_eq s
      rw [heq]
      exact ⟨Or.inl ⟨rfl, List.forall_mem_nil _⟩, rfl, List.forall_mem_nil _⟩
  | beginSearch | back | onSubmitted | snapshot | tapNull | dispose =>
      exact ⟨Or.inl ⟨rfl, List.forall_mem_nil _⟩, rfl, List.forall_mem_nil _⟩

theorem friends_asks {s s' : Friends.HomeeState} {e : Friends.Event}
    {out : List (Call Friends.Cont)} (h : Friends.onEvent s e = some (s', out)) :
    Plain out s.opened s'.opened s.mCurrentUser s'.mCurrentUser := by
  cases e <;> simp only [Friends.onEvent] at h <;> split at h
  case initState.isFalse hclosed =>
    obtain ⟨rfl, rfl⟩ := Prod.mk.inj (Option.some.inj h)
    refine ⟨Or.inr ⟨by simpa using hclosed, rfl, _, _, rfl, rfl, ?_⟩, rfl, ?_⟩
    · exact List.forall_mem_singleton.mpr (by intro hreq; cases hreq)
    · exact List.forall_mem_cons.mpr ⟨id, List.forall_mem_singleton.mpr id⟩
  case tap.isTrue documentID _ =>
    obtain ⟨rfl, rfl⟩ := Prod.mk.inj (Option.some.inj h)
    have hreads : ∀ call ∈ (Friends.onTap documentID s).2, ∃ doc, call.req = .get doc := by
      intro call hc
      rcases List.mem_append.mp hc with hc | hc
      · split at hc
        · rw [List.mem_singleton.mp hc]
          exact ⟨_, rfl⟩
        · cases hc
      · rw [List.mem_singleton.mp hc]
        exact ⟨_, rfl⟩
    refine ⟨Or.inl ⟨rfl, ?_⟩, rfl, ?_⟩
    · intro call hc hreq
      obtain ⟨doc, hdoc⟩ := hreads call hc
      rw [hdoc] at hreq
      cases hreq
    · intro call hc hsubmits
      obtain ⟨doc, hdoc⟩ := hreads call hc
      rw [hdoc] at hsubmits
      exact hsubmits
  case pressNext.isTrue =>
    obtain ⟨rfl, rfl⟩ := Prod.mk.inj (Option.some.inj h)
    exact ⟨Or.inl ⟨rfl,
        List.forall_mem_singleton.mpr (by intro hreq; cases hreq)⟩, rfl,
        List.forall_mem_singleton.mpr id⟩
  case dispose.isTrue =>
    obtain ⟨rfl, rfl⟩ := Prod.mk.inj (Option.some.inj h)
    exact ⟨Or.inl ⟨rfl, List.forall_mem_nil _⟩, rfl, List.forall_mem_nil _⟩
  all_goals cases h

/-- **What an event asks.** -/
theorem event_asks {page page' : Page} {e : Event} {out : List (Call Cont)}
    (h : onEvent page e = some (page', out)) : isLogin page' = isLogin page ∧
      if isLogin page then begun page' = begun page ∧ ∀ call ∈ out, call.req ≠ .currentUser
      else Plain out (begun page) (begun page') (user page) (user page') := by
  cases (raised h).2 with
  | login hs => exact ⟨rfl, rfl, forall_lift (· ≠ .currentUser) (login_reads hs)⟩
  | gamePage hs => exact ⟨rfl, (gamePage_asks hs).lift⟩
  | newGame hs => exact ⟨rfl, (newGame_asks hs).lift⟩
  | newGroup hs => exact ⟨rfl, (newGroup_asks hs).lift⟩
  | search hs => exact ⟨rfl, (search_asks hs).lift⟩
  | friends hs => exact ⟨rfl, (friends_asks hs).lift⟩

/-- What an answer to a page other than the Login page does: it asks nothing, and the user stays, or
is the one the answer names. -/
structure Told {κ : Type} (a : Answer) (out : List (Call κ)) (before after : Bool)
    (u u' : Option String) : Prop where
  begun : after = before
  user : u' = u ∨ a = .user u'
  asks : ∀ call ∈ out, call.req ≠ .currentUser
  submits : ∀ call ∈ out, ¬ Submits call.req

theorem Told.lift {σ κ : Type} {page : σ → Page} {name : Page → κ → Cont} {s : σ}
    {out : List (Call κ)} {a : Answer} {before after : Bool} {u u' : Option String}
    (h : Told a out before after u u') : Told a (lift page name (s, out)).2 before after u u' :=
  ⟨h.begun, h.user, forall_lift (· ≠ .currentUser) h.asks, forall_lift (¬ Submits ·) h.submits⟩

theorem mCurrentUser_userIdFound (u : Option String) (s : UserLookup) :
    (userIdFound u s).mCurrentUser = u := by
  cases u <;> rfl

theorem told_nothing {κ : Type} (a : Answer) (b : Bool) (u : Option String) :
    Told a ([] : List (Call κ)) b b u u :=
  ⟨rfl, Or.inl rfl, List.forall_mem_nil _, List.forall_mem_nil _⟩

/-- Writing is neither asking nor signing in. -/
theorem told_writes {κ : Type} {a : Answer} {out : List (Call κ)} {b : Bool} {u : Option String}
    (h : ∀ call ∈ out, ∃ doc data, call.req = .setData doc data) : Told a out b b u u := by
  refine ⟨rfl, Or.inl rfl, ?_, ?_⟩
  · intro call hc hreq
    obtain ⟨doc, data, hwrite⟩ := h call hc
    rw [hwrite] at hreq
    cases hreq
  · intro call hc hsubmits
    obtain ⟨doc, data, hwrite⟩ := h call hc
    rw [hwrite] at hsubmits
    exact hsubmits

theorem gamePage_told (s : GamePage.GamePageState) (cont : GamePage.Cont) (a : Answer) :
    Told a (GamePage.onAnswer s cont a).2 s.opened (GamePage.onAnswer s cont a).1.opened
      s.mCurrentUser (GamePage.onAnswer s cont a).1.mCurrentUser := by
  rcases GamePage.onAnswer_cases s cont a with h | ⟨u, rfl, h⟩ <;> rw [h]
  · exact told_nothing a _ _
  · refine ⟨rfl, Or.inr ?_, List.forall_mem_nil _, List.forall_mem_nil _⟩
    rw [mCurrentUser_userIdFound]

theorem newGame_told (s : NewGame.NewGameState) (cont : NewGame.Cont) (a : Answer) (r : Draw) :
    Told a (NewGame.onAnswer s cont a r).2 s.opened (NewGame.onAnswer s cont a r).1.opened
      s.mCurrentUser (NewGame.onAnswer s cont a r).1.mCurrentUser := by
  rcases NewGame.onAnswer_cases s cont a r with h | ⟨u, -, rfl, h⟩ | ⟨-, -, -, h⟩ | ⟨-, -, -, h⟩ <;>
    rw [h]
  · exact told_nothing a _ _
  · refine ⟨rfl, Or.inr ?_, List.forall_mem_nil _, List.forall_mem_nil _⟩
    rw [mCurrentUser_userIdFound]
  · exact ⟨rfl, Or.inl rfl,
      List.forall_mem_singleton.mpr (by intro hreq; cases hreq), List.forall_mem_singleton.mpr id⟩
  · refine told_writes ?_
    intro call hc
    rcases NewGame.mem_saveGame.mp hc with rfl | rfl <;> exact ⟨_, _, rfl⟩

theorem newGroup_told (s : NewGroup.NewGroupState) (cont : NewGroup.Cont) (a : Answer) (r : Draw) :
    Told a (NewGroup.onAnswer s cont a r).2 s.opened (NewGroup.onAnswer s cont a r).1.opened
      s.mCurrentUser (NewGroup.onAnswer s cont a r).1.mCurrentUser := by
  rcases NewGroup.onAnswer_cases s cont a r with
    h | ⟨u, -, rfl, h⟩ | ⟨-, -, -, h⟩ | ⟨-, -, -, h⟩ <;> rw [h]
  · exact told_nothing a _ _
  · refine ⟨rfl, Or.inr ?_, List.forall_mem_nil _, List.forall_mem_nil _⟩
    rw [mCurrentUser_userIdFound]
  · exact ⟨rfl, Or.inl rfl,
      List.forall_mem_singleton.mpr (by intro hreq; cases hreq), List.forall_mem_singleton.mpr id⟩
  · refine told_writes ?_
    intro call hc
    rcases NewGroup.mem_saved.mp hc with rfl | rfl | rfl <;> exact ⟨_, _, rfl⟩

theorem search_told (s : UserSearch.DisplaySearchState) (cont : UserSearch.Cont) (a : Answer) :
    Told a (UserSearch.onAnswer s cont a).2 s.opened (UserSearch.onAnswer s cont a).1.opened
      s.mCurrentUser (UserSearch.onAnswer s cont a).1.mCurrentUser := by
  rcases UserSearch.onAnswer_cases s cont a with h | ⟨u, -, rfl, h⟩ | ⟨profile, -, -, -, h⟩ <;>
    rw [h]
  · exact told_nothing a _ _
  · exact ⟨rfl, Or.inr rfl, List.forall_mem_nil _, List.forall_mem_nil _⟩
  · exact told_writes (List.forall_mem_singleton.mpr ⟨_, _, rfl⟩)

theorem friends_told (s : Friends.HomeeState) (cont : Friends.Cont) (a : Answer) :
    Told a (Friends.onAnswer s cont a).2 s.opened (Friends.onAnswer s cont a).1.opened
      s.mCurrentUser (Friends.onAnswer s cont a).1.mCurrentUser := by
  rw [(Friends.onAnswer_cases s cont a).1]
  unfold Friends.onAnswer
  split
  · refine ⟨rfl, Or.inr ?_, List.forall_mem_nil _, List.forall_mem_nil _⟩
    rw [mCurrentUser_userIdFound]
  · unfold Friends.userGot
    split
    · split <;> exact told_nothing _ _ _
    · exact told_nothing _ _ _
  · unfold Friends.groupStatusGot
    split
    · split <;> exact told_nothing _ _ _
    · exact told_nothing _ _ _
  · exact told_nothing _ _ _

/-- **What an answer asks.** -/
theorem answer_asks {page page' : Page} {cont : Cont} {a : Answer} {r : Draw}
    {out : List (Call Cont)} (h : onAnswer page cont a r = (page', out)) :
    isLogin page' = isLogin page ∧
      if isLogin page then begun page' = begun page ∧ ∀ call ∈ out, call.req ≠ .currentUser
      else Told a out (begun page) (begun page') (user page) (user page') := by
  have hcases := answered page cont a r
  rw [h] at hcases
  cases hcases with
  | login s cont => exact ⟨rfl, rfl, forall_lift (· ≠ .currentUser) (login_answers s cont a)⟩
  | gamePage s => exact ⟨rfl, (gamePage_told s .userIdFound a).lift⟩
  | newGame => exact ⟨rfl, (newGame_told _ _ a r).lift⟩
  | newGroup => exact ⟨rfl, (newGroup_told _ _ a r).lift⟩
  | search s cont => exact ⟨rfl, (search_told s cont a).lift⟩
  | friends s cont => exact ⟨rfl, (friends_told s cont a).lift⟩
  | idle =>
      refine ⟨rfl, ?_⟩
      split
      · exact ⟨rfl, List.forall_mem_nil _⟩
      · exact told_nothing a _ _

/-! ## Every run -/

theorem event_asks_or_not {page page' : Page} {e : Event} {out : List (Call Cont)}
    (h : onEvent page e = some (page', out)) : Asks out (begun page) (begun page') := by
  have hasks := (event_asks h).2
  split at hasks
  · exact Or.inl hasks
  · exact hasks.asks

theorem answer_asks_not {page page' : Page} {cont : Cont} {a : Answer} {r : Draw}
    {out : List (Call Cont)} (h : onAnswer page cont a r = (page', out)) :
    begun page' = begun page ∧ ∀ call ∈ out, call.req ≠ .currentUser := by
  have hasks := (answer_asks h).2
  split at hasks
  · exact hasks
  · exact ⟨hasks.begun, hasks.asks⟩

section Reach

variable {ι : Type} [DecidableEq ι] {B : Backend ι → Prop} {C : PageConfig ι → PageAction ι → Prop}
  {c : PageConfig ι}

/-- The page that asks for its user, if the call does. -/
def asker (m : Message ι (Call Cont) Answer) : Option ι :=
  if m.call.req = .currentUser then some m.client else none

omit [DecidableEq ι] in
theorem asker_eq {m : Message ι (Call Cont) Answer} {i : ι} :
    asker m = some i ↔ m.call.req = .currentUser ∧ m.client = i := by
  simp [asker]

omit [DecidableEq ι] in
theorem filterMap_asker_nil {i : ι} {cause : List (Call Cont × Answer)} {out : List (Call Cont)}
    (h : ∀ call ∈ out, call.req ≠ .currentUser) :
    (out.map (Message.mk i · cause)).filterMap asker = [] := by
  rw [List.filterMap_eq_nil_iff]
  intro m hm
  obtain ⟨call, hc, rfl⟩ := List.mem_map.mp hm
  exact if_neg (h call hc)

/-- No page waits twice to be told its user, and only a page that has begun waits. -/
structure AskedOnce (c : PageConfig ι) : Prop where
  nodup : (c.calls.filterMap asker).Nodup
  begun : ∀ i ∈ c.calls.filterMap asker, begun (c.clients i) = true

theorem AskedOnce.post {i : ι} {page : Page} {out : List (Call Cont)}
    {cause : List (Call Cont × Answer)} (h : AskedOnce c)
    (hasks : Asks out (Pages.begun (c.clients i)) (Pages.begun page)) :
    AskedOnce (c.post i page out cause) := by
  have hcalls : (c.post i page out cause).calls.filterMap asker =
      c.calls.filterMap asker ++ (out.map (Message.mk i · cause)).filterMap asker := by
    rw [Config.post_calls, List.filterMap_append]
  rcases hasks with ⟨hsame, hnone⟩ | ⟨hnew, hbegun, call, rest, rfl, hcall, hrest⟩
  · rw [filterMap_asker_nil hnone, List.append_nil] at hcalls
    refine ⟨hcalls ▸ h.nodup, ?_⟩
    intro j hj
    rw [hcalls] at hj
    refine Config.client_post (p := fun page => Pages.begun page = true) ?_ fun _ => h.begun j hj
    rintro rfl
    exact hsame.trans (h.begun j hj)
  · -- the page has not asked before
    have hone : ((call :: rest).map (Message.mk i · cause)).filterMap asker = [i] := by
      rw [List.map_cons, List.filterMap_cons_some (asker_eq.mpr ⟨hcall, rfl⟩),
        filterMap_asker_nil hrest]
    rw [hone] at hcalls
    have hnot : i ∉ c.calls.filterMap asker := by
      intro hi
      rw [h.begun i hi] at hnew
      cases hnew
    refine ⟨?_, ?_⟩
    · rw [hcalls]
      refine h.nodup.append (List.nodup_singleton i) ?_
      rw [List.disjoint_singleton]
      exact hnot
    · intro j hj
      refine Config.client_post (p := fun page => Pages.begun page = true) (fun _ => hbegun) ?_
      intro hne
      rw [hcalls, List.mem_append, List.mem_singleton] at hj
      exact h.begun j (hj.resolve_right hne)

theorem askedOnce (h : (pages ι B).Reach C c) : AskedOnce c := by
  refine h.invariant ?_ ?_
  · rintro _ ⟨p, b, -, -, rfl⟩
    exact ⟨List.nodup_nil, List.forall_mem_nil _⟩
  · intro c a c' _ hq _ hs
    refine step_keeps (Q := AskedOnce) hs ?_ ?_ ?_
    · intro i e page out _ he
      exact hq.post (event_asks_or_not he)
    · intro k o m b r _ _ _
      have hsub : ((c.served k m b r).calls.filterMap asker).Sublist (c.calls.filterMap asker) :=
        (List.eraseIdx_sublist c.calls k).filterMap asker
      exact ⟨hq.nodup.sublist hsub, fun i hi => hq.begun i (hsub.subset hi)⟩
    · intro k d m r page out _ _ ha
      exact AskedOnce.post (c := c.taken k) ⟨hq.nodup, hq.begun⟩ (Or.inl (answer_asks_not ha))

omit [DecidableEq ι] in
/-- After it is told, a page no longer waits. -/
theorem AskedOnce.served {k : Nat} {m : Message ι (Call Cont) Answer} (h : AskedOnce c)
    (hk : c.calls[k]? = some m) (hm : m.call.req = .currentUser) :
    m.client ∉ (c.calls.eraseIdx k).filterMap asker := by
  have hsplit := coe_filterMap_eraseIdx asker hk
  rw [asker_eq.mpr ⟨hm, rfl⟩] at hsplit
  have hnodup : (↑(c.calls.filterMap asker) : Multiset ι).Nodup := Multiset.coe_nodup.mpr h.nodup
  rw [hsplit] at hnodup
  intro hmem
  refine Multiset.disjoint_left.mp (Multiset.nodup_add.mp hnodup).2.2 (Multiset.mem_coe.mpr hmem) ?_
  exact Multiset.mem_singleton_self _

/-- Only Login pages sign in, and only the others ask. -/
theorem submitters (h : (pages ι B).Reach C c) : ∀ m ∈ c.issued,
    (Submits m.call.req → isLogin (c.clients m.client) = true) ∧
      (m.call.req = .currentUser → isLogin (c.clients m.client) = false) := by
  refine Reach.related (R := fun page call => (Submits call.req → isLogin page = true) ∧
    (call.req = .currentUser → isLogin page = false)) h ?_ ?_ ?_
  · rintro _ ⟨p, b, -, -, rfl⟩
    exact ⟨InFlightIssued.start _ _ _, List.forall_mem_nil _⟩
  · intro page e page' out he
    obtain ⟨hlogin, hasks⟩ := event_asks he
    rw [hlogin]
    refine ⟨fun _ h => h, ?_⟩
    intro call hc
    split at hasks
    · next hpage => exact ⟨fun _ => hpage, fun hreq => absurd hreq (hasks.2 call hc)⟩
    · next hpage =>
        exact ⟨fun hs => absurd hs (hasks.submits call hc), fun _ => by simpa using hpage⟩
  · intro page call a r page' out _ ha
    obtain ⟨hlogin, hasks⟩ := answer_asks ha
    rw [hlogin]
    refine ⟨fun _ h => h, ?_⟩
    intro call hc
    split at hasks
    · next hpage => exact ⟨fun _ => hpage, fun hreq => absurd hreq (hasks.2 call hc)⟩
    · exact ⟨fun hs => absurd hs (hasks.submits call hc),
        fun hreq => absurd hreq (hasks.asks call hc)⟩

end Reach

end P0ker.Pages
