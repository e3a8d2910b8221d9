import P0ker.Pages.GamePage
import P0ker.Pages.NewGame
import P0ker.Pages.UserSearch
import P0ker.Pages.Friends
import P0ker.Registration.Basic

/-!
# The pages together

Any number of pages, of any kind, over one backend. A client is one page: a device on which several
pages are open is several clients, and `session i` is the user signed in on the device of page `i`
when the run starts, or whom the page itself signs in.

A page that has been removed raises no events, but the answers to its calls still come home; and the
back button removes the entry that its search field has left in the history of the route.
-/

namespace P0ker.Pages

open Async

inductive Page where
  | login (s : Login.LoginState)
  | gamePage (s : GamePage.GamePageState)
  | newGame (s : NewGame.NewGameState)
  | newGroup (s : NewGroup.NewGroupState)
  | search (s : UserSearch.DisplaySearchState)
  | friends (s : Friends.HomeeState)
  deriving DecidableEq

def Page.mounted : Page → Bool
  | .login s => s.mounted
  | .gamePage s => s.mounted
  | .newGame s => s.mounted
  | .newGroup s => s.mounted
  | .search s => s.mounted
  | .friends s => s.mounted

/-- A page nothing has happened to. Of a search page `_fresh` is left over from the one before. -/
def Page.New : Page → Prop
  | .login s => s = {}
  | .gamePage s => s = {}
  | .newGame s => s = {}
  | .newGroup s => s = {}
  | .search s => s = { fresh := s.fresh }
  | .friends s => s = {}

theorem Page.New.mounted {page : Page} (h : page.New) : page.mounted = true := by
  cases page with
  | login | gamePage | newGame | newGroup | friends =>
      obtain rfl := h
      rfl
  | search s =>
      rw [show s = { fresh := s.fresh } from h]
      rfl

/-- The code that runs on an answer. `currentUser` is the lookup that the buttons of a page wait
for. No code runs on the answer to a write; a write carries the page that has issued it, as it was
then, which no handler reads. -/
inductive Cont where
  | currentUser
  | login (cont : Login.Cont)
  | newGame (cont : NewGame.Cont)
  | newGroup (cont : NewGroup.Cont)
  | search (cont : UserSearch.Cont)
  | friends (cont : Friends.Cont)
  | written (page : Page)
  deriving DecidableEq

inductive Event where
  | login (e : Login.Event)
  | gamePage (e : GamePage.Event)
  | newGame (e : NewGame.Event)
  | newGroup (e : NewGroup.Event)
  | search (e : UserSearch.Event)
  | friends (e : Friends.Event)
  deriving DecidableEq

/-! ## The names of the code, page by page -/

def ofLogin (page : Page) : Login.Cont → Cont
  | .saveUserData => .written page
  | cont => .login cont

def ofGamePage (_ : Page) : GamePage.Cont → Cont
  | .userIdFound => .currentUser

def ofNewGame (page : Page) : NewGame.Cont → Cont
  | .userIdFound => .currentUser
  | .written => .written page
  | cont => .newGame cont

def ofNewGroup (page : Page) : NewGroup.Cont → Cont
  | .userIdFound => .currentUser
  | .written => .written page
  | cont => .newGroup cont

def ofSearch (page : Page) : UserSearch.Cont → Cont
  | .added => .written page
  | cont => .search cont

def ofFriends (page : Page) : Friends.Cont → Cont
  | .added => .written page
  | cont => .friends cont

variable {σ κ : Type}

/-- What a handler of one kind of page has done, as the doing of a page. -/
def lift (page : σ → Page) (name : Page → κ → Cont) (r : σ × List (Call κ)) :
    Page × List (Call Cont) :=
  (page r.1, r.2.map fun call => ⟨name (page r.1) call.cont, call.req⟩)

/-! ## A page as a client program -/

/-- The handlers of a page. -/
def handle : Page → Event → Option (Page × List (Call Cont))
  | .login s, .login e => (Login.program.onEvent s e).map (lift .login ofLogin)
  | .gamePage s, .gamePage e => (GamePage.onEvent s e).map (lift .gamePage ofGamePage)
  | .newGame s, .newGame e => (NewGame.onEvent s e).map (lift .newGame ofNewGame)
  | .newGroup s, .newGroup e => (NewGroup.onEvent s e).map (lift .newGroup ofNewGroup)
  | .search s, .search e => (UserSearch.onEvent s e).map (lift .search ofSearch)
  | .friends s, .friends e => (Friends.onEvent s e).map (lift .friends ofFriends)
  | _, _ => none

def onEvent (page : Page) (e : Event) : Option (Page × List (Call Cont)) :=
  if page.mounted ∨ e = .search .back then handle page e else none

def onAnswer (page : Page) (cont : Cont) (a : Answer) (r : Draw) : Page × List (Call Cont) :=
  match page, cont with
  | .login s, .login cont =>
      lift .login ofLogin ((Login.onAnswer s cont a).map id Login.calls)
  | .gamePage s, .currentUser => lift .gamePage ofGamePage (GamePage.onAnswer s .userIdFound a)
  | .newGame s, .currentUser => lift .newGame ofNewGame (NewGame.onAnswer s .userIdFound a r)
  | .newGame s, .newGame .checkGameId =>
      lift .newGame ofNewGame (NewGame.onAnswer s .checkGameId a r)
  | .newGroup s, .currentUser => lift .newGroup ofNewGroup (NewGroup.onAnswer s .userIdFound a r)
  | .newGroup s, .newGroup .checkGroupId =>
      lift .newGroup ofNewGroup (NewGroup.onAnswer s .checkGroupId a r)
  | .search s, .search cont => lift .search ofSearch (UserSearch.onAnswer s cont a)
  | .friends s, .friends cont => lift .friends ofFriends (Friends.onAnswer s cont a)
  | page, _ => (page, [])

def program : Program Page Event Draw (Call Cont) Answer where
  onEvent := onEvent
  onAnswer page c a r := onAnswer page c.cont a r

/-! ## The system -/

abbrev PageConfig (ι : Type) := Config ι Page (Backend ι) (Call Cont) Answer

abbrev PageAction (ι : Type) := Action ι Event Draw Outcome

variable {ι : Type} [DecidableEq ι]

/-- New pages over a backend that meets `B`, nothing in flight. -/
def Opened (B : Backend ι → Prop) (c : PageConfig ι) : Prop :=
  ∃ pages b, (∀ i, (pages i).New) ∧ B b ∧ c = Config.start pages b []

def pages (ι : Type) [DecidableEq ι] (B : Backend ι → Prop) :
    Machine (PageConfig ι) (PageAction ι) :=
  Async.system program (firebase ι Cont) (Opened B)

/-- The pages over any backend. -/
abbrev anywhere (ι : Type) [DecidableEq ι] : Machine (PageConfig ι) (PageAction ι) :=
  pages ι fun _ => True

/-! ## What the handlers do -/

theorem mem_lift {page : σ → Page} {name : Page → κ → Cont} {r : σ × List (Call κ)}
    {call : Call Cont} :
    call ∈ (lift page name r).2 ↔ ∃ c ∈ r.2, call = ⟨name (page r.1) c.cont, c.req⟩ := by
  simp only [lift, List.mem_map, eq_comm]

/-- An event runs the handler of one kind of page. -/
inductive Raised : Page → Event → Page → List (Call Cont) → Prop
  | login {s s' e out} : Login.program.onEvent s e = some (s', out) →
      Raised (.login s) (.login e) (.login s') (lift .login ofLogin (s', out)).2
  | gamePage {s s' e out} : GamePage.onEvent s e = some (s', out) →
      Raised (.gamePage s) (.gamePage e) (.gamePage s') (lift .gamePage ofGamePage (s', out)).2
  | newGame {s s' e out} : NewGame.onEvent s e = some (s', out) →
      Raised (.newGame s) (.newGame e) (.newGame s') (lift .newGame ofNewGame (s', out)).2
  | newGroup {s s' e out} : NewGroup.onEvent s e = some (s', out) →
      Raised (.newGroup s) (.newGroup e) (.newGroup s') (lift .newGroup ofNewGroup (s', out)).2
  | search {s s' e out} : UserSearch.onEvent s e = some (s', out) →
      Raised (.search s) (.search e) (.search s') (lift .search ofSearch (s', out)).2
  | friends {s s' e out} : Friends.onEvent s e = some (s', out) →
      Raised (.friends s) (.friends e) (.friends s') (lift .friends ofFriends (s', out)).2

theorem raised {page page' : Page} {e : Event} {out : List (Call Cont)}
    (h : onEvent page e = some (page', out)) :
    (page.mounted = true ∨ e = .search .back) ∧ Raised page e page' out := by
  rw [onEvent] at h
  split at h
  · next hm =>
      refine ⟨hm, ?_⟩
      cases page <;> cases e <;> simp only [handle, reduceCtorEq] at h <;>
        obtain ⟨⟨s', out'⟩, he, heq⟩ := Option.map_eq_some_iff.mp h <;>
        obtain ⟨rfl, rfl⟩ := Prod.mk.inj heq
      case login.login => exact .login he
      case gamePage.gamePage => exact .gamePage he
      case newGame.newGame => exact .newGame he
      case newGroup.newGroup => exact .newGroup he
      case search.search => exact .search he
      case friends.friends => exact .friends he
  · cases h

/-- An answer runs the code of one kind of page, or none. -/
inductive Answered (a : Answer) (r : Draw) : Page → Cont → Page → List (Call Cont) → Prop
  | login (s : Login.LoginState) (cont : Login.Cont) : Answered a r (.login s) (.login cont)
      (.login (Login.onAnswer s cont a).1)
      (lift .login ofLogin ((Login.onAnswer s cont a).map id Login.calls)).2
  | gamePage (s : GamePage.GamePageState) : Answered a r (.gamePage s) .currentUser
      (.gamePage (GamePage.onAnswer s .userIdFound a).1)
      (lift .gamePage ofGamePage (GamePage.onAnswer s .userIdFound a)).2
  | newGame {s cont cont'} : cont' = ofNewGame (.newGame s) cont →
      Answered a r (.newGame s) cont' (.newGame (NewGame.onAnswer s cont a r).1)
        (lift .newGame ofNewGame (NewGame.onAnswer s cont a r)).2
  | newGroup {s cont cont'} : cont' = ofNewGroup (.newGroup s) cont →
      Answered a r (.newGroup s) cont' (.newGroup (NewGroup.onAnswer s cont a r).1)
        (lift .newGroup ofNewGroup (NewGroup.onAnswer s cont a r)).2
  | search (s : UserSearch.DisplaySearchState) (cont : UserSearch.Cont) :
      Answered a r (.search s) (.search cont) (.search (UserSearch.onAnswer s cont a).1)
        (lift .search ofSearch (UserSearch.onAnswer s cont a)).2
  | friends (s : Friends.HomeeState) (cont : Friends.Cont) :
      Answered a r (.friends s) (.friends cont) (.friends (Friends.onAnswer s cont a).1)
        (lift .friends ofFriends (Friends.onAnswer s cont a)).2
  | idle (page : Page) (cont : Cont) : Answered a r page cont page []

theorem answered (page : Page) (cont : Cont) (a : Answer) (r : Draw) :
    Answered a r page cont (onAnswer page cont a r).1 (onAnswer page cont a r).2 := by
  unfold onAnswer
  split
  · exact .login _ _
  · exact .gamePage _
  · exact .newGame rfl
  · exact .newGame rfl
  · exact .newGroup rfl
  · exact .newGroup rfl
  · exact .search _ _
  · exact .friends _ _
  · exact .idle _ _

/-! ## The lookup that the buttons wait for

The buttons of the search and the Friends page do not wait for theirs. -/

def lookup : Page → UserLookup
  | .gamePage s => s.toUserLookup
  | .newGame s => s.toUserLookup
  | .newGroup s => s.toUserLookup
  | .login _ | .search _ | .friends _ => {}

def opened : Page → Bool
  | .gamePage s => s.opened
  | .newGame s => s.opened
  | .newGroup s => s.opened
  | .login _ | .search _ | .friends _ => true

/-- What one kind of page does for its lookup, the page does. -/
theorem looksUp_event {s s' : σ} {out : List (Call κ)} {page : σ → Page} {name : Page → κ → Cont}
    {cont : κ} {l : σ → UserLookup} {o : σ → Bool}
    (hname : ∀ p c, name p c = .currentUser ↔ c = cont)
    (hl : ∀ s, lookup (page s) = l s) (ho : ∀ s, opened (page s) = o s)
    (h : l s' = l s ∧ ((o s = false ∧ o s' = true ∧ out = [⟨cont, .currentUser⟩]) ∨
      (o s' = o s ∧ ∀ call ∈ out, call.cont ≠ cont))) :
    lookup (page s') = lookup (page s) ∧
      ((opened (page s) = false ∧ opened (page s') = true ∧
          (lift page name (s', out)).2 = [⟨.currentUser, .currentUser⟩]) ∨
        (opened (page s') = opened (page s) ∧
          ∀ call ∈ (lift page name (s', out)).2, call.cont ≠ .currentUser)) := by
  simp only [hl, ho]
  refine ⟨h.1, h.2.imp ?_ ?_⟩
  · rintro ⟨hclosed, hopen, rfl⟩
    refine ⟨hclosed, hopen, ?_⟩
    simp [lift, (hname _ _).mpr]
  · rintro ⟨hopen, hout⟩
    refine ⟨hopen, ?_⟩
    intro call hc
    obtain ⟨c, hmem, rfl⟩ := mem_lift.mp hc
    exact fun hcont => hout c hmem ((hname _ _).mp hcont)

theorem looksUp_answer {s : σ} {page : σ → Page} {name : Page → κ → Cont} {cont c : κ}
    {cont' : Cont} {l : σ → UserLookup} {o : σ → Bool} (r : σ × List (Call κ))
    (hname : ∀ p c, name p c = .currentUser ↔ c = cont) (hcont : cont' = name (page s) c)
    (hl : ∀ s, lookup (page s) = l s) (ho : ∀ s, opened (page s) = o s)
    (h : o r.1 = o s ∧ (∀ call' ∈ r.2, call'.cont ≠ cont) ∧
      (l r.1 = l s ∨ c = cont ∧ ∃ u, l r.1 = userIdFound u (l s))) :
    opened (page r.1) = opened (page s) ∧
      (∀ call' ∈ (lift page name r).2, call'.cont ≠ .currentUser) ∧
      (lookup (page r.1) = lookup (page s) ∨
        cont' = .currentUser ∧ ∃ u, lookup (page r.1) = userIdFound u (lookup (page s))) := by
  simp only [hl, ho]
  refine ⟨h.1, ?_, h.2.2.imp_right ?_⟩
  · intro call hc
    obtain ⟨c, hmem, rfl⟩ := mem_lift.mp hc
    exact fun hcont => h.2.1 c hmem ((hname _ _).mp hcont)
  · rintro ⟨hc, hu⟩
    exact ⟨hcont.trans ((hname _ _).mpr hc), hu⟩

theorem ofGamePage_eq (p : Page) (c : GamePage.Cont) :
    ofGamePage p c = .currentUser ↔ c = .userIdFound := by
  cases c
  simp [ofGamePage]

theorem ofNewGame_eq (p : Page) (c : NewGame.Cont) :
    ofNewGame p c = .currentUser ↔ c = .userIdFound := by
  cases c <;> simp [ofNewGame]

theorem ofNewGroup_eq (p : Page) (c : NewGroup.Cont) :
    ofNewGroup p c = .currentUser ↔ c = .userIdFound := by
  cases c <;> simp [ofNewGroup]

theorem ofLogin_ne (p : Page) (c : Login.Cont) : ofLogin p c ≠ .currentUser := by
  cases c <;> nofun

theorem ofSearch_ne (p : Page) (c : UserSearch.Cont) : ofSearch p c ≠ .currentUser := by
  cases c <;> nofun

theorem ofFriends_ne (p : Page) (c : Friends.Cont) : ofFriends p c ≠ .currentUser := by
  cases c <;> nofun

theorem lift_ne {page : σ → Page} {name : Page → κ → Cont} {cont : Cont}
    (h : ∀ p c, name p c ≠ cont) (r : σ × List (Call κ)) :
    ∀ call ∈ (lift page name r).2, call.cont ≠ cont := by
  intro call hc
  obtain ⟨c, -, rfl⟩ := mem_lift.mp hc
  exact h _ _

/-- Every page looks its user up once. -/
theorem looksUp : LooksUp program lookup opened .currentUser := by
  constructor
  · intro page e page' out he
    cases (raised he).2 with
    | login => exact ⟨rfl, Or.inr ⟨rfl, lift_ne ofLogin_ne _⟩⟩
    | search => exact ⟨rfl, Or.inr ⟨rfl, lift_ne ofSearch_ne _⟩⟩
    | friends => exact ⟨rfl, Or.inr ⟨rfl, lift_ne ofFriends_ne _⟩⟩
    | gamePage hs =>
        exact looksUp_event ofGamePage_eq (fun _ => rfl) (fun _ => rfl)
          (GamePage.looksUp.event _ _ _ _ hs)
    | newGame hs =>
        exact looksUp_event ofNewGame_eq (fun _ => rfl) (fun _ => rfl)
          (NewGame.looksUp.event _ _ _ _ hs)
    | newGroup hs =>
        exact looksUp_event ofNewGroup_eq (fun _ => rfl) (fun _ => rfl)
          (NewGroup.looksUp.event _ _ _ _ hs)
  · intro page call a r page' out ha
    obtain ⟨cont, req⟩ := call
    have hcases := answered page cont a r
    rw [show onAnswer page cont a r = (page', out) from ha] at hcases
    cases hcases with
    | login => exact ⟨rfl, lift_ne ofLogin_ne _, Or.inl rfl⟩
    | search => exact ⟨rfl, lift_ne ofSearch_ne _, Or.inl rfl⟩
    | friends => exact ⟨rfl, lift_ne ofFriends_ne _, Or.inl rfl⟩
    | idle => exact ⟨rfl, List.forall_mem_nil _, Or.inl rfl⟩
    | gamePage s =>
        exact looksUp_answer (c := GamePage.Cont.userIdFound) (GamePage.onAnswer s .userIdFound a)
          ofGamePage_eq rfl (fun _ => rfl) (fun _ => rfl)
          (GamePage.looksUp.answer s ⟨.userIdFound, req⟩ a () _ _ rfl)
    | @newGame s cont _ hcont =>
        exact looksUp_answer (NewGame.onAnswer s cont a r) ofNewGame_eq hcont (fun _ => rfl)
          (fun _ => rfl) (NewGame.looksUp.answer s ⟨cont, req⟩ a r _ _ rfl)
    | @newGroup s cont _ hcont =>
        exact looksUp_answer (NewGroup.onAnswer s cont a r) ofNewGroup_eq hcont (fun _ => rfl)
          (fun _ => rfl) (NewGroup.looksUp.answer s ⟨cont, req⟩ a r _ _ rfl)

/-! ## What a page has for its answers

A Login form has a name, a NewGame or NewGroup page a user and an id, from the moment on at which it
asks about them. -/

def HasGameId (s : NewGame.NewGameState) : Prop :=
  s.userFound = true ∧ s.gameId ≠ none

def HasGroupId (s : NewGroup.NewGroupState) : Prop :=
  s.userFound = true ∧ s.groupId ≠ none

/-- The page has what it asks about. -/
def Ready : Page → Prop
  | .login s => s.username ≠ none
  | .newGame s => HasGameId s
  | .newGroup s => HasGroupId s
  | .gamePage _ | .search _ | .friends _ => True

/-- The code that relies on it. -/
def Relies : Cont → Prop
  | .login .checkUsername | .login .createUser => True
  | .newGame .checkGameId => True
  | .newGroup .checkGroupId => True
  | _ => False

theorem userIdFound_kept {u : Option String} {s : UserLookup} (h : s.userFound = true) :
    (userIdFound u s).userFound = true := by
  cases u with
  | none => exact h
  | some u => rfl

theorem hasGameId_event {s s' : NewGame.NewGameState} {e : NewGame.Event}
    {out : List (Call NewGame.Cont)} (h : NewGame.onEvent s e = some (s', out)) :
    (HasGameId s → HasGameId s') ∧ ∀ call ∈ out, call.cont = .checkGameId → HasGameId s' := by
  rcases NewGame.onEvent_cases h with ⟨rfl, hpage⟩ | ⟨-, hl, hid, -, rfl⟩ | ⟨r, -, -, hf, rfl, rfl⟩
  · refine ⟨?_, List.forall_mem_nil _⟩
    rw [HasGameId, HasGameId, hpage.gameId, hpage.lookup]
    exact id
  · refine ⟨?_, List.forall_mem_singleton.mpr nofun⟩
    rw [HasGameId, HasGameId, hid, hl]
    exact id
  · exact ⟨fun _ => ⟨hf, nofun⟩, fun _ _ _ => ⟨hf, nofun⟩⟩

theorem hasGameId_answer {s : NewGame.NewGameState} (cont : NewGame.Cont) (a : Answer) (r : Draw)
    (hs : cont = .checkGameId → HasGameId s) :
    (HasGameId s → HasGameId (NewGame.onAnswer s cont a r).1) ∧
      ∀ call ∈ (NewGame.onAnswer s cont a r).2, call.cont = .checkGameId →
        HasGameId (NewGame.onAnswer s cont a r).1 := by
  rcases NewGame.onAnswer_cases s cont a r with h | ⟨u, -, -, h⟩ | ⟨hc, -, -, h⟩ | ⟨-, -, -, h⟩ <;>
    rw [h]
  · exact ⟨id, List.forall_mem_nil _⟩
  · exact ⟨fun hs => ⟨userIdFound_kept hs.1, hs.2⟩, List.forall_mem_nil _⟩
  · exact ⟨fun hs => ⟨hs.1, nofun⟩, fun _ _ _ => ⟨(hs hc).1, nofun⟩⟩
  · refine ⟨id, ?_⟩
    intro call hc hcont
    rw [NewGame.saveGame_cont hc] at hcont
    cases hcont

theorem hasGroupId_event {s s' : NewGroup.NewGroupState} {e : NewGroup.Event}
    {out : List (Call NewGroup.Cont)} (h : NewGroup.onEvent s e = some (s', out)) :
    (HasGroupId s → HasGroupId s') ∧ ∀ call ∈ out, call.cont = .checkGroupId → HasGroupId s' := by
  rcases NewGroup.onEvent_cases h with ⟨rfl, hl, -⟩ | ⟨-, -, rfl, rfl⟩ | ⟨r, -, -, hf, rfl, rfl⟩
  · refine ⟨?_, List.forall_mem_nil _⟩
    rw [HasGroupId, HasGroupId, NewGroup.groupId_of_onEvent h, hl]
    exact id
  · exact ⟨id, List.forall_mem_singleton.mpr nofun⟩
  · exact ⟨fun _ => ⟨hf, nofun⟩, fun _ _ _ => ⟨hf, nofun⟩⟩

theorem hasGroupId_answer {s : NewGroup.NewGroupState} (cont : NewGroup.Cont) (a : Answer)
    (r : Draw) (hs : cont = .checkGroupId → HasGroupId s) :
    (HasGroupId s → HasGroupId (NewGroup.onAnswer s cont a r).1) ∧
      ∀ call ∈ (NewGroup.onAnswer s cont a r).2, call.cont = .checkGroupId →
        HasGroupId (NewGroup.onAnswer s cont a r).1 := by
  rcases NewGroup.onAnswer_cases s cont a r with h | ⟨u, -, -, h⟩ | ⟨hc, -, -, h⟩ | ⟨-, -, -, h⟩ <;>
    rw [h]
  · exact ⟨id, List.forall_mem_nil _⟩
  · exact ⟨fun hs => ⟨userIdFound_kept hs.1, hs.2⟩, List.forall_mem_nil _⟩
  · exact ⟨fun hs => ⟨hs.1, nofun⟩, fun _ _ _ => ⟨(hs hc).1, nofun⟩⟩
  · refine ⟨id, ?_⟩
    intro call hc hcont
    rw [NewGroup.saved_cont hc] at hcont
    cases hcont

/-- A press of 'Create an account' sets the name it asks about. -/
theorem named_event {s s' : Login.LoginState} {e : Login.Event} {out : List (Call Login.Cont)}
    (h : Login.program.onEvent s e = some (s', out)) :
    (s.username ≠ none → s'.username ≠ none) ∧
      ∀ call ∈ out, call.cont = .signIn ∨ s'.username ≠ none := by
  obtain ⟨eff, he, rfl⟩ := Registration.program_onEvent h
  refine ⟨Login.onEvent_named he, ?_⟩
  rcases Registration.onEvent_calls he with hnone | ⟨rfl, -⟩ | ⟨-, -, -, hsign⟩
  · rw [hnone]
    exact List.forall_mem_nil _
  · intro _ _
    cases (Login.ran he).2 with
    | pressRegister => exact Or.inr (Option.some_ne_none _)
  · rw [hsign]
    exact List.forall_mem_singleton.mpr (Or.inl rfl)

theorem named_answer {s : Login.LoginState} (cont : Login.Cont) (a : Answer)
    (hs : cont = .checkUsername ∨ cont = .createUser → s.username ≠ none) :
    ∀ call ∈ Login.calls (Login.onAnswer s cont a).2,
      (Login.onAnswer s cont a).1.username ≠ none := by
  intro call hc
  cases cont with
  | checkUsername => exact Login.onAnswer_named _ _ (hs (Or.inl rfl))
  | createUser => exact Login.onAnswer_named _ _ (hs (Or.inr rfl))
  | signIn =>
      rw [Registration.onAnswer_signIn_calls] at hc
      cases hc
  | saveUserData =>
      rw [Registration.onAnswer_save] at hc
      cases hc

theorem relies_ofLogin {p : Page} {c : Login.Cont} (h : Relies (ofLogin p c)) :
    c = .checkUsername ∨ c = .createUser := by
  cases c with
  | checkUsername => exact Or.inl rfl
  | createUser => exact Or.inr rfl
  | signIn | saveUserData => exact h.elim

theorem relies_ofNewGame {p : Page} {c : NewGame.Cont} (h : Relies (ofNewGame p c)) :
    c = .checkGameId := by
  cases c with
  | checkGameId => rfl
  | userIdFound | written => exact h.elim

theorem relies_ofNewGroup {p : Page} {c : NewGroup.Cont} (h : Relies (ofNewGroup p c)) :
    c = .checkGroupId := by
  cases c with
  | checkGroupId => rfl
  | userIdFound | written => exact h.elim

theorem ready_event {page page' : Page} {e : Event} {out : List (Call Cont)}
    (h : onEvent page e = some (page', out)) :
    (Ready page → Ready page') ∧ ∀ call ∈ out, Relies call.cont → Ready page' := by
  cases (raised h).2 with
  | gamePage | search | friends => exact ⟨fun _ => trivial, fun _ _ _ => trivial⟩
  | login hs =>
      obtain ⟨hkeeps, hout⟩ := named_event hs
      refine ⟨hkeeps, ?_⟩
      intro call hc hrelies
      obtain ⟨c, hmem, rfl⟩ := mem_lift.mp hc
      rcases hout c hmem with hsign | hnamed
      · rcases relies_ofLogin hrelies with hcont | hcont <;> rw [hsign] at hcont <;> cases hcont
      · exact hnamed
  | newGame hs =>
      obtain ⟨hkeeps, hout⟩ := hasGameId_event hs
      refine ⟨hkeeps, ?_⟩
      intro call hc hrelies
      obtain ⟨c, hmem, rfl⟩ := mem_lift.mp hc
      exact hout c hmem (relies_ofNewGame hrelies)
  | newGroup hs =>
      obtain ⟨hkeeps, hout⟩ := hasGroupId_event hs
      refine ⟨hkeeps, ?_⟩
      intro call hc hrelies
      obtain ⟨c, hmem, rfl⟩ := mem_lift.mp hc
      exact hout c hmem (relies_ofNewGroup hrelies)

theorem ready_answer {page : Page} {cont : Cont} (a : Answer) (r : Draw)
    (h : Relies cont → Ready page) :
    (Ready page → Ready (onAnswer page cont a r).1) ∧
      ∀ call ∈ (onAnswer page cont a r).2, Relies call.cont → Ready (onAnswer page cont a r).1 := by
  have hcases := answered page cont a r
  revert hcases
  generalize onAnswer page cont a r = res
  obtain ⟨page', out⟩ := res
  intro hcases
  cases hcases with
  | gamePage | search | friends => exact ⟨fun _ => trivial, fun _ _ _ => trivial⟩
  | idle => exact ⟨id, List.forall_mem_nil _⟩
  | login s cont =>
      refine ⟨Login.onAnswer_named cont a, ?_⟩
      intro call hc _
      obtain ⟨c, hmem, rfl⟩ := mem_lift.mp hc
      refine named_answer cont a ?_ c hmem
      rintro (rfl | rfl) <;> exact h trivial
  | @newGame s cont _ hcont =>
      obtain ⟨hkeeps, hout⟩ := hasGameId_answer cont a r fun hc => h (by rw [hcont, hc]; trivial)
      refine ⟨hkeeps, ?_⟩
      intro call hc hrelies
      obtain ⟨c, hmem, rfl⟩ := mem_lift.mp hc
      exact hout c hmem (relies_ofNewGame hrelies)
  | @newGroup s cont _ hcont =>
      obtain ⟨hkeeps, hout⟩ := hasGroupId_answer cont a r fun hc => h (by rw [hcont, hc]; trivial)
      refine ⟨hkeeps, ?_⟩
      intro call hc hrelies
      obtain ⟨c, hmem, rfl⟩ := mem_lift.mp hc
      exact hout c hmem (relies_ofNewGroup hrelies)

/-! ## The writes of a page -/

/-- The only event that writes is 'Next' on a Friends page. -/
theorem event_writes {page page' : Page} {e : Event} {out : List (Call Cont)} {call : Call Cont}
    (h : onEvent page e = some (page', out)) (hc : call ∈ out) (hw : call.req.Writes) :
    ∃ s, page = .friends s ∧ e = .friends .pressNext ∧ page' = page ∧
      call = ⟨.written page, (Friends.addToFireStore s).req⟩ := by
  cases (raised h).2 with
  | login hs =>
      obtain ⟨c, hmem, rfl⟩ := mem_lift.mp hc
      obtain ⟨eff, he, rfl⟩ := Registration.program_onEvent hs
      rcases Registration.onEvent_calls he with hout | ⟨-, hout⟩ | ⟨-, -, -, hout⟩ <;>
        rw [hout] at hmem
      · cases hmem
      · obtain rfl := List.mem_singleton.mp hmem
        exact hw.elim
      · obtain rfl := List.mem_singleton.mp hmem
        exact hw.elim
  | gamePage hs =>
      obtain ⟨c, hmem, rfl⟩ := mem_lift.mp hc
      rcases GamePage.onEvent_cases hs with ⟨-, -, -, rfl⟩ | ⟨-, -, rfl⟩
      · obtain rfl := List.mem_singleton.mp hmem
        exact hw.elim
      · cases hmem
  | newGame hs =>
      obtain ⟨c, hmem, rfl⟩ := mem_lift.mp hc
      rcases NewGame.onEvent_cases hs with ⟨rfl, -⟩ | ⟨-, -, -, -, rfl⟩ | ⟨r, -, -, -, -, rfl⟩
      · cases hmem
      · obtain rfl := List.mem_singleton.mp hmem
        exact hw.elim
      · obtain rfl := List.mem_singleton.mp hmem
        exact hw.elim
  | newGroup hs =>
      obtain ⟨c, hmem, rfl⟩ := mem_lift.mp hc
      rcases NewGroup.onEvent_cases hs with ⟨rfl, -⟩ | ⟨-, -, -, rfl⟩ | ⟨r, -, -, -, -, rfl⟩
      · cases hmem
      · obtain rfl := List.mem_singleton.mp hmem
        exact hw.elim
      · obtain rfl := List.mem_singleton.mp hmem
        exact hw.elim
  | search hs =>
      obtain ⟨c, hmem, rfl⟩ := mem_lift.mp hc
      rcases UserSearch.onEvent_reads hs hmem with rfl | ⟨uid, rfl⟩ <;> exact hw.elim
  | @friends s s' e out hs =>
      obtain ⟨c, hmem, rfl⟩ := mem_lift.mp hc
      obtain ⟨-, -, hout⟩ := Friends.onEvent_cases hs
      rcases hout c hmem with (rfl | rfl | ⟨f, -, rfl⟩) | ⟨rfl, rfl⟩
      · exact hw.elim
      · exact hw.elim
      · exact hw.elim
      · -- 'Next' leaves the page as it was
        have hstays : s' = s := by
          simp only [Friends.onEvent] at hs
          split at hs
          · exact (Prod.mk.inj (Option.some.inj hs)).1.symm
          · cases hs
        rw [hstays]
        exact ⟨s, rfl, rfl, rfl, rfl⟩

/-- `AnswerWrites a page cont page' r`: on the answer `a` the code `cont` of `page` issues the write
`r`, and leaves the page as `page'`. -/
inductive AnswerWrites : Answer → Page → Cont → Page → Request → Prop
  | profile (s : Login.LoginState) (k : String) : AnswerWrites (.uid k) (.login s)
      (.login .createUser) (.login { s with uid := some k })
      (Registration.saveCall k s.email s.username).req
  | game (s : NewGame.NewGameState) (call : Call NewGame.Cont) : call ∈ NewGame.saveGame s →
      AnswerWrites (.documents []) (.newGame s) (.newGame .checkGameId)
        (.newGame { s with gameIdAvailable := true }) call.req
  | group (s : NewGroup.NewGroupState) (call : Call NewGroup.Cont) : call ∈ NewGroup.saved s →
      AnswerWrites (.documents []) (.newGroup s) (.newGroup .checkGroupId)
        (.newGroup { s with gameIdAvailable := true }) call.req
  | friend (s : UserSearch.DisplaySearchState) (profile : Doc) : s.mounted = true →
      AnswerWrites (.snapshot (some profile)) (.search s) (.search .fetch)
        (.search (UserSearch.readProfile profile s))
        (UserSearch.add (UserSearch.readProfile profile s)).req

/-- Every write that is issued on an answer is one of these, and carries the page. -/
theorem answer_writes {page page' : Page} {cont : Cont} {a : Answer} {r : Draw}
    {out : List (Call Cont)} {call : Call Cont} (h : onAnswer page cont a r = (page', out))
    (hc : call ∈ out) (hw : call.req.Writes) :
    AnswerWrites a page cont page' call.req ∧ call.cont = .written page' := by
  have hcases := answered page cont a r
  rw [h] at hcases
  cases hcases with
  | idle => cases hc
  | gamePage s =>
      obtain ⟨c, hmem, rfl⟩ := mem_lift.mp hc
      rcases GamePage.onAnswer_cases s .userIdFound a with h | ⟨u, -, h⟩ <;> rw [h] at hmem <;>
        cases hmem
  | friends s cont =>
      obtain ⟨c, hmem, rfl⟩ := mem_lift.mp hc
      rw [(Friends.onAnswer_cases s cont a).1] at hmem
      cases hmem
  | login s cont =>
      obtain ⟨c, hmem, rfl⟩ := mem_lift.mp hc
      have hmem : c ∈ Login.calls (Login.onAnswer s cont a).2 := hmem
      cases cont with
      | checkUsername =>
          rcases Registration.onAnswer_query_calls s a
            with h | ⟨-, -, -, -, h⟩ | ⟨-, -, -, -, h⟩ <;>
            rw [h] at hmem
          · cases hmem
          · obtain rfl := List.mem_singleton.mp hmem
            exact hw.elim
          · obtain rfl := List.mem_singleton.mp hmem
            exact hw.elim
      | signIn =>
          rw [Registration.onAnswer_signIn_calls] at hmem
          cases hmem
      | saveUserData =>
          rw [Registration.onAnswer_save] at hmem
          cases hmem
      | createUser =>
          rcases Registration.onAnswer_createUser_calls s a with ⟨k, rfl, h⟩ | ⟨-, h⟩ <;>
            rw [h] at hmem
          · obtain rfl := List.mem_singleton.mp hmem
            exact ⟨.profile s k, rfl⟩
          · cases hmem
  | @newGame s cont _ hcont =>
      obtain ⟨c, hmem, rfl⟩ := mem_lift.mp hc
      subst hcont
      rcases NewGame.onAnswer_cases s cont a r with h | ⟨u, -, -, h⟩ | ⟨-, -, -, h⟩ |
        ⟨rfl, -, rfl, h⟩ <;> rw [h] at hmem
      · cases hmem
      · cases hmem
      · obtain rfl := List.mem_singleton.mp hmem
        exact hw.elim
      · rw [NewGame.saveGame_cont hmem, h]
        exact ⟨.game s c hmem, rfl⟩
  | @newGroup s cont _ hcont =>
      obtain ⟨c, hmem, rfl⟩ := mem_lift.mp hc
      subst hcont
      rcases NewGroup.onAnswer_cases s cont a r with h | ⟨u, -, -, h⟩ | ⟨-, -, -, h⟩ |
        ⟨rfl, -, rfl, h⟩ <;> rw [h] at hmem
      · cases hmem
      · cases hmem
      · obtain rfl := List.mem_singleton.mp hmem
        exact hw.elim
      · rw [NewGroup.saved_cont hmem, h]
        exact ⟨.group s c hmem, rfl⟩
  | search s cont =>
      obtain ⟨c, hmem, rfl⟩ := mem_lift.mp hc
      rcases UserSearch.onAnswer_cases s cont a
        with h | ⟨u, -, -, h⟩ | ⟨profile, rfl, rfl, hm, h⟩ <;>
        rw [h] at hmem
      · cases hmem
      · cases hmem
      · obtain rfl := List.mem_singleton.mp hmem
        rw [h]
        exact ⟨.friend s profile hm, rfl⟩

section Reach

variable {B : Backend ι → Prop} {C : PageConfig ι → PageAction ι → Prop} {c : PageConfig ι}

theorem inFlightIssued (h : (pages ι B).Reach C c) : InFlightIssued c := by
  apply Reach.inFlightIssued h
  rintro _ ⟨p, b, -, -, rfl⟩
  exact InFlightIssued.start _ _ _

theorem new_lookup {page : Page} (h : page.New) : (lookup page).userFound = false := by
  cases page with
  | gamePage s | newGame s | newGroup s =>
      obtain rfl : s = {} := h
      rfl
  | login | search | friends => rfl

theorem lookedUp (h : (pages ι B).Reach C c) : LookedUp lookup opened .currentUser c := by
  refine P0ker.lookedUp looksUp h ?_
  rintro _ ⟨p, b, hp, -, rfl⟩
  exact LookedUp.start _ _ fun i => new_lookup (hp i)

/-- A page whose call relies on it is ready. -/
theorem ready (h : (pages ι B).Reach C c) :
    ∀ m ∈ c.issued, Relies m.call.cont → Ready (c.clients m.client) := by
  refine Reach.related (R := fun page call => Relies call.cont → Ready page) h ?_ ?_ ?_
  · rintro _ ⟨p, b, -, -, rfl⟩
    exact ⟨InFlightIssued.start _ _ _, List.forall_mem_nil _⟩
  · intro page e page' out he
    obtain ⟨hkeeps, hout⟩ := ready_event he
    exact ⟨fun _ h hrelies => hkeeps (h hrelies), hout⟩
  · intro page call a r page' out h ha
    obtain ⟨rfl, rfl⟩ := Prod.mk.inj ha
    obtain ⟨hkeeps, hout⟩ := ready_answer a r h
    exact ⟨fun _ h hrelies => hkeeps (h hrelies), hout⟩

end Reach

end P0ker.Pages
