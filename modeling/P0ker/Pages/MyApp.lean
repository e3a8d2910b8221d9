import P0ker.Pages.New
import P0ker.Pages.RootPage
import P0ker.Pages.BottomNav
import P0ker.Pages.Together

/-!
# The app on a device (`main.dart`)

What one device shows and how its pages follow one another: `RootPage` shows the Login page or the
home page, the home page one of three tabs, and over both `Navigator` keeps a stack of pushed pages.
A tab is replaced and a route is popped together with its `State`; the pages below a route stay.

The `State`s built so far are counted, and every call carries the place of the one it belongs to. Of
the search page the variables `_fresh` and `searchBar` belong to its library, not to a `State`.
-/

namespace P0ker.MyApp

open RootPage (RootPageState AuthStatus)
open Dart

/-- The `State` of a page. -/
inductive State where
  | page (page : Pages.Page)
  | new (s : New.NewState)
  deriving DecidableEq

def State.mounted : State → Bool
  | .page p => p.mounted
  | .new s => s.mounted

inductive Kind where
  | login
  | gamePage
  | newGame
  | newGroup
  | search
  | friends
  | new
  deriving DecidableEq

def State.kind : State → Kind
  | .page (.login _) => .login
  | .page (.gamePage _) => .gamePage
  | .page (.newGame _) => .newGame
  | .page (.newGroup _) => .newGroup
  | .page (.search _) => .search
  | .page (.friends _) => .friends
  | .new _ => .new

/-- `_MyHomePageState`, and the place of the tab's `State`; `PageOne` has none worth keeping. -/
structure MyHomePageState where
  currentTab : Nat := 0
  currentPage : BottomNav.Page := .pageOne
  tab : Option Nat := none
  deriving DecidableEq

/-- `login` is the place of the Login page, when the root page shows it; `home` is the home page,
when it shows that; `routes` are the places of the pushed pages, the one on the screen first. -/
structure App where
  launched : Bool := false
  root : RootPageState := {}
  states : List State := []
  login : Option Nat := none
  home : Option MyHomePageState := none
  routes : List Nat := []
  searchBar : Option Nat := none
  fresh : Bool := false
  deriving DecidableEq

/-- The code that runs on an answer: the `then` of `RootPage.initState`, or code of a page. -/
inductive Cont where
  | root
  | state (place : Nat) (cont : Pages.Cont)
  deriving DecidableEq

/-! ## Running the code of a `State` -/

/-- A search page with its library's `_fresh`. -/
def withFresh (fresh : Bool) : Pages.Page → Pages.Page
  | .search s => .search { s with fresh := fresh }
  | page => page

/-- `_fresh` after code of the page has run. -/
def freshAfter (fresh : Bool) : Pages.Page → Bool
  | .search s => s.fresh
  | _ => fresh

/-- The calls of the `State` in a place. -/
def calls (place : Nat) (out : List (Call Pages.Cont)) : List (Call Cont) :=
  out.map fun c => ⟨.state place c.cont, c.req⟩

/-- The page in a place has run a handler. -/
def ran (app : App) (place : Nat) (r : Pages.Page × List (Call Pages.Cont)) :
    App × List (Call Cont) :=
  ({ app with fresh := freshAfter app.fresh r.1, states := app.states.set place (.page r.1) },
    calls place r.2)

/-- The calls of a New page. -/
def newCalls (out : List (Call New.Cont)) : List (Call Pages.Cont) :=
  out.map fun c => ⟨.currentUser, c.req⟩

/-- The clock, which only a new NewGame page reads. -/
structure Now where
  date : DateTime := {}
  time : TimeOfDay := {}
  deriving DecidableEq

/-- `initState`, of the pages that have one. -/
def initEvent (now : Now) : Pages.Page → Option Pages.Event
  | .login _ => none
  | .gamePage _ => some (.gamePage .initState)
  | .newGame _ => some (.newGame (.initState now.date now.time))
  | .newGroup _ => some (.newGroup .initState)
  | .search _ => some (.search .initState)
  | .friends _ => some (.friends .initState)

def initState (now : Now) : State → State × List (Call Pages.Cont)
  | .page page =>
      match (initEvent now page).bind (Pages.onEvent page) with
      | some (page', out) => (.page page', out)
      | none => (.page page, [])
  | .new s =>
      match New.onEvent s .initState with
      | some (s', out) => (.new s', newCalls out)
      | none => (.new s, [])

/-- `createState` and `initState`. -/
def create (app : App) (now : Now) (state : State) : App × List (Call Cont) :=
  let r := initState now state
  ({ app with states := app.states ++ [r.1] }, calls app.states.length r.2)

/-- `dispose`. -/
def State.disposed : State → State
  | .page (.login s) => .page (.login { s with mounted := false })
  | .page (.gamePage s) => .page (.gamePage { s with mounted := false })
  | .page (.newGame s) => .page (.newGame { s with mounted := false })
  | .page (.newGroup s) => .page (.newGroup { s with mounted := false })
  | .page (.search s) => .page (.search { s with mounted := false })
  | .page (.friends s) => .page (.friends { s with mounted := false })
  | .new s => .new { s with mounted := false }

/-- The `State` in a place, if there is one, is disposed. -/
def dispose (app : App) (place : Option Nat) : App :=
  match place with
  | some n => { app with states := app.states.modify n State.disposed }
  | none => app

/-! ## Navigation -/

/-- `Navigator.push`. -/
def push (app : App) (now : Now) (state : State) : App × List (Call Cont) :=
  let r := create app now state
  ({ r.1 with routes := app.states.length :: app.routes }, r.2)

/-- `Navigator.pop`. -/
def pop (app : App) : Option App :=
  match app.routes with
  | n :: routes => some { dispose app (some n) with routes := routes }
  | [] => none

/-- The place of the tab on the home page. -/
def tab (app : App) : Option Nat :=
  app.home.bind (·.tab)

/-- The place of the page on the screen. -/
def screen (app : App) : Option Nat :=
  match app.routes with
  | n :: _ => some n
  | [] => if app.home = none then app.login else tab app

/-- The root page shows a new Login page. -/
def showLogin (app : App) : App × List (Call Cont) :=
  let r := create app {} (.page (.login {}))
  ({ r.1 with login := some app.states.length, home := none }, r.2)

/-- The root page shows a new home page. -/
def showHome (app : App) : App :=
  { app with login := none, home := some {} }

/-- The next frame of the root page. -/
def build (app : App) : App × List (Call Cont) :=
  match app.root.authStatus with
  | .signedIn =>
      if app.home = none then (showHome (dispose app app.login), []) else (app, [])
  | .notSignedIn =>
      if app.login = none then showLogin (dispose app (tab app)) else (app, [])

/-- The home page shows a new tab. -/
def showTab (app : App) (index : Nat) : BottomNav.Page → App × List (Call Cont)
  | .pageOne => ({ app with home := some ⟨index, .pageOne, none⟩ }, [])
  | .gamePage =>
      let r := create app {} (.page (.gamePage {}))
      ({ r.1 with home := some ⟨index, .gamePage, some app.states.length⟩ }, r.2)
  | .displaySearch =>
      -- the constructor of the `State` sets `searchBar`
      let r := create app {} (.page (.search { fresh := app.fresh }))
      ({ r.1 with
          home := some ⟨index, .displaySearch, some app.states.length⟩
          searchBar := some app.states.length }, r.2)

/-- A tap on the bar at the bottom; a pushed page covers it. -/
def onTap (app : App) (index : Nat) : Option (App × List (Call Cont)) :=
  match app.routes, app.home, BottomNav.pages[index]? with
  | [], some home, some page =>
      if page = home.currentPage then
        some ({ app with home := some { home with currentTab := index } }, [])
      else some (showTab (dispose app home.tab) index page)
  | _, _, _ => none

/-! ## The app as a client program -/

/-- What happens on a page by itself; `initState` and `dispose` come with the navigation. -/
def fromUser : Pages.Event → Bool
  | .login .dispose => false
  | .gamePage _ => false
  | .newGame (.initState _ _) => false
  | .newGame .dispose => false
  | .newGroup .initState => false
  | .newGroup .dispose => false
  | .search .initState => false
  | .search .dispose => false
  | .friends .initState => false
  | .friends .dispose => false
  | _ => true

inductive Event where
  | launch
  | build
  | onTap (index : Nat)
  | page (e : Pages.Event)
  | add
  | tapNewGroup
  | tapNewGame (now : Now)
  | pop
  deriving DecidableEq

/-- The entries of a `State` in the history of the root page's route. -/
def State.historyEntries : State → Nat
  | .page (.search s) => s.historyEntries
  | _ => 0

/-- The place an event of a page goes to: the search field is that of `searchBar`, and the back
button, unless it pops a page, removes the last entry in the history of the route. -/
def target (app : App) : Pages.Event → Option Nat
  | .search .beginSearch => (screen app).bind fun _ => app.searchBar
  | .search (.onSubmitted _) => (screen app).bind fun _ => app.searchBar
  | .search .back =>
      if app.routes = [] then UserSearch.lastEntry State.historyEntries app.states else none
  | _ => screen app

/-- An event of a page. -/
def onPage (app : App) (e : Pages.Event) : Option (App × List (Call Cont)) :=
  match target app e with
  | some n =>
      match app.states[n]? with
      | some (.page page) => (Pages.onEvent (withFresh app.fresh page) e).map (ran app n)
      | _ => none
  | none => none

/-- The `State` on the screen. -/
def shown (app : App) : Option State :=
  (screen app).bind fun n => app.states[n]?

def onEvent (app : App) : Event → Option (App × List (Call Cont))
  | .launch =>
      if app.launched then none
      else
        let r := showLogin { app with launched := true }
        some (r.1, ⟨.root, .currentUser⟩ :: r.2)
  | .build => if app.launched then some (build app) else none
  | .onTap index => onTap app index
  | .page e =>
      if fromUser e then
        match e with
        | .newGroup (.pressCreate _) =>
            (onPage app e).map fun r =>
              let r' := push r.1 {} (.page (.friends {}))
              (r'.1, r.2 ++ r'.2)
        | _ => onPage app e
      else none
  | .add =>
      match shown app with
      | some (.page (.gamePage s)) => if s.userFound then some (push app {} (.new {})) else none
      | _ => none
  | .tapNewGroup =>
      match shown app with
      | some (.new s) =>
          if .newGroup ∈ New.setScreen s then some (push app {} (.page (.newGroup {}))) else none
      | _ => none
  | .tapNewGame now =>
      match shown app with
      | some (.new s) =>
          if .newGame ∈ New.setScreen s then some (push app now (.page (.newGame {}))) else none
      | _ => none
  | .pop => (pop app).map fun app => (app, [])

/-- `onSignIn`, when the code of a Login page calls it. -/
def signsIn (page : Pages.Page) (cont : Pages.Cont) (a : Answer) : Bool :=
  match page, cont with
  | .login s, .login cont => decide (.onSignIn ∈ (Login.onAnswer s cont a).2)
  | _, _ => false

def onAnswer (app : App) (cont : Cont) (a : Answer) (r : Draw) : App × List (Call Cont) :=
  match cont with
  | .root =>
      match a with
      | .user userId => ({ app with root := RootPage.currentUserFound userId app.root }, [])
      | _ => (app, [])
  | .state n cont =>
      match app.states[n]? with
      | some (.page page) =>
          let app' :=
            if signsIn page cont a then
              { app with root := RootPage.updateAuthStatus .signedIn app.root }
            else app
          ran app' n (Pages.onAnswer (withFresh app.fresh page) cont a r)
      | some (.new s) =>
          match cont with
          | .currentUser =>
              ({ app with states := app.states.set n (.new (New.onAnswer s .userIdFound a).1) },
                calls n (newCalls (New.onAnswer s .userIdFound a).2))
          | _ => (app, [])
      | none => (app, [])

def program : Async.Program App Event Draw (Call Cont) Answer where
  onEvent := onEvent
  onAnswer app c a r := onAnswer app c.cont a r

end P0ker.MyApp
