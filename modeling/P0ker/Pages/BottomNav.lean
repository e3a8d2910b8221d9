import P0ker.Pages.UserSearch

/-!
# The home page (`bottom_nav.dart`)

`MyHomePage` shows one of three pages, and a tap on the bar at the bottom chooses which. The page
that is left is disposed, and the page that is entered gets a new `State`; a tap on the item of the
page on the screen leaves that page alone.

Two variables of the search page are variables of its library: `_fresh` and `searchBar` outlive
every `State` of it, while `_queryText` begins anew with each. The constructor of a `State` sets
`searchBar`, so what is submitted goes to the `State` that was built last. The history of the route
outlives them too: it keeps the entry of a search field that is left open.
-/

namespace P0ker.BottomNav

open UserSearch (DisplaySearchState)

/-- The pages `one`, `two` and `three`. -/
inductive Page where
  | pageOne
  | gamePage
  | displaySearch
  deriving DecidableEq

def pages : List Page := [.pageOne, .gamePage, .displaySearch]

/-- `_MyHomePageState`, with the variables `searchBar` and `_fresh` of the search page's library.
The bar is told by the `State` it submits to; `searches` are the `State`s of the search page so far,
the last one being the one on the screen, unless it has been disposed. -/
structure MyHomePageState where
  currentTab : Nat := 0
  currentPage : Page := .pageOne
  searchBar : Option Nat := none
  fresh : Bool := false
  searches : List DisplaySearchState := []
  deriving DecidableEq

/-- The code that runs on an answer, and the `State` it belongs to. -/
structure Cont where
  page : Nat
  cont : UserSearch.Cont
  deriving DecidableEq

/-- The `n`-th search page has run a handler. -/
def searchRan (s : MyHomePageState) (n : Nat)
    (r : DisplaySearchState × List (Call UserSearch.Cont)) : MyHomePageState × List (Call Cont) :=
  ({ s with fresh := r.1.fresh, searches := s.searches.set n r.1 },
    r.2.map fun c => ⟨⟨n, c.cont⟩, c.req⟩)

/-- The interface raises `e` on the `n`-th search page, which sees the library's `_fresh`. -/
def onSearch (s : MyHomePageState) (n : Nat) (e : UserSearch.Event) :
    Option (MyHomePageState × List (Call Cont)) :=
  match s.searches[n]? with
  | some d => (UserSearch.onEvent { d with fresh := s.fresh } e).map (searchRan s n)
  | none => none

/-! ## The screen -/

/-- The place of the search page that was built last. -/
def lastSearch (s : MyHomePageState) : Nat := s.searches.length - 1

/-- The search page, when it is on the screen; it sees the library's `_fresh`. -/
def shown (s : MyHomePageState) : Option DisplaySearchState :=
  if s.currentPage = .displaySearch then
    s.searches[lastSearch s]?.map fun d => { d with fresh := s.fresh }
  else none

/-! ## The bar -/

/-- Off the page on the screen. -/
def leave (s : MyHomePageState) : MyHomePageState :=
  { s with searches := s.searches.map fun d => { d with mounted := false } }

/-- `createState` of the search page. -/
def createState (s : MyHomePageState) : MyHomePageState :=
  { s with searchBar := some s.searches.length, searches := s.searches ++ [{}] }

/-- Onto a new search page. -/
def enter (s : MyHomePageState) : Option (MyHomePageState × List (Call Cont)) :=
  onSearch (createState s) s.searches.length .initState

/-- A tap on the bar. -/
def onTap (s : MyHomePageState) (index : Nat) : Option (MyHomePageState × List (Call Cont)) :=
  match pages[index]? with
  | some page =>
      let s' := { s with currentTab := index, currentPage := page }
      if page = s.currentPage then some (s', [])
      else if page = .displaySearch then enter (leave s')
      else some (leave s', [])
  | none => none

/-! ## The page as a client program -/

inductive Event where
  | onTap (index : Nat)
  | search (e : UserSearch.Event)
  deriving DecidableEq

/-- The search page an event goes to. The field is that of the bar; the back button removes the last
entry in the history of the route; `initState` and `dispose` come with the tabs. -/
def target (s : MyHomePageState) : UserSearch.Event → Option Nat
  | .initState | .dispose => none
  | .beginSearch | .onSubmitted _ => if s.currentPage = .displaySearch then s.searchBar else none
  | .back => UserSearch.lastEntry (·.historyEntries) s.searches
  | .build | .snapshot _ | .tapAdd _ =>
      if s.currentPage = .displaySearch then some (lastSearch s) else none

def onEvent (s : MyHomePageState) : Event → Option (MyHomePageState × List (Call Cont))
  | .onTap index => onTap s index
  | .search e => (target s e).bind fun n => onSearch s n e

def onAnswer (s : MyHomePageState) (cont : Cont) (a : Answer) :
    MyHomePageState × List (Call Cont) :=
  match s.searches[cont.page]? with
  | some d => searchRan s cont.page (UserSearch.onAnswer { d with fresh := s.fresh } cont.cont a)
  | none => (s, [])

def program : Async.Program MyHomePageState Event Unit (Call Cont) Answer where
  onEvent := onEvent
  onAnswer s c a _ := onAnswer s c.cont a

/-! ## What the handlers do -/

/-- The search page in place `n` is now `d`. -/
def setSearch (s : MyHomePageState) (n : Nat) (d : DisplaySearchState) : MyHomePageState :=
  { s with fresh := d.fresh, searches := s.searches.set n d }

/-- A new search page is on the screen. -/
def entered (s : MyHomePageState) : MyHomePageState :=
  { s with
    searchBar := some s.searches.length
    searches := s.searches ++ [{ fresh := s.fresh, opened := true }] }

/-- `Ran s e s'`: the handler of `e` takes the home page from `s` to `s'`. -/
inductive Ran (s : MyHomePageState) : Event → MyHomePageState → Prop
  | stays (index : Nat) : pages[index]? = some s.currentPage →
      Ran s (.onTap index) { s with currentTab := index }
  | leaves (index : Nat) (page : Page) : pages[index]? = some page → page ≠ s.currentPage →
      page ≠ .displaySearch →
      Ran s (.onTap index) (leave { s with currentTab := index, currentPage := page })
  | enters (index : Nat) : pages[index]? = some .displaySearch → s.currentPage ≠ .displaySearch →
      Ran s (.onTap index)
        (entered (leave { s with currentTab := index, currentPage := .displaySearch }))
  | searches (e : UserSearch.Event) (n : Nat) (d d' : DisplaySearchState)
      (out : List (Call UserSearch.Cont)) : target s e = some n → s.searches[n]? = some d →
      UserSearch.Ran { d with fresh := s.fresh } e d' out → Ran s (.search e) (setSearch s n d')

theorem onSearch_eq {s s' : MyHomePageState} {n : Nat} {e : UserSearch.Event}
    {out : List (Call Cont)} (h : onSearch s n e = some (s', out)) :
    ∃ d r, s.searches[n]? = some d ∧ UserSearch.onEvent { d with fresh := s.fresh } e = some r ∧
      s' = setSearch s n r.1 := by
  simp only [onSearch] at h
  split at h
  · next d hd =>
      obtain ⟨r, hr, heq⟩ := Option.map_eq_some_iff.mp h
      exact ⟨d, r, hd, hr, (congrArg Prod.fst heq).symm⟩
  · cases h

/-- The new page looks up the user. -/
theorem enter_eq (s : MyHomePageState) : enter s =
    some (entered s, [⟨⟨s.searches.length, .getCurrentUser⟩, .currentUser⟩]) := by
  have hnew : (createState s).searches[s.searches.length]? = some {} := List.getElem?_concat_length
  simp only [enter, onSearch, hnew]
  simp [UserSearch.onEvent, searchRan, entered, createState]

theorem ran {s s' : MyHomePageState} {e : Event} {out : List (Call Cont)}
    (h : onEvent s e = some (s', out)) : Ran s e s' := by
  cases e with
  | onTap index =>
      simp only [onEvent, onTap] at h
      split at h
      · next page hpage =>
          split at h
          · next hsame =>
              subst hsame
              obtain ⟨rfl, -⟩ := Prod.mk.inj (Option.some.inj h)
              exact Ran.stays index hpage
          · next hne =>
              split at h
              · next hsearch =>
                  subst hsearch
                  rw [enter_eq] at h
                  obtain ⟨rfl, -⟩ := Prod.mk.inj (Option.some.inj h)
                  exact Ran.enters index hpage (Ne.symm hne)
              · next hother =>
                  obtain ⟨rfl, -⟩ := Prod.mk.inj (Option.some.inj h)
                  exact Ran.leaves index page hpage hne hother
      · cases h
  | search e =>
      obtain ⟨n, hn, h⟩ := Option.bind_eq_some_iff.mp h
      obtain ⟨d, r, hd, hr, rfl⟩ := onSearch_eq h
      exact Ran.searches e n d r.1 r.2 hn hd (UserSearch.ran hr)

/-- An answer runs on the search page it belongs to. -/
theorem onAnswer_cases (s : MyHomePageState) (cont : Cont) (a : Answer) :
    onAnswer s cont a = (s, []) ∨ ∃ d, s.searches[cont.page]? = some d ∧
      (onAnswer s cont a).1 =
        setSearch s cont.page (UserSearch.onAnswer { d with fresh := s.fresh } cont.cont a).1 := by
  unfold onAnswer
  split
  · next d hd => exact Or.inr ⟨d, hd, rfl⟩
  · exact Or.inl rfl

end P0ker.BottomNav
