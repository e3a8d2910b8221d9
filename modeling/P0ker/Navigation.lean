import P0ker.Pages.MyApp
import P0ker.Disposed
import P0ker.GateSafety

/-!
# Which pages are there

The pages of a device are reached in fixed ways, and a page is there exactly as long as it is the
Login page, the tab or a route. `navigation` says so of every state of the app: the answers that
still come home, the frames in which the root page changes its mind below pushed pages, and the
taps, in any order.
-/

namespace P0ker.Navigation

open Async MyApp

/-! ## Places and who holds them -/

/-- The places of the `State`s that are there, each once. -/
structure Held (alive : List Bool) (places : List Nat) : Prop where
  nodup : places.Nodup
  mem : ∀ n, n ∈ places ↔ alive[n]? = some true

theorem Held.lt {alive : List Bool} {places : List Nat} (h : Held alive places) {n : Nat}
    (hn : n ∈ places) : n < alive.length :=
  (List.getElem?_eq_some_iff.mp ((h.mem n).mp hn)).1

theorem Held.perm {alive : List Bool} {places places' : List Nat} (h : Held alive places)
    (hp : places.Perm places') : Held alive places' where
  nodup := hp.nodup_iff.mp h.nodup
  mem n := hp.mem_iff.symm.trans (h.mem n)

/-- A new `State` gets a place nobody holds. -/
theorem Held.create {alive : List Bool} {places : List Nat} (h : Held alive places) :
    Held (alive ++ [true]) (alive.length :: places) where
  nodup := List.nodup_cons.mpr ⟨fun hn => Nat.lt_irrefl _ (h.lt hn), h.nodup⟩
  mem n := by
    rw [List.mem_cons, h.mem, List.getElem?_append]
    split
    · next hlt =>
        constructor
        · rintro (rfl | hn)
          · exact absurd hlt (Nat.lt_irrefl _)
          · exact hn
        · exact Or.inr
    · next hle =>
        constructor
        · rintro (rfl | hn)
          · rw [Nat.sub_self]
            rfl
          · exact absurd (List.getElem?_eq_some_iff.mp hn).1 hle
        · intro hn
          have hlt := (List.getElem?_eq_some_iff.mp hn).1
          have hone : n - alive.length < 1 := hlt
          exact Or.inl (by omega)

/-- A `State` that is disposed gives its place up. -/
theorem Held.dispose {alive : List Bool} {n : Nat} {places : List Nat}
    (h : Held alive (n :: places)) : Held (alive.set n false) places where
  nodup := (List.nodup_cons.mp h.nodup).2
  mem m := by
    have hn := (List.nodup_cons.mp h.nodup).1
    rw [List.getElem?_set]
    split
    · next heq =>
        subst heq
        refine iff_of_false hn ?_
        split
        · intro hfalse
          cases hfalse
        · intro hnone
          cases hnone
    · next hne =>
        rw [← h.mem m, List.mem_cons]
        exact ⟨Or.inr, fun hm => hm.resolve_left (Ne.symm hne)⟩

/-! ## The shape of the app -/

def kinds (app : App) : List Kind :=
  app.states.map State.kind

def alive (app : App) : List Bool :=
  app.states.map State.mounted

/-- The places that the root page and the navigator hold. -/
def tree (app : App) : List Nat :=
  app.login.toList ++ (tab app).toList ++ app.routes

/-- What can be pushed over what. -/
def routeStacks : List (List Kind) :=
  [[], [.new], [.newGroup, .new], [.newGame, .new], [.friends, .newGroup, .new]]

/-- The tab is the page of the item that is lit, and the search bar belongs to it. -/
def TabShown (app : App) (home : MyHomePageState) : Prop :=
  BottomNav.pages[home.currentTab]? = some home.currentPage ∧
    match home.currentPage with
    | .pageOne => home.tab = none
    | .gamePage => ∃ n, home.tab = some n ∧ (kinds app)[n]? = some .gamePage
    | .displaySearch => ∃ n, home.tab = some n ∧ (kinds app)[n]? = some .search ∧
        app.searchBar = some n

/-- An app that has been launched. -/
structure Shown (app : App) : Prop where
  launched : app.launched = true
  base : app.login = none ↔ app.home ≠ none
  login : ∀ n, app.login = some n → (kinds app)[n]? = some .login
  home : ∀ home, app.home = some home → TabShown app home
  routes : ∃ stack ∈ routeStacks, app.routes.map (fun n => (kinds app)[n]?) = stack.map some
  held : Held (alive app) (tree app)

/-! ## What the handlers do to it -/

theorem kind_initState (now : Now) (state : State) : (initState now state).1.kind = state.kind := by
  cases state with
  | new s =>
      simp only [initState]
      split <;> rfl
  | page p =>
      simp only [initState]
      split
      · next page' out h =>
          obtain ⟨e, -, he⟩ := Option.bind_eq_some_iff.mp h
          cases (Pages.raised he).2 <;> rfl
      · rfl

theorem mounted_initState (now : Now) (state : State) :
    (initState now state).1.mounted = state.mounted := by
  cases state with
  | new s =>
      simp only [initState, New.onEvent]
      split
      · next h =>
          split at h
          · cases h
          · obtain ⟨rfl, -⟩ := Prod.mk.inj (Option.some.inj h)
            rfl
      · rfl
  | page p =>
      simp only [initState]
      split
      · next page' out h =>
          obtain ⟨e, hwhich, he⟩ := Option.bind_eq_some_iff.mp h
          have hnot : Disposed.disposes e = false := by
            cases p <;> cases hwhich <;> rfl
          rcases (Disposed.event_mounted he).2 with ⟨hd, -, -⟩ | ⟨-, hstays⟩
          · rw [hnot] at hd
            cases hd
          · exact hstays
      · rfl

theorem kind_disposed (s : State) : s.disposed.kind = s.kind := by
  rcases s with p | s
  · cases p <;> rfl
  · rfl

theorem mounted_disposed (s : State) : s.disposed.mounted = false := by
  rcases s with p | s
  · cases p <;> rfl
  · rfl

section Fields

variable (app : App) (now : Now) (state : State)

theorem kinds_create : kinds (create app now state).1 = kinds app ++ [state.kind] := by
  simp [kinds, create, kind_initState]

theorem alive_create : alive (create app now state).1 = alive app ++ [state.mounted] := by
  simp [alive, create, mounted_initState]

theorem length_alive : (alive app).length = app.states.length := by
  rw [alive, List.length_map]

theorem kinds_dispose (place : Option Nat) : kinds (dispose app place) = kinds app := by
  cases place with
  | none => rfl
  | some n =>
      simp only [kinds, dispose]
      refine List.ext_getElem? fun m => ?_
      simp only [List.getElem?_map, List.getElem?_modify]
      cases app.states[m]? with
      | none => rfl
      | some s =>
          simp only [Option.map_some]
          split
          · exact congrArg some (kind_disposed s)
          · rfl

theorem alive_dispose (n : Nat) : alive (dispose app (some n)) = (alive app).set n false := by
  simp only [alive, dispose]
  refine List.ext_getElem? fun m => ?_
  rw [List.getElem?_map, List.getElem?_modify, List.getElem?_set, List.length_map]
  by_cases hm : n = m
  · subst hm
    cases hs : app.states[n]? with
    | none =>
        have hout := List.getElem?_eq_none_iff.mp hs
        simp [Nat.not_lt.mpr hout]
    | some s =>
        have hin := (List.getElem?_eq_some_iff.mp hs).1
        simp [hin, mounted_disposed]
  · cases hs : app.states[m]? <;> simp [hm, hs]

end Fields

theorem kinds_ran {app : App} {n : Nat} {page : Pages.Page}
    {r : Pages.Page × List (Call Pages.Cont)} (hn : app.states[n]? = some (.page page))
    (hkind : (State.page r.1).kind = (State.page page).kind) :
    kinds (ran app n r).1 = kinds app := by
  simp only [kinds, ran]
  exact AuthGate.map_set_same State.kind hn hkind

theorem alive_ran {app : App} {n : Nat} {page : Pages.Page}
    {r : Pages.Page × List (Call Pages.Cont)}
    (hn : app.states[n]? = some (.page page)) (hmounted : r.1.mounted = page.mounted) :
    alive (ran app n r).1 = alive app := by
  simp only [alive, ran]
  exact AuthGate.map_set_same State.mounted hn hmounted

/-! ## Moves that keep the shape -/

/-- The app shows the same pages. -/
structure SamePages (app app' : App) : Prop where
  launched : app'.launched = app.launched
  login : app'.login = app.login
  home : app'.home = app.home
  routes : app'.routes = app.routes
  searchBar : app'.searchBar = app.searchBar
  kinds : kinds app' = kinds app
  alive : alive app' = alive app

theorem Shown.same {app app' : App} (h : Shown app) (hs : SamePages app app') : Shown app' where
  launched := hs.launched.trans h.launched
  base := by rw [hs.login, hs.home]; exact h.base
  login := by rw [hs.login, hs.kinds]; exact h.login
  home := by
    rw [hs.home]
    intro home hhome
    have hshown := h.home home hhome
    unfold TabShown at hshown ⊢
    rwa [hs.kinds, hs.searchBar]
  routes := by rw [hs.routes, hs.kinds]; exact h.routes
  held := by
    have htree : tree app' = tree app := by simp only [tree, tab, hs.login, hs.home, hs.routes]
    rw [htree, hs.alive]
    exact h.held

/-- What is at a place stays there when places are added. -/
theorem kindAt_append {ks more : List Kind} {n : Nat} {k : Kind} (h : ks[n]? = some k) :
    (ks ++ more)[n]? = some k := by
  rw [List.getElem?_append_left (List.getElem?_eq_some_iff.mp h).1, h]

theorem TabShown.append {app app' : App} {home : MyHomePageState} (h : TabShown app home)
    (more : List Kind) (hkinds : kinds app' = kinds app ++ more)
    (hbar : app'.searchBar = app.searchBar) : TabShown app' home := by
  unfold TabShown at h ⊢
  rw [hkinds, hbar]
  refine ⟨h.1, ?_⟩
  have htab := h.2
  revert htab
  cases home.currentPage with
  | pageOne => exact id
  | gamePage =>
      rintro ⟨n, hn, hk⟩
      exact ⟨n, hn, kindAt_append hk⟩
  | displaySearch =>
      rintro ⟨n, hn, hk, hb⟩
      exact ⟨n, hn, kindAt_append hk, hb⟩

/-- The pages of the routes stay what they are when places are added. -/
theorem routes_append {ks more : List Kind} {routes : List Nat} {stack : List Kind}
    (h : routes.map (fun n => ks[n]?) = stack.map some) :
    routes.map (fun n => (ks ++ more)[n]?) = stack.map some := by
  rw [← h]
  refine List.map_congr_left fun n hn => ?_
  have hmem : ks[n]? ∈ stack.map some := h ▸ List.mem_map_of_mem hn
  obtain ⟨k, -, hk⟩ := List.mem_map.mp hmem
  rw [← hk]
  exact kindAt_append hk.symm

theorem Shown.pushed {app : App} {now : Now} {state : State} (h : Shown app)
    (hmounted : state.mounted = true) {stack : List Kind}
    (hroutes : app.routes.map (fun n => (kinds app)[n]?) = stack.map some)
    (hstack : state.kind :: stack ∈ routeStacks) : Shown (push app now state).1 := by
  have hkinds : kinds (push app now state).1 = kinds app ++ [state.kind] :=
    kinds_create app now state
  have halive : alive (push app now state).1 = alive app ++ [true] :=
    hmounted ▸ alive_create app now state
  refine ⟨h.launched, h.base, ?_, ?_, ⟨_, hstack, ?_⟩, ?_⟩
  · intro n hn
    rw [hkinds]
    exact kindAt_append (h.login n hn)
  · intro home hhome
    exact (h.home home hhome).append _ hkinds rfl
  · rw [hkinds]
    show (app.states.length :: app.routes).map _ = _
    rw [List.map_cons, List.map_cons, routes_append hroutes]
    congr 1
    have hlength : app.states.length = (kinds app).length := (List.length_map _).symm
    rw [hlength, List.getElem?_concat_length]
  · rw [halive]
    have hheld := h.held.create
    rw [length_alive] at hheld
    exact hheld.perm List.perm_middle.symm

theorem Shown.popped {app app' : App} (h : Shown app) (hpop : pop app = some app') :
    Shown app' := by
  unfold pop at hpop
  split at hpop
  · next n routes hroutes =>
      obtain rfl := Option.some.inj hpop
      have hkinds : kinds { dispose app (some n) with routes := routes } = kinds app :=
        kinds_dispose app (some n)
      refine ⟨h.launched, h.base, ?_, ?_, ?_, ?_⟩
      · rw [hkinds]
        exact h.login
      · intro home hhome
        exact (h.home home hhome).append [] (hkinds.trans (List.append_nil _).symm) rfl
      · obtain ⟨stack, hstack, hmap⟩ := h.routes
        rw [hroutes, List.map_cons] at hmap
        cases stack with
        | nil => cases hmap
        | cons k stack =>
            refine ⟨stack, ?_, ?_⟩
            · -- what is left of a stack is a stack
              revert hstack
              unfold routeStacks
              simp only [List.mem_cons, List.cons.injEq, reduceCtorEq, false_or, List.not_mem_nil,
                or_false]
              rintro (⟨-, rfl⟩ | ⟨-, rfl⟩ | ⟨-, rfl⟩ | ⟨-, rfl⟩) <;> simp
            · rw [hkinds]
              exact (List.cons.inj hmap).2
      · have halive : alive { dispose app (some n) with routes := routes } =
            (alive app).set n false := alive_dispose app n
        rw [halive]
        have htree : tree app = app.login.toList ++ (tab app).toList ++ n :: routes := by
          rw [tree, hroutes]
        refine Held.dispose (h.held.perm ?_)
        rw [htree]
        exact List.perm_middle
  · cases hpop

/-- What holds the first places is disposed. -/
theorem held_dispose {app : App} {place : Option Nat} {places : List Nat}
    (h : Held (alive app) (place.toList ++ places)) : Held (alive (dispose app place)) places := by
  cases place with
  | none => exact h
  | some n =>
      rw [alive_dispose]
      exact h.dispose

/-- A `State` is created in a place of its own. -/
theorem held_create {app : App} {now : Now} {state : State} {places : List Nat}
    (h : Held (alive app) places) (hmounted : state.mounted = true) :
    Held (alive (create app now state).1) (app.states.length :: places) := by
  rw [alive_create, hmounted, ← length_alive]
  exact h.create

theorem kind_created (app : App) (now : Now) (state : State) :
    (kinds (create app now state).1)[app.states.length]? = some state.kind := by
  have hlength : app.states.length = (kinds app).length := (List.length_map _).symm
  rw [kinds_create, hlength, List.getElem?_concat_length]

theorem length_dispose (app : App) (place : Option Nat) :
    (dispose app place).states.length = app.states.length := by
  cases place with
  | none => rfl
  | some n => exact List.length_modify _ _ _

/-- A change of what the root page and the home page show, below the routes. -/
theorem Shown.rebased {app app' : App} (h : Shown app) (more : List Kind)
    (hlaunched : app'.launched = true) (hbase : app'.login = none ↔ app'.home ≠ none)
    (hkinds : kinds app' = kinds app ++ more) (hroutes : app'.routes = app.routes)
    (hlogin : ∀ n, app'.login = some n → (kinds app')[n]? = some .login)
    (hhome : ∀ home, app'.home = some home → TabShown app' home)
    (hheld : Held (alive app') (tree app')) : Shown app' where
  launched := hlaunched
  base := hbase
  login := hlogin
  home := hhome
  routes := by
    obtain ⟨stack, hstack, hmap⟩ := h.routes
    refine ⟨stack, hstack, ?_⟩
    rw [hroutes, hkinds]
    exact routes_append hmap
  held := hheld

/-- Below the routes there is the Login page or the tab. -/
theorem Shown.heldTab {app : App} (h : Shown app) (hlogin : app.login = none) :
    Held (alive app) ((tab app).toList ++ app.routes) := by
  have hheld := h.held
  rwa [tree, hlogin, Option.toList_none, List.nil_append] at hheld

theorem Shown.heldLogin {app : App} (h : Shown app) (hhome : app.home = none) :
    Held (alive app) (app.login.toList ++ app.routes) := by
  have hheld := h.held
  rwa [tree, tab, hhome, Option.bind_none, Option.toList_none, List.append_nil] at hheld

theorem Shown.showLogin {app : App} (h : Shown app) (hlogin : app.login = none) :
    Shown (MyApp.showLogin (dispose app (tab app))).1 := by
  have hfree := held_dispose (h.heldTab hlogin)
  refine h.rebased [.login] ?_ ⟨?_, ?_⟩ ?_ ?_ ?_ ?_ ?_
  · cases tab app <;> exact h.launched
  · intro hnone
    cases hnone
  · intro hhome
    exact absurd rfl hhome
  · exact (kinds_create _ _ _).trans (by rw [kinds_dispose]; rfl)
  · cases tab app <;> rfl
  · intro n hn
    obtain rfl := Option.some.inj hn
    exact kind_created _ _ _
  · intro home hhome
    cases hhome
  · have htree : tree (MyApp.showLogin (dispose app (tab app))).1 =
        (dispose app (tab app)).states.length :: app.routes := by
      cases tab app <;> rfl
    rw [htree]
    exact @held_create _ _ (.page (.login {})) _ hfree rfl

theorem Shown.showHome {app : App} (h : Shown app) (hhome : app.home = none) :
    Shown (MyApp.showHome (dispose app app.login)) := by
  have hfree := held_dispose (h.heldLogin hhome)
  refine h.rebased [] ?_ ⟨?_, ?_⟩ ?_ ?_ ?_ ?_ ?_
  · cases app.login <;> exact h.launched
  · intro _ hnone
    cases hnone
  · intro _
    rfl
  · exact (kinds_dispose app app.login).trans (List.append_nil _).symm
  · cases app.login <;> rfl
  · intro n hn
    cases hn
  · intro home hhome
    obtain rfl := Option.some.inj hhome
    exact ⟨rfl, rfl⟩
  · have htree : tree (MyApp.showHome (dispose app app.login)) = app.routes := by
      cases app.login <;> rfl
    rw [htree]
    exact hfree

theorem Shown.build {app : App} (h : Shown app) : Shown (MyApp.build app).1 := by
  unfold MyApp.build
  split
  · split
    · next hhome => exact h.showHome hhome
    · exact h
  · split
    · next hlogin => exact h.showLogin hlogin
    · exact h

/-- A tab of a page with a `State`. -/
theorem Shown.tabbed {app app' : App} {home : MyHomePageState} {p : Pages.Page} (h : Shown app)
    (index : Nat) (page : BottomNav.Page) (hhome : app.home = some home) (hroutes : app.routes = [])
    (hcreate : app' = { (create (dispose app home.tab) {} (.page p)).1 with
      home := some ⟨index, page, some (dispose app home.tab).states.length⟩
      searchBar := app'.searchBar })
    (hmounted : p.mounted = true) (hshown : TabShown app' ⟨index, page, some app.states.length⟩) :
    Shown app' := by
  have hlogin : app.login = none := h.base.mpr (by rw [hhome]; exact Option.some_ne_none _)
  have htab : tab app = home.tab := by rw [tab, hhome]; rfl
  have hfree : Held (alive (dispose app home.tab)) [] := by
    have hheld := h.heldTab hlogin
    rw [htab, hroutes] at hheld
    exact held_dispose hheld
  have hnow : app'.launched = app.launched ∧ app'.login = app.login ∧ app'.routes = app.routes := by
    rw [hcreate]
    cases home.tab <;> exact ⟨rfl, rfl, rfl⟩
  have hhome' : app'.home = some ⟨index, page, some app.states.length⟩ := by
    rw [hcreate, ← length_dispose app home.tab]
  refine h.rebased [(State.page p).kind] (hnow.1.trans h.launched) ⟨?_, ?_⟩ ?_ hnow.2.2
    ?_ ?_ ?_
  · intro _
    rw [hhome']
    exact Option.some_ne_none _
  · intro _
    exact hnow.2.1.trans hlogin
  · rw [hcreate]
    exact (kinds_create _ _ _).trans (by rw [kinds_dispose])
  · intro n hn
    rw [hnow.2.1, hlogin] at hn
    cases hn
  · intro home' hhome''
    obtain rfl := Option.some.inj (hhome'.symm.trans hhome'')
    exact hshown
  · have htree : tree app' = [(dispose app home.tab).states.length] := by
      rw [tree, tab, hhome', hnow.2.1, hnow.2.2, hlogin, hroutes, length_dispose]
      rfl
    have halive : alive app' = alive (create (dispose app home.tab) {} (.page p)).1 := by
      rw [hcreate]
      rfl
    rw [htree, halive]
    exact held_create hfree hmounted

theorem Shown.showTab {app : App} {home : MyHomePageState} {index : Nat} {page : BottomNav.Page}
    (h : Shown app) (hhome : app.home = some home) (hroutes : app.routes = [])
    (hpage : BottomNav.pages[index]? = some page) :
    Shown (MyApp.showTab (dispose app home.tab) index page).1 := by
  have hlength := length_dispose app home.tab
  have hkind : ∀ state : State,
      (kinds (create (dispose app home.tab) {} state).1)[app.states.length]? = some state.kind := by
    intro state
    rw [← hlength]
    exact kind_created _ _ _
  cases page with
  | pageOne =>
      have hlogin : app.login = none := h.base.mpr (by rw [hhome]; exact Option.some_ne_none _)
      have htab : tab app = home.tab := by rw [tab, hhome]; rfl
      have hfree := held_dispose (htab ▸ h.heldTab hlogin)
      have hnow : (dispose app home.tab).launched = app.launched ∧
          (dispose app home.tab).login = app.login ∧
            (dispose app home.tab).routes = app.routes := by
        cases home.tab <;> exact ⟨rfl, rfl, rfl⟩
      refine h.rebased [] (hnow.1.trans h.launched) ⟨?_, ?_⟩ ?_ hnow.2.2 ?_ ?_ ?_
      · intro _ hnone
        cases hnone
      · intro _
        exact hnow.2.1.trans hlogin
      · exact (kinds_dispose app home.tab).trans (List.append_nil _).symm
      · intro n hn
        rw [show (MyApp.showTab (dispose app home.tab) index .pageOne).1.login = _ from hnow.2.1,
          hlogin] at hn
        cases hn
      · intro home' hhome'
        obtain rfl := Option.some.inj hhome'
        exact ⟨hpage, rfl⟩
      · have htree : tree (MyApp.showTab (dispose app home.tab) index .pageOne).1 = app.routes := by
          show (dispose app home.tab).login.toList ++ [] ++ (dispose app home.tab).routes = _
          rw [hnow.2.1, hnow.2.2, hlogin]
          rfl
        rw [htree]
        exact hfree
  | gamePage =>
      refine h.tabbed index .gamePage hhome hroutes rfl rfl ⟨hpage, _, rfl, ?_⟩
      exact hkind _
  | displaySearch =>
      refine h.tabbed index .displaySearch hhome hroutes rfl rfl
        ⟨hpage, _, rfl, ?_, ?_⟩
      · exact hkind _
      · exact congrArg some hlength

theorem Shown.onTap {app app' : App} {index : Nat} {out : List (Call MyApp.Cont)} (h : Shown app)
    (htap : MyApp.onTap app index = some (app', out)) : Shown app' := by
  simp only [MyApp.onTap] at htap
  split at htap
  · next home page hroutes hhome hpage =>
      split at htap
      · next hsame =>
          obtain ⟨rfl, -⟩ := Prod.mk.inj (Option.some.inj htap)
          subst hsame
          refine h.rebased [] h.launched ⟨?_, ?_⟩ (List.append_nil _).symm rfl h.login ?_ ?_
          · intro _ hnone
            cases hnone
          · intro _
            exact h.base.mpr (by rw [hhome]; exact Option.some_ne_none _)
          · intro home' hhome'
            obtain rfl := Option.some.inj hhome'
            exact ⟨hpage, (h.home home hhome).2⟩
          · have hheld := h.held
            rwa [tree, tab, hhome] at hheld
      · obtain ⟨rfl, -⟩ := Prod.mk.inj (Option.some.inj htap)
        exact h.showTab hhome hroutes hpage
  · cases htap

/-! ## Handlers of the pages -/

theorem withFresh_kind (fresh : Bool) (page : Pages.Page) :
    (State.page (withFresh fresh page)).kind = (State.page page).kind := by
  cases page <;> rfl

theorem withFresh_mounted (fresh : Bool) (page : Pages.Page) :
    (withFresh fresh page).mounted = page.mounted := by
  cases page <;> rfl

theorem disposes_fromUser {e : Pages.Event} (h : fromUser e = true) :
    Disposed.disposes e = false := by
  cases e with
  | login e | gamePage e | newGame e | newGroup e | search e | friends e =>
      cases e <;> first | rfl | cases h

/-- What happens on a page leaves it where it is. -/
theorem stays_event {page page' : Pages.Page} {e : Pages.Event} {out : List (Call Pages.Cont)}
    (h : Pages.onEvent page e = some (page', out)) (huser : fromUser e = true) :
    (State.page page').kind = (State.page page).kind ∧ page'.mounted = page.mounted := by
  refine ⟨by cases (Pages.raised h).2 <;> rfl, ?_⟩
  rcases (Disposed.event_mounted h).2 with ⟨hd, -, -⟩ | ⟨-, hstays⟩
  · rw [disposes_fromUser huser] at hd
    cases hd
  · exact hstays

theorem stays_answer (page : Pages.Page) (cont : Pages.Cont) (a : Answer) (r : Draw) :
    (State.page (Pages.onAnswer page cont a r).1).kind = (State.page page).kind ∧
      (Pages.onAnswer page cont a r).1.mounted = page.mounted := by
  have hanswered := Pages.answered page cont a r
  generalize hres : Pages.onAnswer page cont a r = res at hanswered
  obtain ⟨page', out⟩ := res
  refine ⟨?_, (Disposed.answer_mounted hres).2.1⟩
  cases hanswered <;> rfl

/-- The app has run code of the page in a place. -/
theorem same_ran {app : App} {n : Nat} {page : Pages.Page} {r : Pages.Page × List (Call Pages.Cont)}
    (hn : app.states[n]? = some (.page page))
    (hstays : (State.page r.1).kind = (State.page page).kind ∧ r.1.mounted = page.mounted) :
    SamePages app (ran app n r).1 :=
  ⟨rfl, rfl, rfl, rfl, rfl, kinds_ran hn hstays.1, alive_ran hn hstays.2⟩

theorem onPage_eq {app app' : App} {e : Pages.Event} {out : List (Call Cont)}
    (h : onPage app e = some (app', out)) :
    ∃ n page r, target app e = some n ∧ app.states[n]? = some (.page page) ∧
      Pages.onEvent (withFresh app.fresh page) e = some r ∧ ran app n r = (app', out) := by
  simp only [onPage] at h
  split at h
  · next n htarget =>
      split at h
      · next page hpage =>
          obtain ⟨r, hr, heq⟩ := Option.map_eq_some_iff.mp h
          exact ⟨n, page, r, htarget, hpage, hr, heq⟩
      · cases h
  · cases h

theorem same_onPage {app app' : App} {e : Pages.Event} {out : List (Call Cont)}
    (h : onPage app e = some (app', out)) (huser : fromUser e = true) : SamePages app app' := by
  obtain ⟨n, page, ⟨page', out'⟩, -, hn, he, heq⟩ := onPage_eq h
  obtain ⟨hkind, hmounted⟩ := stays_event he huser
  rw [withFresh_kind] at hkind
  rw [withFresh_mounted] at hmounted
  have hsame := same_ran (r := (page', out')) hn ⟨hkind, hmounted⟩
  rwa [heq] at hsame

/-- The page on the screen, by what is pushed. -/
theorem Shown.held_screen {app : App} (h : Shown app) {n : Nat} (hn : screen app = some n) :
    n ∈ tree app ∧ ∃ state, app.states[n]? = some state ∧ state.mounted = true := by
  have hmem : n ∈ tree app := by
    unfold screen at hn
    unfold tree
    split at hn
    · next routes hroutes =>
        obtain rfl := Option.some.inj hn
        rw [hroutes]
        exact List.mem_append_right _ List.mem_cons_self
    · split at hn
      · rw [hn]
        exact List.mem_append_left _ (List.mem_append_left _ (List.mem_singleton_self n))
      · rw [hn]
        exact List.mem_append_left _ (List.mem_append_right _ (List.mem_singleton_self n))
  refine ⟨hmem, ?_⟩
  have halive := (h.held.mem n).mp hmem
  rw [alive, List.getElem?_map] at halive
  exact Option.map_eq_some_iff.mp halive

/-- Only certain pages are on the screen with certain routes below them. -/
theorem Shown.under {app : App} (h : Shown app) {n : Nat} {state : State} (hn : screen app = some n)
    (hstate : app.states[n]? = some state) :
    (app.routes = [] ∧ (state.kind = .login ∨ state.kind = .gamePage ∨ state.kind = .search)) ∨
      ∃ stack, state.kind :: stack ∈ routeStacks ∧
        app.routes.map (fun n => (kinds app)[n]?) = (state.kind :: stack).map some := by
  have hkind : (kinds app)[n]? = some state.kind := by
    rw [kinds, List.getElem?_map, hstate]
    rfl
  obtain ⟨stack, hstack, hmap⟩ := h.routes
  unfold screen at hn
  split at hn
  · next routes hroutes =>
      obtain rfl := Option.some.inj hn
      refine Or.inr ?_
      rw [hroutes, List.map_cons] at hmap
      cases stack with
      | nil => cases hmap
      | cons k stack =>
          obtain rfl := Option.some.inj (hkind.symm.trans (List.cons.inj hmap).1)
          refine ⟨stack, hstack, ?_⟩
          rw [hroutes, List.map_cons]
          exact hmap
  · next hroutes =>
      refine Or.inl ⟨hroutes, ?_⟩
      split at hn
      · exact Or.inl (Option.some.inj (hkind.symm.trans (h.login n hn)))
      · unfold tab at hn
        obtain ⟨home, hhome, htab⟩ := Option.bind_eq_some_iff.mp hn
        have hshown := (h.home home hhome).2
        revert hshown
        cases home.currentPage with
        | pageOne =>
            intro hnone
            rw [hnone] at htab
            cases htab
        | gamePage =>
            rintro ⟨m, hm, hk⟩
            obtain rfl := Option.some.inj (htab.symm.trans hm)
            exact Or.inr (Or.inl (Option.some.inj (hkind.symm.trans hk)))
        | displaySearch =>
            rintro ⟨m, hm, hk, -⟩
            obtain rfl := Option.some.inj (htab.symm.trans hm)
            exact Or.inr (Or.inr (Option.some.inj (hkind.symm.trans hk)))

/-- What is pushed, and over what. -/
def pushes : List (Kind × Kind) :=
  [(.gamePage, .new), (.new, .newGroup), (.new, .newGame), (.newGroup, .friends)]

theorem mem_pushes {lower pushed : Kind} (h : (lower, pushed) ∈ pushes) :
    (lower = .gamePage ∧ pushed = .new) ∨
    (lower = .new ∧ (pushed = .newGroup ∨ pushed = .newGame)) ∨
      lower = .newGroup ∧ pushed = .friends := by
  simp only [pushes, List.mem_cons, Prod.mk.injEq, List.not_mem_nil, or_false] at h
  tauto

theorem mem_routeStacks_push {lower pushed : Kind} {stack : List Kind}
    (h : (lower, pushed) ∈ pushes)
    (hstack : lower :: stack ∈ routeStacks) : pushed :: lower :: stack ∈ routeStacks := by
  simp only [routeStacks, List.mem_cons, List.cons.injEq, reduceCtorEq, List.not_mem_nil, or_false,
    false_or] at hstack ⊢
  rcases mem_pushes h with ⟨rfl, rfl⟩ | ⟨rfl, rfl | rfl⟩ | ⟨rfl, rfl⟩ <;> simp_all

theorem Shown.pushedOver {app : App} {now : Now} {state top : State} {n : Nat} (h : Shown app)
    (hn : screen app = some n) (htop : app.states[n]? = some top)
    (hpush : (top.kind, state.kind) ∈ pushes) (hmounted : state.mounted = true) :
    Shown (push app now state).1 := by
  rcases h.under hn htop with ⟨hroutes, hbase⟩ | ⟨stack, hstack, hmap⟩
  · -- the only tab with a button is the GamePage
    have hnone : app.routes.map ((kinds app)[·]?) = [].map some := by rw [hroutes]; rfl
    refine h.pushed hmounted hnone ?_
    rcases mem_pushes hpush with ⟨-, hk⟩ | ⟨hk, -⟩ | ⟨hk, -⟩
    · rw [hk]
      decide
    · rw [hk] at hbase
      simp at hbase
    · rw [hk] at hbase
      simp at hbase
  · exact h.pushed hmounted hmap (mem_routeStacks_push hpush hstack)

/-! ## Every event and every answer -/

def eventKind : Pages.Event → Kind
  | .login _ => .login
  | .gamePage _ => .gamePage
  | .newGame _ => .newGame
  | .newGroup _ => .newGroup
  | .search _ => .search
  | .friends _ => .friends

theorem raised_kind {page : Pages.Page} {e : Pages.Event} {r : Pages.Page × List (Call Pages.Cont)}
    (h : Pages.onEvent page e = some r) : (State.page page).kind = eventKind e := by
  obtain ⟨page', out⟩ := r
  cases (Pages.raised h).2 <;> rfl

theorem shown_eq {app : App} {state : State} (h : shown app = some state) :
    ∃ n, screen app = some n ∧ app.states[n]? = some state :=
  Option.bind_eq_some_iff.mp h

/-- A press of 'Create group' pushes a Friends page over the NewGroup page. -/
theorem Shown.pressCreate {app app' : App} {r : Draw} {out : List (Call Cont)} (h : Shown app)
    (he : onPage app (.newGroup (.pressCreate r)) = some (app', out)) :
    Shown (push app' {} (.page (.friends {}))).1 := by
  have hsame := same_onPage he rfl
  obtain ⟨n, page, ⟨page', out'⟩, hscreen, hn, hraised, heq⟩ := onPage_eq he
  have hscreen' : screen app' = some n := by
    rw [← hscreen]
    simp only [target, screen, tab, hsame.routes, hsame.home, hsame.login]
  have hn' : app'.states[n]? = some (.page page') := by
    obtain ⟨rfl, -⟩ := Prod.mk.inj heq
    exact List.getElem?_set_self (List.getElem?_eq_some_iff.mp hn).1
  refine (h.same hsame).pushedOver hscreen' hn' ?_ rfl
  rw [(stays_event hraised rfl).1, raised_kind hraised]
  exact List.mem_of_getElem? (i := 3) rfl

theorem Shown.onEvent {app app' : App} {e : Event} {out : List (Call Cont)} (h : Shown app)
    (he : MyApp.onEvent app e = some (app', out)) : Shown app' := by
  cases e with
  | launch =>
      simp only [MyApp.onEvent, h.launched, if_true, reduceCtorEq] at he
  | build =>
      simp only [MyApp.onEvent, h.launched, if_true, Option.some.injEq] at he
      have hbuild := h.build
      rwa [he] at hbuild
  | onTap index => exact h.onTap he
  | page e =>
      simp only [MyApp.onEvent] at he
      split at he
      · next huser =>
          split at he
          · obtain ⟨⟨app'', out'⟩, hpage, heq⟩ := Option.map_eq_some_iff.mp he
            obtain ⟨rfl, -⟩ := Prod.mk.inj heq
            exact h.pressCreate hpage
          · exact h.same (same_onPage he huser)
      · cases he
  | add =>
      simp only [MyApp.onEvent] at he
      split at he
      · next s hshown =>
          obtain ⟨n, hn, hstate⟩ := shown_eq hshown
          obtain ⟨-, he⟩ := Option.ite_none_right_eq_some.mp he
          obtain ⟨rfl, -⟩ := Prod.mk.inj (Option.some.inj he)
          exact h.pushedOver hn hstate (List.mem_of_getElem? (i := 0) rfl) rfl
      · cases he
  | tapNewGroup =>
      simp only [MyApp.onEvent] at he
      split at he
      · next s hshown =>
          obtain ⟨n, hn, hstate⟩ := shown_eq hshown
          obtain ⟨-, he⟩ := Option.ite_none_right_eq_some.mp he
          obtain ⟨rfl, -⟩ := Prod.mk.inj (Option.some.inj he)
          exact h.pushedOver hn hstate (List.mem_of_getElem? (i := 1) rfl) rfl
      · cases he
  | tapNewGame now =>
      simp only [MyApp.onEvent] at he
      split at he
      · next s hshown =>
          obtain ⟨n, hn, hstate⟩ := shown_eq hshown
          obtain ⟨-, he⟩ := Option.ite_none_right_eq_some.mp he
          obtain ⟨rfl, -⟩ := Prod.mk.inj (Option.some.inj he)
          exact h.pushedOver hn hstate (List.mem_of_getElem? (i := 2) rfl) rfl
      · cases he
  | pop =>
      obtain ⟨app'', hpop, heq⟩ := Option.map_eq_some_iff.mp he
      obtain ⟨rfl, -⟩ := Prod.mk.inj heq
      exact h.popped hpop

theorem same_onAnswer (app : App) (cont : Cont) (a : Answer) (r : Draw) :
    SamePages app (MyApp.onAnswer app cont a r).1 := by
  have hrefl : SamePages app app := ⟨rfl, rfl, rfl, rfl, rfl, rfl, rfl⟩
  cases cont with
  | root =>
      cases a with
      | user userId => exact ⟨rfl, rfl, rfl, rfl, rfl, rfl, rfl⟩
      | documents | snapshot | done | uid | failed => exact hrefl
  | state n cont =>
      simp only [MyApp.onAnswer]
      split
      · next page hn =>
          obtain ⟨hkind, hmounted⟩ := stays_answer (withFresh app.fresh page) cont a r
          rw [withFresh_kind] at hkind
          rw [withFresh_mounted] at hmounted
          split
          · have hran := same_ran hn ⟨hkind, hmounted⟩
            exact ⟨rfl, rfl, rfl, rfl, rfl, hran.kinds, hran.alive⟩
          · exact same_ran hn ⟨hkind, hmounted⟩
      · next s hn =>
          split
          · refine ⟨rfl, rfl, rfl, rfl, rfl, ?_, ?_⟩
            · exact AuthGate.map_set_same State.kind hn rfl
            · refine AuthGate.map_set_same State.mounted hn ?_
              show (New.onAnswer s .userIdFound a).1.mounted = s.mounted
              unfold New.onAnswer
              split <;> rfl
          · exact hrefl
      · exact hrefl

/-- The first frame shows a Login page. -/
theorem shown_launch {app app' : App} {out : List (Call Cont)} (h : app = {})
    (he : MyApp.onEvent app .launch = some (app', out)) : Shown app' := by
  subst h
  simp only [MyApp.onEvent, Bool.false_eq_true, if_false, Option.some.injEq] at he
  obtain ⟨rfl, -⟩ := Prod.mk.inj he
  refine ⟨rfl, ⟨fun hnone => ?_, fun hhome => absurd rfl hhome⟩, ?_, ?_, ⟨[], by decide, rfl⟩, ?_⟩
  · cases hnone
  · intro n hn
    obtain rfl := Option.some.inj hn
    rfl
  · intro home hhome
    cases hhome
  · refine ⟨List.nodup_singleton 0, fun n => ?_⟩
    show n ∈ [0] ↔ [true][n]? = some true
    cases n <;> simp

/-- Before the launch there is nothing to tap. -/
theorem launch_of_onEvent {app' : App} {e : Event} {out : List (Call Cont)}
    (he : MyApp.onEvent {} e = some (app', out)) : e = .launch := by
  cases e with
  | launch => rfl
  | page e =>
      simp only [MyApp.onEvent] at he
      split at he
      · split at he
        · cases he
        · cases e with
          | search e => cases e <;> cases he
          | login | gamePage | newGame | newGroup | friends => cases he
      · cases he
  | build | onTap | add | tapNewGroup | tapNewGame | pop => cases he

/-! ## The devices -/

section Reach

variable {ι : Type} [DecidableEq ι]

abbrev DeviceConfig (ι : Type) := Config ι App (Backend ι) (Call Cont) Answer

abbrev DeviceAction (ι : Type) := Action ι Event Draw Outcome

/-- Devices that run the app over one backend that meets `B`, none of them launched. -/
def devices (ι : Type) [DecidableEq ι] (B : Backend ι → Prop) :
    Machine (DeviceConfig ι) (DeviceAction ι) :=
  Async.system program (firebase ι Cont) fun c => ∃ b, B b ∧ c = Config.start (fun _ => {}) b []

section

variable {B : Backend ι → Prop} {C : DeviceConfig ι → DeviceAction ι → Prop} {c : DeviceConfig ι}

theorem inFlightIssued (h : (devices ι B).Reach C c) : InFlightIssued c := by
  apply Reach.inFlightIssued h
  rintro _ ⟨b, -, rfl⟩
  exact InFlightIssued.start _ _ _

/-- A device is as it was before the launch, or shows pages; and what has issued a call has been
launched. -/
structure Launched (c : DeviceConfig ι) : Prop where
  clients : ∀ i, c.clients i = {} ∨ Shown (c.clients i)
  issued : ∀ m ∈ c.issued, Shown (c.clients m.client)

theorem Launched.post {i : ι} {app : App} {out : List (Call Cont)}
    {cause : List (Call Cont × Answer)} (h : Launched c) (happ : Shown app) :
    Launched (c.post i app out cause) where
  clients j :=
    Config.client_post (p := fun app => app = {} ∨ Shown app) (fun _ => Or.inr happ)
      fun _ => h.clients j
  issued m hm := by
    refine Config.client_post (p := Shown) (fun _ => happ) ?_
    intro hne
    rcases mem_issued_post hm with hm | ⟨call, -, rfl⟩
    · exact h.issued m hm
    · exact absurd rfl hne

theorem launched (h : (devices ι B).Reach C c) : Launched c := by
  refine h.invariant ?_ ?_
  · rintro _ ⟨b, -, rfl⟩
    exact ⟨fun i => Or.inl rfl, List.forall_mem_nil _⟩
  · intro c a c' hr hq _ hs
    refine step_keeps (Q := Launched) hs ?_ (fun _ _ _ _ _ _ _ _ => ⟨hq.clients, hq.issued⟩) ?_
    · intro i e app out _ he
      refine hq.post ?_
      rcases hq.clients i with hnew | hshown
      · rw [hnew] at he
        obtain rfl := launch_of_onEvent he
        exact shown_launch rfl he
      · exact hshown.onEvent he
    · intro k d m r app out _ hk ha
      have hshown := hq.issued m ((inFlightIssued hr).2 _ (List.mem_of_getElem? hk))
      obtain ⟨rfl, -⟩ := Prod.mk.inj ha
      exact Launched.post (c := c.taken k) ⟨hq.clients, hq.issued⟩
        (hshown.same (same_onAnswer _ _ _ _))

end

/-- **The pages that are there.** On every device that has been launched, whatever has been tapped
and whichever answers have come home: the root page shows a Login page or the home page, the tab is
the one that is lit, the routes are one of five; the `State`s that are mounted are those of the
Login page, the tab and the routes, each once; and the page on the screen is one of them. -/
theorem navigation {B : Backend ι → Prop} {c : DeviceConfig ι}
    (h : (devices ι B).Reachable c) (i : ι)
    (hi : (c.clients i).launched = true) : Shown (c.clients i) ∧
      ∀ n, screen (c.clients i) = some n →
        ∃ state, (c.clients i).states[n]? = some state ∧ state.mounted = true := by
  have hshown : Shown (c.clients i) := by
    refine ((launched h).clients i).resolve_left ?_
    intro hnew
    rw [hnew] at hi
    cases hi
  exact ⟨hshown, fun n hn => (hshown.held_screen hn).2⟩

/-! ## A run -/

/-- One device, on which `u1` is signed in. -/
def olaDevice : DeviceConfig Unit :=
  Config.start (fun _ => {}) ⟨∅, ∅, fun _ => some "u1"⟩ []

abbrev anyDevices : Machine (DeviceConfig Unit) (DeviceAction Unit) :=
  devices Unit fun _ => True

/-- The next call is evaluated and its answer handled. -/
def home : List (DeviceAction Unit) :=
  [.serve 0 (.accept ""), .deliver 0 0]

/-- From the launch to the NewGroup page. -/
def toNewGroup : List (DeviceAction Unit) :=
  [.event () .launch] ++ home ++ [.event () .build, .event () (.onTap 1)] ++ home ++
    [.event () .add] ++ home ++ [.event () .tapNewGroup] ++ home

/-- 'Create group' has pushed a Friends page; the Login page of the first frame is gone. -/
theorem navigation_ola : ∃ c : DeviceConfig Unit, anyDevices.run olaDevice
      (toNewGroup ++ [.event () (.page (.newGroup (.pressCreate 7)))]) = some c ∧
    alive (c.clients ()) = [false, true, true, true, true] ∧ Shown (c.clients ()) ∧
      ∀ n, screen (c.clients ()) = some n →
        ∃ state, (c.clients ()).states[n]? = some state ∧ state.mounted = true := by
  have hrun : (anyDevices.run olaDevice (toNewGroup ++
      ([.event () (.page (.newGroup (.pressCreate 7)))] : List (DeviceAction Unit)))).map
        (fun c => ((c.clients ()).launched, alive (c.clients ()))) =
      some (true, [false, true, true, true, true]) := by
    decide +kernel
  obtain ⟨c, hc, hseen⟩ := Option.map_eq_some_iff.mp hrun
  obtain ⟨hlaunched, halive⟩ := Prod.mk.inj hseen
  exact ⟨c, hc, halive, navigation (Machine.Reach.of_follow ⟨_, trivial, rfl⟩ hc) () hlaunched⟩

end Reach

end P0ker.Navigation
