import P0ker.Pages.BottomNav

/-!
# Does the search page always know what it has searched?

`_fresh` says that something has been searched, and belongs to the library; `_queryText` says what,
and belongs to one `State`. A `State` that is built after a search finds `_fresh` set and has no
query: its first build falls into the `catch` of `_fireSearch`. And a `State` that searches again
shows the rows it had before, until the new stream is heard: the `StreamBuilder` keeps its snapshot.

`rendered_iff` says that there is no other way: a run renders the query submitted last and nothing
else if and only if it never comes back to the search page after a search, never submits a text over
the rows of another query, and hears no stream but that of the text submitted last.
-/

namespace P0ker.Query

open Async BottomNav
open UserSearch (DisplaySearchState fireSearch putInBody)

variable {ι : Type} [DecidableEq ι]

abbrev HomeConfig (ι : Type) := Config ι MyHomePageState (Backend ι) (Call Cont) Answer

abbrev HomeAction (ι : Type) := Action ι Event Unit Outcome

/-- The app has just been started on every device. -/
def homeSystem (ι : Type) [DecidableEq ι] : Machine (HomeConfig ι) (HomeAction ι) :=
  Async.system program (firebase ι Cont) (Opening {})

/-! ## What the user has done -/

/-- The tab a user is on, and the query submitted last since it was opened. -/
structure Screen where
  tab : Nat := 0
  query : Option String := none

def Screen.after (v : Screen) : Event → Screen
  | .onTap index => if index = v.tab then v else { tab := index }
  | .search (.onSubmitted value) => { v with query := some value }
  | .search _ => v

/-- The screen of user `i` after the actions. -/
def screen (i : ι) (as : List (HomeAction ι)) : Screen :=
  as.foldl (fun v a => match a with
    | .event j e => if j = i then v.after e else v
    | _ => v) {}

/-- The last query user `i` has submitted to the search page on the screen. -/
def lastQuery (i : ι) (as : List (HomeAction ι)) : Option String :=
  (screen i as).query

/-- Where a search page takes the branch of `_putInBody` that searches, its query is not null, and
the results are those of the query submitted to it last. -/
def Rendered (as : List (HomeAction ι)) (c : HomeConfig ι) : Prop :=
  ∀ i d, shown (c.clients i) = some d → d.fresh = true →
    ∃ q snapshot, lastQuery i as = some q ∧ d.queryText = some q ∧
      putInBody d = some (.results (fireSearch q) snapshot) ∧
      ∀ x ∈ snapshot, fireSearch x.queryText = fireSearch q

/-- The tap does not open the search page once something has been searched; the text is not
submitted over the results of another query; and the stream that is heard is that of the text
submitted last. -/
def Timely (s : MyHomePageState) : Event → Prop
  | .onTap index =>
      pages[index]? = some .displaySearch → s.currentPage ≠ .displaySearch → s.fresh = false
  | .search (.onSubmitted value) =>
      ∀ d ∈ shown s, ∀ x ∈ d.snapshot, fireSearch x.queryText = fireSearch value
  | .search (.snapshot (some _)) =>
      ∀ d ∈ shown s, d.fresh = true → d.stream.map fireSearch = d.queryText.map fireSearch
  | .search _ => True

def TimelyStep (c : HomeConfig ι) : HomeAction ι → Prop
  | .event i e => Timely (c.clients i) e
  | _ => True

instance (s : MyHomePageState) : ∀ e, Decidable (Timely s e)
  | .onTap _ => by unfold Timely; infer_instance
  | .search (.onSubmitted _) => by unfold Timely; infer_instance
  | .search (.snapshot (some _)) => by unfold Timely; infer_instance
  | .search (.snapshot none) | .search .initState | .search .beginSearch | .search .back
  | .search .build | .search (.tapAdd _) | .search .dispose => .isTrue trivial

instance (c : HomeConfig ι) : ∀ a, Decidable (TimelyStep c a)
  | .event _ _ => by unfold TimelyStep; infer_instance
  | .serve _ _ | .deliver _ _ => .isTrue trivial

/-! ## The page and the screen -/

/-- The page shows the tab the user is on. A search page on the screen is the one the bar submits
to, and holds the query submitted to it last. -/
structure Follows (v : Screen) (s : MyHomePageState) : Prop where
  tab : v.tab = s.currentTab
  page : pages[s.currentTab]? = some s.currentPage
  search : s.currentPage = .displaySearch → s.searchBar = some (lastSearch s) ∧
    ∃ d, s.searches[lastSearch s]? = some d ∧ d.queryText = v.query

/-- The search page on the screen knows what was searched, and has heard of nothing else. -/
def Known (v : Screen) (s : MyHomePageState) : Prop :=
  ∀ d, shown s = some d → d.fresh = true →
    ∃ q, v.query = some q ∧ ∀ x ∈ d.snapshot, fireSearch x.queryText = fireSearch q

section Follows

variable {v : Screen} {s s' : MyHomePageState} {e : Event}

theorem lastSearch_setSearch (s : MyHomePageState) (n : Nat) (d : DisplaySearchState) :
    lastSearch (setSearch s n d) = lastSearch s := by
  rw [lastSearch, setSearch, List.length_set, lastSearch]

theorem lastSearch_entered (s : MyHomePageState) :
    lastSearch (entered s) = s.searches.length := by
  rw [lastSearch, entered, List.length_append, List.length_singleton, Nat.add_sub_cancel]

theorem shown_eq {d : DisplaySearchState} (h : shown s = some d) : s.currentPage = .displaySearch ∧
    ∃ x, s.searches[lastSearch s]? = some x ∧ d = { x with fresh := s.fresh } := by
  obtain ⟨hpage, h⟩ := Option.ite_none_right_eq_some.mp h
  obtain ⟨x, hx, rfl⟩ := Option.map_eq_some_iff.mp h
  exact ⟨hpage, x, hx, rfl⟩

theorem shown_of {x : DisplaySearchState} (hpage : s.currentPage = .displaySearch)
    (hx : s.searches[lastSearch s]? = some x) : shown s = some { x with fresh := s.fresh } := by
  rw [shown, if_pos hpage, hx]
  rfl

theorem getElem?_setSearch {n : Nat} {d d' : DisplaySearchState} (hd : s.searches[n]? = some d) :
    (setSearch s n d').searches[n]? = some d' :=
  List.getElem?_set_self (List.getElem?_eq_some_iff.mp hd).1

/-- A search page, on the screen or not, that keeps its query and its snapshot. -/
theorem Follows.kept (h : Follows v s) {n : Nat} {d d' : DisplaySearchState}
    (hd : s.searches[n]? = some d) (hq : d'.queryText = d.queryText) (hf : d'.fresh = s.fresh)
    (hx : d'.snapshot = d.snapshot) :
    Follows v (setSearch s n d') ∧ (Known v s → Known v (setSearch s n d')) := by
  constructor
  · refine ⟨h.tab, h.page, fun hpage => ?_⟩
    obtain ⟨hbar, x, hlast, hquery⟩ := h.search hpage
    rw [lastSearch_setSearch]
    refine ⟨hbar, ?_⟩
    by_cases hn : n = lastSearch s
    · subst hn
      obtain rfl := Option.some.inj (hd.symm.trans hlast)
      exact ⟨d', getElem?_setSearch hd, hq.trans hquery⟩
    · exact ⟨x, (List.getElem?_set_ne hn).trans hlast, hquery⟩
  · intro hk y hy hfresh
    obtain ⟨hpage, x, hlast, rfl⟩ := shown_eq hy
    rw [lastSearch_setSearch] at hlast
    by_cases hn : n = lastSearch s
    · subst hn
      obtain rfl := Option.some.inj ((getElem?_setSearch hd).symm.trans hlast)
      obtain ⟨q, hq, hall⟩ :=
        hk { d with fresh := s.fresh } (shown_of hpage hd) (hf.symm.trans hfresh)
      exact ⟨q, hq, fun z hz => hall z (hx ▸ hz)⟩
    · have hsame : s.searches[lastSearch s]? = some x := (List.getElem?_set_ne hn).symm.trans hlast
      exact hk { x with fresh := s.fresh } (shown_of hpage hsame) (hf.symm.trans hfresh)

/-- The search page on the screen has run a handler. -/
theorem Follows.setLast (h : Follows v s) (v' : Screen) {n : Nat} {d : DisplaySearchState}
    (d' : DisplaySearchState) (hpage : s.currentPage = .displaySearch) (hn : n = lastSearch s)
    (hd : s.searches[n]? = some d) (hv : v'.tab = v.tab) (hq : d'.queryText = v'.query) :
    Follows v' (setSearch s n d') ∧ (Known v' (setSearch s n d') ↔
      (d'.fresh = true → ∃ q, v'.query = some q ∧
        ∀ x ∈ d'.snapshot, fireSearch x.queryText = fireSearch q)) := by
  subst hn
  have hset : (setSearch s (lastSearch s) d').searches[
      lastSearch (setSearch s (lastSearch s) d')]? = some d' := by
    rw [lastSearch_setSearch]
    exact getElem?_setSearch hd
  refine ⟨⟨hv.trans h.tab, h.page, fun _ => ⟨?_, d', hset, hq⟩⟩, ?_⟩
  · rw [lastSearch_setSearch]
    exact (h.search hpage).1
  · have hshown : shown (BottomNav.setSearch s (lastSearch s) d') = some d' := shown_of hpage hset
    constructor
    · exact fun hk => hk d' hshown
    · intro hall y hy
      obtain rfl := Option.some.inj (hshown.symm.trans hy)
      exact hall

theorem index_inj {m n : Nat} {page : Page} (hm : pages[m]? = some page)
    (hn : pages[n]? = some page) : m = n := by
  have hlt : m < pages.length := (List.getElem?_eq_some_iff.mp hm).1
  exact (List.getElem?_inj hlt (by decide)).mp (hm.trans hn.symm)

/-- The search page on the screen, where a frame and its stream go, holds the query. -/
theorem Follows.onScreen (h : Follows v s) {n : Nat} {d : DisplaySearchState}
    (hn : (if s.currentPage = .displaySearch then some (lastSearch s) else none) = some n)
    (hd : s.searches[n]? = some d) :
    s.currentPage = .displaySearch ∧ n = lastSearch s ∧ d.queryText = v.query := by
  obtain ⟨hpage, hlast⟩ := Option.ite_none_right_eq_some.mp hn
  obtain rfl := Option.some.inj hlast
  obtain ⟨-, x, hx, hquery⟩ := h.search hpage
  obtain rfl := Option.some.inj (hd.symm.trans hx)
  exact ⟨hpage, rfl, hquery⟩

/-- The page on the screen hears its stream. -/
theorem Follows.heard (h : Follows v s) {d : DisplaySearchState} {text : String}
    {data : Option (List Doc)} {snapshot : Option UserSearch.Snapshot}
    (hpage : s.currentPage = .displaySearch) (hd : s.searches[lastSearch s]? = some d)
    (hquery : d.queryText = v.query) (hstream : d.stream = some text)
    (hhear : UserSearch.hear text data = some snapshot) :
    let s' := setSearch s (lastSearch s) { d with fresh := s.fresh, snapshot := snapshot }
    Follows v s' ∧ (Known v s → (Known v s' ↔ Timely s (.search (.snapshot data)))) := by
  have hshown := shown_of hpage hd
  obtain ⟨hfollows, hknown⟩ := h.setLast v { d with fresh := s.fresh, snapshot := snapshot }
    hpage rfl hd rfl hquery
  refine ⟨hfollows, fun hk => hknown.trans ?_⟩
  cases data with
  | none =>
      obtain rfl := Option.some.inj hhear
      refine iff_of_true (fun hfresh => ?_) trivial
      obtain ⟨q, hq, -⟩ := hk _ hshown hfresh
      exact ⟨q, hq, nofun⟩
  | some documents =>
      obtain ⟨hfound, hhear⟩ := Option.dite_none_right_eq_some.mp hhear
      obtain rfl := Option.some.inj hhear
      constructor
      · intro hall y hy hfresh
        obtain rfl := Option.some.inj (hshown.symm.trans hy)
        obtain ⟨q, hq, hall⟩ := hall hfresh
        show d.stream.map fireSearch = d.queryText.map fireSearch
        rw [hquery, hq, hstream]
        exact congrArg some (hall ⟨text, documents, hfound⟩ rfl)
      · intro htimely hfresh
        obtain ⟨q, hq, -⟩ := hk _ hshown hfresh
        refine ⟨q, hq, fun y hy => ?_⟩
        obtain rfl := Option.some.inj hy
        have hsame : d.stream.map fireSearch = d.queryText.map fireSearch :=
          htimely { d with fresh := s.fresh } hshown hfresh
        rw [hquery, hq, hstream] at hsame
        exact Option.some.inj hsame

/-- What happens on a search page keeps the page and the screen together; and a page that knows what
was searched still does if and only if it happens in time. -/
theorem Follows.searched (h : Follows v s) {e : UserSearch.Event} {n : Nat}
    {d d' : DisplaySearchState} {out : List (Call UserSearch.Cont)} (hn : target s e = some n)
    (hd : s.searches[n]? = some d) (hran : UserSearch.Ran { d with fresh := s.fresh } e d' out) :
    Follows (v.after (.search e)) (setSearch s n d') ∧
      (Known v s → (Known (v.after (.search e)) (setSearch s n d') ↔ Timely s (.search e))) := by
  have hkept : d'.queryText = d.queryText → d'.fresh = s.fresh → d'.snapshot = d.snapshot →
      Follows v (setSearch s n d') ∧ (Known v s → (Known v (setSearch s n d') ↔ True)) := by
    intro hq hf hx
    obtain ⟨hfollows, hknown⟩ := h.kept hd hq hf hx
    exact ⟨hfollows, fun hk => iff_of_true (hknown hk) trivial⟩
  cases hran with
  | initState | dispose => cases hn
  | beginSearch | back | tapNull | tapAdd => exact hkept rfl rfl rfl
  | onSubmitted value =>
      obtain ⟨hpage, hbar⟩ := Option.ite_none_right_eq_some.mp hn
      have hlast := Option.some.inj (hbar.symm.trans (h.search hpage).1)
      obtain ⟨hfollows, hknown⟩ := h.setLast { v with query := some value }
        { UserSearch.onRemove { d with fresh := s.fresh } with
          queryText := some value, fresh := true }
        hpage hlast hd rfl rfl
      refine ⟨hfollows, fun _ => hknown.trans ?_⟩
      have hshown := shown_of hpage (hlast ▸ hd)
      constructor
      · intro hall y hy
        obtain rfl := Option.some.inj (hshown.symm.trans hy)
        obtain ⟨q, hq, hall⟩ := hall rfl
        obtain rfl := Option.some.inj hq
        exact hall
      · intro htimely _
        exact ⟨value, rfl, htimely { d with fresh := s.fresh } hshown⟩
  | build =>
      obtain ⟨hpage, rfl, hquery⟩ := h.onScreen hn hd
      obtain ⟨stream, snapshot, heq⟩ := UserSearch.build_eq { d with fresh := s.fresh }
      obtain ⟨hfollows, hknown⟩ := h.setLast v (UserSearch.build { d with fresh := s.fresh })
        hpage rfl hd rfl (by rw [heq]; exact hquery)
      refine ⟨hfollows, fun hk => iff_of_true (hknown.mpr fun hfresh => ?_) trivial⟩
      rw [heq] at hfresh
      obtain ⟨q, hq, hall⟩ := hk _ (shown_of hpage hd) hfresh
      refine ⟨q, hq, ?_⟩
      -- the page searches, so the `StreamBuilder` stays and keeps its snapshot
      have hbody : putInBody { d with fresh := s.fresh } =
          some (.results (fireSearch q) d.snapshot) := by
        rw [putInBody, if_pos hfresh]
        show UserSearch.searchResults d.snapshot d.queryText = _
        rw [hquery, hq]
        rfl
      rw [UserSearch.build, hbody]
      exact hall
  | snapshot text data snapshot _ hstream hhear =>
      obtain ⟨hpage, rfl, hquery⟩ := h.onScreen hn hd
      have hheard := h.heard hpage hd hquery hstream hhear
      exact hheard

/-- What an event does keeps the page and the screen together; and a page that knows what was
searched still does if and only if the event is timely. -/
theorem Follows.ran (h : Follows v s) (hran : Ran s e s') :
    Follows (v.after e) s' ∧ (Known v s → (Known (v.after e) s' ↔ Timely s e)) := by
  cases hran with
  | stays index hpage =>
      obtain rfl := index_inj hpage h.page
      have hafter : v.after (.onTap s.currentTab) = v := if_pos h.tab.symm
      rw [hafter]
      refine ⟨⟨h.tab, h.page, h.search⟩, fun hk => iff_of_true hk ?_⟩
      intro hsearch hne
      exact absurd (Option.some.inj (h.page.symm.trans hsearch)) hne
  | leaves index page hpage hne hother =>
      have htab : index ≠ v.tab := by
        rintro rfl
        rw [h.tab, h.page] at hpage
        exact hne (Option.some.inj hpage).symm
      have hafter : v.after (.onTap index) = { tab := index } := if_neg htab
      rw [hafter]
      refine ⟨⟨rfl, hpage, fun hsearch => absurd hsearch hother⟩, fun _ => iff_of_true ?_ ?_⟩
      · exact fun d hd => absurd (shown_eq hd).1 hother
      · exact fun hsearch => absurd (Option.some.inj (hpage.symm.trans hsearch)) hother
  | enters index hpage hne =>
      have htab : index ≠ v.tab := by
        rintro rfl
        rw [h.tab, h.page] at hpage
        exact hne (Option.some.inj hpage)
      have hafter : v.after (.onTap index) = { tab := index } := if_neg htab
      rw [hafter]
      -- the new page has no query, and the user has submitted none to it
      have hlast := lastSearch_entered
        (leave { s with currentTab := index, currentPage := .displaySearch })
      have hnew : (entered (leave
          { s with currentTab := index, currentPage := .displaySearch })).searches[
            lastSearch (entered (leave
              { s with currentTab := index, currentPage := .displaySearch }))]? =
          some { fresh := s.fresh, opened := true } := by
        rw [hlast]
        exact List.getElem?_concat_length
      refine ⟨⟨rfl, hpage, fun _ => ⟨?_, _, hnew, rfl⟩⟩, fun _ => ?_⟩
      · rw [hlast]
        rfl
      · constructor
        · intro hknown _ _
          rw [← Bool.not_eq_true]
          intro hfresh
          obtain ⟨q, hq, -⟩ := hknown _ (shown_of rfl hnew) hfresh
          cases hq
        · intro htimely d hd hfresh
          obtain ⟨-, x, hx, rfl⟩ := shown_eq hd
          exact absurd (hfresh.symm.trans (htimely hpage hne)) (by decide)
  | searches e n d d' out hn hd hran => exact h.searched hn hd hran

theorem Follows.onAnswer (h : Follows v s) (cont : Cont) (a : Answer) :
    Follows v (onAnswer s cont a).1 ∧ (Known v s → Known v (onAnswer s cont a).1) := by
  rcases onAnswer_cases s cont a with heq | ⟨d, hd, heq⟩ <;> rw [heq]
  · exact ⟨h, id⟩
  · obtain ⟨hquery, hfresh, -, hsnapshot, -⟩ :=
      UserSearch.onAnswer_keeps { d with fresh := s.fresh } cont.cont a
    exact h.kept hd hquery hfresh hsnapshot

/-- On a page that follows the screen, what was searched is known exactly if it is rendered. -/
theorem Follows.known_iff (h : Follows v s) : Known v s ↔
    ∀ d, shown s = some d → d.fresh = true → ∃ q snapshot, v.query = some q ∧ d.queryText = some q ∧
      putInBody d = some (.results (fireSearch q) snapshot) ∧
      ∀ x ∈ snapshot, fireSearch x.queryText = fireSearch q := by
  constructor
  · intro hk d hshown hfresh
    obtain ⟨q, hq, hall⟩ := hk d hshown hfresh
    obtain ⟨hpage, x, hx, rfl⟩ := shown_eq hshown
    obtain ⟨-, y, hy, hquery⟩ := h.search hpage
    obtain rfl := Option.some.inj (hx.symm.trans hy)
    have hd : x.queryText = some q := hquery.trans hq
    refine ⟨q, x.snapshot, hq, hd, ?_, hall⟩
    rw [putInBody, if_pos hfresh]
    show UserSearch.searchResults x.snapshot x.queryText = _
    rw [hd]
    rfl
  · intro hall d hshown hfresh
    obtain ⟨q, snapshot, hq, hd, hbody, hsnapshot⟩ := hall d hshown hfresh
    rw [putInBody, if_pos hfresh, hd] at hbody
    obtain ⟨-, rfl⟩ := UserSearch.Body.results.inj (Option.some.inj hbody)
    exact ⟨q, hq, hsnapshot⟩

end Follows

/-! ## Every run -/

section Run

variable {as : List (HomeAction ι)} {c c' c₀ : HomeConfig ι} {a : HomeAction ι}

theorem screen_event_self (i : ι) (as : List (HomeAction ι)) (e : Event) :
    screen i (as ++ [.event i e]) = (screen i as).after e := by
  rw [screen, List.foldl_append]
  exact if_pos rfl

theorem screen_event_ne {i j : ι} (h : j ≠ i) (as : List (HomeAction ι)) (e : Event) :
    screen i (as ++ [.event j e]) = screen i as := by
  rw [screen, List.foldl_append]
  exact if_neg h

theorem screen_serve (i : ι) (as : List (HomeAction ι)) (k : Nat) (o : Outcome) :
    screen i (as ++ [.serve k o]) = screen i as := by
  rw [screen, List.foldl_append]
  rfl

theorem screen_deliver (i : ι) (as : List (HomeAction ι)) (k : Nat) (d : Unit) :
    screen i (as ++ [.deliver k d]) = screen i as := by
  rw [screen, List.foldl_append]
  rfl

/-- Every page follows its screen. -/
def AllFollow (as : List (HomeAction ι)) (c : HomeConfig ι) : Prop :=
  ∀ i, Follows (screen i as) (c.clients i)

/-- Every page knows what was searched. -/
def AllKnown (as : List (HomeAction ι)) (c : HomeConfig ι) : Prop :=
  ∀ i, Known (screen i as) (c.clients i)

/-- One step keeps the pages and the screens together; and pages that know what was searched still
do if and only if the step is timely. -/
theorem AllFollow.step (h : AllFollow as c) (hs : (homeSystem ι).step c a = some c') :
    AllFollow (as ++ [a]) c' ∧ (AllKnown as c → (AllKnown (as ++ [a]) c' ↔ TimelyStep c a)) := by
  refine step_keeps (Q := fun c' => AllFollow (as ++ [a]) c' ∧
    (AllKnown as c → (AllKnown (as ++ [a]) c' ↔ TimelyStep c a))) hs ?_ ?_ ?_
  · rintro j e s out rfl he
    obtain ⟨hfollows, hknown⟩ := (h j).ran (ran he)
    have hself : screen j (as ++ [.event j e]) = (screen j as).after e := screen_event_self j as e
    constructor
    · intro i
      refine Config.client_post (p := Follows _) ?_ fun hi => ?_
      · rintro rfl
        rw [hself]
        exact hfollows
      · rw [screen_event_ne hi.symm]
        exact h i
    · intro hk
      constructor
      · intro hall
        have hpage := hall j
        rw [hself, Config.post_clients_self] at hpage
        exact (hknown (hk j)).mp hpage
      · intro hC i
        refine Config.client_post (p := Known _) ?_ fun hi => ?_
        · rintro rfl
          rw [hself]
          exact (hknown (hk i)).mpr hC
        · rw [screen_event_ne hi.symm]
          exact hk i
  · rintro k o m b r rfl - -
    refine ⟨fun i => ?_, fun hk => iff_of_true (fun i => ?_) trivial⟩ <;> rw [screen_serve]
    · exact h i
    · exact hk i
  · rintro k d m r s out rfl - ha
    obtain ⟨hfollows, hknown⟩ := (h m.client).onAnswer m.call.cont r
    have hs' : (onAnswer (c.clients m.client) m.call.cont r).1 = s := congrArg Prod.fst ha
    rw [hs'] at hfollows hknown
    refine ⟨fun i => ?_, fun hk => iff_of_true (fun i => ?_) trivial⟩ <;> rw [screen_deliver]
    · refine Config.client_post (p := Follows _) ?_ fun _ => h i
      rintro rfl
      exact hfollows
    · refine Config.client_post (p := Known _) ?_ fun _ => hk i
      rintro rfl
      exact hknown (hk m.client)

theorem AllFollow.start (h : (homeSystem ι).init c₀) : AllFollow [] c₀ := by
  obtain ⟨b, rfl⟩ := h
  intro i
  refine ⟨rfl, rfl, ?_⟩
  intro hpage
  cases hpage

theorem AllFollow.run (h₀ : (homeSystem ι).init c₀) (h : (homeSystem ι).run c₀ as = some c) :
    AllFollow as c :=
  Machine.Reach.history (Q := AllFollow) h₀ h (AllFollow.start h₀)
    fun _ _ _ _ _ hq _ hs => (hq.step hs).1

/-- The pages know what was searched exactly if it is rendered. -/
theorem AllFollow.allKnown_iff (h : AllFollow as c) : AllKnown as c ↔ Rendered as c :=
  forall_congr' fun i => (h i).known_iff

/-- **The search page.** In every state of a run each search page that takes the branch that
searches shows the results of the query submitted to it last, if and only if no step of the run
opens a search page after something has been searched, submits a text over the results of another
query, or lets a page hear a stream other than that of its last query. -/
theorem rendered_iff (h₀ : (homeSystem ι).init c₀) (h : (homeSystem ι).run c₀ as = some c) :
    (∀ as₁ c₁, as₁ <+: as → (homeSystem ι).run c₀ as₁ = some c₁ → Rendered as₁ c₁) ↔
      (homeSystem ι).follow TimelyStep c₀ as = some c := by
  refine Machine.history_exact h ?_ ?_
  · intro i d hshown
    obtain ⟨b, rfl⟩ := h₀
    cases hshown
  · intro as c a c' hrun hrendered hs
    have hfollow := AllFollow.run h₀ hrun
    obtain ⟨hfollow', hknown⟩ := hfollow.step hs
    rw [← hfollow'.allKnown_iff]
    exact hknown (hfollow.allKnown_iff.mpr hrendered)

end Run

/-! ## Back on the search page, and a second search -/

def kai : Doc := [("uid", .str "f1"), ("email", .str "k@p"), ("brukernavn", .str "kai")]

/-- The field is opened and a text submitted; the next frame searches. -/
def searchFor (value : String) : List (HomeAction Unit) :=
  [.event () (.search .beginSearch), .event () (.search (.onSubmitted value)),
    .event () (.search .build)]

/-- Ola searches for Kai and sees him. -/
def seeKai : List (HomeAction Unit) :=
  [.event () (.onTap 2)] ++ searchFor "Kai" ++ [.event () (.search (.snapshot (some [kai])))]

/-- Ola searches for Kai twice, goes home, and searches no more. -/
def searchOnce : List (HomeAction Unit) :=
  seeKai ++ searchFor "kai" ++ [.event () (.onTap 2), .event () (.onTap 0)]

/-- The app of Ola has just been started. -/
def launched : HomeConfig Unit := Config.start (fun _ => {}) (Backend.empty Unit) []

theorem rendered_iff_once : ∃ c : HomeConfig Unit,
    (homeSystem Unit).run launched searchOnce = some c ∧
    ∀ as₁ c₁, as₁ <+: searchOnce → (homeSystem Unit).run launched as₁ = some c₁ →
      Rendered as₁ c₁ := by
  have hrun : ((homeSystem Unit).follow TimelyStep launched searchOnce).isSome = true := by
    decide +kernel
  obtain ⟨c, hc⟩ := Option.isSome_iff_exists.mp hrun
  have hrun' := Machine.run_of_follow hc
  exact ⟨c, hrun', (rendered_iff ⟨_, rfl⟩ hrun').mpr hc⟩

/-- Back on the search page, `_fireSearch` gets a null; and on a page that searches for Liv Kai is
still to be seen. -/
theorem not_rendered :
    (¬ ∀ (as : List (HomeAction Unit)) (c₀ c : HomeConfig Unit), (homeSystem Unit).init c₀ →
      (homeSystem Unit).run c₀ as = some c → Rendered as c) ∧
    ∃ c d, (homeSystem Unit).run launched (seeKai ++ searchFor "Liv") = some c ∧
      shown (c.clients ()) = some d ∧ d.queryText = some "Liv" ∧ kai ∈ UserSearch.rows d := by
  constructor
  · intro h
    have hrun : ((homeSystem Unit).run launched
        (searchOnce ++ ([.event () (.onTap 2)] : List (HomeAction Unit)))).map
        (fun c => (shown (c.clients ())).map fun d => (d.fresh, d.queryText, putInBody d)) =
        some (some (true, none, none)) := by
      decide +kernel
    obtain ⟨c, hc, hshown⟩ := Option.map_eq_some_iff.mp hrun
    obtain ⟨d, hd, hbody⟩ := Option.map_eq_some_iff.mp hshown
    obtain ⟨hfresh, hbody⟩ := Prod.mk.inj hbody
    obtain ⟨hquery, -⟩ := Prod.mk.inj hbody
    obtain ⟨q, -, -, hq, -⟩ := h _ launched c ⟨_, rfl⟩ hc () d hd hfresh
    rw [hquery] at hq
    cases hq
  · have hrun : ((homeSystem Unit).run launched (seeKai ++ searchFor "Liv")).bind (fun c =>
        (shown (c.clients ())).map fun d => (d.queryText, decide (kai ∈ UserSearch.rows d))) =
        some (some "Liv", true) := by
      decide +kernel
    obtain ⟨c, hc, hshown⟩ := Option.bind_eq_some_iff.mp hrun
    obtain ⟨d, hd, heq⟩ := Option.map_eq_some_iff.mp hshown
    obtain ⟨hquery, hrow⟩ := Prod.mk.inj heq
    exact ⟨c, d, hc, hd, hquery, of_decide_eq_true hrow⟩

end P0ker.Query
