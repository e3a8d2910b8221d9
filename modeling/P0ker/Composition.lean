import P0ker.Moves
import P0ker.Pages.Asking
import P0ker.Schema

/-!
# The app is made of its pages

The pages of a device come and go, share `_fresh`, and find the user of the device; in `Pages.pages`
every page is a client of its own, there from the start, that finds the user it was given.
`composed` says that nothing is lost by that: what the devices do, the pages do on their own, call
by call. What holds of the pages in every run holds of the app.

What a page will be, and whom it will find, is known only later in the run of the devices; so a
state of the devices is matched by one of the pages for *each* way in which it may turn out
(`Plan`). The root page and the New page ask for the user and do no more, as a GamePage does, and
are matched by one.
-/

namespace P0ker.Composition

open Async MyApp Navigation

variable {ι : Type} [DecidableEq ι]

/-! ## Places, calls and messages -/

/-- The root page of a device, or the `State` in a place. -/
abbrev Place (ι : Type) := ι × Option Nat

def placeOf : Cont → Option Nat
  | .root => none
  | .state n _ => some n

def contOf : Cont → Pages.Cont
  | .root => .currentUser
  | .state _ cont => cont

def callOf (call : Call Cont) : Call Pages.Cont :=
  ⟨contOf call.cont, call.req⟩

def causeOf (cause : List (Call Cont × Answer)) : List (Call Pages.Cont × Answer) :=
  cause.map fun p => (callOf p.1, p.2)

def messageOf (m : Message ι (Call Cont) Answer) : Message (Place ι) (Call Pages.Cont) Answer :=
  ⟨(m.client, placeOf m.call.cont), callOf m.call, causeOf m.cause⟩

def answerOf (p : Message ι (Call Cont) Answer × Answer) :
    Message (Place ι) (Call Pages.Cont) Answer × Answer :=
  (messageOf p.1, p.2)

/-- The page that a `State` is matched by. -/
def pageOf : State → Pages.Page
  | .page p => p
  | .new s => .gamePage ⟨s.toUserLookup, s.opened, s.mounted⟩

/-- The page stands for the `State`; the `_fresh` of a search page that is gone does not matter. -/
def Stands (fresh : Bool) (state : State) (page : Pages.Page) : Prop :=
  (state.mounted = true → page = withFresh fresh (pageOf state)) ∧
    ∃ f, page = withFresh f (pageOf state)

/-- For each place the page it begins as, and the user it finds. -/
abbrev Plan (ι : Type) := Place ι → Pages.Page × Option String

def Plan.Valid (plan : Plan ι) : Prop :=
  (∀ p, (plan p).1.New) ∧ ∀ i, (plan (i, none)).1 = .gamePage {}

/-- The page in place `n` of device `i` begins as `page`. -/
def Plan.begins (plan : Plan ι) (i : ι) (n : Nat) (page : Pages.Page) : Plan ι :=
  Function.update plan (i, some n) (page, (plan (i, some n)).2)

/-- The page in a place finds the user `u`. -/
def Plan.finds (plan : Plan ι) (p : Place ι) (u : Option String) : Plan ι :=
  Function.update plan p ((plan p).1, u)

section Plan

variable (plan : Plan ι) (i : ι) (n : Nat) (page : Pages.Page) (p : Place ι) (u : Option String)

theorem Plan.begins_self : plan.begins i n page (i, some n) = (page, (plan (i, some n)).2) :=
  Function.update_self _ _ _

theorem Plan.begins_ne {q : Place ι} (hq : q ≠ (i, some n)) : plan.begins i n page q = plan q :=
  Function.update_of_ne hq _ _

theorem Plan.finds_self : plan.finds p u p = ((plan p).1, u) :=
  Function.update_self _ _ _

theorem Plan.finds_ne {q : Place ι} (hq : q ≠ p) : plan.finds p u q = plan q :=
  Function.update_of_ne hq _ _

theorem Plan.finds_page (q : Place ι) : (plan.finds p u q).1 = (plan q).1 := by
  by_cases hq : q = p
  · rw [hq, Plan.finds_self]
  · rw [Plan.finds_ne _ _ _ hq]

theorem Plan.Valid.begins (h : plan.Valid) (hpage : page.New) : (plan.begins i n page).Valid := by
  refine ⟨fun q => ?_, fun j => ?_⟩
  · by_cases hq : q = (i, some n)
    · rw [hq, Plan.begins_self]
      exact hpage
    · rw [Plan.begins_ne _ _ _ _ hq]
      exact h.1 q
  · rw [Plan.begins_ne _ _ _ _ (by simp)]
    exact h.2 j

theorem Plan.Valid.finds (h : plan.Valid) : (plan.finds p u).Valid := by
  refine ⟨fun q => ?_, fun j => ?_⟩
  · rw [Plan.finds_page]
    exact h.1 q
  · rw [Plan.finds_page]
    exact h.2 j

end Plan

/-- The page in a place has not been told its user. -/
def Untold (c : Pages.PageConfig (Place ι)) (p : Place ι) : Prop :=
  Pages.begun (c.clients p) = false ∨ p ∈ c.calls.filterMap Pages.asker

/-- What is in flight is the same, and so is what it finds. -/
structure Traffic (plan : Plan ι) (c : DeviceConfig ι) (c' : Pages.PageConfig (Place ι)) :
    Prop where
  calls : c'.calls = c.calls.map messageOf
  answers : c'.answers = c.answers.map answerOf
  issued : c'.issued = c.issued.map messageOf
  db : c'.backend.db = c.backend.db
  accounts : c'.backend.accounts = c.backend.accounts
  session : ∀ p, Untold c' p → c'.backend.session p = (plan p).2

/-- Each page stands where it should. -/
structure Matches (plan : Plan ι) (clients : ι → App) (pages : Place ι → Pages.Page) : Prop where
  built : ∀ i n state, (clients i).states[n]? = some state →
    Stands (clients i).fresh state (pages (i, some n))
  unbuilt : ∀ i n, (clients i).states[n]? = none → pages (i, some n) = (plan (i, some n)).1
  root : ∀ i, ∃ s : GamePage.GamePageState, pages (i, none) = .gamePage s ∧ s.mounted = true ∧
    s.opened = (clients i).launched

structure Mirrors (plan : Plan ι) (c : DeviceConfig ι) (c' : Pages.PageConfig (Place ι)) :
    Prop where
  traffic : Traffic plan c c'
  clients : Matches plan c.clients c'.clients

/-- A backend with the documents and the accounts of `b`. -/
def SameStore (b : Backend ι) (b' : Backend (Place ι)) : Prop :=
  b'.db = b.db ∧ b'.accounts = b.accounts

/-- The pages, over a backend that stores what one that meets `B` does. -/
abbrev pagesOf (B : Backend ι → Prop) :
    Machine (Pages.PageConfig (Place ι)) (Pages.PageAction (Place ι)) :=
  Pages.pages (Place ι) fun b' => ∃ b, B b ∧ SameStore b b'

/-- However it turns out, the pages can be in a state that mirrors this one. -/
def Mirrored (B : Backend ι → Prop) (c : DeviceConfig ι) : Prop :=
  ∀ plan : Plan ι, plan.Valid → ∃ c', (pagesOf B).Reachable c' ∧ Mirrors plan c c'

/-! ## Issuing -/

theorem map_calls (n : Nat) (out : List (Call Pages.Cont)) : (calls n out).map callOf = out := by
  simp only [calls, List.map_map]
  exact List.map_id'' (fun _ => rfl) out

omit [DecidableEq ι] in
/-- What a page issues, the device issues for its place. -/
theorem map_message {i : ι} {p : Option Nat} {out : List (Call Cont)}
    (hplace : ∀ call ∈ out, placeOf call.cont = p) (cause : List (Call Cont × Answer)) :
    (out.map (Message.mk i · cause)).map messageOf =
      (out.map callOf).map (Message.mk (i, p) · (causeOf cause)) := by
  rw [List.map_map, List.map_map]
  refine List.map_congr_left fun call hc => ?_
  simp only [Function.comp_apply, messageOf, hplace call hc]

theorem Untold.of_post {c : Pages.PageConfig (Place ι)} {p q : Place ι} {page : Pages.Page}
    {out : List (Call Pages.Cont)} {cause : List (Call Pages.Cont × Answer)}
    (hasks : Pages.Asks out (Pages.begun (c.clients p)) (Pages.begun page))
    (h : Untold (c.post p page out cause) q) : Untold c q := by
  by_cases hq : q = p
  · subst hq
    rcases hasks with ⟨hsame, hnone⟩ | ⟨hnew, -⟩
    · rcases h with hbegun | hcall
      · rw [Config.post_clients_self, hsame] at hbegun
        exact Or.inl hbegun
      · rw [Config.post_calls, List.filterMap_append, Pages.filterMap_asker_nil hnone,
          List.append_nil] at hcall
        exact Or.inr hcall
    · exact Or.inl hnew
  · rcases h with hbegun | hcall
    · rw [Config.post_clients_ne _ _ _ _ _ hq] at hbegun
      exact Or.inl hbegun
    · rw [Config.post_calls, List.filterMap_append, List.mem_append] at hcall
      refine Or.inr (hcall.resolve_right ?_)
      intro hmem
      obtain ⟨m, hm, hasker⟩ := List.mem_filterMap.mp hmem
      obtain ⟨call, -, rfl⟩ := List.mem_map.mp hm
      exact hq (Pages.asker_eq.mp hasker).2.symm

theorem Traffic.post {plan plan' : Plan ι} {c : DeviceConfig ι} {c' : Pages.PageConfig (Place ι)}
    {i : ι} {p : Option Nat} {app : App} {page : Pages.Page} {out : List (Call Cont)}
    {cause : List (Call Cont × Answer)} (h : Traffic plan c c')
    (hplan : ∀ q, (plan' q).2 = (plan q).2) (hplace : ∀ call ∈ out, placeOf call.cont = p)
    (hasks : Pages.Asks (out.map callOf) (Pages.begun (c'.clients (i, p))) (Pages.begun page)) :
    Traffic plan' (c.post i app out cause)
      (c'.post (i, p) page (out.map callOf) (causeOf cause)) where
  calls := by
    rw [Config.post_calls, Config.post_calls, List.map_append, h.calls, map_message hplace]
  answers := h.answers
  issued := by
    rw [Config.post_issued, Config.post_issued, List.map_append, h.issued, map_message hplace]
  db := h.db
  accounts := h.accounts
  session q hq := by
    rw [hplan]
    exact h.session q (hq.of_post hasks)

theorem withFresh_other (state : State) (h : state.kind ≠ .search) (f : Bool) :
    withFresh f (pageOf state) = pageOf state := by
  cases state with
  | page p =>
      cases p with
      | search s => exact absurd rfl h
      | login | gamePage | newGame | newGroup | friends => rfl
  | new s => rfl

/-- Who does not see `_fresh` does not mind its changing. -/
theorem Stands.fresh {fresh fresh' : Bool} {state : State} {page : Pages.Page}
    (h : Stands fresh state page)
    (hfresh : fresh' = fresh ∨ (state.mounted = true → state.kind ≠ .search)) :
    Stands fresh' state page := by
  rcases hfresh with rfl | hother
  · exact h
  · refine ⟨fun hm => ?_, h.2⟩
    rw [h.1 hm, withFresh_other _ (hother hm), withFresh_other _ (hother hm)]

/-- The `State` in one place changes, or is new. -/
theorem Matches.post {plan plan' : Plan ι} {clients : ι → App}
    {pages : Place ι → Pages.Page} {i : ι}
    {n : Nat} {app : App} {state : State} {page : Pages.Page} (h : Matches plan clients pages)
    (hplan : ∀ q, q ≠ (i, some n) → plan' q = plan q)
    (hstates : ∀ m, m ≠ n → app.states[m]? = (clients i).states[m]?)
    (hstate : app.states[n]? = some state) (hstands : Stands app.fresh state page)
    (hlaunched : app.launched = (clients i).launched)
    (hfresh : app.fresh = (clients i).fresh ∨ LoneSearch (clients i).states n) :
    Matches plan' (Function.update clients i app) (Function.update pages (i, some n) page) where
  built j m state' hm := by
    by_cases hj : j = i
    · subst hj
      rw [Function.update_self] at hm ⊢
      by_cases hmn : m = n
      · subst hmn
        obtain rfl := Option.some.inj (hstate.symm.trans hm)
        rw [Function.update_self]
        exact hstands
      · rw [Function.update_of_ne (by simp [hmn])]
        rw [hstates m hmn] at hm
        exact (h.built j m state' hm).fresh (hfresh.imp_right fun hlone => hlone m state' hmn hm)
    · rw [Function.update_of_ne hj] at hm ⊢
      rw [Function.update_of_ne (by simp [hj])]
      exact h.built j m state' hm
  unbuilt j m hm := by
    by_cases hj : j = i
    · subst hj
      rw [Function.update_self] at hm
      have hmn : m ≠ n := by
        rintro rfl
        rw [hstate] at hm
        cases hm
      have hne : (j, some m) ≠ (j, some n) := by simp [hmn]
      rw [Function.update_of_ne hne, hplan _ hne]
      rw [hstates m hmn] at hm
      exact h.unbuilt j m hm
    · rw [Function.update_of_ne hj] at hm
      have hne : (j, some m) ≠ (i, some n) := by simp [hj]
      rw [Function.update_of_ne hne, hplan _ hne]
      exact h.unbuilt j m hm
  root j := by
    rw [Function.update_of_ne (by simp)]
    by_cases hj : j = i
    · subst hj
      rw [Function.update_self, hlaunched]
      exact h.root j
    · rw [Function.update_of_ne hj]
      exact h.root j

/-- The root page changes, and no `State` does. -/
theorem Matches.postRoot {plan : Plan ι} {clients : ι → App} {pages : Place ι → Pages.Page} {i : ι}
    {app : App} {s : GamePage.GamePageState} (h : Matches plan clients pages)
    (hstates : app.states = (clients i).states) (hfresh : app.fresh = (clients i).fresh)
    (hmounted : s.mounted = true) (hopened : s.opened = app.launched) :
    Matches plan (Function.update clients i app)
      (Function.update pages (i, none) (.gamePage s)) where
  built j m state' hm := by
    have hne : (j, some m) ≠ (i, none) := by simp
    rw [Function.update_of_ne hne]
    by_cases hj : j = i
    · subst hj
      rw [Function.update_self, hstates] at hm
      rw [Function.update_self, hfresh]
      exact h.built j m state' hm
    · rw [Function.update_of_ne hj] at hm ⊢
      exact h.built j m state' hm
  unbuilt j m hm := by
    have hne : (j, some m) ≠ (i, none) := by simp
    rw [Function.update_of_ne hne]
    by_cases hj : j = i
    · subst hj
      rw [Function.update_self, hstates] at hm
      exact h.unbuilt j m hm
    · rw [Function.update_of_ne hj] at hm
      exact h.unbuilt j m hm
  root j := by
    by_cases hj : j = i
    · subst hj
      rw [Function.update_self, Function.update_self]
      exact ⟨s, rfl, hmounted, hopened⟩
    · rw [Function.update_of_ne (by simp [hj]), Function.update_of_ne hj]
      exact h.root j

/-! ## Moves -/

section Moves

variable {B : Backend ι → Prop} {c : DeviceConfig ι} {c' : Pages.PageConfig (Place ι)}
  {plan plan' : Plan ι} {i : ι} {n : Nat} {app : App} {state : State}

/-- The page in a place runs a handler, and so does the `State`. -/
theorem Mirrors.post {page : Pages.Page} {out : List (Call Pages.Cont)}
    {cause : List (Call Cont × Answer)} (h : Mirrors plan c c')
    (hplan : ∀ q, q ≠ (i, some n) → plan' q = plan q)
    (hsession : (plan' (i, some n)).2 = (plan (i, some n)).2)
    (hstates : ∀ m, m ≠ n → app.states[m]? = (c.clients i).states[m]?)
    (hstate : app.states[n]? = some state) (hstands : Stands app.fresh state page)
    (hlaunched : app.launched = (c.clients i).launched)
    (hfresh : app.fresh = (c.clients i).fresh ∨ LoneSearch (c.clients i).states n)
    (hasks : Pages.Asks out (Pages.begun (c'.clients (i, some n))) (Pages.begun page)) :
    Mirrors plan' (c.post i app (calls n out) cause)
      (c'.post (i, some n) page out (causeOf cause)) where
  traffic := by
    have hplace : ∀ call ∈ calls n out, placeOf call.cont = some n := by
      intro call hc
      obtain ⟨call', -, rfl⟩ := List.mem_map.mp hc
      rfl
    have hsame : ∀ q, (plan' q).2 = (plan q).2 := by
      intro q
      by_cases hq : q = (i, some n)
      · rw [hq, hsession]
      · rw [hplan q hq]
    have htraffic : Traffic plan' (c.post i app (calls n out) cause)
        (c'.post (i, some n) page ((calls n out).map callOf) (causeOf cause)) :=
      h.traffic.post hsame hplace (by rwa [map_calls])
    rwa [map_calls] at htraffic
  clients := h.clients.post hplan hstates hstate hstands hlaunched hfresh

/-- A new `State` is matched by the page it begins as, which has not been told anything. -/
theorem begins_new {fresh : Bool} (h : state.New fresh) :
    (pageOf state).New ∧ withFresh fresh (pageOf state) = pageOf state := by
  cases state with
  | page p => exact h
  | new s =>
      obtain rfl : s = {} := h
      exact ⟨rfl, rfl⟩

/-- `initState` of the page does what `initState` of the `State` does. -/
theorem initState_page {fresh : Bool} (h : state.New fresh) (now : Now) :
    ((initState now state).2 = [] ∧ pageOf (initState now state).1 = pageOf state) ∨
      ∃ e, Pages.onEvent (pageOf state) e =
        some (pageOf (initState now state).1, (initState now state).2) := by
  cases state with
  | page p =>
      simp only [initState]
      split
      · next page' out he =>
          obtain ⟨e, -, he⟩ := Option.bind_eq_some_iff.mp he
          exact Or.inr ⟨e, he⟩
      · exact Or.inl ⟨rfl, rfl⟩
  | new s =>
      obtain rfl : s = {} := h
      exact Or.inr ⟨.gamePage .initState, rfl⟩

theorem fresh_initState {fresh : Bool} (h : state.New fresh) (now : Now) :
    withFresh fresh (pageOf (initState now state).1) = pageOf (initState now state).1 := by
  by_cases hkind : state.kind = .search
  · cases state with
    | page p =>
        obtain ⟨hnew, hfresh⟩ := h
        cases p with
        | search s =>
            have hs : s.fresh = fresh := by
              have hsame := Pages.Page.search.inj hfresh
              rw [← hsame]
            have hs' : s = { fresh := s.fresh } := hnew
            rw [hs] at hs'
            rw [hs']
            rfl
        | login | gamePage | newGame | newGroup | friends => cases hkind
    | new s => cases hkind
  · exact withFresh_other _ ((kind_initState now state).trans_ne hkind) fresh

theorem Mirrored.creates (h : Mirrored B c) {now : Now}
    (hnew : state.New (c.clients i).fresh)
    (hstates : app.states = (c.clients i).states ++ [(initState now state).1])
    (hlaunched : app.launched = (c.clients i).launched) (hfresh : app.fresh = (c.clients i).fresh) :
    Mirrored B (c.post i app (calls (c.clients i).states.length (initState now state).2) []) := by
  intro plan hplan
  obtain ⟨n, hn⟩ : ∃ n, n = (c.clients i).states.length := ⟨_, rfl⟩
  rw [← hn]
  -- the place is planned to begin as this page
  obtain ⟨c', hc', hmirrors⟩ :=
    h (plan.begins i n (pageOf state)) (hplan.begins _ _ _ _ (begins_new hnew).1)
  have hclient : c'.clients (i, some n) = pageOf state := by
    rw [hmirrors.clients.unbuilt i n (List.getElem?_eq_none hn.ge), Plan.begins_self]
  have hbefore : ∀ m, m ≠ n → app.states[m]? = (c.clients i).states[m]? := by
    intro m hm
    rw [hstates, List.getElem?_append]
    split
    · rfl
    · next hle =>
        have hout : (c.clients i).states[m]? = none := List.getElem?_eq_none (Nat.le_of_not_lt hle)
        rw [hout, List.getElem?_eq_none]
        show 1 ≤ m - (c.clients i).states.length
        omega
  have hthere : app.states[n]? = some (initState now state).1 := by
    rw [hstates, hn]
    exact List.getElem?_concat_length
  have hstands : Stands app.fresh (initState now state).1 (pageOf (initState now state).1) := by
    rw [hfresh]
    have hsame := (fresh_initState hnew now).symm
    exact ⟨fun _ => hsame, _, hsame⟩
  have hpost : ∀ out, Pages.Asks out (Pages.begun (pageOf state))
      (Pages.begun (pageOf (initState now state).1)) → Mirrors plan (c.post i app (calls n out) [])
        (c'.post (i, some n) (pageOf (initState now state).1) out []) := by
    intro out hasks
    refine hmirrors.post (fun q hq => (Plan.begins_ne _ _ _ _ hq).symm) ?_ hbefore hthere hstands
      hlaunched (Or.inl hfresh) (by rwa [hclient])
    rw [Plan.begins_self]
  rcases initState_page hnew now with ⟨hout, hsame⟩ | ⟨e, he⟩
  · have hmirrors' := hpost [] (Or.inl ⟨by rw [hsame], List.forall_mem_nil _⟩)
    rw [hsame, ← hclient, Config.post_self] at hmirrors'
    rw [hout]
    exact ⟨c', hc', hmirrors'⟩
  · refine ⟨_, hc'.step (a := .event (i, some n) e) trivial ?_,
      hpost _ (Pages.event_asks_or_not he)⟩
    rw [← hclient] at he
    exact step_event_of (S := firebase (Place ι) Pages.Cont) he

/-- The page on the screen raises an event, or is disposed. -/
theorem Mirrored.event (h : Mirrored B c) {n : Nat} {app : App} {state state' : State}
    {out : List (Call Pages.Cont)} (hn : (c.clients i).states[n]? = some state)
    (hmounted : state.mounted = true) {e : Pages.Event}
    (he : Pages.onEvent (withFresh (c.clients i).fresh (pageOf state)) e =
      some (withFresh app.fresh (pageOf state'), out))
    (hstates : app.states = (c.clients i).states.set n state')
    (hlaunched : app.launched = (c.clients i).launched)
    (hfresh : app.fresh = (c.clients i).fresh ∨ LoneSearch (c.clients i).states n) :
    Mirrored B (c.post i app (calls n out) []) := by
  intro plan hplan
  obtain ⟨c', hc', hmirrors⟩ := h plan hplan
  have hclient := (hmirrors.clients.built i n state hn).1 hmounted
  rw [← hclient] at he
  refine ⟨_, hc'.step (a := .event (i, some n) e) trivial
    (step_event_of (S := firebase (Place ι) Pages.Cont) he), ?_⟩
  refine hmirrors.post (fun _ _ => rfl) rfl ?_ ?_ ⟨fun _ => rfl, _, rfl⟩ hlaunched hfresh
    (Pages.event_asks_or_not he)
  · intro m hm
    rw [hstates, List.getElem?_set_ne (Ne.symm hm)]
  · rw [hstates]
    exact List.getElem?_set_self (List.getElem?_eq_some_iff.mp hn).1

/-- `dispose` of the page that a `State` is matched by. -/
theorem onEvent_disposed (fresh : Bool) (h : state.mounted = true) :
    ∃ e, Pages.onEvent (withFresh fresh (pageOf state)) e =
      some (withFresh fresh (pageOf state.disposed), []) := by
  cases state with
  | page p =>
      cases p with
      | login s =>
          have hm : s.mounted = true := h
          exact ⟨.login .dispose, by simp [Pages.onEvent, Pages.handle, pageOf, withFresh, hm,
            Pages.Page.mounted, Login.program, Login.onEvent, Login.handle, Pages.lift,
            State.disposed, Login.calls]⟩
      | gamePage s =>
          have hm : s.mounted = true := h
          exact ⟨.gamePage .dispose, by simp [Pages.onEvent, Pages.handle, pageOf, withFresh, hm,
            Pages.Page.mounted, GamePage.onEvent, Pages.lift, State.disposed]⟩
      | newGame s =>
          have hm : s.mounted = true := h
          exact ⟨.newGame .dispose, by simp [Pages.onEvent, Pages.handle, pageOf, withFresh, hm,
            Pages.Page.mounted, NewGame.onEvent, Pages.lift, State.disposed]⟩
      | newGroup s =>
          have hm : s.mounted = true := h
          exact ⟨.newGroup .dispose, by simp [Pages.onEvent, Pages.handle, pageOf, withFresh, hm,
            Pages.Page.mounted, NewGroup.onEvent, Pages.lift, State.disposed]⟩
      | search s =>
          have hm : s.mounted = true := h
          exact ⟨.search .dispose, by simp [Pages.onEvent, Pages.handle, pageOf, withFresh, hm,
            Pages.Page.mounted, UserSearch.onEvent, Pages.lift, State.disposed]⟩
      | friends s =>
          have hm : s.mounted = true := h
          exact ⟨.friends .dispose, by simp [Pages.onEvent, Pages.handle, pageOf, withFresh, hm,
            Pages.Page.mounted, Friends.onEvent, Pages.lift, State.disposed]⟩
  | new s =>
      have hm : s.mounted = true := h
      exact ⟨.gamePage .dispose, by simp [Pages.onEvent, Pages.handle, pageOf, withFresh, hm,
        Pages.Page.mounted, GamePage.onEvent, Pages.lift, State.disposed]⟩

theorem withFresh_freshAfter (fresh : Bool) (page : Pages.Page) :
    withFresh (freshAfter fresh page) page = page := by
  cases page <;> rfl

/-- The back button leaves `_fresh` alone, whatever it is. -/
theorem onEvent_back (page : Pages.Page) (f f' : Bool) :
    Pages.onEvent (withFresh f' page) (.search .back) =
      (Pages.onEvent (withFresh f page) (.search .back)).map fun r => (withFresh f' r.1, r.2) := by
  cases page with
  | search s =>
      simp only [Pages.onEvent, or_true, if_true, withFresh, Pages.handle, UserSearch.onEvent]
      split <;> rfl
  | login | gamePage | newGame | newGroup | friends =>
      simp [Pages.onEvent, Pages.handle, withFresh]

/-- The back button removes an entry of a page that is gone. -/
theorem Mirrored.back (h : Mirrored B c) {n : Nat} {app : App} {page : Pages.Page}
    {r : Pages.Page × List (Call Pages.Cont)} (hn : (c.clients i).states[n]? = some (.page page))
    (hgone : page.mounted = false)
    (he : Pages.onEvent (withFresh (c.clients i).fresh page) (.search .back) = some r)
    (hstates : app.states = (c.clients i).states.set n (.page r.1))
    (hlaunched : app.launched = (c.clients i).launched)
    (hfresh : app.fresh = (c.clients i).fresh ∨ LoneSearch (c.clients i).states n) :
    Mirrored B (c.post i app (calls n r.2) []) := by
  intro plan hplan
  obtain ⟨c', hc', hmirrors⟩ := h plan hplan
  obtain ⟨f, hclient⟩ := (hmirrors.clients.built i n _ hn).2
  have hmounted : r.1.mounted = false := by
    have he' : Pages.onEvent (withFresh (c.clients i).fresh page) (.search .back) =
        some (r.1, r.2) := he
    rw [(stays_event he' rfl).2, withFresh_mounted]
    exact hgone
  have he' : Pages.onEvent (c'.clients (i, some n)) (.search .back) =
      some (withFresh f r.1, r.2) := by
    rw [hclient, pageOf, onEvent_back page (c.clients i).fresh f, he]
    rfl
  refine ⟨_, hc'.step (a := .event (i, some n) (.search .back)) trivial
    (step_event_of (S := firebase (Place ι) Pages.Cont) he'), ?_⟩
  have hstands : Stands app.fresh (.page r.1) (withFresh f r.1) :=
    ⟨fun hm => absurd (hmounted.symm.trans hm) (by decide), f, rfl⟩
  refine hmirrors.post (fun _ _ => rfl) rfl ?_ ?_ hstands hlaunched hfresh
    (Pages.event_asks_or_not he')
  · intro m hm
    rw [hstates, List.getElem?_set_ne (Ne.symm hm)]
  · rw [hstates]
    exact List.getElem?_set_self (List.getElem?_eq_some_iff.mp hn).1

/-- A change of what is on the screen alone. -/
theorem Mirrored.still (h : Mirrored B c) (hcore : app.core = (c.clients i).core) :
    Mirrored B (c.post i app [] []) := by
  intro plan hplan
  obtain ⟨c', hc', hmirrors⟩ := h plan hplan
  obtain ⟨hlaunched, hstates, hfresh⟩ := Core.mk.inj hcore
  have hclients : ∀ j, (Function.update c.clients i app j).launched = (c.clients j).launched ∧
      (Function.update c.clients i app j).states = (c.clients j).states ∧
      (Function.update c.clients i app j).fresh = (c.clients j).fresh := by
    intro j
    by_cases hj : j = i
    · rw [hj, Function.update_self]
      exact ⟨hlaunched, hstates, hfresh⟩
    · rw [Function.update_of_ne hj]
      exact ⟨rfl, rfl, rfl⟩
  have htraffic := hmirrors.traffic
  refine ⟨c', hc', ⟨?_, htraffic.answers, ?_, htraffic.db, htraffic.accounts, htraffic.session⟩,
    ?_, ?_, ?_⟩
  · rw [htraffic.calls, Config.post_calls, List.map_nil, List.append_nil]
  · rw [htraffic.issued, Config.post_issued, List.map_nil, List.append_nil]
  · intro j m state hm
    rw [Config.post_clients, (hclients j).2.1] at hm
    rw [Config.post_clients, (hclients j).2.2]
    exact hmirrors.clients.built j m state hm
  · intro j m hm
    rw [Config.post_clients, (hclients j).2.1] at hm
    exact hmirrors.clients.unbuilt j m hm
  · intro j
    rw [Config.post_clients, (hclients j).1]
    exact hmirrors.clients.root j

/-- The root page asks for the user. -/
theorem Mirrored.launches (h : Mirrored B c) (hclosed : (c.clients i).launched = false)
    (hlaunched : app.launched = true) (hstates : app.states = (c.clients i).states)
    (hfresh : app.fresh = (c.clients i).fresh) :
    Mirrored B (c.post i app [⟨.root, .currentUser⟩] []) := by
  intro plan hplan
  obtain ⟨c', hc', hmirrors⟩ := h plan hplan
  obtain ⟨s, hs, hmounted, hopened⟩ := hmirrors.clients.root i
  rw [hclosed] at hopened
  have he : Pages.onEvent (c'.clients (i, none)) (.gamePage .initState) =
      some (.gamePage { s with opened := true }, [⟨.currentUser, .currentUser⟩]) := by
    rw [hs]
    simp [Pages.onEvent, Pages.Page.mounted, hmounted, Pages.handle, GamePage.onEvent, hopened,
      Pages.lift, Pages.ofGamePage]
  refine ⟨_, hc'.step (a := .event (i, none) (.gamePage .initState)) trivial
    (step_event_of (S := firebase (Place ι) Pages.Cont) he), ⟨?_, ?_⟩⟩
  · have htraffic : Traffic plan (c.post i app [⟨.root, .currentUser⟩] [])
        (c'.post (i, none) (.gamePage { s with opened := true })
          [⟨.currentUser, .currentUser⟩] []) :=
      hmirrors.traffic.post (fun _ => rfl) (List.forall_mem_singleton.mpr rfl)
        (Pages.event_asks_or_not he)
    exact htraffic
  · exact hmirrors.clients.postRoot (s := { s with opened := true }) hstates hfresh hmounted
      hlaunched.symm

/-- **A step lemma for the moves**, by their shape. -/
theorem Mirrored.moves {core core' : Core} {out : List (Call Cont)} (hm : Moves core core' out) :
    ∀ {c : DeviceConfig ι} {app : App}, Mirrored B c → (c.clients i).core = core →
      app.core = core' → Mirrored B (c.post i app out []) := by
  induction hm with
  | stays core =>
      intro c app h hcore hcore'
      exact h.still (hcore'.trans hcore.symm)
  | launches states fresh =>
      intro c app h hcore hcore'
      obtain ⟨hclosed, rfl, rfl⟩ := Core.mk.inj hcore
      obtain ⟨hlaunched, hstates, hfresh⟩ := Core.mk.inj hcore'
      exact h.launches hclosed hlaunched hstates hfresh
  | creates now state hnew =>
      intro c app h hcore hcore'
      obtain ⟨rfl, rfl, rfl⟩ := Core.mk.inj hcore
      obtain ⟨hlaunched, hstates, hfresh⟩ := Core.mk.inj hcore'
      exact h.creates hnew hstates hlaunched hfresh
  | disposes n state hn hmounted =>
      intro c app h hcore hcore'
      obtain ⟨rfl, rfl, rfl⟩ := Core.mk.inj hcore
      obtain ⟨hlaunched, hstates, hfresh⟩ := Core.mk.inj hcore'
      obtain ⟨e, he⟩ := onEvent_disposed (c.clients i).fresh hmounted
      show Mirrored B (c.post i app (calls n []) [])
      refine h.event hn hmounted (e := e) ?_ hstates hlaunched (Or.inl hfresh)
      rw [hfresh]
      exact he
  | raises n page e r hn _ he hfresh =>
      intro c app h hcore hcore'
      obtain ⟨rfl, rfl, rfl⟩ := Core.mk.inj hcore
      obtain ⟨hlaunched, hstates, hafter⟩ := Core.mk.inj hcore'
      cases hmounted : page.mounted with
      | true =>
          have hsame : withFresh app.fresh r.1 = r.1 := hafter ▸ withFresh_freshAfter _ _
          refine h.event hn hmounted (e := e) ?_ hstates hlaunched (hafter ▸ hfresh)
          rw [show pageOf (.page r.1) = r.1 from rfl, hsame]
          exact he
      | false =>
          have he' : Pages.onEvent (withFresh (c.clients i).fresh page) e = some (r.1, r.2) := he
          obtain ⟨rfl, -⟩ :=
            Disposed.raised_gone he' ((withFresh_mounted (c.clients i).fresh page).trans hmounted)
          exact h.back hn hmounted he hstates hlaunched (hafter ▸ hfresh)
  | @trans core₁ core₂ core₃ out₁ out₂ _ _ ih₁ ih₂ =>
      intro c app h hcore hcore'
      let app₂ : App := { launched := core₂.launched, states := core₂.states, fresh := core₂.fresh }
      have hfirst : Mirrored B (c.post i app₂ out₁ []) := ih₁ h hcore rfl
      have hsecond : Mirrored B ((c.post i app₂ out₁ []).post i app out₂ []) :=
        ih₂ hfirst (congrArg App.core (Config.post_clients_self ..)) hcore'
      rwa [Config.post_post] at hsecond

end Moves

/-! ## Evaluating a call -/

section Serve

variable {B : Backend ι → Prop} {c : DeviceConfig ι} {c' : Pages.PageConfig (Place ι)}
  {plan plan' : Plan ι}

/-- Backends that store the same evaluate a request alike, if it finds the same user. -/
theorem serve_same {b b₁ : Backend ι} {b' : Backend (Place ι)} {i : ι} {p : Place ι} {r : Request}
    {o : Outcome} {a : Answer} (hstore : SameStore b b')
    (huser : r = .currentUser → b'.session p = b.session i) (hs : b.serve i r o = some (b₁, a)) :
    ∃ b₁', b'.serve p r o = some (b₁', a) ∧ SameStore b₁ b₁' ∧
      ∀ q, (Pages.Submits r → q ≠ p) → b₁'.session q = b'.session q := by
  obtain ⟨hdb, haccounts⟩ := hstore
  cases o with
  | reject e =>
      obtain ⟨rfl, rfl⟩ := Prod.mk.inj (Option.some.inj hs)
      exact ⟨b', rfl, ⟨hdb, haccounts⟩, fun _ _ => rfl⟩
  | accept fresh =>
      cases r with
      | whereEq coll name v =>
          obtain ⟨rfl, rfl⟩ := Prod.mk.inj (Option.some.inj hs)
          exact ⟨b', by rw [← hdb]; rfl, ⟨hdb, haccounts⟩, fun _ _ => rfl⟩
      | get doc =>
          obtain ⟨rfl, rfl⟩ := Prod.mk.inj (Option.some.inj hs)
          exact ⟨b', by rw [← hdb]; rfl, ⟨hdb, haccounts⟩, fun _ _ => rfl⟩
      | setData doc data =>
          obtain ⟨rfl, rfl⟩ := Prod.mk.inj (Option.some.inj hs)
          exact ⟨_, rfl, ⟨by rw [hdb], haccounts⟩, fun _ _ => rfl⟩
      | add coll data =>
          obtain ⟨hnone, hs⟩ := Option.ite_none_right_eq_some.mp hs
          obtain ⟨rfl, rfl⟩ := Prod.mk.inj (Option.some.inj hs)
          rw [← hdb] at hnone
          exact ⟨_, if_pos hnone, ⟨by rw [hdb], haccounts⟩, fun _ _ => rfl⟩
      | currentUser =>
          obtain ⟨rfl, rfl⟩ := Prod.mk.inj (Option.some.inj hs)
          exact ⟨b', by rw [← huser rfl]; rfl, ⟨hdb, haccounts⟩, fun _ _ => rfl⟩
      | signIn email password =>
          rcases email with - | email <;> rcases password with - | password <;>
            simp only [Backend.serve, reduceCtorEq] at hs
          split at hs
          · next account hfound =>
              obtain ⟨hpass, hs⟩ := Option.ite_none_right_eq_some.mp hs
              obtain ⟨rfl, rfl⟩ := Prod.mk.inj (Option.some.inj hs)
              refine ⟨{ b' with session := Function.update b'.session p (some account.uid) }, ?_,
                ⟨hdb, haccounts⟩, fun q hq => Function.update_of_ne (hq trivial) _ _⟩
              simp only [Backend.serve, haccounts, hfound, hpass, if_true]
          · cases hs
      | createUser email password =>
          rcases email with - | email <;> rcases password with - | password <;>
            simp only [Backend.serve, reduceCtorEq] at hs
          obtain ⟨hfree, hs⟩ := Option.ite_none_right_eq_some.mp hs
          obtain ⟨rfl, rfl⟩ := Prod.mk.inj (Option.some.inj hs)
          have huids : b'.uids = b.uids := by rw [Backend.uids, haccounts]; rfl
          rw [← haccounts, ← huids] at hfree
          exact ⟨_, if_pos hfree, ⟨hdb, by rw [haccounts]⟩,
            fun q hq => Function.update_of_ne (hq trivial) _ _⟩

omit [DecidableEq ι] in
/-- Only what the pages in unbuilt places begin as matters. -/
theorem Matches.congr {clients : ι → App} {pages : Place ι → Pages.Page}
    (h : Matches plan clients pages) (hplan : ∀ q, (plan' q).1 = (plan q).1) :
    Matches plan' clients pages where
  built := h.built
  unbuilt i n hn := (h.unbuilt i n hn).trans (hplan _).symm
  root := h.root

omit [DecidableEq ι] in
theorem mem_calls_of_mirrors (h : Mirrors plan c c') {k : Nat} {m : Message ι (Call Cont) Answer}
    (hk : c.calls[k]? = some m) : c'.calls[k]? = some (messageOf m) := by
  rw [h.traffic.calls, List.getElem?_map, hk]
  rfl

theorem Mirrored.serve (h : Mirrored B c) {k : Nat} {o : Outcome} {m : Message ι (Call Cont) Answer}
    {b : Backend ι} {r : Answer} (hk : c.calls[k]? = some m)
    (hs : c.backend.serve m.client m.call.req o = some (b, r)) : Mirrored B (c.served k m b r) := by
  intro plan hplan
  -- the page finds the user who is signed in on the device now
  let found : Option String :=
    if m.call.req = .currentUser then c.backend.session m.client
    else (plan (messageOf m).client).2
  obtain ⟨c', hc', hmirrors⟩ :=
    h (plan.finds (messageOf m).client found) (hplan.finds _ _ _)
  have hk' := mem_calls_of_mirrors hmirrors hk
  have hsession := hmirrors.traffic.session
  have hasked := Pages.askedOnce hc'
  have hlogin := Pages.submitters hc' (messageOf m)
    ((Pages.inFlightIssued hc').1 _ (List.mem_of_getElem? hk'))
  have huser : m.call.req = .currentUser →
      c'.backend.session (messageOf m).client = c.backend.session m.client := by
    intro hreq
    have hasker : Pages.asker (messageOf m) = some (messageOf m).client :=
      Pages.asker_eq.mpr ⟨hreq, rfl⟩
    have huntold : Untold c' (messageOf m).client :=
      Or.inr (List.mem_filterMap.mpr ⟨_, List.mem_of_getElem? hk', hasker⟩)
    rw [hsession _ huntold, Plan.finds_self]
    exact if_pos hreq
  have hsame : SameStore c.backend c'.backend := ⟨hmirrors.traffic.db, hmirrors.traffic.accounts⟩
  obtain ⟨b', hserve, hstore, hkeeps⟩ := serve_same hsame huser hs
  refine ⟨_, hc'.step (a := .serve k o) trivial
    (step_serve_of (P := Pages.program) (S := firebase (Place ι) Pages.Cont) hk' hserve), ⟨?_, ?_⟩⟩
  · refine ⟨?_, ?_, hmirrors.traffic.issued, hstore.1, hstore.2, ?_⟩
    · rw [Config.served_calls, Config.served_calls, hmirrors.traffic.calls, List.eraseIdx_map]
    · rw [Config.served_answers, Config.served_answers, hmirrors.traffic.answers, List.map_append]
      rfl
    · intro q hq
      have hbefore : Untold c' q := by
        refine hq.imp id fun hmem => ?_
        exact ((List.eraseIdx_sublist c'.calls k).filterMap _).subset hmem
      -- who signs in does not ask
      have hstays : Pages.Submits m.call.req → q ≠ (messageOf m).client := by
        rintro hsubmits rfl
        have hpage := hlogin.1 hsubmits
        rcases hbefore with hbegun | hmem
        · revert hpage hbegun
          cases c'.clients (messageOf m).client with
          | login s => exact fun _ hbegun => Bool.noConfusion hbegun
          | gamePage | newGame | newGroup | search | friends =>
              exact fun hpage => Bool.noConfusion hpage
        · obtain ⟨m', hm', hasker⟩ := List.mem_filterMap.mp hmem
          obtain ⟨hreq, hclient⟩ := Pages.asker_eq.mp hasker
          have hnot := (Pages.submitters hc' m' ((Pages.inFlightIssued hc').1 _ hm')).2 hreq
          rw [hclient, hpage] at hnot
          cases hnot
      show b'.session q = (plan q).2
      rw [hkeeps q hstays, hsession q hbefore]
      by_cases hqm : q = (messageOf m).client
      · subst hqm
        rw [Plan.finds_self]
        show (if m.call.req = .currentUser then _ else _) = _
        split
        · next hreq =>
            rcases hq with hbegun | hmem
            · have hasker : Pages.asker (messageOf m) = some (messageOf m).client :=
                Pages.asker_eq.mpr ⟨hreq, rfl⟩
              have hbegan := hasked.begun _
                (List.mem_filterMap.mpr ⟨_, List.mem_of_getElem? hk', hasker⟩)
              rw [Config.served_clients, hbegan] at hbegun
              cases hbegun
            · exact absurd hmem (hasked.served hk' hreq)
        · rfl
      · rw [Plan.finds_ne _ _ _ hqm]
  · exact Matches.congr hmirrors.clients fun q => (Plan.finds_page plan _ found q).symm

end Serve

/-! ## Handling an answer -/

section Deliver

variable {B : Backend ι → Prop} {c : DeviceConfig ι} {c' : Pages.PageConfig (Place ι)}
  {plan : Plan ι}

/-- No answer looks at `_fresh` or changes it; but what a search page writes carries the page. -/
theorem onAnswer_fresh (page : Pages.Page) (cont : Pages.Cont) (a : Answer) (r : Draw) (f : Bool) :
    freshAfter f (Pages.onAnswer (withFresh f page) cont a r).1 = f ∧
      (page.mounted = false → ∀ f',
        Pages.onAnswer (withFresh f' page) cont a r =
          (withFresh f' (Pages.onAnswer (withFresh f page) cont a r).1,
            (Pages.onAnswer (withFresh f page) cont a r).2)) := by
  by_cases hsearch : (State.page page).kind = .search
  · cases page with
    | search s =>
        cases cont with
        | search cont =>
            have hkeeps := (UserSearch.onAnswer_keeps { s with fresh := f } cont a).2.1
            refine ⟨hkeeps, fun hm f' => ?_⟩
            have hm' : s.mounted = false := hm
            show Pages.lift .search Pages.ofSearch
              (UserSearch.onAnswer { s with fresh := f' } cont a) =
              (withFresh f' (Pages.lift .search Pages.ofSearch
                  (UserSearch.onAnswer { s with fresh := f } cont a)).1,
                (Pages.lift .search Pages.ofSearch
                  (UserSearch.onAnswer { s with fresh := f } cont a)).2)
            -- a page that is gone writes nothing
            unfold UserSearch.onAnswer
            split
            · rfl
            · next d =>
                cases d with
                | none => rfl
                | some profile =>
                    simp only [UserSearch.fetched, hm', Bool.false_eq_true, if_false]
                    rfl
            · rfl
        | currentUser | login | newGame | newGroup | friends | written =>
            exact ⟨rfl, fun _ _ => rfl⟩
    | login | gamePage | newGame | newGroup | friends => cases hsearch
  · have hpage : ∀ g, withFresh g page = page := withFresh_other (.page page) hsearch
    have hkind := (stays_answer page cont a r).1.trans_ne hsearch
    have hres := withFresh_other (.page (Pages.onAnswer page cont a r).1) hkind
    simp only [hpage]
    refine ⟨freshAfter_eq hkind, fun _ f' => ?_⟩
    exact congrArg (·, (Pages.onAnswer page cont a r).2) (hres f').symm

omit [DecidableEq ι] in
/-- Nothing is matched but what is there when an answer is taken off. -/
theorem Mirrors.taken (h : Mirrors plan c c') (k : Nat) :
    Mirrors plan (c.taken k) (c'.taken k) where
  traffic := by
    have htraffic := h.traffic
    refine ⟨htraffic.calls, ?_, htraffic.issued, htraffic.db, htraffic.accounts, htraffic.session⟩
    rw [Config.taken_answers, Config.taken_answers, htraffic.answers, List.eraseIdx_map]
  clients := h.clients

/-- What code of a `State` does on an answer, the code of its page does. -/
theorem onAnswer_state {app : App} {n : Nat} {state : State} (hn : app.states[n]? = some state)
    (cont : Pages.Cont) (a : Answer) (r : Draw) : ∃ state' out,
      (onAnswer app (.state n cont) a r).2 = calls n out ∧
      (onAnswer app (.state n cont) a r).1.states = app.states.set n state' ∧
      (onAnswer app (.state n cont) a r).1.fresh = app.fresh ∧
      (onAnswer app (.state n cont) a r).1.launched = app.launched ∧
      ∀ page, Stands app.fresh state page →
        (Pages.onAnswer page cont a r).2 = out ∧
          Stands app.fresh state' (Pages.onAnswer page cont a r).1 := by
  cases state with
  | page p =>
      obtain ⟨hfresh, hgone⟩ := onAnswer_fresh p cont a r app.fresh
      refine ⟨.page (Pages.onAnswer (withFresh app.fresh p) cont a r).1,
        (Pages.onAnswer (withFresh app.fresh p) cont a r).2, ?_⟩
      have happ : onAnswer app (.state n cont) a r =
          ran (if signsIn p cont a then
            { app with root := RootPage.updateAuthStatus .signedIn app.root } else app) n
            (Pages.onAnswer (withFresh app.fresh p) cont a r) := by
        simp only [onAnswer, hn]
      rw [happ]
      refine ⟨rfl, ?_, ?_, ?_, ?_⟩
      · split <;> rfl
      · refine Eq.trans ?_ hfresh
        split <;> rfl
      · split <;> rfl
      · intro page hstands
        have hmounted := (stays_answer (withFresh app.fresh p) cont a r).2
        rw [withFresh_mounted] at hmounted
        have hsame : withFresh app.fresh (Pages.onAnswer (withFresh app.fresh p) cont a r).1 =
            (Pages.onAnswer (withFresh app.fresh p) cont a r).1 := by
          have hafter := withFresh_freshAfter app.fresh
            (Pages.onAnswer (withFresh app.fresh p) cont a r).1
          rwa [hfresh] at hafter
        cases hm : p.mounted with
        | true =>
            obtain rfl : page = withFresh app.fresh p := hstands.1 hm
            exact ⟨rfl, fun _ => hsame.symm, _, hsame.symm⟩
        | false =>
            obtain ⟨f', rfl⟩ := hstands.2
            have heq := hgone hm f'
            rw [show pageOf (.page p) = p from rfl, heq]
            refine ⟨rfl, fun hthere => ?_, f', rfl⟩
            rw [show (State.page _).mounted = _ from hmounted, hm] at hthere
            cases hthere
  | new s =>
      have hclient : ∀ page, Stands app.fresh (.new s) page →
          page = .gamePage ⟨s.toUserLookup, s.opened, s.mounted⟩ := by
        rintro page ⟨-, f, rfl⟩
        rfl
      cases cont with
      | currentUser =>
          refine ⟨.new (New.onAnswer s .userIdFound a).1, [], ?_⟩
          have happ : onAnswer app (.state n .currentUser) a r =
              ({ app with states := app.states.set n (.new (New.onAnswer s .userIdFound a).1) },
                calls n (newCalls (New.onAnswer s .userIdFound a).2)) := by
            simp only [onAnswer, hn]
          rw [happ]
          refine ⟨by cases a <;> rfl, rfl, rfl, rfl, ?_⟩
          intro page hstands
          rw [hclient page hstands]
          cases a <;> exact ⟨rfl, fun _ => rfl, false, rfl⟩
      | login | newGame | newGroup | search | friends | written =>
          refine ⟨.new s, [], ?_⟩
          simp only [onAnswer, hn]
          refine ⟨rfl, (set_same hn).symm, trivial, trivial, ?_⟩
          intro page hstands
          rw [hclient page hstands]
          exact ⟨rfl, fun _ => rfl, false, rfl⟩

theorem Mirrored.deliver (h : Mirrored B c) {k : Nat} {m : Message ι (Call Cont) Answer}
    {a : Answer}
    (hk : c.answers[k]? = some (m, a)) (hplaced : Placed (c.clients m.client).states m.call)
    (r : Draw) : Mirrored B ((c.taken k).post m.client
      (onAnswer (c.clients m.client) m.call.cont a r).1
      (onAnswer (c.clients m.client) m.call.cont a r).2 ((m.call, a) :: m.cause)) := by
  intro plan hplan
  obtain ⟨c', hc', hmirrors⟩ := h plan hplan
  have hk' : c'.answers[k]? = some (messageOf m, a) := by
    rw [hmirrors.traffic.answers, List.getElem?_map, hk]
    rfl
  refine ⟨_, hc'.step (a := .deliver k r) trivial
    (step_deliver_of (P := Pages.program) (S := firebase (Place ι) Pages.Cont) hk'), ?_⟩
  have htaken := hmirrors.taken k
  obtain ⟨i, ⟨cont, req⟩, cause⟩ := m
  cases cont with
  | root =>
      obtain ⟨s, hs, hmounted, hopened⟩ := hmirrors.clients.root i
      have hpage : Pages.program.onAnswer (c'.clients (i, none)) ⟨.currentUser, req⟩ a r =
          (.gamePage (GamePage.onAnswer s .userIdFound a).1, []) := by
        rw [hs]
        cases a <;> rfl
      have happ : (onAnswer (c.clients i) .root a r).2 = [] ∧
          (onAnswer (c.clients i) .root a r).1.states = (c.clients i).states ∧
          (onAnswer (c.clients i) .root a r).1.fresh = (c.clients i).fresh ∧
          (onAnswer (c.clients i) .root a r).1.launched = (c.clients i).launched := by
        cases a <;> exact ⟨rfl, rfl, rfl, rfl⟩
      have hlookup : (GamePage.onAnswer s .userIdFound a).1.mounted = true ∧
          (GamePage.onAnswer s .userIdFound a).1.opened = s.opened := by
        cases a <;> exact ⟨hmounted, rfl⟩
      obtain ⟨hout, hstates, hfresh, hlaunched⟩ := happ
      show Mirrors plan _ ((c'.taken k).post (i, none)
        (Pages.program.onAnswer (c'.clients (i, none)) ⟨.currentUser, req⟩ a r).1
        (Pages.program.onAnswer (c'.clients (i, none)) ⟨.currentUser, req⟩ a r).2 _)
      rw [hpage, hout]
      have htraffic : ∀ cause, Pages.Asks [] (Pages.begun (c'.clients (i, none)))
          (Pages.begun (.gamePage (GamePage.onAnswer s .userIdFound a).1)) →
            Traffic plan ((c.taken k).post i (onAnswer (c.clients i) .root a r).1 [] cause)
              ((c'.taken k).post (i, none) (.gamePage (GamePage.onAnswer s .userIdFound a).1) []
                (causeOf cause)) :=
        fun cause => htaken.traffic.post (fun _ => rfl) (List.forall_mem_nil _)
      refine ⟨htraffic _ (Or.inl ⟨?_, List.forall_mem_nil _⟩), ?_⟩
      · show (GamePage.onAnswer s .userIdFound a).1.opened = Pages.begun (c'.clients (i, none))
        rw [hs]
        exact hlookup.2
      · exact htaken.clients.postRoot hstates hfresh hlookup.1
          (hlookup.2.trans (hopened.trans hlaunched.symm))
  | state n cont =>
      obtain ⟨state, hn⟩ : ∃ state, (c.clients i).states[n]? = some state :=
        ⟨_, List.getElem?_eq_getElem (hplaced n cont rfl)⟩
      obtain ⟨state', out, hout, hstates, hfresh, hlaunched, hpage⟩ := onAnswer_state hn cont a r
      obtain ⟨hout', hstands⟩ := hpage _ (hmirrors.clients.built i n state hn)
      have hpost : Mirrors plan
          ((c.taken k).post i (onAnswer (c.clients i) (.state n cont) a r).1 (calls n out)
            ((⟨.state n cont, req⟩, a) :: cause))
          ((c'.taken k).post (i, some n) (Pages.onAnswer (c'.clients (i, some n)) cont a r).1 out
            (causeOf ((⟨.state n cont, req⟩, a) :: cause))) := by
        have hthere : (onAnswer (c.clients i) (.state n cont) a r).1.states[n]? = some state' := by
          rw [hstates]
          exact List.getElem?_set_self (List.getElem?_eq_some_iff.mp hn).1
        have hnow := Pages.answer_asks_not (Prod.eta
          (Pages.onAnswer (c'.clients (i, some n)) cont a r)).symm
        refine htaken.post (fun _ _ => rfl) rfl ?_ hthere (hfresh ▸ hstands) hlaunched
          (Or.inl hfresh)
          (Or.inl ⟨hnow.1, hout' ▸ hnow.2⟩)
        intro m hm
        rw [hstates, List.getElem?_set_ne (Ne.symm hm)]
        rfl
      show Mirrors plan _ ((c'.taken k).post (i, some n)
        (Pages.onAnswer (c'.clients (i, some n)) cont a r).1
        (Pages.onAnswer (c'.clients (i, some n)) cont a r).2 _)
      rw [hout, hout']
      exact hpost

end Deliver

/-! ## Every run -/

section Reach

variable {B : Backend ι → Prop} {C : DeviceConfig ι → DeviceAction ι → Prop} {c : DeviceConfig ι}

theorem mirrored (h : (devices ι B).Reach C c) : Mirrored B c := by
  refine h.invariant ?_ ?_
  · rintro _ ⟨b, hb, rfl⟩ plan hplan
    refine ⟨Config.start (fun p => (plan p).1) ⟨b.db, b.accounts, fun p => (plan p).2⟩ [],
      Machine.Reach.init ⟨_, _, hplan.1, ⟨b, hb, rfl, rfl⟩, rfl⟩,
      ⟨rfl, rfl, rfl, rfl, rfl, fun _ _ => rfl⟩, ?_, fun _ _ _ => rfl, ?_⟩
    · intro i n state hn
      cases hn
    · intro i
      exact ⟨{}, hplan.2 i, rfl, rfl⟩
  · intro c a c' hr hq _ hs
    refine step_keeps (Q := Mirrored B) hs ?_ ?_ ?_
    · intro i e app out _ he
      exact hq.moves (moves_reach hr he) rfl rfl
    · intro k o m b r _ hk hserve
      exact hq.serve hk hserve
    · intro k d m a app out _ hk ha
      obtain ⟨rfl, rfl⟩ := Prod.mk.inj ha
      exact hq.deliver hk (placed hr m ((inFlightIssued hr).2 _ (List.mem_of_getElem? hk))) d

/-- **The app is made of its pages.** What the devices do, pages that are clients of their own can
do: the same calls are outstanding, answered and issued, the same documents and accounts are stored,
and each page is as it is on its device. -/
theorem composed (h : (devices ι B).Reachable c) : ∃ c', (pagesOf B).Reachable c' ∧
    SameStore c.backend c'.backend ∧ c'.calls = c.calls.map messageOf ∧
    c'.answers = c.answers.map answerOf ∧ c'.issued = c.issued.map messageOf ∧
    ∀ i n state, (c.clients i).states[n]? = some state →
      Stands (c.clients i).fresh state (c'.clients (i, some n)) := by
  obtain ⟨c', hc', htraffic, hclients⟩ :=
    mirrored h (fun _ => (.gamePage {}, none)) ⟨fun _ => rfl, fun _ => rfl⟩
  exact ⟨c', hc', ⟨htraffic.db, htraffic.accounts⟩, htraffic.calls, htraffic.answers,
    htraffic.issued, hclients.built⟩

/-- From the launch to the Friends page: the calls, and the places they belong to. -/
theorem composed_ola : ∃ c : DeviceConfig Unit, anyDevices.run olaDevice
      (toNewGroup ++ [.event () (.page (.newGroup (.pressCreate 7)))]) = some c ∧
    c.issued.map (placeOf ·.call.cont) = [none, some 1, some 2, some 3, some 3, some 4, some 4] ∧
    ∃ c', (pagesOf fun _ => True).Reachable c' ∧
      SameStore c.backend c'.backend ∧ c'.calls = c.calls.map messageOf ∧
      c'.answers = c.answers.map answerOf ∧ c'.issued = c.issued.map messageOf ∧
      ∀ i n state, (c.clients i).states[n]? = some state →
        Stands (c.clients i).fresh state (c'.clients (i, some n)) := by
  have hrun : (anyDevices.run olaDevice (toNewGroup ++
      ([.event () (.page (.newGroup (.pressCreate 7)))] : List (DeviceAction Unit)))).map
        (fun c => c.issued.map (placeOf ·.call.cont)) =
      some [none, some 1, some 2, some 3, some 3, some 4, some 4] := by
    decide +kernel
  obtain ⟨c, hc, hseen⟩ := Option.map_eq_some_iff.mp hrun
  exact ⟨c, hc, hseen, composed (Machine.Reach.of_follow ⟨_, trivial, rfl⟩ hc)⟩

end Reach

end P0ker.Composition
