import P0ker.Navigation

/-!
# What an event of the app comes to

Most of the app's state says what is on the screen. Of what is left, the `State`s and `_fresh`, an
event changes little: it is a sequence of a few kinds of moves, each of one `State`. `moves` says so
once, and what holds of all the pages follows from what each move does.
-/

namespace P0ker.MyApp

open Async Navigation

/-- What the calls of an app depend on. -/
structure Core where
  launched : Bool
  states : List State
  fresh : Bool
  deriving DecidableEq

def App.core (app : App) : Core :=
  ⟨app.launched, app.states, app.fresh⟩

/-- A `State` as its constructor leaves it. -/
def State.New (fresh : Bool) : State → Prop
  | .page p => p.New ∧ withFresh fresh p = p
  | .new s => s = {}

/-- No other search page than the one in place `n` is there. -/
def LoneSearch (states : List State) (n : Nat) : Prop :=
  ∀ m state, m ≠ n → states[m]? = some state → state.mounted = true → state.kind ≠ .search

/-- `Moves core core' out`: what the handlers do to the `State`s, and what they issue. -/
inductive Moves : Core → Core → List (Call Cont) → Prop
  | stays (core : Core) : Moves core core []
  | launches (states : List State) (fresh : Bool) :
      Moves ⟨false, states, fresh⟩ ⟨true, states, fresh⟩ [⟨.root, .currentUser⟩]
  | creates {launched : Bool} {states : List State} {fresh : Bool} (now : Now) (state : State) :
      state.New fresh →
      Moves ⟨launched, states, fresh⟩ ⟨launched, states ++ [(initState now state).1], fresh⟩
        (calls states.length (initState now state).2)
  | disposes {launched : Bool} {states : List State} {fresh : Bool} (n : Nat) (state : State) :
      states[n]? = some state → state.mounted = true →
      Moves ⟨launched, states, fresh⟩ ⟨launched, states.set n state.disposed, fresh⟩ []
  | raises {launched : Bool} {states : List State} {fresh : Bool} (n : Nat) (page : Pages.Page)
      (e : Pages.Event) (r : Pages.Page × List (Call Pages.Cont)) : states[n]? = some (.page page) →
      fromUser e = true → Pages.onEvent (withFresh fresh page) e = some r →
      (freshAfter fresh r.1 = fresh ∨ LoneSearch states n) →
      Moves ⟨launched, states, fresh⟩
        ⟨launched, states.set n (.page r.1), freshAfter fresh r.1⟩ (calls n r.2)
  | trans {core₁ core₂ core₃ : Core} {out₁ out₂ : List (Call Cont)} : Moves core₁ core₂ out₁ →
      Moves core₂ core₃ out₂ → Moves core₁ core₃ (out₁ ++ out₂)

/-! ## One function at a time -/

theorem moves_create (app : App) (now : Now) {state : State} (h : state.New app.fresh) :
    Moves app.core (create app now state).1.core (create app now state).2 :=
  .creates now state h

/-- Disposing what is not there does nothing. -/
theorem disposed_of_unmounted {s : State} (h : s.mounted = false) : s.disposed = s := by
  cases s with
  | page p =>
      cases p with
      | login s | gamePage s | newGame s | newGroup s | search s | friends s =>
          have hm : s.mounted = false := h
          simp only [State.disposed]
          rw [← hm]
  | new s =>
      have hm : s.mounted = false := h
      simp only [State.disposed]
      rw [← hm]

/-- Writing back what is there changes nothing. -/
theorem set_same {α : Type} {l : List α} {n : Nat} {x : α} (h : l[n]? = some x) :
    l.set n x = l := by
  obtain ⟨hn, rfl⟩ := List.getElem?_eq_some_iff.mp h
  exact List.set_getElem_self hn

theorem moves_dispose (app : App) (place : Option Nat) :
    Moves app.core (dispose app place).core [] := by
  cases place with
  | none => exact .stays _
  | some n =>
      have hmodify : (dispose app (some n)).core =
          ⟨app.launched, app.states.modify n State.disposed, app.fresh⟩ := rfl
      rw [hmodify]
      cases hn : app.states[n]? with
      | none =>
          rw [List.modify_eq_self (List.getElem?_eq_none_iff.mp hn)]
          exact .stays _
      | some state =>
          have hset : app.states.modify n State.disposed = app.states.set n state.disposed := by
            have : Inhabited State := ⟨state⟩
            rw [List.modify_eq_set, hn]
            rfl
          rw [hset]
          cases hm : state.mounted with
          | true => exact .disposes n state hn hm
          | false =>
              rw [disposed_of_unmounted hm, set_same hn]
              exact .stays _

/-- A search page that is there is the tab. -/
theorem tab_of_search {app : App} (h : Shown app) {m : Nat} {state : State}
    (hstate : app.states[m]? = some state) (hmounted : state.mounted = true)
    (hkind : state.kind = .search) : tab app = some m := by
  have hkindAt : (kinds app)[m]? = some .search := by
    rw [kinds, List.getElem?_map, hstate, ← hkind]
    rfl
  have halive : (alive app)[m]? = some true := by
    rw [alive, List.getElem?_map, hstate, ← hmounted]
    rfl
  rcases List.mem_append.mp ((h.held.mem m).mpr halive) with hmem | hmem
  · rcases List.mem_append.mp hmem with hlogin | htab
    · rw [h.login m (Option.mem_toList.mp hlogin)] at hkindAt
      cases hkindAt
    · exact Option.mem_toList.mp htab
  · -- no search page is ever pushed
    obtain ⟨stack, hstack, hmap⟩ := h.routes
    have hin : (kinds app)[m]? ∈ stack.map some := hmap ▸ List.mem_map_of_mem hmem
    obtain ⟨k, hk, heq⟩ := List.mem_map.mp hin
    obtain rfl := Option.some.inj (heq.trans hkindAt)
    have hnone : ∀ stack ∈ routeStacks, Kind.search ∉ stack := by decide
    exact absurd hk (hnone stack hstack)

theorem freshAfter_eq {fresh : Bool} {page : Pages.Page} (h : (State.page page).kind ≠ .search) :
    freshAfter fresh page = fresh := by
  cases page with
  | search s => exact absurd rfl h
  | login | gamePage | newGame | newGroup | friends => rfl

/-- The back button leaves the library's `_fresh` alone. -/
theorem freshAfter_back {fresh : Bool} {page : Pages.Page} {r : Pages.Page × List (Call Pages.Cont)}
    (h : Pages.onEvent (withFresh fresh page) (.search .back) = some r) :
    freshAfter fresh r.1 = fresh := by
  obtain ⟨page', out⟩ := r
  cases page with
  | search s =>
      cases (Pages.raised h).2 with
      | search hs =>
          cases UserSearch.ran hs with
          | back => rfl
  | login | gamePage | newGame | newGroup | friends => cases (Pages.raised h).2

/-- What happens on a page is one move. -/
theorem moves_onPage {app app' : App} {e : Pages.Event} {out : List (Call Cont)} (h : Shown app)
    (he : onPage app e = some (app', out)) (huser : fromUser e = true) :
    Moves app.core app'.core out := by
  obtain ⟨n, page, r, -, hn, hraised, heq⟩ := onPage_eq he
  obtain ⟨rfl, rfl⟩ := Prod.mk.inj heq
  refine .raises n page e r hn huser hraised ?_
  rcases (Pages.raised hraised).1 with hm | rfl
  · rw [withFresh_mounted] at hm
    by_cases hsearch : (State.page r.1).kind = .search
    · refine Or.inr fun m state hne hstate hmounted hkind' => hne ?_
      rw [(stays_event hraised huser).1, withFresh_kind] at hsearch
      have htab := tab_of_search h hn hm hsearch
      exact Option.some.inj ((tab_of_search h hstate hmounted hkind').symm.trans htab)
    · exact Or.inl (freshAfter_eq hsearch)
  · exact Or.inl (freshAfter_back hraised)

theorem Moves.then_create {core : Core} {app : App} {out : List (Call Cont)} (now : Now)
    {state : State} (h : Moves core app.core out) (hnew : state.New app.fresh) :
    Moves core (create app now state).1.core (out ++ (create app now state).2) :=
  h.trans (moves_create app now hnew)

theorem moves_build (app : App) : Moves app.core (build app).1.core (build app).2 := by
  unfold build
  split
  · split
    · exact moves_dispose app app.login
    · exact .stays _
  · split
    · exact (moves_dispose app (tab app)).then_create {} ⟨rfl, rfl⟩
    · exact .stays _

theorem moves_showTab {app : App} (place : Option Nat) (index : Nat) (page : BottomNav.Page) :
    Moves app.core (showTab (dispose app place) index page).1.core
      (showTab (dispose app place) index page).2 := by
  have hdispose := moves_dispose app place
  cases page with
  | pageOne => exact hdispose
  | gamePage => exact hdispose.then_create {} ⟨rfl, rfl⟩
  | displaySearch => exact hdispose.then_create {} ⟨rfl, rfl⟩

/-- **What an event comes to.** -/
theorem moves {app app' : App} {e : Event} {out : List (Call Cont)} (h : Shown app)
    (he : onEvent app e = some (app', out)) : Moves app.core app'.core out := by
  cases e with
  | launch =>
      simp only [onEvent, h.launched, if_true, reduceCtorEq] at he
  | build =>
      simp only [onEvent, h.launched, if_true, Option.some.injEq] at he
      have hbuild := moves_build app
      rwa [he] at hbuild
  | onTap index =>
      simp only [onEvent, onTap] at he
      split at he
      · split at he
        · obtain ⟨rfl, rfl⟩ := Prod.mk.inj (Option.some.inj he)
          exact .stays _
        · next home page _ _ _ _ =>
            obtain ⟨rfl, rfl⟩ := Prod.mk.inj (Option.some.inj he)
            exact moves_showTab home.tab index page
      · cases he
  | page e =>
      simp only [onEvent] at he
      split at he
      · next huser =>
          split at he
          · obtain ⟨⟨app'', out'⟩, hpage, heq⟩ := Option.map_eq_some_iff.mp he
            obtain ⟨rfl, rfl⟩ := Prod.mk.inj heq
            exact (moves_onPage h hpage huser).then_create {} ⟨rfl, rfl⟩
          · exact moves_onPage h he huser
      · cases he
  | add =>
      simp only [onEvent] at he
      split at he
      · obtain ⟨-, he⟩ := Option.ite_none_right_eq_some.mp he
        obtain ⟨rfl, rfl⟩ := Prod.mk.inj (Option.some.inj he)
        exact moves_create app {} rfl
      · cases he
  | tapNewGroup =>
      simp only [onEvent] at he
      split at he
      · obtain ⟨-, he⟩ := Option.ite_none_right_eq_some.mp he
        obtain ⟨rfl, rfl⟩ := Prod.mk.inj (Option.some.inj he)
        exact moves_create app {} ⟨rfl, rfl⟩
      · cases he
  | tapNewGame now =>
      simp only [onEvent] at he
      split at he
      · obtain ⟨-, he⟩ := Option.ite_none_right_eq_some.mp he
        obtain ⟨rfl, rfl⟩ := Prod.mk.inj (Option.some.inj he)
        exact moves_create app now ⟨rfl, rfl⟩
      · cases he
  | pop =>
      obtain ⟨app'', hpop, heq⟩ := Option.map_eq_some_iff.mp he
      obtain ⟨rfl, rfl⟩ := Prod.mk.inj heq
      unfold pop at hpop
      split at hpop
      · next n routes _ =>
          obtain rfl := Option.some.inj hpop
          exact moves_dispose app (some n)
      · cases hpop

/-- The launch asks for the user and shows the first Login page. -/
theorem moves_launch {app' : App} {out : List (Call Cont)}
    (he : onEvent {} .launch = some (app', out)) : Moves (App.core {}) app'.core out := by
  simp only [onEvent, Bool.false_eq_true, if_false, Option.some.injEq] at he
  obtain ⟨rfl, rfl⟩ := Prod.mk.inj he
  have hlaunch : Moves (App.core {}) (App.core { launched := true }) [⟨.root, .currentUser⟩] :=
    Moves.launches [] false
  exact hlaunch.then_create {} ⟨rfl, rfl⟩

/-! ## Whose calls they are -/

/-- The call belongs to the root page or to a `State` that has been built. -/
def Placed (states : List State) (call : Call Cont) : Prop :=
  ∀ n cont, call.cont = .state n cont → n < states.length

theorem Placed.mono {states states' : List State} {call : Call Cont} (h : Placed states call)
    (hle : states.length ≤ states'.length) : Placed states' call :=
  fun n cont hc => lt_of_lt_of_le (h n cont hc) hle

theorem placed_calls {states : List State} {n : Nat} (hn : n < states.length)
    (out : List (Call Pages.Cont)) : ∀ call ∈ calls n out, Placed states call := by
  intro call hc m cont hcont
  obtain ⟨c, -, rfl⟩ := List.mem_map.mp hc
  obtain ⟨rfl, -⟩ := Cont.state.inj hcont
  exact hn

theorem placed_moves {core core' : Core} {out : List (Call Cont)} (h : Moves core core' out) :
    core.states.length ≤ core'.states.length ∧ ∀ call ∈ out, Placed core'.states call := by
  induction h with
  | stays => exact ⟨le_rfl, List.forall_mem_nil _⟩
  | launches =>
      refine ⟨le_rfl, List.forall_mem_singleton.mpr ?_⟩
      intro n cont hcont
      cases hcont
  | creates now state _ =>
      refine ⟨?_, placed_calls ?_ _⟩ <;> simp only [List.length_append,
        List.length_singleton] <;> omega
  | disposes n state _ _ => exact ⟨List.length_set.ge, List.forall_mem_nil _⟩
  | raises n page e r hn _ _ _ =>
      refine ⟨List.length_set.ge, placed_calls ?_ _⟩
      exact lt_of_lt_of_eq (List.getElem?_eq_some_iff.mp hn).1 List.length_set.symm
  | trans _ _ ih₁ ih₂ =>
      refine ⟨ih₁.1.trans ih₂.1, ?_⟩
      intro call hc
      rcases List.mem_append.mp hc with hc | hc
      · exact (ih₁.2 call hc).mono ih₂.1
      · exact ih₂.2 call hc

theorem placed_onAnswer (app : App) (cont : Cont) (a : Answer) (r : Draw) :
    (onAnswer app cont a r).1.states.length = app.states.length ∧
      ∀ call ∈ (onAnswer app cont a r).2, Placed app.states call := by
  cases cont with
  | root => cases a <;> exact ⟨rfl, List.forall_mem_nil _⟩
  | state n cont =>
      simp only [onAnswer]
      split
      · next page hn =>
          refine ⟨?_, placed_calls (List.getElem?_eq_some_iff.mp hn).1 _⟩
          split <;> exact List.length_set
      · next s hn =>
          split
          · exact ⟨List.length_set, placed_calls (List.getElem?_eq_some_iff.mp hn).1 _⟩
          · exact ⟨rfl, List.forall_mem_nil _⟩
      · exact ⟨rfl, List.forall_mem_nil _⟩

section Reach

variable {ι : Type} [DecidableEq ι] {B : Backend ι → Prop}
  {C : DeviceConfig ι → DeviceAction ι → Prop} {c : DeviceConfig ι}

/-- **What every event comes to**, the launch included. -/
theorem moves_reach (h : (devices ι B).Reach C c) {i : ι} {e : Event} {app : App}
    {out : List (Call Cont)} (he : onEvent (c.clients i) e = some (app, out)) :
    Moves (c.clients i).core app.core out := by
  rcases (launched h).clients i with hnew | hshown
  · rw [hnew] at he ⊢
    obtain rfl := launch_of_onEvent he
    exact moves_launch he
  · exact moves hshown he

/-- Every call belongs to a page that is there, or has been. -/
theorem placed (h : (devices ι B).Reach C c) :
    ∀ m ∈ c.issued, Placed (c.clients m.client).states m.call := by
  refine h.invariant (P := fun c => ∀ m ∈ c.issued, Placed (c.clients m.client).states m.call) ?_ ?_
  · rintro _ ⟨b, -, rfl⟩
    exact List.forall_mem_nil _
  · intro c a c' hr hq _ hs
    have hpost : ∀ {c : DeviceConfig ι} {i : ι} {app : App} {out : List (Call Cont)}
        {cause : List (Call Cont × Answer)},
        (∀ m ∈ c.issued, Placed (c.clients m.client).states m.call) →
        (c.clients i).states.length ≤ app.states.length →
        (∀ call ∈ out, Placed app.states call) → ∀ m ∈ (c.post i app out cause).issued,
          Placed ((c.post i app out cause).clients m.client).states m.call := by
      intro c i app out cause hq hle hout m hm
      rcases mem_issued_post hm with hm | ⟨call, hc, rfl⟩
      · refine Config.client_post (p := fun app : App => Placed app.states m.call) ?_
          fun _ => hq m hm
        exact fun hi => (hi ▸ hq m hm).mono hle
      · rw [Config.post_clients_self]
        exact hout call hc
    refine step_keeps
      (Q := fun c : DeviceConfig ι => ∀ m ∈ c.issued, Placed (c.clients m.client).states m.call) hs
      ?_ (fun _ _ _ _ _ _ _ _ => hq) ?_
    · intro i e app out _ he
      obtain ⟨hle, hout⟩ := placed_moves (moves_reach hr he)
      exact hpost hq hle hout
    · intro k d m r app out _ _ ha
      obtain ⟨rfl, rfl⟩ := Prod.mk.inj ha
      obtain ⟨hlength, hout⟩ := placed_onAnswer (c.clients m.client) m.call.cont r d
      exact hpost (c := c.taken k) hq hlength.ge fun call hc => (hout call hc).mono hlength.ge

end Reach

end P0ker.MyApp
