import P0ker.Games.Creation
import P0ker.Groups.Creation
import P0ker.Registration.Failure

/-!
# Creations whose calls may fail

Registering, saving a game and saving a group each issue several calls, and each call may be
rejected on its own. The backend has batched writes, but no page uses them: every write is issued
separately, and nothing is undone when one of them fails.

`creations_leave` says what a creation leaves once nothing is in flight: nothing, if it never came
to its writes; else exactly the accepted ones of its writes. So it is all or nothing when its writes
fail or succeed together.
-/

namespace P0ker.Atomicity

open Async AuthGate Registration.Failure

section Leaves

variable {ι σ ε δ κ : Type} [DecidableEq ι]

/-- The documents are those of `c₀`, or every write issued since has had its effect. -/
def AllOrNothing (c₀ c : Config ι σ (Backend ι) (Call κ) Answer) : Prop :=
  (∀ p, DocStore.get c.backend.db p = DocStore.get c₀.backend.db p) ∨
    ∀ m ∈ since c₀ c, ∀ p d, m.call.req = .setData p d → DocStore.get c.backend.db p = some d

/-- The writes are all rejected, or all accepted. -/
def Together (rej : Rejected ι κ) (ms : List (Message ι (Call κ) Answer)) : Prop :=
  ∃ b, ∀ m ∈ ms, ∀ p d, m.call.req = .setData p d → rej m = b

/-- What the creation with the writes `writes` leaves: its writes have been issued, or it was
stopped before by a rejection; the documents are the old ones with the accepted writes carried
out. -/
structure Leaves (rej : Rejected ι κ) (i : ι) (writes : List (Call κ))
    (c₀ c : Config ι σ (Backend ι) (Call κ) Answer) : Prop where
  effects : Effects rej (since c₀ c) c₀.backend.db c.backend.db
  issued : ∃ qs, (∀ q ∈ qs, ∀ p d, ¬ q.call.req.Stores p d) ∧
    ((since c₀ c = qs ∧ ∃ q ∈ qs, rej q = true) ∨
      ∃ cause, since c₀ c = qs ++ writes.map (⟨i, ·, cause⟩))
  together : Together rej (since c₀ c) → AllOrNothing c₀ c

variable {rej : Rejected ι κ} {c₀ c : Config ι σ (Backend ι) (Call κ) Answer}

omit [DecidableEq ι] in
/-- Writes that succeed or fail together are all there, or leave no trace. -/
theorem allOrNothing_of_together (h : Effects rej (since c₀ c) c₀.backend.db c.backend.db)
    (hset : ∀ m ∈ since c₀ c, ∀ p d, m.call.req.Stores p d → m.call.req = .setData p d)
    (ht : Together rej (since c₀ c)) : AllOrNothing c₀ c := by
  obtain ⟨b, hb⟩ := ht
  cases b with
  | true =>
      refine Or.inl (h.none ?_)
      intro m hm p d hd
      have hreq := hset m hm p d hd
      exact ⟨hreq, hb m hm p d hreq⟩
  | false =>
      refine Or.inr ?_
      intro m hm p d hreq
      rw [h.stored m hm p d hreq, hb m hm p d hreq]
      rfl

/-- A page that allocates an id and saves under it by `setData` only. -/
theorem leaves_of_pressed {P : Program σ ε δ (Call κ) Answer} {Ready : σ → Prop} {ask : σ → Call κ}
    {save : σ → List (Call κ)} {init : Config ι σ (Backend ι) (Call κ) Answer → Prop}
    {i : ι} {e : ε}
    {s₁ : σ} {c₁ : Config ι σ (Backend ι) (Call κ) Answer} (hA : Allocates P Ready ask save)
    (hset : ∀ s, ∀ call ∈ save s, ∀ p d, call.req.Stores p d → call.req = .setData p d)
    (h : Pressed (system P (firebase ι κ) init) rej i e c₀ c₁ c)
    (he : P.onEvent (c₀.clients i) e = some (s₁, [ask s₁])) (hready : Ready s₁) :
    Leaves rej i (save (c.clients i)) c₀ c := by
  rcases h.outcome hA he hready with ⟨asked, m, hask, hsince, hrej, hsame⟩ |
    ⟨asked, m, cause, hask, hsince, -, -, heffects⟩
  · have hnone := hask.stores_nothing hA
    have hno : ∀ q ∈ since c₀ c, ∀ p d, ¬ q.call.req.Stores p d := hsince ▸ hnone
    refine ⟨⟨?_, fun p _ => hsame p⟩, ⟨asked ++ [m], hnone, Or.inl ⟨hsince, m, ?_, hrej⟩⟩,
      fun _ => Or.inl hsame⟩
    · intro w hw p d hreq
      exact absurd (by rw [hreq]; exact ⟨rfl, rfl⟩) (hno w hw p d)
    · exact List.mem_append_right _ (List.mem_singleton_self m)
  · have hnone := hask.stores_nothing hA
    have hall : Effects rej (since c₀ c) c₀.backend.db c.backend.db := by
      rw [hsince]
      exact heffects.prepend hnone
    refine ⟨hall, ⟨asked ++ [m], hnone, Or.inr ⟨cause, hsince⟩⟩, allOrNothing_of_together hall ?_⟩
    intro w hw p d hd
    rw [hsince] at hw
    rcases List.mem_append.mp hw with hw | hw
    · exact absurd hd (hnone w hw p d)
    · obtain ⟨call, hc, rfl⟩ := List.mem_map.mp hw
      exact hset _ call hc p d hd

end Leaves

section Creations

variable {ι : Type} [DecidableEq ι]

theorem saveGame_set {s : NewGame.NewGameState} {call : Call NewGame.Cont} {p : Path} {d : Doc}
    (hc : call ∈ NewGame.saveGame s) (hd : call.req.Stores p d) : call.req = .setData p d := by
  rcases NewGame.mem_saveGame.mp hc with rfl | rfl <;> obtain ⟨rfl, rfl⟩ := hd <;> rfl

theorem saved_set {s : NewGroup.NewGroupState} {call : Call NewGroup.Cont} {p : Path} {d : Doc}
    (hc : call ∈ NewGroup.saved s) (hd : call.req.Stores p d) : call.req = .setData p d := by
  rcases NewGroup.mem_saved.mp hc with rfl | rfl | rfl <;> obtain ⟨rfl, rfl⟩ := hd <;> rfl

/-- What a registration leaves: the backend and the status as they were, and no `createUser` was
accepted; or the account, a device on the home page, and the profile if its write was accepted. -/
def RegistrationLeaves (rej : Rejected ι RootPage.Cont) (i : ι) (c₀ c : AppConfig ι) : Prop :=
  (c.backend = c₀.backend ∧ authStatus c i = authStatus c₀ i ∧
    ∀ m ∈ since c₀ c, ∀ email password, m.call.req = .createUser email password → rej m = true) ∨
  ∃ m ∈ since c₀ c, ∃ w ∈ since c₀ c, ∃ email password uid name,
    m.call.req = .createUser (some email) (some password) ∧ rej m = false ∧
    AccountAdded c₀ c email password uid ∧ authStatus c i = .signedIn ∧
    w.call.req = .setData (Login.userPath (some uid)) (profile uid email name) ∧
    Effects rej [w] c₀.backend.db c.backend.db

/-- **What creations leave.** A game and a group are left alone after the press, a registration but
for the drawing of frames, until nothing is in flight; any of the calls may be rejected. -/
theorem creations_leave :
    (∀ (rej : Rejected ι NewGame.Cont) (i : ι) (r : Draw) (c₀ c₁ c : Games.GameConfig ι),
      Games.Started rej i r c₀ c₁ c → Leaves rej i (NewGame.saveGame (c.clients i)) c₀ c) ∧
    (∀ (rej : Rejected ι NewGroup.Cont) (i : ι) (r : Draw) (c₀ c₁ c : Groups.GroupConfig ι),
      Groups.Created rej i r c₀ c₁ c → Leaves rej i (NewGroup.saved (c.clients i)) c₀ c) ∧
    (∀ (rej : Rejected ι RootPage.Cont) (i : ι) (c₀ c₁ c : AppConfig ι),
      Registered rej i c₀ c₁ c → RegistrationLeaves rej i c₀ c) := by
  refine ⟨?_, ?_, ?_⟩
  · intro rej i r c₀ c₁ c h
    obtain ⟨he, hform⟩ := Games.press_inv h.press
    exact leaves_of_pressed (Games.allocates (c₀.clients i))
      (fun s call hc p d hd => saveGame_set hc hd) h he hform
  · intro rej i r c₀ c₁ c h
    obtain ⟨he, hform⟩ := Groups.press_inv h.press
    exact leaves_of_pressed (Groups.allocates (c₀.clients i))
      (fun s call hc p d hd => saved_set hc hd) h he hform
  · intro rej i c₀ c₁ c h
    -- the chain came to nothing, or an account was made
    rcases h.outcome with ⟨hb, hstatus, page, name, ms, hsince, hrej⟩ |
      ⟨page, name, email, password, uid, cause, cause', hsince, hr, hacc, hstatus, heffects⟩
    · refine Or.inl ⟨hb, hstatus, ?_⟩
      intro m hm email password hreq
      rw [hsince] at hm
      rcases List.mem_cons.mp hm with rfl | hm
      · cases hreq
      · obtain ⟨_, _, _, -, hm⟩ := hrej m hm
        exact hm
    · rw [RegistrationLeaves, hsince]
      exact Or.inr ⟨creates i page email password cause, by simp,
        saves i page uid email name cause', by simp, email, password, uid, name, rfl, hr, hacc,
        hstatus, rfl, heffects⟩

end Creations

/-! ## Creations split by a rejection -/

section Splits

variable {σ ε δ κ : Type}

/-- The writes at `p` are rejected, and nothing else. -/
def refused (p : Path) : Rejected Unit κ := fun m =>
  match m.call.req with
  | .setData doc _ => decide (doc = p)
  | _ => false

theorem setData_of_refused {p : Path} {m : Message Unit (Call κ) Answer} (h : refused p m = true) :
    ∃ d, m.call.req = .setData p d := by
  simp only [refused] at h
  split at h
  · next doc d hreq => exact ⟨d, of_decide_eq_true h ▸ hreq⟩
  · cases h

variable {M : Machine (Config Unit σ (Backend Unit) (Call κ) Answer) (Action Unit ε δ Outcome)}
  {C : Config Unit σ (Backend Unit) (Call κ) Answer → Action Unit ε δ Outcome → Prop}
  [∀ c a, Decidable (C c a)]

/-- Raise `e`, let `rest` follow, and look at what was there before and is there now. -/
def press (M : Machine (Config Unit σ (Backend Unit) (Call κ) Answer) (Action Unit ε δ Outcome))
    (C : Config Unit σ (Backend Unit) (Call κ) Answer → Action Unit ε δ Outcome → Prop)
    [∀ c a, Decidable (C c a)] (e : ε) (rest : List (Action Unit ε δ Outcome))
    (look : Config Unit σ (Backend Unit) (Call κ) Answer →
      Config Unit σ (Backend Unit) (Call κ) Answer → Bool)
    (c : Config Unit σ (Backend Unit) (Call κ) Answer) : Option Bool :=
  (M.step c (.event () e)).bind fun c₁ => (M.follow C c₁ rest).map (look c)

theorem of_press {c₀ : Config Unit σ (Backend Unit) (Call κ) Answer}
    {acts rest : List (Action Unit ε δ Outcome)} {e : ε}
    {look : Config Unit σ (Backend Unit) (Call κ) Answer →
      Config Unit σ (Backend Unit) (Call κ) Answer → Bool} (hinit : M.init c₀)
    (h : (M.run c₀ acts).bind (press M C e rest look) = some true) :
    ∃ c c₁ c', M.Reachable c ∧ M.step c (.event () e) = some c₁ ∧ M.Steps C c₁ c' ∧
      look c c' = true := by
  obtain ⟨c, hc, h⟩ := Option.bind_eq_some_iff.mp h
  obtain ⟨c₁, hpress, h⟩ := Option.bind_eq_some_iff.mp h
  obtain ⟨c', hrest, hlook⟩ := Option.map_eq_some_iff.mp h
  exact ⟨c, c₁, c', Machine.Reach.of_follow hinit hc, hpress, Machine.Steps.of_follow hrest, hlook⟩

variable [DecidableEq κ]

/-- From nothing in flight to nothing in flight, with a new document at `p`, and none at `q` though
one was to be written there. -/
def halved (p q : Path) (c c' : Config Unit σ (Backend Unit) (Call κ) Answer) : Bool :=
  decide (c.Quiet ∧ c'.Quiet) && decide (DocStore.get c.backend.db p = none) &&
    decide (DocStore.get c'.backend.db p ≠ none) && decide (DocStore.get c'.backend.db q = none) &&
    (since c c').any (refused q)

theorem of_halved {p q : Path} {c c' : Config Unit σ (Backend Unit) (Call κ) Answer}
    (h : halved p q c c' = true) : c.Quiet ∧ c'.Quiet ∧ ¬ AllOrNothing c c' := by
  simp only [halved, Bool.and_eq_true, decide_eq_true_eq, List.any_eq_true] at h
  obtain ⟨⟨⟨⟨hquiet, hbefore⟩, hafter⟩, hmissing⟩, m, hm, hq⟩ := h
  refine ⟨hquiet.1, hquiet.2, ?_⟩
  rintro (hsame | hall)
  · exact hafter ((hsame p).trans hbefore)
  · obtain ⟨d, hreq⟩ := setData_of_refused hq
    rw [hall m hm q d hreq] at hmissing
    cases hmissing

end Splits

/-- The game is saved; the user's copy is rejected. -/
theorem game_halved : ∃ c c₁ c', (Games.gameSystem Unit).Reachable c ∧
    Games.Started (refused (NewGame.userGamePath "ola" "7")) () 7 c c₁ c' ∧
    ¬ AllOrNothing c c' := by
  have hrun : ((Games.gameSystem Unit).run (Games.start Groups.withOla)
      [.event () (.initState {} {}), .serve 0 (.accept ""), .deliver 0 0]).bind
        (press (Games.gameSystem Unit) (Alone (refused (NewGame.userGamePath "ola" "7")))
          (.pressStart 7)
          [.serve 0 (.accept ""), .deliver 0 0, .serve 0 (.accept ""), .serve 0 (.reject "offline"),
            .deliver 0 0, .deliver 0 0]
          (halved (NewGame.gamePath "7") (NewGame.userGamePath "ola" "7"))) = some true := by
    decide +kernel
  have hkeyed : Games.GamesKeyed Groups.withOla.db := by
    intro k d hget
    cases hget
  obtain ⟨c, c₁, c', hc, hpress, hrest, hlook⟩ :=
    of_press (M := Games.gameSystem Unit) ⟨_, hkeyed, rfl⟩ hrun
  obtain ⟨hquiet, hdone, hsplit⟩ := of_halved hlook
  exact ⟨c, c₁, c', hc, ⟨hquiet, hpress, hrest, hdone⟩, hsplit⟩

/-- The group is saved for all; the user's copy is rejected. -/
theorem group_halved : ∃ c c₁ c', (Groups.groupSystem Unit).Reachable c ∧
    Groups.Created (refused (NewGroup.userGroupPath "ola" "7")) () 7 c c₁ c' ∧
    ¬ AllOrNothing c c' := by
  have hrun : ((Groups.groupSystem Unit).run (Groups.start Groups.withOla) Groups.openPage).bind
      (press (Groups.groupSystem Unit) (Alone (refused (NewGroup.userGroupPath "ola" "7")))
        (.pressCreate 7)
        [.serve 0 (.accept ""), .deliver 0 0, .serve 0 (.accept ""), .serve 0 (.reject "offline"),
          .serve 0 (.accept ""), .deliver 0 0, .deliver 0 0, .deliver 0 0]
        (halved (NewGroup.groupPath "public" "7") (NewGroup.userGroupPath "ola" "7"))) =
      some true := by
    decide +kernel
  obtain ⟨c, c₁, c', hc, hpress, hrest, hlook⟩ :=
    of_press (M := Groups.groupSystem Unit) ⟨_, rfl, rfl⟩ hrun
  obtain ⟨hquiet, hdone, hsplit⟩ := of_halved hlook
  exact ⟨c, c₁, c', hc, ⟨hquiet, hpress, hrest, hdone⟩, hsplit⟩

/-- Every account added since `c`, with its owner on the home page, has a profile. -/
def AccountsHaveProfiles {ι : Type} (i : ι) (c c' : AppConfig ι) : Prop :=
  ∀ email a, c.backend.accounts.lookup email = none → c'.backend.accounts.lookup email = some a →
    authStatus c' i = .signedIn → DocStore.get c'.backend.db (Login.userPath (some a.uid)) ≠ none

/-- From nothing in flight to nothing in flight, with an account added, its owner on the home page,
and no profile. -/
def profileless (email : String) (a : Account) (c c' : AppConfig Unit) : Bool :=
  decide (c.Quiet ∧ c'.Quiet) && decide (c.backend.accounts.lookup email = none) &&
    decide (c'.backend.accounts.lookup email = some a) && decide (authStatus c' () = .signedIn) &&
    decide (DocStore.get c'.backend.db (Login.userPath (some a.uid)) = none)

/-- Ola's account is created, and the app goes to the home page; the profile is rejected. -/
theorem registration_halved : ∃ c c₁ c', (rootSystem Unit).Reachable c ∧
    Registered (refused (Login.userPath (some "u1"))) () c c₁ c' ∧
    ¬ AccountsHaveProfiles () c c' := by
  have hrun : ((rootSystem Unit).run (AuthGate.start (Backend.empty Unit))
      [.event () .launch, .serve 0 (.accept ""), .deliver 0 (),
        .event () (.login .moveToRegister), .event () (.login (.editUsername "ola")),
        .event () (.login (.editEmail "o@p")), .event () (.login (.editPassword "x"))]).bind
      (press (rootSystem Unit) (Watched (refused (Login.userPath (some "u1"))))
        (.login .pressRegister)
        [.serve 0 (.accept ""), .deliver 0 (), .serve 0 (.accept "u1"), .deliver 0 (),
          .event () .build, .serve 0 (.reject "offline"), .deliver 0 ()]
        (profileless "o@p" ⟨"x", "u1"⟩)) = some true := by
    decide +kernel
  obtain ⟨c, c₁, c', hc, hpress, hrest, hlook⟩ := of_press (M := rootSystem Unit) ⟨_, rfl⟩ hrun
  simp only [profileless, Bool.and_eq_true, decide_eq_true_eq] at hlook
  obtain ⟨⟨⟨⟨hquiet, hbefore⟩, hafter⟩, hstatus⟩, hmissing⟩ := hlook
  refine ⟨c, c₁, c', hc, ⟨hquiet.1, hpress, hrest, hquiet.2⟩, ?_⟩
  intro h
  exact h _ _ hbefore hafter hstatus hmissing

theorem creations_leave_ola :
    (∃ c c₁ c', Games.Started (refused (NewGame.userGamePath "ola" "7")) () 7 c c₁ c' ∧
      Leaves (refused (NewGame.userGamePath "ola" "7")) ()
        (NewGame.saveGame (c'.clients ())) c c') ∧
    (∃ c c₁ c', Groups.Created (refused (NewGroup.userGroupPath "ola" "7")) () 7 c c₁ c' ∧
      Leaves (refused (NewGroup.userGroupPath "ola" "7")) ()
        (NewGroup.saved (c'.clients ())) c c') ∧
    ∃ c c₁ c', Registered (refused (Login.userPath (some "u1"))) () c c₁ c' ∧
      RegistrationLeaves (refused (Login.userPath (some "u1"))) () c c' := by
  have hleave := creations_leave (ι := Unit)
  refine ⟨?_, ?_, ?_⟩
  · obtain ⟨c, c₁, c', -, h, -⟩ := game_halved
    exact ⟨c, c₁, c', h, hleave.1 _ _ _ _ _ _ h⟩
  · obtain ⟨c, c₁, c', -, h, -⟩ := group_halved
    exact ⟨c, c₁, c', h, hleave.2.1 _ _ _ _ _ _ h⟩
  · obtain ⟨c, c₁, c', -, h, -⟩ := registration_halved
    exact ⟨c, c₁, c', h, hleave.2.2 _ _ _ _ _ h⟩

/-- None of the three creations is all or nothing. -/
theorem not_creations_whole :
    (¬ ∀ (rej : Rejected Unit NewGame.Cont) (r : Draw) (c c₁ c' : Games.GameConfig Unit),
      (Games.gameSystem Unit).Reachable c → Games.Started rej () r c c₁ c' → AllOrNothing c c') ∧
    (¬ ∀ (rej : Rejected Unit NewGroup.Cont) (r : Draw) (c c₁ c' : Groups.GroupConfig Unit),
      (Groups.groupSystem Unit).Reachable c → Groups.Created rej () r c c₁ c' →
        AllOrNothing c c') ∧
    ¬ ∀ (rej : Rejected Unit RootPage.Cont) (c c₁ c' : AppConfig Unit),
      (rootSystem Unit).Reachable c → Registered rej () c c₁ c' →
        AccountsHaveProfiles () c c' := by
  refine ⟨fun h => ?_, fun h => ?_, fun h => ?_⟩
  · obtain ⟨c, c₁, c', hc, hpress, hsplit⟩ := game_halved
    exact hsplit (h _ _ _ _ _ hc hpress)
  · obtain ⟨c, c₁, c', hc, hpress, hsplit⟩ := group_halved
    exact hsplit (h _ _ _ _ _ hc hpress)
  · obtain ⟨c, c₁, c', hc, hpress, hsplit⟩ := registration_halved
    exact hsplit (h _ _ _ _ hc hpress)

end P0ker.Atomicity
