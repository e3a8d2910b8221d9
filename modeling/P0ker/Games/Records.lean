import P0ker.Games.Allocation

/-!
# Does a user's own list of games agree with the shared one?

A game is stored twice: among the games everybody sees, and among those of the user who saved it.
The two writes are separate messages, of which any number, of any clients, may be in flight at once.

`records_agree` is about every run in which the writes are accepted and no two games are saved under
one id: once all writes have been applied, in whatever order, a user's list has exactly the games
the user has saved, each equal to its shared copy; and on the way every write touches the records of
its own game only.
-/

namespace P0ker.GameRecords

open Async NewGame Games

variable {ι : Type} [DecidableEq ι]

/-! ## Executions of `_saveGame` -/

/-- The executions of `_saveGame`, each with its page and the id it saved under. -/
def executions (c : GameConfig ι) : List (ι × String) :=
  c.issued.filterMap fun m => (heldCall m).map (m.client, ·)

/-- No two executions use the same id. -/
def DistinctIds (c : GameConfig ι) : Prop :=
  ((executions c).map (·.2)).Nodup

/-- The game `g` was saved on a page of the user `u`. -/
def SavedBy (c : GameConfig ι) (u g : String) : Prop :=
  ∃ i, (i, g) ∈ executions c ∧ (c.clients i).mCurrentUser = some u

/-- The messages of all executions. -/
def writes (c : GameConfig ι) : List (Path × Doc) :=
  c.issued.filterMap fun m =>
    match m.call.req with
    | .setData p d => some (p, d)
    | _ => none

/-- No game is stored. -/
def NoGames (db : Db) : Prop :=
  (∀ g, DocStore.get db (gamePath g) = none) ∧ ∀ u g, DocStore.get db (userGamePath u g) = none

omit [DecidableEq ι] in
theorem heldCall_eq_some {m : GameMessage ι} {g : String} :
    heldCall m = some g ↔ ∃ d, m.call.req = .setData (gamePath g) d := by
  unfold heldCall
  constructor
  · intro h
    split at h
    · next doc d hreq => exact ⟨d, by rw [hreq, DocStore.childId_eq_some.mp h]; rfl⟩
    · cases h
  · rintro ⟨d, hreq⟩
    rw [hreq]
    exact DocStore.childId_eq_some.mpr rfl

omit [DecidableEq ι] in
theorem mem_executions {c : GameConfig ι} {i : ι} {g : String} :
    (i, g) ∈ executions c ↔ ∃ m ∈ c.issued, m.client = i ∧ heldCall m = some g := by
  simp only [executions, List.mem_filterMap, Option.map_eq_some_iff, Prod.mk.injEq]
  constructor
  · rintro ⟨m, hm, g', hg, hi, rfl⟩
    exact ⟨m, hm, hi, hg⟩
  · rintro ⟨m, hm, hi, hg⟩
    exact ⟨m, hm, g, hg, hi, rfl⟩

omit [DecidableEq ι] in
theorem mem_writes {c : GameConfig ι} {p : Path} {d : Doc} :
    (p, d) ∈ writes c ↔ ∃ m ∈ c.issued, m.call.req = .setData p d := by
  rw [writes, List.mem_filterMap]
  constructor
  · rintro ⟨m, hm, h⟩
    split at h
    · next p' d' hreq =>
        obtain ⟨rfl, rfl⟩ := Prod.mk.inj (Option.some.inj h)
        exact ⟨m, hm, hreq⟩
    · cases h
  · rintro ⟨m, hm, hreq⟩
    exact ⟨m, hm, by rw [hreq]⟩

/-! ## A game is saved by its page's user, with both writes -/

/-- The write `m` belongs to an execution for the user of its page, both writes of which have been
issued. -/
def SavedWith (c : GameConfig ι) (m : GameMessage ι) : Prop :=
  ∃ s, s.toUserLookup = (c.clients m.client).toUserLookup ∧ m.call ∈ saveGame s ∧
    ∀ call ∈ saveGame s, ⟨m.client, call, m.cause⟩ ∈ c.issued

section Reach

variable {C : GameConfig ι → GameAction ι → Prop} {c : GameConfig ι}

theorem inFlightIssued (h : (gamePages ι).Reach C c) : InFlightIssued c := by
  apply Reach.inFlightIssued h
  rintro _ ⟨b, rfl⟩
  exact InFlightIssued.start _ _ _

theorem lookedUp (h : (gamePages ι).Reach C c) :
    LookedUp NewGameState.toUserLookup NewGameState.opened .userIdFound c := by
  apply P0ker.lookedUp looksUp h
  rintro _ ⟨b, rfl⟩
  exact LookedUp.start _ _ fun _ => rfl

theorem askersFound (h : (gamePages ι).Reach C c) :
    AskersFound NewGameState.toUserLookup .userIdFound c := by
  apply P0ker.askersFound looksUp gated h
  rintro _ ⟨b, rfl⟩
  exact ⟨InFlightIssued.start _ _ _, LookedUp.start _ _ fun _ => rfl, List.forall_mem_nil _⟩

/-- The user of a page that has saved. -/
theorem user_of_written (h : (gamePages ι).Reach C c) {m : GameMessage ι} (hm : m ∈ c.issued)
    (hcont : m.call.cont = .written) : ∃ u, (c.clients m.client).mCurrentUser = some u := by
  have hfound := askersFound h m hm (by rw [hcont]; nofun)
  exact Option.ne_none_iff_exists'.mp ((lookedUp h).found m.client hfound)

/-- Nothing but `_saveGame` writes. -/
theorem written_of_stores (h : (gamePages ι).Reach C c) {m : GameMessage ι} (hm : m ∈ c.issued)
    (hw : m.call.req.Writes) : m.call.cont = .written := by
  refine Reach.issued (K := fun m => m.call.req.Writes → m.call.cont = .written) h ?_ ?_ ?_ m hm hw
  · rintro _ ⟨b, rfl⟩
    exact ⟨InFlightIssued.start _ _ _, List.forall_mem_nil _⟩
  · intro c i e s out _ _ he call hc hw
    rcases onEvent_cases he with ⟨rfl, -⟩ | ⟨-, -, -, -, rfl⟩ | ⟨r, -, -, -, -, rfl⟩
    · cases hc
    · rw [List.mem_singleton.mp hc] at hw
      exact hw.elim
    · rw [List.mem_singleton.mp hc] at hw
      exact hw.elim
  · intro c k m a r s out _ _ _ _ ha call hc hw
    rcases answer_cases ha with ⟨-, rfl⟩ | ⟨u, -, -, -, rfl⟩ | ⟨-, -, -, -, rfl⟩ | ⟨-, -, -, -, rfl⟩
    · cases hc
    · cases hc
    · rw [List.mem_singleton.mp hc] at hw
      exact hw.elim
    · exact saveGame_cont hc

theorem savedWith (h : (gamePages ι).Reach C c) :
    ∀ m ∈ c.issued, m.call.cont = .written → SavedWith c m := by
  refine h.invariant (P := fun c => ∀ m ∈ c.issued, m.call.cont = .written → SavedWith c m) ?_ ?_
  · rintro _ ⟨b, rfl⟩
    exact List.forall_mem_nil _
  · intro c a c' hr hq _ hs
    -- what was saved stays saved by the same user
    have hold : ∀ m ∈ c.issued, m.call.cont = .written → SavedWith c' m := by
      intro m hm hcont
      obtain ⟨s, hlookup, hc, hall⟩ := hq m hm hcont
      have hfound := askersFound hr m hm (by rw [hcont]; nofun)
      refine ⟨s, ?_, hc, fun call hcall => mem_issued_step hs (hall call hcall)⟩
      rw [hlookup, (lookedUp hr).kept looksUp hs hfound]
    refine step_keeps (Q := fun c' => (∀ m ∈ c.issued, m.call.cont = .written → SavedWith c' m) →
      ∀ m ∈ c'.issued, m.call.cont = .written → SavedWith c' m) hs ?_ ?_ ?_ hold
    · intro i e s out _ he hold m hm hcont
      rcases mem_issued_post hm with hm | ⟨call, hc, rfl⟩
      · exact hold m hm hcont
      · rcases onEvent_cases he with ⟨rfl, -⟩ | ⟨-, -, -, -, rfl⟩ | ⟨r, -, -, -, -, rfl⟩
        · cases hc
        · rw [List.mem_singleton.mp hc] at hcont
          cases hcont
        · rw [List.mem_singleton.mp hc] at hcont
          cases hcont
    · exact fun _ _ _ _ _ _ _ _ hold => hold
    · intro k d m r s out _ hk ha hold m' hm hcont
      rcases mem_issued_post hm with hm | ⟨call, hc, rfl⟩
      · exact hold m' hm hcont
      · rcases answer_cases ha with
          ⟨rfl, rfl⟩ | ⟨u, -, -, rfl, rfl⟩ | ⟨-, -, -, rfl, rfl⟩ | ⟨-, -, -, rfl, rfl⟩
        · cases hc
        · cases hc
        · rw [List.mem_singleton.mp hc] at hcont
          cases hcont
        · -- both writes of the execution are issued at once
          refine ⟨c.clients m.client, ?_, hc, fun call' hc' => ?_⟩
          · rw [Config.post_clients_self]
          · exact List.mem_append_right _ (List.mem_map.mpr ⟨call', hc', rfl⟩)

/-- What a write is: one of the two of an execution by its page, for its page's user. -/
theorem write_cases (h : (gamePages ι).Reach C c) {m : GameMessage ι} (hm : m ∈ c.issued)
    (hw : m.call.req.Writes) : ∃ u g d, (c.clients m.client).mCurrentUser = some u ∧
      (m.call.req = .setData (gamePath g) d ∨ m.call.req = .setData (userGamePath u g) d) ∧
      ⟨m.client, ⟨.written, .setData (gamePath g) d⟩, m.cause⟩ ∈ c.issued ∧
      ⟨m.client, ⟨.written, .setData (userGamePath u g) d⟩, m.cause⟩ ∈ c.issued := by
  have hcont := written_of_stores h hm hw
  obtain ⟨u, hu⟩ := user_of_written h hm hcont
  obtain ⟨s, hlookup, hc, hall⟩ := savedWith h m hm hcont
  have hs : interp s.mCurrentUser = u := by
    rw [hlookup, hu]
    rfl
  have hshared := hall _ (mem_saveGame.mpr (Or.inl rfl))
  have hown := hall _ (mem_saveGame.mpr (Or.inr rfl))
  rw [hs] at hown
  refine ⟨u, interpInt s.gameId, gameDoc s, hu, ?_, hshared, hown⟩
  rcases mem_saveGame.mp hc with hcall | hcall
  · exact Or.inl (by rw [hcall])
  · exact Or.inr (by rw [hcall, hs])

end Reach

/-! ## One document for each path -/

section Distinct

variable {C : GameConfig ι → GameAction ι → Prop} {c : GameConfig ι}

omit [DecidableEq ι] in
/-- An id names one execution. -/
theorem DistinctIds.eq (hd : DistinctIds c) {m m' : GameMessage ι} {g : String} {d d' : Doc}
    (hm : m ∈ c.issued) (hm' : m' ∈ c.issued) (hreq : m.call.req = .setData (gamePath g) d)
    (hreq' : m'.call.req = .setData (gamePath g) d') : m = m' := by
  have hids : (c.issued.filterMap heldCall).Nodup := by
    rw [DistinctIds, executions, List.map_filterMap] at hd
    have hsame : (fun m : GameMessage ι => ((heldCall m).map (m.client, ·)).map (·.2)) =
        heldCall := by
      funext m
      cases heldCall m <;> rfl
    rwa [hsame] at hd
  exact eq_of_nodup_filterMap hids hm hm' (heldCall_eq_some.mpr ⟨d, hreq⟩)
    (heldCall_eq_some.mpr ⟨d', hreq'⟩)

theorem userGamePath_inj {u u' g g' : String} (h : userGamePath u g = userGamePath u' g') :
    u = u' ∧ g = g' := by
  simp only [userGamePath, List.cons.injEq, and_true, true_and] at h
  exact h

theorem gamePath_inj {g g' : String} (h : gamePath g = gamePath g') : g = g' :=
  (List.cons.inj (List.append_cancel_left h)).1

/-- No two writes put different documents at one path. -/
theorem doc_unique (h : (gamePages ι).Reach C c) (hd : DistinctIds c) {m m' : GameMessage ι}
    {p : Path} {d d' : Doc} (hm : m ∈ c.issued) (hm' : m' ∈ c.issued)
    (hreq : m.call.req = .setData p d) (hreq' : m'.call.req = .setData p d') : d' = d := by
  obtain ⟨u, g, e, -, hcases, hshared, -⟩ := write_cases h hm (by rw [hreq]; trivial)
  obtain ⟨u', g', e', -, hcases', hshared', -⟩ := write_cases h hm' (by rw [hreq']; trivial)
  rw [hreq] at hcases
  rw [hreq'] at hcases'
  -- one path means one id, and one id one execution
  have hg : g = g' ∧ d = e ∧ d' = e' := by
    rcases hcases with hp | hp <;> rcases hcases' with hp' | hp' <;>
      obtain ⟨rfl, rfl⟩ := Request.setData.inj hp <;>
      obtain ⟨hpath, rfl⟩ := Request.setData.inj hp'
    · exact ⟨gamePath_inj hpath, rfl, rfl⟩
    · exact absurd hpath (gamePath_ne_userGamePath _ _ _)
    · exact absurd hpath.symm (gamePath_ne_userGamePath _ _ _)
    · exact ⟨(userGamePath_inj hpath).2, rfl, rfl⟩
  obtain ⟨rfl, rfl, rfl⟩ := hg
  have heq := hd.eq hshared hshared' rfl rfl
  exact ((Request.setData.inj (Call.mk.inj (Message.mk.inj heq).2.1).2).2).symm

end Distinct

/-! ## Every run -/

section Run

variable {b : Backend ι} {c c' : GameConfig ι}

theorem reach_of_steps (h : (gamePages ι).Steps WritesAccepted (start b) c) :
    (gamePages ι).Reach WritesAccepted c :=
  ⟨start b, ⟨b, rfl⟩, h⟩

theorem progress (h : (gamePages ι).Steps WritesAccepted (start b) c) :
    Progress (fun _ => false) (start b) c :=
  Progress.of_accepted_steps ⟨rfl, rfl⟩ h

/-- The execution behind a shared write, as its page's user sees it. -/
theorem savedBy_of_shared (h : (gamePages ι).Steps WritesAccepted (start b) c)
    {m : GameMessage ι} {g : String} {d : Doc} (hm : m ∈ c.issued)
    (hreq : m.call.req = .setData (gamePath g) d) : ∃ u, (m.client, g) ∈ executions c ∧
      (c.clients m.client).mCurrentUser = some u ∧
      ⟨m.client, ⟨.written, .setData (userGamePath u g) d⟩, m.cause⟩ ∈ c.issued := by
  obtain ⟨u, g', d', hu, hcases, -, hown⟩ :=
    write_cases (reach_of_steps h) hm (by rw [hreq]; trivial)
  have hexec : (m.client, g) ∈ executions c :=
    mem_executions.mpr ⟨m, hm, rfl, heldCall_eq_some.mpr ⟨d, hreq⟩⟩
  rw [hreq] at hcases
  rcases hcases with hp | hp
  · obtain ⟨hpath, rfl⟩ := Request.setData.inj hp
    obtain rfl := gamePath_inj hpath
    exact ⟨u, hexec, hu, hown⟩
  · exact absurd (Request.setData.inj hp).1 (gamePath_ne_userGamePath _ _ _)

/-- What a path holds once all writes are applied. -/
theorem get_applied (h : (gamePages ι).Steps WritesAccepted (start b) c) (hd : DistinctIds c)
    (hq : AllApplied c) {m : GameMessage ι} {p : Path} {d : Doc} (hm : m ∈ c.issued)
    (hreq : m.call.req = .setData p d) : DocStore.get c.backend.db p = some d := by
  refine (progress h).get_applied hq hm hreq ?_
  intro m' hm' d' hd'
  have hr := reach_of_steps h
  obtain ⟨u, g, e, -, hcases, -⟩ := write_cases hr hm' hd'.writes
  have hreq' : m'.call.req = .setData p d' := by
    rcases hcases with hp | hp <;> rw [hp] at hd' <;> obtain ⟨rfl, rfl⟩ := hd' <;> exact hp
  exact doc_unique hr hd hm hm' hreq hreq'

/-- A path at which nothing was written is as it was. -/
theorem get_untouched (h : (gamePages ι).Steps WritesAccepted (start b) c) {p : Path}
    (hp : ∀ m ∈ c.issued, ∀ d, m.call.req ≠ .setData p d) :
    DocStore.get c.backend.db p = DocStore.get b.db p := by
  refine (progress h).get_untouched ?_
  intro m hm d hd
  obtain ⟨u, g, e, -, hcases, -⟩ := write_cases (reach_of_steps h) hm hd.writes
  rcases hcases with hreq | hreq <;> rw [hreq] at hd <;> obtain ⟨rfl, rfl⟩ := hd <;>
    exact hp m hm _ hreq

/-- A game in a user's list was saved by that user. -/
theorem savedBy_of_own (hdb : NoGames b.db)
    (h : (gamePages ι).Steps WritesAccepted (start b) c) {u g : String}
    (hget : DocStore.get c.backend.db (userGamePath u g) ≠ none) : SavedBy c u g := by
  -- there were no games at the start, so the record was written since
  have hwritten : ∃ m ∈ c.issued, ∃ d, m.call.req = .setData (userGamePath u g) d := by
    by_contra hnone
    refine hget ((get_untouched h fun m hm d hreq => hnone ⟨m, hm, d, hreq⟩).trans (hdb.2 u g))
  obtain ⟨m, hm, d, hreq⟩ := hwritten
  obtain ⟨u', g', d', hu, hcases, hshared, -⟩ :=
    write_cases (reach_of_steps h) hm (by rw [hreq]; trivial)
  rw [hreq] at hcases
  rcases hcases with hp | hp
  · exact absurd (Request.setData.inj hp).1.symm (gamePath_ne_userGamePath _ _ _)
  · obtain ⟨rfl, rfl⟩ := userGamePath_inj (Request.setData.inj hp).1
    exact ⟨m.client, mem_executions.mpr
      ⟨_, hshared, rfl, heldCall_eq_some.mpr ⟨d', rfl⟩⟩, hu⟩

/-- A game that was saved is in its user's list, and equal to its shared copy. -/
theorem own_of_savedBy (h : (gamePages ι).Steps WritesAccepted (start b) c) (hd : DistinctIds c)
    (hq : AllApplied c) {u g : String} (hsaved : SavedBy c u g) :
    ∃ d, DocStore.get c.backend.db (userGamePath u g) = some d ∧
      DocStore.get c.backend.db (gamePath g) = some d := by
  obtain ⟨i, hexec, hu⟩ := hsaved
  obtain ⟨m, hm, rfl, hheld⟩ := mem_executions.mp hexec
  obtain ⟨d, hreq⟩ := heldCall_eq_some.mp hheld
  obtain ⟨u', -, hu', hown⟩ := savedBy_of_shared h hm hreq
  obtain rfl := Option.some.inj (hu.symm.trans hu')
  exact ⟨d, get_applied h hd hq hown rfl, get_applied h hd hq hm hreq⟩

/-- The store is what the writes make of it in any order. -/
theorem get_eq_setAll (h : (gamePages ι).Steps WritesAccepted (start b) c) (hd : DistinctIds c)
    (hq : AllApplied c) {ws : List (Path × Doc)} (hws : ws.Perm (writes c)) (p : Path) :
    DocStore.get c.backend.db p = (DocStore.setAll b.db ws).get p := by
  by_cases hp : ∃ d, (p, d) ∈ ws
  · -- all writes at this path have one document
    obtain ⟨d, hmem⟩ := hp
    obtain ⟨m, hm, hreq⟩ := mem_writes.mp (hws.mem_iff.mp hmem)
    rw [get_applied h hd hq hm hreq, DocStore.get_setAll_of_mem _ hmem]
    intro d' hmem'
    obtain ⟨m', hm', hreq'⟩ := mem_writes.mp (hws.mem_iff.mp hmem')
    exact doc_unique (reach_of_steps h) hd hm hm' hreq hreq'
  · rw [DocStore.get_setAll_of_notMem fun d hmem => hp ⟨d, hmem⟩]
    refine get_untouched h ?_
    intro m hm d hreq
    exact hp ⟨d, hws.mem_iff.mpr (mem_writes.mpr ⟨m, hm, hreq⟩)⟩

/-- A call that is evaluated changes the records of its own game only, those of its page's user. -/
theorem changes_own {k : Nat} {o : Outcome} {m : GameMessage ι}
    (h : (gamePages ι).Steps WritesAccepted (start b) c) (hk : c.calls[k]? = some m)
    (hs : (gamePages ι).step c (.serve k o) = some c') {p : Path}
    (hp : DocStore.get c'.backend.db p ≠ DocStore.get c.backend.db p) :
    ∃ u g, (m.client, g) ∈ executions c ∧ (c.clients m.client).mCurrentUser = some u ∧
      (p = gamePath g ∨ p = userGamePath u g) := by
  obtain ⟨m', b', r, hk', hserve, rfl⟩ := step_serve (P := program) hs
  obtain rfl := Option.some.inj (hk.symm.trans hk')
  rcases Backend.serve_stores hserve p with hsame | ⟨-, d, hd, -⟩
  · exact absurd hsame hp
  · have hr := reach_of_steps h
    have hm := (inFlightIssued hr).1 m (List.mem_of_getElem? hk)
    obtain ⟨u, g, e, hu, hcases, hshared, -⟩ := write_cases hr hm hd.writes
    have hexec : (m.client, g) ∈ executions c :=
      mem_executions.mpr ⟨_, hshared, rfl, heldCall_eq_some.mpr ⟨e, rfl⟩⟩
    refine ⟨u, g, hexec, hu, ?_⟩
    rcases hcases with hreq | hreq <;> rw [hreq] at hd
    · exact Or.inl hd.1
    · exact Or.inr hd.1

/-- In every run that starts without games, accepts all writes and saves no two games under one id:
every step that changes a document is the evaluation of a write that belongs to a save of that game
by that user; and once all writes are applied, a user's list has a game exactly when the user has
saved it, and then the one everybody sees, and the whole store is the one the writes make in any
other order, too. -/
theorem records_agree (hdb : NoGames b.db)
    (h : (gamePages ι).Steps WritesAccepted (start b) c) (hd : DistinctIds c) :
    (∀ k o m c' p, c.calls[k]? = some m → (gamePages ι).step c (.serve k o) = some c' →
      DocStore.get c'.backend.db p ≠ DocStore.get c.backend.db p →
      ∃ u g, (m.client, g) ∈ executions c ∧ (c.clients m.client).mCurrentUser = some u ∧
        (p = gamePath g ∨ p = userGamePath u g)) ∧
    (AllApplied c →
      (∀ u g, DocStore.get c.backend.db (userGamePath u g) ≠ none ↔ SavedBy c u g) ∧
      (∀ u g, SavedBy c u g → DocStore.get c.backend.db (userGamePath u g) =
        DocStore.get c.backend.db (gamePath g)) ∧
      ∀ ws : List (Path × Doc), ws.Perm (writes c) → ∀ p,
        DocStore.get c.backend.db p = (DocStore.setAll b.db ws).get p) := by
  refine ⟨fun k o m c' p hk hs hp => changes_own h hk hs hp, fun hq => ⟨?_, ?_, ?_⟩⟩
  · intro u g
    refine ⟨savedBy_of_own hdb h, fun hsaved => ?_⟩
    obtain ⟨d, hown, -⟩ := own_of_savedBy h hd hq hsaved
    rw [hown]
    nofun
  · intro u g hsaved
    obtain ⟨d, hown, hshared⟩ := own_of_savedBy h hd hq hsaved
    rw [hown, hshared]
  · exact fun ws hws p => get_eq_setAll h hd hq hws p

end Run

/-! ## Two users, whose writes are applied crosswise -/

instance (c : GameConfig ι) : Decidable (DistinctIds c) := by
  unfold DistinctIds
  infer_instance

theorem noGames_empty : NoGames (∅ : Db) :=
  ⟨fun _ => DocStore.get_empty _, fun _ _ => DocStore.get_empty _⟩

/-- Ola saves 7 and Kai 8; Ola's shared copy is the last of the four writes to be applied. -/
def crosswise : List (GameAction Bool) :=
  openPage false ++ openPage true ++
    ([.event false (.pressStart 7), .event true (.pressStart 8), .serve 0 (.accept ""),
      .serve 0 (.accept ""), .deliver 0 0, .deliver 0 0, .serve 3 (.accept ""),
      .serve 1 (.accept ""), .serve 1 (.accept ""), .serve 0 (.accept "")] :
        List (GameAction Bool))

theorem records_agree_crosswise : ∃ c : GameConfig Bool,
    (gamePages Bool).follow WritesAccepted (start olaAndKai) crosswise = some c ∧
    DocStore.get c.backend.db (userGamePath "ola" "7") ≠ none ∧
    DocStore.get c.backend.db (userGamePath "ola" "7") =
      DocStore.get c.backend.db (gamePath "7") := by
  have hrun : ((gamePages Bool).follow WritesAccepted (start olaAndKai) crosswise).map
      (fun c => (decide (DistinctIds c), decide (AllApplied c), executions c,
        (c.clients false).mCurrentUser))
      = some (true, true, [(false, "7"), (true, "8")], some "ola") := by
    decide +kernel
  obtain ⟨c, hc, heq⟩ := Option.map_eq_some_iff.mp hrun
  simp only [Prod.mk.injEq, decide_eq_true_eq] at heq
  obtain ⟨hd, hq, hexec, huser⟩ := heq
  have hdb : NoGames olaAndKai.db := noGames_empty
  obtain ⟨hiff, hsame, -⟩ := (records_agree hdb (Machine.Steps.of_follow hc) hd).2 hq
  have hsaved : SavedBy c "ola" "7" := ⟨false, by rw [hexec]; exact List.mem_cons_self, huser⟩
  exact ⟨c, hc, (hiff "ola" "7").mpr hsaved, hsame "ola" "7" hsaved⟩

end P0ker.GameRecords
