import P0ker.Games.Creation
import P0ker.Games.Records

/-!
# The allocation loop of the NewGame page, left alone

One press of 'Start game' over a store that completed runs have left behind, with a stream of draws
`r 0, r 1, …`. The query reads the field `gameid` and the game is written under a key; they agree
because every stored game is stored under its own `gameid`. That no personal copy is overwritten
either is because every personal copy has a shared one.

`allocation_correct` says what the loop does: it stops at the first draw that is free, and it stops
if there is one.
-/

namespace P0ker.GameLoop

open Async NewGame Games GameRecords

variable {ι : Type} [DecidableEq ι]

/-! ## What completed runs leave behind -/

/-- A state that runs of NewGame pages, all of whose writes were accepted, have come to. -/
structure Completed (c : GameConfig ι) : Prop where
  run : ∃ b : Backend ι, NoGames b.db ∧ (gamePages ι).Steps WritesAccepted (start b) c
  quiet : c.Quiet

section Completed

variable {c : GameConfig ι}

theorem Completed.reach (h : Completed c) : (gamePages ι).Reach WritesAccepted c := by
  obtain ⟨b, -, hs⟩ := h.run
  exact reach_of_steps hs

/-- The key of a stored game is its `gameid`. -/
theorem Completed.keyed (h : Completed c) : GamesKeyed c.backend.db := by
  obtain ⟨b, hdb, hs⟩ := h.run
  have hb : GamesKeyed b.db := by
    intro k d hget
    rw [hdb.1 k] at hget
    cases hget
  have hr : (gameSystem ι).Reach WritesAccepted c := ⟨start b, ⟨b, hb, rfl⟩, hs⟩
  exact gamesKeyed hr

/-- Every personal copy has a shared one. -/
theorem Completed.shared (h : Completed c) {u g : String}
    (hget : DocStore.get c.backend.db (userGamePath u g) ≠ none) :
    DocStore.get c.backend.db (gamePath g) ≠ none := by
  obtain ⟨b, hdb, hs⟩ := h.run
  obtain ⟨i, hexec, -⟩ := savedBy_of_own hdb hs hget
  obtain ⟨m, hm, -, hheld⟩ := mem_executions.mp hexec
  obtain ⟨d, hreq⟩ := heldCall_eq_some.mp hheld
  rcases (GameRecords.progress hs).lands m hm _ d hreq with hcalls | hrej | ⟨m', -, -, d', -, hd'⟩
  · rw [h.quiet.1] at hcalls
    cases hcalls
  · cases hrej
  · rw [hd']
    nofun

end Completed

/-- A game is stored under the drawn id. -/
def Stored (db : Db) (d : Draw) : Prop :=
  DocStore.get db (gamePath (Nat.repr d)) ≠ none

/-- The query about a draw. -/
def query (d : Draw) : Call Cont := checkGameId { gameId := some d.val }

/-- The query finds a game exactly when one is stored under the id. -/
theorem found_query {db : Db} (hkeyed : GamesKeyed db) (d : Draw) :
    Found db (query d).req ↔ Stored db d := by
  constructor
  · intro hfound
    by_contra hnone
    refine hfound (Db.whereEq_eq_nil.mpr ?_)
    intro id doc hget hid
    obtain ⟨n, hn, rfl⟩ := hkeyed id doc hget
    have hsame : n = some d.val := Value.ofInt_inj.mp (hn.symm.trans hid)
    subst hsame
    apply hnone
    intro hempty
    exact Option.some_ne_none doc (hget.symm.trans hempty)
  · intro hstored
    by_contra hfree
    exact not_mem_taken (s := { gameId := some d.val }) hkeyed hfree hstored

/-! ## One press, with the draws of a stream -/

/-- The press is left alone, all calls are accepted, and each answer is handled with the next draw
of the stream. -/
def Streaming (r : Nat → Draw) (c₀ c : GameConfig ι) (a : GameAction ι) : Prop :=
  Alone (fun _ => false) c a ∧
    match a with
    | .deliver _ d => d = r (since c₀ c).length
    | _ => True

/-- The queries since `c₀` are about the draws of the stream, in their order. -/
def Streamed (r : Nat → Draw) (c₀ c : GameConfig ι) : Prop :=
  ∀ j q, (since c₀ c)[j]? = some q → q.call.cont = .checkGameId → q.call = query (r j)

section Stream

variable {r : Nat → Draw} {c₀ c c' : GameConfig ι}

theorem Streamed.post {i : ι} {s : NewGameState} {out : List (Call Cont)}
    {cause : List (Call Cont × Answer)} (hg : c₀.issued.length ≤ c.issued.length)
    (h : Streamed r c₀ c) (hout : ∀ j call, out[j]? = some call → call.cont = .checkGameId →
      call = query (r ((since c₀ c).length + j))) :
    Streamed r c₀ (c.post i s out cause) := by
  intro j q hq hcont
  rw [since_post hg] at hq
  by_cases hj : j < (since c₀ c).length
  · rw [List.getElem?_append_left hj] at hq
    exact h j q hq hcont
  · rw [List.getElem?_append_right (Nat.le_of_not_lt hj), List.getElem?_map,
      Option.map_eq_some_iff] at hq
    obtain ⟨call, hc, rfl⟩ := hq
    have hcall := hout _ call hc hcont
    rwa [Nat.add_sub_cancel' (Nat.le_of_not_lt hj)] at hcall

theorem Streamed.step {a : GameAction ι} (hg : c₀.issued <+: c.issued) (h : Streamed r c₀ c)
    (hC : Streaming r c₀ c a) (hs : (gamePages ι).step c a = some c') : Streamed r c₀ c' := by
  refine step_keeps (Q := Streamed r c₀) hs ?_ (fun _ _ _ _ _ _ _ _ => h) ?_
  · intro i e s out hact _
    subst hact
    exact hC.1.elim
  · intro k d m x s out hact _ ha
    subst hact
    obtain rfl : d = r (since c₀ c).length := hC.2
    refine Streamed.post (c := c.taken k) hg.length_le h ?_
    intro j call hc hcont
    rcases answer_cases ha with
      ⟨-, rfl⟩ | ⟨u, -, -, -, rfl⟩ | ⟨-, -, -, rfl, rfl⟩ | ⟨-, -, -, -, rfl⟩
    · cases hc
    · cases hc
    · obtain ⟨rfl, rfl⟩ := eq_of_getElem?_singleton hc
      rfl
    · rw [saveGame_cont (List.mem_of_getElem? hc)] at hcont
      cases hcont

omit [DecidableEq ι] in
/-- The queries of an attempt are those about the first draws. -/
theorem Streamed.queries {qs ws : List (GameMessage ι)} (h : Streamed r c₀ c)
    (hsince : since c₀ c = qs ++ ws) (hq : ∀ q ∈ qs, q.call.cont = .checkGameId) :
    qs.map (·.call) = (List.range qs.length).map fun j => query (r j) := by
  refine List.ext_getElem (by simp) ?_
  intro j hj _
  rw [List.length_map] at hj
  rw [List.getElem_map, List.getElem_map, List.getElem_range]
  refine h j qs[j] ?_ (hq _ (List.getElem_mem hj))
  rw [hsince, List.getElem?_append_left hj, List.getElem?_eq_getElem hj]

end Stream

/-- The page that saves under the draw `d`. -/
def savingPage (page : NewGameState) (d : Draw) : NewGameState :=
  { page with gameId := some d.val }

/-- One press on page `i` with the draws `r` has come to its end: the game is saved under the first
free draw, the `n`-th. -/
structure Allocated (r : Nat → Draw) (c c' : GameConfig ι) (i : ι) (n : Nat) : Prop where
  taken : ∀ j < n, Stored c.backend.db (r j)
  free : ¬ Stored c.backend.db (r n)
  /-- The calls that were issued: `n + 1` queries and the two writes. -/
  issued : (since c c').map (·.call) =
    (List.range (n + 1)).map (fun j => query (r j)) ++ saveGame (savingPage (c.clients i) (r n))
  saved : ∃ u d, (c.clients i).mCurrentUser = some u ∧
    d = gameDoc (savingPage (c.clients i) (r n)) ∧ d.field "gameid" = .int (r n) ∧
    DocStore.get c.backend.db (userGamePath u (Nat.repr (r n))) = none ∧
    DocStore.get c'.backend.db (gamePath (Nat.repr (r n))) = some d ∧
    DocStore.get c'.backend.db (userGamePath u (Nat.repr (r n))) = some d ∧
    ∀ p, p ≠ gamePath (Nat.repr (r n)) → p ≠ userGamePath u (Nat.repr (r n)) →
      DocStore.get c'.backend.db p = DocStore.get c.backend.db p

section Press

variable {r : Nat → Draw} {c₀ c₁ c c' : GameConfig ι} {i : ι}

/-- The button was on the screen, so the page has its user. -/
theorem user_of_press (hc : Completed c₀)
    (hpress : (gamePages ι).step c₀ (.event i (.pressStart (r 0))) = some c₁) :
    ∃ u, (c₀.clients i).mCurrentUser = some u := by
  obtain ⟨s, out, he, -⟩ := step_event (S := firebase ι Cont) hpress
  have hpressed : (if (c₀.clients i).mounted ∧ (c₀.clients i).userFound then
      some (setGameId (r 0) (c₀.clients i)) else none) = some (s, out) := he
  split at hpressed
  · next hon => exact Option.ne_none_iff_exists'.mp ((GameRecords.lookedUp hc.reach).found i hon.2)
  · cases hpressed

/-- Where the loop can be. -/
abbrev Looping (r : Nat → Draw) (c₀ : GameConfig ι) (i : ι) (c : GameConfig ι) : Prop :=
  Attempt (SameForm (c₀.clients i)) checkGameId saveGame (fun _ => false) c₀ i
    (checkGameId (drawn (r 0) (c₀.clients i))) c

theorem looping (hq : c₀.Quiet)
    (hpress : (gamePages ι).step c₀ (.event i (.pressStart (r 0))) = some c₁)
    (hrun : (gamePages ι).Steps (Streaming r c₀) c₁ c) :
    Looping r c₀ i c ∧ Progress (fun _ => false) c₀ c ∧ Streamed r c₀ c := by
  obtain ⟨he, hform⟩ := press_inv hpress
  have hstart : Looping r c₀ i c₁ ∧ Progress (fun _ => false) c₀ c₁ :=
    Attempt.of_press hq hpress he hform
  obtain ⟨hattempt, hprogress⟩ := Attempt.steps (allocates (c₀.clients i)) hstart hrun
    fun _ _ hC => hC.1
  refine ⟨hattempt, hprogress, ?_⟩
  -- the press asks about the first draw
  have hstream : Progress (fun _ => false) c₀ c₁ ∧ Streamed r c₀ c₁ := by
    refine ⟨hstart.2, ?_⟩
    obtain ⟨s, out, he', rfl⟩ := step_event (S := firebase ι Cont) hpress
    rw [he] at he'
    obtain ⟨rfl, rfl⟩ := Prod.mk.inj (Option.some.inj he')
    have hnone : since c₀ c₀ = [] := List.drop_length
    refine Streamed.post le_rfl ?_ ?_
    · intro j q hj
      rw [hnone] at hj
      cases hj
    · intro j call hcall _
      obtain ⟨rfl, rfl⟩ := eq_of_getElem?_singleton hcall
      rw [hnone]
      rfl
  exact (hrun.preserves (P := fun c => Progress (fun _ => false) c₀ c ∧ Streamed r c₀ c) hstream
    fun c a _ h hC hs => ⟨h.1.step hC.1.chosen hs, h.2.step h.1.grown hC hs⟩).2

/-- The queries that have found their id taken. -/
theorem stored_of_asked {asked rest : List (GameMessage ι)} (hc : Completed c₀)
    (hstream : Streamed r c₀ c) (hsince : since c₀ c = asked ++ rest)
    (hfound : ∀ q ∈ asked, ∃ s, q.call = checkGameId s ∧ Found c₀.backend.db q.call.req) :
    ∀ j < asked.length, Stored c₀.backend.db (r j) := by
  intro j hj
  obtain ⟨s, hs, hf⟩ := hfound asked[j] (List.getElem_mem hj)
  have hcall : asked[j].call = query (r j) := by
    refine hstream j asked[j] ?_ (by rw [hs]; rfl)
    rw [hsince, List.getElem?_append_left hj, List.getElem?_eq_getElem hj]
  rw [hcall] at hf
  exact (found_query hc.keyed (r j)).mp hf

/-- **The end of the loop.** -/
theorem allocated_of_quiet (hc : Completed c₀)
    (hpress : (gamePages ι).step c₀ (.event i (.pressStart (r 0))) = some c₁)
    (hrun : (gamePages ι).Steps (Streaming r c₀) c₁ c) (hq : c.Quiet) :
    ∃ n, Allocated r c₀ c i n := by
  obtain ⟨-, -, hstream⟩ := looping hc.quiet hpress hrun
  obtain ⟨he, hform⟩ := press_inv hpress
  have hpressed : Pressed (gamePages ι) (fun _ => false) i (.pressStart (r 0)) c₀ c₁ c :=
    ⟨hc.quiet, hpress, hrun.mono fun _ _ hC => hC.1, hq⟩
  rcases hpressed.outcome (allocates (c₀.clients i)) he hform with
    ⟨asked, m, -, -, hrej, -⟩ | ⟨asked, m, cause, hask, hsince, -, hfree, heffects⟩
  · cases hrej
  · -- the last query is about the draw after those that were taken
    have hcall : m.call = query (r asked.length) := by
      refine hstream asked.length m ?_ (by rw [hask.call]; rfl)
      rw [hsince, List.append_assoc, List.getElem?_append_right le_rfl, Nat.sub_self]
      rfl
    have hid : (c.clients i).gameId = some (r asked.length).val := by
      have hreq := congrArg Call.req (hask.call.symm.trans hcall)
      exact Value.ofInt_inj.mp (Request.whereEq.inj hreq).2.2
    -- since the press nothing of the form has changed but the id
    have hsave : saveGame (c.clients i) =
        saveGame (savingPage (c₀.clients i) (r asked.length)) := by
      rw [hask.ready.form, hid]
      rfl
    rw [hsave] at hsince heffects
    obtain ⟨u, hu⟩ := user_of_press hc hpress
    have hnone : ¬ Stored c₀.backend.db (r asked.length) := by
      rw [← found_query hc.keyed, ← hcall]
      exact hfree
    -- both writes have been carried out, and there was no other
    have hshared := heffects.stored ⟨i, _, cause⟩
      (List.mem_map.mpr ⟨_, mem_saveGame.mpr (Or.inl rfl), rfl⟩) _ _ rfl
    have hown := heffects.stored ⟨i, _, cause⟩
      (List.mem_map.mpr ⟨_, mem_saveGame.mpr (Or.inr rfl), rfl⟩) _ _ rfl
    have huser : (savingPage (c₀.clients i) (r asked.length)).mCurrentUser = some u := hu
    rw [huser] at hown
    refine ⟨asked.length, ?_, hnone, ?_, u, _, hu, rfl, rfl, ?_, hshared, hown, ?_⟩
    · exact stored_of_asked hc hstream (hsince.trans (List.append_assoc _ _ _)) hask.found
    · rw [hsince, List.map_append, hstream.queries hsince]
      · rw [List.length_append, List.length_singleton, List.map_map]
        exact congrArg _ (List.map_id _)
      · intro q hqm
        rcases List.mem_append.mp hqm with hqm | hqm
        · obtain ⟨s, hs, -⟩ := hask.found q hqm
          rw [hs]
          rfl
        · rw [List.mem_singleton.mp hqm, hask.call]
          rfl
    · -- a personal copy never comes without the shared one
      by_contra hsome
      exact hnone (hc.shared hsome)
    · intro p hp hp'
      refine heffects.untouched p ?_
      intro w hw d hd
      obtain ⟨call, hcall', rfl⟩ := List.mem_map.mp hw
      rcases stores_saveGame hcall' hd with ⟨hpath, -⟩ | ⟨hpath, -⟩
      · exact hp hpath
      · rw [huser] at hpath
        exact hp' hpath

/-! ## The loop ends when a draw is free -/

/-- No more than `n + 3` calls are issued, when the `n`-th draw is free. -/
theorem length_since_le (hc : Completed c₀) {n : Nat} (hn : ¬ Stored c₀.backend.db (r n))
    (hloop : Looping r c₀ i c) (hstream : Streamed r c₀ c) : (since c₀ c).length ≤ n + 3 := by
  -- the queries that found their id taken come before the `n`-th
  have hle : ∀ {asked rest : List (GameMessage ι)}, since c₀ c = asked ++ rest →
      (∀ q ∈ asked, ∃ s, q.call = checkGameId s ∧ Found c₀.backend.db q.call.req) →
      asked.length ≤ n := by
    intro asked rest hsince hfound
    by_contra hlt
    exact hn (stored_of_asked hc hstream hsince hfound n (Nat.lt_of_not_le hlt))
  cases hloop with
  | asking asked m hask hsince | answered asked m a hask hsince | stopped asked m hask hsince =>
      have hasked := hle hsince hask.found
      rw [hsince, List.length_append, List.length_singleton]
      omega
  | saving asked m cause hask hsince =>
      have hasked := hle (hsince.trans (List.append_assoc _ _ _)) hask.found
      rw [hsince, List.length_append, List.length_append, List.length_singleton, List.length_map]
      have hwrites : (saveGame (c.clients i)).length = 2 := rfl
      omega

/-- What is left to be done: every call that may still be issued is to be issued, evaluated and
answered. -/
def remaining (n : Nat) (c₀ c : GameConfig ι) : Nat :=
  3 * (n + 3 - (since c₀ c).length) + 2 * c.calls.length + c.answers.length

theorem remaining_lt {n : Nat} {a : GameAction ι} (hg : c₀.issued.length ≤ c.issued.length)
    (hC : Streaming r c₀ c a) (hs : (gamePages ι).step c a = some c')
    (hle : (since c₀ c').length ≤ n + 3) : remaining n c₀ c' < remaining n c₀ c := by
  cases a with
  | event => exact hC.1.elim
  | serve k o =>
      obtain ⟨m, b, x, hk, -, rfl⟩ := step_serve (P := program) hs
      obtain ⟨hlt, -⟩ := List.getElem?_eq_some_iff.mp hk
      have hsame : since c₀ (c.served k m b x) = since c₀ c := rfl
      simp only [remaining, hsame, Config.served_calls, Config.served_answers,
        List.length_eraseIdx_of_lt hlt, List.length_append, List.length_singleton]
      omega
  | deliver k d =>
      obtain ⟨m, x, s, out, hk, -, rfl⟩ := step_deliver (S := firebase ι Cont) hs
      obtain ⟨hlt, -⟩ := List.getElem?_eq_some_iff.mp hk
      have hlonger : (since c₀ ((c.taken k).post m.client s out ((m.call, x) :: m.cause))).length =
          (since c₀ c).length + out.length := by
        rw [since_post (c := c.taken k) hg, List.length_append, List.length_map]
        rfl
      rw [hlonger] at hle
      simp only [remaining, hlonger, Config.post_calls, Config.post_answers, Config.taken_calls,
        Config.taken_answers, List.length_eraseIdx_of_lt hlt, List.length_append, List.length_map]
      omega

/-- As long as something is in flight, the loop can go on. -/
theorem live (hloop : Looping r c₀ i c) :
    c.Quiet ∨ ∃ c', (gamePages ι).Next (Streaming r c₀) c c' := by
  have hserve : ∀ m, c.calls[0]? = some m → (∃ coll name v, m.call.req = .whereEq coll name v) ∨
      (∃ p d, m.call.req = .setData p d) → ∃ c', (gamePages ι).Next (Streaming r c₀) c c' := by
    rintro m hm hreq
    have hone : ∃ b x, (firebase ι Cont).serve c.backend m.client m.call (.accept "") =
        some (b, x) := by
      rcases hreq with ⟨coll, name, v, hreq⟩ | ⟨p, d, hreq⟩ <;>
        exact ⟨_, _, by rw [firebase_serve, hreq]; rfl⟩
    obtain ⟨b, x, hx⟩ := hone
    refine ⟨c.served 0 m b x, .serve 0 (.accept ""), ⟨fun _ _ => rfl, trivial⟩, ?_⟩
    show Async.step program (firebase ι Cont) c (.serve 0 (.accept "")) = _
    simp only [Async.step, hm, hx]
  have hdeliver : ∀ p, c.answers[0]? = some p →
      ∃ c', (gamePages ι).Next (Streaming r c₀) c c' := by
    rintro ⟨m, x⟩ hk
    exact ⟨_, .deliver 0 (r (since c₀ c).length), ⟨trivial, rfl⟩,
      step_deliver_of (S := firebase ι Cont) hk⟩
  cases hloop with
  | asking asked m hask hsince hdb hcalls =>
      refine Or.inr (hserve m (by rw [hcalls]; rfl) (Or.inl ?_))
      rw [hask.call]
      exact ⟨_, _, _, rfl⟩
  | answered asked m x hask hsince hdb hcalls hanswers =>
      exact Or.inr (hdeliver (m, x) (by rw [hanswers]; rfl))
  | stopped asked m hask hsince hrej hquiet => exact Or.inl hquiet
  | saving asked m cause hask hsince hrej hfree hcalls hanswers =>
      cases hc : c.calls with
      | cons w ws =>
          refine Or.inr (hserve w (by rw [hc]; rfl) (Or.inr ?_))
          rcases mem_saveGame.mp (hcalls w (by rw [hc]; exact List.mem_cons_self)).2 with
            hw | hw <;> rw [hw] <;> exact ⟨_, _, rfl⟩
      | nil =>
          cases ha : c.answers with
          | cons p ps => exact Or.inr (hdeliver p (by rw [ha]; rfl))
          | nil => exact Or.inl ⟨hc, ha⟩

/-- **One press of 'Start game'**, over what completed runs have left, that is left alone and draws
`r 0, r 1, …`: whenever it has come to its end, the game is saved under the first free draw; it
comes to its end, whatever is done next, if a draw is free; and it never does if none is. -/
theorem allocation_correct (hc : Completed c₀)
    (hpress : (gamePages ι).step c₀ (.event i (.pressStart (r 0))) = some c₁) :
    (∀ c, (gamePages ι).Steps (Streaming r c₀) c₁ c → c.Quiet → ∃ n, Allocated r c₀ c i n) ∧
    ((∃ n, ¬ Stored c₀.backend.db (r n)) →
      (¬ ∃ f : Nat → GameConfig ι, f 0 = c₁ ∧
        ∀ k, (gamePages ι).Next (Streaming r c₀) (f k) (f (k + 1))) ∧
      ∀ c, (gamePages ι).Steps (Streaming r c₀) c₁ c →
        ∃ c', (gamePages ι).Steps (Streaming r c₀) c c' ∧ c'.Quiet) ∧
    ((∀ n, Stored c₀.backend.db (r n)) → ∀ c, (gamePages ι).Steps (Streaming r c₀) c₁ c →
      ¬ c.Quiet ∧ ∃ c', (gamePages ι).Next (Streaming r c₀) c c') := by
  have hlive : ∀ c, (gamePages ι).Steps (Streaming r c₀) c₁ c →
      c.Quiet ∨ ∃ c', (gamePages ι).Next (Streaming r c₀) c c' :=
    fun c hrun => live (looping hc.quiet hpress hrun).1
  refine ⟨fun c hrun hq => allocated_of_quiet hc hpress hrun hq, ?_, ?_⟩
  · rintro ⟨n, hn⟩
    have hlower : ∀ c c', (gamePages ι).Steps (Streaming r c₀) c₁ c →
        (gamePages ι).Next (Streaming r c₀) c c' → remaining n c₀ c' < remaining n c₀ c := by
      intro c c' hrun hnext
      obtain ⟨-, hprogress, -⟩ := looping hc.quiet hpress hrun
      obtain ⟨hloop, -, hstream⟩ := looping hc.quiet hpress (hrun.tail hnext)
      obtain ⟨a, hC, hs⟩ := hnext
      exact remaining_lt hprogress.grown.length_le hC hs (length_since_le hc hn hloop hstream)
    exact ⟨Machine.no_infinite_run hlower, fun c hrun => hrun.completed hlower hlive⟩
  · intro hall c hrun
    -- a loop that had ended would have found a free draw
    have hbusy : ¬ c.Quiet := by
      intro hq
      obtain ⟨n, hn⟩ := allocated_of_quiet hc hpress hrun hq
      exact hn.free (hall n)
    exact ⟨hbusy, (hlive c hrun).resolve_left hbusy⟩

end Press

/-! ## A first draw that is taken -/

instance (r : Nat → Draw) (c₀ c : GameConfig ι) : ∀ a, Decidable (Streaming r c₀ c a)
  | .event _ _ => .isFalse fun h => h.1
  | .serve _ _ | .deliver _ _ => by unfold Streaming; infer_instance

/-- Ola has saved 7, and Kai's page is open. -/
def olaSaved : List (GameAction Bool) :=
  openPage false ++ openPage true ++
    ([.event false (.pressStart 7), .serve 0 (.accept ""), .deliver 0 0, .serve 0 (.accept ""),
      .serve 0 (.accept ""), .deliver 0 0, .deliver 0 0] : List (GameAction Bool))

/-- Kai draws 7 and then 8. -/
def kaiDraws (n : Nat) : Draw := if n = 0 then 7 else 8

/-- Kai presses: the call is evaluated and answered, once for 7 and once for 8, and the two writes
are carried out. -/
def kaiPresses (c : GameConfig Bool) : Option (GameConfig Bool × GameConfig Bool) :=
  ((gamePages Bool).step c (.event true (.pressStart (kaiDraws 0)))).bind fun c₁ =>
    ((gamePages Bool).follow (Streaming kaiDraws c) c₁ [.serve 0 (.accept ""), .deliver 0 8,
      .serve 0 (.accept ""), .deliver 0 8, .serve 0 (.accept ""), .serve 0 (.accept ""),
      .deliver 0 8, .deliver 0 8]).map fun c' => (c₁, c')

theorem allocation_correct_kai : ∃ c c₁ c' : GameConfig Bool, Completed c ∧
    (gamePages Bool).step c (.event true (.pressStart 7)) = some c₁ ∧
    (gamePages Bool).Steps (Streaming kaiDraws c) c₁ c' ∧ c'.Quiet ∧
    ∃ n, Allocated kaiDraws c c' true n := by
  have hrun : (((gamePages Bool).follow WritesAccepted (start olaAndKai) olaSaved).bind fun c =>
      (kaiPresses c).map fun p => (decide c.Quiet, decide p.2.Quiet)) = some (true, true) := by
    decide +kernel
  obtain ⟨c, hc, hpress⟩ := Option.bind_eq_some_iff.mp hrun
  obtain ⟨⟨c₁, c'⟩, hpresses, hquiet⟩ := Option.map_eq_some_iff.mp hpress
  obtain ⟨c₁', hstep, hpresses⟩ := Option.bind_eq_some_iff.mp hpresses
  obtain ⟨c'', hfollow, heq⟩ := Option.map_eq_some_iff.mp hpresses
  obtain ⟨rfl, rfl⟩ := Prod.mk.inj heq
  simp only [Prod.mk.injEq, decide_eq_true_eq] at hquiet
  have hdb : NoGames olaAndKai.db := noGames_empty
  have hcompleted : Completed c := ⟨⟨_, hdb, Machine.Steps.of_follow hc⟩, hquiet.1⟩
  have hsteps := Machine.Steps.of_follow hfollow
  exact ⟨c, c₁', c'', hcompleted, hstep, hsteps, hquiet.2,
    (allocation_correct hcompleted hstep).1 c'' hsteps hquiet.2⟩

end P0ker.GameLoop
