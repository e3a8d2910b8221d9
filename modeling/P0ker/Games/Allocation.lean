import P0ker.Lib.Reservation
import P0ker.Allocation
import P0ker.Pages.NewGame

/-!
# Allocating game ids: is an id ever used twice?

Any number of NewGame pages over one backend. A page asks whether its drawn id is taken, and writes
the game when the answer comes: a check followed by a claim (`Lib.Reservation`). From the moment the
query has found its id free until the game is written, the id is *held* by the messages between the
two, and nothing keeps another page from drawing and checking the same id meanwhile.

`write_finds_none` is what the check does give: as long as no held id is found free a second time,
no game is ever written over another. `not_write_finds_none` is the run of two pages that draw the
same id.
-/

namespace P0ker.Games

open Async NewGame

variable {ι : Type} [DecidableEq ι]

abbrev GameMessage (ι : Type) := Message ι (Call Cont) Answer

abbrev GameConfig (ι : Type) := Config ι NewGameState (Backend ι) (Call Cont) Answer

abbrev GameAction (ι : Type) := Action ι Event Draw Outcome

/-- Every stored game says in its `gameid` under which id it is stored. -/
def GamesKeyed (db : Db) : Prop :=
  ∀ k d, DocStore.get db (gamePath k) = some d →
    ∃ n, d.field "gameid" = .ofInt n ∧ k = interpInt n

/-- Pages still to be opened over a backend `b`, nothing in flight. -/
def start (b : Backend ι) : GameConfig ι :=
  Config.start (fun _ => {}) b []

def gameSystem (ι : Type) [DecidableEq ι] : Machine (GameConfig ι) (GameAction ι) :=
  Async.system program (firebase ι Cont) fun c => ∃ b : Backend ι, GamesKeyed b.db ∧ c = start b

/-- The NewGame pages over any backend. -/
def gamePages (ι : Type) [DecidableEq ι] : Machine (GameConfig ι) (GameAction ι) :=
  Async.system program (firebase ι Cont) (Opening {})

/-! ## What is issued and what is stored -/

/-- Where the page stores. -/
theorem stores_saveGame {s : NewGameState} {call : Call Cont} {p : Path} {d : Doc}
    (hc : call ∈ saveGame s) (hd : call.req.Stores p d) :
    (p = gamePath (interpInt s.gameId) ∧ d = gameDoc s) ∨
      (p = userGamePath (interp s.mCurrentUser) (interpInt s.gameId) ∧ d = gameDoc s) := by
  rcases mem_saveGame.mp hc with rfl | rfl
  · exact Or.inl hd
  · exact Or.inr hd

theorem gamePath_ne_userGamePath (g u k : String) : gamePath g ≠ userGamePath u k := by
  intro h
  exact absurd (List.cons.inj h).1 (by decide)

/-- A call of the page. -/
def Sent (call : Call Cont) : Prop :=
  call.cont = .userIdFound ∧ call.req = .currentUser ∨ (∃ s, call = checkGameId s) ∨
    ∃ s, call ∈ saveGame s

theorem Sent.stores {call : Call Cont} {p : Path} {d : Doc} (h : Sent call)
    (hd : call.req.Stores p d) : ∃ s, call ∈ saveGame s := by
  rcases h with ⟨-, hreq⟩ | ⟨s, rfl⟩ | h
  · rw [hreq] at hd
    cases hd
  · cases hd
  · exact h

section Reach

variable {C : GameConfig ι → GameAction ι → Prop} {c : GameConfig ι}

theorem inFlightIssued (h : (gameSystem ι).Reach C c) : InFlightIssued c := by
  apply Reach.inFlightIssued h
  rintro _ ⟨b, -, rfl⟩
  exact InFlightIssued.start _ _ _

theorem sent (h : (gameSystem ι).Reach C c) : ∀ m ∈ c.issued, Sent m.call := by
  refine Reach.issued (K := fun m => Sent m.call) h ?_ ?_ ?_
  · rintro _ ⟨b, -, rfl⟩
    exact ⟨InFlightIssued.start _ _ _, List.forall_mem_nil _⟩
  · intro c i e s out _ _ he call hc
    rcases onEvent_cases he with ⟨rfl, -⟩ | ⟨-, -, -, -, rfl⟩ | ⟨r, -, -, -, -, rfl⟩
    · cases hc
    · rw [List.mem_singleton.mp hc]
      exact Or.inl ⟨rfl, rfl⟩
    · exact Or.inr (Or.inl ⟨_, List.mem_singleton.mp hc⟩)
  · intro c k m a r s out _ _ _ _ ha call hc
    rcases answer_cases ha with ⟨-, rfl⟩ | ⟨u, -, -, -, rfl⟩ | ⟨-, -, -, -, rfl⟩ | ⟨-, -, -, -, rfl⟩
    · cases hc
    · cases hc
    · exact Or.inr (Or.inl ⟨_, List.mem_singleton.mp hc⟩)
    · exact Or.inr (Or.inr ⟨_, hc⟩)

theorem gamesKeyed (h : (gameSystem ι).Reach C c) : GamesKeyed c.backend.db := by
  intro k d hget
  refine Reach.documents (K := fun p d => ∀ k, p = gamePath k →
    ∃ n, d.field "gameid" = .ofInt n ∧ k = interpInt n) h ?_ ?_ _ d hget k rfl
  · rintro _ ⟨b, hb, rfl⟩
    refine ⟨InFlightIssued.start _ _ _, ?_⟩
    rintro p d hget k rfl
    exact hb k d hget
  · rintro c hr m hm p d hd k rfl
    obtain ⟨s, hs⟩ := (sent hr m hm).stores hd
    rcases stores_saveGame hs hd with ⟨hp, rfl⟩ | ⟨hp, -⟩
    · refine ⟨s.gameId, rfl, ?_⟩
      exact List.append_cancel_left hp |> List.cons.inj |>.1
    · exact absurd hp (gamePath_ne_userGamePath _ _ _)

end Reach

/-! ## Held ids -/

/-- The id a stored `gameid` stands for. -/
def idOf : Value → Option Nat
  | .int n => some n
  | _ => none

@[simp] theorem idOf_ofInt (n : Option Nat) : idOf (.ofInt n) = n := by
  cases n <;> rfl

def heldCall (m : GameMessage ι) : Option String :=
  match m.call.req with
  | .setData doc _ => DocStore.childId gamesPath doc
  | _ => none

def heldAnswer (p : GameMessage ι × Answer) : Option String :=
  match p.1.call.req, p.2 with
  | .whereEq _ _ v, .documents [] => some (interpInt (idOf v))
  | _, _ => none

/-- The ids held by the messages in flight. -/
def held (c : GameConfig ι) : Multiset String :=
  c.carried heldCall heldAnswer

/-- The ids under which a game is stored. -/
def taken (db : Db) : Set String :=
  {g | DocStore.get db (gamePath g) ≠ none}

/-- The reservation protocol the system is an instance of. -/
def reservations (c : GameConfig ι) : Reservation.State String :=
  ⟨taken c.backend.db, held c⟩

/-- A page does not start an allocation while it waits for an answer of another one. -/
def OneAtATime (c : GameConfig ι) : GameAction ι → Prop
  | .event i (.pressStart _) => i ∉ awaiting .checkGameId c
  | _ => True

/-- A query that would find its id free is not evaluated while the id is held. -/
def Undisturbed (c : GameConfig ι) : GameAction ι → Prop
  | .serve k _ => ∀ m ∈ c.calls[k]?, ∀ g ∈ heldAnswer (m, .documents []),
      ¬ Found c.backend.db m.call.req → g ∉ held c
  | _ => True

/-! ## The query in flight is about the id of its page -/

/-- A page waits for at most one query, and it is about the id the page holds. -/
structure OwnQuery (c : GameConfig ι) : Prop where
  nodup : (awaiting .checkGameId c).Nodup
  calls : ∀ m ∈ c.calls, m.call.cont = .checkGameId → m.call = checkGameId (c.clients m.client)
  answers : ∀ p ∈ c.answers, p.1.call.cont = .checkGameId →
    p.1.call = checkGameId (c.clients p.1.client)

theorem checkGameId_congr {s t : NewGameState} (h : s.gameId = t.gameId) :
    checkGameId s = checkGameId t := by
  rw [checkGameId, checkGameId, h]

/-- A page moves on without touching its id, and asks nothing. -/
theorem OwnQuery.post {c : GameConfig ι} {i : ι} {s : NewGameState} {out : List (Call Cont)}
    {cause : List (Call Cont × Answer)} (h : OwnQuery c) (hs : s.gameId = (c.clients i).gameId)
    (hout : ∀ call ∈ out, call.cont ≠ .checkGameId) : OwnQuery (c.post i s out cause) := by
  have hclient : ∀ j, checkGameId ((c.post i s out cause).clients j) =
      checkGameId (c.clients j) := by
    intro j
    refine Config.client_post (p := fun s => checkGameId s = _) ?_ fun _ => rfl
    rintro rfl
    exact checkGameId_congr hs
  refine ⟨?_, ?_, ?_⟩
  · rw [awaiting_post, filterMap_awaits hout, Multiset.coe_nil, add_zero]
    exact h.nodup
  · intro m hm hcont
    rw [hclient]
    rcases mem_calls_post hm with hm | ⟨call, hc, rfl⟩
    · exact h.calls m hm hcont
    · exact absurd hcont (hout call hc)
  · intro p hp hcont
    rw [hclient]
    exact h.answers p hp hcont

/-- A page that waits for no query draws an id and asks about it. -/
theorem OwnQuery.ask {c : GameConfig ι} {i : ι} {s : NewGameState}
    {cause : List (Call Cont × Answer)} (h : OwnQuery c) (hi : i ∉ awaiting .checkGameId c) :
    OwnQuery (c.post i s [checkGameId s] cause) := by
  have hother : ∀ {j : ι}, j ∈ awaiting .checkGameId c →
      (c.post i s [checkGameId s] cause).clients j = c.clients j := by
    intro j hj
    apply Config.post_clients_ne
    rintro rfl
    exact hi hj
  refine ⟨?_, ?_, ?_⟩
  · rw [awaiting_post]
    have hnew : ([checkGameId s].map (Message.mk i · cause)).filterMap (awaits .checkGameId) =
        [i] :=
      rfl
    rw [hnew, Multiset.coe_singleton, add_comm, Multiset.singleton_add]
    exact Multiset.nodup_cons.mpr ⟨hi, h.nodup⟩
  · intro m hm hcont
    rcases mem_calls_post hm with hm | ⟨call, hc, rfl⟩
    · rw [hother (mem_awaiting.mpr (Or.inl ⟨m, hm, hcont, rfl⟩))]
      exact h.calls m hm hcont
    · rw [List.mem_singleton.mp hc, Config.post_clients_self]
  · intro p hp hcont
    rw [hother (mem_awaiting.mpr (Or.inr ⟨p, hp, hcont, rfl⟩))]
    exact h.answers p hp hcont

omit [DecidableEq ι] in
theorem OwnQuery.taken {c : GameConfig ι} {k : Nat} {m : GameMessage ι} {a : Answer}
    (h : OwnQuery c) (hk : c.answers[k]? = some (m, a)) :
    OwnQuery (c.taken k) ∧ (m.call.cont = .checkGameId →
      m.client ∉ awaiting .checkGameId (c.taken k)) := by
  by_cases hm : m.call.cont = .checkGameId
  · obtain ⟨hnot, hnodup⟩ := Multiset.nodup_cons.mp (awaiting_taken hk hm ▸ h.nodup)
    exact ⟨⟨hnodup, h.calls, fun p hp => h.answers p (List.mem_of_mem_eraseIdx hp)⟩, fun _ => hnot⟩
  · refine ⟨⟨?_, h.calls, fun p hp => h.answers p (List.mem_of_mem_eraseIdx hp)⟩,
      fun hcont => absurd hcont hm⟩
    rw [awaiting_taken_ne hk hm]
    exact h.nodup

omit [DecidableEq ι] in
theorem OwnQuery.served {c : GameConfig ι} {k : Nat} {m : GameMessage ι} {b : Backend ι}
    {a : Answer} (h : OwnQuery c) (hk : c.calls[k]? = some m) : OwnQuery (c.served k m b a) := by
  refine ⟨awaiting_served hk ▸ h.nodup, ?_, ?_⟩
  · exact fun m' hm' => h.calls m' (List.mem_of_mem_eraseIdx hm')
  · intro p hp hcont
    rcases mem_answers_served hp with hp | rfl
    · exact h.answers p hp hcont
    · exact h.calls m (List.mem_of_getElem? hk) hcont

section Run

variable {C : GameConfig ι → GameAction ι → Prop} {c : GameConfig ι}

theorem ownQuery (hC : ∀ c a, C c a → OneAtATime c a) (h : (gameSystem ι).Reach C c) :
    OwnQuery c := by
  refine h.invariant (P := OwnQuery) ?_ ?_
  · rintro _ ⟨b, -, rfl⟩
    exact ⟨Multiset.nodup_zero, List.forall_mem_nil _, List.forall_mem_nil _⟩
  · intro c a c' hr hq hca hs
    have hone := hC c a hca
    refine step_keeps (Q := OwnQuery) hs ?_ ?_ ?_
    · intro i e s out hact he
      subst hact
      rcases onEvent_cases he with ⟨rfl, hpage⟩ | ⟨-, -, hid, -, rfl⟩ | ⟨r, rfl, -, -, rfl, rfl⟩
      · exact hq.post hpage.gameId (List.forall_mem_nil _)
      · refine hq.post hid ?_
        intro call hc
        rw [List.mem_singleton.mp hc]
        nofun
      · exact hq.ask hone
    · intro k o m b r _ hk _
      exact hq.served hk
    · intro k d m r s out _ hk ha
      obtain ⟨htaken, hnot⟩ := hq.taken hk
      rcases answer_cases ha with
        ⟨rfl, rfl⟩ | ⟨u, -, -, rfl, rfl⟩ | ⟨hcont, -, -, rfl, rfl⟩ | ⟨-, -, -, rfl, rfl⟩
      · exact htaken.post rfl (List.forall_mem_nil _)
      · exact htaken.post rfl (List.forall_mem_nil _)
      · exact htaken.ask (hnot hcont)
      · refine htaken.post rfl ?_
        intro call hc
        rw [saveGame_cont hc]
        nofun

end Run

/-! ## One step, as a step of the reservation protocol -/

omit [DecidableEq ι] in
theorem heldAnswer_query (i : ι) (s : NewGameState) (cause : List (Call Cont × Answer))
    (ds : List (String × Doc)) : heldAnswer (Message.mk i (checkGameId s) cause, .documents ds)
      = if ds = [] then some (interpInt s.gameId) else none := by
  cases ds with
  | nil =>
      show some (interpInt (idOf (.ofInt s.gameId))) = _
      rw [idOf_ofInt]
      rfl
  | cons => rfl

omit [DecidableEq ι] in
/-- The two writes of a game hold its id once. -/
theorem filterMap_heldCall_saveGame (i : ι) (s : NewGameState) (cause : List (Call Cont × Answer)) :
    ((saveGame s).map (Message.mk i · cause)).filterMap heldCall = [interpInt s.gameId] := by
  have hshared : heldCall (Message.mk i
      ⟨Cont.written, .setData (gamePath (interpInt s.gameId)) (gameDoc s)⟩ cause) =
      some (interpInt s.gameId) := DocStore.childId_eq_some.mpr rfl
  have hown : heldCall (Message.mk i ⟨Cont.written, .setData
      (userGamePath (interp s.mCurrentUser) (interpInt s.gameId)) (gameDoc s)⟩ cause) = none := by
    rw [Option.eq_none_iff_forall_ne_some]
    intro g hg
    exact gamePath_ne_userGamePath _ _ _ (DocStore.childId_eq_some.mp hg).symm
  rw [saveGame, List.map_cons, List.map_singleton, List.filterMap_cons, hshared,
    List.filterMap_cons, hown]
  rfl

omit [DecidableEq ι] in
/-- A query that finds no game means that no game is stored under its id. -/
theorem not_mem_taken {db : Db} (hkeyed : GamesKeyed db) {s : NewGameState}
    (hfree : ¬ Found db (checkGameId s).req) : interpInt s.gameId ∉ taken db := by
  intro htaken
  obtain ⟨d, hd⟩ := Option.ne_none_iff_exists'.mp htaken
  obtain ⟨n, hn, hk⟩ := hkeyed _ d hd
  have hid : s.gameId = n := interpInt_inj.mp hk
  apply hfree
  intro hnil
  exact Db.whereEq_eq_nil.mp hnil _ d hd (hn.trans (congrArg Value.ofInt hid.symm))

omit [DecidableEq ι] in
theorem taken_setData_subset (db : Db) (g : String) (d : Doc) :
    taken (DocStore.setData db (gamePath g) d) ⊆ insert g (taken db) := by
  intro k hk
  by_cases hp : gamePath k = gamePath g
  · exact Or.inl (List.cons.inj (List.append_cancel_left hp)).1
  · refine Or.inr fun hnone => hk ?_
    rw [DocStore.get_setData_ne _ _ hp]
    exact hnone

omit [DecidableEq ι] in
theorem taken_setData_user (db : Db) (u g : String) (d : Doc) :
    taken (DocStore.setData db (userGamePath u g) d) = taken db := by
  ext k
  show DocStore.get _ (gamePath k) ≠ none ↔ DocStore.get db (gamePath k) ≠ none
  rw [DocStore.get_setData_ne _ _ (gamePath_ne_userGamePath k u g)]

theorem simulates_serve {c : GameConfig ι} {k : Nat} {o : Outcome} {m : GameMessage ι}
    {b : Backend ι} {a : Answer} (hkeyed : GamesKeyed c.backend.db) (hsent : Sent m.call)
    (hu : Undisturbed c (.serve k o)) (hk : c.calls[k]? = some m)
    (hserve : c.backend.serve m.client m.call.req o = some (b, a)) :
    Relation.ReflTransGen Reservation.Step (reservations c) (reservations (c.served k m b a)) := by
  have hcarried := Config.carried_served heldCall heldAnswer c b a hk
  obtain ⟨i, call, cause⟩ := m
  rcases hsent with ⟨-, hreq⟩ | ⟨s, rfl⟩ | ⟨s, hs⟩
  · -- the lookup holds nothing
    have hreq' : call.req = .currentUser := hreq
    rw [hreq'] at hserve
    have hdb : b.db = c.backend.db := Backend.serve_db id hserve
    have hnone : heldAnswer ((⟨i, call, cause⟩ : GameMessage ι), a) = none := by
      simp only [heldAnswer, hreq']
    simp only [reservations, Config.served_backend, hdb]
    exact Reservation.steps_drop hcarried hnone
  · -- a query: the id becomes held if it is found free
    have hheld : heldCall (Message.mk i (checkGameId s) cause) = none := rfl
    obtain ⟨rfl, rfl | ⟨e, rfl⟩⟩ := Backend.serve_whereEq hserve
    · rw [heldAnswer_query] at hcarried
      by_cases hfree : c.backend.db.whereEq gamesPath "gameid" (.ofInt s.gameId) = []
      · have hnot : ¬ Found c.backend.db (checkGameId s).req := fun hfound => hfound hfree
        have hfresh := hu _ hk _ (heldAnswer_query i s cause []) hnot
        exact Reservation.steps_check (not_mem_taken hkeyed hnot) hfresh hcarried hheld
          (if_pos hfree)
      · exact Reservation.steps_drop hcarried (if_neg hfree)
    · exact Reservation.steps_drop hcarried rfl
  · -- a write: the shared one takes its id
    rcases mem_saveGame.mp hs with hcall | hcall
    · obtain rfl : call = _ := hcall
      rcases Backend.serve_setData hserve with ⟨rfl, rfl⟩ | ⟨rfl, e, rfl⟩
      · exact Reservation.steps_commit (taken_setData_subset _ _ _) hcarried
          (DocStore.childId_eq_some.mpr rfl) rfl
      · exact Reservation.steps_drop hcarried rfl
    · obtain rfl : call = _ := hcall
      rcases Backend.serve_setData hserve with ⟨rfl, rfl⟩ | ⟨rfl, e, rfl⟩
      · simp only [reservations, Config.served_backend, taken_setData_user]
        exact Reservation.steps_drop hcarried rfl
      · exact Reservation.steps_drop hcarried rfl

theorem simulates_deliver {c : GameConfig ι} {k : Nat} {m : GameMessage ι} {a : Answer} {r : Draw}
    (hown : OwnQuery c) (hk : c.answers[k]? = some (m, a)) :
    Relation.ReflTransGen Reservation.Step (reservations c)
      (reservations ((c.taken k).post m.client (onAnswer (c.clients m.client) m.call.cont a r).1
        (onAnswer (c.clients m.client) m.call.cont a r).2 ((m.call, a) :: m.cause))) := by
  have hcarried := Config.carried_deliver heldCall heldAnswer c m.client
    (onAnswer (c.clients m.client) m.call.cont a r).1
    (onAnswer (c.clients m.client) m.call.cont a r).2 ((m.call, a) :: m.cause) hk
  rcases onAnswer_cases (c.clients m.client) m.call.cont a r with
    h' | ⟨u, -, -, h'⟩ | ⟨-, -, -, h'⟩ | ⟨hcont, -, rfl, h'⟩ <;> rw [h'] at hcarried ⊢
  · exact Reservation.steps_drop (r := none) hcarried rfl
  · exact Reservation.steps_drop (r := none) hcarried rfl
  · exact Reservation.steps_drop (r := none) hcarried rfl
  · -- the id goes from the answer to the write of the game
    have hcall := hown.answers _ (List.mem_of_getElem? hk) hcont
    rw [filterMap_heldCall_saveGame] at hcarried
    refine Reservation.steps_pass (r := some (interpInt (c.clients m.client).gameId)) hcarried ?_
    have hquery := heldAnswer_query m.client (c.clients m.client) m.cause []
    rw [← hcall] at hquery
    exact hquery

/-! ## Every run -/

section Run

variable {c : GameConfig ι}

/-- Each page runs one allocation at a time, and no held id is found free. -/
def Careful (c : GameConfig ι) (a : GameAction ι) : Prop :=
  OneAtATime c a ∧ Undisturbed c a

theorem exclusive_reservations (h : (gameSystem ι).Reach Careful c) :
    Reservation.Exclusive (reservations c) := by
  obtain ⟨_, ⟨b, -, rfl⟩, hsteps⟩ := h.simulates fun c a c' hr hC hs =>
    step_keeps (Q := fun c' => Relation.ReflTransGen _ (reservations c) (reservations c')) hs
      (fun i e s out _ he => by
        have hcarried := Config.carried_post heldCall heldAnswer c i s out []
        have hnone : (out.map (Message.mk i · [])).filterMap heldCall = [] := by
          rcases onEvent_cases he with ⟨rfl, -⟩ | ⟨-, -, -, -, rfl⟩ | ⟨r, -, -, -, -, rfl⟩ <;> rfl
        rw [hnone] at hcarried
        exact Reservation.steps_pass (o := none) (r := none) ((add_zero _).trans hcarried) rfl)
      (fun k o m b a hact hk hserve => by
        subst hact
        exact simulates_serve (gamesKeyed hr)
          (sent hr m ((inFlightIssued hr).1 m (List.mem_of_getElem? hk))) hC.2 hk hserve)
      (fun k d m a s out _ hk ha => by
        obtain ⟨rfl, rfl⟩ := Prod.mk.inj ha
        exact simulates_deliver (ownQuery (fun _ _ hC => hC.1) hr) hk)
  exact (Reservation.exclusive_of_held_eq_zero rfl).steps hsteps

/-- In every run in which each page runs one allocation at a time and no held id is found free, a
write of a game never finds a game under its id. -/
theorem write_finds_none (h : (gameSystem ι).Reach Careful c) {m : GameMessage ι} {g : String}
    {d : Doc} (hm : m ∈ c.calls) (hreq : m.call.req = .setData (gamePath g) d) :
    DocStore.get c.backend.db (gamePath g) = none := by
  have hheld : heldCall m = some g := by
    simp only [heldCall, hreq]
    exact DocStore.childId_eq_some.mpr rfl
  have hmem : g ∈ held c := Multiset.mem_add.mpr (Or.inl (List.mem_filterMap.mpr ⟨m, hm, hheld⟩))
  have hfresh := (exclusive_reservations h).fresh g hmem
  by_contra hsome
  exact hfresh hsome

end Run

/-! ## One page after the other, and two at once -/

instance (c : GameConfig ι) : ∀ a, Decidable (OneAtATime c a)
  | .event _ (.pressStart _) => by unfold OneAtATime; infer_instance
  | .event _ (.initState _ _) | .event _ (.editName _) | .event _ (.editAdress _)
  | .event _ (.selectDate _) | .event _ (.selectTime _) | .event _ (.moveSlider _)
  | .event _ (.editSBlind _) | .event _ (.editBBlind _) | .event _ (.editInfo _)
  | .event _ .dispose | .serve _ _ | .deliver _ _ => .isTrue trivial

instance (c : GameConfig ι) : ∀ a, Decidable (Undisturbed c a)
  | .event _ _ | .deliver _ _ => .isTrue trivial
  | .serve _ _ => by unfold Undisturbed; infer_instance

instance (c : GameConfig ι) (a : GameAction ι) : Decidable (Careful c a) := by
  unfold Careful
  infer_instance

theorem gamesKeyed_empty : GamesKeyed (∅ : Db) := by
  intro k d hget
  rw [DocStore.get_empty] at hget
  cases hget

/-- Two devices, Ola and Kai signed in. -/
def olaAndKai : Backend Bool :=
  { Backend.empty Bool with session := fun i => some (if i then "kai" else "ola") }

/-- Open the page and wait for the user. -/
def openPage (i : Bool) : List (GameAction Bool) :=
  [.event i (.initState {} {}), .serve 0 (.accept ""), .deliver 0 0]

/-- What is stored at the path of the first outstanding call, if that call writes a game. -/
def target (c : GameConfig Bool) : Option (Path × Option Doc) :=
  match c.calls with
  | ⟨_, ⟨_, .setData p _⟩, _⟩ :: _ => some (p, DocStore.get c.backend.db p)
  | _ => none

theorem target_eq_some {c : GameConfig Bool} {p : Path} {before : Option Doc}
    (h : target c = some (p, before)) :
    ∃ m ∈ c.calls, ∃ d, m.call.req = .setData p d ∧ DocStore.get c.backend.db p = before := by
  unfold target at h
  split at h
  · next i cont p' d cause ms hcalls =>
      obtain ⟨rfl, rfl⟩ := Prod.mk.inj (Option.some.inj h)
      exact ⟨_, by rw [hcalls]; exact List.mem_cons_self, d, rfl, rfl⟩
  · cases h

/-- Kai presses after Ola's game has been written, and draws Ola's id first. -/
theorem write_finds_none_two : ∃ c : GameConfig Bool,
    (gameSystem Bool).follow Careful (start olaAndKai) (openPage false ++ openPage true ++
      [.event false (.pressStart 7), .serve 0 (.accept ""), .deliver 0 0, .serve 0 (.accept ""),
        .serve 0 (.accept ""), .deliver 0 0, .deliver 0 0, .event true (.pressStart 7),
        .serve 0 (.accept ""), .deliver 0 8, .serve 0 (.accept ""), .deliver 0 0]) = some c ∧
    DocStore.get c.backend.db (gamePath "8") = none := by
  have hrun : ((gameSystem Bool).follow Careful (start olaAndKai)
    (openPage false ++ openPage true ++
      ([.event false (.pressStart 7), .serve 0 (.accept ""), .deliver 0 0, .serve 0 (.accept ""),
        .serve 0 (.accept ""), .deliver 0 0, .deliver 0 0, .event true (.pressStart 7),
        .serve 0 (.accept ""), .deliver 0 8, .serve 0 (.accept ""), .deliver 0 0] :
          List (GameAction Bool)))).map target
      = some (some (gamePath "8", none)) := by
    decide +kernel
  obtain ⟨c, hc, htarget⟩ := Option.map_eq_some_iff.mp hrun
  obtain ⟨m, hm, d, hreq, -⟩ := target_eq_some htarget
  exact ⟨c, hc, write_finds_none (Machine.Reach.of_follow ⟨_, gamesKeyed_empty, rfl⟩ hc) hm hreq⟩

/-- Ola and Kai both draw 7; both queries are answered before either game is written. -/
theorem not_write_finds_none : ¬ ∀ (c : GameConfig Bool) (m : GameMessage Bool) (g : String)
    (d : Doc),
    (gameSystem Bool).Reach OneAtATime c → m ∈ c.calls → m.call.req = .setData (gamePath g) d →
      DocStore.get c.backend.db (gamePath g) = none := by
  intro h
  have hrun : ((gameSystem Bool).follow OneAtATime (start olaAndKai)
      (openPage false ++ openPage true ++
        ([.event false (.pressStart 7), .event true (.pressStart 7), .serve 0 (.accept ""),
          .serve 0 (.accept ""), .deliver 0 0, .deliver 0 0, .serve 0 (.accept ""),
          .serve 0 (.accept "")] : List (GameAction Bool)))).map target
      = some (some (gamePath "7", some (gameDoc { gameId := some 7 }))) := by
    decide +kernel
  obtain ⟨c, hc, htarget⟩ := Option.map_eq_some_iff.mp hrun
  obtain ⟨m, hm, d, hreq, hbefore⟩ := target_eq_some htarget
  have hnone := h c m "7" d (Machine.Reach.of_follow ⟨_, gamesKeyed_empty, rfl⟩ hc) hm hreq
  rw [hbefore] at hnone
  cases hnone

end P0ker.Games
