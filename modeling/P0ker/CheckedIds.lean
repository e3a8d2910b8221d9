import P0ker.Games.Creation
import P0ker.Groups.Creation

/-!
# Is the id that is saved the id that was checked?

A page draws an id and asks whether it is taken; the code that runs on the answer saves under the id
the page holds *then*. A second press draws another id, and a tap on a group type changes the type,
while the first query is out; its answer then speaks of one id and the page saves another.

`Asks` says that a page works like this. `savedAsChecked_iff_reach` then tells the runs in which
everything that is saved was checked: those in which no free answer is handled unless the page has
asked about no other id since, and shows the type that was asked about.
-/

namespace P0ker.CheckedIds

open Async

variable {ι σ τ ε κ : Type} [DecidableEq ι] [DecidableEq κ]

/-! ## Pages that ask and then save -/

/-- The id a query asks about. -/
def asked (call : Call κ) : Option Nat :=
  match call.req with
  | .whereEq _ _ v => Games.idOf v
  | _ => none

/-- The page asks about the id it holds with `query`, which also reads the part `form` of its state,
and on a free answer issues the writes `save` of the state it is in. -/
structure Asks (P : Program σ ε Draw (Call κ) Answer) (cont : κ) (mounted : σ → Bool)
    (form : σ → τ) (id : σ → Option Nat) (query : τ → Option Nat → Call κ)
    (save : σ → List (Call κ)) : Prop where
  query_cont : ∀ t n, (query t n).cont = cont
  query_reads : ∀ t n, ¬ (query t n).req.Writes
  asked_query : ∀ t n, asked (query t n) = n
  /-- One of the writes tells what was saved. -/
  names : ∀ s, ∃ call ∈ save s, call.req.Writes ∧
    ∀ s', call ∈ save s' → form s' = form s ∧ id s' = id s
  event : ∀ s e s' out, P.onEvent s e = some (s', out) → (∀ call ∈ out, ¬ call.req.Writes) ∧
    (out = [query (form s') (id s')] ∨ id s' = id s ∧ ∀ call ∈ out, call.cont ≠ cont)
  answer : ∀ s call a r s' out, P.onAnswer s call a r = (s', out) →
    out = [query (form s') (id s')] ∨ id s' = id s ∧ ∀ call ∈ out, call.cont ≠ cont
  free : ∀ s call a r s' out, P.onAnswer s call a r = (s', out) → call.cont = cont →
    a = .documents [] → mounted s = true → out = save s
  other : ∀ s call a r s' out, P.onAnswer s call a r = (s', out) →
    ¬ (call.cont = cont ∧ a = .documents [] ∧ mounted s = true) → ∀ call ∈ out, ¬ call.req.Writes

/-- The latest query of page `i`. -/
def lastAsked (cont : κ) (i : ι) (c : Config ι σ (Backend ι) (Call κ) Answer) : Option (Call κ) :=
  ((c.issued.filter fun m => m.client = i ∧ m.call.cont = cont).getLast?).map (·.call)

/-- Whatever has been written is the writes of a state whose own query found its id free. -/
def SavedAsChecked (ask : σ → Call κ) (save : σ → List (Call κ))
    (c : Config ι σ (Backend ι) (Call κ) Answer) : Prop :=
  ∀ w ∈ c.issued, w.call.req.Writes →
    ∃ s rest, w.call ∈ save s ∧ w.cause = (ask s, .documents []) :: rest

/-- The latest query of its page is about the same id, and the page still shows what the query read
off it. -/
def OwnAnswer (cont : κ) (form : σ → τ) (query : τ → Option Nat → Call κ)
    (c : Config ι σ (Backend ι) (Call κ) Answer) (m : Message ι (Call κ) Answer) : Prop :=
  (lastAsked cont m.client c).map asked = some (asked m.call) ∧
    m.call = query (form (c.clients m.client)) (asked m.call)

/-- A free answer is handled on a mounted page only when it is about what the page asked last. -/
def LatestAsked (cont : κ) (mounted : σ → Bool) (form : σ → τ) (query : τ → Option Nat → Call κ)
    (c : Config ι σ (Backend ι) (Call κ) Answer) : Action ι ε Draw Outcome → Prop
  | .deliver k _ => ∀ p ∈ c.answers[k]?, p.1.call.cont = cont ∧ p.2 = .documents [] ∧
      mounted (c.clients p.1.client) = true → OwnAnswer cont form query c p.1
  | _ => True

section LastAsked

variable {cont : κ} {c : Config ι σ (Backend ι) (Call κ) Answer} {i j : ι} {s : σ}
  {out : List (Call κ)} {cause : List (Call κ × Answer)} {m : Message ι (Call κ) Answer}

theorem lastAsked_post_other (h : ∀ call ∈ out, call.cont ≠ cont) :
    lastAsked cont j (c.post i s out cause) = lastAsked cont j c := by
  have hnone : (out.map (Message.mk i · cause)).filter
      (fun m => m.client = j ∧ m.call.cont = cont) = [] := by
    rw [List.filter_eq_nil_iff]
    intro m hm
    obtain ⟨call, hc, rfl⟩ := List.mem_map.mp hm
    simpa using fun _ => h call hc
  rw [lastAsked, Config.post_issued, List.filter_append, hnone, List.append_nil]
  rfl

theorem lastAsked_post_self {q : Call κ} (h : q.cont = cont) :
    lastAsked cont i (c.post i s [q] cause) = some q := by
  simp [lastAsked, h]

theorem lastAsked_post_ne {q : Call κ} (h : j ≠ i) :
    lastAsked cont j (c.post i s [q] cause) = lastAsked cont j c := by
  simp [lastAsked, h.symm]

theorem lastAsked_of_mem (hm : m ∈ c.issued) (hcont : m.call.cont = cont) :
    ∃ q, lastAsked cont m.client c = some q := by
  have hmem : m ∈ c.issued.filter fun m' => m'.client = m.client ∧ m'.call.cont = cont :=
    List.mem_filter.mpr ⟨hm, by simpa using hcont⟩
  obtain ⟨m', hm'⟩ := Option.isSome_iff_exists.mp
    (List.getLast?_isSome.mpr (List.ne_nil_of_mem hmem))
  exact ⟨m'.call, by rw [lastAsked, hm', Option.map_some]⟩

end LastAsked

section Run

variable {P : Program σ ε Draw (Call κ) Answer} {cont : κ} {mounted : σ → Bool} {form : σ → τ}
  {id : σ → Option Nat} {query : τ → Option Nat → Call κ} {save : σ → List (Call κ)} {s₀ : σ}
  {C : Config ι σ (Backend ι) (Call κ) Answer → Action ι ε Draw Outcome → Prop}
  {c c' : Config ι σ (Backend ι) (Call κ) Answer}

omit [DecidableEq κ] in
theorem inFlightIssued (h : (system P (firebase ι κ) (Opening s₀)).Reach C c) :
    InFlightIssued c := by
  apply Reach.inFlightIssued h
  rintro _ ⟨b, rfl⟩
  exact InFlightIssued.start _ _ _

/-! ## The latest query is about the id the page holds -/

/-- The queries of page `i`: each is one of `query`, and the latest is about the id it holds. -/
structure Holds (cont : κ) (id : σ → Option Nat) (query : τ → Option Nat → Call κ)
    (c : Config ι σ (Backend ι) (Call κ) Answer) : Prop where
  queries : ∀ m ∈ c.issued, m.call.cont = cont → ∃ t n, m.call = query t n
  latest : ∀ i q, lastAsked cont i c = some q → ∃ t, q = query t (id (c.clients i))

theorem Holds.post {i : ι} {s : σ} {out : List (Call κ)} {cause : List (Call κ × Answer)}
    (hP : Asks P cont mounted form id query save) (h : Holds cont id query c)
    (hout : out = [query (form s) (id s)] ∨
      id s = id (c.clients i) ∧ ∀ call ∈ out, call.cont ≠ cont) :
    Holds cont id query (c.post i s out cause) := by
  rcases hout with rfl | ⟨hid, hout⟩
  · -- a query, about the id the page now holds
    refine ⟨?_, ?_⟩
    · intro m hm hcont
      rcases mem_issued_post hm with hm | ⟨call, hc, rfl⟩
      · exact h.queries m hm hcont
      · exact ⟨_, _, List.mem_singleton.mp hc⟩
    · intro j q hq
      by_cases hj : j = i
      · subst hj
        rw [lastAsked_post_self (hP.query_cont _ _)] at hq
        rw [Config.post_clients_self]
        exact ⟨_, (Option.some.inj hq).symm⟩
      · rw [lastAsked_post_ne hj] at hq
        rw [Config.post_clients_ne _ _ _ _ _ hj]
        exact h.latest j q hq
  · -- no query, and the page holds the id it held
    refine ⟨?_, ?_⟩
    · intro m hm hcont
      rcases mem_issued_post hm with hm | ⟨call, hc, rfl⟩
      · exact h.queries m hm hcont
      · exact absurd hcont (hout call hc)
    · intro j q hq
      rw [lastAsked_post_other hout] at hq
      refine Config.client_post (p := fun s => ∃ t, q = query t (id s)) ?_ fun _ => h.latest j q hq
      rintro rfl
      rw [hid]
      exact h.latest j q hq

theorem holds (hP : Asks P cont mounted form id query save)
    (h : (system P (firebase ι κ) (Opening s₀)).Reach C c) : Holds cont id query c := by
  refine h.invariant ?_ ?_
  · rintro _ ⟨b, rfl⟩
    exact ⟨List.forall_mem_nil _, nofun⟩
  · intro c a c' _ hq _ hs
    refine step_keeps (Q := Holds cont id query) hs ?_ ?_ ?_
    · intro i e s out _ he
      exact hq.post hP (hP.event _ _ _ _ he).2
    · intro k o m b r _ _ _
      exact ⟨hq.queries, hq.latest⟩
    · intro k d m r s out _ _ ha
      have htaken : Holds cont id query (c.taken k) := ⟨hq.queries, hq.latest⟩
      exact htaken.post hP (hP.answer _ _ _ _ _ _ ha)

/-! ## One step -/

omit [DecidableEq κ] in
/-- What has been written stays written. -/
theorem SavedAsChecked.of_step {ask : σ → Call κ} {a : Action ι ε Draw Outcome}
    (hs : step P (firebase ι κ) c a = some c') (h : SavedAsChecked ask save c') :
    SavedAsChecked ask save c :=
  fun w hw => h w (mem_issued_step hs hw)

omit [DecidableEq κ] in
theorem SavedAsChecked.post {ask : σ → Call κ} {i : ι} {s : σ} {out : List (Call κ)}
    {cause : List (Call κ × Answer)} (h : SavedAsChecked ask save c)
    (hout : ∀ call ∈ out, call.req.Writes →
      ∃ s rest, call ∈ save s ∧ cause = (ask s, .documents []) :: rest) :
    SavedAsChecked ask save (c.post i s out cause) := by
  intro w hw hwrites
  rcases mem_issued_post hw with hw | ⟨call, hc, rfl⟩
  · exact h w hw hwrites
  · exact hout call hc hwrites

/-- The step that handles a free answer on a mounted page. -/
theorem savedAsChecked_free {k : Nat} {m : Message ι (Call κ) Answer} {r : Draw} {s : σ}
    {out : List (Call κ)} (hP : Asks P cont mounted form id query save)
    (hheld : Holds cont id query c) (hissued : m ∈ c.issued)
    (hq : SavedAsChecked (fun s => query (form s) (id s)) save c) (hcont : m.call.cont = cont)
    (hm : mounted (c.clients m.client) = true)
    (ha : P.onAnswer (c.clients m.client) m.call (.documents []) r = (s, out)) :
    SavedAsChecked (fun s => query (form s) (id s)) save
        ((c.taken k).post m.client s out ((m.call, .documents []) :: m.cause)) ↔
      OwnAnswer cont form query c m := by
  obtain rfl := hP.free _ _ _ _ _ _ ha hcont rfl hm
  obtain ⟨q, hlast⟩ := lastAsked_of_mem hissued hcont
  obtain ⟨t, rfl⟩ := hheld.latest m.client q hlast
  rw [OwnAnswer, hlast, Option.map_some, hP.asked_query]
  constructor
  · intro h
    -- the write that tells the id was caused by the query about it
    obtain ⟨call, hc, hwrites, hnames⟩ := hP.names (c.clients m.client)
    obtain ⟨s', rest, hs', hcause⟩ := h ⟨m.client, call, (m.call, .documents []) :: m.cause⟩
      (List.mem_append_right _ (List.mem_map.mpr ⟨call, hc, rfl⟩)) hwrites
    obtain ⟨hform, hid⟩ := hnames s' hs'
    have hcall : m.call = query (form s') (id s') := (Prod.mk.inj (List.cons.inj hcause).1).1
    rw [hcall, hform, hid, hP.asked_query]
    exact ⟨rfl, rfl⟩
  · rintro ⟨hid, hcall⟩
    have htaken : SavedAsChecked (fun s => query (form s) (id s)) save (c.taken k) := hq
    refine htaken.post ?_
    intro call hc _
    refine ⟨c.clients m.client, m.cause, hc, ?_⟩
    rw [hcall, ← Option.some.inj hid]

theorem savedAsChecked_step (hP : Asks P cont mounted form id query save)
    (h : (system P (firebase ι κ) (Opening s₀)).Reach C c) {a : Action ι ε Draw Outcome}
    (hs : step P (firebase ι κ) c a = some c')
    (hq : SavedAsChecked (fun s => query (form s) (id s)) save c) :
    SavedAsChecked (fun s => query (form s) (id s)) save c' ↔
      LatestAsked cont mounted form query c a := by
  cases a with
  | event i e =>
      obtain ⟨s, out, he, rfl⟩ := step_event hs
      refine ⟨fun _ => trivial, fun _ => hq.post ?_⟩
      exact fun call hc hwrites => absurd hwrites ((hP.event _ _ _ _ he).1 call hc)
  | serve k o =>
      obtain ⟨m, b, r, -, -, rfl⟩ := step_serve hs
      exact ⟨fun _ => trivial, fun _ => hq⟩
  | deliver k d =>
      obtain ⟨m, r, s, out, hk, ha, rfl⟩ := step_deliver (S := firebase ι κ) hs
      by_cases hfree : m.call.cont = cont ∧ r = .documents [] ∧
          mounted (c.clients m.client) = true
      · obtain ⟨hcont, rfl, hm⟩ := hfree
        have hissued := (inFlightIssued h).2 _ (List.mem_of_getElem? hk)
        rw [savedAsChecked_free hP (holds hP h) hissued hq hcont hm ha]
        constructor
        · intro hown p hk' _
          obtain rfl := Option.some.inj (hk.symm.trans hk')
          exact hown
        · exact fun hlatest => hlatest _ hk ⟨hcont, rfl, hm⟩
      · -- nothing is written
        have htaken : SavedAsChecked (fun s => query (form s) (id s)) save (c.taken k) := hq
        refine ⟨fun _ => ?_, fun _ => htaken.post ?_⟩
        · intro p hk' hp
          obtain rfl := Option.some.inj (hk.symm.trans hk')
          exact absurd hp hfree
        · exact fun call hc hwrites =>
            absurd hwrites (hP.other _ _ _ _ _ _ ha hfree call hc)

/-! ## Every run -/

/-- All that has been saved was checked if and only if every step has handled only answers of latest
queries. -/
theorem savedAsChecked_iff_reach (hP : Asks P cont mounted form id query save)
    (h : (system P (firebase ι κ) (Opening s₀)).Reachable c) :
    SavedAsChecked (fun s => query (form s) (id s)) save c ↔
      (system P (firebase ι κ) (Opening s₀)).Reach (LatestAsked cont mounted form query) c := by
  refine h.exact ?_ (fun _ _ _ hs => SavedAsChecked.of_step hs) ?_
  · rintro _ ⟨b, rfl⟩
    exact List.forall_mem_nil _
  · intro c a c' hr hq hs
    exact savedAsChecked_step hP hr hs hq

end Run

/-! ## The NewGame page -/

section Game

open NewGame

/-- The query about the id `n`; it reads nothing else. -/
def gameQuery (_ : Unit) (n : Option Nat) : Call Cont := checkGameId { gameId := n }

theorem game_asks : Asks program .checkGameId NewGameState.mounted (fun _ => ())
    NewGameState.gameId gameQuery saveGame where
  query_cont _ _ := rfl
  query_reads _ _ := id
  asked_query _ n := Games.idOf_ofInt n
  names s := by
    -- the shared record's path tells the id
    refine ⟨_, mem_saveGame.mpr (Or.inl rfl), trivial, ?_⟩
    intro s' h
    refine ⟨rfl, ?_⟩
    rcases mem_saveGame.mp h with h | h
    · have hpath := (Request.setData.inj (Call.mk.inj h).2).1
      exact (interpInt_inj.mp (List.cons.inj (List.append_cancel_left hpath)).1).symm
    · have hpath := (Request.setData.inj (Call.mk.inj h).2).1
      exact absurd hpath (Games.gamePath_ne_userGamePath _ _ _)
  event s e s' out he := by
    rcases onEvent_cases he with ⟨rfl, hpage⟩ | ⟨-, -, hid, -, rfl⟩ | ⟨r, -, -, -, rfl, rfl⟩
    · exact ⟨List.forall_mem_nil _, Or.inr ⟨hpage.gameId, List.forall_mem_nil _⟩⟩
    · refine ⟨?_, Or.inr ⟨hid, ?_⟩⟩
      · exact List.forall_mem_singleton.mpr id
      · exact List.forall_mem_singleton.mpr fun h => by cases h
    · exact ⟨List.forall_mem_singleton.mpr id, Or.inl rfl⟩
  answer s call a r s' out ha := by
    rcases answer_cases ha with
      ⟨rfl, rfl⟩ | ⟨u, -, -, rfl, rfl⟩ | ⟨-, -, -, rfl, rfl⟩ | ⟨-, -, -, rfl, rfl⟩
    · exact Or.inr ⟨rfl, List.forall_mem_nil _⟩
    · exact Or.inr ⟨rfl, List.forall_mem_nil _⟩
    · exact Or.inl rfl
    · refine Or.inr ⟨rfl, fun call' hc hq => ?_⟩
      rw [saveGame_cont hc] at hq
      cases hq
  free s call a r s' out ha hcont ha' hm := by
    subst ha'
    have ha' : onAnswer s call.cont (.documents []) r = (s', out) := ha
    rw [hcont] at ha'
    exact ((Prod.mk.inj ((gameIdChecked_free hm).symm.trans ha')).2).symm
  other s call a r s' out ha hnot := by
    rcases answer_cases ha with ⟨-, rfl⟩ | ⟨u, -, -, -, rfl⟩ | ⟨-, -, -, -, rfl⟩ | ⟨hc, hm, hd, -⟩
    · exact List.forall_mem_nil _
    · exact List.forall_mem_nil _
    · exact List.forall_mem_singleton.mpr id
    · exact absurd ⟨hc, hd, hm⟩ hnot

end Game

/-! ## The NewGroup page -/

section Group

open NewGroup

/-- The query about the id `n` in the type `t`. -/
def groupQuery (t : String) (n : Option Nat) : Call Cont :=
  checkGroupId { groupType := t, groupId := n }

theorem group_asks : Asks program .checkGroupId NewGroupState.mounted NewGroupState.groupType
    NewGroupState.groupId groupQuery saved where
  query_cont _ _ := rfl
  query_reads _ _ := id
  asked_query _ n := Games.idOf_ofInt n
  names s := by
    -- the shared record's path tells the type and the id
    refine ⟨_, group_mem_saved s, trivial, ?_⟩
    intro s' h
    rcases mem_saved.mp h with h | h | h
    · have hpath := (Request.setData.inj (Call.mk.inj h).2).1
      simp only [groupPath, List.cons.injEq, true_and, and_true] at hpath
      exact ⟨hpath.1.symm, (interpInt_inj.mp hpath.2).symm⟩
    · have hpath := (Request.setData.inj (Call.mk.inj h).2).1
      exact absurd (List.cons.inj hpath).1 (by decide)
    · have hpath := (Request.setData.inj (Call.mk.inj h).2).1
      exact absurd (List.cons.inj hpath).1 (by decide)
  event s e s' out he := by
    rcases onEvent_cases he with ⟨rfl, -⟩ | ⟨-, -, rfl, rfl⟩ | ⟨r, -, -, -, rfl, rfl⟩
    · exact ⟨List.forall_mem_nil _, Or.inr ⟨groupId_of_onEvent he, List.forall_mem_nil _⟩⟩
    · refine ⟨?_, Or.inr ⟨rfl, ?_⟩⟩
      · exact List.forall_mem_singleton.mpr id
      · exact List.forall_mem_singleton.mpr fun h => by cases h
    · exact ⟨List.forall_mem_singleton.mpr id, Or.inl rfl⟩
  answer s call a r s' out ha := by
    rcases answer_cases ha with
      ⟨rfl, rfl⟩ | ⟨u, -, -, rfl, rfl⟩ | ⟨-, -, -, rfl, rfl⟩ | ⟨-, -, -, rfl, rfl⟩
    · exact Or.inr ⟨rfl, List.forall_mem_nil _⟩
    · exact Or.inr ⟨rfl, List.forall_mem_nil _⟩
    · exact Or.inl rfl
    · refine Or.inr ⟨rfl, fun call' hc hq => ?_⟩
      rw [saved_cont hc] at hq
      cases hq
  free s call a r s' out ha hcont ha' hm := by
    subst ha'
    have ha' : onAnswer s call.cont (.documents []) r = (s', out) := ha
    rw [hcont] at ha'
    exact ((Prod.mk.inj ((groupIdChecked_free hm).symm.trans ha')).2).symm
  other s call a r s' out ha hnot := by
    rcases answer_cases ha with ⟨-, rfl⟩ | ⟨u, -, -, -, rfl⟩ | ⟨-, -, -, -, rfl⟩ | ⟨hc, hm, hd, -⟩
    · exact List.forall_mem_nil _
    · exact List.forall_mem_nil _
    · exact List.forall_mem_singleton.mpr id
    · exact absurd ⟨hc, hd, hm⟩ hnot

end Group

/-! ## The two pages -/

/-- A free answer is handled only when it is about the id the page asked about last. -/
abbrev GameLatest : Games.GameConfig ι → Games.GameAction ι → Prop :=
  LatestAsked .checkGameId NewGame.NewGameState.mounted (fun _ => ()) gameQuery

/-- A free answer is handled only when it is about the id the page asked about last and the type it
shows. -/
abbrev GroupLatest : Groups.GroupConfig ι → Groups.GroupAction ι → Prop :=
  LatestAsked .checkGroupId NewGroup.NewGroupState.mounted NewGroup.NewGroupState.groupType
    groupQuery

/-- Whatever the two pages have saved in a run, each was saved under the id (and the type) that the
query whose answer triggered it asked about, if and only if every free answer was handled while the
query was the latest of its page and, for a group, the type still the one asked about. -/
theorem saved_as_checked_iff :
    (∀ c : Games.GameConfig ι, (Games.gamePages ι).Reachable c →
      (SavedAsChecked NewGame.checkGameId NewGame.saveGame c ↔
        (Games.gamePages ι).Reach GameLatest c)) ∧
      ∀ c : Groups.GroupConfig ι, (Groups.groupPages ι).Reachable c →
        (SavedAsChecked NewGroup.checkGroupId NewGroup.saved c ↔
          (Groups.groupPages ι).Reach GroupLatest c) :=
  ⟨fun _ h => savedAsChecked_iff_reach game_asks h,
    fun _ h => savedAsChecked_iff_reach group_asks h⟩

/-! ### One allocation at a time, and two that overlap -/

instance (c : Games.GameConfig ι) : ∀ a, Decidable (GameLatest c a)
  | .event _ _ | .serve _ _ => .isTrue trivial
  | .deliver _ _ => by unfold GameLatest LatestAsked OwnAnswer; infer_instance

instance (c : Groups.GroupConfig ι) : ∀ a, Decidable (GroupLatest c a)
  | .event _ _ | .serve _ _ => .isTrue trivial
  | .deliver _ _ => by unfold GroupLatest LatestAsked OwnAnswer; infer_instance

/-- What has been written, with the query whose answer led to it. -/
def written (c : Config ι σ (Backend ι) (Call κ) Answer) : List (Call κ × Option (Call κ)) :=
  c.issued.filterMap fun m =>
    match m.call.req with
    | .setData _ _ => some (m.call, m.cause.head?.map (·.1))
    | _ => none

omit [DecidableEq ι] [DecidableEq κ] in
theorem SavedAsChecked.of_written {ask : σ → Call κ} {save : σ → List (Call κ)}
    {c : Config ι σ (Backend ι) (Call κ) Answer} {call q : Call κ}
    (h : SavedAsChecked ask save c) (hw : (call, some q) ∈ written c) :
    ∃ s, call ∈ save s ∧ q = ask s := by
  obtain ⟨m, hm, heq⟩ := List.mem_filterMap.mp hw
  split at heq
  · next doc data hreq =>
      obtain ⟨rfl, hq⟩ := Prod.mk.inj (Option.some.inj heq)
      obtain ⟨s, rest, hs, hcause⟩ := h m hm (by rw [hreq]; trivial)
      rw [hcause] at hq
      exact ⟨s, hs, (Option.some.inj hq).symm⟩
  · cases heq

/-- Ola's page, with her user found. -/
def gameOpened : List (Games.GameAction Unit) :=
  [.event () (.initState {} {}), .serve 0 (.accept ""), .deliver 0 0]

theorem saved_as_checked_alone :
    (∃ c : Games.GameConfig Unit, (Games.gamePages Unit).follow GameLatest
        (Config.start (fun _ => {}) Groups.withOla []) (gameOpened ++
          [.event () (.pressStart 1), .serve 0 (.accept ""), .deliver 0 0,
            .event () (.pressStart 2), .serve 2 (.accept ""), .deliver 0 0]) = some c ∧
      SavedAsChecked NewGame.checkGameId NewGame.saveGame c) ∧
    ∃ c : Groups.GroupConfig Unit, (Groups.groupPages Unit).follow GroupLatest
        (Config.start (fun _ => {}) Groups.withOla []) (Groups.openPage ++
          [.event () .tapPrivate, .event () (.pressCreate 1), .serve 0 (.accept ""), .deliver 0 0])
        = some c ∧ SavedAsChecked NewGroup.checkGroupId NewGroup.saved c := by
  constructor
  · have hrun :
      (((Games.gamePages Unit).follow GameLatest (Config.start (fun _ => {}) Groups.withOla [])
        (gameOpened ++ ([.event () (.pressStart 1), .serve 0 (.accept ""), .deliver 0 0,
          .event () (.pressStart 2), .serve 2 (.accept ""), .deliver 0 0] :
            List (Games.GameAction Unit)))).map
        fun c => (written c).length) = some 4 := by
      decide +kernel
    obtain ⟨c, hc, -⟩ := Option.map_eq_some_iff.mp hrun
    have hreach : (Games.gamePages Unit).Reach GameLatest c := Machine.Reach.of_follow ⟨_, rfl⟩ hc
    exact ⟨c, hc, (saved_as_checked_iff.1 c (hreach.mono fun _ _ _ => trivial)).mpr hreach⟩
  · have hrun :
      (((Groups.groupPages Unit).follow GroupLatest (Config.start (fun _ => {}) Groups.withOla [])
        (Groups.openPage ++ ([.event () .tapPrivate, .event () (.pressCreate 1),
          .serve 0 (.accept ""), .deliver 0 0] : List (Groups.GroupAction Unit)))).map
        fun c => (written c).length) = some 3 := by
      decide +kernel
    obtain ⟨c, hc, -⟩ := Option.map_eq_some_iff.mp hrun
    have hreach : (Groups.groupPages Unit).Reach GroupLatest c :=
      Machine.Reach.of_follow ⟨_, rfl⟩ hc
    exact ⟨c, hc, (saved_as_checked_iff.2 c (hreach.mono fun _ _ _ => trivial)).mpr hreach⟩

/-- 'Start game' is pressed twice, and the answer about 1 saves 2; a group is asked about as public
and saved as private. -/
theorem not_saved_as_checked :
    (¬ ∀ c : Games.GameConfig Unit, (Games.gamePages Unit).Reachable c →
      SavedAsChecked NewGame.checkGameId NewGame.saveGame c) ∧
    ¬ ∀ c : Groups.GroupConfig Unit, (Groups.groupPages Unit).Reachable c →
      SavedAsChecked NewGroup.checkGroupId NewGroup.saved c := by
  constructor
  · intro h
    have hrun : (((Games.gamePages Unit).run (Config.start (fun _ => {}) Groups.withOla [])
        (gameOpened ++ ([.event () (.pressStart 1), .event () (.pressStart 2),
          .serve 0 (.accept ""), .deliver 0 0] : List (Games.GameAction Unit)))).map
        fun c => (written c).head?)
        = some (some (⟨.written, .setData (NewGame.gamePath "2")
            (NewGame.gameDoc { gameId := some 2 })⟩, some (gameQuery () (some 1)))) := by
      decide +kernel
    obtain ⟨c, hc, hhead⟩ := Option.map_eq_some_iff.mp hrun
    obtain ⟨s, hs, hq⟩ := (h c (Machine.Reach.of_follow ⟨_, rfl⟩ hc)).of_written
      (List.mem_of_mem_head? hhead)
    have hid : some 1 = s.gameId :=
      Value.ofInt_inj.mp (Request.whereEq.inj (congrArg Call.req hq)).2.2
    rcases NewGame.mem_saveGame.mp hs with hcall | hcall <;> rw [← hid] at hcall
    · exact absurd (Request.setData.inj (Call.mk.inj hcall).2).1 (by decide)
    · exact absurd (Request.setData.inj (Call.mk.inj hcall).2).1
        (Games.gamePath_ne_userGamePath _ _ _)
  · intro h
    have hrun : (((Groups.groupPages Unit).run (Config.start (fun _ => {}) Groups.withOla [])
        (Groups.openPage ++ ([.event () (.pressCreate 1), .event () .tapPrivate,
          .serve 0 (.accept ""), .deliver 0 0] : List (Groups.GroupAction Unit)))).map
        fun c => (written c).head?)
        = some (some (⟨.written, .setData (NewGroup.groupPath "private" "1")
            (NewGroup.groupDoc { groupId := some 1, mCurrentUser := some "ola" })⟩,
          some (groupQuery "public" (some 1)))) := by
      decide +kernel
    obtain ⟨c, hc, hhead⟩ := Option.map_eq_some_iff.mp hrun
    obtain ⟨s, hs, hq⟩ := (h c (Machine.Reach.of_follow ⟨_, rfl⟩ hc)).of_written
      (List.mem_of_mem_head? hhead)
    have htype : "public" = s.groupType := by
      have hcoll := (Request.whereEq.inj (congrArg Call.req hq)).1
      exact (List.cons.inj (List.cons.inj hcoll).2).1
    rcases NewGroup.mem_saved.mp hs with hcall | hcall | hcall <;>
      have hpath := (Request.setData.inj (Call.mk.inj hcall).2).1
    · rw [← htype] at hpath
      exact absurd (List.cons.inj (List.cons.inj hpath).2).1 (by decide)
    · exact absurd (List.cons.inj hpath).1 (by decide)
    · exact absurd (List.cons.inj hpath).1 (by decide)

end P0ker.CheckedIds
