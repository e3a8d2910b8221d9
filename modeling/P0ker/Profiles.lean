import P0ker.Composition
import P0ker.Lib.Reservation
import P0ker.Registration.Credentials

/-!
# What becomes of a profile

A profile is written on the answer that names its account, and every account is named once; so
nothing ever writes over a profile, though no page checks. What a search page copies of one into the
list of friends is true for good. `profiles_for_good` says so of the whole app, by what its pages
do.
-/

namespace P0ker.Profiles

open Async Pages Schema
open Login (userPath)
open UserSearch (friendPath)

/-! ## Accounts whose profile is on its way

From the answer that names a new account until its profile is written, the registration holds the
uid: the discipline of `Reservation`, kept because the uid is new. -/

section Held

variable {ι : Type}

def heldCall (m : Message ι (Call Cont) Answer) : Option String :=
  match m.call.req with
  | .setData doc _ => DocStore.childId ["users"] doc
  | _ => none

def heldAnswer (p : Message ι (Call Cont) Answer × Answer) : Option String :=
  match p.1.call.cont, p.2 with
  | .login .createUser, .uid k => some k
  | _, _ => none

/-- The uids held by the registrations in flight. -/
def held (c : PageConfig ι) : Multiset String :=
  c.carried heldCall heldAnswer

/-- The uids that have a profile. -/
def profiles (db : Db) : Set String :=
  {k | DocStore.get db (userPath (some k)) ≠ none}

def reservations (c : PageConfig ι) : Reservation.State String :=
  ⟨profiles c.backend.db, held c⟩

theorem heldCall_eq {m : Message ι (Call Cont) Answer} {k : String} :
    heldCall m = some k ↔ ∃ data, m.call.req = .setData (userPath (some k)) data := by
  obtain ⟨i, ⟨cont, req⟩, cause⟩ := m
  cases req with
  | setData doc data => simp [heldCall, DocStore.childId_eq_some, userPath, interp]
  | whereEq | get | add | currentUser | signIn | createUser => simp [heldCall]

theorem heldAnswer_eq {p : Message ι (Call Cont) Answer × Answer} {k : String} :
    heldAnswer p = some k ↔ p.1.call.cont = .login .createUser ∧ p.2 = .uid k := by
  obtain ⟨m, a⟩ := p
  unfold heldAnswer
  split <;> simp_all

theorem heldAnswer_none {m : Message ι (Call Cont) Answer} {a : Answer} (h : ∀ k, a ≠ .uid k) :
    heldAnswer (m, a) = none :=
  Option.eq_none_iff_forall_ne_some.mpr fun k hk => h k (heldAnswer_eq.mp hk).2

/-- Writing something else than a profile leaves the profiles there are. -/
theorem profiles_setData {db : Db} {p : Path} {d : Doc} (hp : ∀ k, p ≠ userPath (some k)) :
    profiles (DocStore.setData db p d) = profiles db := by
  ext k
  show DocStore.get (DocStore.setData db p d) _ ≠ none ↔ _
  rw [DocStore.get_setData_ne _ _ (hp k).symm]
  rfl

theorem userPath_inj {k k' : String} : userPath (some k) = userPath (some k') ↔ k = k' := by
  simp [userPath, interp]

end Held

/-! ## What the calls look like -/

/-- An account is asked for by the call that is named so, and what is added goes to a group. -/
def Sensible (call : Call Cont) : Prop :=
  (call.cont = .login .createUser → ∃ e p, call.req = .createUser e p) ∧
    ∀ coll data, call.req = .add coll data → ∃ rest, coll = "groups" :: rest

theorem event_creates {page page' : Page} {e : Event} {out : List (Call Cont)}
    (h : onEvent page e = some (page', out)) : ∀ call ∈ out, call.cont ≠ .login .createUser := by
  cases (raised h).2 with
  | login hs =>
      obtain ⟨eff, he, rfl⟩ := Registration.program_onEvent hs
      intro call hc
      obtain ⟨c, hmem, rfl⟩ := mem_lift.mp hc
      have hcont : c.cont = .checkUsername ∨ c.cont = .signIn := by
        rcases Registration.onEvent_calls he with hout | ⟨-, hout⟩ | ⟨-, -, -, hout⟩ <;>
          rw [hout] at hmem
        · cases hmem
        · exact Or.inl (by rw [List.mem_singleton.mp hmem]; rfl)
        · exact Or.inr (by rw [List.mem_singleton.mp hmem])
      rcases hcont with hcont | hcont <;> simp [hcont, ofLogin]
  | gamePage => exact lift_ne (fun _ c => by cases c; simp [ofGamePage]) _
  | newGame => exact lift_ne (fun _ c => by cases c <;> simp [ofNewGame]) _
  | newGroup => exact lift_ne (fun _ c => by cases c <;> simp [ofNewGroup]) _
  | search => exact lift_ne (fun _ c => by cases c <;> simp [ofSearch]) _
  | friends => exact lift_ne (fun _ c => by cases c <;> simp [ofFriends]) _

theorem answer_creates {page page' : Page} {cont : Cont} {a : Answer} {r : Draw}
    {out : List (Call Cont)} (h : onAnswer page cont a r = (page', out)) : ∀ call ∈ out,
      call.cont = .login .createUser → ∃ e p, call.req = .createUser e p := by
  have hcases := answered page cont a r
  rw [h] at hcases
  have hnot : ∀ {out : List (Call Cont)}, (∀ call ∈ out, call.cont ≠ .login .createUser) →
      ∀ call ∈ out, call.cont = .login .createUser → ∃ e p, call.req = .createUser e p :=
    fun hout call hc hcont => absurd hcont (hout call hc)
  cases hcases with
  | login s cont =>
      intro call hc hcont
      obtain ⟨c, hmem, rfl⟩ := mem_lift.mp hc
      have hmem : c ∈ Login.calls (Login.onAnswer s cont a).2 := hmem
      cases cont with
      | checkUsername =>
          rcases Registration.onAnswer_query_calls s a
            with h | ⟨-, -, -, -, h⟩ | ⟨-, -, -, -, h⟩ <;>
            rw [h] at hmem
          · cases hmem
          · obtain rfl := List.mem_singleton.mp hmem
            cases hcont
          · obtain rfl := List.mem_singleton.mp hmem
            exact ⟨_, _, rfl⟩
      | signIn =>
          rw [Registration.onAnswer_signIn_calls] at hmem
          cases hmem
      | saveUserData =>
          rw [Registration.onAnswer_save] at hmem
          cases hmem
      | createUser =>
          rcases Registration.onAnswer_createUser_calls s a
            with ⟨k, -, h⟩ | ⟨-, h⟩ <;> rw [h] at hmem
          · obtain rfl := List.mem_singleton.mp hmem
            cases hcont
          · cases hmem
  | gamePage => exact hnot (lift_ne (fun _ c => by cases c; simp [ofGamePage]) _)
  | newGame => exact hnot (lift_ne (fun _ c => by cases c <;> simp [ofNewGame]) _)
  | newGroup => exact hnot (lift_ne (fun _ c => by cases c <;> simp [ofNewGroup]) _)
  | search => exact hnot (lift_ne (fun _ c => by cases c <;> simp [ofSearch]) _)
  | friends => exact hnot (lift_ne (fun _ c => by cases c <;> simp [ofFriends]) _)
  | idle => exact List.forall_mem_nil _

/-- The writes on an answer set a document. -/
theorem answerWrites_sets {a : Answer} {page page' : Page} {cont : Cont} {r : Request}
    (h : AnswerWrites a page cont page' r) : ∃ doc data, r = .setData doc data := by
  cases h with
  | profile | friend => exact ⟨_, _, rfl⟩
  | game s call hc => rcases NewGame.mem_saveGame.mp hc with rfl | rfl <;> exact ⟨_, _, rfl⟩
  | group s call hc => rcases NewGroup.mem_saved.mp hc with rfl | rfl | rfl <;> exact ⟨_, _, rfl⟩

/-- A profile is written on the answer that names its account. -/
theorem answerWrites_profile {a : Answer} {page page' : Page} {cont : Cont} {k : String} {d : Doc}
    (h : AnswerWrites a page cont page' (.setData (userPath (some k)) d)) :
    cont = .login .createUser ∧ a = .uid k := by
  generalize hr : Request.setData (userPath (some k)) d = r at h
  cases h with
  | profile s k' =>
      obtain ⟨hpath, -⟩ := Request.setData.inj hr
      exact ⟨rfl, by rw [userPath_inj.mp hpath]⟩
  | game s call hc =>
      rcases NewGame.mem_saveGame.mp hc with rfl | rfl <;>
        simp [userPath, NewGame.gamePath, NewGame.gamesPath, NewGame.userGamePath] at hr
  | group s call hc =>
      rcases NewGroup.mem_saved.mp hc with rfl | rfl | rfl <;>
        simp [userPath, NewGroup.groupPath, NewGroup.userGroupPath, NewGroup.creationPath] at hr
  | friend s profile => simp [userPath, UserSearch.add, friendPath] at hr

section Reach

variable {ι : Type} [DecidableEq ι] {B : Backend ι → Prop} {C : PageConfig ι → PageAction ι → Prop}
  {c : PageConfig ι}

theorem sensible (h : (pages ι B).Reach C c) : ∀ m ∈ c.issued, Sensible m.call := by
  refine Reach.issued (K := fun m => Sensible m.call) h ?_ ?_ ?_
  · rintro _ ⟨p, b, -, -, rfl⟩
    exact ⟨InFlightIssued.start _ _ _, List.forall_mem_nil _⟩
  · intro c i e page' out _ _ he call hc
    refine ⟨fun hcont => absurd hcont (event_creates he call hc), ?_⟩
    intro coll data hadd
    obtain ⟨s, -, -, -, rfl⟩ := event_writes he hc (by rw [hadd]; trivial)
    obtain ⟨rfl, -⟩ := Request.add.inj hadd
    exact ⟨_, rfl⟩
  · intro c k m a d page' out _ _ _ _ ha call hc
    refine ⟨answer_creates ha call hc, ?_⟩
    intro coll data hadd
    obtain ⟨doc, data', hset⟩ := answerWrites_sets (answer_writes ha hc (by rw [hadd]; trivial)).1
    rw [hset] at hadd
    cases hadd

/-! ## Every uid in sight has been given out -/

omit [DecidableEq ι] in
theorem uids_insert {b : Backend ι} {email : String} (h : email ∉ b.accounts) (a : Account)
    (session : ι → Option String) :
    Backend.uids ⟨b.db, b.accounts.insert email a, session⟩ = a.uid :: b.uids := by
  rw [Backend.uids, AList.insert_of_notMem h]
  rfl

theorem uids_serve {b b' : Backend ι} {i : ι} {r : Request} {o : Outcome} {a : Answer}
    (h : b.serve i r o = some (b', a)) :
    (∀ k ∈ b.uids, k ∈ b'.uids) ∧ ∀ k, a = .uid k → k ∈ b'.uids := by
  cases Backend.served_of_serve h with
  | rejected | found | got | wrote | added | user => exact ⟨fun _ hk => hk, fun _ ha => by cases ha⟩
  | signedIn _ _ acc hacc =>
      refine ⟨fun _ hk => hk, fun k ha => ?_⟩
      obtain rfl := Answer.uid.inj ha
      exact Credentials.mem_uids hacc
  | created _ _ _ hemail _ =>
      refine ⟨fun k hk => ?_, fun k ha => ?_⟩ <;> rw [uids_insert hemail]
      · exact List.mem_cons_of_mem _ hk
      · obtain rfl := Answer.uid.inj ha
        exact List.mem_cons_self

structure Minted (c : PageConfig ι) : Prop where
  calls : ∀ m ∈ c.calls, ∀ k, heldCall m = some k → k ∈ c.backend.uids
  answers : ∀ p ∈ c.answers, ∀ k, p.2 = .uid k → k ∈ c.backend.uids
  stored : ∀ k ∈ profiles c.backend.db, k ∈ c.backend.uids

omit [DecidableEq ι] in
theorem Minted.held (h : Minted c) {k : String} (hk : k ∈ held c) : k ∈ c.backend.uids := by
  rcases Multiset.mem_add.mp hk with hk | hk
  · obtain ⟨m, hm, hcall⟩ := List.mem_filterMap.mp hk
    exact h.calls m hm k hcall
  · obtain ⟨p, hp, hanswer⟩ := List.mem_filterMap.mp hk
    exact h.answers p hp k (heldAnswer_eq.mp hanswer).2

omit [DecidableEq ι] in
/-- What a write puts under a uid is held. -/
theorem held_of_stores {m : Message ι (Call Cont) Answer} (hp : Sensible m.call) {k : String}
    {d : Doc} (h : m.call.req.Stores (userPath (some k)) d) : heldCall m = some k := by
  obtain ⟨i, ⟨cont, req⟩, cause⟩ := m
  cases req with
  | setData doc data =>
      obtain ⟨rfl, -⟩ := h
      exact heldCall_eq.mpr ⟨data, rfl⟩
  | add coll data =>
      obtain ⟨⟨id, hid⟩, -⟩ := h
      obtain ⟨rest, rfl⟩ := hp.2 coll data rfl
      exact absurd (List.cons.inj hid).1 (by decide)
  | whereEq | get | currentUser | signIn | createUser => exact h.elim

omit [DecidableEq ι] in
/-- Only the answer that names an account makes a page hold a uid. -/
theorem held_of_answer {page page' : Page} {cont : Cont} {a : Answer} {r : Draw}
    {out : List (Call Cont)} (ha : onAnswer page cont a r = (page', out)) {call : Call Cont}
    (hc : call ∈ out) {i : ι} {cause : List (Call Cont × Answer)} {k : String}
    (hk : heldCall ⟨i, call, cause⟩ = some k) : cont = .login .createUser ∧ a = .uid k := by
  obtain ⟨data, hreq⟩ := heldCall_eq.mp hk
  have hreq : call.req = .setData (userPath (some k)) data := hreq
  have hwrites := (answer_writes ha hc (by rw [hreq]; trivial)).1
  rw [hreq] at hwrites
  exact answerWrites_profile hwrites

omit [DecidableEq ι] in
theorem held_of_event {page page' : Page} {e : Event} {out : List (Call Cont)}
    (he : onEvent page e = some (page', out)) {call : Call Cont} (hc : call ∈ out) (i : ι)
    (cause : List (Call Cont × Answer)) : heldCall ⟨i, call, cause⟩ = none := by
  refine Option.eq_none_iff_forall_ne_some.mpr fun k hk => ?_
  obtain ⟨data, hreq⟩ := heldCall_eq.mp hk
  have hreq : call.req = .setData (userPath (some k)) data := hreq
  obtain ⟨s, -, -, -, rfl⟩ := event_writes he hc (by rw [hreq]; trivial)
  cases hreq

theorem minted (h : (fromEmpty ι).Reach C c) : Minted c := by
  refine h.invariant (P := Minted) ?_ ?_
  · rintro _ ⟨p, b, -, hb, rfl⟩
    refine ⟨List.forall_mem_nil _, List.forall_mem_nil _, fun k hk => absurd ?_ hk⟩
    show DocStore.get b.db _ = none
    rw [hb, DocStore.get_empty]
  · intro c a c' hr hq _ hs
    refine step_keeps (Q := Minted) hs ?_ ?_ ?_
    · intro i e page' out _ he
      refine ⟨fun m hm k hk => ?_, hq.answers, hq.stored⟩
      rcases mem_calls_post hm with hm | ⟨call, hc, rfl⟩
      · exact hq.calls m hm k hk
      · rw [held_of_event he hc] at hk
        cases hk
    · intro k o m b r _ hk hserve
      obtain ⟨hgrow, hnamed⟩ := uids_serve hserve
      refine ⟨?_, ?_, ?_⟩
      · exact fun m hm k hheld => hgrow k (hq.calls m (List.mem_of_mem_eraseIdx hm) k hheld)
      · intro p hp k ha
        rcases mem_answers_served hp with hp | rfl
        · exact hgrow k (hq.answers p hp k ha)
        · exact hnamed k ha
      · intro j hj
        rcases Backend.serve_stores hserve (userPath (some j)) with hsame | ⟨-, d, hstores, -⟩
        · refine hgrow j (hq.stored j ?_)
          show DocStore.get c.backend.db _ ≠ none
          rwa [← hsame]
        · have hmem := List.mem_of_getElem? hk
          have hplausible := sensible hr m ((inFlightIssued hr).1 m hmem)
          exact hgrow j (hq.calls m hmem j (held_of_stores hplausible hstores))
    · intro k d m r page' out _ hk ha
      refine ⟨fun m' hm k' hk' => ?_, fun p hp => hq.answers p (List.mem_of_mem_eraseIdx hp),
        hq.stored⟩
      rcases mem_calls_post hm with hm | ⟨call, hc, rfl⟩
      · exact hq.calls m' hm k' hk'
      · exact hq.answers _ (List.mem_of_getElem? hk) k' (held_of_answer ha hc hk').2

/-! ## The reservations -/

theorem steps_serve {k : Nat} {o : Outcome} {m : Message ι (Call Cont) Answer} {b : Backend ι}
    {a : Answer} (hm : Minted c) (hp : Sensible m.call) (hk : c.calls[k]? = some m)
    (hserve : c.backend.serve m.client m.call.req o = some (b, a)) :
    Relation.ReflTransGen Reservation.Step (reservations c) (reservations (c.served k m b a)) := by
  have hcarried := Config.carried_served heldCall heldAnswer c b a hk
  obtain ⟨i, ⟨cont, req⟩, cause⟩ := m
  change c.backend.serve i req o = some (b, a) at hserve
  cases Backend.served_of_serve hserve with
  | rejected | found | got | user =>
      exact Reservation.steps_drop hcarried (heldAnswer_none (by simp))
  | added coll data id _ =>
      obtain ⟨rest, rfl⟩ := hp.2 coll data rfl
      have hprofiles : profiles (DocStore.setData c.backend.db ("groups" :: rest ++ [id]) data) =
          profiles c.backend.db := profiles_setData (by simp [userPath])
      simp only [reservations, Config.served_backend, hprofiles]
      exact Reservation.steps_drop hcarried (heldAnswer_none (by simp))
  | wrote doc data =>
      have hnone :
        heldAnswer ((⟨i, ⟨cont, .setData doc data⟩, cause⟩ : Message ι (Call Cont) Answer),
          Answer.done) = none := heldAnswer_none (by simp)
      cases hheld : heldCall (⟨i, ⟨cont, .setData doc data⟩, cause⟩ :
          Message ι (Call Cont) Answer) with
      | none =>
          have hprofiles : profiles (DocStore.setData c.backend.db doc data) =
              profiles c.backend.db := by
            refine profiles_setData fun j hj => ?_
            rw [heldCall_eq.mpr ⟨data, by rw [hj]⟩] at hheld
            cases hheld
          simp only [reservations, Config.served_backend, hprofiles]
          exact Reservation.steps_drop hcarried hnone
      | some j =>
          obtain ⟨data', hreq⟩ := heldCall_eq.mp hheld
          obtain ⟨rfl, -⟩ := Request.setData.inj hreq
          refine Reservation.steps_commit ?_ hcarried hheld hnone
          intro j' hj'
          by_cases hsame : j' = j
          · exact Or.inl hsame
          · refine Or.inr ?_
            have hne : userPath (some j') ≠ userPath (some j) := fun h => hsame (userPath_inj.mp h)
            show DocStore.get c.backend.db _ ≠ none
            rwa [← DocStore.get_setData_ne c.backend.db data hne]
  | signedIn =>
      refine Reservation.steps_drop hcarried (Option.eq_none_iff_forall_ne_some.mpr fun j hj => ?_)
      -- a call that is named so asks for an account
      obtain ⟨_, _, hreq⟩ := hp.1 (heldAnswer_eq.mp hj).1
      cases hreq
  | created email password uid _ hnew =>
      by_cases hcont : cont = .login .createUser
      · subst hcont
        exact Reservation.steps_check (fun hprofile => hnew (hm.stored uid hprofile))
          (fun hheld => hnew (hm.held hheld)) hcarried rfl rfl
      · refine Reservation.steps_drop hcarried
          (Option.eq_none_iff_forall_ne_some.mpr fun j hj => ?_)
        exact hcont (heldAnswer_eq.mp hj).1

omit [DecidableEq ι] in
/-- An answer hands its uid on, to one call. -/
theorem held_onAnswer (page : Page) (cont : Cont) (a : Answer) (r : Draw) (i : ι)
    (cause : List (Call Cont × Answer)) :
    ((onAnswer page cont a r).2.map (Message.mk i · cause)).filterMap heldCall = [] ∨
      ∃ k, cont = .login .createUser ∧ a = .uid k ∧
        ((onAnswer page cont a r).2.map (Message.mk i · cause)).filterMap heldCall = [k] := by
  by_cases hnamed : ∃ k, cont = .login .createUser ∧ a = .uid k
  · obtain ⟨k, rfl, rfl⟩ := hnamed
    cases page with
    | login s => exact Or.inr ⟨k, rfl, rfl, rfl⟩
    | gamePage | newGame | newGroup | search | friends => exact Or.inl rfl
  · refine Or.inl (List.filterMap_eq_nil_iff.mpr fun m hm => ?_)
    obtain ⟨call, hc, rfl⟩ := List.mem_map.mp hm
    exact Option.eq_none_iff_forall_ne_some.mpr fun k hk =>
      hnamed ⟨k, held_of_answer (Prod.eta _).symm hc hk⟩

theorem steps_deliver {k : Nat} {d : Draw} {m : Message ι (Call Cont) Answer} {a : Answer}
    (hk : c.answers[k]? = some (m, a)) : Relation.ReflTransGen Reservation.Step (reservations c)
      (reservations ((c.taken k).post m.client (onAnswer (c.clients m.client) m.call.cont a d).1
        (onAnswer (c.clients m.client) m.call.cont a d).2 ((m.call, a) :: m.cause))) := by
  have hcarried := Config.carried_deliver heldCall heldAnswer c m.client
    (onAnswer (c.clients m.client) m.call.cont a d).1
    (onAnswer (c.clients m.client) m.call.cont a d).2 ((m.call, a) :: m.cause) hk
  rcases held_onAnswer (c.clients m.client) m.call.cont a d m.client ((m.call, a) :: m.cause) with
    hnone | ⟨j, hcont, rfl, hone⟩
  · rw [hnone] at hcarried
    exact Reservation.steps_drop (r := none) hcarried rfl
  · rw [hone] at hcarried
    exact Reservation.steps_pass (r := some j) hcarried (heldAnswer_eq.mpr ⟨hcont, rfl⟩)

theorem exclusive (h : (fromEmpty ι).Reach C c) :
    Reservation.Exclusive (reservations c) := by
  obtain ⟨_, ⟨p, b, -, -, rfl⟩, hsteps⟩ := h.simulates fun c a c' hr _ hs =>
    step_keeps (Q := fun c' => Relation.ReflTransGen _ (reservations c) (reservations c')) hs
      (fun i e page' out _ he => by
        have hcarried := Config.carried_post heldCall heldAnswer c i page' out []
        have hnone : (out.map (Message.mk i · [])).filterMap heldCall = [] := by
          refine List.filterMap_eq_nil_iff.mpr fun m hm => ?_
          obtain ⟨call, hc, rfl⟩ := List.mem_map.mp hm
          exact held_of_event he hc i []
        rw [hnone] at hcarried
        exact Reservation.steps_pass (o := none) (r := none) ((add_zero _).trans hcarried) rfl)
      (fun k o m b a _ hk hserve =>
        steps_serve (minted hr) (sensible hr m ((inFlightIssued hr).1 m (List.mem_of_getElem? hk)))
          hk hserve)
      (fun k d m a page' out _ hk ha => by
        obtain ⟨rfl, rfl⟩ := Prod.mk.inj ha
        exact steps_deliver hk)
  exact (Reservation.exclusive_of_held_eq_zero rfl).steps hsteps

/-- **Nothing that is on its way writes over a profile.** -/
theorem not_stores_profile (h : (fromEmpty ι).Reach C c)
    {m : Message ι (Call Cont) Answer} (hm : m ∈ c.calls) {k : String}
    (hk : DocStore.get c.backend.db (userPath (some k)) ≠ none) (d : Doc) :
    ¬ m.call.req.Stores (userPath (some k)) d := by
  intro hstores
  have hheld := held_of_stores (sensible h m ((inFlightIssued h).1 m hm)) hstores
  have hmem : k ∈ held c := Multiset.mem_add.mpr (Or.inl (List.mem_filterMap.mpr ⟨m, hm, hheld⟩))
  exact (exclusive h).fresh k hmem hk

/-! ## Copies of a profile -/

/-- What `_add` keeps of a profile that is in the store. -/
def Copy (db : Db) (d : Doc) : Prop :=
  ∃ k profile, DocStore.get db (userPath (some k)) = some profile ∧
    d = [("brukernavn", profile.field "brukernavn"), ("uid", .str k)]

/-- Every profile is what it was. -/
def ProfilesKept (db db' : Db) : Prop :=
  ∀ k profile, DocStore.get db (userPath (some k)) = some profile →
    DocStore.get db' (userPath (some k)) = some profile

theorem Copy.mono {db db' : Db} {d : Doc} (h : Copy db d) (hkept : ProfilesKept db db') :
    Copy db' d := by
  obtain ⟨k, profile, hprofile, hd⟩ := h
  exact ⟨k, profile, hkept k profile hprofile, hd⟩

/-- Every profile that is shown is in the store, and every friend is the copy of one. -/
structure Copies (c : PageConfig ι) : Prop where
  shown : ∀ p ∈ c.answers, ∀ uid profile, p.1.call.req = .get (userPath uid) →
    p.2 = .snapshot (some profile) → DocStore.get c.backend.db (userPath uid) = some profile
  sent : ∀ m ∈ c.issued, ∀ u f d, m.call.req.Stores (friendPath u f) d → Copy c.backend.db d
  stored : ∀ u f d, DocStore.get c.backend.db (friendPath u f) = some d → Copy c.backend.db d

theorem Copies.post {i : ι} {page : Page} {out : List (Call Cont)}
    {cause : List (Call Cont × Answer)} (h : Copies c)
    (hout : ∀ call ∈ out, ∀ u f d, call.req.Stores (friendPath u f) d → Copy c.backend.db d) :
    Copies (c.post i page out cause) where
  shown := h.shown
  sent m hm := by
    rcases mem_issued_post hm with hm | ⟨call, hc, rfl⟩
    · exact h.sent m hm
    · exact hout call hc
  stored := h.stored

/-- The friend that is written on the answer to a `_fetch`. -/
theorem copy_of_answer {a : Answer} {page page' : Page} {cont : Cont} {r : Request} {u f : String}
    {d : Doc} (h : AnswerWrites a page cont page' r) (hstores : r.Stores (friendPath u f) d)
    {db : Db} (hshown : ∀ profile, cont = .search .fetch → a = .snapshot (some profile) →
      ∃ k, DocStore.get db (userPath (some k)) = some profile ∧ profile.field "uid" = .str k ∧
        HasString profile "brukernavn") : Copy db d := by
  cases h with
  | profile s k =>
      obtain ⟨hpath, -⟩ := hstores
      simp [friendPath, userPath] at hpath
  | game s call hc =>
      rcases NewGame.mem_saveGame.mp hc with rfl | rfl <;> obtain ⟨hpath, -⟩ := hstores <;>
        simp [friendPath, NewGame.gamePath, NewGame.gamesPath, NewGame.userGamePath] at hpath
  | group s call hc =>
      rcases NewGroup.mem_saved.mp hc with rfl | rfl | rfl <;> obtain ⟨hpath, -⟩ := hstores <;>
        simp [friendPath, NewGroup.groupPath, NewGroup.userGroupPath,
          NewGroup.creationPath] at hpath
  | friend s profile =>
      obtain ⟨-, rfl⟩ := hstores
      obtain ⟨k, hstored, huid, name, hname⟩ := hshown profile rfl rfl
      refine ⟨k, profile, hstored, ?_⟩
      simp [UserSearch.readProfile, Doc.string, huid, hname, Value.ofString]

theorem profilesKept_serve (h : (fromEmpty ι).Reach C c) {k : Nat} {o : Outcome}
    {m : Message ι (Call Cont) Answer} {b : Backend ι} {a : Answer} (hk : c.calls[k]? = some m)
    (hserve : c.backend.serve m.client m.call.req o = some (b, a)) :
    ProfilesKept c.backend.db b.db := by
  intro j profile hprofile
  rcases Backend.serve_stores hserve (userPath (some j)) with hsame | ⟨-, d, hstores, -⟩
  · rw [hsame, hprofile]
  · refine absurd hstores (not_stores_profile h (List.mem_of_getElem? hk) ?_ d)
    rw [hprofile]
    exact Option.some_ne_none profile

theorem copies (h : (fromEmpty ι).Reach C c) : Copies c := by
  refine h.invariant (P := Copies) ?_ ?_
  · rintro _ ⟨p, b, -, hb, rfl⟩
    refine ⟨List.forall_mem_nil _, List.forall_mem_nil _, fun u f d hd => ?_⟩
    rw [show (Config.start p b []).backend.db = ∅ from hb, DocStore.get_empty] at hd
    cases hd
  · intro c a c' hr hq _ hs
    refine step_keeps (Q := Copies) hs ?_ ?_ ?_
    · intro i e page' out _ he
      refine hq.post fun call hc u f d hstores => ?_
      obtain ⟨s, -, -, -, rfl⟩ := event_writes he hc hstores.writes
      obtain ⟨⟨id, hid⟩, -⟩ := hstores
      exact absurd (List.cons.inj hid).1 (by decide)
    · intro k o m b r _ hk hserve
      have hkept := profilesKept_serve hr hk hserve
      refine ⟨?_, fun m' hm u f d hd => (hq.sent m' hm u f d hd).mono hkept, ?_⟩
      · intro p hp uid profile hreq ha
        rcases mem_answers_served hp with hp | rfl
        · exact hkept (interp uid) profile (hq.shown p hp uid profile hreq ha)
        · have hget : DocStore.get c.backend.db (userPath uid) = some profile := by
            have hserve : c.backend.serve m.client m.call.req o = some (b, r) := hserve
            have hreq : m.call.req = .get (userPath uid) := hreq
            have ha : r = .snapshot (some profile) := ha
            rw [hreq, ha] at hserve
            have hshows : Answer.Shows (fun p d => DocStore.get c.backend.db p = some d)
              (.get (userPath uid)) (.snapshot (some profile)) :=
                Backend.serve_shows hserve fun _ _ hd => hd
            exact hshows
          exact hkept (interp uid) profile hget
      · intro u f d hd
        rcases Backend.serve_stores hserve (friendPath u f) with hsame | ⟨-, d', hstores, hd'⟩
        · exact (hq.stored u f d (hsame ▸ hd)).mono hkept
        · obtain rfl := Option.some.inj (hd'.symm.trans hd)
          have hissued := (inFlightIssued hr).1 m (List.mem_of_getElem? hk)
          exact (hq.sent m hissued u f _ hstores).mono hkept
    · intro k d m r page' out _ hk ha
      have hp := List.mem_of_getElem? hk
      have htaken : Copies (c.taken k) :=
        ⟨fun p hp => hq.shown p (List.mem_of_mem_eraseIdx hp), hq.sent, hq.stored⟩
      refine htaken.post fun call hc u f d hstores => ?_
      refine copy_of_answer (answer_writes ha hc hstores.writes).1 hstores ?_
      rintro profile hcont rfl
      obtain ⟨uid, hreq⟩ := fetch_reads hr m ((inFlightIssued hr).2 _ hp) hcont
      have hstored := hq.shown _ hp uid profile hreq rfl
      obtain ⟨huid, hname⟩ := ((keeps hr).stored _ _ hstored).profile (interp uid) rfl
      exact ⟨interp uid, hstored, huid, hname⟩

end Reach

/-! ## The app -/

section App

open MyApp Navigation P0ker.Composition

variable {ι : Type} [DecidableEq ι] {C : DeviceConfig ι → DeviceAction ι → Prop}
  {c c' : DeviceConfig ι}

/-- The devices, from a backend that holds no document. -/
abbrev devicesFromEmpty (ι : Type) [DecidableEq ι] : Machine (DeviceConfig ι) (DeviceAction ι) :=
  devices ι fun b => b.db = ∅

/-- The pages that do what the devices have done. -/
theorem mirrored_fromEmpty (h : (devicesFromEmpty ι).Reach C c) :
    ∃ c' : PageConfig (Place ι), (fromEmpty (Place ι)).Reachable c' ∧
      c'.backend.db = c.backend.db ∧ c'.calls = c.calls.map messageOf := by
  obtain ⟨c', ⟨s₀, ⟨pages, b', hnew, ⟨b, hb, hstore, -⟩, rfl⟩, hsteps⟩, htraffic, -⟩ :=
    mirrored h (fun _ => (.gamePage {}, none)) ⟨fun _ => rfl, fun _ => rfl⟩
  have hempty : b'.db = ∅ := hstore.trans hb
  exact ⟨c', ⟨_, ⟨pages, b', hnew, hempty, rfl⟩, hsteps⟩, htraffic.db, htraffic.calls⟩

theorem profilesKept_step {a : DeviceAction ι} (h : (devicesFromEmpty ι).Reach C c)
    (hs : (devicesFromEmpty ι).step c a = some c') : ProfilesKept c.backend.db c'.backend.db := by
  refine step_keeps (Q := fun c' : DeviceConfig ι => ProfilesKept c.backend.db c'.backend.db) hs
    (fun _ _ _ _ _ _ _ _ hd => hd) ?_ (fun _ _ _ _ _ _ _ _ _ _ _ hd => hd)
  intro k o m b r _ hk hserve j profile hprofile
  obtain ⟨c'', hc'', hdb, hcalls⟩ := mirrored_fromEmpty h
  have hmem : messageOf m ∈ c''.calls := by
    rw [hcalls]
    exact List.mem_map_of_mem (List.mem_of_getElem? hk)
  rcases Backend.serve_stores hserve (userPath (some j)) with hsame | ⟨-, d, hstores, -⟩
  · exact hsame.trans hprofile
  · refine absurd hstores (not_stores_profile hc'' hmem ?_ d)
    rw [hdb, hprofile]
    exact Option.some_ne_none profile

/-- **Profiles are for good.** In every state of the app that began with an empty store: whatever
happens then, on whichever devices, a profile stays as it is; every friend in a list is the copy of
a profile that is in the store; and every document is what the pages that read it rely on. -/
theorem profiles_for_good (h : (devicesFromEmpty ι).Reachable c) :
    (∀ c', (devicesFromEmpty ι).Steps (fun _ _ => True) c c' → ∀ k profile,
      DocStore.get c.backend.db (userPath (some k)) = some profile →
        DocStore.get c'.backend.db (userPath (some k)) = some profile) ∧
    (∀ u f d, DocStore.get c.backend.db (friendPath u f) = some d →
      ∃ k profile, DocStore.get c.backend.db (userPath (some k)) = some profile ∧
        d = [("brukernavn", profile.field "brukernavn"), ("uid", .str k)]) ∧
    ∀ p d, DocStore.get c.backend.db p = some d →
      Conforms p d ∧ ∀ name, Reads p name → d.field name ≠ .null := by
  refine ⟨?_, ?_⟩
  · intro c' hs k profile hprofile
    have hkept : (devicesFromEmpty ι).Reachable c' ∧
        DocStore.get c'.backend.db (userPath (some k)) = some profile := by
      refine hs.preserves (P := fun c' : DeviceConfig ι => (devicesFromEmpty ι).Reachable c' ∧
        DocStore.get c'.backend.db (userPath (some k)) = some profile) ⟨h, hprofile⟩ ?_
      rintro c a c' ⟨hr, hd⟩ - hstep
      exact ⟨hr.step trivial hstep, profilesKept_step hr hstep k profile hd⟩
    exact hkept.2
  · obtain ⟨c', hc', hdb, -⟩ := mirrored_fromEmpty h
    rw [← hdb]
    refine ⟨(copies hc').stored, fun p d hd => ?_⟩
    have hconforms := (keeps hc').stored p d hd
    exact ⟨hconforms, fun _ hr => hconforms.read hr⟩

/-- One device, on which nobody is signed in. -/
def newDevice : DeviceConfig Unit :=
  Config.start (fun _ => {}) (Backend.empty Unit) []

/-- Ola registers, is shown the home page, looks himself up and befriends himself. -/
def befriend : List (DeviceAction Unit) :=
  [.event () .launch] ++ Navigation.home ++ [.event () (.page (.login .moveToRegister)),
    .event () (.page (.login (.editUsername "Ola"))), .event () (.page (.login (.editEmail "o@p"))),
    .event () (.page (.login (.editPassword "x"))), .event () (.page (.login .pressRegister))] ++
    Navigation.home ++ [.serve 0 (.accept "u1"), .deliver 0 0] ++ Navigation.home ++
    [.event () .build, .event () (.onTap 2)] ++ Navigation.home ++
    [.event () (.page (.search .beginSearch)), .event () (.page (.search (.onSubmitted "Ola"))),
      .event () (.page (.search .build)),
      .event () (.page (.search (.snapshot (some [olaProfile])))),
      .event () (.page (.search (.tapAdd olaProfile)))] ++ Navigation.home ++ Navigation.home

/-- The profile and the friend are there, and are for good. -/
theorem profiles_for_good_ola : ∃ c : DeviceConfig Unit,
    (devicesFromEmpty Unit).run newDevice befriend = some c ∧
    c.backend.db.keys = [friendPath "u1" "u1", userPath (some "u1")] ∧
    (∀ c', (devicesFromEmpty Unit).Steps (fun _ _ => True) c c' → ∀ k profile,
      DocStore.get c.backend.db (userPath (some k)) = some profile →
        DocStore.get c'.backend.db (userPath (some k)) = some profile) ∧
    (∀ u f d, DocStore.get c.backend.db (friendPath u f) = some d →
      ∃ k profile, DocStore.get c.backend.db (userPath (some k)) = some profile ∧
        d = [("brukernavn", profile.field "brukernavn"), ("uid", .str k)]) ∧
    ∀ p d, DocStore.get c.backend.db p = some d →
      Conforms p d ∧ ∀ name, Reads p name → d.field name ≠ .null := by
  have hrun : ((devicesFromEmpty Unit).run newDevice befriend).map (fun c => c.backend.db.keys) =
      some [friendPath "u1" "u1", userPath (some "u1")] := by
    decide +kernel
  obtain ⟨c, hc, hkeys⟩ := Option.map_eq_some_iff.mp hrun
  exact ⟨c, hc, hkeys, profiles_for_good (Machine.Reach.of_follow ⟨_, rfl, rfl⟩ hc)⟩

end App

end P0ker.Profiles
