import P0ker.Lib.Reservation
import P0ker.Registration.Basic

/-!
# Are usernames unique?

`checkUsername` asks whether a name is taken and, two answers later, `saveUserData` writes it. That
is a check followed by a claim (`Lib.Reservation`): the name is *held* by the messages between the
two, and nothing keeps a second form from checking it meanwhile, nor the form itself from writing a
name other than the one it asked about.

`uniqueNames_of_undisturbed` is what the check does give: as long as no held name is found free a
second time, and each form still has the name it asked about when its account is created, names
stay unique in every run. `not_uniqueNames` is the run of two forms that shows why the condition is
needed.
-/

namespace P0ker.Registration

open Async Login

variable {ι : Type} [DecidableEq ι]

/-! ## Names in the store -/

/-- The names of the stored profiles. -/
def names (db : Db) : Set String :=
  {n | ∃ id d, DocStore.get db (usersPath ++ [id]) = some d ∧ d.field "brukernavn" = .str n}

/-- No two documents `users/a` and `users/b` have the same `brukernavn`. -/
def UniqueNames (db : Db) : Prop :=
  ∀ a b da db', DocStore.get db (usersPath ++ [a]) = some da →
    DocStore.get db (usersPath ++ [b]) = some db' →
    da.field "brukernavn" = db'.field "brukernavn" → a = b

theorem usersPath_append_inj {a b : String} : usersPath ++ [a] = usersPath ++ [b] ↔ a = b := by
  simp

/-- A query that finds nothing means the name is not taken. -/
theorem not_mem_names {db : Db} {n : String}
    (h : db.whereEq usersPath "brukernavn" (.str n) = []) : n ∉ names db := by
  rintro ⟨id, d, hd, hn⟩
  exact Db.whereEq_eq_nil.mp h id d hd hn

theorem names_setData_subset {db : Db} {k n : String} {d : Doc}
    (hd : d.field "brukernavn" = .str n) :
    names (DocStore.setData db (usersPath ++ [k]) d) ⊆ insert n (names db) := by
  rintro n' ⟨id, d', hget, hn'⟩
  rw [DocStore.get_setData_eq] at hget
  split at hget
  · obtain rfl := Option.some.inj hget
    rw [hd] at hn'
    exact Or.inl (Value.str.inj hn').symm
  · exact Or.inr ⟨id, d', hget, hn'⟩

/-- Writing a profile whose name is not taken keeps names unique. -/
theorem UniqueNames.setData {db : Db} (h : UniqueNames db) {k n : String} {d : Doc}
    (hd : d.field "brukernavn" = .str n) (hn : n ∉ names db) :
    UniqueNames (DocStore.setData db (usersPath ++ [k]) d) := by
  intro a b da db' ha hb heq
  rw [DocStore.get_setData_eq] at ha hb
  split at ha <;> split at hb
  · next hak hbk => exact usersPath_append_inj.mp (hak.trans hbk.symm)
  · obtain rfl := Option.some.inj ha
    exact absurd ⟨b, db', hb, heq ▸ hd⟩ hn
  · obtain rfl := Option.some.inj hb
    exact absurd ⟨a, da, ha, heq.trans hd⟩ hn
  · exact h a b da db' ha hb heq

/-! ## Held names

From the moment a query found its name free until its profile is written, the registration holds
the name it asked about. -/

def heldCall (m : LoginMessage ι) : Option String :=
  match m.call.cont with
  | .createUser => asked m.cause
  | .saveUserData => asked m.cause.tail
  | _ => none

def heldAnswer (p : LoginMessage ι × Answer) : Option String :=
  match p.1.call.cont, p.2 with
  | .checkUsername, a => asked [(p.1.call, a)]
  | .createUser, .uid _ => asked p.1.cause
  | _, _ => none

/-- The names held by the registrations in flight. -/
def held (c : LoginConfig ι) : Multiset String :=
  c.carried heldCall heldAnswer

/-- The reservation protocol the system is an instance of. -/
def reservations (c : LoginConfig ι) : Reservation.State String :=
  ⟨names c.backend.db, held c⟩

/-- The name a call asks about, if it is the availability query. -/
def queried (m : LoginMessage ι) : Option String :=
  match m.call with
  | ⟨.checkUsername, .whereEq _ _ (.str n)⟩ => some n
  | _ => none

/-- A step does not disturb a registration in flight: a query that would find its name free is not
evaluated while the name is held; and a new account's form still has, as its `_username`, the name
its query asked about. -/
def Undisturbed (c : LoginConfig ι) : LoginAction ι → Prop
  | .event _ _ => True
  | .serve k _ => ∀ m ∈ c.calls[k]?, ∀ n ∈ queried m,
      c.backend.db.whereEq usersPath "brukernavn" (.str n) = [] → n ∉ held c
  | .deliver k _ => ∀ p ∈ c.answers[k]?, p.1.call.cont = .createUser → ∀ _uid ∈ p.2.uid?,
      (c.clients p.1.client).username = asked p.1.cause

instance (c : LoginConfig ι) : ∀ a, Decidable (Undisturbed c a)
  | .event _ _ => .isTrue trivial
  | .serve _ _ => by unfold Undisturbed; infer_instance
  | .deliver _ _ => by unfold Undisturbed; infer_instance

/-! ## One step -/

omit [DecidableEq ι] in
theorem filterMap_heldCall_event {s s' : LoginState} {e : Event} {out : List Effect}
    (h : onEvent s e = some (s', out)) (i : ι) :
    ((calls out).map (Message.mk i · [])).filterMap heldCall = [] := by
  rcases onEvent_calls h with h | ⟨-, h⟩ | ⟨-, -, -, h⟩ <;> rw [h] <;> rfl

omit [DecidableEq ι] in
theorem heldAnswer_query (i : ι) (n : String) (cause : List (Call Cont × Answer))
    (ds : List (String × Doc)) : heldAnswer (Message.mk i (usernameQuery n) cause, .documents ds)
      = if ds = [] then some n else none := by
  cases ds <;> rfl

theorem simulates_serve {c : LoginConfig ι} {k : Nat} {o : Outcome} {m : LoginMessage ι}
    {b : Backend ι} {a : Answer} (hsent : Sent m.call m.cause) (hu : Undisturbed c (.serve k o))
    (hk : c.calls[k]? = some m) (hserve : c.backend.serve m.client m.call.req o = some (b, a))
    (hsave : ∀ k e u, m.call = saveCall k e u → u = asked m.cause.tail) :
    Relation.ReflTransGen Reservation.Step (reservations c)
      (reservations (c.served k m b a)) := by
  have hcarried := Config.carried_served heldCall heldAnswer c b a hk
  obtain ⟨i, call, cause⟩ := m
  rcases hsent.inv with ⟨n, rfl, rfl⟩ | ⟨e, p, rfl⟩ | ⟨e, p, n, rfl, rfl⟩ |
    ⟨uid, e, p, n, email, username, rfl, rfl⟩
  · -- a query: the name becomes held if it is found free
    obtain ⟨rfl, rfl | ⟨e, rfl⟩⟩ := Backend.serve_whereEq hserve
    · rw [heldAnswer_query] at hcarried
      by_cases hfree : c.backend.db.whereEq usersPath "brukernavn" (.str n) = []
      · exact Reservation.steps_check (not_mem_names hfree) (hu _ hk n rfl hfree) hcarried rfl
          (if_pos hfree)
      · exact Reservation.steps_drop hcarried (if_neg hfree)
    · exact Reservation.steps_drop hcarried rfl
  · -- a `signIn` holds nothing
    have hdb : b.db = c.backend.db := Backend.serve_db id hserve
    simp only [reservations, Config.served_backend, hdb]
    exact Reservation.steps_drop hcarried (by cases a <;> rfl)
  · -- a `createUser` keeps its name held, or drops it when it is rejected
    have hdb : b.db = c.backend.db := Backend.serve_db id hserve
    simp only [reservations, Config.served_backend, hdb]
    rcases Backend.serve_createUser hserve with ⟨uid, rfl⟩ | ⟨err, rfl⟩
    · exact Reservation.steps_pass hcarried rfl
    · exact Reservation.steps_drop hcarried rfl
  · -- a profile: its name is taken from now on
    obtain rfl : username = some n := hsave uid email username rfl
    rcases Backend.serve_setData hserve with ⟨rfl, rfl⟩ | ⟨rfl, err, rfl⟩
    · exact Reservation.steps_commit (names_setData_subset rfl) hcarried rfl rfl
    · exact Reservation.steps_drop hcarried rfl

theorem simulates_deliver {c : LoginConfig ι} {k : Nat} {m : LoginMessage ι} {a : Answer}
    (hsent : Sent m.call m.cause) (hk : c.answers[k]? = some (m, a)) :
    Relation.ReflTransGen Reservation.Step (reservations c)
      (reservations ((c.taken k).post m.client (onAnswer (c.clients m.client) m.call.cont a).1
        (calls (onAnswer (c.clients m.client) m.call.cont a).2) ((m.call, a) :: m.cause))) := by
  have hcarried := Config.carried_deliver heldCall heldAnswer c m.client
    (onAnswer (c.clients m.client) m.call.cont a).1
    (calls (onAnswer (c.clients m.client) m.call.cont a).2) ((m.call, a) :: m.cause) hk
  obtain ⟨i, call, cause⟩ := m
  -- the name goes from the answer to the new call, or is dropped
  rcases hsent.inv with ⟨n, rfl, rfl⟩ | ⟨e, p, rfl⟩ | ⟨e, p, n, rfl, rfl⟩ |
    ⟨uid, e, p, n, email, username, rfl, rfl⟩
  · rw [usernameQuery_cont] at *
    rcases onAnswer_query_calls (c.clients i) a with h | ⟨-, -, -, -, h⟩ | ⟨rfl, -, -, -, h⟩ <;>
      rw [h] at hcarried ⊢
    · exact Reservation.steps_drop (r := none) hcarried rfl
    · exact Reservation.steps_drop (r := none) hcarried rfl
    · exact Reservation.steps_pass (r := some n) hcarried rfl
  · rw [onAnswer_signIn_calls] at hcarried ⊢
    exact Reservation.steps_drop (r := none) hcarried rfl
  · rcases onAnswer_createUser_calls (c.clients i) a with ⟨uid, rfl, h⟩ | ⟨-, h⟩ <;>
      rw [h] at hcarried ⊢
    · exact Reservation.steps_pass (r := some n) hcarried rfl
    · exact Reservation.steps_drop (r := none) hcarried rfl
  · rw [saveCall_cont, onAnswer_save] at hcarried ⊢
    exact Reservation.steps_drop (r := none) hcarried rfl

/-! ## Every run -/

/-- A profile that is written has the name its registration asked about. -/
def SavesAsked (c : LoginConfig ι) : Prop :=
  ∀ m ∈ c.issued, ∀ k e u, m.call = saveCall k e u → u = asked m.cause.tail

theorem not_saveCall_of_event {s s' : LoginState} {e : Event} {out : List Effect}
    (h : onEvent s e = some (s', out)) {call : Call Cont} (hc : call ∈ calls out) :
    call.cont ≠ .saveUserData := by
  rcases onEvent_calls h with h | ⟨-, h⟩ | ⟨-, -, -, h⟩ <;> rw [h] at hc
  · cases hc
  · rw [List.mem_singleton.mp hc]
    nofun
  · rw [List.mem_singleton.mp hc]
    nofun

/-- Only the answer to a `createUser` writes a profile, with the `_username` of the form. -/
theorem saveCall_of_answer {s : LoginState} {cont : Cont} {a : Answer} {k : String}
    {em u : Option String} (h : saveCall k em u ∈ calls (onAnswer s cont a).2) :
    ∃ uid, a = .uid uid ∧ cont = .createUser ∧ u = s.username := by
  cases cont with
  | checkUsername =>
      rcases onAnswer_query_calls s a with h' | ⟨-, -, -, -, h'⟩ | ⟨-, -, -, -, h'⟩ <;> rw [h'] at h
      · cases h
      · cases List.mem_singleton.mp h
      · cases List.mem_singleton.mp h
  | signIn =>
      rw [onAnswer_signIn_calls] at h
      cases h
  | createUser =>
      rcases onAnswer_createUser_calls s a with ⟨uid, rfl, h'⟩ | ⟨-, h'⟩ <;> rw [h'] at h
      · exact ⟨uid, rfl, rfl, (saveCall_inj.mp (List.mem_singleton.mp h)).2.2⟩
      · cases h
  | saveUserData =>
      rw [onAnswer_save] at h
      cases h

section Run

variable {B : Backend ι → Prop} {c : LoginConfig ι}

theorem savesAsked (h : (loginSystem ι B).Reach Undisturbed c) : SavesAsked c := by
  refine Reach.issued (K := fun m => ∀ k e u, m.call = saveCall k e u → u = asked m.cause.tail)
    h ?_ ?_ ?_
  · rintro _ ⟨b, -, rfl⟩
    exact ⟨InFlightIssued.start _ _ _, List.forall_mem_nil _⟩
  · intro c i e s out _ _ he call hc k em u hsave
    obtain ⟨eff, heff, rfl⟩ := program_onEvent he
    exact absurd (congrArg Call.cont hsave) (not_saveCall_of_event heff hc)
  · intro c k m a d s out _ hC hk _ ha call hc k' em u hsave
    obtain ⟨-, rfl⟩ := program_onAnswer ha
    obtain rfl : call = saveCall k' em u := hsave
    obtain ⟨uid, rfl, hcont, hu⟩ := saveCall_of_answer hc
    exact hu.trans (hC _ hk hcont uid rfl)

theorem exclusive_reservations (h : (loginSystem ι B).Reach Undisturbed c) :
    Reservation.Exclusive (reservations c) := by
  obtain ⟨_, ⟨b, -, rfl⟩, hsteps⟩ := h.simulates fun c a c' hr hC hs =>
    step_keeps (Q := fun c' => Relation.ReflTransGen _ (reservations c) (reservations c')) hs
      (fun i e s out _ he => by
        obtain ⟨eff, heff, rfl⟩ := program_onEvent he
        have hcarried := Config.carried_post heldCall heldAnswer c i s (calls eff) []
        rw [filterMap_heldCall_event heff] at hcarried
        exact Reservation.steps_pass (o := none) (r := none) ((add_zero _).trans hcarried) rfl)
      (fun k o m b a hact hk hserve => by
        subst hact
        exact simulates_serve (sent_of_call hr hk) hC hk hserve
          (savesAsked hr m ((inFlightIssued hr).1 m (List.mem_of_getElem? hk))))
      (fun k d m a s out _ hk ha => by
        obtain ⟨rfl, rfl⟩ := program_onAnswer ha
        exact simulates_deliver (sent_of_outstanding hr hk) hk)
  exact (Reservation.exclusive_of_held_eq_zero rfl).steps hsteps

/-- In every run whose steps do not disturb a registration in flight, no two profiles ever have
the same name. -/
theorem uniqueNames_of_undisturbed
    (h : (loginSystem ι fun b => UniqueNames b.db).Reach Undisturbed c) :
    UniqueNames c.backend.db := by
  refine h.invariant (P := fun c => UniqueNames c.backend.db) ?_ ?_
  · rintro _ ⟨b, hb, rfl⟩
    exact hb
  · intro c a c' hr hq hC hs
    refine step_keeps (Q := fun c => UniqueNames c.backend.db) hs (fun _ _ _ _ _ _ => hq) ?_
      (fun _ _ _ _ _ _ _ _ _ => hq)
    rintro k o ⟨i, call, cause⟩ b r - hk hserve
    rcases (sent_of_call hr hk).inv with ⟨n, rfl, rfl⟩ | ⟨e, p, rfl⟩ | ⟨e, p, n, rfl, rfl⟩ |
      ⟨uid, e, p, n, email, username, rfl, rfl⟩
    · exact (Backend.serve_db id hserve) ▸ hq
    · exact (Backend.serve_db id hserve) ▸ hq
    · exact (Backend.serve_db id hserve) ▸ hq
    · have hmem := List.mem_of_getElem? hk
      obtain rfl : username = some n :=
        savesAsked hr _ ((inFlightIssued hr).1 _ hmem) uid email username rfl
      have hheld : n ∈ held c :=
        Multiset.mem_add.mpr (Or.inl (List.mem_filterMap.mpr ⟨_, hmem, rfl⟩))
      rcases Backend.serve_setData hserve with ⟨rfl, -⟩ | ⟨rfl, -⟩
      · exact hq.setData rfl ((exclusive_reservations hr).fresh n hheld)
      · exact hq

end Run

/-! ## One at a time, and two at once -/

omit [DecidableEq ι] in
theorem uniqueNames_empty : UniqueNames (Backend.empty ι).db := by
  intro a b da db' ha
  rw [Backend.empty, DocStore.get_empty] at ha
  cases ha

/-- Press 'Create an account' and run the registration to its end. -/
def registerAlone (i : ι) (uid : String) : List (LoginAction ι) :=
  [.event i .pressRegister, .serve 0 (.accept ""), .deliver 0 (), .serve 0 (.accept uid),
    .deliver 0 (), .serve 0 (.accept ""), .deliver 0 ()]

/-- The names of the profiles of two users. -/
def namesOf (a b : String) (c : LoginConfig ι) : Option Value × Option Value :=
  ((DocStore.get c.backend.db (usersPath ++ [a])).map (Doc.field · "brukernavn"),
    (DocStore.get c.backend.db (usersPath ++ [b])).map (Doc.field · "brukernavn"))

/-- Two forms that register one after the other. -/
theorem uniqueNames_of_undisturbed_two : ∃ c : LoginConfig Bool,
    (loginSystem Bool fun b => UniqueNames b.db).follow Undisturbed (start (Backend.empty Bool))
      (fillForm false "Ola" "o@p" "x" ++ registerAlone false "u1" ++
        fillForm true "Kai" "k@p" "x" ++ registerAlone true "u2") = some c ∧
    namesOf "u1" "u2" c = (some (.str "ola"), some (.str "kai")) ∧ UniqueNames c.backend.db := by
  have hrun : ((loginSystem Bool fun b => UniqueNames b.db).follow Undisturbed
      (start (Backend.empty Bool)) (fillForm false "Ola" "o@p" "x" ++ registerAlone false "u1" ++
        fillForm true "Kai" "k@p" "x" ++ registerAlone true "u2")).map (namesOf "u1" "u2")
      = some (some (.str "ola"), some (.str "kai")) := by
    decide +kernel
  obtain ⟨c, hc, hnames⟩ := Option.map_eq_some_iff.mp hrun
  exact ⟨c, hc, hnames, uniqueNames_of_undisturbed
    (Machine.Reach.of_follow ⟨_, uniqueNames_empty, rfl⟩ hc)⟩

/-- Two forms in register mode ask for the same name; both queries are answered before either
account exists, so both find it free, and both profiles are written with it. -/
theorem not_uniqueNames : ¬ ∀ c : LoginConfig Bool,
    (loginSystem Bool fun b => UniqueNames b.db).Reachable c → UniqueNames c.backend.db := by
  intro h
  have hrun : ((loginSystem Bool fun b => UniqueNames b.db).run (start (Backend.empty Bool))
      (fillForm false "ola" "o@p" "x" ++ fillForm true "ola" "k@p" "x" ++
        ([.event false .pressRegister, .event true .pressRegister,
          .serve 0 (.accept ""), .serve 0 (.accept ""), .deliver 0 (), .deliver 0 (),
          .serve 0 (.accept "u1"), .serve 0 (.accept "u2"), .deliver 0 (), .deliver 0 (),
          .serve 0 (.accept ""), .serve 0 (.accept "")] :
            List (LoginAction Bool)))).map (namesOf "u1" "u2")
      = some (some (.str "ola"), some (.str "ola")) := by
    decide +kernel
  obtain ⟨c, hc, hnames⟩ := Option.map_eq_some_iff.mp hrun
  obtain ⟨h₁, h₂⟩ := Prod.mk.inj hnames
  obtain ⟨d₁, hd₁, hn₁⟩ := Option.map_eq_some_iff.mp h₁
  obtain ⟨d₂, hd₂, hn₂⟩ := Option.map_eq_some_iff.mp h₂
  have heq := h c (Machine.Reach.of_follow ⟨_, uniqueNames_empty, rfl⟩ hc) "u1" "u2" d₁ d₂ hd₁ hd₂
    (hn₁.trans hn₂.symm)
  exact absurd heq (by decide)

end P0ker.Registration
