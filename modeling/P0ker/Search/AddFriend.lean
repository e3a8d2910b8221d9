import P0ker.Writes
import P0ker.Pages.UserSearch

/-!
# Adding friends: is the friend that is written the one that was read?

Any number of search pages over one backend, each with its user resolved. A tap reads a profile; the
answer writes a friend, with the fields of the profile it carries, at the path of the row that was
tapped *last*. Two taps in a row and the first answer is filed under the second friend.

`exact_of_inTime` says that this is all that can go wrong: as long as every answer that has found a
profile is handled while the page still searches for that profile, every friend is exactly the
profile it is named after, and no tapped profile is lost.
-/

namespace P0ker.Search

open Async UserSearch
open Login (userPath)

variable {ι : Type} [DecidableEq ι]

abbrev SearchMessage (ι : Type) := Message ι (Call Cont) Answer

abbrev SearchConfig (ι : Type) := Config ι DisplaySearchState (Backend ι) (Call Cont) Answer

abbrev SearchAction (ι : Type) := Action ι Event Unit Outcome

/-- Every profile `users/f` says in its `uid` that it is `f`. -/
def ProfilesKeyed (db : Db) : Prop :=
  ∀ f d, DocStore.get db (userPath (some f)) = some d → d.field "uid" = .str f

/-- Opened pages, each with its user resolved, over a backend `b`; nothing in flight. -/
def start (b : Backend ι) (user : ι → String) : SearchConfig ι :=
  Config.start (fun i => { mCurrentUser := some (user i), opened := true }) b []

def searchSystem (ι : Type) [DecidableEq ι] : Machine (SearchConfig ι) (SearchAction ι) :=
  Async.system program (firebase ι Cont) fun c => ∃ b user, ProfilesKeyed b.db ∧ c = start b user

/-- The read of the profile `f`. -/
def fetches (f : String) : Call Cont := ⟨.fetch, .get (userPath (some f))⟩

/-- The friend `f`, as it is read from the profile. -/
def friendDoc (f : String) (profile : Doc) : Doc :=
  [("brukernavn", .ofString (profile.string "brukernavn")), ("uid", .str f)]

/-- The write of the friend `f` of the user `u`. -/
def adds (u f : String) (profile : Doc) : Call Cont :=
  ⟨.added, .setData (friendPath u f) (friendDoc f profile)⟩

/-- The answer has found a profile. -/
def found : Answer → Bool
  | .snapshot (some _) => true
  | _ => false

/-- Every tapped row has a uid, and the service follows the choice. -/
def Tapped (rej : Rejected ι Cont) (c : SearchConfig ι) : SearchAction ι → Prop
  | .event _ (.tapAdd document) => (document.string "uid").isSome
  | .event _ _ => True
  | .serve k o => ∀ m ∈ c.calls[k]?, o.rejected = rej m
  | .deliver _ _ => True

/-- Moreover, an answer that has found a profile is handled while the page is on the screen and the
row tapped last is that of this profile. -/
def InTime (rej : Rejected ι Cont) (c : SearchConfig ι) (a : SearchAction ι) : Prop :=
  Tapped rej c a ∧ match a with
    | .deliver k _ => ∀ p ∈ c.answers[k]?, found p.2 →
        (c.clients p.1.client).mounted ∧ p.1.call = fetch (c.clients p.1.client)
    | _ => True

/-- Every tapped row has a uid, the service follows the choice, and on a page that handles a profile
it has read the row tapped last is that of this profile. -/
def OnRow (rej : Rejected ι Cont) (c : SearchConfig ι) (a : SearchAction ι) : Prop :=
  Tapped rej c a ∧ match a with
    | .deliver k _ => ∀ p ∈ c.answers[k]?, p.1.call.cont = .fetch → found p.2 →
        p.1.call = fetch (c.clients p.1.client)
    | _ => True

instance (rej : Rejected ι Cont) (c : SearchConfig ι) :
    ∀ a : SearchAction ι, Decidable (Tapped rej c a)
  | .event _ (.tapAdd _) => by unfold Tapped; infer_instance
  | .event _ .initState | .event _ .beginSearch | .event _ .back | .event _ (.onSubmitted _)
  | .event _ .build | .event _ (.snapshot _) | .event _ .dispose => .isTrue trivial
  | .serve _ _ => by unfold Tapped; infer_instance
  | .deliver _ _ => .isTrue trivial

instance (rej : Rejected ι Cont) (c : SearchConfig ι) (a : SearchAction ι) :
    Decidable (InTime rej c a) := by
  unfold InTime
  cases a <;> infer_instance

omit [DecidableEq ι] in
theorem Tapped.chosen {rej : Rejected ι Cont} {c : SearchConfig ι} {a : SearchAction ι}
    (h : Tapped rej c a) : Chosen rej c a := by
  cases a with
  | event => trivial
  | serve => exact h
  | deliver => trivial

omit [DecidableEq ι] in
theorem InTime.onRow {rej : Rejected ι Cont} {c : SearchConfig ι} {a : SearchAction ι}
    (h : InTime rej c a) : OnRow rej c a := by
  refine ⟨h.1, ?_⟩
  cases a with
  | event | serve => trivial
  | deliver => exact fun p hp _ hfound => (h.2 p hp hfound).2

/-! ## What is in flight -/

/-- A call of a page: the read of a profile, or the write of a profile that exists as a friend of
the page's user. -/
def Sent (b : Backend ι) (user : ι → String) (m : SearchMessage ι) : Prop :=
  (∃ f, m.call = fetches f) ∨
    ∃ f profile, DocStore.get b.db (userPath (some f)) = some profile ∧
      m.call = adds (user m.client) f profile

/-- The write that the answer to a read leads to has been issued, if the profile exists. -/
def Added (rej : Rejected ι Cont) (b : Backend ι) (user : ι → String) (c : SearchConfig ι)
    (m : SearchMessage ι) : Prop :=
  ∀ f profile, m.call = fetches f → rej m = false →
    DocStore.get b.db (userPath (some f)) = some profile →
    ∃ w ∈ c.issued, w.client = m.client ∧ w.call = adds (user m.client) f profile

/-- A read was rejected, or its answer is the profile there was at the start. -/
def Answered (rej : Rejected ι Cont) (b : Backend ι) (c : SearchConfig ι) : Prop :=
  ∀ m a, (m, a) ∈ c.answers → ∀ f, m.call = fetches f →
    (rej m = true ∧ ∃ e, a = .failed e) ∨
      (rej m = false ∧ a = .snapshot (DocStore.get b.db (userPath (some f))))

/-- What holds in every state of a run from `start b user`, whether or not profiles get lost. -/
structure Core (rej : Rejected ι Cont) (b : Backend ι) (user : ι → String) (c : SearchConfig ι) :
    Prop where
  progress : Progress rej (start b user) c
  resolved : ∀ i, (c.clients i).opened = true ∧ (c.clients i).mCurrentUser = some (user i)
  sent : ∀ m ∈ c.issued, Sent b user m
  flight : InFlightIssued c
  answered : Answered rej b c

/-- What holds in every state of a run from `start b user`. -/
structure Inv (rej : Rejected ι Cont) (b : Backend ι) (user : ι → String) (c : SearchConfig ι) :
    Prop where
  progress : Progress rej (start b user) c
  resolved : ∀ i, (c.clients i).opened = true ∧ (c.clients i).mCurrentUser = some (user i)
  sent : ∀ m ∈ c.issued, Sent b user m
  flight : InFlightIssued c
  answered : Answered rej b c
  accounted : Accounted (Added rej b user) c

section Inv

variable {rej : Rejected ι Cont} {b : Backend ι} {user : ι → String} {c c' : SearchConfig ι}

omit [DecidableEq ι] in
theorem mem_since {m : SearchMessage ι} : m ∈ since (start b user) c ↔ m ∈ c.issued := by
  rfl

/-- A friend's path is not a profile's. -/
theorem friendPath_ne_userPath (u f g : String) : friendPath u f ≠ userPath (some g) := by
  intro h
  cases congrArg List.length h

theorem friendPath_inj {u v f g : String} (h : friendPath u f = friendPath v g) :
    u = v ∧ f = g := by
  simpa [friendPath] using h

omit [DecidableEq ι] in
/-- The only documents the pages store are friends. -/
theorem Sent.stores {m : SearchMessage ι} {p : Path} {d : Doc} (h : Sent b user m)
    (hd : m.call.req.Stores p d) : ∃ f profile, p = friendPath (user m.client) f ∧
      d = friendDoc f profile ∧ DocStore.get b.db (userPath (some f)) = some profile := by
  rcases h with ⟨f, hf⟩ | ⟨f, profile, hprofile, hf⟩
  · rw [hf] at hd
    cases hd
  · rw [hf] at hd
    exact ⟨f, profile, hd.1, hd.2, hprofile⟩

omit [DecidableEq ι] in
/-- No page touches a profile. -/
theorem Core.profile (h : Core rej b user c) (f : String) :
    DocStore.get c.backend.db (userPath (some f)) = DocStore.get b.db (userPath (some f)) := by
  refine h.progress.get_untouched ?_
  intro m hm d hd
  obtain ⟨g, profile, hp, -⟩ := (h.sent m hm).stores hd
  exact friendPath_ne_userPath _ _ _ hp.symm

omit [DecidableEq ι] in
theorem Core.of_start (hq : (start b user).Quiet) : Core rej b user (start b user) := by
  refine ⟨Progress.start hq, fun i => ⟨rfl, rfl⟩, List.forall_mem_nil _,
    InFlightIssued.start _ _ _, fun _ _ hm => absurd hm List.not_mem_nil⟩

omit [DecidableEq ι] in
theorem Inv.core (h : Inv rej b user c) : Core rej b user c :=
  ⟨h.progress, h.resolved, h.sent, h.flight, h.answered⟩

omit [DecidableEq ι] in
theorem Core.inv (h : Core rej b user c) (ha : Accounted (Added rej b user) c) :
    Inv rej b user c :=
  ⟨h.progress, h.resolved, h.sent, h.flight, h.answered, ha⟩

/-- The answer that carries a profile, handled in time, writes that profile as a friend. -/
theorem add_inTime {s : DisplaySearchState} {u f : String} {profile : Doc}
    (huser : s.mCurrentUser = some u) (hsearched : fetches f = fetch s)
    (huid : profile.field "uid" = .str f) : add (readProfile profile s) = adds u f profile := by
  have hpath : userPath (some f) = userPath s.searchedUserId :=
    Request.get.inj (congrArg Call.req hsearched)
  have hid : interp s.searchedUserId = f := (List.cons.inj (List.cons.inj hpath).2).1.symm
  have hstring : profile.string "uid" = some f := by
    simp only [Doc.string, huid]
  simp only [add, readProfile, adds, friendDoc, huser, hid, hstring]
  rfl

variable {a : SearchAction ι}

theorem Core.resolved_step (h : Core rej b user c) (hs : (searchSystem ι).step c a = some c') :
    ∀ i, (c'.clients i).opened = true ∧ (c'.clients i).mCurrentUser = some (user i) := by
  refine step_keeps (Q := fun c => ∀ i, (c.clients i).opened = true ∧
    (c.clients i).mCurrentUser = some (user i)) hs ?_ (fun _ _ _ _ _ _ _ _ => h.resolved) ?_
  · intro i e s out _ he j
    refine Config.client_post
      (p := fun s : DisplaySearchState => s.opened = true ∧ s.mCurrentUser = some (user j))
      ?_ fun _ => h.resolved j
    rintro rfl
    obtain ⟨hopened, huser⟩ := h.resolved j
    rcases onEvent_cases he with ⟨hclosed, -⟩ | ⟨ho, hu, -⟩
    · rw [hopened] at hclosed
      cases hclosed
    · exact ⟨ho.trans hopened, hu.trans huser⟩
  · intro k d m r s out _ hk ha j
    refine Config.client_post
      (p := fun s : DisplaySearchState => s.opened = true ∧ s.mCurrentUser = some (user j))
      ?_ fun _ => h.resolved j
    rintro rfl
    rcases answer_cases ha with ⟨rfl, -⟩ | ⟨u, hcont, -⟩ | ⟨profile, -, -, -, rfl, -⟩
    · exact h.resolved m.client
    · -- nobody asks for the user any more
      rcases h.sent m (h.flight.2 _ (List.mem_of_getElem? hk)) with ⟨f, hf⟩ | ⟨f, _, -, hf⟩
      · rw [hf] at hcont
        cases hcont
      · rw [hf] at hcont
        cases hcont
    · exact h.resolved m.client

omit [DecidableEq ι] in
/-- The answer to the read of `f` that has found `profile`. -/
theorem Core.read_found (h : Core rej b user c) {m : SearchMessage ι} {profile : Doc}
    (hm : (m, .snapshot (some profile)) ∈ c.answers) (hcont : m.call.cont = .fetch) :
    ∃ f, m.call = fetches f ∧ DocStore.get b.db (userPath (some f)) = some profile := by
  rcases h.sent m (h.flight.2 _ hm) with ⟨f, hf⟩ | ⟨f, _, -, hf⟩
  · refine ⟨f, hf, ?_⟩
    rcases h.answered m _ hm f hf with ⟨-, e, he⟩ | ⟨-, he⟩
    · cases he
    · exact (Answer.snapshot.inj he).symm
  · rw [hf] at hcont
    cases hcont

theorem Core.sent_step (hb : ProfilesKeyed b.db) (h : Core rej b user c) (hC : OnRow rej c a)
    (hs : (searchSystem ι).step c a = some c') : ∀ m ∈ c'.issued, Sent b user m := by
  refine step_keeps (Q := fun c => ∀ m ∈ c.issued, Sent b user m) hs ?_
    (fun _ _ _ _ _ _ _ _ => h.sent) ?_
  · intro i e s out hact he m hm
    rcases mem_issued_post hm with hm | ⟨call, hc, rfl⟩
    · exact h.sent m hm
    · rcases onEvent_cases he with ⟨hclosed, -⟩ | ⟨-, -, rfl | ⟨document, rfl, hid, rfl⟩⟩
      · rw [(h.resolved i).1] at hclosed
        cases hclosed
      · cases hc
      · subst hact
        -- the row that is tapped has a uid
        obtain ⟨f, hf⟩ := Option.isSome_iff_exists.mp hC.1
        refine Or.inl ⟨f, ?_⟩
        rw [List.mem_singleton.mp hc, fetches, fetch, hid, hf]
  · intro k d m r s out hact hk ha m' hm
    rcases mem_issued_post hm with hm | ⟨call, hc, rfl⟩
    · exact h.sent m' hm
    · rcases answer_cases ha with ⟨-, rfl⟩ | ⟨u, -, -, -, rfl⟩ | ⟨profile, hcont, rfl, -, rfl, rfl⟩
      · cases hc
      · cases hc
      · subst hact
        -- the profile found is that of the row tapped last
        obtain ⟨f, hf, hprofile⟩ := h.read_found (List.mem_of_getElem? hk) hcont
        have hsearched := hC.2 _ hk hcont rfl
        rw [hf] at hsearched
        refine Or.inr ⟨f, profile, hprofile, ?_⟩
        rw [List.mem_singleton.mp hc]
        exact add_inTime (h.resolved m.client).2 hsearched (hb f profile hprofile)

theorem Core.answered_step (h : Core rej b user c) (hC : Tapped rej c a)
    (hs : (searchSystem ι).step c a = some c') : Answered rej b c' := by
  refine step_keeps (Q := Answered rej b) hs (fun _ _ _ _ _ _ => h.answered) ?_ ?_
  · intro k o m r x hact hk hserve m' r' hm f hf
    rcases mem_answers_served hm with hm | heq
    · exact h.answered m' r' hm f hf
    · obtain ⟨rfl, rfl⟩ := Prod.mk.inj heq
      subst hact
      have hrej : o.rejected = rej m' := hC m' hk
      rw [firebase_serve, hf] at hserve
      cases o with
      | reject e =>
          obtain ⟨-, rfl⟩ := Prod.mk.inj (Option.some.inj hserve)
          exact Or.inl ⟨hrej.symm, e, rfl⟩
      | accept fresh =>
          obtain ⟨-, rfl⟩ := Prod.mk.inj (Option.some.inj hserve)
          exact Or.inr ⟨hrej.symm, congrArg Answer.snapshot (h.profile f)⟩
  · intro k d m r s out _ _ _ m' r' hm
    exact h.answered m' r' (List.mem_of_mem_eraseIdx hm)

theorem Core.step (hb : ProfilesKeyed b.db) (h : Core rej b user c) (hC : OnRow rej c a)
    (hs : (searchSystem ι).step c a = some c') : Core rej b user c' :=
  ⟨h.progress.step hC.1.chosen hs, h.resolved_step hs, h.sent_step hb hC hs, h.flight.step hs,
    h.answered_step hC.1 hs⟩

/-- Handling the answer to a read, in time, writes the friend. -/
theorem Inv.done (hb : ProfilesKeyed b.db) (h : Inv rej b user c) (hC : InTime rej c a)
    (hs : (searchSystem ι).step c a = some c') {k : Nat} {d : Unit} {m : SearchMessage ι}
    {r : Answer} (hact : a = .deliver k d) (hk : c.answers[k]? = some (m, r)) :
    Added rej b user c' m := by
  intro f profile hf hrej hprofile
  subst hact
  -- the read was accepted, and no profile has changed since the start
  have hr : r = .snapshot (some profile) := by
    rcases h.answered m r (List.mem_of_getElem? hk) f hf with ⟨hr, -⟩ | ⟨-, hr⟩
    · rw [hrej] at hr
      cases hr
    · rw [hr, hprofile]
  subst hr
  obtain ⟨hmounted, hsearched⟩ := hC.2 _ hk rfl
  have hanswer : onAnswer (c.clients m.client) m.call.cont (.snapshot (some profile)) =
      (readProfile profile (c.clients m.client),
        [add (readProfile profile (c.clients m.client))]) := by
    rw [hf]
    exact if_pos hmounted
  have hstep := step_deliver_of (P := program) (S := firebase ι Cont) (d := d) hk
  have hsome := Option.some.inj (hs.symm.trans hstep)
  refine ⟨⟨m.client, add (readProfile profile (c.clients m.client)),
    (m.call, .snapshot (some profile)) :: m.cause⟩, ?_, rfl, ?_⟩
  · rw [hsome, Config.post_issued, List.mem_append]
    refine Or.inr (List.mem_map.mpr ⟨_, ?_, rfl⟩)
    show _ ∈ (onAnswer _ _ _).2
    rw [hanswer]
    exact List.mem_singleton_self _
  · rw [hf] at hsearched
    exact add_inTime (h.resolved m.client).2 hsearched (hb f profile hprofile)

theorem Inv.step (hb : ProfilesKeyed b.db) (h : Inv rej b user c) (hC : InTime rej c a)
    (hs : (searchSystem ι).step c a = some c') : Inv rej b user c' := by
  refine (h.core.step hb hC.onRow hs).inv (h.accounted.step hs ?_ ?_)
  · intro m _ hadded f profile hf hrej hprofile
    obtain ⟨w, hw, hrest⟩ := hadded f profile hf hrej hprofile
    exact ⟨w, mem_issued_step hs hw, hrest⟩
  · intro k d m r hact hk
    exact h.done hb hC hs hact hk

theorem Inv.steps (hb : ProfilesKeyed b.db)
    (hs : (searchSystem ι).Steps (InTime rej) (start b user) c) : Inv rej b user c := by
  have hstart : Inv rej b user (start b user) :=
    (Core.of_start ⟨rfl, rfl⟩).inv (Accounted.start _ _ _ _)
  exact hs.preserves (P := Inv rej b user) hstart fun _ _ _ h hC hstep => h.step hb hC hstep

/-! ## Every friend is the profile it is named after -/

/-- The page reads nothing. -/
def NoReads (c : SearchConfig ι) : Prop :=
  (∀ m ∈ c.calls, m.call.cont ≠ .fetch) ∧ ∀ p ∈ c.answers, p.1.call.cont ≠ .fetch

/-- Every friend written since the start is the profile it is named after; and once no read is
outstanding, every tapped profile that exists has its friend, unless the read was rejected, or the
write was, or is still on its way. -/
structure Exact (rej : Rejected ι Cont) (b : Backend ι) (user : ι → String) (c : SearchConfig ι) :
    Prop where
  written : ∀ u f d, DocStore.get c.backend.db (friendPath u f) = some d →
    DocStore.get b.db (friendPath u f) = some d ∨
      ∃ profile, DocStore.get c.backend.db (userPath (some f)) = some profile ∧
        d = friendDoc f profile
  complete : NoReads c → ∀ m ∈ c.issued, rej m = false → ∀ f profile, m.call = fetches f →
    DocStore.get c.backend.db (userPath (some f)) = some profile →
    ∃ w ∈ c.issued, w.client = m.client ∧ w.call = adds (user m.client) f profile ∧
      (w ∈ c.calls ∨ rej w = true ∨
        DocStore.get c.backend.db (friendPath (user m.client) f) = some (friendDoc f profile))

/-- In every run in which each answer that has found a profile is handled while the page is on the
screen and searches for that profile, every state is exact. -/
theorem exact_of_inTime (hb : ProfilesKeyed b.db)
    (hs : (searchSystem ι).Steps (InTime rej) (start b user) c) : Exact rej b user c := by
  have h := Inv.steps hb hs
  have hcore := h.core
  have hstored : ∀ m ∈ c.issued, ∀ u f d, m.call.req.Stores (friendPath u f) d →
      ∃ profile, DocStore.get c.backend.db (userPath (some f)) = some profile ∧
        d = friendDoc f profile := by
    intro m hm u f d hd
    obtain ⟨g, profile, hp, hd, hprofile⟩ := (h.sent m hm).stores hd
    obtain ⟨-, rfl⟩ := friendPath_inj hp
    exact ⟨profile, (hcore.profile f).trans hprofile, hd⟩
  constructor
  · intro u f d hget
    rcases h.progress.origin (friendPath u f) with hsame | ⟨m, hm, -, d', hd', hget'⟩
    · exact Or.inl (hsame ▸ hget)
    · rw [hget] at hget'
      obtain rfl := Option.some.inj hget'
      exact Or.inr (hstored m (mem_since.mp hm) u f d hd')
  · intro hnone m hm hrej f profile hf hprofile
    rcases h.accounted m hm with hcall | ⟨r, hanswer⟩ | hadded
    · exact absurd (by rw [hf]; rfl) (hnone.1 m hcall)
    · exact absurd (by rw [hf]; rfl) (hnone.2 _ hanswer)
    · obtain ⟨w, hw, hclient, hcall⟩ :=
        hadded f profile hf hrej ((hcore.profile f).symm.trans hprofile)
      refine ⟨w, hw, hclient, hcall, ?_⟩
      have hreq : w.call.req =
          .setData (friendPath (user m.client) f) (friendDoc f profile) := by
        rw [hcall]
        rfl
      rcases h.progress.lands w (mem_since.mpr hw) _ _ hreq with
        hcalls | hrej' | ⟨m', hm', -, d', hd', hget⟩
      · exact Or.inl hcalls
      · exact Or.inr (Or.inl hrej')
      · -- whichever write was the last at this path, it is the same document
        obtain ⟨profile', hprofile', rfl⟩ := hstored m' (mem_since.mp hm') _ _ _ hd'
        rw [hprofile] at hprofile'
        obtain rfl := Option.some.inj hprofile'
        exact Or.inr (Or.inr hget)

end Inv

/-! ## Two taps -/

/-- Kai and Liv have profiles. -/
def kai : Doc := [("uid", .str "f1"), ("email", .str "k@p"), ("brukernavn", .str "kai")]

def liv : Doc := [("uid", .str "f2"), ("email", .str "l@p"), ("brukernavn", .str "liv")]

def kaiAndLiv : Backend Unit :=
  { Backend.empty Unit with
    db := DocStore.setData (DocStore.setData ∅ ["users", "f1"] kai) ["users", "f2"] liv }

/-- The profiles of a store with two of them. -/
theorem eq_of_two_profiles {a b d : Doc} {f : String}
    (h : DocStore.get (DocStore.setData (DocStore.setData ∅ ["users", "f1"] a) ["users", "f2"] b)
      (userPath (some f)) = some d) : f = "f1" ∧ d = a ∨ f = "f2" ∧ d = b := by
  rw [DocStore.get_setData_eq, DocStore.get_setData_eq, DocStore.get_empty] at h
  split at h
  · next hf => exact Or.inr ⟨(List.cons.inj (List.cons.inj hf).2).1, (Option.some.inj h).symm⟩
  · split at h
    · next hf => exact Or.inl ⟨(List.cons.inj (List.cons.inj hf).2).1, (Option.some.inj h).symm⟩
    · cases h

theorem kaiAndLiv_keyed : ProfilesKeyed kaiAndLiv.db := by
  intro f d hget
  rcases eq_of_two_profiles hget with ⟨rfl, rfl⟩ | ⟨rfl, rfl⟩
  · rfl
  · rfl

/-- Every call is accepted. -/
def accepted : Rejected Unit Cont := fun _ => false

/-- A text is submitted, the row is found, and it is tapped. -/
def searchAndTap (value : String) (row : Doc) : List (SearchAction Unit) :=
  [.event () .beginSearch, .event () (.onSubmitted value), .event () .build,
    .event () (.snapshot (some [row])), .event () (.tapAdd row)]

/-- Search for Kai and tap the row, then for Liv. -/
def tapBoth : List (SearchAction Unit) :=
  searchAndTap "Kai" kai ++ searchAndTap "liv" liv

/-- The first answer is handled before the second tap. -/
def tapInTurn : List (SearchAction Unit) :=
  searchAndTap "Kai" kai ++ [.serve 0 (.accept ""), .deliver 0 ()] ++ searchAndTap "liv" liv ++
    [.serve 1 (.accept ""), .deliver 0 (), .serve 0 (.accept ""), .serve 0 (.accept "")]

theorem exact_of_inTime_ola : ∃ c : SearchConfig Unit,
    (searchSystem Unit).follow (InTime accepted)
    (start kaiAndLiv fun _ => "ola") tapInTurn = some c ∧
    DocStore.get c.backend.db (friendPath "ola" "f1") = some (friendDoc "f1" kai) ∧
    DocStore.get c.backend.db (friendPath "ola" "f2") = some (friendDoc "f2" liv) ∧
    Exact accepted kaiAndLiv (fun _ => "ola") c := by
  have hrun : ((searchSystem Unit).follow (InTime accepted) (start kaiAndLiv fun _ => "ola")
      tapInTurn).map (fun c => (DocStore.get c.backend.db (friendPath "ola" "f1"),
        DocStore.get c.backend.db (friendPath "ola" "f2")))
      = some (some (friendDoc "f1" kai), some (friendDoc "f2" liv)) := by
    decide +kernel
  obtain ⟨c, hc, heq⟩ := Option.map_eq_some_iff.mp hrun
  obtain ⟨hkai, hliv⟩ := Prod.mk.inj heq
  exact ⟨c, hc, hkai, hliv, exact_of_inTime kaiAndLiv_keyed (Machine.Steps.of_follow hc)⟩

/-- Both rows are tapped before the first answer is handled: Kai is filed under Liv. -/
theorem not_exact : ¬ ∀ c : SearchConfig Unit,
    (searchSystem Unit).Steps (Tapped accepted) (start kaiAndLiv fun _ => "ola") c →
      Exact accepted kaiAndLiv (fun _ => "ola") c := by
  intro h
  have hrun : ((searchSystem Unit).follow (Tapped accepted) (start kaiAndLiv fun _ => "ola")
      (tapBoth ++ ([.serve 0 (.accept ""), .deliver 0 (), .serve 1 (.accept "")] :
        List (SearchAction Unit)))).map
        (fun c => DocStore.get c.backend.db (friendPath "ola" "f2"))
      = some (some (friendDoc "f1" kai)) := by
    decide +kernel
  obtain ⟨c, hc, hget⟩ := Option.map_eq_some_iff.mp hrun
  rcases (h c (Machine.Steps.of_follow hc)).written _ _ _ hget with hsame | ⟨profile, -, hdoc⟩
  · rw [show DocStore.get kaiAndLiv.db (friendPath "ola" "f2") = none by decide +kernel] at hsame
    cases hsame
  · -- the document says `f1`
    have huid : Value.str "f1" = .str "f2" := congrArg (Doc.field · "uid") hdoc
    exact absurd (Value.str.inj huid) (by decide)

end P0ker.Search
