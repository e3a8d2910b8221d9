import P0ker.Writes
import P0ker.Pages.Friends

/-!
# Selected friends: do they become members?

Any number of Friends pages over one backend. The taps read the selected friends, but what they read
never reaches the members of the group: every press of 'Next' adds the page's map `data`, and no
handler ever puts anything into it. So each press adds one empty document, whoever was selected, and
the members are not what the selection says after any press.
-/

namespace P0ker.Members

open Async Friends

variable {ι : Type} [DecidableEq ι]

abbrev FriendsMessage (ι : Type) := Message ι (Call Cont) Answer

abbrev FriendsConfig (ι : Type) := Config ι HomeeState (Backend ι) (Call Cont) Answer

abbrev FriendsAction (ι : Type) := Action ι Event Unit Outcome

/-- Pages still to be opened over a backend `b`, nothing in flight. -/
def start (b : Backend ι) : FriendsConfig ι :=
  Config.start (fun _ => {}) b []

def friendsSystem (ι : Type) [DecidableEq ι] : Machine (FriendsConfig ι) (FriendsAction ι) :=
  Async.system program (firebase ι Cont) fun c => ∃ b, c = start b

/-! ## What is added -/

/-- A call of the page: a read, or an empty member. -/
def Sent (call : Call Cont) : Prop :=
  call.req = .currentUser ∨ (∃ p, call.req = .get p) ∨
    ∃ type groupId, call = ⟨.added, .add (membersPath type groupId) []⟩

omit [DecidableEq ι] in
/-- Nothing ever writes the member that `addToGroup` describes. -/
theorem Sent.ne_addToGroup {call : Call Cont} (h : Sent call) (s : HomeeState) :
    call ≠ addToGroup s := by
  rintro rfl
  rcases h with h | ⟨p, h⟩ | ⟨type, groupId, h⟩
  · cases h
  · cases h
  · cases h

/-- What holds in every state of a run from `start b`: the maps `data` are empty, and so is every
member that is added; no document is lost; and every member that was issued is outstanding, or was
rejected, or has been stored under an id that was free at the start. -/
structure Inv (rej : Rejected ι Cont) (b : Backend ι) (c : FriendsConfig ι) : Prop where
  data : ∀ i, (c.clients i).data = []
  sent : ∀ m ∈ c.issued, Sent m.call
  flight : InFlightIssued c
  kept : ∀ p d, DocStore.get b.db p = some d → DocStore.get c.backend.db p = some d
  added : ∀ m ∈ c.issued, ∀ coll data, m.call.req = .add coll data →
    m ∈ c.calls ∨ rej m = true ∨ ∃ id, DocStore.get b.db (coll ++ [id]) = none ∧
      DocStore.get c.backend.db (coll ++ [id]) = some data

section Inv

variable {rej : Rejected ι Cont} {b : Backend ι} {c c₁ c₂ c' : FriendsConfig ι} {i : ι}
  {a : FriendsAction ι}

omit [DecidableEq ι] in
theorem Inv.of_start (rej : Rejected ι Cont) (b : Backend ι) : Inv rej b (start b) :=
  ⟨fun _ => rfl, List.forall_mem_nil _, InFlightIssued.start _ _ _, fun _ _ h => h,
    List.forall_mem_nil _⟩

theorem Inv.data_step (h : Inv rej b c) (hs : (friendsSystem ι).step c a = some c') :
    ∀ i, (c'.clients i).data = [] := by
  refine step_keeps (Q := fun c => ∀ i, (c.clients i).data = []) hs ?_
    (fun _ _ _ _ _ _ _ _ => h.data) ?_
  · intro i e s out _ he j
    refine Config.client_post (p := fun s : HomeeState => s.data = []) ?_ fun _ => h.data j
    exact fun _ => (onEvent_cases he).1.trans (h.data i)
  · intro k d m r s out _ _ ha j
    refine Config.client_post (p := fun s : HomeeState => s.data = []) ?_ fun _ => h.data j
    obtain rfl : (onAnswer (c.clients m.client) m.call.cont r).1 = s := congrArg Prod.fst ha
    exact fun _ => (onAnswer_cases _ _ _).2.1.trans (h.data m.client)

theorem Inv.sent_step (h : Inv rej b c) (hs : (friendsSystem ι).step c a = some c') :
    ∀ m ∈ c'.issued, Sent m.call := by
  refine step_keeps (Q := fun c => ∀ m ∈ c.issued, Sent m.call) hs ?_
    (fun _ _ _ _ _ _ _ _ => h.sent) ?_
  · intro i e s out _ he m hm
    rcases mem_issued_post hm with hm | ⟨call, hc, rfl⟩
    · exact h.sent m hm
    · rcases (onEvent_cases he).2.2 call hc with (rfl | rfl | ⟨f, -, rfl⟩) | ⟨-, rfl⟩
      · exact Or.inl rfl
      · exact Or.inr (Or.inl ⟨_, rfl⟩)
      · exact Or.inr (Or.inl ⟨_, rfl⟩)
      · refine Or.inr (Or.inr ⟨interp (c.clients i).type, interpInt (c.clients i).groupId, ?_⟩)
        rw [addToFireStore, h.data i]
  · intro k d m r s out _ _ ha m' hm
    have hout : (onAnswer (c.clients m.client) m.call.cont r).2 = out := congrArg Prod.snd ha
    rw [(onAnswer_cases _ _ _).1] at hout
    rcases mem_issued_post hm with hm | ⟨call, hc, -⟩
    · exact h.sent m' hm
    · rw [← hout] at hc
      cases hc

/-- The evaluation of a call keeps every document, and stores the member it adds. -/
theorem Inv.served {k : Nat} {o : Outcome} {m : FriendsMessage ι} {x : Backend ι} {r : Answer}
    (h : Inv rej b c) (hk : c.calls[k]? = some m) (hrej : o.rejected = rej m)
    (hserve : c.backend.serve m.client m.call.req o = some (x, r)) :
    Inv rej b (c.served k m x r) := by
  have hm : m ∈ c.issued := h.flight.1 m (List.mem_of_getElem? hk)
  -- the page only adds, so nothing it stores replaces anything
  have hnoset : ∀ doc data, m.call.req ≠ .setData doc data := by
    intro doc data hreq
    rcases h.sent m hm with hs | ⟨p, hs⟩ | ⟨type, groupId, hs⟩
    · rw [hreq] at hs
      cases hs
    · rw [hreq] at hs
      cases hs
    · rw [hs] at hreq
      cases hreq
  have hkept : ∀ p d, DocStore.get c.backend.db p = some d → DocStore.get x.db p = some d :=
    fun p d hd => Backend.serve_kept hserve hnoset hd
  refine ⟨h.data, h.sent, h.flight.served hk, fun p d hd => hkept p d (h.kept p d hd), ?_⟩
  intro m' hm' coll data hreq
  rcases h.added m' hm' coll data hreq with hcall | hr | ⟨id, hfree, hget⟩
  · rcases mem_eraseIdx_or hk hcall with rfl | hcall
    · rw [hreq] at hserve
      rcases Backend.serve_add hserve with ⟨hr, -⟩ | ⟨-, id, hnone, hget⟩
      · exact Or.inr (Or.inl (hrej.symm.trans hr))
      · refine Or.inr (Or.inr ⟨id, ?_, hget⟩)
        -- what is free now was free at the start
        cases hb : DocStore.get b.db (coll ++ [id]) with
        | none => rfl
        | some d =>
            rw [h.kept _ _ hb] at hnone
            cases hnone
    · exact Or.inl hcall
  · exact Or.inr (Or.inl hr)
  · exact Or.inr (Or.inr ⟨id, hfree, hkept _ _ hget⟩)

theorem Inv.added_post {j : ι} {s : HomeeState} {out : List (Call Cont)}
    {cause : List (Call Cont × Answer)} (h : Inv rej b c) :
    ∀ m ∈ (c.post j s out cause).issued, ∀ coll data, m.call.req = .add coll data →
      m ∈ (c.post j s out cause).calls ∨ rej m = true ∨
        ∃ id, DocStore.get b.db (coll ++ [id]) = none ∧
          DocStore.get c.backend.db (coll ++ [id]) = some data := by
  intro m hm coll data hreq
  rw [Config.post_calls, List.mem_append]
  rcases mem_issued_post hm with hm | ⟨call, hc, rfl⟩
  · rcases h.added m hm coll data hreq with hcall | hrest
    · exact Or.inl (Or.inl hcall)
    · exact Or.inr hrest
  · exact Or.inl (Or.inr (List.mem_map.mpr ⟨call, hc, rfl⟩))

theorem Inv.step (h : Inv rej b c) (hC : Chosen rej c a)
    (hs : (friendsSystem ι).step c a = some c') : Inv rej b c' := by
  have hdata := h.data_step hs
  have hsent := h.sent_step hs
  have hflight := h.flight.step hs
  cases a with
  | event j e =>
      obtain ⟨s, out, -, rfl⟩ := step_event (S := firebase ι Cont) hs
      exact ⟨hdata, hsent, hflight, h.kept, h.added_post⟩
  | serve k o =>
      obtain ⟨m, x, r, hk, hserve, rfl⟩ := step_serve (P := program) hs
      exact h.served hk (hC m hk) hserve
  | deliver k d =>
      obtain ⟨m, r, s, out, -, -, rfl⟩ := step_deliver (S := firebase ι Cont) hs
      have htaken : Inv rej b (c.taken k) := ⟨h.data, h.sent, h.flight.taken, h.kept, h.added⟩
      exact ⟨hdata, hsent, hflight, h.kept, htaken.added_post⟩

theorem Inv.steps (h : Inv rej b c) (hs : (friendsSystem ι).Steps (Chosen rej) c c') :
    Inv rej b c' :=
  hs.preserves (P := Inv rej b) h fun _ _ _ h hC hstep => h.step hC hstep

end Inv

/-! ## What the members are to be -/

/-- The document carries the uid, the name and the e-mail of a profile. -/
def Carries (profile d : Doc) : Prop :=
  d.lookup "uid" = some (profile.field "uid") ∧
    d.lookup "name" = some (profile.field "brukernavn") ∧
    d.lookup "email" = some (profile.field "email")

/-- A friend's row has been tapped on page `i`. -/
def Tapped (c : FriendsConfig ι) (i : ι) (f : String) : Prop :=
  ∃ m ∈ c.issued, m.client = i ∧ m.call = ⟨.getUser, .get (Login.userPath (some f))⟩

/-- A document that has been put into a collection since the start. -/
def New (b : Backend ι) (c : FriendsConfig ι) (coll : Path) (id : String) (d : Doc) : Prop :=
  DocStore.get b.db (coll ++ [id]) = none ∧ DocStore.get c.backend.db (coll ++ [id]) = some d

/-- The new members are the tapped friends, once each. -/
structure MembersExact (b : Backend ι) (c : FriendsConfig ι) (i : ι) (coll : Path) : Prop where
  only : ∀ id d, New b c coll id d → ∃ f profile, Tapped c i f ∧
    DocStore.get c.backend.db (Login.userPath (some f)) = some profile ∧ Carries profile d
  each : ∀ f, Tapped c i f → ∃! id, ∃ d profile, New b c coll id d ∧
    DocStore.get c.backend.db (Login.userPath (some f)) = some profile ∧ Carries profile d

/-- The members of the group that page `i` has found. -/
def members (c : FriendsConfig ι) (i : ι) : Path :=
  membersPath (interp (c.clients i).type) (interpInt (c.clients i).groupId)

/-- In a run from `start b`, page `i` presses 'Next' in `c₁`, the press is not rejected, and nothing
is in flight in `c`. -/
structure PressedNext (rej : Rejected ι Cont) (b : Backend ι) (i : ι) (c₁ c₂ c : FriendsConfig ι) :
    Prop where
  before : (friendsSystem ι).Steps (Chosen rej) (start b) c₁
  press : (friendsSystem ι).step c₁ (.event i .pressNext) = some c₂
  after : (friendsSystem ι).Steps (Chosen rej) c₂ c
  done : c.Quiet
  accepted : rej ⟨i, addToFireStore (c₁.clients i), []⟩ = false

section Press

variable {rej : Rejected ι Cont} {b : Backend ι} {c₁ c₂ c : FriendsConfig ι} {i : ι}

/-- Every press that is not rejected leaves an empty document among the members. -/
theorem PressedNext.empty_member (h : PressedNext rej b i c₁ c₂ c) :
    ∃ id, New b c (members c₁ i) id [] := by
  have hinv₁ : Inv rej b c₁ := (Inv.of_start rej b).steps h.before
  have hinv : Inv rej b c := (hinv₁.step (a := .event i .pressNext) trivial h.press).steps h.after
  have hissued : (⟨i, addToFireStore (c₁.clients i), []⟩ : FriendsMessage ι) ∈ c₂.issued := by
    obtain ⟨s, out, he, hc₂⟩ := step_event (S := firebase ι Cont) h.press
    have hpress : (if (c₁.clients i).mounted ∧ (c₁.clients i).opened then
        some (c₁.clients i, [addToFireStore (c₁.clients i)]) else none) = some (s, out) := he
    split at hpress
    · obtain ⟨rfl, rfl⟩ := Prod.mk.inj (Option.some.inj hpress)
      rw [hc₂, Config.post_issued]
      exact List.mem_append_right _ (List.mem_singleton_self _)
    · cases hpress
  have hreq : (addToFireStore (c₁.clients i)).req = .add (members c₁ i) [] := by
    simp only [addToFireStore, hinv₁.data i]
    rfl
  rcases hinv.added _ (mem_issued_steps h.after hissued) _ _ hreq with hcall | hrej | ⟨id, hid⟩
  · rw [h.done.1] at hcall
    cases hcall
  · rw [h.accepted] at hrej
    cases hrej
  · exact ⟨id, hid⟩

/-- After any press of 'Next', whatever was tapped and whatever else happens, the members are not
the selected friends. -/
theorem members_never_exact (h : PressedNext rej b i c₁ c₂ c) :
    ¬ MembersExact b c i (members c₁ i) := by
  intro hexact
  obtain ⟨id, hnew⟩ := h.empty_member
  obtain ⟨f, profile, -, -, huid, -⟩ := hexact.only id [] hnew
  cases huid

end Press

/-! ## One friend, one press -/

/-- Kai's profile, Kai among the friends of Ola, and the group that Ola is creating. -/
def withKai : Backend Unit :=
  { Backend.empty Unit with
    db := DocStore.setData (DocStore.setData (DocStore.setData ∅ ["users", "f1"]
          [("uid", .str "f1"), ("email", .str "k@p"), ("brukernavn", .str "kai")])
        ["users", "ola", "friends", "f1"] [("brukernavn", .str "kai"), ("uid", .str "f1")])
      ["users", "ola", "creation", "0"] [("id", .int 7), ("type", .str "public")]
    session := fun _ => some "ola" }

/-- Every call is accepted. -/
def accepted : Rejected Unit Cont := fun _ => false

/-- The page is opened and finds its user; Kai is tapped; all reads are answered. -/
def tapKai : List (FriendsAction Unit) :=
  [.event () .initState, .serve 0 (.accept ""), .serve 0 (.accept ""), .deliver 0 (), .deliver 0 (),
    .event () (.tap "f1"), .serve 0 (.accept ""), .serve 0 (.accept ""), .deliver 0 (),
    .deliver 0 ()]

/-- No answer is to come, and the group has been found. -/
def Resolved (c : FriendsConfig Unit) : Prop :=
  c.Quiet ∧ (c.clients ()).getStatus = true

instance (c : FriendsConfig Unit) : Decidable (Resolved c) := by
  unfold Resolved
  infer_instance

theorem pressed_kai : ∃ c₁ c₂ c, Resolved c₁ ∧ PressedNext accepted withKai () c₁ c₂ c := by
  have hrun : ((friendsSystem Unit).follow (Chosen accepted) (start withKai) tapKai).bind
      (fun c₁ => ((friendsSystem Unit).step c₁ (.event () .pressNext)).bind fun c₂ =>
        ((friendsSystem Unit).follow (Chosen accepted) c₂ [.serve 0 (.accept "m1"),
          .deliver 0 ()]).map fun c => decide (Resolved c₁) && decide c.Quiet) = some true := by
    decide +kernel
  obtain ⟨c₁, hbefore, h⟩ := Option.bind_eq_some_iff.mp hrun
  obtain ⟨c₂, hpress, h⟩ := Option.bind_eq_some_iff.mp h
  obtain ⟨c, hafter, h⟩ := Option.map_eq_some_iff.mp h
  rw [Bool.and_eq_true, decide_eq_true_eq, decide_eq_true_eq] at h
  exact ⟨c₁, c₂, c, h.1, Machine.Steps.of_follow hbefore, hpress, Machine.Steps.of_follow hafter,
    h.2, rfl⟩

theorem members_never_exact_kai : ∃ c₁ c₂ c : FriendsConfig Unit, Resolved c₁ ∧
    PressedNext accepted withKai () c₁ c₂ c ∧ ¬ MembersExact withKai c () (members c₁ ()) := by
  obtain ⟨c₁, c₂, c, hresolved, h⟩ := pressed_kai
  exact ⟨c₁, c₂, c, hresolved, h, members_never_exact h⟩

/-- Kai is tapped, every answer has come, 'Next' is pressed once: the only new member is empty. -/
theorem not_members_exact : ¬ ∀ c₁ c₂ c : FriendsConfig Unit, Resolved c₁ →
    PressedNext accepted withKai () c₁ c₂ c → MembersExact withKai c () (members c₁ ()) := by
  intro hall
  obtain ⟨c₁, c₂, c, hresolved, h⟩ := pressed_kai
  obtain ⟨id, hnew⟩ := h.empty_member
  obtain ⟨f, profile, -, -, huid, -⟩ := (hall c₁ c₂ c hresolved h).only id [] hnew
  cases huid

end P0ker.Members
