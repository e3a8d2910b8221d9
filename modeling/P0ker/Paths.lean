import P0ker.Pages.Together

/-!
# Do the writes go to resolved paths?

A page builds the path of a write from fields that its own lookups fill in, and Dart spells a null
as `null`. NewGame and NewGroup show their buttons only when the user is there, and draw the id
before they ask about it. The icons of the search page and the 'Next' of the Friends page do not
wait.

`resolved_iff` tells the runs in which every write goes to a path that is resolved: those in which
these two are not used too early.
-/

namespace P0ker.Paths

open Async Pages

/-! ## Paths before they are spelled out -/

/-- A path as the source writes it, with the values of its variables. -/
abbrev Template := List (Option String)

def spelled (t : Template) : Path :=
  t.map interp

def idSegment (id : Option Nat) : Option String :=
  id.map Nat.repr

/-- The paths a page writes to. -/
def templates : Page → List Template
  | .login s => [[some "users", s.uid]]
  | .gamePage _ => []
  | .newGame s =>
      [[some "groups", some "gutta", some "games", idSegment s.gameId],
        [some "users", s.mCurrentUser, some "games", idSegment s.gameId]]
  | .newGroup s =>
      [[some "groups", some s.groupType, some "groups", idSegment s.groupId],
        [some "users", s.mCurrentUser, some "groups", idSegment s.groupId],
        [some "users", s.mCurrentUser, some "creation", some "0"]]
  | .search s => [[some "users", s.mCurrentUser, some "friends", s.searchedUserId]]
  | .friends s =>
      [[some "groups", s.type, some "groups", idSegment s.groupId, some "members"]]

/-- The path in the source of a write: of a document, or of the collection it is added to. -/
def target : Request → Option Path
  | .setData doc _ => some doc
  | .add coll _ => some coll
  | _ => none

/-- A write goes to one of the paths of the page that has issued it, as the page was then, and none
of the values in that path was null. -/
def Resolved (call : Call Cont) : Prop :=
  ∃ page t, call.cont = .written page ∧ t ∈ templates page ∧
    target call.req = some (spelled t) ∧ none ∉ t

variable {ι : Type}

def AllResolved (c : PageConfig ι) : Prop :=
  ∀ m ∈ c.issued, m.call.req.Writes → Resolved m.call

@[simp] theorem interp_some (s : String) : interp (some s) = s := rfl

@[simp] theorem interp_idSegment (id : Option Nat) : interp (idSegment id) = interpInt id := by
  cases id <;> rfl

theorem idSegment_ne_none {id : Option Nat} : idSegment id ≠ none ↔ id ≠ none := by
  cases id <;> simp [idSegment]

/-- 'Next' goes to the group the page has found. -/
theorem resolved_member (s : Friends.HomeeState) :
    Resolved ⟨.written (.friends s), (Friends.addToFireStore s).req⟩ ↔
      s.type ≠ none ∧ s.groupId ≠ none := by
  constructor
  · rintro ⟨page, t, hpage, ht, -, hnone⟩
    obtain rfl := Cont.written.inj hpage
    obtain rfl := List.mem_singleton.mp ht
    rw [← idSegment_ne_none]
    refine ⟨fun h => hnone ?_, fun h => hnone ?_⟩ <;> simp [h]
  · rintro ⟨ht, hid⟩
    refine ⟨.friends s, _, rfl, List.mem_singleton_self _, ?_, ?_⟩
    · simp [target, spelled, Friends.addToFireStore, Friends.membersPath]
    · simp [ht.symm, (idSegment_ne_none.mpr hid).symm]

/-- A friend goes to the user, under the row that was tapped last. -/
theorem resolved_friend (s : UserSearch.DisplaySearchState) :
    Resolved ⟨.written (.search s), (UserSearch.add s).req⟩ ↔
      s.mCurrentUser ≠ none ∧ s.searchedUserId ≠ none := by
  constructor
  · rintro ⟨page, t, hpage, ht, -, hnone⟩
    obtain rfl := Cont.written.inj hpage
    obtain rfl := List.mem_singleton.mp ht
    refine ⟨fun h => hnone ?_, fun h => hnone ?_⟩ <;> simp [h]
  · rintro ⟨hu, hf⟩
    refine ⟨.search s, _, rfl, List.mem_singleton_self _, rfl, ?_⟩
    simp [hu.symm, hf.symm]

theorem resolved_profile (s : Login.LoginState) (k : String) (email username : Option String) :
    Resolved ⟨.written (.login { s with uid := some k }),
      (Registration.saveCall k email username).req⟩ :=
  ⟨_, _, rfl, List.mem_singleton_self _, rfl, by simp⟩

theorem resolved_game {s : NewGame.NewGameState} {call : Call NewGame.Cont}
    (h : call ∈ NewGame.saveGame s) (hu : s.mCurrentUser ≠ none) (hid : s.gameId ≠ none) :
    Resolved ⟨.written (.newGame { s with gameIdAvailable := true }), call.req⟩ := by
  have hseg := (idSegment_ne_none.mpr hid).symm
  rcases NewGame.mem_saveGame.mp h with rfl | rfl
  · refine ⟨_, _, rfl, List.mem_cons_self, ?_, ?_⟩
    · simp [target, spelled, NewGame.gamePath]
    · simp [hseg]
  · refine ⟨_, _, rfl, List.mem_cons_of_mem _ List.mem_cons_self, ?_, ?_⟩
    · simp [target, spelled, NewGame.userGamePath]
    · simp [hseg, hu.symm]

theorem resolved_group {s : NewGroup.NewGroupState} {call : Call NewGroup.Cont}
    (h : call ∈ NewGroup.saved s) (hu : s.mCurrentUser ≠ none) (hid : s.groupId ≠ none) :
    Resolved ⟨.written (.newGroup { s with gameIdAvailable := true }), call.req⟩ := by
  have hseg := (idSegment_ne_none.mpr hid).symm
  rcases NewGroup.mem_saved.mp h with rfl | rfl | rfl
  · refine ⟨_, _, rfl, List.mem_cons_self, ?_, ?_⟩
    · simp [target, spelled, NewGroup.groupPath]
    · simp [hseg]
  · refine ⟨_, _, rfl, List.mem_cons_of_mem _ List.mem_cons_self, ?_, ?_⟩
    · simp [target, spelled, NewGroup.userGroupPath]
    · simp [hseg, hu.symm]
  · refine ⟨_, _, rfl, List.mem_cons_of_mem _ (List.mem_cons_of_mem _ List.mem_cons_self), rfl, ?_⟩
    simp [hu.symm]

/-! ## The two ungated handlers -/

/-- A Friends page has found its group. -/
def HasGroup : Page → Prop
  | .friends s => s.type ≠ none ∧ s.groupId ≠ none
  | _ => True

/-- A search page that is still there has its user, and the row that was tapped last had a uid. -/
def HasFriend : Page → Prop
  | .search s => s.mounted = true → s.mCurrentUser ≠ none ∧ s.searchedUserId ≠ none
  | _ => True

/-- 'Next' is pressed only when the group has been found; a profile that `_fetch` has found is
handled only when the user is there, and the row that was tapped last had a uid. -/
def Known (c : PageConfig ι) : PageAction ι → Prop
  | .event i e => e = .friends .pressNext → HasGroup (c.clients i)
  | .serve _ _ => True
  | .deliver k _ => ∀ p ∈ c.answers[k]?, p.1.call.cont = .search .fetch →
      (∃ profile, p.2 = .snapshot (some profile)) → HasFriend (c.clients p.1.client)

/-! ## One step -/

theorem press_writes {s : Friends.HomeeState} {page' : Page} {out : List (Call Cont)}
    (h : onEvent (.friends s) (.friends .pressNext) = some (page', out)) :
    ⟨.written (.friends s), (Friends.addToFireStore s).req⟩ ∈ out := by
  cases (raised h).2 with
  | friends hs =>
      simp only [Friends.onEvent] at hs
      split at hs
      · obtain ⟨rfl, rfl⟩ := Prod.mk.inj (Option.some.inj hs)
        exact mem_lift.mpr ⟨_, List.mem_singleton_self _, rfl⟩
      · cases hs

theorem event_resolved {page page' : Page} {e : Event} {out : List (Call Cont)}
    (h : onEvent page e = some (page', out)) :
    (∀ call ∈ out, call.req.Writes → Resolved call) ↔
      (e = .friends .pressNext → HasGroup page) := by
  constructor
  · rintro hout rfl
    cases page with
    | friends s => exact (resolved_member s).mp (hout _ (press_writes h) trivial)
    | login | gamePage | newGame | newGroup | search => trivial
  · intro hknown call hc hw
    -- 'Next' is the only event that writes
    obtain ⟨s, rfl, rfl, -, rfl⟩ := event_writes h hc hw
    exact (resolved_member s).mpr (hknown rfl)

theorem fetched_writes {s : UserSearch.DisplaySearchState} {profile : Doc} {r : Draw}
    {page' : Page} {out : List (Call Cont)} (hm : s.mounted = true)
    (h : onAnswer (.search s) (.search .fetch) (.snapshot (some profile)) r = (page', out)) :
    ⟨.written (.search (UserSearch.readProfile profile s)),
      (UserSearch.add (UserSearch.readProfile profile s)).req⟩ ∈ out := by
  have hran : UserSearch.onAnswer s .fetch (.snapshot (some profile)) =
      (UserSearch.readProfile profile s, [UserSearch.add (UserSearch.readProfile profile s)]) :=
    if_pos hm
  obtain ⟨-, rfl⟩ := Prod.mk.inj h
  refine mem_lift.mpr ⟨UserSearch.add (UserSearch.readProfile profile s), ?_, ?_⟩ <;> rw [hran]
  · exact List.mem_singleton_self _
  · rfl

/-- The user of a page that has found it is there after the answer too. -/
theorem answer_resolved {page page' : Page} {cont : Cont} {a : Answer} {r : Draw}
    {out : List (Call Cont)} (h : onAnswer page cont a r = (page', out))
    (hready : Relies cont → Ready page)
    (hfound : (lookup page).userFound = true → (lookup page).mCurrentUser ≠ none) :
    (∀ call ∈ out, call.req.Writes → Resolved call) ↔
      (cont = .search .fetch → (∃ profile, a = .snapshot (some profile)) → HasFriend page) := by
  constructor
  · rintro hout rfl ⟨profile, rfl⟩
    cases page with
    | search s =>
        intro hm
        exact (resolved_friend (UserSearch.readProfile profile s)).mp
          (hout _ (fetched_writes hm h) trivial)
    | login | gamePage | newGame | newGroup | friends => trivial
  · intro hknown call hc hw
    obtain ⟨hwrites, hcont⟩ := answer_writes h hc hw
    obtain ⟨cont', req⟩ := call
    obtain rfl : cont' = .written page' := hcont
    cases hwrites with
    | profile s k => exact resolved_profile s k _ _
    | game s call hmem =>
        -- a page that has asked for an id has found its user
        have hid := hready trivial
        exact resolved_game hmem (hfound hid.1) hid.2
    | group s call hmem =>
        have hid := hready trivial
        exact resolved_group hmem (hfound hid.1) hid.2
    | friend s profile hm =>
        exact (resolved_friend _).mpr (hknown rfl ⟨profile, rfl⟩ hm)

/-! ## Every run -/

variable [DecidableEq ι] {c c' : PageConfig ι}

theorem allResolved_post {i : ι} {page : Page} {out : List (Call Cont)}
    {cause : List (Call Cont × Answer)} (h : AllResolved c) :
    AllResolved (c.post i page out cause) ↔ ∀ call ∈ out, call.req.Writes → Resolved call := by
  constructor
  · intro h' call hc
    exact h' ⟨i, call, cause⟩ (List.mem_append_right _ (List.mem_map.mpr ⟨call, hc, rfl⟩))
  · intro hout m hm
    rcases mem_issued_post hm with hm | ⟨call, hc, rfl⟩
    · exact h m hm
    · exact hout call hc

theorem allResolved_step (hr : (anywhere ι).Reachable c) (h : AllResolved c) {a : PageAction ι}
    (hs : (anywhere ι).step c a = some c') : AllResolved c' ↔ Known c a := by
  cases a with
  | event i e =>
      obtain ⟨page, out, he, rfl⟩ := step_event (S := firebase ι Cont) hs
      rw [allResolved_post h]
      exact event_resolved he
  | serve k o =>
      obtain ⟨m, b, r, -, -, rfl⟩ := step_serve (P := program) hs
      exact ⟨fun _ => trivial, fun _ => h⟩
  | deliver k d =>
      obtain ⟨m, r, page, out, hk, ha, rfl⟩ := step_deliver (S := firebase ι Cont) hs
      have hissued := (inFlightIssued hr).2 _ (List.mem_of_getElem? hk)
      rw [allResolved_post (c := c.taken k) h,
        answer_resolved ha (ready hr m hissued) ((Pages.lookedUp hr).found m.client)]
      constructor
      · intro hknown p hk'
        obtain rfl := Option.some.inj (hk.symm.trans hk')
        exact hknown
      · exact fun hknown => hknown _ hk

/-- **No write goes to an unresolved path**, as long as and only as long as 'Next' is pressed on
pages that have found their group, and no profile is found by a search page that has no user or
whose last row had no uid. -/
theorem resolved_iff (h : (anywhere ι).Reachable c) :
    AllResolved c ↔ (anywhere ι).Reach Known c := by
  refine h.exact ?_ ?_ fun _ _ _ hr hq hs => allResolved_step hr hq hs
  · rintro _ ⟨p, b, -, -, rfl⟩
    exact List.forall_mem_nil _
  · intro c a c' hs hq m hm
    exact hq m (mem_issued_step (P := program) hs hm)

/-! ### One page -/

section Example

/-- One page over a backend that holds the profile of Kai. -/
def start (page : Page) : PageConfig Unit :=
  Config.start (fun _ => page)
    ⟨DocStore.setData ∅ ["users", "u2"] [("uid", .str "u2"), ("brukernavn", .str "kai")], ∅,
      fun _ => some "u1"⟩ []

theorem start_opened (page : Page) (h : page.New) : (anywhere Unit).init (start page) :=
  ⟨_, _, fun _ => h, trivial, rfl⟩

/-- The paths of the writes issued so far. -/
def targets (c : PageConfig Unit) : List Path :=
  c.issued.filterMap fun m => target m.call.req

/-- Kai is looked up and added, once the user is known. -/
def addKai : List (PageAction Unit) :=
  [.event () (.search .initState), .serve 0 (.accept ""), .deliver 0 0,
    .event () (.search .beginSearch), .event () (.search (.onSubmitted "Kai")),
    .event () (.search .build),
    .event () (.search (.snapshot (some [[("uid", .str "u2"), ("brukernavn", .str "kai")]]))),
    .event () (.search (.tapAdd [("uid", .str "u2"), ("brukernavn", .str "kai")])),
    .serve 0 (.accept ""), .deliver 0 0]

theorem resolved_kai : ∃ c : PageConfig Unit,
    (anywhere Unit).run (start (.search {})) addKai = some c ∧
    targets c = [["users", "u1", "friends", "u2"]] ∧
    (AllResolved c ↔ (anywhere Unit).Reach Known c) := by
  have hrun : ((anywhere Unit).run (start (.search {})) addKai).map targets =
      some [["users", "u1", "friends", "u2"]] := by
    decide +kernel
  obtain ⟨c, hc, htargets⟩ := Option.map_eq_some_iff.mp hrun
  exact ⟨c, hc, htargets, resolved_iff (Machine.Reach.of_follow (start_opened (.search {}) rfl) hc)⟩

/-- 'Next' is pressed as soon as the Friends page is there: the member goes to
`groups/null/groups/null/members`. -/
theorem not_resolved : ¬ ∀ c : PageConfig Unit, (anywhere Unit).Reachable c → AllResolved c := by
  intro h
  have hrun : ((anywhere Unit).run (start (.friends {}))
      [.event () (.friends .initState), .event () (.friends .pressNext)]).map
        (fun c => c.issued.getLast?) =
      some (some ⟨(), ⟨.written (.friends { opened := true }),
        .add ["groups", "null", "groups", "null", "members"] []⟩, []⟩) := by
    decide +kernel
  obtain ⟨c, hc, hlast⟩ := Option.map_eq_some_iff.mp hrun
  have hresolved := h c (Machine.Reach.of_follow (start_opened (.friends {}) rfl) hc) _
    (List.mem_of_getLast? hlast) trivial
  exact ((resolved_member { opened := true }).mp hresolved).1 rfl

end Example

end P0ker.Paths
