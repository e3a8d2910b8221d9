import P0ker.Groups.Creation

/-!
# Does a host's own list show every group the host created?

A group is stored twice: in the store everybody shares, under its type and its id, and in the list
of its host, under its id alone. Ids are (meant to be) unique within a type, so a host can have a
public and a private group with one id, and then one entry of the list stands for both.

`mirror_iff` is about every run in which all writes are accepted and no two groups of one type have
the same id: once nothing is in flight, the lists mirror the shared store exactly when no host has
two groups with one id.
-/

namespace P0ker.Groups

open Async NewGroup

variable {ι : Type} [DecidableEq ι]

/-! ## The groups that have been created -/

structure Creation where
  type : String
  id : String
  doc : Doc
  deriving DecidableEq

/-- The group whose shared document a call writes. -/
def creation? (m : GroupMessage ι) : Option Creation :=
  match m.call.req with
  | .setData [a, type, b, id] doc =>
      if a = "groups" ∧ b = "groups" then some ⟨type, id, doc⟩ else none
  | _ => none

def creations (c : GroupConfig ι) : List Creation :=
  c.issued.filterMap creation?

/-- No two groups of the same type have the same id. -/
def DistinctIds (c : GroupConfig ι) : Prop :=
  ((creations c).map fun g => (g.type, g.id)).Nodup

/-- No host has two groups with one id. -/
def NoClash (c : GroupConfig ι) : Prop :=
  ∀ g ∈ creations c, ∀ g' ∈ creations c, g.doc.field "host" = g'.doc.field "host" →
    g.id = g'.id → g.type = g'.type

instance (c : GroupConfig ι) : Decidable (DistinctIds c) := by
  unfold DistinctIds
  infer_instance

instance (c : GroupConfig ι) : Decidable (NoClash c) := by
  unfold NoClash
  infer_instance

/-- Two documents have the same groupid, name, info and host. -/
def SameGroup (d d' : Doc) : Prop :=
  ∀ name ∈ ["groupid", "name", "info", "host"], d.field name = d'.field name

/-- For every group of a host there is a document in the host's own list, a different one for every
group. -/
def Mirror (db : Db) : Prop :=
  ∃ copy : String → String → String,
    (∀ type id d u, DocStore.get db (groupPath type id) = some d → d.field "host" = .str u →
      ∃ d', DocStore.get db (userGroupPath u (copy type id)) = some d' ∧ SameGroup d d') ∧
    ∀ type id d type' id' d' u, DocStore.get db (groupPath type id) = some d →
      DocStore.get db (groupPath type' id') = some d' → d.field "host" = .str u →
      d'.field "host" = .str u → copy type id = copy type' id' → type = type' ∧ id = id'

omit [DecidableEq ι] in
theorem creation?_eq_some {m : GroupMessage ι} {g : Creation} :
    creation? m = some g ↔ m.call.req = .setData (groupPath g.type g.id) g.doc := by
  unfold creation?
  constructor
  · intro h
    split at h
    · next a type b id doc hreq =>
        split at h
        · next hab =>
            obtain rfl := Option.some.inj h
            rw [hreq, hab.1, hab.2]
            rfl
        · cases h
    · cases h
  · intro h
    rw [h]
    rfl

omit [DecidableEq ι] in
theorem mem_creations {c : GroupConfig ι} {g : Creation} :
    g ∈ creations c ↔
      ∃ m ∈ c.issued, m.call.req = .setData (groupPath g.type g.id) g.doc := by
  simp only [creations, List.mem_filterMap, creation?_eq_some]

omit [DecidableEq ι] in
/-- A type and an id name one call. -/
theorem DistinctIds.eq {c : GroupConfig ι} (h : DistinctIds c) {m m' : GroupMessage ι}
    {type id : String} {d d' : Doc} (hm : m ∈ c.issued) (hm' : m' ∈ c.issued)
    (hreq : m.call.req = .setData (groupPath type id) d)
    (hreq' : m'.call.req = .setData (groupPath type id) d') : m' = m := by
  rw [DistinctIds, creations, List.map_filterMap] at h
  refine eq_of_nodup_filterMap (k := (type, id)) h hm' hm ?_ ?_
  · rw [creation?_eq_some (g := ⟨type, id, d'⟩).mpr hreq']
    rfl
  · rw [creation?_eq_some (g := ⟨type, id, d⟩).mpr hreq]
    rfl

/-! ## A group that is saved is saved three times, by a user -/

/-- The page that asked about an id has its user. -/
def AskersFound (c : GroupConfig ι) : Prop :=
  ∀ m ∈ c.issued, m.call.cont = .checkGroupId → (c.clients m.client).userFound = true

/-- The write `m` is one of the three writes of a group that a user has saved, all three of which
have been issued. -/
def SavedWith (issued : List (GroupMessage ι)) (m : GroupMessage ι) : Prop :=
  ∃ s, s.mCurrentUser ≠ none ∧ m.call ∈ saved s ∧
    ∀ call ∈ saved s, ⟨m.client, call, m.cause⟩ ∈ issued

omit [DecidableEq ι] in
theorem SavedWith.mono {issued more : List (GroupMessage ι)} {m : GroupMessage ι}
    (h : SavedWith issued m) : SavedWith (issued ++ more) m := by
  obtain ⟨s, huser, hmem, hall⟩ := h
  exact ⟨s, huser, hmem, fun call hc => List.mem_append_left _ (hall call hc)⟩

/-- Every write is one of the three writes of a group. -/
def AllSaved (c : GroupConfig ι) : Prop :=
  ∀ m ∈ c.issued, m.call.cont = .written → SavedWith c.issued m

section Reach

variable {C : GroupConfig ι → GroupAction ι → Prop} {c : GroupConfig ι}

theorem lookedUp (h : (groupSystem ι).Reach C c) :
    LookedUp NewGroupState.toUserLookup NewGroupState.opened .userIdFound c := by
  apply P0ker.lookedUp looksUp h
  rintro _ ⟨b, -, rfl⟩
  exact LookedUp.start _ _ fun _ => rfl

theorem askersFound (h : (groupSystem ι).Reach C c) : AskersFound c := by
  intro m hm hcont
  refine P0ker.askersFound looksUp gated h ?_ m hm (by rw [hcont]; nofun)
  rintro _ ⟨b, -, rfl⟩
  exact ⟨InFlightIssued.start _ _ _, LookedUp.start _ _ fun _ => rfl, List.forall_mem_nil _⟩

theorem allSaved (h : (groupSystem ι).Reach C c) : AllSaved c := by
  refine h.invariant (P := AllSaved) ?_ ?_
  · rintro _ ⟨b, -, rfl⟩ m hm
    cases hm
  · intro c a c' hr hq _ hs
    refine step_keeps (Q := AllSaved) hs ?_ (fun _ _ _ _ _ _ _ _ => hq) ?_
    · intro i e s out _ he m hm hcont
      rcases mem_issued_post hm with hm | ⟨call, hc, rfl⟩
      · exact (hq _ hm hcont).mono
      · rcases onEvent_cases he with ⟨rfl, -⟩ | ⟨-, -, -, rfl⟩ | ⟨r, -, -, -, -, rfl⟩
        · cases hc
        · rw [List.mem_singleton.mp hc] at hcont
          cases hcont
        · rw [List.mem_singleton.mp hc] at hcont
          cases hcont
    · intro k d m r s out _ hk ha m' hm hcont
      rcases mem_issued_post hm with hm | ⟨call, hc, rfl⟩
      · exact (hq _ hm hcont).mono
      · rcases answer_cases ha with
          ⟨rfl, rfl⟩ | ⟨u, -, -, rfl, rfl⟩ | ⟨-, -, -, rfl, rfl⟩ | ⟨hcheck, -, -, rfl, rfl⟩
        · cases hc
        · cases hc
        · rw [List.mem_singleton.mp hc] at hcont
          cases hcont
        · -- the page asked, so it has its user
          have hissued := (inFlightIssued hr).2 _ (List.mem_of_getElem? hk)
          have huser := (lookedUp hr).found m.client (askersFound hr m hissued hcheck)
          refine ⟨c.clients m.client, huser, hc, fun call' hc' => ?_⟩
          exact List.mem_append_right _ (List.mem_map.mpr ⟨call', hc', rfl⟩)

end Reach

/-! ## The two stores once nothing is in flight -/

section Settled

variable {c : GroupConfig ι}

omit [DecidableEq ι] in
theorem saved_shared (s : NewGroupState) :
    ⟨.written, .setData (groupPath s.groupType (interpInt s.groupId)) (groupDoc s)⟩ ∈ saved s :=
  mem_saved.mpr (Or.inl rfl)

omit [DecidableEq ι] in
theorem saved_own (s : NewGroupState) : ⟨.written, .setData (userGroupPath (interp s.mCurrentUser)
    (interpInt s.groupId)) (groupDoc s)⟩ ∈ saved s :=
  mem_saved.mpr (Or.inr (Or.inl rfl))

/-- A call that stores something belongs to a saved group. -/
theorem saved_of_stores {C : GroupConfig ι → GroupAction ι → Prop}
    (h : (groupSystem ι).Reach C c) {m : GroupMessage ι} (hm : m ∈ c.issued) {p : Path} {d : Doc}
    (hd : m.call.req.Stores p d) : SavedWith c.issued m := by
  obtain ⟨s, hs⟩ := (sent h m hm).stores hd
  exact allSaved h m hm (saved_cont hs)

/-- A group that has been created, and the state of the page that saved it. -/
theorem state_of_creation {C : GroupConfig ι → GroupAction ι → Prop}
    (h : (groupSystem ι).Reach C c) {g : Creation} (hg : g ∈ creations c) :
    ∃ s i cause u, s.mCurrentUser = some u ∧
      g = ⟨s.groupType, interpInt s.groupId, groupDoc s⟩ ∧
      ∀ call ∈ saved s, ⟨i, call, cause⟩ ∈ c.issued := by
  obtain ⟨m, hm, hreq⟩ := mem_creations.mp hg
  have hd : m.call.req.Stores (groupPath g.type g.id) g.doc := by
    rw [hreq]
    exact ⟨rfl, rfl⟩
  obtain ⟨s, huser, hmem, hall⟩ := saved_of_stores h hm hd
  obtain ⟨u, hu⟩ := Option.ne_none_iff_exists'.mp huser
  refine ⟨s, m.client, m.cause, u, hu, ?_, hall⟩
  rcases stores_saved hmem hd with ⟨hp, hdoc⟩ | ⟨hp, -⟩ | hp
  · simp only [groupPath, List.cons.injEq, and_true, true_and] at hp
    rw [← hp.1, ← hp.2, ← hdoc]
  · exact absurd (List.cons.inj hp).1 (by decide)
  · exact absurd (List.cons.inj hp).1 (by decide)

omit [DecidableEq ι] in
/-- Every group that is saved is a creation. -/
theorem creation_of_state {s : NewGroupState} {i : ι} {cause : List (Call Cont × Answer)}
    (hall : ∀ call ∈ saved s, ⟨i, call, cause⟩ ∈ c.issued) :
    ⟨s.groupType, interpInt s.groupId, groupDoc s⟩ ∈ creations c :=
  mem_creations.mpr ⟨_, hall _ (saved_shared s), rfl⟩

theorem groupDoc_host {s : NewGroupState} {u : String} (h : s.mCurrentUser = some u) :
    (groupDoc s).field "host" = .str u := by
  rw [groupDoc, h]
  rfl

theorem groupDoc_groupid (s : NewGroupState) :
    (groupDoc s).field "groupid" = .ofInt s.groupId := rfl

theorem mCurrentUser_of_host {s : NewGroupState} {u : String}
    (h : (groupDoc s).field "host" = .str u) : s.mCurrentUser = some u := by
  have hhost : Value.ofString s.mCurrentUser = .str u := h
  cases hs : s.mCurrentUser with
  | none =>
      rw [hs] at hhost
      cases hhost
  | some v =>
      rw [hs] at hhost
      rw [Value.str.inj hhost]

/-- The run has made progress from its start. -/
theorem progress (h : (groupSystem ι).Reach (Chosen (accepted ι)) c) :
    ∃ b : Backend ι, b.db = ∅ ∧ Progress (accepted ι) (start b) c ∧
      since (start b) c = c.issued := by
  obtain ⟨_, ⟨b, hb, rfl⟩, hs⟩ := h
  exact ⟨b, hb, Progress.of_steps ⟨rfl, rfl⟩ (fun _ _ hC => hC) hs, rfl⟩

/-- A document was stored by a call. -/
theorem stored_by (h : (groupSystem ι).Reach (Chosen (accepted ι)) c) {p : Path} {d : Doc}
    (hget : DocStore.get c.backend.db p = some d) : ∃ m ∈ c.issued, m.call.req.Stores p d := by
  obtain ⟨b, hb, hprogress, hsince⟩ := progress h
  rcases hprogress.origin p with hsame | ⟨m, hm, -, d', hd', hget'⟩
  · have hnone : DocStore.get (start b).backend.db p = none := by
      rw [start, Config.start, hb, DocStore.get_empty]
    rw [hget, hnone] at hsame
    cases hsame
  · rw [hget] at hget'
    obtain rfl := Option.some.inj hget'
    exact ⟨m, hsince ▸ hm, hd'⟩

/-- A call that alone stores at its path has stored. -/
theorem stored_at (h : (groupSystem ι).Reach (Chosen (accepted ι)) c) (hq : c.Quiet)
    {m : GroupMessage ι} {p : Path} {d : Doc} (hm : m ∈ c.issued) (hreq : m.call.req = .setData p d)
    (honly : ∀ m' ∈ c.issued, ∀ d', m'.call.req.Stores p d' → m' = m) :
    DocStore.get c.backend.db p = some d := by
  obtain ⟨b, -, hprogress, hsince⟩ := progress h
  exact hprogress.get_stored hq (hsince.symm ▸ hm) hreq fun m' hm' => honly m' (hsince ▸ hm')

/-- The shared store holds only groups that have been created. -/
theorem creation_of_group (h : (groupSystem ι).Reach (Chosen (accepted ι)) c) {type id : String}
    {d : Doc} (hget : DocStore.get c.backend.db (groupPath type id) = some d) :
    ⟨type, id, d⟩ ∈ creations c := by
  obtain ⟨m, hm, hd⟩ := stored_by h hget
  obtain ⟨s, -, hmem, hall⟩ := saved_of_stores h hm hd
  rcases stores_saved hmem hd with ⟨hp, rfl⟩ | ⟨hp, -⟩ | hp
  · simp only [groupPath, List.cons.injEq, and_true, true_and] at hp
    rw [hp.1, hp.2]
    exact creation_of_state hall
  · exact absurd (List.cons.inj hp).1 (by decide)
  · exact absurd (List.cons.inj hp).1 (by decide)

/-- The shared store holds every group that has been created. -/
theorem group_of_creation (h : (groupSystem ι).Reach (Chosen (accepted ι)) c) (hq : c.Quiet)
    (hdistinct : DistinctIds c) {g : Creation} (hg : g ∈ creations c) :
    DocStore.get c.backend.db (groupPath g.type g.id) = some g.doc := by
  obtain ⟨m, hm, hreq⟩ := mem_creations.mp hg
  refine stored_at h hq hm hreq ?_
  intro m' hm' d' hd'
  obtain ⟨s, -, hmem, -⟩ := saved_of_stores h hm' hd'
  rcases mem_saved.mp hmem with hcall | hcall | hcall <;> rw [hcall] at hd'
  · have hreq' : m'.call.req = .setData (groupPath g.type g.id) (groupDoc s) := by
      rw [hcall, hd'.1]
    exact hdistinct.eq hm hm' hreq hreq'
  · exact absurd (List.cons.inj hd'.1).1 (by decide)
  · exact absurd (List.cons.inj hd'.1).1 (by decide)

/-- A document in a user's list is the copy of a group of that user. -/
theorem creation_of_copy (h : (groupSystem ι).Reach (Chosen (accepted ι)) c) {u k : String}
    {d : Doc} (hget : DocStore.get c.backend.db (userGroupPath u k) = some d) :
    ∃ s, k = interpInt s.groupId ∧ d = groupDoc s := by
  obtain ⟨m, hm, hd⟩ := stored_by h hget
  obtain ⟨s, -, hmem, -⟩ := saved_of_stores h hm hd
  rcases stores_saved hmem hd with ⟨hp, -⟩ | ⟨hp, hdoc⟩ | hp
  · exact absurd (List.cons.inj hp).1 (by decide)
  · simp only [userGroupPath, List.cons.injEq, and_true, true_and] at hp
    exact ⟨s, hp.2, hdoc⟩
  · simp [userGroupPath, creationPath] at hp

/-- If no host has two groups with one id, a group of `u` is in the list of `u` under its id. -/
theorem copy_of_creation (h : (groupSystem ι).Reach (Chosen (accepted ι)) c) (hq : c.Quiet)
    (hdistinct : DistinctIds c) (hclash : NoClash c) {g : Creation} (hg : g ∈ creations c)
    {u : String} (hhost : g.doc.field "host" = .str u) :
    DocStore.get c.backend.db (userGroupPath u g.id) = some g.doc := by
  obtain ⟨s, i, cause, v, hv, rfl, hall⟩ := state_of_creation h hg
  obtain rfl : v = u := Option.some.inj (hv.symm.trans (mCurrentUser_of_host hhost))
  have hown := hall _ (saved_own s)
  rw [hv] at hown
  refine stored_at h hq hown rfl ?_
  intro m' hm' d' hd'
  obtain ⟨s', huser', hmem', hall'⟩ := saved_of_stores h hm' hd'
  rcases mem_saved.mp hmem' with hcall | hcall | hcall <;> rw [hcall] at hd'
  · exact absurd (List.cons.inj hd'.1).1 (by decide)
  · -- the other group has the same host and the same id, so it is the same call
    have hp := hd'.1
    simp only [userGroupPath, List.cons.injEq, and_true, true_and] at hp
    obtain ⟨w, hw⟩ := Option.ne_none_iff_exists'.mp huser'
    have hvw : v = w := by
      have hinterp := hp.1
      rw [hw] at hinterp
      exact hinterp
    subst hvw
    have htype : s.groupType = s'.groupType := hclash _ hg _ (creation_of_state hall')
      ((groupDoc_host hv).trans (groupDoc_host hw).symm) hp.2
    have hpath : groupPath s'.groupType (interpInt s'.groupId) =
        groupPath s.groupType (interpInt s.groupId) := by
      rw [htype, hp.2]
    have hsame := hdistinct.eq (hall _ (saved_shared s)) (hall' _ (saved_shared s')) rfl
      (congrArg (Request.setData · (groupDoc s')) hpath)
    obtain ⟨hclient, hcallEq, hcause⟩ := Message.mk.inj hsame
    have hdoc : groupDoc s' = groupDoc s := (Request.setData.inj (Call.mk.inj hcallEq).2).2
    calc m' = ⟨m'.client, m'.call, m'.cause⟩ := rfl
      _ = _ := by rw [hclient, hcause, hcall, hw, hdoc, ← hp.2]
  · exact absurd hd'.1 (by simp [userGroupPath, creationPath])

end Settled

/-- In every run in which all writes are accepted and no two groups of one type have the same id,
once nothing is in flight, every host's list mirrors the host's groups if and only if no host has
two groups with one id. -/
theorem mirror_iff {c : GroupConfig ι} (h : (groupSystem ι).Reach (Chosen (accepted ι)) c)
    (hq : c.Quiet) (hdistinct : DistinctIds c) : Mirror c.backend.db ↔ NoClash c := by
  constructor
  · rintro ⟨copy, hcopy, hinj⟩ g hg g' hg' hhost hid
    obtain ⟨s, i, cause, u, hu, rfl, -⟩ := state_of_creation h hg
    obtain ⟨s', i', cause', u', hu', rfl, -⟩ := state_of_creation h hg'
    have hget := group_of_creation h hq hdistinct hg
    have hget' := group_of_creation h hq hdistinct hg'
    have hown : (groupDoc s).field "host" = .str u := groupDoc_host hu
    have hown' : (groupDoc s').field "host" = .str u := hhost.symm.trans hown
    -- a copy lies under the id it shows, so both copies are one document
    have hplace : ∀ {t : NewGroupState},
        DocStore.get c.backend.db (groupPath t.groupType (interpInt t.groupId)) =
          some (groupDoc t) → (groupDoc t).field "host" = .str u →
        copy t.groupType (interpInt t.groupId) = interpInt t.groupId := by
      intro t ht hhost
      obtain ⟨d, hd, hsame⟩ := hcopy _ _ _ _ ht hhost
      obtain ⟨t', hk, rfl⟩ := creation_of_copy h hd
      have hgroupid := hsame "groupid" (by simp)
      rw [groupDoc_groupid, groupDoc_groupid, Value.ofInt_inj] at hgroupid
      rw [hk, hgroupid]
    have hcopies : copy s.groupType (interpInt s.groupId) =
        copy s'.groupType (interpInt s'.groupId) := by
      rw [hplace hget hown, hplace hget' hown']
      exact hid
    exact (hinj _ _ _ _ _ _ _ hget hget' hown hown' hcopies).1
  · intro hclash
    -- the copy of a group lies under the group's own id
    refine ⟨fun _ id => id, ?_, ?_⟩
    · intro type id d u hget hhost
      have hg := creation_of_group h hget
      exact ⟨d, copy_of_creation h hq hdistinct hclash hg hhost, fun _ _ => rfl⟩
    · intro type id d type' id' d' u hget hget' hhost hhost' hid
      have htype := hclash _ (creation_of_group h hget) _ (creation_of_group h hget')
        (hhost.trans hhost'.symm) hid
      exact ⟨htype, hid⟩

/-! ## Two groups of one host -/

/-- A public group and a private one, saved one after the other under the draws `r` and `r'`. -/
def createTwo (r r' : Draw) : List (GroupAction Unit) :=
  openPage ++ [.event () (.pressCreate r)] ++ saveAlone ++ [.event () .tapPrivate] ++
    [.event () (.pressCreate r')] ++ saveAlone

/-- What the two stores hold for Ola. -/
structure Stores where
  quiet : Bool
  distinct : Bool
  noClash : Bool
  groups : List (String × String × Option Doc)
  list : List String
  deriving DecidableEq

def storesOf (keys : List (String × String)) (c : GroupConfig Unit) : Stores :=
  ⟨decide c.Quiet, decide (DistinctIds c), decide (NoClash c),
    keys.map fun k => (k.1, k.2, DocStore.get c.backend.db (groupPath k.1 k.2)),
    (DocStore.documents c.backend.db ["users", "ola", "groups"]).map (·.1)⟩

def olaGroup (id : Nat) : Doc :=
  [("groupid", .int id), ("name", .str "unnamed"), ("info", .str ""), ("host", .str "ola")]

theorem mirror_iff_ola : ∃ c : GroupConfig Unit,
    (groupSystem Unit).follow (Chosen (accepted Unit)) (start withOla) (createTwo 7 8) = some c ∧
      Mirror c.backend.db := by
  have hrun : ((groupSystem Unit).follow (Chosen (accepted Unit)) (start withOla)
      (createTwo 7 8)).map (storesOf [("public", "7"), ("private", "8")])
      = some ⟨true, true, true,
          [("public", "7", some (olaGroup 7)), ("private", "8", some (olaGroup 8))],
            ["8", "7"]⟩ := by
    decide +kernel
  obtain ⟨c, hc, heq⟩ := Option.map_eq_some_iff.mp hrun
  obtain ⟨hquiet, hdistinct, hclash, -, -⟩ := Stores.mk.inj heq
  exact ⟨c, hc, (mirror_iff (Machine.Reach.of_follow ⟨_, rfl, rfl⟩ hc) (of_decide_eq_true hquiet)
    (of_decide_eq_true hdistinct)).mpr (of_decide_eq_true hclash)⟩

/-- The draw 7 comes up once for a public group and once for a private one. Both groups are stored,
and the list of their host shows one. -/
theorem not_mirror : ¬ ∀ c : GroupConfig Unit,
    (groupSystem Unit).Reach (Chosen (accepted Unit)) c → c.Quiet → DistinctIds c →
      Mirror c.backend.db := by
  intro h
  have hrun : ((groupSystem Unit).follow (Chosen (accepted Unit)) (start withOla)
      (createTwo 7 7)).map (storesOf [("public", "7"), ("private", "7")])
      = some ⟨true, true, false,
          [("public", "7", some (olaGroup 7)), ("private", "7", some (olaGroup 7))], ["7"]⟩ := by
    decide +kernel
  obtain ⟨c, hc, heq⟩ := Option.map_eq_some_iff.mp hrun
  obtain ⟨hquiet, hdistinct, -, hgroups, hlist⟩ := Stores.mk.inj heq
  obtain ⟨copy, hcopy, hinj⟩ := h c (Machine.Reach.of_follow ⟨_, rfl, rfl⟩ hc)
    (of_decide_eq_true hquiet) (of_decide_eq_true hdistinct)
  have hpublic : DocStore.get c.backend.db (groupPath "public" "7") = some (olaGroup 7) :=
    (Prod.mk.inj (Prod.mk.inj (List.cons.inj hgroups).1).2).2
  have hprivate : DocStore.get c.backend.db (groupPath "private" "7") = some (olaGroup 7) :=
    (Prod.mk.inj (Prod.mk.inj (List.cons.inj (List.cons.inj hgroups).2).1).2).2
  -- the list has one document, so both groups would have the same copy
  have honly : ∀ k d, DocStore.get c.backend.db (userGroupPath "ola" k) = some d → k = "7" := by
    intro k d hget
    have hmem : (k, d) ∈ DocStore.documents c.backend.db ["users", "ola", "groups"] :=
      DocStore.mem_documents.mpr hget
    have hk : k ∈ (DocStore.documents c.backend.db ["users", "ola", "groups"]).map (·.1) :=
      List.mem_map.mpr ⟨_, hmem, rfl⟩
    rw [hlist] at hk
    exact List.mem_singleton.mp hk
  obtain ⟨d, hd, -⟩ := hcopy _ _ _ "ola" hpublic rfl
  obtain ⟨d', hd', -⟩ := hcopy _ _ _ "ola" hprivate rfl
  have hsame := hinj _ _ _ _ _ _ "ola" hpublic hprivate rfl rfl
    ((honly _ _ hd).trans (honly _ _ hd').symm)
  exact absurd hsame.1 (by decide)

end P0ker.Groups
