import P0ker.Writes
import P0ker.Pages.Together

/-!
# The schema of the store

What a profile, a friend, a group of a user and a `creation/0` look like is declared nowhere: the
pages that write them and the pages that read them agree on it by themselves. `Conforms` writes it
down, and `schema` says that every store the pages build up from nothing conforms, so that no page
ever reads a field that is not there.
-/

namespace P0ker.Schema

open Async Pages
open Login (userPath)
open UserSearch (friendPath)
open NewGroup (userGroupPath creationPath)

/-! ## Schema -/

def HasString (d : Doc) (name : String) : Prop :=
  ∃ s, d.field name = .str s

def HasInt (d : Doc) (name : String) : Prop :=
  ∃ n, d.field name = .int n

/-- What the pages rely on in a document, by its path. -/
structure Conforms (p : Path) (d : Doc) : Prop where
  profile : ∀ k, p = userPath (some k) → d.field "uid" = .str k ∧ HasString d "brukernavn"
  friend : ∀ u f, p = friendPath u f → HasString d "brukernavn"
  group : ∀ u g, p = userGroupPath u g → HasString d "name" ∧ HasString d "info"
  creation : ∀ u, p = creationPath u →
    HasInt d "id" ∧ (d.field "type" = .str "public" ∨ d.field "type" = .str "private")

/-- The fields that the rows of `_fireSearch`, `_buildListItem` and `_groupSearch`, and the answer
of `getGroupStatus`, read from the document at a path. -/
inductive Reads : Path → String → Prop
  | fireSearchName (k : String) : Reads (userPath (some k)) "brukernavn"
  | fireSearchUid (k : String) : Reads (userPath (some k)) "uid"
  | buildListItem (u f : String) : Reads (friendPath u f) "brukernavn"
  | groupSearchName (u g : String) : Reads (userGroupPath u g) "name"
  | groupSearchInfo (u g : String) : Reads (userGroupPath u g) "info"
  | groupStatusId (u : String) : Reads (creationPath u) "id"
  | groupStatusType (u : String) : Reads (creationPath u) "type"

theorem HasString.ne_null {d : Doc} {name : String} (h : HasString d name) :
    d.field name ≠ .null := by
  obtain ⟨s, hs⟩ := h
  rw [hs]
  nofun

/-- No field that is read from a document that conforms is missing. -/
theorem Conforms.read {p : Path} {d : Doc} (h : Conforms p d) {name : String}
    (hr : Reads p name) : d.field name ≠ .null := by
  cases hr with
  | fireSearchName k => exact (h.profile k rfl).2.ne_null
  | fireSearchUid k =>
      rw [(h.profile k rfl).1]
      nofun
  | buildListItem u f => exact (h.friend u f rfl).ne_null
  | groupSearchName u g => exact (h.group u g rfl).1.ne_null
  | groupSearchInfo u g => exact (h.group u g rfl).2.ne_null
  | groupStatusId u =>
      obtain ⟨n, hn⟩ := (h.creation u rfl).1
      rw [hn]
      nofun
  | groupStatusType u =>
      rcases (h.creation u rfl).2 with ht | ht <;> rw [ht] <;> nofun

/-! ## The documents that are written -/

theorem conforms_profile (k name : String) (email : Option String) : Conforms (userPath (some k))
    [("uid", .str k), ("email", .ofString email), ("brukernavn", .str name)] where
  profile k' h := by
    obtain rfl : k = k' := by simpa [userPath, interp] using h
    exact ⟨rfl, name, rfl⟩
  friend u f h := by simp [userPath, friendPath] at h
  group u g h := by simp [userPath, userGroupPath] at h
  creation u h := by simp [userPath, creationPath] at h

theorem conforms_friend (u f name : String) (uid : Option String) : Conforms (friendPath u f)
    [("brukernavn", .str name), ("uid", .ofString uid)] where
  profile k h := by simp [userPath, friendPath] at h
  friend _ _ _ := ⟨name, rfl⟩
  group u' g h := by simp [friendPath, userGroupPath] at h
  creation u' h := by simp [friendPath, creationPath] at h

theorem conforms_group (u g : String) (s : NewGroup.NewGroupState) :
    Conforms (userGroupPath u g) (NewGroup.groupDoc s) where
  profile k h := by simp [userPath, userGroupPath] at h
  friend u' f h := by simp [friendPath, userGroupPath] at h
  group _ _ _ := ⟨⟨s.groupName, rfl⟩, s.groupInfo, rfl⟩
  creation u' h := by simp [userGroupPath, creationPath] at h

theorem conforms_creation (u : String) (id : Nat) {type : String}
    (ht : type = "public" ∨ type = "private") :
    Conforms (creationPath u) [("id", .ofInt (some id)), ("type", .str type)] where
  profile k h := by simp [userPath, creationPath] at h
  friend u' f h := by simp [friendPath, creationPath] at h
  group u' g h := by simp [userGroupPath, creationPath] at h
  creation _ _ := by
    refine ⟨⟨id, rfl⟩, ?_⟩
    rcases ht with rfl | rfl
    · exact Or.inl rfl
    · exact Or.inr rfl

/-- The games of a user are read by nobody. -/
theorem conforms_userGame (u g : String) (d : Doc) : Conforms (NewGame.userGamePath u g) d where
  profile k h := by simp [userPath, NewGame.userGamePath] at h
  friend u' f h := by simp [friendPath, NewGame.userGamePath] at h
  group u' g' h := by simp [userGroupPath, NewGame.userGamePath] at h
  creation u' h := by simp [creationPath, NewGame.userGamePath] at h

/-- Nor is anything under `groups`. -/
theorem conforms_groups (p : Path) (d : Doc) : Conforms ("groups" :: p) d where
  profile k h := by simp [userPath] at h
  friend u f h := by simp [friendPath] at h
  group u g h := by simp [userGroupPath] at h
  creation u h := by simp [creationPath] at h

/-! ## What the handlers write -/

theorem friend_conforms {profile : Doc} {s : UserSearch.DisplaySearchState} {u f : String}
    (h : HasString profile "brukernavn") : Conforms (friendPath u f)
      [("brukernavn", .ofString (UserSearch.readProfile profile s).friendUsername),
        ("uid", .ofString (UserSearch.readProfile profile s).friendUserId)] := by
  obtain ⟨name, hname⟩ := h
  have hstring : profile.string "brukernavn" = some name := by
    rw [Doc.string, hname]
  simp only [UserSearch.readProfile, hstring]
  exact conforms_friend u f name _

/-- A NewGroup page makes groups of the two types. -/
def TypeKnown : Page → Prop
  | .newGroup s => s.groupType = "public" ∨ s.groupType = "private"
  | _ => True

theorem typeKnown_event {page page' : Page} {e : Event} {out : List (Call Cont)}
    (ht : TypeKnown page) (h : onEvent page e = some (page', out)) : TypeKnown page' := by
  cases (raised h).2 with
  | newGroup hs => exact NewGroup.groupType_of_onEvent hs ht
  | login | gamePage | newGame | search | friends => trivial

theorem typeKnown_answer {page : Page} (cont : Cont) (a : Answer) (r : Draw)
    (ht : TypeKnown page) : TypeKnown (onAnswer page cont a r).1 := by
  have hcases := answered page cont a r
  revert hcases
  generalize onAnswer page cont a r = res
  obtain ⟨page', out⟩ := res
  intro hcases
  cases hcases with
  | @newGroup s cont =>
      show _ ∨ _
      rw [NewGroup.groupType_onAnswer]
      exact ht
  | idle => exact ht
  | login | gamePage | newGame | search | friends => trivial

/-- What is written on an answer conforms, if what the answer shows does. -/
theorem answer_conforms {a : Answer} {page page' : Page} {cont : Cont} {r req : Request}
    (h : AnswerWrites a page cont page' r) (hready : Relies cont → Ready page)
    (ht : TypeKnown page) (hfetch : cont = .search .fetch → ∃ uid, req = .get (userPath uid))
    (hshown : a.Shows Conforms req) {p : Path} {d : Doc} (hp : r.Stores p d) : Conforms p d := by
  cases h with
  | profile s k =>
      obtain ⟨rfl, rfl⟩ := hp
      -- `_username` was set before the account was asked for
      obtain ⟨name, hname⟩ := Option.ne_none_iff_exists'.mp (hready trivial)
      rw [hname]
      exact conforms_profile k name s.email
  | game s call hc =>
      rcases NewGame.mem_saveGame.mp hc with rfl | rfl <;> obtain ⟨rfl, rfl⟩ := hp
      · exact conforms_groups _ _
      · exact conforms_userGame _ _ _
  | group s call hc =>
      -- the id was drawn before the query for it
      obtain ⟨id, hid⟩ := Option.ne_none_iff_exists'.mp (hready trivial).2
      rcases NewGroup.mem_saved.mp hc with rfl | rfl | rfl <;> obtain ⟨rfl, rfl⟩ := hp
      · exact conforms_groups _ _
      · exact conforms_group _ _ s
      · rw [hid]
        exact conforms_creation _ id ht
  | friend s profile =>
      obtain ⟨rfl, rfl⟩ := hp
      obtain ⟨uid, rfl⟩ := hfetch rfl
      -- the answer shows a profile, which has a name
      exact friend_conforms (hshown.profile (interp uid) rfl).2

/-- `_fetch` is called by a tap, and reads a profile. -/
theorem fetch_event {page page' : Page} {e : Event} {out : List (Call Cont)} {call : Call Cont}
    (h : onEvent page e = some (page', out)) (hc : call ∈ out)
    (hcont : call.cont = .search .fetch) : ∃ uid, call.req = .get (userPath uid) := by
  cases (raised h).2 with
  | search hs =>
      obtain ⟨c, hmem, rfl⟩ := mem_lift.mp hc
      rcases UserSearch.onEvent_reads hs hmem with rfl | ⟨uid, rfl⟩
      · cases hcont
      · exact ⟨uid, rfl⟩
  | login => exact absurd hcont (lift_ne (fun p c => by cases c <;> nofun) _ call hc)
  | gamePage => exact absurd hcont (lift_ne (fun p c => by cases c; nofun) _ call hc)
  | newGame => exact absurd hcont (lift_ne (fun p c => by cases c <;> nofun) _ call hc)
  | newGroup => exact absurd hcont (lift_ne (fun p c => by cases c <;> nofun) _ call hc)
  | friends => exact absurd hcont (lift_ne (fun p c => by cases c <;> nofun) _ call hc)

theorem fetch_answer {page page' : Page} {cont : Cont} {a : Answer} {r : Draw}
    {out : List (Call Cont)} (h : onAnswer page cont a r = (page', out)) :
    ∀ call ∈ out, call.cont ≠ .search .fetch := by
  have hcases := answered page cont a r
  rw [h] at hcases
  cases hcases with
  | search s cont =>
      intro call hc
      obtain ⟨c, hmem, rfl⟩ := mem_lift.mp hc
      rcases UserSearch.onAnswer_cases s cont a with h | ⟨u, -, -, h⟩ | ⟨profile, -, -, -, h⟩ <;>
        rw [h] at hmem
      · cases hmem
      · cases hmem
      · obtain rfl := List.mem_singleton.mp hmem
        nofun
  | idle => exact List.forall_mem_nil _
  | login => exact lift_ne (fun p c => by cases c <;> nofun) _
  | gamePage => exact lift_ne (fun p c => by cases c; nofun) _
  | newGame => exact lift_ne (fun p c => by cases c <;> nofun) _
  | newGroup => exact lift_ne (fun p c => by cases c <;> nofun) _
  | friends => exact lift_ne (fun p c => by cases c <;> nofun) _

/-! ## Every run -/

section Reach

variable {ι : Type} [DecidableEq ι] {c c' : PageConfig ι}

/-- The pages, from a backend that holds no document. -/
abbrev fromEmpty (ι : Type) [DecidableEq ι] : Machine (PageConfig ι) (PageAction ι) :=
  pages ι fun b => b.db = ∅

theorem typeKnown {C : PageConfig ι → PageAction ι → Prop} (h : (fromEmpty ι).Reach C c) (i : ι) :
    TypeKnown (c.clients i) := by
  refine Reach.clients (I := TypeKnown) h ?_ (fun _ _ _ _ ht he => typeKnown_event ht he) ?_ i
  · rintro _ ⟨p, b, hp, -, rfl⟩ i
    have hnew := hp i
    show TypeKnown (p i)
    cases hpage : p i with
    | newGroup s =>
        rw [hpage] at hnew
        obtain rfl : s = {} := hnew
        exact Or.inl rfl
    | login | gamePage | newGame | search | friends => trivial
  · intro page call a r page' out ht ha
    obtain ⟨rfl, -⟩ := Prod.mk.inj ha
    exact typeKnown_answer call.cont a r ht

/-- `_fetch` reads a profile. -/
theorem fetch_reads {C : PageConfig ι → PageAction ι → Prop} (h : (fromEmpty ι).Reach C c) :
    ∀ m ∈ c.issued, m.call.cont = .search .fetch → ∃ uid, m.call.req = .get (userPath uid) := by
  refine Reach.issued (K := fun m => m.call.cont = .search .fetch →
    ∃ uid, m.call.req = .get (userPath uid)) h ?_ ?_ ?_
  · rintro _ ⟨p, b, -, -, rfl⟩
    exact ⟨InFlightIssued.start _ _ _, List.forall_mem_nil _⟩
  · exact fun c i e page' out _ _ he call hc hcont => fetch_event he hc hcont
  · exact fun c k m a r page' out _ _ _ _ ha call hc hcont => absurd hcont (fetch_answer ha call hc)

/-- Every document conforms, wherever it is. -/
theorem keeps {C : PageConfig ι → PageAction ι → Prop} (h : (fromEmpty ι).Reach C c) :
    Keeps Conforms c := by
  refine Reach.keeps h ?_ ?_ ?_
  · rintro _ ⟨p, b, -, hb, rfl⟩
    refine ⟨InFlightIssued.start _ _ _, ?_, List.forall_mem_nil _, List.forall_mem_nil _⟩
    intro q d hd
    rw [show (Config.start p b []).backend.db = ∅ from hb, DocStore.get_empty] at hd
    cases hd
  · intro c i e page' out _ he call hc p d hp
    obtain ⟨s, -, -, -, rfl⟩ := event_writes he hc hp.writes
    obtain ⟨⟨id, rfl⟩, -⟩ := hp
    exact conforms_groups _ _
  · intro c m a r page' out hr hm hshown ha call hc p d hp
    exact answer_conforms (answer_writes ha hc hp.writes).1 (ready hr m hm)
      (typeKnown hr m.client) (fetch_reads hr m hm) hshown hp

/-- A document stays, though its fields may change. -/
theorem stays {C : PageConfig ι → PageAction ι → Prop} (h : (fromEmpty ι).Steps C c c') {p : Path}
    (hp : DocStore.get c.backend.db p ≠ none) : DocStore.get c'.backend.db p ≠ none := by
  refine h.preserves (P := fun c => DocStore.get c.backend.db p ≠ none) hp ?_
  intro c a c' hp _ hs
  refine step_keeps (Q := fun c => DocStore.get c.backend.db p ≠ none) hs (fun _ _ _ _ _ _ => hp)
    ?_ (fun _ _ _ _ _ _ _ _ _ => hp)
  intro k o m b r _ _ hserve
  -- a write may replace a document, and none removes one
  rcases Backend.serve_stores hserve p with hsame | ⟨-, d, -, hd⟩
  · rw [Config.served_backend, hsame]
    exact hp
  · rw [Config.served_backend, hd]
    nofun

/-- **Writers and readers agree.** In every store that the pages build up from nothing, every
document conforms, and no field that a page reads from it is missing; and a tap on a row, whenever
the row was listed, reads the profile of that row, which is there for good. -/
theorem schema (h : (fromEmpty ι).Reachable c) :
    (∀ p d, DocStore.get c.backend.db p = some d →
      Conforms p d ∧ ∀ name, Reads p name → d.field name ≠ .null) ∧
    ∀ k row, DocStore.get c.backend.db (userPath (some k)) = some row →
      (∀ s s' out, UserSearch.onEvent s (.tapAdd row) = some (s', out) →
        out = [⟨.fetch, .get (userPath (some k))⟩]) ∧
      ∀ c', (fromEmpty ι).Steps (fun _ _ => True) c c' →
        ∃ profile, DocStore.get c'.backend.db (userPath (some k)) = some profile ∧
          profile.field "uid" = .str k := by
  have hconforms := (keeps h).stored
  refine ⟨fun p d hd => ⟨hconforms p d hd, fun _ hr => (hconforms p d hd).read hr⟩, ?_⟩
  intro k row hrow
  have huid : row.string "uid" = some k := by
    rw [Doc.string, ((hconforms _ _ hrow).profile k rfl).1]
  refine ⟨?_, ?_⟩
  · intro s s' out he
    cases UserSearch.ran he with
    | tapNull _ _ _ hnull => exact absurd (huid.symm.trans hnull) nofun
    | tapAdd _ uid _ _ hsome =>
        obtain rfl := Option.some.inj (huid.symm.trans hsome)
        rfl
  · intro c' hs
    have hstored := stays hs (hrow ▸ Option.some_ne_none row)
    obtain ⟨profile, hprofile⟩ := Option.ne_none_iff_exists'.mp hstored
    exact ⟨profile, hprofile, (((keeps (h.steps hs)).stored _ _ hprofile).profile k rfl).1⟩

/-- Every row of the GamePage has a name and a text. -/
theorem row_complete (h : (fromEmpty ι).Reachable c) (s : GamePage.GamePageState) :
    ∀ r ∈ GamePage.setScreen s c.backend.db, r.1 ≠ none ∧ r.2 ≠ none := by
  intro r hr
  rw [GamePage.setScreen] at hr
  split at hr
  · obtain ⟨⟨id, d⟩, hmem, rfl⟩ := List.mem_map.mp hr
    have hd := DocStore.mem_documents.mp hmem
    obtain ⟨⟨name, hname⟩, info, hinfo⟩ := ((keeps h).stored _ d hd).group _ id rfl
    simp [GamePage.row, Doc.string, hname, hinfo]
  · cases hr

/-- Every `creation/0` tells the Friends page a group. -/
theorem groupStatus_complete (h : (fromEmpty ι).Reachable c) {u : String} {d : Doc}
    (hd : DocStore.get c.backend.db (creationPath u) = some d) {s : Friends.HomeeState}
    (hm : s.mounted = true) :
    (Friends.groupStatusGot s (some d)).groupId ≠ none ∧
      (Friends.groupStatusGot s (some d)).type ≠ none := by
  obtain ⟨⟨id, hid⟩, htype⟩ := ((keeps h).stored _ d hd).creation u rfl
  rcases htype with htype | htype <;>
    simp [Friends.groupStatusGot, hm, Doc.int, Doc.string, hid, htype]

end Reach

/-! ## A run -/

section Example

/-- A Login form, a search page and a NewGroup page on the device of `u1`. -/
def threePages : Fin 3 → Page
  | 0 => .login {}
  | 1 => .search {}
  | 2 => .newGroup {}

def start : PageConfig (Fin 3) :=
  Config.start threePages ⟨∅, ∅, fun _ => some "u1"⟩ []

/-- The next call is evaluated and its answer handled. -/
def home (fresh : String) : List (PageAction (Fin 3)) :=
  [.serve 0 (.accept fresh), .deliver 0 0]

def olaProfile : Doc :=
  [("uid", .str "u1"), ("email", .str "o@p"), ("brukernavn", .str "ola")]

/-- Ola registers, befriends himself and makes a group. -/
def olaRun : List (PageAction (Fin 3)) :=
  ([.event 0 (.login .moveToRegister), .event 0 (.login (.editUsername "Ola")),
    .event 0 (.login (.editEmail "o@p")), .event 0 (.login (.editPassword "x")),
    .event 0 (.login .pressRegister)] : List (PageAction (Fin 3))) ++
    home "" ++ home "u1" ++ home "" ++
  ([.event 1 (.search .initState)] : List (PageAction (Fin 3))) ++ home "" ++
  ([.event 1 (.search .beginSearch), .event 1 (.search (.onSubmitted "Ola")),
    .event 1 (.search .build), .event 1 (.search (.snapshot (some [olaProfile]))),
    .event 1 (.search (.tapAdd olaProfile))] : List (PageAction (Fin 3))) ++ home "" ++ home "" ++
  ([.event 2 (.newGroup .initState)] : List (PageAction (Fin 3))) ++ home "" ++
  ([.event 2 (.newGroup (.pressCreate 7))] : List (PageAction (Fin 3))) ++
    home "" ++ home "" ++ home "" ++ home ""

theorem start_opened : (fromEmpty (Fin 3)).init start :=
  ⟨threePages, _, fun | 0 => rfl | 1 => rfl | 2 => rfl, rfl, rfl⟩

/-- All four kinds of document are there, and conform. -/
theorem schema_ola : ∃ c : PageConfig (Fin 3), (fromEmpty (Fin 3)).run start olaRun = some c ∧
    c.backend.db.keys = [creationPath "u1", userGroupPath "u1" "7",
      ["groups", "public", "groups", "7"], friendPath "u1" "u1", userPath (some "u1")] ∧
    (∀ p d, DocStore.get c.backend.db p = some d →
      Conforms p d ∧ ∀ name, Reads p name → d.field name ≠ .null) ∧
    ∀ k row, DocStore.get c.backend.db (userPath (some k)) = some row →
      (∀ s s' out, UserSearch.onEvent s (.tapAdd row) = some (s', out) →
        out = [⟨.fetch, .get (userPath (some k))⟩]) ∧
      ∀ c', (fromEmpty (Fin 3)).Steps (fun _ _ => True) c c' →
        ∃ profile, DocStore.get c'.backend.db (userPath (some k)) = some profile ∧
          profile.field "uid" = .str k := by
  have hrun : ((fromEmpty (Fin 3)).run start olaRun).map (fun c => c.backend.db.keys) =
      some [creationPath "u1", userGroupPath "u1" "7", ["groups", "public", "groups", "7"],
        friendPath "u1" "u1", userPath (some "u1")] := by
    decide +kernel
  obtain ⟨c, hc, hkeys⟩ := Option.map_eq_some_iff.mp hrun
  exact ⟨c, hc, hkeys, schema (Machine.Reach.of_follow start_opened hc)⟩

end Example

end P0ker.Schema
