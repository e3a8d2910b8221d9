import P0ker.Search.AddFriend
import P0ker.Pages.Friends

/-!
# Is every friend listed?

The Friends page lists the friends whose name is beyond `0`, in the order of UTF-8. The names are
those registration has stored: any text that is not empty before it is trimmed. `listed_iff` says
which friends the list leaves out: those who registered with nothing but whitespace, with `0`, or
with a text that begins, after the whitespace, with a character before `0`.
-/

namespace P0ker.Listing

open Async Search UserSearch
open Dart (trim toLowerCase)
open Friends (HomeeState friendSearch)
open Login (userPath normalise brukernavnField)

variable {ι : Type} [DecidableEq ι]

/-! ## Friends that are added one after the other -/

/-- Page `i` waits for nothing. -/
def Idle (i : ι) (c : SearchConfig ι) : Prop :=
  (∀ m ∈ c.calls, m.client ≠ i) ∧ ∀ p ∈ c.answers, p.1.client ≠ i

instance (i : ι) (c : SearchConfig ι) : Decidable (Idle i c) := by
  unfold Idle
  infer_instance

/-- Every tapped row has a uid, the service follows the choice, and a page on which a row is tapped
is done with the friend before. -/
def InTurn (rej : Rejected ι Cont) (c : SearchConfig ι) (a : SearchAction ι) : Prop :=
  Tapped rej c a ∧ match a with
    | .event i (.tapAdd _) => Idle i c
    | _ => True

instance (rej : Rejected ι Cont) (c : SearchConfig ι) :
    ∀ a : SearchAction ι, Decidable (InTurn rej c a)
  | .event _ (.tapAdd _) => by unfold InTurn; infer_instance
  | .event _ .initState | .event _ .beginSearch | .event _ .back | .event _ (.onSubmitted _)
  | .event _ .build | .event _ (.snapshot _) | .event _ .dispose
  | .serve _ _ | .deliver _ _ => by unfold InTurn; infer_instance

/-- Every profile that is being read is that of the row tapped last. -/
def Reading (c : SearchConfig ι) : Prop :=
  (∀ m ∈ c.calls, m.call.cont = .fetch → m.call = fetch (c.clients m.client)) ∧
    ∀ p ∈ c.answers, p.1.call.cont = .fetch → p.1.call = fetch (c.clients p.1.client)

section Reading

variable {rej : Rejected ι Cont} {b : Backend ι} {user : ι → String} {c c' : SearchConfig ι}
  {a : SearchAction ι}

/-- A handler that leaves the row tapped last alone, and reads no other. -/
theorem Reading.post {i : ι} {s : DisplaySearchState} {out : List (Call Cont)}
    {cause : List (Call Cont × Answer)} (h : Reading c)
    (hs : Idle i c ∨ fetch s = fetch (c.clients i))
    (hout : ∀ call ∈ out, call.cont = .fetch → call = fetch s) :
    Reading (c.post i s out cause) := by
  have hclient : ∀ m : SearchMessage ι, (Idle i c → m.client ≠ i) →
      m.call = fetch (c.clients m.client) →
      m.call = fetch ((c.post i s out cause).clients m.client) := by
    intro m hidle hm
    refine Config.client_post (p := fun s => m.call = fetch s) ?_ fun _ => hm
    rintro rfl
    rcases hs with hs | hs
    · exact absurd rfl (hidle hs)
    · rw [hs]
      exact hm
  constructor
  · intro m hm hcont
    rcases mem_calls_post hm with hm | ⟨call, hc, rfl⟩
    · exact hclient m (fun hidle => hidle.1 m hm) (h.1 m hm hcont)
    · rw [Config.post_clients_self]
      exact hout call hc hcont
  · intro p hp hcont
    exact hclient p.1 (fun hidle => hidle.2 p hp) (h.2 p hp hcont)

theorem Reading.step (hcore : Core rej b user c) (h : Reading c) (hC : InTurn rej c a)
    (hs : (searchSystem ι).step c a = some c') : Reading c' := by
  refine step_keeps (Q := Reading) hs ?_ ?_ ?_
  · intro i e s out hact he
    subst hact
    refine h.post ?_ ?_
    · rcases onEvent_fetch he with ⟨document, rfl⟩ | hsame
      · exact Or.inl hC.2
      · exact Or.inr hsame
    · intro call hc hcont
      rcases onEvent_cases he with ⟨hclosed, -⟩ | ⟨-, -, rfl | ⟨document, -, -, rfl⟩⟩
      · rw [(hcore.resolved i).1] at hclosed
        cases hclosed
      · cases hc
      · exact List.mem_singleton.mp hc
  · intro k o m b' r _ hk _
    refine ⟨fun m' hm => h.1 m' (List.mem_of_mem_eraseIdx hm), ?_⟩
    intro p hp hcont
    rcases mem_answers_served hp with hp | rfl
    · exact h.2 p hp hcont
    · exact h.1 m (List.mem_of_getElem? hk) hcont
  · intro k d m r s out _ _ ha
    have ha' : onAnswer (c.clients m.client) m.call.cont r = (s, out) := ha
    obtain ⟨hsame, hout⟩ := onAnswer_fetch (c.clients m.client) m.call.cont r
    rw [ha'] at hsame hout
    have htaken : Reading (c.taken k) := ⟨h.1, fun p hp => h.2 p (List.mem_of_mem_eraseIdx hp)⟩
    exact htaken.post (Or.inr hsame) fun call hc hcont => absurd hcont (hout call hc)

omit [DecidableEq ι] in
/-- A profile that has been read is handled on its row. -/
theorem Reading.onRow (h : Reading c) (hC : InTurn rej c a) : OnRow rej c a := by
  refine ⟨hC.1, ?_⟩
  cases a with
  | event | serve => trivial
  | deliver => exact fun p hp hcont _ => h.2 p (List.mem_of_getElem? hp) hcont

/-- Adding friends in turn keeps what holds of the pages. -/
theorem core_of_inTurn (hb : ProfilesKeyed b.db)
    (hs : (searchSystem ι).Steps (InTurn rej) (start b user) c) : Core rej b user c := by
  have hstart : Core rej b user (start b user) ∧ Reading (start b user) :=
    ⟨Core.of_start ⟨rfl, rfl⟩, List.forall_mem_nil _, List.forall_mem_nil _⟩
  refine (hs.preserves (P := fun c => Core rej b user c ∧ Reading c) hstart ?_).1
  rintro c a c' ⟨hcore, hreading⟩ hC hstep
  exact ⟨hcore.step hb (hreading.onRow hC) hstep, hreading.step hcore hC hstep⟩

end Reading

/-! ## The friends, and those the list shows -/

/-- Every profile has a name that registration can store: the trimmed lower-case form of a text the
form accepts. -/
def Registered (db : Db) : Prop :=
  ∀ f profile, DocStore.get db (userPath (some f)) = some profile →
    ∃ t, brukernavnField.validator t = none ∧ profile.field "brukernavn" = .str (normalise t)

/-- Every friend of `u` is a profile that was added. -/
def Friends (u : String) (db : Db) : Prop :=
  ∀ f d, DocStore.get db (friendPath u f) = some d →
    ∃ profile, DocStore.get db (userPath (some f)) = some profile ∧ d = friendDoc f profile

/-- The friend `f` of `u`, who registered as `t`. -/
structure Friend (db : Db) (u f t : String) : Prop where
  added : (DocStore.get db (friendPath u f)).isSome = true
  accepted : brukernavnField.validator t = none
  profile : ∃ profile, DocStore.get db (userPath (some f)) = some profile ∧
    profile.field "brukernavn" = .str (normalise t)

section Listed

variable {rej : Rejected ι Cont} {b : Backend ι} {user : ι → String} {c : SearchConfig ι}
  {u : String}

/-- Every friend that is added is the profile it is named after. -/
theorem friends_of_inTurn (hb : ProfilesKeyed b.db) (hstart : Friends u b.db)
    (hs : (searchSystem ι).Steps (InTurn rej) (start b user) c) : Friends u c.backend.db := by
  have hcore := core_of_inTurn hb hs
  intro f d hget
  rcases hcore.progress.origin (friendPath u f) with hsame | ⟨m, hm, -, d', hd', hget'⟩
  · obtain ⟨profile, hprofile, hd⟩ := hstart f d (hsame ▸ hget)
    exact ⟨profile, (hcore.profile f).trans hprofile, hd⟩
  · rw [hget] at hget'
    obtain rfl := Option.some.inj hget'
    obtain ⟨g, profile, hpath, hd, hprofile⟩ := (hcore.sent m (mem_since.mp hm)).stores hd'
    obtain ⟨-, rfl⟩ := friendPath_inj hpath
    exact ⟨profile, (hcore.profile f).trans hprofile, hd⟩

/-- The list shows a friend if and only if the text the friend registered with comes after `0`. -/
theorem mem_friendSearch {s : HomeeState} (hu : s.mCurrentUser = some u) {db : Db} {f t : String}
    {d profile : Doc} (hget : DocStore.get db (friendPath u f) = some d)
    (hd : d = friendDoc f profile) (hname : profile.field "brukernavn" = .str (normalise t)) :
    (f, d) ∈ friendSearch s db ↔ "0" < trim t := by
  have hstring : d.string "brukernavn" = some (normalise t) := by
    rw [hd]
    simp only [friendDoc, Doc.string, hname]
    rfl
  rw [friendSearch, hu, Db.mem_whereGreater, hstring]
  have hget' : DocStore.get db (Friends.friendsPath (interp (some u)) ++ [f]) = some d := hget
  rw [and_iff_right hget', normalise]
  constructor
  · rintro ⟨n, hn, hlt⟩
    obtain rfl := Option.some.inj hn
    exact (Dart.singleton_lt_toLowerCase (b := '0') (by decide)).mp hlt
  · intro hlt
    exact ⟨_, rfl, (Dart.singleton_lt_toLowerCase (b := '0') (by decide)).mpr hlt⟩

/-- **The friends list.** Let the friends of `u` be added one after the other. The list shows all of
them if and only if each has registered with a text that comes, trimmed, after `0`. -/
theorem listed_iff (hb : ProfilesKeyed b.db) (hreg : Registered b.db) (hstart : Friends u b.db)
    (hs : (searchSystem ι).Steps (InTurn rej) (start b user) c) {s : HomeeState}
    (hu : s.mCurrentUser = some u) :
    (∀ f d, DocStore.get c.backend.db (friendPath u f) = some d →
      (f, d) ∈ friendSearch s c.backend.db) ↔
      ∀ f t, Friend c.backend.db u f t → "0" < trim t := by
  have hfriends := friends_of_inTurn hb hstart hs
  constructor
  · intro hall f t h
    obtain ⟨d, hget⟩ := Option.isSome_iff_exists.mp h.added
    obtain ⟨profile, hprofile, hd⟩ := hfriends f d hget
    obtain ⟨profile', hprofile', hname⟩ := h.profile
    rw [hprofile] at hprofile'
    obtain rfl := Option.some.inj hprofile'
    exact (mem_friendSearch hu hget hd hname).mp (hall f d hget)
  · intro hall f d hget
    obtain ⟨profile, hprofile, hd⟩ := hfriends f d hget
    have hsame := (core_of_inTurn hb hs).profile f
    obtain ⟨t, ht, hname⟩ := hreg f profile (hsame ▸ hprofile)
    have hfriend : Friend c.backend.db u f t :=
      ⟨Option.isSome_iff_exists.mpr ⟨d, hget⟩, ht, profile, hprofile, hname⟩
    exact (mem_friendSearch hu hget hd hname).mpr (hall f t hfriend)

end Listed

/-! ## A name that begins with a dash, and one that does not -/

/-- Ola searches for a name and adds the row that is found, and so on; each friend is stored before
the next row is tapped. -/
def addInTurn (rows : List (String × Doc)) : List (SearchAction Unit) :=
  rows.flatMap fun r => searchAndTap r.1 r.2 ++
    [.serve 0 (.accept ""), .deliver 0 (), .serve 0 (.accept ""), .deliver 0 ()]

/-- The Friends page of Ola. -/
def olaFriends : HomeeState := { mCurrentUser := some "ola", userFound := true, opened := true }

/-- Nobody has friends in a store of two profiles. -/
theorem friends_of_two_profiles {a b : Doc} {u : String} :
    Friends u (DocStore.setData (DocStore.setData ∅ ["users", "f1"] a) ["users", "f2"] b) := by
  intro f d hget
  have hliv : friendPath u f ≠ ["users", "f2"] := friendPath_ne_userPath u f "f2"
  have hkai : friendPath u f ≠ ["users", "f1"] := friendPath_ne_userPath u f "f1"
  rw [DocStore.get_setData_ne _ _ hliv, DocStore.get_setData_ne _ _ hkai,
    DocStore.get_empty] at hget
  cases hget

theorem kaiAndLiv_registered : Registered kaiAndLiv.db := by
  intro f d hget
  rcases eq_of_two_profiles hget with ⟨-, rfl⟩ | ⟨-, rfl⟩
  · exact ⟨"Kai", by decide +kernel, by decide +kernel⟩
  · exact ⟨"Liv", by decide +kernel, by decide +kernel⟩

theorem listed_iff_ola : ∃ c : SearchConfig Unit,
    (searchSystem Unit).follow (InTurn accepted) (start kaiAndLiv fun _ => "ola")
      (addInTurn [("Kai", kai), ("liv", liv)]) = some c ∧
    (friendSearch olaFriends c.backend.db).map Prod.fst = ["f2", "f1"] ∧
    ((∀ f d, DocStore.get c.backend.db (friendPath "ola" f) = some d →
      (f, d) ∈ friendSearch olaFriends c.backend.db) ↔
        ∀ f t, Friend c.backend.db "ola" f t → "0" < trim t) := by
  have hrun : ((searchSystem Unit).follow (InTurn accepted) (start kaiAndLiv fun _ => "ola")
      (addInTurn [("Kai", kai), ("liv", liv)])).map
        (fun c => (friendSearch olaFriends c.backend.db).map Prod.fst) = some ["f2", "f1"] := by
    decide +kernel
  obtain ⟨c, hc, hrows⟩ := Option.map_eq_some_iff.mp hrun
  exact ⟨c, hc, hrows, listed_iff kaiAndLiv_keyed kaiAndLiv_registered friends_of_two_profiles
    (Machine.Steps.of_follow hc) rfl⟩

/-- Kai has registered as `-Kai`. -/
def dashKai : Doc := [("uid", .str "f1"), ("email", .str "k@p"), ("brukernavn", .str "-kai")]

def dashKaiAndLiv : Backend Unit :=
  { Backend.empty Unit with
    db := DocStore.setData (DocStore.setData ∅ ["users", "f1"] dashKai) ["users", "f2"] liv }

/-- Kai is added and is a friend, and the list shows Liv only. -/
theorem not_listed : ¬ ∀ (b : Backend Unit) (user : Unit → String) (c : SearchConfig Unit)
    (s : HomeeState) (u : String), ProfilesKeyed b.db → Registered b.db → Friends u b.db →
    (searchSystem Unit).Steps (InTurn accepted) (start b user) c → s.mCurrentUser = some u →
      ∀ f d, DocStore.get c.backend.db (friendPath u f) = some d →
        (f, d) ∈ friendSearch s c.backend.db := by
  intro h
  have hkeyed : ProfilesKeyed dashKaiAndLiv.db := by
    intro f d hget
    rcases eq_of_two_profiles hget with ⟨rfl, rfl⟩ | ⟨rfl, rfl⟩
    · rfl
    · rfl
  have hregistered : Registered dashKaiAndLiv.db := by
    intro f d hget
    rcases eq_of_two_profiles hget with ⟨-, rfl⟩ | ⟨-, rfl⟩
    · exact ⟨"-Kai", by decide +kernel, by decide +kernel⟩
    · exact ⟨"Liv", by decide +kernel, by decide +kernel⟩
  have hrun : ((searchSystem Unit).follow (InTurn accepted) (start dashKaiAndLiv fun _ => "ola")
      (addInTurn [("-kai", dashKai), ("liv", liv)])).map
        (fun c => (DocStore.get c.backend.db (friendPath "ola" "f1"),
          friendSearch olaFriends c.backend.db))
      = some (some (friendDoc "f1" dashKai), [("f2", friendDoc "f2" liv)]) := by
    decide +kernel
  obtain ⟨c, hc, heq⟩ := Option.map_eq_some_iff.mp hrun
  obtain ⟨hget, hrows⟩ := Prod.mk.inj heq
  have hmem := h dashKaiAndLiv (fun _ => "ola") c olaFriends "ola" hkeyed hregistered
    friends_of_two_profiles (Machine.Steps.of_follow hc) rfl "f1" _ hget
  rw [hrows] at hmem
  exact absurd (congrArg Prod.fst (List.mem_singleton.mp hmem)) (by decide)

end P0ker.Listing
