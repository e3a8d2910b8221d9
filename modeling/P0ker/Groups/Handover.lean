import P0ker.Pages.GroupFlow

/-!
# From a new group to its members: is the group handed over?

The NewGroup page tells the Friends page which group it has created through `creation/0`, a single
document of the user. The Friends page is pushed before that document is written, and takes what it
finds there; what it finds may have been left by an earlier creation.

`rightGroup_of_handedOver` says that this is all that can go wrong: as long as every document a
Friends page takes is the one written for the press that has pushed the page, the members are added
to the group of that press.
-/

namespace P0ker.Handover

open Async GroupFlow

variable {ι : Type} [DecidableEq ι]

abbrev FlowMessage (ι : Type) := Message ι (Call Cont) Answer

abbrev FlowConfig (ι : Type) := Config ι App (Backend ι) (Call Cont) Answer

abbrev FlowAction (ι : Type) := Action ι Event Draw Outcome

/-- No page has been opened, nothing is in flight. -/
def start (b : Backend ι) : FlowConfig ι :=
  Config.start (fun _ => {}) b []

def flowSystem (ι : Type) [DecidableEq ι] : Machine (FlowConfig ι) (FlowAction ι) :=
  Async.system program (firebase ι Cont) fun c => ∃ b, c = start b

/-- A write of press number `press`. -/
def OfPress (press : Nat) (cont : Cont) : Prop :=
  ∃ page, cont = .newGroup page (some press) .written

/-- Press number `press` of device `i` has saved the group `groupId` of type `type`. -/
def SavedBy (c : FlowConfig ι) (i : ι) (press : Nat) (type groupId : String) : Prop :=
  ∃ w ∈ c.issued, w.client = i ∧ OfPress press w.call.cont ∧
    ∃ d, w.call.req = .setData (NewGroup.groupPath type groupId) d

/-- Every new member goes to the group of the press that pushed its Friends page, if the group is
known to that page. -/
def RightGroup (c : FlowConfig ι) : Prop :=
  ∀ m ∈ c.issued, ∀ page type groupId data, m.call.cont = .friends page .added →
    m.call.req = .add (Friends.membersPath type (interpInt (some groupId))) data →
    SavedBy c m.client page type (interpInt (some groupId))

/-! ## What a Friends page takes over -/

/-- The message writes `d` as the `creation/0` of press number `press`. -/
def creates (press : Nat) (d : Doc) (m : FlowMessage ι) : Bool :=
  match m.call.cont, m.call.req with
  | .newGroup _ (some p) .written, .setData ["users", _, "creation", "0"] d' =>
      decide (p = press ∧ d' = d)
  | _, _ => false

/-- The Friends page that the answer is for, if it is still there, and the `creation/0` it finds. -/
def taken (c : FlowConfig ι) (p : FlowMessage ι × Answer) : Option (Nat × Doc) :=
  match p.1.call.cont, p.2 with
  | .friends page .getGroupStatus, .snapshot (some d) =>
      if ((c.clients p.1.client).friends[page]?).any (·.mounted) then some (page, d) else none
  | _, _ => none

/-- Whatever `creation/0` a Friends page takes over was written for the press that pushed it. -/
def HandedOver (c : FlowConfig ι) : FlowAction ι → Prop
  | .deliver k _ => ∀ p ∈ c.answers[k]?, ∀ x ∈ taken c p, ∃ w ∈ c.issued,
      w.client = p.1.client ∧ creates x.1 x.2 w
  | _ => True

instance (c : FlowConfig ι) : ∀ a : FlowAction ι, Decidable (HandedOver c a)
  | .event _ _ => .isTrue trivial
  | .serve _ _ => .isTrue trivial
  | .deliver _ _ => by unfold HandedOver; infer_instance

/-! ## What holds in every run -/

/-- The writes of press `press` are those of a saved group, all of them. -/
def SavedWhole (c : FlowConfig ι) (m : FlowMessage ι) (press : Nat) : Prop :=
  ∃ s, (∃ call ∈ NewGroup.saved s, call.req = m.call.req) ∧
    SavedBy c m.client press s.groupType (interpInt s.groupId)

/-- A group a Friends page knows is that of the press that has pushed it; and so is the one whose
members it adds. -/
structure Inv (c : FlowConfig ι) : Prop where
  saves : ∀ m ∈ c.issued, ∀ press, OfPress press m.call.cont → SavedWhole c m press
  known : ∀ i (n : Nat) s, (c.clients i).friends[n]? = some s → ∀ g, s.groupId = some g →
    ∃ t, s.type = some t ∧ SavedBy c i n t (interpInt (some g))
  adds : ∀ m ∈ c.issued, ∀ page, m.call.cont = .friends page .added →
    ∃ s, m.call.req = (Friends.addToFireStore s).req ∧
      ∀ g, s.groupId = some g → ∃ t, s.type = some t ∧
        SavedBy c m.client page t (interpInt (some g))

section Inv

variable {c c' : FlowConfig ι} {i : ι}

omit [DecidableEq ι] in
/-- What has been saved stays saved. -/
theorem SavedBy.mono {press : Nat} {type groupId : String} (h : SavedBy c i press type groupId)
    (hc : ∀ m ∈ c.issued, m ∈ c'.issued) : SavedBy c' i press type groupId := by
  obtain ⟨w, hw, hrest⟩ := h
  exact ⟨w, hc w hw, hrest⟩

omit [DecidableEq ι] in
theorem SavedWhole.mono {m : FlowMessage ι} {press : Nat} (h : SavedWhole c m press)
    (hc : ∀ m ∈ c.issued, m ∈ c'.issued) : SavedWhole c' m press := by
  obtain ⟨s, hcall, hsaved⟩ := h
  exact ⟨s, hcall, hsaved.mono hc⟩

omit [DecidableEq ι] in
/-- The `creation/0` of a press names the group that the press has saved. -/
theorem Inv.creates_saved (h : Inv c) {w : FlowMessage ι} (hw : w ∈ c.issued) {press : Nat}
    {d : Doc} (hcreates : creates press d w = true) :
    ∃ t, d.string "type" = some t ∧
      SavedBy c w.client press t (interpInt (d.int "id")) := by
  simp only [creates] at hcreates
  split at hcreates
  · next page p u d' hcont hreq =>
      obtain ⟨rfl, rfl⟩ := of_decide_eq_true hcreates
      obtain ⟨s, ⟨call, hcall, hsame⟩, hsaved⟩ := h.saves w hw p ⟨page, hcont⟩
      rw [hreq] at hsame
      rcases NewGroup.mem_saved.mp hcall with rfl | rfl | rfl
      · exact absurd (List.cons.inj (Request.setData.inj hsame).1).1 (by decide)
      · have hpath := (List.cons.inj (List.cons.inj (Request.setData.inj hsame).1).2).2
        exact absurd (List.cons.inj hpath).1 (by decide)
      · obtain rfl := (Request.setData.inj hsame).2
        refine ⟨s.groupType, rfl, ?_⟩
        have hid : Doc.int [("id", Value.ofInt s.groupId), ("type", Value.str s.groupType)] "id" =
            s.groupId := by
          cases s.groupId <;> rfl
        rw [hid]
        exact hsaved
  · cases hcreates

omit [DecidableEq ι] in
theorem Inv.of_start (b : Backend ι) : Inv (start b) := by
  constructor
  · intro m hm
    cases hm
  · intro i n s hs
    have hnone : ([] : List Friends.HomeeState)[n]? = some s := hs
    rw [List.getElem?_nil] at hnone
    cases hnone
  · intro m hm
    cases hm

/-- Device `i` moves to `app` and issues `out`. -/
theorem Inv.post {app : App} {out : List (Call Cont)} {cause : List (Call Cont × Answer)}
    (h : Inv c) (hsaves : ∀ call ∈ out, ∀ press, OfPress press call.cont →
      SavedWhole (c.post i app out cause) ⟨i, call, cause⟩ press)
    (hknown : ∀ (n : Nat) s, app.friends[n]? = some s → ∀ g, s.groupId = some g →
      ∃ t, s.type = some t ∧ SavedBy c i n t (interpInt (some g)))
    (hadds : ∀ call ∈ out, ∀ page, call.cont = .friends page .added →
      ∃ s, call.req = (Friends.addToFireStore s).req ∧ ∀ g, s.groupId = some g →
        ∃ t, s.type = some t ∧ SavedBy c i page t (interpInt (some g))) :
    Inv (c.post i app out cause) := by
  have hgrow : ∀ m ∈ c.issued, m ∈ (c.post i app out cause).issued :=
    fun m hm => List.mem_append_left _ hm
  constructor
  · intro m hm press hpress
    rcases mem_issued_post hm with hm | ⟨call, hc, rfl⟩
    · exact (h.saves m hm press hpress).mono hgrow
    · exact hsaves call hc press hpress
  · intro j n s hs g hg
    by_cases hj : j = i
    · subst hj
      rw [Config.post_clients_self] at hs
      obtain ⟨t, ht, hsaved⟩ := hknown n s hs g hg
      exact ⟨t, ht, hsaved.mono hgrow⟩
    · rw [Config.post_clients_ne _ _ _ _ _ hj] at hs
      obtain ⟨t, ht, hsaved⟩ := h.known j n s hs g hg
      exact ⟨t, ht, hsaved.mono hgrow⟩
  · intro m hm page hcont
    rcases mem_issued_post hm with hm | ⟨call, hc, rfl⟩
    · obtain ⟨s, hreq, hgroup⟩ := h.adds m hm page hcont
      refine ⟨s, hreq, fun g hg => ?_⟩
      obtain ⟨t, ht, hsaved⟩ := hgroup g hg
      exact ⟨t, ht, hsaved.mono hgrow⟩
    · obtain ⟨s, hreq, hgroup⟩ := hadds call hc page hcont
      refine ⟨s, hreq, fun g hg => ?_⟩
      obtain ⟨t, ht, hsaved⟩ := hgroup g hg
      exact ⟨t, ht, hsaved.mono hgrow⟩

omit [DecidableEq ι] in
/-- Pages whose groups are the same know the same. -/
theorem Inv.known_same {app : App} (h : Inv c)
    (hsame : SameGroups (c.clients i).friends app.friends) (n : Nat) (s : Friends.HomeeState)
    (hs : app.friends[n]? = some s) (g : Nat) (hg : s.groupId = some g) :
    ∃ t, s.type = some t ∧ SavedBy c i n t (interpInt (some g)) := by
  rcases hsame n s hs with hnone | ⟨s₀, hs₀, hgroup⟩
  · rw [hnone] at hg
    cases hg
  · obtain ⟨htype, hid⟩ := Prod.mk.inj hgroup
    rw [hid] at hg
    obtain ⟨t, ht, hsaved⟩ := h.known i n s₀ hs₀ g hg
    exact ⟨t, htype.trans ht, hsaved⟩

theorem Inv.event {e : Event} {app : App} {out : List (Call Cont)} (h : Inv c)
    (he : program.onEvent (c.clients i) e = some (app, out)) : Inv (c.post i app out []) := by
  obtain ⟨hsame, hraised⟩ := onEvent_cases he
  refine h.post ?_ (h.known_same hsame) ?_
  · rintro call hc press ⟨page, hcont⟩
    have hnot := hraised call hc
    rw [Raised, hcont] at hnot
    exact absurd rfl hnot
  · intro call hc page hcont
    have hadd := hraised call hc
    rw [Raised, hcont] at hadd
    obtain ⟨s, hs, hreq⟩ := hadd rfl
    exact ⟨s, hreq, h.known i page s hs⟩

/-- An answer to a NewGroup page. -/
theorem Inv.newGroup {k : Nat} {m : FlowMessage ι} {a : Answer} {r : Draw} {page : Nat}
    {press : Option Nat} {cont : NewGroup.Cont} {app : App} {out : List (Call Cont)} (h : Inv c)
    (hans : onAnswer (c.clients m.client) (.newGroup page press cont) a r = (app, out)) :
    Inv ((c.taken k).post m.client app out ((m.call, a) :: m.cause)) := by
  have htaken : Inv (c.taken k) := ⟨h.saves, h.known, h.adds⟩
  obtain ⟨hsame, hout⟩ := onAnswer_newGroup (c.clients m.client) page press cont a r
  rw [hans] at hsame hout
  refine htaken.post ?_ (htaken.known_same hsame) ?_
  · rintro call hc press' ⟨page', hpress⟩
    rcases hout with hnot | ⟨s, hs⟩
    · obtain ⟨cont', hcont', hne⟩ := hnot call hc
      rw [hcont'] at hpress
      exact absurd (Cont.newGroup.inj hpress).2.2 hne
    · -- the three writes are issued together
      obtain rfl : out = _ := hs
      obtain ⟨call', hc', rfl⟩ := List.mem_map.mp hc
      obtain ⟨-, rfl, -⟩ := Cont.newGroup.inj hpress
      refine ⟨s, ⟨call', hc', rfl⟩, ⟨m.client, ⟨.newGroup page (some press') .written, .setData
        (NewGroup.groupPath s.groupType (interpInt s.groupId)) (NewGroup.groupDoc s)⟩,
        (m.call, a) :: m.cause⟩, ?_, rfl,
        ⟨page, rfl⟩, NewGroup.groupDoc s, rfl⟩
      rw [Config.post_issued]
      have hgroup := List.mem_map_of_mem (f := fun c : Call NewGroup.Cont =>
        (⟨.newGroup page (some press') .written, c.req⟩ : Call Cont)) (NewGroup.group_mem_saved s)
      exact List.mem_append_right _ (List.mem_map.mpr ⟨_, hgroup, rfl⟩)
  · intro call hc page' hcont'
    rcases hout with hnot | ⟨s, hs⟩
    · obtain ⟨cont'', hcont'', -⟩ := hnot call hc
      rw [hcont''] at hcont'
      cases hcont'
    · obtain rfl : out = _ := hs
      obtain ⟨call', hc', rfl⟩ := List.mem_map.mp hc
      cases hcont'

/-- An answer to a Friends page, which may take over a group. -/
theorem Inv.friends {k : Nat} {m : FlowMessage ι} {a : Answer} {r : Draw} {page : Nat}
    {cont : Friends.Cont} {app : App} {out : List (Call Cont)} (h : Inv c)
    (hcont : m.call.cont = .friends page cont)
    (hans : onAnswer (c.clients m.client) (.friends page cont) a r = (app, out))
    (hC : ∀ x ∈ taken c (m, a), ∃ w ∈ c.issued, w.client = m.client ∧ creates x.1 x.2 w) :
    Inv ((c.taken k).post m.client app out ((m.call, a) :: m.cause)) := by
  have htaken : Inv (c.taken k) := ⟨h.saves, h.known, h.adds⟩
  obtain ⟨hout, hpages⟩ := onAnswer_friends (c.clients m.client) page cont a r
  rw [hans] at hout hpages
  obtain rfl : out = [] := hout
  refine htaken.post (fun _ hc => absurd hc List.not_mem_nil) ?_
    fun _ hc => absurd hc List.not_mem_nil
  rcases hpages with hsame | ⟨s, s', d, rfl, rfl, hs, hm, hgroup, happ⟩
  · exact htaken.known_same hsame
  · obtain rfl : app = _ := happ
    intro n t ht g hg
    have hget : ((c.clients m.client).friends.set page s')[n]? = some t := ht
    by_cases hn : page = n
    · subst hn
      rw [List.getElem?_set_self (List.getElem?_eq_some_iff.mp hs).1] at hget
      obtain rfl := Option.some.inj hget
      obtain ⟨htype, hid⟩ := Prod.mk.inj hgroup
      -- what this page takes over was created by its own device
      have htakes : (page, d) ∈ taken c (m, .snapshot (some d)) := by
        simp [taken, hcont, hs, hm]
      obtain ⟨w, hw, hclient, hcreates⟩ := hC _ htakes
      obtain ⟨t, ht, hsaved⟩ := h.creates_saved hw hcreates
      rw [hclient, ← hid, hg] at hsaved
      exact ⟨t, htype.trans ht, hsaved⟩
    · rw [List.getElem?_set_ne hn] at hget
      exact h.known m.client n t hget g hg

theorem Inv.step {a : FlowAction ι} (h : Inv c) (hC : HandedOver c a)
    (hs : (flowSystem ι).step c a = some c') : Inv c' := by
  refine step_keeps (Q := Inv) hs ?_ ?_ ?_
  · intro i e app out _ he
    exact h.event he
  · intro k o m b r _ _ _
    exact ⟨h.saves, h.known, h.adds⟩
  · intro k d m r app out hact hk ha
    subst hact
    have hans : onAnswer (c.clients m.client) m.call.cont r d = (app, out) := ha
    cases hcont : m.call.cont with
    | newGroup page press cont =>
        rw [hcont] at hans
        exact h.newGroup hans
    | friends page cont =>
        rw [hcont] at hans
        exact h.friends hcont hans (hC _ hk)

end Inv

/-- In every run in which each `creation/0` a Friends page takes over was written for the press that
pushed it, the members always go to the group of that press. -/
theorem rightGroup_of_handedOver {c : FlowConfig ι} (hr : (flowSystem ι).Reach HandedOver c) :
    RightGroup c := by
  have h : Inv c := by
    refine hr.invariant (P := Inv) ?_ fun _ _ _ _ h hC hs => h.step hC hs
    rintro _ ⟨b, rfl⟩
    exact Inv.of_start b
  intro m hm page type groupId data hcont hreq
  obtain ⟨s, hsame, hgroup⟩ := h.adds m hm page hcont
  have hpath : Friends.membersPath (interp s.type) (interpInt s.groupId) =
      Friends.membersPath type (interpInt (some groupId)) :=
    (Request.add.inj (hsame.symm.trans hreq)).1
  obtain ⟨htype, hid⟩ : interp s.type = type ∧ interpInt s.groupId = interpInt (some groupId) := by
    simpa [Friends.membersPath] using hpath
  obtain ⟨t, ht, hsaved⟩ := hgroup groupId (interpInt_inj.mp hid)
  rw [ht] at htype
  obtain rfl : t = type := htype
  exact hsaved

/-! ## The first group, and the second -/

/-- Kai's profile, and Kai among the friends of Ola, who is signed in on the only device. -/
def withOla : Backend Unit :=
  { Backend.empty Unit with
    db := DocStore.setData (DocStore.setData ∅ ["users", "f1"]
        [("uid", .str "f1"), ("email", .str "k@p"), ("brukernavn", .str "kai")])
      ["users", "ola", "friends", "f1"] [("brukernavn", .str "kai"), ("uid", .str "f1")]
    session := fun _ => some "ola" }

/-- Ola creates the group 7; its three writes are carried out, then Kai is tapped, and 'Next' is
pressed. -/
def createFirst : List (FlowAction Unit) :=
  [.event () .openNewGroup, .event () (.newGroup .initState), .serve 0 (.accept ""), .deliver 0 0,
    .event () (.newGroup (.pressCreate 7)), .event () (.friends .initState),
    .serve 0 (.accept ""), .serve 0 (.accept ""), .serve 0 (.accept ""),
    .deliver 0 0, .deliver 0 0, .deliver 0 0,
    .serve 0 (.accept ""), .serve 0 (.accept ""), .serve 0 (.accept ""),
    .deliver 0 0, .deliver 0 0, .deliver 0 0,
    .event () (.friends (.tap "f1")), .serve 0 (.accept ""), .serve 0 (.accept ""),
    .deliver 0 0, .deliver 0 0, .event () (.friends .pressNext)]

/-- Ola goes back and creates the group 8. Its Friends page finds its user and, on a tap, reads
`creation/0` before the query of the NewGroup page is evaluated; then the group is saved, and 'Next'
is pressed. -/
def createSecond : List (FlowAction Unit) :=
  [.serve 0 (.accept "m1"), .deliver 0 0, .event () .back,
    .event () (.newGroup (.pressCreate 8)), .event () (.friends .initState),
    .serve 1 (.accept ""), .serve 1 (.accept ""), .deliver 0 0, .deliver 0 0,
    .event () (.friends (.tap "f1")), .serve 1 (.accept ""), .deliver 0 0,
    .serve 0 (.accept ""), .deliver 0 0, .event () (.friends .pressNext)]

/-- The message is a new member, added by Friends page `page` to the public group `groupId`. -/
def addsTo (page groupId : Nat) (m : FlowMessage Unit) : Bool :=
  decide (m.call = ⟨.friends page .added,
    .add (Friends.membersPath "public" (interpInt (some groupId))) []⟩)

/-- The message saves the public group `groupId` for press number `press`. -/
def saves (press groupId : Nat) (m : FlowMessage Unit) : Bool :=
  match m.call.cont, m.call.req with
  | .newGroup _ (some p) .written, .setData doc _ =>
      decide (p = press ∧ doc = NewGroup.groupPath "public" (interpInt (some groupId)))
  | _, _ => false

theorem any_saves {c : FlowConfig Unit} {press groupId : Nat}
    (h : SavedBy c () press "public" (interpInt (some groupId))) :
    c.issued.any (saves press groupId) = true := by
  obtain ⟨w, hw, -, ⟨page, hcont⟩, d, hreq⟩ := h
  refine List.any_eq_true.mpr ⟨w, hw, ?_⟩
  simp [saves, hcont, hreq]

theorem of_addsTo {c : FlowConfig Unit} {page groupId : Nat} (hr : RightGroup c)
    (h : c.issued.any (addsTo page groupId) = true) :
    SavedBy c () page "public" (interpInt (some groupId)) := by
  obtain ⟨m, hm, hadds⟩ := List.any_eq_true.mp h
  have hcall := of_decide_eq_true hadds
  refine hr m hm page "public" groupId [] ?_ ?_
  · rw [hcall]
  · rw [hcall]

theorem rightGroup_of_handedOver_ola : ∃ c : FlowConfig Unit,
    (flowSystem Unit).follow HandedOver (start withOla) createFirst = some c ∧
      c.issued.any (addsTo 0 7) = true ∧ RightGroup c := by
  have hrun : ((flowSystem Unit).follow HandedOver (start withOla) createFirst).map
      (fun c => c.issued.any (addsTo 0 7)) = some true := by
    decide +kernel
  obtain ⟨c, hc, hadds⟩ := Option.map_eq_some_iff.mp hrun
  exact ⟨c, hc, hadds, rightGroup_of_handedOver (Machine.Reach.of_follow ⟨_, rfl⟩ hc)⟩

/-- The Friends page of the second group adds its members to the first. -/
theorem not_rightGroup : ¬ ∀ c : FlowConfig Unit, (flowSystem Unit).Reachable c → RightGroup c := by
  intro h
  have hrun : ((flowSystem Unit).run (start withOla) (createFirst ++ createSecond)).map
      (fun c => (c.issued.any (addsTo 1 7), c.issued.any (saves 1 7), c.issued.any (saves 1 8)))
      = some (true, false, true) := by
    decide +kernel
  obtain ⟨c, hc, heq⟩ := Option.map_eq_some_iff.mp hrun
  obtain ⟨hadds, hrest⟩ := Prod.mk.inj heq
  have hright := h c (Machine.Reach.of_follow ⟨_, rfl⟩ hc)
  have hsaved := any_saves (of_addsTo hright hadds)
  rw [(Prod.mk.inj hrest).1] at hsaved
  cases hsaved

end P0ker.Handover
