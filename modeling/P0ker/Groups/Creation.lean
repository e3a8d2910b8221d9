import P0ker.Allocation
import P0ker.Pages.NewGroup

/-!
# Creating groups: does a creation keep the groups that exist?

Any number of NewGroup pages over one backend. A group is stored at `groups/<type>/groups/<id>`,
but the query that is to find a taken id reads the collection `groups/<type>/<id>`, in which nothing
is ever stored. It never finds anything, so an id is never drawn a second time and the first one is
used, taken or not.

`creation_keeps_iff` says when one undisturbed press keeps every group there is: exactly when its
first draw happens not to be taken.
-/

namespace P0ker.Groups

open Async NewGroup

variable {ι : Type} [DecidableEq ι]

abbrev GroupMessage (ι : Type) := Message ι (Call Cont) Answer

abbrev GroupConfig (ι : Type) := Config ι NewGroupState (Backend ι) (Call Cont) Answer

abbrev GroupAction (ι : Type) := Action ι Event Draw Outcome

/-- Pages still to be opened over a backend `b`, nothing in flight. -/
def start (b : Backend ι) : GroupConfig ι :=
  Config.start (fun _ => {}) b []

/-- The NewGroup pages over a backend that holds no documents yet. -/
def groupSystem (ι : Type) [DecidableEq ι] : Machine (GroupConfig ι) (GroupAction ι) :=
  Async.system program (firebase ι Cont) fun c => ∃ b : Backend ι, b.db = ∅ ∧ c = start b

/-- The NewGroup pages over any backend. -/
def groupPages (ι : Type) [DecidableEq ι] : Machine (GroupConfig ι) (GroupAction ι) :=
  Async.system program (firebase ι Cont) (Opening {})

/-- Every call is accepted. -/
def accepted (ι : Type) : Rejected ι Cont := fun _ => false

/-! ## The page runs the allocation loop -/

/-- The page is on the screen, and its form is that of `page`. -/
structure SameForm (page s : NewGroupState) : Prop where
  mounted : s.mounted = true
  groupName : s.groupName = page.groupName
  groupInfo : s.groupInfo = page.groupInfo
  groupType : s.groupType = page.groupType
  user : s.mCurrentUser = page.mCurrentUser

/-- Where the pages store. -/
theorem stores_saved {s : NewGroupState} {call : Call Cont} {p : Path} {d : Doc}
    (hc : call ∈ saved s) (hd : call.req.Stores p d) :
    (p = groupPath s.groupType (interpInt s.groupId) ∧ d = groupDoc s) ∨
      (p = userGroupPath (interp s.mCurrentUser) (interpInt s.groupId) ∧ d = groupDoc s) ∨
      p = creationPath (interp s.mCurrentUser) := by
  rcases mem_saved.mp hc with rfl | rfl | rfl
  · exact Or.inl hd
  · exact Or.inr (Or.inl hd)
  · exact Or.inr (Or.inr hd.1)

/-- The three paths of a group differ. -/
theorem saved_apart {s : NewGroupState} {call call' : Call Cont} {p : Path} {d d' : Doc}
    (hc : call ∈ saved s) (hc' : call' ∈ saved s) (hd : call.req.Stores p d)
    (hd' : call'.req.Stores p d') : call' = call := by
  rcases mem_saved.mp hc with rfl | rfl | rfl <;> rcases mem_saved.mp hc' with rfl | rfl | rfl <;>
    first
    | rfl
    | exact absurd (hd.1.symm.trans hd'.1)
        (by simp [groupPath, userGroupPath, creationPath])

theorem allocates (page : NewGroupState) :
    Allocates program (SameForm page) checkGroupId saved where
  query s := ⟨_, _, _, rfl⟩
  free s t r h := by
    refine ⟨{ s with gameIdAvailable := true }, groupIdChecked_free h.mounted, ?_, rfl⟩
    exact ⟨h.mounted, h.groupName, h.groupInfo, h.groupType, h.user⟩
  taken s t ds r h hd := by
    refine ⟨drawn r { s with gameIdAvailable := false }, groupIdChecked_taken h.mounted hd, ?_⟩
    exact ⟨h.mounted, h.groupName, h.groupInfo, h.groupType, h.user⟩
  failed s t e r := rfl
  written s t call a r hc := by
    show onAnswer s call.cont a r = (s, [])
    rw [saved_cont hc]
    cases a <;> rfl
  apart s call hc call' hc' p d d' := saved_apart hc hc'

/-! ## What is issued and what is stored -/

/-- A call of the page. -/
def Sent (call : Call Cont) : Prop :=
  call.cont = .userIdFound ∧ call.req = .currentUser ∨ (∃ s, call = checkGroupId s) ∨
    ∃ s, call ∈ saved s

section Reach

variable {C : GroupConfig ι → GroupAction ι → Prop} {c : GroupConfig ι}

theorem inFlightIssued (h : (groupSystem ι).Reach C c) : InFlightIssued c := by
  apply Reach.inFlightIssued h
  rintro _ ⟨b, -, rfl⟩
  exact InFlightIssued.start _ _ _

theorem sent (h : (groupSystem ι).Reach C c) : ∀ m ∈ c.issued, Sent m.call := by
  refine Reach.issued (K := fun m => Sent m.call) h ?_ ?_ ?_
  · rintro _ ⟨b, -, rfl⟩
    exact ⟨InFlightIssued.start _ _ _, List.forall_mem_nil _⟩
  · intro c i e s out _ _ he call hc
    rcases onEvent_cases he with ⟨rfl, -⟩ | ⟨-, -, -, rfl⟩ | ⟨r, -, -, -, -, rfl⟩
    · cases hc
    · rw [List.mem_singleton.mp hc]
      exact Or.inl ⟨rfl, rfl⟩
    · exact Or.inr (Or.inl ⟨_, List.mem_singleton.mp hc⟩)
  · intro c k m a r s out _ _ _ _ ha call hc
    rcases answer_cases ha with ⟨-, rfl⟩ | ⟨u, -, -, -, rfl⟩ | ⟨-, -, -, -, rfl⟩ | ⟨-, -, -, -, rfl⟩
    · cases hc
    · cases hc
    · exact Or.inr (Or.inl ⟨_, List.mem_singleton.mp hc⟩)
    · exact Or.inr (Or.inr ⟨_, hc⟩)

theorem Sent.stores {call : Call Cont} {p : Path} {d : Doc} (h : Sent call)
    (hd : call.req.Stores p d) : ∃ s, call ∈ saved s := by
  rcases h with ⟨-, hreq⟩ | ⟨s, rfl⟩ | h
  · rw [hreq] at hd
    cases hd
  · cases hd
  · exact h

/-- Every document was written by a page. -/
theorem documents_saved (h : (groupSystem ι).Reach C c) :
    ∀ p d, DocStore.get c.backend.db p = some d → ∃ s, ∃ call ∈ saved s, call.req.Stores p d := by
  refine Reach.documents h ?_ ?_
  · rintro _ ⟨b, hb, rfl⟩
    refine ⟨InFlightIssued.start _ _ _, ?_⟩
    intro p d hget
    rw [start, Config.start, hb, DocStore.get_empty] at hget
    cases hget
  · intro c hr m hm p d hd
    obtain ⟨s, hs⟩ := (sent hr m hm).stores hd
    exact ⟨s, m.call, hs, hd⟩

theorem interpInt_ne_groups (n : Option Nat) : interpInt n ≠ "groups" := by
  cases n with
  | none => decide
  | some n => exact repr_ne (c := 'g') (by decide) (by decide)

/-- The availability query finds nothing, whatever is stored: its collection lies beside the one the
groups are stored in. -/
theorem query_finds_nothing (h : (groupSystem ι).Reach C c) (s : NewGroupState) :
    ¬ Found c.backend.db (checkGroupId s).req := by
  intro hfound
  refine hfound (Db.whereEq_eq_nil.mpr ?_)
  intro id d hget _
  obtain ⟨t, call, hc, hd⟩ := documents_saved h _ _ hget
  rcases stores_saved hc hd with ⟨hp, -⟩ | ⟨hp, -⟩ | hp
  · exact interpInt_ne_groups s.groupId (List.cons.inj (List.cons.inj (List.cons.inj hp).2).2).1
  · exact absurd (List.cons.inj hp).1 (by decide)
  · exact absurd (List.cons.inj hp).1 (by decide)

end Reach

/-! ## One press that is left alone -/

/-- Every group there is stays as it is. -/
def GroupsKept (db db' : Db) : Prop :=
  ∀ type id d, DocStore.get db (groupPath type id) = some d →
    DocStore.get db' (groupPath type id) = some d

/-- The id under which the page has saved was not taken in its type. -/
def SavedFresh (db : Db) (s : NewGroupState) : Prop :=
  DocStore.get db (groupPath s.groupType (interpInt s.groupId)) = none

section Press

variable {C : GroupConfig ι → GroupAction ι → Prop} {c c₁ c' : GroupConfig ι} {i : ι} {r : Draw}
  {rej : Rejected ι Cont}

/-- A press of 'Create group' that is left alone. -/
abbrev Created (rej : Rejected ι Cont) (i : ι) (r : Draw) (c c₁ c' : GroupConfig ι) : Prop :=
  Pressed (groupSystem ι) rej i (.pressCreate r) c c₁ c'

theorem press_inv (h : (groupSystem ι).step c (.event i (.pressCreate r)) = some c₁) :
    program.onEvent (c.clients i) (.pressCreate r) =
        some (drawn r (c.clients i), [checkGroupId (drawn r (c.clients i))]) ∧
      SameForm (c.clients i) (drawn r (c.clients i)) := by
  obtain ⟨s, out, he, -⟩ := step_event (S := firebase ι Cont) h
  have hpress : (if (c.clients i).mounted ∧ (c.clients i).userFound then
      some (setGroupId r (c.clients i)) else none) = some (s, out) := he
  split at hpress
  · next hon =>
      refine ⟨?_, hon.1, rfl, rfl, rfl, rfl⟩
      rw [he, ← hpress]
      rfl
  · cases hpress

/-- If every call is accepted, the group is saved under the first draw. -/
theorem saves_first_draw (hr : (groupSystem ι).Reach C c)
    (h : Created (accepted ι) i r c c₁ c') :
    SameForm (c.clients i) (c'.clients i) ∧ (c'.clients i).groupId = some r.val ∧
      ∃ cause, Effects (accepted ι) ((saved (c'.clients i)).map (⟨i, ·, cause⟩))
        c.backend.db c'.backend.db := by
  obtain ⟨he, hform⟩ := press_inv h.press
  rcases h.outcome (allocates (c.clients i)) he hform with
    ⟨asked, m, -, -, hrej, -⟩ | ⟨asked, m, cause, hask, -, -, -, heffects⟩
  · cases hrej
  · -- no query finds a document, so there was one query only
    have hasked : asked = [] := by
      rw [List.eq_nil_iff_forall_not_mem]
      intro q hq
      obtain ⟨s, hs, hfound⟩ := hask.found q hq
      rw [hs] at hfound
      exact query_finds_nothing hr s hfound
    subst hasked
    obtain ⟨rest, hfirst⟩ := hask.first
    have hcall : m.call = checkGroupId (drawn r (c.clients i)) := (List.cons.inj hfirst).1
    have hsame : checkGroupId (c'.clients i) = checkGroupId (drawn r (c.clients i)) :=
      hask.call.symm.trans hcall
    refine ⟨hask.ready, ?_, cause, heffects⟩
    have hpaths : ["groups", (c'.clients i).groupType, interpInt (c'.clients i).groupId] =
        ["groups", (c.clients i).groupType, interpInt (some r.val)] := by
      have hreq := congrArg Call.req hsame
      exact (Request.whereEq.inj hreq).1
    exact interpInt_inj.mp (List.cons.inj (List.cons.inj (List.cons.inj hpaths).2).2).1

/-- Running one press of 'Create group' to its end, with every call accepted, keeps every group
there is and saves under an id that is not taken, if and only if the first draw is not taken in the
chosen type. -/
theorem creation_keeps_iff (hr : (groupSystem ι).Reachable c)
    (h : Created (accepted ι) i r c c₁ c') :
    GroupsKept c.backend.db c'.backend.db ∧ SavedFresh c.backend.db (c'.clients i) ↔
      DocStore.get c.backend.db (groupPath (c.clients i).groupType (Nat.repr r)) = none := by
  obtain ⟨hform, hid, cause, heffects⟩ := saves_first_draw hr h
  have hpath : groupPath (c'.clients i).groupType (interpInt (c'.clients i).groupId) =
      groupPath (c.clients i).groupType (Nat.repr r) := by
    rw [hform.groupType, hid]
    rfl
  constructor
  · rintro ⟨-, hfresh⟩
    rw [SavedFresh, hpath] at hfresh
    exact hfresh
  · intro hnone
    refine ⟨?_, ?_⟩
    · intro type id d hget
      -- the only group the three writes touch is the new one
      have hother : groupPath type id ≠ groupPath (c.clients i).groupType (Nat.repr r) := by
        intro heq
        rw [heq, hnone] at hget
        cases hget
      rw [heffects.untouched, hget]
      intro w hw d' hd'
      obtain ⟨call, hc, rfl⟩ := List.mem_map.mp hw
      rcases stores_saved hc hd' with ⟨hp, -⟩ | ⟨hp, -⟩ | hp
      · exact hother (hp.trans hpath)
      · exact absurd (List.cons.inj hp).1 (by decide)
      · exact absurd (List.cons.inj hp).1 (by decide)
    · rw [SavedFresh, hpath]
      exact hnone

end Press

/-! ## A free draw, and a taken one -/

/-- A backend without documents, on whose only device Ola is signed in. -/
def withOla : Backend Unit :=
  { Backend.empty Unit with session := fun _ => some "ola" }

/-- Open the page and wait for the user. -/
def openPage : List (GroupAction Unit) :=
  [.event () .initState, .serve 0 (.accept ""), .deliver 0 0]

/-- The query of a press is answered, and its three writes are carried out. -/
def saveAlone : List (GroupAction Unit) :=
  [.serve 0 (.accept ""), .deliver 0 0, .serve 0 (.accept ""), .serve 0 (.accept ""),
    .serve 0 (.accept ""), .deliver 0 0, .deliver 0 0, .deliver 0 0]

/-- A press that is left alone, and the document at a path before and after it. -/
structure Trial where
  quiet : Bool
  done : Bool
  before : Option Doc
  after : Option Doc
  deriving DecidableEq

def trial (r : Draw) (p : Path) (c : GroupConfig Unit) : Option Trial :=
  ((groupSystem Unit).step c (.event () (.pressCreate r))).bind fun c₁ =>
    ((groupSystem Unit).follow (Alone (accepted Unit)) c₁ saveAlone).map fun c' =>
      ⟨decide c.Quiet, decide c'.Quiet, DocStore.get c.backend.db p, DocStore.get c'.backend.db p⟩

theorem pressed_of_trial {r : Draw} {p : Path} {c : GroupConfig Unit} {before after : Option Doc}
    (h : trial r p c = some ⟨true, true, before, after⟩) :
    ∃ c₁ c', Created (accepted Unit) () r c c₁ c' ∧ DocStore.get c.backend.db p = before ∧
      DocStore.get c'.backend.db p = after := by
  obtain ⟨c₁, hpress, h⟩ := Option.bind_eq_some_iff.mp h
  obtain ⟨c', hrun, heq⟩ := Option.map_eq_some_iff.mp h
  obtain ⟨hquiet, hdone, hbefore, hafter⟩ := Trial.mk.inj heq
  exact ⟨c₁, c', ⟨of_decide_eq_true hquiet, hpress, Machine.Steps.of_follow hrun,
    of_decide_eq_true hdone⟩, hbefore, hafter⟩

/-- The page has saved a group under the draw 7, and the name of the next one has been typed. -/
def savedFirst : List (GroupAction Unit) :=
  openPage ++ .event () (.pressCreate 7) :: saveAlone ++ [.event () (.editName "Rivals")]

/-- There is a group already, and the draw of the second press is free. -/
theorem creation_keeps_iff_ola : ∃ c c₁ c' : GroupConfig Unit,
    (groupSystem Unit).Reachable c ∧
      (DocStore.get c.backend.db (groupPath "public" "7")).isSome = true ∧
      Created (accepted Unit) () 8 c c₁ c' ∧
      GroupsKept c.backend.db c'.backend.db ∧ SavedFresh c.backend.db (c'.clients ()) := by
  have hrun : ((groupSystem Unit).run (start withOla) savedFirst).map
      (fun c => (((c.clients ()).groupType,
          (DocStore.get c.backend.db (groupPath "public" "7")).isSome),
        trial 8 (groupPath "public" "8") c))
      = some (("public", true), some ⟨true, true, none, some [("groupid", .int 8),
          ("name", .str "Rivals"), ("info", .str ""), ("host", .str "ola")]⟩) := by
    decide +kernel
  obtain ⟨c, hc, heq⟩ := Option.map_eq_some_iff.mp hrun
  obtain ⟨hstored, htrial⟩ := Prod.mk.inj heq
  obtain ⟨htype, hfirst⟩ := Prod.mk.inj hstored
  obtain ⟨c₁, c', hpressed, hnone, -⟩ := pressed_of_trial htrial
  have hreach : (groupSystem Unit).Reachable c := Machine.Reach.of_follow ⟨_, rfl, rfl⟩ hc
  have hkept := (creation_keeps_iff hreach hpressed).mpr (by rw [htype]; exact hnone)
  exact ⟨c, c₁, c', hreach, hfirst, hpressed, hkept⟩

/-- The draw 7 comes up twice: the second group replaces the first. -/
theorem not_creation_keeps : ¬ ∀ (c c₁ c' : GroupConfig Unit) (r : Draw),
    (groupSystem Unit).Reachable c → Created (accepted Unit) () r c c₁ c' →
      GroupsKept c.backend.db c'.backend.db ∧ SavedFresh c.backend.db (c'.clients ()) := by
  intro h
  have hrun : ((groupSystem Unit).run (start withOla) savedFirst).bind
        (trial 7 (groupPath "public" "7"))
      = some ⟨true, true,
          some [("groupid", .int 7), ("name", .str "unnamed"), ("info", .str ""),
            ("host", .str "ola")],
          some [("groupid", .int 7), ("name", .str "Rivals"), ("info", .str ""),
            ("host", .str "ola")]⟩ := by
    decide +kernel
  obtain ⟨c, hc, htrial⟩ := Option.bind_eq_some_iff.mp hrun
  obtain ⟨c₁, c', hpressed, hbefore, hafter⟩ := pressed_of_trial htrial
  have hreach : (groupSystem Unit).Reachable c := Machine.Reach.of_follow ⟨_, rfl, rfl⟩ hc
  have hkept := (h c c₁ c' 7 hreach hpressed).1 "public" "7" _ hbefore
  rw [hafter] at hkept
  exact absurd hkept (by decide)

end P0ker.Groups
