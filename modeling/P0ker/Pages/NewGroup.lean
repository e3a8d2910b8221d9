import P0ker.Pages.Common

/-!
# The NewGroup page (`pages/group/sub/newGroup.dart`)

'Create group' draws an id, asks whether it is taken, and on the answer either saves the group or
draws again. The id, the type and the texts are fields of the page: `_saveGroup` and `creation`
read them when the answer comes, not when the button was pressed.
-/

namespace P0ker.NewGroup

/-- `NewGroupState`. `opened` says whether `initState` has run. -/
structure NewGroupState extends UserLookup where
  groupName : String := "unnamed"
  groupInfo : String := ""
  groupType : String := "public"
  groupId : Option Nat := none
  gameIdAvailable : Bool := false
  isPublic : Bool := true
  opened : Bool := false
  mounted : Bool := true
  deriving DecidableEq

/-- The code that runs on an answer; none runs on the answer to a write. -/
inductive Cont where
  | userIdFound
  | checkGroupId
  | written
  deriving DecidableEq

/-- `checkGroupId()` up to the query. -/
def checkGroupId (s : NewGroupState) : Call Cont :=
  ⟨.checkGroupId, .whereEq ["groups", s.groupType, interpInt s.groupId] "groupid"
    (.ofInt s.groupId)⟩

/-- What `setGroupId` does to the state. -/
def drawn (r : Draw) (s : NewGroupState) : NewGroupState :=
  { s with groupId := some r.val }

def setGroupId (r : Draw) (s : NewGroupState) : NewGroupState × List (Call Cont) :=
  (drawn r s, [checkGroupId (drawn r s)])

/-- The document of a group, written twice. -/
def groupDoc (s : NewGroupState) : Doc :=
  [("groupid", .ofInt s.groupId), ("name", .str s.groupName), ("info", .str s.groupInfo),
    ("host", .ofString s.mCurrentUser)]

def groupPath (type id : String) : Path := ["groups", type, "groups", id]

def userGroupPath (user id : String) : Path := ["users", user, "groups", id]

def creationPath (user : String) : Path := ["users", user, "creation", "0"]

def saveGroup (s : NewGroupState) : List (Call Cont) :=
  [⟨.written, .setData (groupPath s.groupType (interpInt s.groupId)) (groupDoc s)⟩,
    ⟨.written, .setData (userGroupPath (interp s.mCurrentUser) (interpInt s.groupId)) (groupDoc s)⟩]

def creation (s : NewGroupState) : List (Call Cont) :=
  [⟨.written, .setData (creationPath (interp s.mCurrentUser))
    [("id", .ofInt s.groupId), ("type", .str s.groupType)]⟩]

/-- `checkGroupId` on the answer of the query; `r` is the next draw, if there is one. -/
def groupIdChecked (s : NewGroupState) (documents : List (String × Doc)) (r : Draw) :
    NewGroupState × List (Call Cont) :=
  if s.mounted then
    if documents = [] then
      ({ s with gameIdAvailable := true }, saveGroup s ++ creation s)
    else setGroupId r { s with gameIdAvailable := false }
  else (s, [])

/-! ## The page as a client program -/

/-- What the interface can raise. 'Create group' also pushes the Friends page, and 'Cancel' pops
this one (`dispose`). -/
inductive Event where
  | initState
  | editName (str : String)
  | editInfo (str : String)
  | tapPublic
  | tapPrivate
  | pressCreate (r : Draw)
  | dispose
  deriving DecidableEq

/-- The handlers of the form, which is on the screen once the user is found. -/
def handle (s : NewGroupState) : Event → Option (NewGroupState × List (Call Cont))
  | .editName str => some ({ s with groupName := str }, [])
  | .editInfo str => some ({ s with groupInfo := str }, [])
  | .tapPublic => some ({ s with isPublic := true, groupType := "public" }, [])
  | .tapPrivate => some ({ s with isPublic := false, groupType := "private" }, [])
  | .pressCreate r => some (setGroupId r s)
  | .initState => none
  | .dispose => none

def onEvent (s : NewGroupState) (e : Event) : Option (NewGroupState × List (Call Cont)) :=
  match e with
  | .initState =>
      if s.opened then none else some ({ s with opened := true }, [⟨.userIdFound, .currentUser⟩])
  | .dispose => if s.mounted then some ({ s with mounted := false }, []) else none
  | e => if s.mounted ∧ s.userFound then handle s e else none

/-- The code that runs on an answer. A rejected query has no handler. -/
def onAnswer (s : NewGroupState) (cont : Cont) (a : Answer) (r : Draw) :
    NewGroupState × List (Call Cont) :=
  match cont, a with
  | .userIdFound, .user userId => ({ s with toUserLookup := userIdFound userId s.toUserLookup }, [])
  | .checkGroupId, .documents ds => groupIdChecked s ds r
  | _, _ => (s, [])

def program : Async.Program NewGroupState Event Draw (Call Cont) Answer where
  onEvent := onEvent
  onAnswer s c a r := onAnswer s c.cont a r

/-! ## What the handlers do -/

/-- The calls of a group that is saved. -/
def saved (s : NewGroupState) : List (Call Cont) := saveGroup s ++ creation s

theorem mem_saved {s : NewGroupState} {call : Call Cont} :
    call ∈ saved s ↔
      call = ⟨.written, .setData (groupPath s.groupType (interpInt s.groupId)) (groupDoc s)⟩ ∨
      call = ⟨.written, .setData (userGroupPath (interp s.mCurrentUser) (interpInt s.groupId))
        (groupDoc s)⟩ ∨
      call = ⟨.written, .setData (creationPath (interp s.mCurrentUser))
        [("id", .ofInt s.groupId), ("type", .str s.groupType)]⟩ := by
  simp [saved, saveGroup, creation]

theorem group_mem_saved (s : NewGroupState) :
    ⟨.written, .setData (groupPath s.groupType (interpInt s.groupId)) (groupDoc s)⟩ ∈ saved s :=
  mem_saved.mpr (Or.inl rfl)

theorem saved_cont {s : NewGroupState} {call : Call Cont} (h : call ∈ saved s) :
    call.cont = .written := by
  rcases mem_saved.mp h with rfl | rfl | rfl <;> rfl

section GroupIdChecked

variable {s : NewGroupState} {ds : List (String × Doc)} {r : Draw}

theorem groupIdChecked_disposed (hm : ¬ s.mounted = true) : groupIdChecked s ds r = (s, []) :=
  if_neg hm

theorem groupIdChecked_free (hm : s.mounted = true) :
    groupIdChecked s [] r = ({ s with gameIdAvailable := true }, saved s) := by
  rw [groupIdChecked, if_pos hm, if_pos rfl]
  rfl

theorem groupIdChecked_taken (hm : s.mounted = true) (hd : ds ≠ []) :
    groupIdChecked s ds r = (drawn r { s with gameIdAvailable := false },
      [checkGroupId (drawn r { s with gameIdAvailable := false })]) := by
  rw [groupIdChecked, if_pos hm, if_neg hd]
  rfl

end GroupIdChecked

/-- What an event does: it opens the page and asks for the user; or it issues the query of a fresh
draw, on a page that has its user; or nothing is issued, and the user stays who it was. -/
theorem onEvent_cases {s s' : NewGroupState} {e : Event} {out : List (Call Cont)}
    (h : onEvent s e = some (s', out)) :
    (out = [] ∧ s'.toUserLookup = s.toUserLookup ∧ s'.opened = s.opened) ∨
      (e = .initState ∧ s.opened = false ∧ s' = { s with opened := true } ∧
        out = [⟨.userIdFound, .currentUser⟩]) ∨
      ∃ r, e = .pressCreate r ∧ s.mounted = true ∧ s.userFound = true ∧ s' = drawn r s ∧
        out = [checkGroupId (drawn r s)] := by
  cases e <;> simp only [onEvent, handle] at h <;> split at h
  case pressCreate.isTrue r hon =>
    obtain ⟨rfl, rfl⟩ := Prod.mk.inj (Option.some.inj h)
    exact Or.inr (Or.inr ⟨r, rfl, hon.1, hon.2, rfl, rfl⟩)
  case initState.isFalse hclosed =>
    obtain ⟨rfl, rfl⟩ := Prod.mk.inj (Option.some.inj h)
    exact Or.inr (Or.inl ⟨rfl, by simpa using hclosed, rfl, rfl⟩)
  case editName.isTrue | editInfo.isTrue | tapPublic.isTrue | tapPrivate.isTrue | dispose.isTrue =>
    obtain ⟨rfl, rfl⟩ := Prod.mk.inj (Option.some.inj h)
    exact Or.inl ⟨rfl, rfl, rfl⟩
  all_goals cases h

/-- Only a draw, whose query goes out with it, changes the id. -/
theorem groupId_of_onEvent {s s' : NewGroupState} {e : Event} (h : onEvent s e = some (s', [])) :
    s'.groupId = s.groupId := by
  cases e <;> simp only [onEvent, handle] at h <;> split at h
  case editName.isTrue | editInfo.isTrue | tapPublic.isTrue | tapPrivate.isTrue | dispose.isTrue =>
    obtain ⟨rfl, -⟩ := Prod.mk.inj (Option.some.inj h)
    rfl
  case pressCreate.isTrue | initState.isFalse =>
    exact absurd (Prod.mk.inj (Option.some.inj h)).2 (List.cons_ne_nil _ _)
  all_goals cases h

/-- The type of a group is one of the two. -/
theorem groupType_of_onEvent {s s' : NewGroupState} {e : Event} {out : List (Call Cont)}
    (h : onEvent s e = some (s', out)) (ht : s.groupType = "public" ∨ s.groupType = "private") :
    s'.groupType = "public" ∨ s'.groupType = "private" := by
  cases e <;> simp only [onEvent, handle] at h <;> split at h
  case tapPublic.isTrue =>
    obtain ⟨rfl, -⟩ := Prod.mk.inj (Option.some.inj h)
    exact Or.inl rfl
  case tapPrivate.isTrue =>
    obtain ⟨rfl, -⟩ := Prod.mk.inj (Option.some.inj h)
    exact Or.inr rfl
  case editName.isTrue | editInfo.isTrue | pressCreate.isTrue | initState.isFalse |
      dispose.isTrue =>
    obtain ⟨rfl, -⟩ := Prod.mk.inj (Option.some.inj h)
    exact ht
  all_goals cases h

/-- What an answer does: it finds the user; or it issues the query of a fresh draw, or the three
writes of a group; or nothing happens. -/
theorem onAnswer_cases (s : NewGroupState) (cont : Cont) (a : Answer) (r : Draw) :
    onAnswer s cont a r = (s, []) ∨
      (∃ u, cont = .userIdFound ∧ a = .user u ∧ onAnswer s cont a r =
        ({ s with toUserLookup := userIdFound u s.toUserLookup }, [])) ∨
      (cont = .checkGroupId ∧ s.mounted = true ∧ (∃ ds, ds ≠ [] ∧ a = .documents ds) ∧
        onAnswer s cont a r = (drawn r { s with gameIdAvailable := false },
          [checkGroupId (drawn r { s with gameIdAvailable := false })])) ∨
      (cont = .checkGroupId ∧ s.mounted = true ∧ a = .documents [] ∧
        onAnswer s cont a r = ({ s with gameIdAvailable := true }, saved s)) := by
  cases cont with
  | userIdFound =>
      cases a with
      | user u => exact Or.inr (Or.inl ⟨u, rfl, rfl, rfl⟩)
      | documents | snapshot | done | uid | failed => exact Or.inl rfl
  | written => cases a <;> exact Or.inl rfl
  | checkGroupId =>
      cases a with
      | documents ds =>
          by_cases hm : s.mounted = true
          · by_cases hd : ds = []
            · subst hd
              exact Or.inr (Or.inr (Or.inr ⟨rfl, hm, rfl, groupIdChecked_free hm⟩))
            · exact Or.inr (Or.inr (Or.inl ⟨rfl, hm, ⟨ds, hd, rfl⟩, groupIdChecked_taken hm hd⟩))
          · exact Or.inl (groupIdChecked_disposed hm)
      | snapshot | done | user | uid | failed => exact Or.inl rfl

/-- What the step on the answer to `call` does. -/
theorem answer_cases {s s' : NewGroupState} {call : Call Cont} {a : Answer} {r : Draw}
    {out : List (Call Cont)} (h : program.onAnswer s call a r = (s', out)) :
    (s' = s ∧ out = []) ∨
      (∃ u, call.cont = .userIdFound ∧ a = .user u ∧
        s' = { s with toUserLookup := userIdFound u s.toUserLookup } ∧ out = []) ∨
      (call.cont = .checkGroupId ∧ s.mounted = true ∧ (∃ ds, ds ≠ [] ∧ a = .documents ds) ∧
        s' = drawn r { s with gameIdAvailable := false } ∧ out = [checkGroupId s']) ∨
      (call.cont = .checkGroupId ∧ s.mounted = true ∧ a = .documents [] ∧
        s' = { s with gameIdAvailable := true } ∧ out = saved s) := by
  have h' : onAnswer s call.cont a r = (s', out) := h
  rcases onAnswer_cases s call.cont a r with
    heq | ⟨u, hc, ha, heq⟩ | ⟨hc, hm, ha, heq⟩ | ⟨hc, hm, ha, heq⟩ <;>
    rw [heq] at h' <;> obtain ⟨rfl, rfl⟩ := Prod.mk.inj h'
  · exact Or.inl ⟨rfl, rfl⟩
  · exact Or.inr (Or.inl ⟨u, hc, ha, rfl, rfl⟩)
  · exact Or.inr (Or.inr (Or.inl ⟨hc, hm, ha, rfl, rfl⟩))
  · exact Or.inr (Or.inr (Or.inr ⟨hc, hm, ha, rfl, rfl⟩))

theorem groupType_onAnswer (s : NewGroupState) (cont : Cont) (a : Answer) (r : Draw) :
    (onAnswer s cont a r).1.groupType = s.groupType := by
  rcases onAnswer_cases s cont a r with h | ⟨u, -, -, h⟩ | ⟨-, -, -, h⟩ | ⟨-, -, -, h⟩
  · rw [h]
  · rw [h]
  · rw [h]
    rfl
  · rw [h]

/-- The page looks its user up once. -/
theorem looksUp :
    LooksUp program NewGroupState.toUserLookup NewGroupState.opened .userIdFound := by
  constructor
  · intro s e s' out he
    rcases onEvent_cases he with ⟨rfl, hl, ho⟩ | ⟨-, ho, rfl, rfl⟩ | ⟨r, -, -, -, rfl, rfl⟩
    · exact ⟨hl, Or.inr ⟨ho, nofun⟩⟩
    · exact ⟨rfl, Or.inl ⟨ho, rfl, rfl⟩⟩
    · refine ⟨rfl, Or.inr ⟨rfl, ?_⟩⟩
      intro call hc
      rw [List.mem_singleton.mp hc]
      nofun
  · intro s call a r s' out ha
    rcases answer_cases ha with
      ⟨rfl, rfl⟩ | ⟨u, hu, -, rfl, rfl⟩ | ⟨-, -, -, rfl, rfl⟩ | ⟨-, -, -, rfl, rfl⟩
    · exact ⟨rfl, nofun, Or.inl rfl⟩
    · exact ⟨rfl, nofun, Or.inr ⟨hu, u, rfl⟩⟩
    · refine ⟨rfl, ?_, Or.inl rfl⟩
      intro call' hc
      rw [List.mem_singleton.mp hc]
      nofun
    · refine ⟨rfl, ?_, Or.inl rfl⟩
      intro call' hc
      rw [saved_cont hc]
      nofun

/-- Its queries and its writes wait for the user. -/
theorem gated : Gated program NewGroupState.toUserLookup .userIdFound where
  event s e s' out he := by
    rcases onEvent_cases he with ⟨rfl, -⟩ | ⟨-, -, -, rfl⟩ | ⟨r, -, -, hu, -, rfl⟩
    · exact Or.inl (List.forall_mem_nil _)
    · exact Or.inl (List.forall_mem_singleton.mpr rfl)
    · exact Or.inr hu
  answer s call a r s' out ha hout := by
    rcases answer_cases ha with ⟨-, rfl⟩ | ⟨u, -, -, -, rfl⟩ | ⟨hcont, -⟩ | ⟨hcont, -⟩
    · exact absurd rfl hout
    · exact absurd rfl hout
    · rw [hcont]
      nofun
    · rw [hcont]
      nofun

end P0ker.NewGroup
