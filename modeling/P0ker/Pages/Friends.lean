import P0ker.Pages.Login
import P0ker.Pages.NewGroup

/-!
# The Friends page (`friends/friends.dart`)

The page that 'Create group' pushes: it lists the user's friends, a tap selects one, and 'Next' is
to put the selected ones into the group. Which group that is, the page reads from `creation/0`, a
document of the user that the page below writes; once it has found one it does not read it again.

The first read is made in `initState`, when the user is not known yet, so it reads the document of a
user `null`. What the answers of `getUser` leave in the page is read by `addToGroup`, which nothing
calls; 'Next' adds the map `data`, which nothing fills.
-/

namespace P0ker.Friends

/-- `HomeeState`. `opened` says whether `initState` has run. -/
structure HomeeState extends UserLookup where
  getStatus : Bool := false
  type : Option String := none
  groupId : Option Nat := none
  data : Doc := []
  username : Option String := none
  email : Option String := none
  uid : Option String := none
  add : Option String := none
  opened : Bool := false
  mounted : Bool := true
  deriving DecidableEq

/-- The code that runs on an answer; none runs on the answer to a write. -/
inductive Cont where
  | userIdFound
  | getUser
  | getGroupStatus
  | added
  deriving DecidableEq

def friendsPath (user : String) : Path := ["users", user, "friends"]

/-- The rows of `friendSearch`: what its query finds. -/
def friendSearch (s : HomeeState) (db : Db) : List (String × Doc) :=
  db.whereGreater (friendsPath (interp s.mCurrentUser)) "brukernavn" "0"

def membersPath (type : String) (groupId : String) : Path :=
  ["groups", type, "groups", groupId, "members"]

def addToFireStore (s : HomeeState) : Call Cont :=
  ⟨.added, .add (membersPath (interp s.type) (interpInt s.groupId)) s.data⟩

/-- `getUser()` up to the read. -/
def getUser (s : HomeeState) : Call Cont :=
  ⟨.getUser, .get (Login.userPath s.add)⟩

def addToGroup (s : HomeeState) : Call Cont :=
  ⟨.added, .setData (membersPath (interp s.type) (interpInt s.groupId) ++ [interp s.add])
    [("uid", .ofString s.uid), ("name", .ofString s.username), ("email", .ofString s.email)]⟩

/-- `getGroupStatus()` up to the read. -/
def getGroupStatus (s : HomeeState) : Call Cont :=
  ⟨.getGroupStatus, .get (NewGroup.creationPath (interp s.mCurrentUser))⟩

/-- `getUser` on the answer. -/
def userGot (s : HomeeState) (datasnapshot : Option Doc) : HomeeState :=
  match datasnapshot with
  | some d =>
      if s.mounted then
        { s with
          username := d.string "brukernavn", email := d.string "email", uid := d.string "uid" }
      else s
  | none => s

/-- `getGroupStatus` on the answer. -/
def groupStatusGot (s : HomeeState) (datasnapshot : Option Doc) : HomeeState :=
  match datasnapshot with
  | some d =>
      if s.mounted then
        { s with groupId := d.int "id", type := d.string "type", getStatus := true }
      else s
  | none => s

/-- A tap on the row of a friend. -/
def onTap (documentID : String) (s : HomeeState) : HomeeState × List (Call Cont) :=
  let s' := { s with add := some documentID }
  (s', (if s.getStatus = false then [getGroupStatus s] else []) ++ [getUser s'])

/-! ## The page as a client program -/

/-- What the interface can raise. The rows are on the screen once the user is found, 'Next' always
is. -/
inductive Event where
  | initState
  | tap (documentID : String)
  | pressNext
  | dispose
  deriving DecidableEq

def onEvent (s : HomeeState) : Event → Option (HomeeState × List (Call Cont))
  | .initState =>
      if s.opened then none
      else some ({ s with opened := true }, [⟨.userIdFound, .currentUser⟩, getGroupStatus s])
  | .tap documentID => if s.mounted ∧ s.userFound then some (onTap documentID s) else none
  | .pressNext => if s.mounted ∧ s.opened then some (s, [addToFireStore s]) else none
  | .dispose => if s.mounted then some ({ s with mounted := false }, []) else none

/-- The code that runs on an answer. -/
def onAnswer (s : HomeeState) (cont : Cont) (a : Answer) : HomeeState × List (Call Cont) :=
  match cont, a with
  | .userIdFound, .user userId => ({ s with toUserLookup := userIdFound userId s.toUserLookup }, [])
  | .getUser, .snapshot d => (userGot s d, [])
  | .getGroupStatus, .snapshot d => (groupStatusGot s d, [])
  | _, _ => (s, [])

def program : Async.Program HomeeState Event Unit (Call Cont) Answer where
  onEvent := onEvent
  onAnswer s c a _ := onAnswer s c.cont a

/-! ## What the handlers do -/

/-- The group the page has found. -/
def group (s : HomeeState) : Option String × Option Nat := (s.type, s.groupId)

/-- What an event issues: reads, or the map `data` as a new member; the group and `data` stay. -/
theorem onEvent_cases {s s' : HomeeState} {e : Event} {out : List (Call Cont)}
    (h : onEvent s e = some (s', out)) : s'.data = s.data ∧ group s' = group s ∧
      ∀ call ∈ out, (call = ⟨.userIdFound, .currentUser⟩ ∨ call = getGroupStatus s ∨
        ∃ f, e = .tap f ∧ call = ⟨.getUser, .get (Login.userPath (some f))⟩) ∨
        e = .pressNext ∧ call = addToFireStore s := by
  cases e with
  | initState =>
      simp only [onEvent] at h
      split at h
      · cases h
      · obtain ⟨rfl, rfl⟩ := Prod.mk.inj (Option.some.inj h)
        refine ⟨rfl, rfl, ?_⟩
        intro call hc
        rcases List.mem_cons.mp hc with rfl | hc
        · exact Or.inl (Or.inl rfl)
        · exact Or.inl (Or.inr (Or.inl (List.mem_singleton.mp hc)))
  | tap documentID =>
      simp only [onEvent] at h
      split at h
      · obtain ⟨rfl, rfl⟩ := Prod.mk.inj (Option.some.inj h)
        refine ⟨rfl, rfl, ?_⟩
        intro call hc
        rcases List.mem_append.mp hc with hc | hc
        · split at hc
          · exact Or.inl (Or.inr (Or.inl (List.mem_singleton.mp hc)))
          · cases hc
        · exact Or.inl (Or.inr (Or.inr ⟨documentID, rfl, List.mem_singleton.mp hc⟩))
      · cases h
  | pressNext =>
      simp only [onEvent] at h
      split at h
      · obtain ⟨rfl, rfl⟩ := Prod.mk.inj (Option.some.inj h)
        refine ⟨rfl, rfl, ?_⟩
        intro call hc
        exact Or.inr ⟨rfl, List.mem_singleton.mp hc⟩
      · cases h
  | dispose =>
      simp only [onEvent] at h
      split at h
      · obtain ⟨rfl, rfl⟩ := Prod.mk.inj (Option.some.inj h)
        exact ⟨rfl, rfl, List.forall_mem_nil _⟩
      · cases h

theorem userGot_keeps (s : HomeeState) (d : Option Doc) :
    (userGot s d).data = s.data ∧ group (userGot s d) = group s := by
  cases d with
  | none => exact ⟨rfl, rfl⟩
  | some d =>
      simp only [userGot]
      split <;> exact ⟨rfl, rfl⟩

theorem groupStatusGot_cases (s : HomeeState) (d : Option Doc) :
    (groupStatusGot s d).data = s.data ∧ (group (groupStatusGot s d) = group s ∨
      ∃ d', d = some d' ∧ s.mounted = true ∧
        group (groupStatusGot s d) = (d'.string "type", d'.int "id")) := by
  cases d with
  | none => exact ⟨rfl, Or.inl rfl⟩
  | some d =>
      simp only [groupStatusGot]
      split
      · next hm => exact ⟨rfl, Or.inr ⟨d, rfl, hm, rfl⟩⟩
      · exact ⟨rfl, Or.inl rfl⟩

/-- No answer issues a call or fills `data`; only that of `getGroupStatus` sets the group, if it has
found a document and the page is still there. -/
theorem onAnswer_cases (s : HomeeState) (cont : Cont) (a : Answer) :
    (onAnswer s cont a).2 = [] ∧ (onAnswer s cont a).1.data = s.data ∧
      (group (onAnswer s cont a).1 = group s ∨
        ∃ d, cont = .getGroupStatus ∧ a = .snapshot (some d) ∧ s.mounted = true ∧
          group (onAnswer s cont a).1 = (d.string "type", d.int "id")) := by
  cases cont with
  | userIdFound => cases a <;> exact ⟨rfl, rfl, Or.inl rfl⟩
  | added => cases a <;> exact ⟨rfl, rfl, Or.inl rfl⟩
  | getUser =>
      cases a with
      | snapshot d =>
          obtain ⟨hdata, hgroup⟩ := userGot_keeps s d
          exact ⟨rfl, hdata, Or.inl hgroup⟩
      | documents | done | user | uid | failed => exact ⟨rfl, rfl, Or.inl rfl⟩
  | getGroupStatus =>
      cases a with
      | snapshot d =>
          obtain ⟨hdata, hgroup | ⟨d', rfl, hm, hgroup⟩⟩ := groupStatusGot_cases s d
          · exact ⟨rfl, hdata, Or.inl hgroup⟩
          · exact ⟨rfl, hdata, Or.inr ⟨d', rfl, rfl, hm, hgroup⟩⟩
      | documents | done | user | uid | failed => exact ⟨rfl, rfl, Or.inl rfl⟩

end P0ker.Friends
