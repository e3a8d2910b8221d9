import P0ker.Pages.Common

/-!
# The GamePage (`pages/group/game_page.dart`)

The tab that lists the groups of the user. It looks the user up, and then shows a row for each
document of `users/$mCurrentUser/groups`.
-/

namespace P0ker.GamePage

/-- `GamePageState`. `opened` says whether `initState` has run. -/
structure GamePageState extends UserLookup where
  opened : Bool := false
  mounted : Bool := true
  deriving DecidableEq

/-- The code that runs on an answer. -/
inductive Cont where
  | userIdFound
  deriving DecidableEq

/-- What a row of `_groupSearch` shows: `document['name']`, twice, and `document['info']`. -/
def row (document : Doc) : Option String × Option String :=
  (document.string "name", document.string "info")

/-- `setScreen()`: the rows on the screen. -/
def setScreen (s : GamePageState) (db : Db) : List (Option String × Option String) :=
  if s.userFound then
    (DocStore.documents db ["users", interp s.mCurrentUser, "groups"]).map fun e => row e.2
  else []

/-! ## The page as a client program -/

/-- What the interface can raise; the button of the bar pushes another page. -/
inductive Event where
  | initState
  | dispose
  deriving DecidableEq

def onEvent (s : GamePageState) : Event → Option (GamePageState × List (Call Cont))
  | .initState =>
      if s.opened then none else some ({ s with opened := true }, [⟨.userIdFound, .currentUser⟩])
  | .dispose => if s.mounted then some ({ s with mounted := false }, []) else none

def onAnswer (s : GamePageState) (cont : Cont) (a : Answer) : GamePageState × List (Call Cont) :=
  match cont, a with
  | .userIdFound, .user userId => ({ s with toUserLookup := userIdFound userId s.toUserLookup }, [])
  | _, _ => (s, [])

def program : Async.Program GamePageState Event Unit (Call Cont) Answer where
  onEvent := onEvent
  onAnswer s c a _ := onAnswer s c.cont a

/-! ## What the handlers do -/

theorem onEvent_cases {s s' : GamePageState} {e : Event} {out : List (Call Cont)}
    (h : onEvent s e = some (s', out)) :
    (e = .initState ∧ s.opened = false ∧ s' = { s with opened := true } ∧
        out = [⟨.userIdFound, .currentUser⟩]) ∨
      (e = .dispose ∧ s' = { s with mounted := false } ∧ out = []) := by
  cases e with
  | initState =>
      simp only [onEvent] at h
      split at h
      · cases h
      · next hclosed =>
          obtain ⟨rfl, rfl⟩ := Prod.mk.inj (Option.some.inj h)
          exact Or.inl ⟨rfl, by simpa using hclosed, rfl, rfl⟩
  | dispose =>
      simp only [onEvent] at h
      split at h
      · obtain ⟨rfl, rfl⟩ := Prod.mk.inj (Option.some.inj h)
        exact Or.inr ⟨rfl, rfl, rfl⟩
      · cases h

theorem onAnswer_cases (s : GamePageState) (cont : Cont) (a : Answer) :
    onAnswer s cont a = (s, []) ∨ ∃ u, a = .user u ∧
      onAnswer s cont a = ({ s with toUserLookup := userIdFound u s.toUserLookup }, []) := by
  cases a with
  | user u => exact Or.inr ⟨u, rfl, rfl⟩
  | documents | snapshot | done | uid | failed => exact Or.inl rfl

/-- The page looks its user up once. -/
theorem looksUp : LooksUp program GamePageState.toUserLookup GamePageState.opened .userIdFound := by
  constructor
  · intro s e s' out he
    rcases onEvent_cases he with ⟨-, ho, rfl, rfl⟩ | ⟨-, rfl, rfl⟩
    · exact ⟨rfl, Or.inl ⟨ho, rfl, rfl⟩⟩
    · exact ⟨rfl, Or.inr ⟨rfl, List.forall_mem_nil _⟩⟩
  · intro s call a r s' out ha
    have ha' : onAnswer s call.cont a = (s', out) := ha
    rcases onAnswer_cases s call.cont a with h | ⟨u, -, h⟩ <;> rw [h] at ha' <;>
      obtain ⟨rfl, rfl⟩ := Prod.mk.inj ha'
    · exact ⟨rfl, List.forall_mem_nil _, Or.inl rfl⟩
    · exact ⟨rfl, List.forall_mem_nil _, Or.inr ⟨rfl, u, rfl⟩⟩

end P0ker.GamePage
