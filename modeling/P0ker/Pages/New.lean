import P0ker.Pages.Common

/-!
# The New page (`pages/group/sub/new.dart`)

The page behind the button of the GamePage. It looks the user up, and then shows the rows 'New
Group', 'New League' and 'New Game'; the first and the last push a page, the one between has no
handler.
-/

namespace P0ker.New

/-- `NewState`. `opened` says whether `initState` has run. -/
structure NewState extends UserLookup where
  opened : Bool := false
  mounted : Bool := true
  deriving DecidableEq

/-- The code that runs on an answer. -/
inductive Cont where
  | userIdFound
  deriving DecidableEq

/-- A row of `usernameAndPassword`. -/
inductive Row where
  | newGroup
  | newLeague
  | newGame
  deriving DecidableEq

/-- `setScreen()`: the rows on the screen. -/
def setScreen (s : NewState) : List Row :=
  if s.userFound then [.newGroup, .newLeague, .newGame] else []

/-! ## The page as a client program -/

inductive Event where
  | initState
  | dispose
  deriving DecidableEq

def onEvent (s : NewState) : Event → Option (NewState × List (Call Cont))
  | .initState =>
      if s.opened then none else some ({ s with opened := true }, [⟨.userIdFound, .currentUser⟩])
  | .dispose => if s.mounted then some ({ s with mounted := false }, []) else none

def onAnswer (s : NewState) (cont : Cont) (a : Answer) : NewState × List (Call Cont) :=
  match cont, a with
  | .userIdFound, .user userId => ({ s with toUserLookup := userIdFound userId s.toUserLookup }, [])
  | _, _ => (s, [])

end P0ker.New
