import P0ker.Pages.Common
import P0ker.Dart.DateTime

/-!
# The NewGame page (`pages/group/sub/newGame_page.dart`)

A form for a game, and the same loop as on the NewGroup page: 'Start game' draws an id, asks whether
it is taken, and on the answer either saves the game or draws again. Here the query reads the
collection the games are stored in.

What the form shows and what is saved are separate fields: the slider shows `val` and saves
`gameMaxPlayers`, a picker opens with `date` or `time` and saves `gameDate` or `gameTime`, and only
when something else was picked.

An answer may come, or a picker return, when the `State` is gone: `setState` is then assumed to
throw before its closure runs, as it does in a debug build.
-/

namespace P0ker.NewGame

open Dart

/-- `NewGameState`. `opened` says whether `initState` has run; `date` and `time` are then the ones
of that moment. -/
structure NewGameState extends UserLookup where
  gameName : Option String := none
  gameAdress : Option String := none
  gameDate : Option String := none
  gameTime : Option String := none
  gameMaxPlayers : Option Nat := none
  gameSBlind : Option String := none
  gameBBlind : Option String := none
  gameInfo : Option String := none
  gameId : Option Nat := none
  gameIdAvailable : Bool := false
  val : Nat := 5
  date : DateTime := {}
  time : TimeOfDay := {}
  opened : Bool := false
  mounted : Bool := true
  deriving DecidableEq

/-- The code that runs on an answer; none runs on the answer to a write. -/
inductive Cont where
  | userIdFound
  | checkGameId
  | written
  deriving DecidableEq

abbrev gamesPath : Path := ["groups", "gutta", "games"]

def gamePath (id : String) : Path := gamesPath ++ [id]

def userGamePath (user id : String) : Path := ["users", user, "games", id]

/-- `checkGameId()` up to the query. -/
def checkGameId (s : NewGameState) : Call Cont :=
  ⟨.checkGameId, .whereEq gamesPath "gameid" (.ofInt s.gameId)⟩

/-- What `setGameId` does to the state. -/
def drawn (r : Draw) (s : NewGameState) : NewGameState :=
  { s with gameId := some r.val }

def setGameId (r : Draw) (s : NewGameState) : NewGameState × List (Call Cont) :=
  (drawn r s, [checkGameId (drawn r s)])

/-- The document of a game, written twice. -/
def gameDoc (s : NewGameState) : Doc :=
  [("gameid", .ofInt s.gameId), ("name", .ofString s.gameName), ("adress", .ofString s.gameAdress),
    ("date", .ofString s.gameDate), ("time", .ofString s.gameTime),
    ("maxplayers", .ofInt s.gameMaxPlayers), ("sblind", .ofString s.gameSBlind),
    ("bblind", .ofString s.gameBBlind), ("info", .ofString s.gameInfo)]

def saveGame (s : NewGameState) : List (Call Cont) :=
  [⟨.written, .setData (gamePath (interpInt s.gameId)) (gameDoc s)⟩,
    ⟨.written, .setData (userGamePath (interp s.mCurrentUser) (interpInt s.gameId)) (gameDoc s)⟩]

/-- `checkGameId` on the answer of the query; `r` is the next draw, if there is one. -/
def gameIdChecked (s : NewGameState) (documents : List (String × Doc)) (r : Draw) :
    NewGameState × List (Call Cont) :=
  if s.mounted then
    if documents = [] then ({ s with gameIdAvailable := true }, saveGame s)
    else setGameId r { s with gameIdAvailable := false }
  else (s, [])

/-- `_selectDate` after the picker has closed, with no date if it was cancelled. -/
def dateSelected (picked : Option DateTime) (s : NewGameState) : NewGameState :=
  match picked with
  | some d => if d ≠ s.date then { s with date := d, gameDate := some d.toString } else s
  | none => s

/-- `_selectTime` after the picker has closed. -/
def timeSelected (picked : Option TimeOfDay) (s : NewGameState) : NewGameState :=
  match picked with
  | some t => if t ≠ s.time then { s with time := t, gameTime := some t.toString } else s
  | none => s

/-! ## The page as a client program -/

/-- What the interface can raise. The slider has ten positions; a picker is modal, so opening and
closing it is one event. -/
inductive Event where
  | initState (date : DateTime) (time : TimeOfDay)
  | editName (str : String)
  | editAdress (str : String)
  | selectDate (picked : Option DateTime)
  | selectTime (picked : Option TimeOfDay)
  | moveSlider (newValue : Fin 10)
  | editSBlind (str : String)
  | editBBlind (str : String)
  | editInfo (str : String)
  | pressStart (r : Draw)
  | dispose
  deriving DecidableEq

/-- What the form does to the fields it shows and saves. -/
def formEvent (s : NewGameState) : Event → Option NewGameState
  | .editName str => some { s with gameName := some str }
  | .editAdress str => some { s with gameAdress := some str }
  | .selectDate picked => some (dateSelected picked s)
  | .selectTime picked => some (timeSelected picked s)
  | .moveSlider newValue => some { s with val := newValue, gameMaxPlayers := some newValue }
  | .editSBlind str => some { s with gameSBlind := some str }
  | .editBBlind str => some { s with gameBBlind := some str }
  | .editInfo str => some { s with gameInfo := some str }
  | _ => none

/-- The handlers of the page; the form and its buttons are on the screen once the user is found. -/
def onEvent (s : NewGameState) (e : Event) : Option (NewGameState × List (Call Cont)) :=
  match e with
  | .initState date time =>
      if s.opened then none
      else some ({ s with opened := true, date := date, time := time },
        [⟨.userIdFound, .currentUser⟩])
  | .dispose => if s.mounted then some ({ s with mounted := false }, []) else none
  | .pressStart r => if s.mounted ∧ s.userFound then some (setGameId r s) else none
  | e => if s.mounted ∧ s.userFound then (formEvent s e).map fun s => (s, []) else none

/-- The code that runs on an answer. A rejected query has no handler. -/
def onAnswer (s : NewGameState) (cont : Cont) (a : Answer) (r : Draw) :
    NewGameState × List (Call Cont) :=
  match cont, a with
  | .userIdFound, .user userId => ({ s with toUserLookup := userIdFound userId s.toUserLookup }, [])
  | .checkGameId, .documents ds => gameIdChecked s ds r
  | _, _ => (s, [])

def program : Async.Program NewGameState Event Draw (Call Cont) Answer where
  onEvent := onEvent
  onAnswer s c a r := onAnswer s c.cont a r

/-! ## What the handlers do -/

theorem mem_saveGame {s : NewGameState} {call : Call Cont} :
    call ∈ saveGame s ↔
      call = ⟨.written, .setData (gamePath (interpInt s.gameId)) (gameDoc s)⟩ ∨
      call = ⟨.written, .setData (userGamePath (interp s.mCurrentUser) (interpInt s.gameId))
        (gameDoc s)⟩ := by
  simp [saveGame]

theorem saveGame_cont {s : NewGameState} {call : Call Cont} (h : call ∈ saveGame s) :
    call.cont = .written := by
  rcases mem_saveGame.mp h with rfl | rfl <;> rfl

/-- What leaves the id, the user and the page itself alone. -/
structure SamePage (s s' : NewGameState) : Prop where
  lookup : s'.toUserLookup = s.toUserLookup
  gameId : s'.gameId = s.gameId
  opened : s'.opened = s.opened

theorem dateSelected_page (picked : Option DateTime) (s : NewGameState) :
    SamePage s (dateSelected picked s) := by
  cases picked with
  | none => exact ⟨rfl, rfl, rfl⟩
  | some d =>
      simp only [dateSelected]
      split <;> exact ⟨rfl, rfl, rfl⟩

theorem timeSelected_page (picked : Option TimeOfDay) (s : NewGameState) :
    SamePage s (timeSelected picked s) := by
  cases picked with
  | none => exact ⟨rfl, rfl, rfl⟩
  | some t =>
      simp only [timeSelected]
      split <;> exact ⟨rfl, rfl, rfl⟩

theorem formEvent_page {s s' : NewGameState} {e : Event} (h : formEvent s e = some s') :
    SamePage s s' := by
  cases e with
  | selectDate picked =>
      obtain rfl := Option.some.inj h
      exact dateSelected_page picked s
  | selectTime picked =>
      obtain rfl := Option.some.inj h
      exact timeSelected_page picked s
  | editName | editAdress | moveSlider | editSBlind | editBBlind | editInfo =>
      obtain rfl := Option.some.inj h
      exact ⟨rfl, rfl, rfl⟩
  | initState | pressStart | dispose => cases h

/-- The form does not remove the page. -/
theorem formEvent_mounted {s s' : NewGameState} {e : Event} (h : formEvent s e = some s') :
    s'.mounted = s.mounted := by
  cases e with
  | selectDate picked =>
      obtain rfl := Option.some.inj h
      cases picked with
      | none => rfl
      | some d =>
          simp only [dateSelected]
          split <;> rfl
  | selectTime picked =>
      obtain rfl := Option.some.inj h
      cases picked with
      | none => rfl
      | some t =>
          simp only [timeSelected]
          split <;> rfl
  | editName | editAdress | moveSlider | editSBlind | editBBlind | editInfo =>
      obtain rfl := Option.some.inj h
      rfl
  | initState | pressStart | dispose => cases h

/-- What an event does: it opens the page and asks for the user; or it issues the query of a fresh
draw, on a page that has its user; or nothing is issued. -/
theorem onEvent_cases {s s' : NewGameState} {e : Event} {out : List (Call Cont)}
    (h : onEvent s e = some (s', out)) :
    (out = [] ∧ SamePage s s') ∨
      (s.opened = false ∧ s'.toUserLookup = s.toUserLookup ∧ s'.gameId = s.gameId ∧
        s'.opened = true ∧ out = [⟨.userIdFound, .currentUser⟩]) ∨
      ∃ r, e = .pressStart r ∧ s.mounted = true ∧ s.userFound = true ∧ s' = drawn r s ∧
        out = [checkGameId (drawn r s)] := by
  cases e with
  | initState date time =>
      simp only [onEvent] at h
      split at h
      · cases h
      · next hclosed =>
          obtain ⟨rfl, rfl⟩ := Prod.mk.inj (Option.some.inj h)
          exact Or.inr (Or.inl ⟨by simpa using hclosed, rfl, rfl, rfl, rfl⟩)
  | dispose =>
      simp only [onEvent] at h
      split at h
      · obtain ⟨rfl, rfl⟩ := Prod.mk.inj (Option.some.inj h)
        exact Or.inl ⟨rfl, rfl, rfl, rfl⟩
      · cases h
  | pressStart r =>
      simp only [onEvent] at h
      split at h
      · next hon =>
          obtain ⟨rfl, rfl⟩ := Prod.mk.inj (Option.some.inj h)
          exact Or.inr (Or.inr ⟨r, rfl, hon.1, hon.2, rfl, rfl⟩)
      · cases h
  | editName | editAdress | selectDate | selectTime | moveSlider | editSBlind | editBBlind |
      editInfo =>
      simp only [onEvent] at h
      split at h
      · obtain ⟨t, ht, heq⟩ := Option.map_eq_some_iff.mp h
        obtain ⟨rfl, rfl⟩ := Prod.mk.inj heq
        exact Or.inl ⟨rfl, formEvent_page ht⟩
      · cases h

section GameIdChecked

variable {s : NewGameState} {ds : List (String × Doc)} {r : Draw}

theorem gameIdChecked_disposed (hm : ¬ s.mounted = true) : gameIdChecked s ds r = (s, []) :=
  if_neg hm

theorem gameIdChecked_free (hm : s.mounted = true) :
    gameIdChecked s [] r = ({ s with gameIdAvailable := true }, saveGame s) := by
  rw [gameIdChecked, if_pos hm, if_pos rfl]

theorem gameIdChecked_taken (hm : s.mounted = true) (hd : ds ≠ []) :
    gameIdChecked s ds r = (drawn r { s with gameIdAvailable := false },
      [checkGameId (drawn r { s with gameIdAvailable := false })]) := by
  rw [gameIdChecked, if_pos hm, if_neg hd]
  rfl

end GameIdChecked

/-- What an answer does: it finds the user; or it issues the query of a fresh draw, or the two
writes of a game; or nothing happens. -/
theorem onAnswer_cases (s : NewGameState) (cont : Cont) (a : Answer) (r : Draw) :
    onAnswer s cont a r = (s, []) ∨
      (∃ u, cont = .userIdFound ∧ a = .user u ∧ onAnswer s cont a r =
        ({ s with toUserLookup := userIdFound u s.toUserLookup }, [])) ∨
      (cont = .checkGameId ∧ s.mounted = true ∧ (∃ ds, ds ≠ [] ∧ a = .documents ds) ∧
        onAnswer s cont a r = (drawn r { s with gameIdAvailable := false },
          [checkGameId (drawn r { s with gameIdAvailable := false })])) ∨
      (cont = .checkGameId ∧ s.mounted = true ∧ a = .documents [] ∧
        onAnswer s cont a r = ({ s with gameIdAvailable := true }, saveGame s)) := by
  cases cont with
  | userIdFound =>
      cases a with
      | user u => exact Or.inr (Or.inl ⟨u, rfl, rfl, rfl⟩)
      | documents | snapshot | done | uid | failed => exact Or.inl rfl
  | written => cases a <;> exact Or.inl rfl
  | checkGameId =>
      cases a with
      | documents ds =>
          by_cases hm : s.mounted = true
          · by_cases hd : ds = []
            · subst hd
              exact Or.inr (Or.inr (Or.inr ⟨rfl, hm, rfl, gameIdChecked_free hm⟩))
            · exact Or.inr (Or.inr (Or.inl ⟨rfl, hm, ⟨ds, hd, rfl⟩, gameIdChecked_taken hm hd⟩))
          · exact Or.inl (gameIdChecked_disposed hm)
      | snapshot | done | user | uid | failed => exact Or.inl rfl

/-- What the step on the answer to `call` does. -/
theorem answer_cases {s s' : NewGameState} {call : Call Cont} {a : Answer} {r : Draw}
    {out : List (Call Cont)} (h : program.onAnswer s call a r = (s', out)) :
    (s' = s ∧ out = []) ∨
      (∃ u, call.cont = .userIdFound ∧ a = .user u ∧
        s' = { s with toUserLookup := userIdFound u s.toUserLookup } ∧ out = []) ∨
      (call.cont = .checkGameId ∧ s.mounted = true ∧ (∃ ds, ds ≠ [] ∧ a = .documents ds) ∧
        s' = drawn r { s with gameIdAvailable := false } ∧ out = [checkGameId s']) ∨
      (call.cont = .checkGameId ∧ s.mounted = true ∧ a = .documents [] ∧
        s' = { s with gameIdAvailable := true } ∧ out = saveGame s) := by
  have h' : onAnswer s call.cont a r = (s', out) := h
  rcases onAnswer_cases s call.cont a r with
    heq | ⟨u, hc, ha, heq⟩ | ⟨hc, hm, ha, heq⟩ | ⟨hc, hm, ha, heq⟩ <;>
    rw [heq] at h' <;> obtain ⟨rfl, rfl⟩ := Prod.mk.inj h'
  · exact Or.inl ⟨rfl, rfl⟩
  · exact Or.inr (Or.inl ⟨u, hc, ha, rfl, rfl⟩)
  · exact Or.inr (Or.inr (Or.inl ⟨hc, hm, ha, rfl, rfl⟩))
  · exact Or.inr (Or.inr (Or.inr ⟨hc, hm, ha, rfl, rfl⟩))

/-- The page looks its user up once. -/
theorem looksUp : LooksUp program NewGameState.toUserLookup NewGameState.opened .userIdFound := by
  constructor
  · intro s e s' out he
    rcases onEvent_cases he with ⟨rfl, hpage⟩ | ⟨ho, hl, -, ho', rfl⟩ | ⟨r, -, -, -, rfl, rfl⟩
    · exact ⟨hpage.lookup, Or.inr ⟨hpage.opened, nofun⟩⟩
    · exact ⟨hl, Or.inl ⟨ho, ho', rfl⟩⟩
    · refine ⟨rfl, Or.inr ⟨rfl, ?_⟩⟩
      intro call hc
      rw [List.mem_singleton.mp hc]
      nofun
  · intro s call a r s' out ha
    rcases answer_cases ha with
      ⟨rfl, rfl⟩ | ⟨u, hu, -, rfl, rfl⟩ | ⟨-, -, -, rfl, rfl⟩ | ⟨-, -, -, rfl, rfl⟩
    · exact ⟨rfl, nofun, Or.inl rfl⟩
    · exact ⟨rfl, nofun, Or.inr ⟨hu, u, rfl⟩⟩
    · refine ⟨rfl, ?_, Or.inl rfl⟩
      intro call' hc
      rw [List.mem_singleton.mp hc]
      nofun
    · refine ⟨rfl, ?_, Or.inl rfl⟩
      intro call' hc
      rw [saveGame_cont hc]
      nofun

/-- Its queries and its writes wait for the user. -/
theorem gated : Gated program NewGameState.toUserLookup .userIdFound where
  event s e s' out he := by
    rcases onEvent_cases he with ⟨rfl, -⟩ | ⟨-, -, -, -, rfl⟩ | ⟨r, -, -, hu, -, rfl⟩
    · exact Or.inl (List.forall_mem_nil _)
    · exact Or.inl (List.forall_mem_singleton.mpr rfl)
    · exact Or.inr hu
  answer s call a r s' out ha hout := by
    rcases answer_cases ha with ⟨-, rfl⟩ | ⟨u, -, -, -, rfl⟩ | ⟨hcont, -⟩ | ⟨hcont, -⟩
    · exact absurd rfl hout
    · exact absurd rfl hout
    · rw [hcont]
      nofun
    · rw [hcont]
      nofun

end P0ker.NewGame
