import P0ker.Games.Allocation

/-!
# One press of 'Start game'

The NewGame page runs the allocation loop: left alone, a press draws until an id is free, and the
two writes it then issues are those of the form that was on the screen when the button was pressed.
-/

namespace P0ker.Games

open Async NewGame

variable {ι : Type} [DecidableEq ι]

/-- The page is on the screen, and its form is that of `page`. -/
structure SameForm (page s : NewGameState) : Prop where
  mounted : s.mounted = true
  form : s = { page with gameId := s.gameId, gameIdAvailable := s.gameIdAvailable }

theorem SameForm.refl {page : NewGameState} (h : page.mounted = true) : SameForm page page :=
  ⟨h, rfl⟩

theorem SameForm.drawn {page s : NewGameState} {r : Draw} (h : SameForm page s) :
    SameForm page (drawn r s) := by
  refine ⟨h.mounted, ?_⟩
  have hform := congrArg (fun s : NewGameState => { s with gameId := some r.val }) h.form
  exact hform

theorem SameForm.available {page s : NewGameState} {b : Bool} (h : SameForm page s) :
    SameForm page { s with gameIdAvailable := b } := by
  refine ⟨h.mounted, ?_⟩
  have hform := congrArg (fun s : NewGameState => { s with gameIdAvailable := b }) h.form
  exact hform

/-- The two paths of a game differ. -/
theorem saveGame_apart {s : NewGameState} {call call' : Call Cont} {p : Path} {d d' : Doc}
    (hc : call ∈ saveGame s) (hc' : call' ∈ saveGame s) (hd : call.req.Stores p d)
    (hd' : call'.req.Stores p d') : call' = call := by
  rcases mem_saveGame.mp hc with rfl | rfl <;> rcases mem_saveGame.mp hc' with rfl | rfl
  · rfl
  · exact absurd (hd.1.symm.trans hd'.1) (gamePath_ne_userGamePath _ _ _)
  · exact absurd (hd'.1.symm.trans hd.1) (gamePath_ne_userGamePath _ _ _)
  · rfl

theorem allocates (page : NewGameState) :
    Allocates program (SameForm page) checkGameId saveGame where
  query s := ⟨_, _, _, rfl⟩
  free s t r h := by
    exact ⟨{ s with gameIdAvailable := true }, gameIdChecked_free h.mounted, h.available, rfl⟩
  taken s t ds r h hd := by
    refine ⟨drawn r { s with gameIdAvailable := false }, gameIdChecked_taken h.mounted hd, ?_⟩
    exact h.available.drawn
  failed s t e r := rfl
  written s t call a r hc := by
    show onAnswer s call.cont a r = (s, [])
    rw [saveGame_cont hc]
    cases a <;> rfl
  apart s call hc call' hc' p d d' := saveGame_apart hc hc'

/-- A press of 'Start game' that is left alone. -/
abbrev Started (rej : Rejected ι Cont) (i : ι) (r : Draw) (c c₁ c' : GameConfig ι) : Prop :=
  Pressed (gameSystem ι) rej i (.pressStart r) c c₁ c'

theorem press_inv {c c₁ : GameConfig ι} {i : ι} {r : Draw}
    (h : (gameSystem ι).step c (.event i (.pressStart r)) = some c₁) :
    program.onEvent (c.clients i) (.pressStart r) =
        some (drawn r (c.clients i), [checkGameId (drawn r (c.clients i))]) ∧
      SameForm (c.clients i) (drawn r (c.clients i)) := by
  obtain ⟨s, out, he, -⟩ := step_event (S := firebase ι Cont) h
  have hpress : (if (c.clients i).mounted ∧ (c.clients i).userFound then
      some (setGameId r (c.clients i)) else none) = some (s, out) := he
  split at hpress
  · next hon =>
      refine ⟨?_, (SameForm.refl hon.1).drawn⟩
      rw [he, ← hpress]
      rfl
  · cases hpress

end P0ker.Games
