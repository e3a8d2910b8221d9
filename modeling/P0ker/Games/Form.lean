import P0ker.Games.Allocation

/-!
# Is the saved game the game on the form?

The form keeps what it shows and what it will save in separate fields. The slider shows 5 before it
is moved but saves nothing; a picker shows the moment the page was opened and saves only what
differs from what it shows. So a value that is on the screen from the start is never saved, also
when the user confirms it.

`form_stored_iff` compares every saved game with the events of its form: texts are always the last
ones entered, and the rest is right exactly when it was moved away from its first value at least
once.
-/

namespace P0ker.GameForm

open Async NewGame Games
open Dart (DateTime TimeOfDay)

variable {ι : Type} [DecidableEq ι]

/-! ## What the user has done to the form -/

/-- The events of page `i` among the actions of a run. -/
def eventsOf (i : ι) (as : List (GameAction ι)) : List Event :=
  as.filterMap fun
    | .event j e => if j = i then some e else none
    | _ => none

def nameEntered : Event → Option String
  | .editName str => some str
  | _ => none

def adressEntered : Event → Option String
  | .editAdress str => some str
  | _ => none

def sblindEntered : Event → Option String
  | .editSBlind str => some str
  | _ => none

def bblindEntered : Event → Option String
  | .editBBlind str => some str
  | _ => none

def infoEntered : Event → Option String
  | .editInfo str => some str
  | _ => none

/-- A picker that is cancelled confirms nothing. -/
def dateConfirmed : Event → Option DateTime
  | .selectDate picked => picked
  | _ => none

def timeConfirmed : Event → Option TimeOfDay
  | .selectTime picked => picked
  | _ => none

def sliderMoved : Event → Option (Fin 10)
  | .moveSlider newValue => some newValue
  | _ => none

/-- The moment the page was opened. -/
def openedAt : Event → Option (DateTime × TimeOfDay)
  | .initState date time => some (date, time)
  | _ => none

/-- The last of the values that `f` reads off the events. -/
def last {α : Type} (f : Event → Option α) (es : List Event) : Option α :=
  (es.filterMap f).getLast?

/-- The document has the last text of each field, the last date and the last time that were
confirmed, and the value the slider shows. -/
structure FormStored (d : Doc) (es : List Event) (shown : Nat) : Prop where
  name : d.field "name" = .ofString (last nameEntered es)
  adress : d.field "adress" = .ofString (last adressEntered es)
  date : d.field "date" = .ofString ((last dateConfirmed es).map DateTime.toString)
  time : d.field "time" = .ofString ((last timeConfirmed es).map TimeOfDay.toString)
  maxplayers : d.field "maxplayers" = .int shown
  sblind : d.field "sblind" = .ofString (last sblindEntered es)
  bblind : d.field "bblind" = .ofString (last bblindEntered es)
  info : d.field "info" = .ofString (last infoEntered es)

/-- If anything was confirmed, something other than the first value was. -/
def MovedOff {α : Type} (first : α) (picks : List α) : Prop :=
  picks = [] ∨ ∃ x ∈ picks, x ≠ first

/-- The slider has been moved, and neither picker has only confirmed what it was opened with. -/
def Touched (es : List Event) : Prop :=
  es.filterMap sliderMoved ≠ [] ∧ ∀ t ∈ (es.filterMap openedAt).head?,
    MovedOff t.1 (es.filterMap dateConfirmed) ∧ MovedOff t.2 (es.filterMap timeConfirmed)

/-! ## A picker

It opens with `first`; it has confirmed `picks`; it shows `shown` and will save `saved`. -/

section Picker

variable {α : Type} {text : α → String} {first shown : α} {picks : List α}
  {saved : Option String}

/-- A picker shows the last pick, and saves it once some pick was not the first value. -/
structure Picker (text : α → String) (first : α) (picks : List α) (shown : α)
    (saved : Option String) : Prop where
  shows : shown = picks.getLast?.getD first
  moved : (∃ x ∈ picks, x ≠ first) → saved = some (text shown)
  unmoved : (∀ x ∈ picks, x = first) → saved = none

theorem Picker.fresh (text : α → String) (first : α) : Picker text first [] first none where
  shows := rfl
  moved h := by
    obtain ⟨x, hx, -⟩ := h
    cases hx
  unmoved _ := rfl

/-- Nothing is confirmed. -/
theorem Picker.idle (h : Picker text first picks shown saved) :
    Picker text first (picks ++ (none : Option α).toList) shown saved := by
  rwa [Option.toList_none, List.append_nil]

/-- Confirming what the picker shows changes nothing. -/
theorem Picker.confirm_same (h : Picker text first picks shown saved) :
    Picker text first (picks ++ [shown]) shown saved where
  shows := by rw [List.getLast?_concat, Option.getD_some]
  moved := by
    rintro ⟨x, hx, hne⟩
    rcases List.mem_append.mp hx with hx | hx
    · exact h.moved ⟨x, hx, hne⟩
    · -- the pick shown now is an earlier one, as it is not the first value
      obtain rfl := List.mem_singleton.mp hx
      apply h.moved
      cases hlast : picks.getLast? with
      | none =>
          have hshown := h.shows
          rw [hlast, Option.getD_none] at hshown
          exact absurd hshown hne
      | some y =>
          have hshown := h.shows
          rw [hlast, Option.getD_some] at hshown
          exact ⟨y, List.mem_of_getLast? hlast, hshown ▸ hne⟩
  unmoved hall := h.unmoved fun x hx => hall x (List.mem_append_left _ hx)

theorem Picker.confirm_other {x : α} (h : Picker text first picks shown saved) (hx : x ≠ shown) :
    Picker text first (picks ++ [x]) x (some (text x)) where
  shows := by rw [List.getLast?_concat, Option.getD_some]
  moved _ := rfl
  unmoved hall := by
    -- all picks are the first value, so the picker shows it
    have hfirst : shown = first := by
      rw [h.shows]
      cases hlast : picks.getLast? with
      | none => rfl
      | some y => exact hall y (List.mem_append_left _ (List.mem_of_getLast? hlast))
    have hxfirst := hall x (List.mem_append_right _ (List.mem_singleton_self _))
    exact absurd (hxfirst.trans hfirst.symm) hx

/-- What is saved is the last pick, if and only if a pick was not the first value. -/
theorem Picker.saved_iff (h : Picker text first picks shown saved) :
    saved = picks.getLast?.map text ↔ MovedOff first picks := by
  by_cases hmoved : ∃ x ∈ picks, x ≠ first
  · obtain ⟨x, hx, -⟩ := id hmoved
    obtain ⟨y, hy⟩ := Option.isSome_iff_exists.mp
      (List.getLast?_isSome.mpr (List.ne_nil_of_mem hx))
    have hshown := h.shows
    rw [hy, Option.getD_some] at hshown
    refine ⟨fun _ => Or.inr hmoved, fun _ => ?_⟩
    rw [h.moved hmoved, hy, hshown, Option.map_some]
  · have hall : ∀ x ∈ picks, x = first := by
      intro x hx
      by_contra hne
      exact hmoved ⟨x, hx, hne⟩
    -- nothing is saved, which is right only when nothing was confirmed
    rw [h.unmoved hall]
    constructor
    · intro hnone
      exact Or.inl (List.getLast?_eq_none_iff.mp (Option.map_eq_none_iff.mp hnone.symm))
    · rintro (rfl | hsome)
      · rfl
      · exact absurd hsome hmoved

end Picker

/-! ## The form -/

/-- What the events `es` have made of a form whose pickers opened with `date` and `time`. -/
structure Kept (date : DateTime) (time : TimeOfDay) (es : List Event) (s : NewGameState) :
    Prop where
  name : s.gameName = last nameEntered es
  adress : s.gameAdress = last adressEntered es
  sblind : s.gameSBlind = last sblindEntered es
  bblind : s.gameBBlind = last bblindEntered es
  info : s.gameInfo = last infoEntered es
  slider : s.val = ((last sliderMoved es).map Fin.val).getD 5
  maxPlayers : s.gameMaxPlayers = (last sliderMoved es).map Fin.val
  datePicker : Picker DateTime.toString date (es.filterMap dateConfirmed) s.date s.gameDate
  timePicker : Picker TimeOfDay.toString time (es.filterMap timeConfirmed) s.time s.gameTime

/-- One more event: the last value of a kind is its own, if it has one. -/
theorem last_append {α : Type} (f : Event → Option α) (es : List Event) (e : Event) :
    last f (es ++ [e]) = (f e).or (last f es) := by
  rw [last, List.filterMap_append]
  cases hf : f e with
  | none => rw [List.filterMap_cons_none hf, List.filterMap_nil, List.append_nil]; rfl
  | some x => rw [List.filterMap_cons_some hf, List.filterMap_nil, List.getLast?_concat]; rfl

theorem filterMap_append_one {α : Type} (f : Event → Option α) (es : List Event) (e : Event) :
    (es ++ [e]).filterMap f = es.filterMap f ++ (f e).toList := by
  rw [List.filterMap_append]
  cases hf : f e with
  | none => rw [List.filterMap_cons_none hf]; rfl
  | some x => rw [List.filterMap_cons_some hf]; rfl

section Kept

variable {date : DateTime} {time : TimeOfDay} {es : List Event} {s s' : NewGameState}

/-- What one event has to do to the fields of the form. -/
theorem Kept.next {e : Event} (h : Kept date time es s)
    (hname : s'.gameName = (nameEntered e).or s.gameName)
    (hadress : s'.gameAdress = (adressEntered e).or s.gameAdress)
    (hsblind : s'.gameSBlind = (sblindEntered e).or s.gameSBlind)
    (hbblind : s'.gameBBlind = (bblindEntered e).or s.gameBBlind)
    (hinfo : s'.gameInfo = (infoEntered e).or s.gameInfo)
    (hslider : s'.val = ((sliderMoved e).map Fin.val).getD s.val)
    (hmax : s'.gameMaxPlayers = ((sliderMoved e).map Fin.val).or s.gameMaxPlayers)
    (hdate : Picker DateTime.toString date
      (es.filterMap dateConfirmed ++ (dateConfirmed e).toList) s'.date s'.gameDate)
    (htime : Picker TimeOfDay.toString time
      (es.filterMap timeConfirmed ++ (timeConfirmed e).toList) s'.time s'.gameTime) :
    Kept date time (es ++ [e]) s' where
  name := by rw [last_append, hname, h.name]
  adress := by rw [last_append, hadress, h.adress]
  sblind := by rw [last_append, hsblind, h.sblind]
  bblind := by rw [last_append, hbblind, h.bblind]
  info := by rw [last_append, hinfo, h.info]
  slider := by
    rw [last_append, hslider, h.slider]
    cases sliderMoved e <;> rfl
  maxPlayers := by
    rw [last_append, hmax, h.maxPlayers]
    cases sliderMoved e <;> rfl
  datePicker := by rw [filterMap_append_one]; exact hdate
  timePicker := by rw [filterMap_append_one]; exact htime

/-- An event of the form. -/
theorem Kept.formEvent {e : Event} (h : Kept date time es s) (he : formEvent s e = some s') :
    Kept date time (es ++ [e]) s' := by
  cases e with
  | selectDate picked =>
      obtain rfl := Option.some.inj he
      cases picked with
      | none => exact h.next rfl rfl rfl rfl rfl rfl rfl h.datePicker.idle h.timePicker.idle
      | some d =>
          -- `_gameDate` is set only when the pick differs from the date shown
          simp only [dateSelected]
          split
          · next hd =>
              exact h.next rfl rfl rfl rfl rfl rfl rfl (h.datePicker.confirm_other hd)
                h.timePicker.idle
          · next hd =>
              obtain rfl := not_not.mp hd
              exact h.next rfl rfl rfl rfl rfl rfl rfl h.datePicker.confirm_same h.timePicker.idle
  | selectTime picked =>
      obtain rfl := Option.some.inj he
      cases picked with
      | none => exact h.next rfl rfl rfl rfl rfl rfl rfl h.datePicker.idle h.timePicker.idle
      | some t =>
          -- and `_gameTime` likewise
          simp only [timeSelected]
          split
          · next ht =>
              exact h.next rfl rfl rfl rfl rfl rfl rfl h.datePicker.idle
                (h.timePicker.confirm_other ht)
          · next ht =>
              obtain rfl := not_not.mp ht
              exact h.next rfl rfl rfl rfl rfl rfl rfl h.datePicker.idle h.timePicker.confirm_same
  | editName | editAdress | moveSlider | editSBlind | editBBlind | editInfo =>
      obtain rfl := Option.some.inj he
      exact h.next rfl rfl rfl rfl rfl rfl rfl h.datePicker.idle h.timePicker.idle
  | initState | pressStart | dispose => cases he

/-- What the form saves, compared with what was entered. -/
theorem Kept.stored_iff (h : Kept date time es s) : FormStored (gameDoc s) es s.val ↔
    es.filterMap sliderMoved ≠ [] ∧ MovedOff date (es.filterMap dateConfirmed) ∧
      MovedOff time (es.filterMap timeConfirmed) := by
  have hdate : (gameDoc s).field "date" = .ofString ((last dateConfirmed es).map DateTime.toString)
      ↔ MovedOff date (es.filterMap dateConfirmed) := by
    rw [← h.datePicker.saved_iff, ← Value.ofString_inj]
    rfl
  have htime : (gameDoc s).field "time" = .ofString ((last timeConfirmed es).map TimeOfDay.toString)
      ↔ MovedOff time (es.filterMap timeConfirmed) := by
    rw [← h.timePicker.saved_iff, ← Value.ofString_inj]
    rfl
  have hslider : (gameDoc s).field "maxplayers" = .int s.val ↔ es.filterMap sliderMoved ≠ [] := by
    have hsaved : (gameDoc s).field "maxplayers" = .ofInt s.gameMaxPlayers := rfl
    rw [hsaved, h.maxPlayers, h.slider, last]
    cases hlast : (es.filterMap sliderMoved).getLast? with
    | none =>
        rw [List.getLast?_eq_none_iff.mp hlast]
        exact ⟨nofun, fun hne => absurd rfl hne⟩
    | some v =>
        refine ⟨fun _ => ?_, fun _ => rfl⟩
        rw [← List.getLast?_isSome, hlast]
        rfl
  constructor
  · intro hd
    exact ⟨hslider.mp hd.maxplayers, hdate.mp hd.date, htime.mp hd.time⟩
  · rintro ⟨hs, hd, ht⟩
    exact ⟨congrArg Value.ofString h.name, congrArg Value.ofString h.adress, hdate.mpr hd,
      htime.mpr ht, hslider.mpr hs, congrArg Value.ofString h.sblind,
      congrArg Value.ofString h.bblind, congrArg Value.ofString h.info⟩

end Kept

/-! ## A page and its events -/

/-- A page after its events `es`: its pickers open with the moment it was opened, and before that
the form is not on the screen. -/
inductive PageForm (es : List Event) (s : NewGameState) : Prop
  | closed : s.opened = false → es.filterMap openedAt = [] → es.filterMap dateConfirmed = [] →
      es.filterMap timeConfirmed = [] → Kept s.date s.time es s → PageForm es s
  | opened (date : DateTime) (time : TimeOfDay) : s.opened = true →
      es.filterMap openedAt = [(date, time)] → Kept date time es s → PageForm es s

section PageForm

variable {date : DateTime} {time : TimeOfDay} {es : List Event} {s s' : NewGameState}

/-- What is not on the form may change. -/
theorem Kept.page (h : Kept date time es s) (lookup : UserLookup) (gameId : Option Nat)
    (available mounted : Bool) : Kept date time es
      { s with
        toUserLookup := lookup, gameId := gameId, gameIdAvailable := available
        mounted := mounted } :=
  ⟨h.name, h.adress, h.sblind, h.bblind, h.info, h.slider, h.maxPlayers, h.datePicker,
    h.timePicker⟩

/-- A press, or the end of the page, leaves the form alone. -/
theorem Kept.idle {e : Event} (h : Kept date time es s)
    (he : (∃ r, e = .pressStart r) ∨ e = .dispose) : Kept date time (es ++ [e]) s := by
  rcases he with ⟨r, rfl⟩ | rfl
  · exact h.next rfl rfl rfl rfl rfl rfl rfl h.datePicker.idle h.timePicker.idle
  · exact h.next rfl rfl rfl rfl rfl rfl rfl h.datePicker.idle h.timePicker.idle

/-- The page is opened, and its pickers with it. -/
theorem PageForm.open (d : DateTime) (t : TimeOfDay) (h : PageForm es s) (ho : ¬ s.opened = true) :
    PageForm (es ++ [.initState d t]) { s with opened := true, date := d, time := t } := by
  cases h with
  | opened date time ho' => exact absurd ho' ho
  | closed _ hopened hdates htimes hk =>
      -- no picker has confirmed anything before the form was on the screen
      have hdate : s.gameDate = none := hk.datePicker.unmoved (by rw [hdates]; nofun)
      have htime : s.gameTime = none := hk.timePicker.unmoved (by rw [htimes]; nofun)
      refine .opened d t rfl ?_ ?_
      · rw [filterMap_append_one, hopened]
        rfl
      · have hfresh : Kept d t es { s with opened := true, date := d, time := t } := by
          refine ⟨hk.name, hk.adress, hk.sblind, hk.bblind, hk.info, hk.slider, hk.maxPlayers,
            ?_, ?_⟩
          · rw [hdates, hdate]
            exact Picker.fresh _ _
          · rw [htimes, htime]
            exact Picker.fresh _ _
        exact hfresh.next rfl rfl rfl rfl rfl rfl rfl hfresh.datePicker.idle hfresh.timePicker.idle

/-- A form that is on the screen belongs to an opened page. -/
theorem PageForm.shown (h : PageForm es s) (hclosed : s.opened = false → s.userFound = false)
    (hon : s.mounted = true ∧ s.userFound = true) : ∃ date time, s.opened = true ∧
      es.filterMap openedAt = [(date, time)] ∧ Kept date time es s := by
  cases h with
  | closed ho =>
      rw [hclosed ho] at hon
      cases hon.2
  | opened date time ho hopened hk => exact ⟨date, time, ho, hopened, hk⟩

theorem PageForm.event {e : Event} {out : List (Call Cont)} (h : PageForm es s)
    (hclosed : s.opened = false → s.userFound = false) (he : onEvent s e = some (s', out)) :
    PageForm (es ++ [e]) s' := by
  cases e with
  | initState d t =>
      simp only [onEvent] at he
      split at he
      · cases he
      · next ho =>
          obtain ⟨rfl, -⟩ := Prod.mk.inj (Option.some.inj he)
          exact h.open d t ho
  | dispose =>
      simp only [onEvent] at he
      split at he
      · obtain ⟨rfl, -⟩ := Prod.mk.inj (Option.some.inj he)
        cases h with
        | closed ho hopened hdates htimes hk =>
            refine .closed ho ?_ ?_ ?_ ((hk.idle (Or.inr rfl)).page _ _ _ _)
            · rw [filterMap_append_one, hopened]
              rfl
            · rw [filterMap_append_one, hdates]
              rfl
            · rw [filterMap_append_one, htimes]
              rfl
        | opened date time ho hopened hk =>
            refine .opened date time ho ?_ ((hk.idle (Or.inr rfl)).page _ _ _ _)
            rw [filterMap_append_one, hopened]
            rfl
      · cases he
  | pressStart r =>
      simp only [onEvent] at he
      split at he
      · next hon =>
          obtain ⟨rfl, -⟩ := Prod.mk.inj (Option.some.inj he)
          obtain ⟨date, time, ho, hopened, hk⟩ := h.shown hclosed hon
          refine .opened date time ho ?_ ((hk.idle (Or.inl ⟨r, rfl⟩)).page _ _ _ _)
          rw [filterMap_append_one, hopened]
          rfl
      · cases he
  | editName | editAdress | selectDate | selectTime | moveSlider | editSBlind | editBBlind |
      editInfo =>
      simp only [onEvent] at he
      split at he
      · next hon =>
          obtain ⟨t, ht, heq⟩ := Option.map_eq_some_iff.mp he
          obtain ⟨rfl, -⟩ := Prod.mk.inj heq
          obtain ⟨date, time, ho, hopened, hk⟩ := h.shown hclosed hon
          refine .opened date time ((formEvent_page ht).opened.trans ho) ?_ (hk.formEvent ht)
          rw [filterMap_append_one, hopened]
          rfl
      · cases he

theorem PageForm.page (h : PageForm es s) (lookup : UserLookup) (gameId : Option Nat)
    (available mounted : Bool) : PageForm es
      { s with
        toUserLookup := lookup, gameId := gameId, gameIdAvailable := available
        mounted := mounted } := by
  cases h with
  | closed ho hopened hdates htimes hk =>
      exact .closed ho hopened hdates htimes (hk.page _ _ _ _)
  | opened date time ho hopened hk => exact .opened date time ho hopened (hk.page _ _ _ _)

/-- No answer touches the form. -/
theorem PageForm.answer (h : PageForm es s) (cont : Cont) (a : Answer) (r : Draw) :
    PageForm es (onAnswer s cont a r).1 := by
  rcases onAnswer_cases s cont a r with h' | ⟨u, -, -, h'⟩ | ⟨-, -, -, h'⟩ | ⟨-, -, -, h'⟩ <;>
    rw [h']
  · exact h
  · exact h.page _ _ _ _
  · exact h.page _ _ _ _
  · exact h.page _ _ _ _

theorem PageForm.stored_iff (h : PageForm es s) : FormStored (gameDoc s) es s.val ↔ Touched es := by
  cases h with
  | closed _ hopened hdates htimes hk =>
      rw [hk.stored_iff, Touched, hopened, hdates, htimes]
      exact and_congr_right fun _ => ⟨fun _ => nofun, fun _ => ⟨Or.inl rfl, Or.inl rfl⟩⟩
  | opened date time _ hopened hk =>
      rw [hk.stored_iff, Touched, hopened]
      simp

end PageForm

/-! ## Every run -/

theorem eventsOf_append (i : ι) (as : List (GameAction ι)) (a : GameAction ι) :
    eventsOf i (as ++ [a]) = eventsOf i as ++ eventsOf i [a] :=
  List.filterMap_append

section Run

variable {b : Backend ι} {as : List (GameAction ι)} {c c' : GameConfig ι} {a : GameAction ι}

/-- Every form of a run is the work of its own events. -/
theorem pageForms (h : (gamePages ι).run (start b) as = some c) (i : ι) :
    PageForm (eventsOf i as) (c.clients i) := by
  have h₀ : (gamePages ι).init (start b) := ⟨b, rfl⟩
  refine Machine.Reach.history (Q := fun as c => ∀ i, PageForm (eventsOf i as) (c.clients i))
    h₀ h ?_ ?_ i
  · exact fun i => .closed rfl rfl rfl rfl
      ⟨rfl, rfl, rfl, rfl, rfl, rfl, rfl, Picker.fresh _ _, Picker.fresh _ _⟩
  · intro as c a c' hr hq _ hs i
    have hlooked : LookedUp NewGameState.toUserLookup NewGameState.opened .userIdFound c := by
      refine lookedUp looksUp hr ?_
      rintro _ ⟨b, rfl⟩
      exact LookedUp.start _ _ fun _ => rfl
    rw [eventsOf_append]
    refine step_keeps (Q := fun c' => PageForm (eventsOf i as ++ eventsOf i [a]) (c'.clients i)) hs
      ?_ ?_ ?_
    · intro j e s out hact he
      subst hact
      by_cases hj : i = j
      · subst hj
        have hone : eventsOf i [.event i e] = [e] := by simp [eventsOf]
        rw [Config.post_clients_self, hone]
        exact (hq i).event (hlooked.closed i) he
      · have hnone : eventsOf i [.event j e] = [] := by simp [eventsOf, Ne.symm hj]
        rw [Config.post_clients_ne _ _ _ _ _ hj, hnone, List.append_nil]
        exact hq i
    · intro k o m b r hact _ _
      subst hact
      exact (List.append_nil _).symm ▸ hq i
    · intro k d m r s out hact _ ha
      subst hact
      obtain ⟨rfl, rfl⟩ := Prod.mk.inj ha
      -- an answer is no event of any form
      have hnone : eventsOf i [(.deliver k d : GameAction ι)] = [] := rfl
      rw [hnone, List.append_nil]
      refine Config.client_post (p := PageForm _) ?_ fun _ => hq i
      rintro rfl
      exact (hq m.client).answer _ _ _

/-- Every document a step writes is the form of its page. -/
theorem stored_form {w : GameMessage ι} {p : Path} {d : Doc}
    (hs : (gamePages ι).step c a = some c') (hw : w ∈ since c c')
    (hreq : w.call.req = .setData p d) : d = gameDoc (c.clients w.client) := by
  refine step_keeps (Q := fun c' => w ∈ since c c' → d = gameDoc (c.clients w.client)) hs
    ?_ ?_ ?_ hw
  · intro i e s out _ he hw
    rcases (mem_since_post (List.prefix_refl _)).mp hw with hw | ⟨call, hc, rfl⟩
    · rw [since, List.drop_length] at hw
      cases hw
    · rcases onEvent_cases he with ⟨rfl, -⟩ | ⟨-, -, -, -, rfl⟩ | ⟨r, -, -, -, -, rfl⟩
      · cases hc
      · rw [List.mem_singleton.mp hc] at hreq
        cases hreq
      · rw [List.mem_singleton.mp hc] at hreq
        cases hreq
  · intro k o m b r _ _ _ hw
    rw [since, Config.served_issued, List.drop_length] at hw
    cases hw
  · intro k r m x s out _ _ ha hw
    have hmem : w ∈ since c (c.taken k) ∨
        ∃ call ∈ out, w = ⟨m.client, call, (m.call, x) :: m.cause⟩ :=
      (mem_since_post (c := c.taken k) (List.prefix_refl _)).mp hw
    rcases hmem with hw | ⟨call, hc, rfl⟩
    · rw [since, Config.taken_issued, List.drop_length] at hw
      cases hw
    · rcases answer_cases ha with
        ⟨-, rfl⟩ | ⟨u, -, -, -, rfl⟩ | ⟨-, -, -, -, rfl⟩ | ⟨-, -, -, -, rfl⟩
      · cases hc
      · cases hc
      · rw [List.mem_singleton.mp hc] at hreq
        cases hreq
      · have hstores : call.req.Stores p d := by
          rw [show call.req = .setData p d from hreq]
          exact ⟨rfl, rfl⟩
        rcases stores_saveGame hc hstores with ⟨-, hd⟩ | ⟨-, hd⟩ <;> exact hd

/-- Every game that is saved has the last texts entered in its form, and it has the slider's value
and the last date and time confirmed, too, if and only if the slider has been moved at least once
and each picker, if it confirmed anything, has confirmed something other than the moment the page
was opened. -/
theorem form_stored_iff {w : GameMessage ι} {p : Path} {d : Doc}
    (hrun : (gamePages ι).run (start b) as = some c) (hs : (gamePages ι).step c a = some c')
    (hw : w ∈ since c c') (hreq : w.call.req = .setData p d) :
    FormStored d (eventsOf w.client as) (c.clients w.client).val ↔
      Touched (eventsOf w.client as) := by
  rw [stored_form hs hw hreq]
  exact (pageForms hrun w.client).stored_iff

end Run

/-! ## A form that was filled in, and one that was left at its first values -/

instance {α : Type} [DecidableEq α] (first : α) (picks : List α) :
    Decidable (MovedOff first picks) := by
  unfold MovedOff
  infer_instance

instance (es : List Event) : Decidable (Touched es) := by
  unfold Touched
  infer_instance

/-- Ola opens the page at seven in the evening of the ninth of June, and waits for her user. -/
def openAtSeven : List (GameAction Bool) :=
  [.event false (.initState { year := 2018, month := 6, day := 9, hour := 19 } { hour := 19 }),
    .serve 0 (.accept ""), .deliver 0 0]

/-- 'Start game' is pressed and its query answered. -/
def startGame : List (GameAction Bool) :=
  [.event false (.pressStart 7), .serve 0 (.accept "")]

/-- What the slider shows after a run, and what the next answer makes the page write. -/
def savedForm (as : List (GameAction Bool)) : Option (Nat × List (Bool × Call Cont)) :=
  ((gamePages Bool).run (start olaAndKai) as).bind fun c =>
    ((gamePages Bool).step c (.deliver 0 0)).map fun c' =>
      ((c.clients false).val, (since c c').map fun w => (w.client, w.call))

theorem stored_of_savedForm {as : List (GameAction Bool)} {shown : Nat} {p : Path} {d : Doc}
    {rest : List (Bool × Call Cont)}
    (h : savedForm as = some (shown, (false, ⟨.written, .setData p d⟩) :: rest)) :
    ∃ (c c' : GameConfig Bool) (w : GameMessage Bool),
      (gamePages Bool).run (start olaAndKai) as = some c ∧
      (gamePages Bool).step c (.deliver 0 0) = some c' ∧ w ∈ since c c' ∧ w.client = false ∧
      w.call.req = .setData p d ∧ (c.clients false).val = shown := by
  obtain ⟨c, hrun, h⟩ := Option.bind_eq_some_iff.mp h
  obtain ⟨c', hs, h⟩ := Option.map_eq_some_iff.mp h
  obtain ⟨hshown, hsince⟩ := Prod.mk.inj h
  have hmem : (false, (⟨.written, .setData p d⟩ : Call Cont)) ∈
      (since c c').map fun w => (w.client, w.call) := by
    rw [hsince]
    exact List.mem_cons_self
  obtain ⟨w, hw, heq⟩ := List.mem_map.mp hmem
  obtain ⟨hclient, hcall⟩ := Prod.mk.inj heq
  exact ⟨c, c', w, hrun, hs, hw, hclient, by rw [hcall], hshown⟩

/-- Everything is chosen anew, the date twice. -/
def fillIn : List (GameAction Bool) :=
  openAtSeven ++ ([.event false (.editName "Fredagspoker"), .event false (.moveSlider 4),
    .event false (.selectDate (some { year := 2018, month := 6, day := 10 })),
    .event false (.selectDate (some { year := 2018, month := 6, day := 15 })),
    .event false (.selectTime (some { hour := 20, minute := 30 }))] :
      List (GameAction Bool)) ++ startGame

theorem form_stored_filled : ∃ (c c' : GameConfig Bool) (w : GameMessage Bool) (p : Path) (d : Doc),
    (gamePages Bool).run (start olaAndKai) fillIn = some c ∧
    (gamePages Bool).step c (.deliver 0 0) = some c' ∧ w ∈ since c c' ∧
    w.call.req = .setData p d ∧
    FormStored d (eventsOf w.client fillIn) (c.clients w.client).val := by
  have hsaved : savedForm fillIn = some (4,
      [(false, ⟨.written, .setData (gamePath "7") [("gameid", .int 7),
          ("name", .str "Fredagspoker"), ("adress", .null),
          ("date", .str "2018-06-15 00:00:00.000"),
          ("time", .str "TimeOfDay(20:30)"), ("maxplayers", .int 4), ("sblind", .null),
          ("bblind", .null), ("info", .null)]⟩),
        (false, ⟨.written, .setData (userGamePath "ola" "7") [("gameid", .int 7),
          ("name", .str "Fredagspoker"), ("adress", .null),
          ("date", .str "2018-06-15 00:00:00.000"),
          ("time", .str "TimeOfDay(20:30)"), ("maxplayers", .int 4), ("sblind", .null),
          ("bblind", .null), ("info", .null)]⟩)]) := by
    decide +kernel
  obtain ⟨c, c', w, hrun, hs, hw, hclient, hreq, -⟩ := stored_of_savedForm hsaved
  refine ⟨c, c', w, _, _, hrun, hs, hw, hreq, (form_stored_iff hrun hs hw hreq).mpr ?_⟩
  rw [hclient]
  decide +kernel

/-- Nothing is changed on the form but the time, which is confirmed as it is. Neither the five
players the slider shows nor the time are saved. -/
def leaveAsIs : List (GameAction Bool) :=
  openAtSeven ++ [.event false (.selectTime (some { hour := 19 }))] ++ startGame

theorem not_form_stored : ¬ ∀ (b : Backend Bool) (as : List (GameAction Bool))
    (c c' : GameConfig Bool) (a : GameAction Bool) (w : GameMessage Bool) (p : Path) (d : Doc),
    (gamePages Bool).run (start b) as = some c → (gamePages Bool).step c a = some c' →
    w ∈ since c c' → w.call.req = .setData p d →
    FormStored d (eventsOf w.client as) (c.clients w.client).val := by
  intro h
  have hsaved : savedForm leaveAsIs = some (5,
      [(false, ⟨.written, .setData (gamePath "7") [("gameid", .int 7), ("name", .null),
          ("adress", .null), ("date", .null), ("time", .null), ("maxplayers", .null),
          ("sblind", .null), ("bblind", .null), ("info", .null)]⟩),
        (false, ⟨.written, .setData (userGamePath "ola" "7") [("gameid", .int 7), ("name", .null),
          ("adress", .null), ("date", .null), ("time", .null), ("maxplayers", .null),
          ("sblind", .null), ("bblind", .null), ("info", .null)]⟩)]) := by
    decide +kernel
  obtain ⟨c, c', w, hrun, hs, hw, hclient, hreq, hshown⟩ := stored_of_savedForm hsaved
  have hstored := h _ _ c c' _ w _ _ hrun hs hw hreq
  have hmax := hstored.maxplayers
  rw [hclient, hshown] at hmax
  exact absurd hmax (by decide)

end P0ker.GameForm
