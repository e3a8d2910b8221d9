import P0ker.Pages.Friends

/-!
# From 'Create group' to 'Next'

The pages one user goes through to create groups. A press of 'Create group' on the NewGroup page
draws an id *and* pushes a Friends page, in one handler; the NewGroup page stays below it, and its
availability query, its draws and its writes go on while the Friends page is on the screen. Going
back disposes the page on top.

Pages and presses are counted: the Friends page number `p` is the one that press number `p` has
pushed, and every call that descends from a press carries its number.
-/

namespace P0ker.GroupFlow

/-- A page on the stack. -/
inductive Page where
  | newGroup (n : Nat)
  | friends (n : Nat)
  deriving DecidableEq

/-- The pages opened so far, and those on the stack, the one on the screen first. -/
structure App where
  groups : List NewGroup.NewGroupState := []
  friends : List Friends.HomeeState := []
  stack : List Page := []
  deriving DecidableEq

/-- The code that runs on an answer, and the page it runs on; on a NewGroup page, with the press it
descends from. -/
inductive Cont where
  | newGroup (page : Nat) (press : Option Nat) (cont : NewGroup.Cont)
  | friends (page : Nat) (cont : Friends.Cont)
  deriving DecidableEq

inductive Event where
  | openNewGroup
  | newGroup (e : NewGroup.Event)
  | friends (e : Friends.Event)
  | back
  deriving DecidableEq

/-- The `page`-th NewGroup page has run a handler for the press `press`. -/
def newGroupRan (app : App) (page : Nat) (press : Option Nat)
    (r : NewGroup.NewGroupState × List (Call NewGroup.Cont)) : App × List (Call Cont) :=
  ({ app with groups := app.groups.set page r.1 },
    r.2.map fun c => ⟨.newGroup page press c.cont, c.req⟩)

/-- The `page`-th Friends page has run a handler. -/
def friendsRan (app : App) (page : Nat) (r : Friends.HomeeState × List (Call Friends.Cont)) :
    App × List (Call Cont) :=
  ({ app with friends := app.friends.set page r.1 }, r.2.map fun c => ⟨.friends page c.cont, c.req⟩)

/-- `Navigator.push` of a Friends page. -/
def pushFriends (app : App) : App :=
  { app with friends := app.friends ++ [{}], stack := .friends app.friends.length :: app.stack }

/-- An event on the NewGroup page that is on the screen. A page is disposed by going back only. -/
def onNewGroup (app : App) (page : Nat) (s : NewGroup.NewGroupState) :
    NewGroup.Event → Option (App × List (Call Cont))
  | .dispose => none
  | .pressCreate r =>
      (NewGroup.onEvent s (.pressCreate r)).map fun r' =>
        let r'' := newGroupRan app page (some app.friends.length) r'
        (pushFriends r''.1, r''.2)
  | e => (NewGroup.onEvent s e).map (newGroupRan app page none)

/-- Off the stack, and disposed. -/
def pop (app : App) : Option App :=
  match app.stack with
  | .newGroup n :: stack =>
      some { app with
        groups := app.groups.modify n fun s => { s with mounted := false }, stack := stack }
  | .friends n :: stack =>
      some { app with
        friends := app.friends.modify n fun s => { s with mounted := false }, stack := stack }
  | [] => none

def onEvent (app : App) : Event → Option (App × List (Call Cont))
  | .openNewGroup =>
      if app.stack = [] then
        some ({ app with groups := app.groups ++ [{}], stack := [.newGroup app.groups.length] }, [])
      else none
  | .newGroup e =>
      match app.stack with
      | .newGroup n :: _ =>
          match app.groups[n]? with
          | some s => onNewGroup app n s e
          | none => none
      | _ => none
  | .friends e =>
      match app.stack with
      | .friends n :: _ =>
          match app.friends[n]? with
          | some s =>
              if e = .dispose then none else (Friends.onEvent s e).map (friendsRan app n)
          | none => none
      | _ => none
  | .back => (pop app).map fun app => (app, [])

def onAnswer (app : App) (cont : Cont) (a : Answer) (r : Draw) : App × List (Call Cont) :=
  match cont with
  | .newGroup page press cont =>
      match app.groups[page]? with
      | some s => newGroupRan app page press (NewGroup.onAnswer s cont a r)
      | none => (app, [])
  | .friends page cont =>
      match app.friends[page]? with
      | some s => friendsRan app page (Friends.onAnswer s cont a)
      | none => (app, [])

def program : Async.Program App Event Draw (Call Cont) Answer where
  onEvent := onEvent
  onAnswer app c a r := onAnswer app c.cont a r

/-! ## What the handlers do -/

/-- A call of the app that an event can issue: not a write of a group; and a new member only where a
Friends page says it. -/
def Raised (app : App) (call : Call Cont) : Prop :=
  match call.cont with
  | .newGroup _ _ cont => cont ≠ .written
  | .friends page cont => cont = .added →
      ∃ s, app.friends[page]? = some s ∧ call.req = (Friends.addToFireStore s).req

/-- The Friends pages `pages'` are the `pages` before, as far as their groups go, or new ones. -/
def SameGroups (pages pages' : List Friends.HomeeState) : Prop :=
  ∀ (n : Nat) (s' : Friends.HomeeState), pages'[n]? = some s' →
    s'.groupId = none ∨ ∃ s, pages[n]? = some s ∧ Friends.group s' = Friends.group s

theorem SameGroups.refl (pages : List Friends.HomeeState) : SameGroups pages pages :=
  fun _ s' h => Or.inr ⟨s', h, rfl⟩

/-- The NewGroup page writes a group on an answer only. -/
theorem onNewGroup_cases {app app' : App} {page : Nat} {s : NewGroup.NewGroupState}
    {e : NewGroup.Event} {out : List (Call Cont)} (h : onNewGroup app page s e = some (app', out)) :
    SameGroups app.friends app'.friends ∧ ∀ call ∈ out, Raised app call := by
  have hraised : ∀ {s' out' press}, NewGroup.onEvent s e = some (s', out') →
      ∀ call ∈ (newGroupRan app page press (s', out')).2, Raised app call := by
    intro s' out' press he call hc
    obtain ⟨call', hc', rfl⟩ := List.mem_map.mp hc
    show call'.cont ≠ .written
    rcases NewGroup.onEvent_cases he with ⟨rfl, -⟩ | ⟨-, -, -, rfl⟩ | ⟨r, -, -, -, -, rfl⟩
    · cases hc'
    · rw [List.mem_singleton.mp hc']
      nofun
    · rw [List.mem_singleton.mp hc']
      nofun
  cases e with
  | dispose => cases h
  | pressCreate r =>
      obtain ⟨⟨s', out'⟩, he, heq⟩ := Option.map_eq_some_iff.mp h
      obtain ⟨rfl, rfl⟩ := Prod.mk.inj heq
      refine ⟨?_, hraised he⟩
      intro n s'' hs''
      have hfriends : (app.friends ++ [({} : Friends.HomeeState)])[n]? = some s'' := hs''
      rw [List.getElem?_append] at hfriends
      split at hfriends
      · exact Or.inr ⟨s'', hfriends, rfl⟩
      · obtain rfl := List.mem_singleton.mp (List.mem_of_getElem? hfriends)
        exact Or.inl rfl
  | initState | editName | editInfo | tapPublic | tapPrivate =>
      obtain ⟨⟨s', out'⟩, he, heq⟩ := Option.map_eq_some_iff.mp h
      obtain ⟨rfl, rfl⟩ := Prod.mk.inj heq
      exact ⟨SameGroups.refl app.friends, hraised he⟩

/-- A page changes, and its group does not. -/
theorem SameGroups.set {pages : List Friends.HomeeState} {page : Nat} {s s' : Friends.HomeeState}
    (hs : pages[page]? = some s) (hgroup : Friends.group s' = Friends.group s) :
    SameGroups pages (pages.set page s') := by
  intro n t hget
  by_cases hn : page = n
  · subst hn
    rw [List.getElem?_set_self (List.getElem?_eq_some_iff.mp hs).1] at hget
    obtain rfl := Option.some.inj hget
    exact Or.inr ⟨s, hs, hgroup⟩
  · rw [List.getElem?_set_ne hn] at hget
    exact Or.inr ⟨t, hget, rfl⟩

theorem pop_cases {app app' : App} (h : pop app = some app') :
    SameGroups app.friends app'.friends := by
  simp only [pop] at h
  split at h
  · obtain rfl := Option.some.inj h
    exact SameGroups.refl app.friends
  · next n stack _ =>
      obtain rfl := Option.some.inj h
      intro m t ht
      have hget : (app.friends.modify n fun s => { s with mounted := false })[m]? = some t := ht
      rw [List.getElem?_modify] at hget
      obtain ⟨s, hs, rfl⟩ := Option.map_eq_some_iff.mp hget
      refine Or.inr ⟨s, hs, ?_⟩
      split <;> rfl
  · cases h

/-- No event touches the group of a Friends page. -/
theorem onEvent_cases {app app' : App} {e : Event} {out : List (Call Cont)}
    (h : onEvent app e = some (app', out)) :
    SameGroups app.friends app'.friends ∧ ∀ call ∈ out, Raised app call := by
  cases e with
  | openNewGroup =>
      simp only [onEvent] at h
      split at h
      · obtain ⟨rfl, rfl⟩ := Prod.mk.inj (Option.some.inj h)
        exact ⟨SameGroups.refl app.friends, List.forall_mem_nil _⟩
      · cases h
  | newGroup e =>
      simp only [onEvent] at h
      split at h
      · split at h
        · exact onNewGroup_cases h
        · cases h
      · cases h
  | friends e =>
      simp only [onEvent] at h
      split at h
      · next n _ _ =>
          split at h
          · next s hs =>
              split at h
              · cases h
              · obtain ⟨⟨s', out'⟩, he, heq⟩ := Option.map_eq_some_iff.mp h
                obtain ⟨rfl, rfl⟩ := Prod.mk.inj heq
                obtain ⟨-, hgroup, hout⟩ := Friends.onEvent_cases he
                refine ⟨SameGroups.set hs hgroup, ?_⟩
                intro call hc
                obtain ⟨call', hc', rfl⟩ := List.mem_map.mp hc
                show call'.cont = .added → ∃ s, app.friends[n]? = some s ∧
                  call'.req = (Friends.addToFireStore s).req
                intro hadded
                rcases hout call' hc' with (rfl | rfl | ⟨f, -, rfl⟩) | ⟨-, rfl⟩
                · cases hadded
                · cases hadded
                · cases hadded
                · exact ⟨s, hs, rfl⟩
          · cases h
      · cases h
  | back =>
      obtain ⟨app'', hpop, heq⟩ := Option.map_eq_some_iff.mp h
      obtain ⟨rfl, rfl⟩ := Prod.mk.inj heq
      exact ⟨pop_cases hpop, List.forall_mem_nil _⟩

/-- An answer to a NewGroup page issues no write, or all the writes of a group, for the same
press. -/
theorem onAnswer_newGroup (app : App) (page : Nat) (press : Option Nat) (cont : NewGroup.Cont)
    (a : Answer) (r : Draw) :
    SameGroups app.friends (onAnswer app (.newGroup page press cont) a r).1.friends ∧
      ((∀ call ∈ (onAnswer app (.newGroup page press cont) a r).2,
          ∃ cont', call.cont = .newGroup page press cont' ∧ cont' ≠ .written) ∨
        ∃ s, (onAnswer app (.newGroup page press cont) a r).2 =
          (NewGroup.saved s).map fun c => ⟨.newGroup page press .written, c.req⟩) := by
  simp only [onAnswer]
  split
  · next s _ =>
      refine ⟨SameGroups.refl app.friends, ?_⟩
      rcases NewGroup.onAnswer_cases s cont a r with
        h | ⟨u, -, -, h⟩ | ⟨-, -, -, h⟩ | ⟨-, -, -, h⟩ <;> rw [h]
      · exact Or.inl (List.forall_mem_nil _)
      · exact Or.inl (List.forall_mem_nil _)
      · refine Or.inl ?_
        intro call hc
        exact ⟨.checkGroupId, by rw [List.mem_singleton.mp hc]; rfl, nofun⟩
      · refine Or.inr ⟨s, ?_⟩
        refine List.map_congr_left ?_
        intro call hc
        rw [NewGroup.saved_cont hc]
  · exact ⟨SameGroups.refl app.friends, Or.inl (List.forall_mem_nil _)⟩

/-- An answer to a Friends page issues nothing, and sets the group of that page only, to what
`getGroupStatus` has found. -/
theorem onAnswer_friends (app : App) (page : Nat) (cont : Friends.Cont) (a : Answer) (r : Draw) :
    (onAnswer app (.friends page cont) a r).2 = [] ∧
      (SameGroups app.friends (onAnswer app (.friends page cont) a r).1.friends ∨
        ∃ s s' d, cont = .getGroupStatus ∧ a = .snapshot (some d) ∧ app.friends[page]? = some s ∧
          s.mounted = true ∧ Friends.group s' = (d.string "type", d.int "id") ∧
          (onAnswer app (.friends page cont) a r).1 =
            { app with friends := app.friends.set page s' }) := by
  simp only [onAnswer]
  split
  · next s hs =>
      obtain ⟨hout, -, hgroup | ⟨d, rfl, rfl, hm, hgroup⟩⟩ := Friends.onAnswer_cases s cont a
      · exact ⟨by simp [friendsRan, hout], Or.inl (SameGroups.set hs hgroup)⟩
      · refine ⟨by simp [friendsRan, hout], Or.inr ⟨s, _, d, rfl, rfl, hs, hm, hgroup, rfl⟩⟩
  · exact ⟨rfl, Or.inl (SameGroups.refl app.friends)⟩

end P0ker.GroupFlow
