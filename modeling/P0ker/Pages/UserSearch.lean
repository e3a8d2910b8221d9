import P0ker.Pages.Login

/-!
# The search page (`pages/userSearch/user_search.dart`)

The page lists the users with the searched name, and an icon on each row adds that user to the
friends. A tap stores the row's uid in `searchedUserId` and fetches the profile; the friend is
written when the answer comes, at a path that is built from `searchedUserId` as it is then.

Two objects of the framework and of its packages belong to the page. The `SearchBar` puts an entry
into the history of the route when its field is opened, and calls the `setState` of the page when
the entry is removed: by a submission, or by the back button. The `StreamBuilder` of the results
keeps the last snapshot it has heard, also when the next build gives it another stream.

As everywhere, `setState` on a `State` that is gone throws before its closure runs, as it does in a
debug build.
-/

namespace P0ker.UserSearch

open Dart Login

/-- The query of `_fireSearch`. -/
def fireSearch (queryText : String) : Request :=
  .whereEq usersPath "brukernavn" (.str (toLowerCase queryText))

/-- The last data of a stream: users with the searched name in lower case. -/
structure Snapshot where
  queryText : String
  documents : List Doc
  found : ∀ document ∈ documents, document.field "brukernavn" = .str (toLowerCase queryText)
  deriving DecidableEq

/-- `_DisplaySearchState`. `_fresh` is a variable of the library; `opened` says whether `initState`
has run. Of the `SearchBar` there are `isSearching` and the number of its entries in the history of
the route; of the `StreamBuilder` the text whose query it listens to, and its snapshot. -/
structure DisplaySearchState where
  queryText : Option String := none
  fresh : Bool := false
  friendUsername : Option String := none
  friendEmail : Option String := none
  friendUserId : Option String := none
  searchedUserId : Option String := none
  mCurrentUser : Option String := none
  isSearching : Bool := false
  historyEntries : Nat := 0
  stream : Option String := none
  snapshot : Option Snapshot := none
  opened : Bool := false
  mounted : Bool := true
  deriving DecidableEq

/-- The code that runs on an answer; none runs on the answer to the write. -/
inductive Cont where
  | getCurrentUser
  | fetch
  | added
  deriving DecidableEq

def friendPath (user friend : String) : Path := ["users", user, "friends", friend]

/-- `_add`. -/
def add (s : DisplaySearchState) : Call Cont :=
  ⟨.added, .setData (friendPath (interp s.mCurrentUser) (interp s.searchedUserId))
    [("brukernavn", .ofString s.friendUsername), ("uid", .ofString s.friendUserId)]⟩

/-- `_fetch` up to the read. -/
def fetch (s : DisplaySearchState) : Call Cont :=
  ⟨.fetch, .get (userPath s.searchedUserId)⟩

/-- What `_fetch` copies out of a profile. -/
def readProfile (profile : Doc) (s : DisplaySearchState) : DisplaySearchState :=
  { s with
    friendUsername := profile.string "brukernavn"
    friendEmail := profile.string "email"
    friendUserId := profile.string "uid" }

/-- `_fetch` on the answer: all of it runs inside `setState`. -/
def fetched (s : DisplaySearchState) (datasnapshot : Option Doc) :
    DisplaySearchState × List (Call Cont) :=
  match datasnapshot with
  | some profile =>
      if s.mounted then (readProfile profile s, [add (readProfile profile s)]) else (s, [])
  | none => (s, [])

/-! ## The screen -/

/-- What `_putInBody` can return; `results` is the `StreamBuilder` of a query, with the snapshot its
builder is called with. -/
inductive Body where
  | fireList
  | results (query : Request) (snapshot : Option Snapshot)
  deriving DecidableEq

/-- What `_fireSearch` returns. On a null `toLowerCase` throws, and the `catch` returns null. -/
def searchResults (snapshot : Option Snapshot) : Option String → Option Body
  | some queryText => some (.results (fireSearch queryText) snapshot)
  | none => none

/-- `_putInBody`. -/
def putInBody (s : DisplaySearchState) : Option Body :=
  if s.fresh then searchResults s.snapshot s.queryText else some .fireList

/-- The rows of the builder; without a snapshot it shows 'Loading...'. -/
def rows (s : DisplaySearchState) : List Doc :=
  match putInBody s with
  | some (.results _ (some snapshot)) => snapshot.documents
  | _ => []

/-- `build`: a `StreamBuilder` that was there before keeps its snapshot. -/
def build (s : DisplaySearchState) : DisplaySearchState :=
  match putInBody s with
  | some (.results _ _) => { s with stream := s.queryText }
  | _ => { s with stream := none, snapshot := none }

/-- What the `StreamBuilder` hears: documents that its query finds, or an error, which leaves it
without data. -/
def hear (queryText : String) : Option (List Doc) → Option (Option Snapshot)
  | some documents =>
      if h : ∀ document ∈ documents, document.field "brukernavn" = .str (toLowerCase queryText) then
        some (some ⟨queryText, documents, h⟩)
      else none
  | none => some none

/-- The entry added last leaves the history of the route. Its `onRemove` calls `setState`. -/
def onRemove (s : DisplaySearchState) : DisplaySearchState :=
  { s with
    isSearching := s.isSearching && !s.mounted
    historyEntries := s.historyEntries - 1 }

/-! ## The page as a client program -/

inductive Event where
  | initState
  | beginSearch
  | back
  | onSubmitted (value : String)
  | build
  | snapshot (data : Option (List Doc))
  | tapAdd (document : Doc)
  | dispose
  deriving DecidableEq

def onEvent (s : DisplaySearchState) : Event → Option (DisplaySearchState × List (Call Cont))
  | .initState =>
      if s.opened then none
      else some ({ s with opened := true }, [⟨.getCurrentUser, .currentUser⟩])
  | .beginSearch =>
      -- two taps in one frame add two entries
      if s.mounted then
        some ({ s with isSearching := true, historyEntries := s.historyEntries + 1 }, [])
      else none
  | .back => if 0 < s.historyEntries then some (onRemove s, []) else none
  | .onSubmitted value =>
      if s.mounted ∧ s.isSearching then
        some ({ onRemove s with queryText := some value, fresh := true }, [])
      else none
  | .build => if s.mounted then some (build s, []) else none
  | .snapshot data =>
      if s.mounted then
        (s.stream.bind fun queryText => hear queryText data).map fun snapshot =>
          ({ s with snapshot := snapshot }, [])
      else none
  | .tapAdd document =>
      if s.mounted ∧ document ∈ rows s then
        let s := { s with searchedUserId := document.string "uid" }
        -- on a null `debugPrint` throws before the read
        some (s, if s.searchedUserId = none then [] else [fetch s])
      else none
  | .dispose => if s.mounted then some ({ s with mounted := false }, []) else none

/-- The code that runs on an answer. A rejected read has no handler. -/
def onAnswer (s : DisplaySearchState) (cont : Cont) (a : Answer) :
    DisplaySearchState × List (Call Cont) :=
  match cont, a with
  | .getCurrentUser, .user userId => ({ s with mCurrentUser := userId }, [])
  | .fetch, .snapshot d => fetched s d
  | _, _ => (s, [])

def program : Async.Program DisplaySearchState Event Unit (Call Cont) Answer where
  onEvent := onEvent
  onAnswer s c a _ := onAnswer s c.cont a

/-- The place, among the `State`s in the order they were built, that the last entry in the history
of their route belongs to: only the `State` built last adds any. -/
def lastEntry {σ : Type} (entries : σ → Nat) (states : List σ) : Option Nat :=
  ((List.range states.length).filter fun n => states[n]?.any fun s => 0 < entries s).getLast?

/-! ## What the handlers do -/

/-- `Ran s e s' out`: the handler of `e` takes the page from `s` to `s'` and issues `out`. -/
inductive Ran (s : DisplaySearchState) : Event → DisplaySearchState → List (Call Cont) → Prop
  | initState : s.opened = false →
      Ran s .initState { s with opened := true } [⟨.getCurrentUser, .currentUser⟩]
  | beginSearch : s.mounted = true →
      Ran s .beginSearch { s with isSearching := true, historyEntries := s.historyEntries + 1 } []
  | back : 0 < s.historyEntries → Ran s .back (onRemove s) []
  | onSubmitted (value : String) : s.mounted = true → s.isSearching = true →
      Ran s (.onSubmitted value) { onRemove s with queryText := some value, fresh := true } []
  | build : s.mounted = true → Ran s .build (build s) []
  | snapshot (queryText : String) (data : Option (List Doc)) (snapshot : Option Snapshot) :
      s.mounted = true → s.stream = some queryText → hear queryText data = some snapshot →
      Ran s (.snapshot data) { s with snapshot := snapshot } []
  | tapNull (document : Doc) : s.mounted = true → document ∈ rows s →
      document.string "uid" = none →
      Ran s (.tapAdd document) { s with searchedUserId := none } []
  | tapAdd (document : Doc) (uid : String) : s.mounted = true → document ∈ rows s →
      document.string "uid" = some uid →
      Ran s (.tapAdd document) { s with searchedUserId := some uid }
        [fetch { s with searchedUserId := some uid }]
  | dispose : s.mounted = true → Ran s .dispose { s with mounted := false } []

theorem ran {s s' : DisplaySearchState} {e : Event} {out : List (Call Cont)}
    (h : onEvent s e = some (s', out)) : Ran s e s' out := by
  cases e with
  | initState =>
      obtain ⟨hclosed, h⟩ := Option.ite_none_left_eq_some.mp h
      obtain ⟨rfl, rfl⟩ := Prod.mk.inj (Option.some.inj h)
      exact .initState (by simpa using hclosed)
  | snapshot data =>
      obtain ⟨hm, h⟩ := Option.ite_none_right_eq_some.mp h
      obtain ⟨snapshot, hbind, heq⟩ := Option.map_eq_some_iff.mp h
      obtain ⟨queryText, hstream, hhear⟩ := Option.bind_eq_some_iff.mp hbind
      obtain ⟨rfl, rfl⟩ := Prod.mk.inj heq
      exact .snapshot queryText data snapshot hm hstream hhear
  | tapAdd document =>
      obtain ⟨⟨hm, hrow⟩, h⟩ := Option.ite_none_right_eq_some.mp h
      obtain ⟨rfl, rfl⟩ := Prod.mk.inj (Option.some.inj h)
      cases huid : document.string "uid" with
      | none => exact .tapNull document hm hrow huid
      | some uid => exact .tapAdd document uid hm hrow huid
  | beginSearch =>
      obtain ⟨hm, h⟩ := Option.ite_none_right_eq_some.mp h
      obtain ⟨rfl, rfl⟩ := Prod.mk.inj (Option.some.inj h)
      exact .beginSearch hm
  | back =>
      obtain ⟨hentry, h⟩ := Option.ite_none_right_eq_some.mp h
      obtain ⟨rfl, rfl⟩ := Prod.mk.inj (Option.some.inj h)
      exact .back hentry
  | onSubmitted value =>
      obtain ⟨⟨hm, hopen⟩, h⟩ := Option.ite_none_right_eq_some.mp h
      obtain ⟨rfl, rfl⟩ := Prod.mk.inj (Option.some.inj h)
      exact .onSubmitted value hm hopen
  | build =>
      obtain ⟨hm, h⟩ := Option.ite_none_right_eq_some.mp h
      obtain ⟨rfl, rfl⟩ := Prod.mk.inj (Option.some.inj h)
      exact .build hm
  | dispose =>
      obtain ⟨hm, h⟩ := Option.ite_none_right_eq_some.mp h
      obtain ⟨rfl, rfl⟩ := Prod.mk.inj (Option.some.inj h)
      exact .dispose hm

/-- `build` changes the `StreamBuilder` only. -/
theorem build_eq (s : DisplaySearchState) :
    ∃ stream snapshot, build s = { s with stream := stream, snapshot := snapshot } := by
  unfold build
  split
  · exact ⟨_, _, rfl⟩
  · exact ⟨_, _, rfl⟩

/-- What an event does: it opens the page; or it reads the profile of the tapped row; or nothing is
issued, and the user stays who it was. -/
theorem onEvent_cases {s s' : DisplaySearchState} {e : Event} {out : List (Call Cont)}
    (h : onEvent s e = some (s', out)) :
    (s.opened = false ∧ e = .initState) ∨
      (s'.opened = s.opened ∧ s'.mCurrentUser = s.mCurrentUser ∧
        (out = [] ∨ ∃ document, e = .tapAdd document ∧ s'.searchedUserId = document.string "uid" ∧
          out = [fetch s'])) := by
  cases ran h with
  | initState hclosed => exact Or.inl ⟨hclosed, rfl⟩
  | tapAdd document uid _ _ huid =>
      exact Or.inr ⟨rfl, rfl, Or.inr ⟨document, rfl, huid.symm, rfl⟩⟩
  | build =>
      obtain ⟨stream, snapshot, heq⟩ := build_eq s
      rw [heq]
      exact Or.inr ⟨rfl, rfl, Or.inl rfl⟩
  | beginSearch | back | onSubmitted | snapshot | tapNull | dispose =>
      exact Or.inr ⟨rfl, rfl, Or.inl rfl⟩

/-- An event only reads: the user, or a profile. -/
theorem onEvent_reads {s s' : DisplaySearchState} {e : Event} {out : List (Call Cont)}
    (h : onEvent s e = some (s', out)) {call : Call Cont} (hc : call ∈ out) :
    call = ⟨.getCurrentUser, .currentUser⟩ ∨ ∃ uid, call = ⟨.fetch, .get (userPath uid)⟩ := by
  cases ran h with
  | initState => exact Or.inl (List.mem_singleton.mp hc)
  | tapAdd document uid => exact Or.inr ⟨some uid, List.mem_singleton.mp hc⟩
  | beginSearch | back | onSubmitted | build | snapshot | tapNull | dispose => cases hc

/-- Only a tap changes the profile that is read. -/
theorem onEvent_fetch {s s' : DisplaySearchState} {e : Event} {out : List (Call Cont)}
    (h : onEvent s e = some (s', out)) :
    (∃ document, e = .tapAdd document) ∨ fetch s' = fetch s := by
  cases ran h with
  | tapAdd document | tapNull document => exact Or.inl ⟨document, rfl⟩
  | build =>
      obtain ⟨stream, snapshot, heq⟩ := build_eq s
      rw [heq]
      exact Or.inr rfl
  | initState | beginSearch | back | onSubmitted | snapshot | dispose => exact Or.inr rfl

/-- What the answer to a read does: nothing, unless it has found a profile on a mounted page, which
then writes a friend. -/
theorem onAnswer_cases (s : DisplaySearchState) (cont : Cont) (a : Answer) :
    onAnswer s cont a = (s, []) ∨
      (∃ u, cont = .getCurrentUser ∧ a = .user u ∧
        onAnswer s cont a = ({ s with mCurrentUser := u }, [])) ∨
      ∃ profile, cont = .fetch ∧ a = .snapshot (some profile) ∧ s.mounted = true ∧
        onAnswer s cont a = (readProfile profile s, [add (readProfile profile s)]) := by
  cases cont with
  | getCurrentUser =>
      cases a with
      | user u => exact Or.inr (Or.inl ⟨u, rfl, rfl, rfl⟩)
      | documents | snapshot | done | uid | failed => exact Or.inl rfl
  | added => cases a <;> exact Or.inl rfl
  | fetch =>
      cases a with
      | snapshot d =>
          cases d with
          | none => exact Or.inl rfl
          | some profile =>
              by_cases hm : s.mounted = true
              · exact Or.inr (Or.inr ⟨profile, rfl, rfl, hm, if_pos hm⟩)
              · exact Or.inl (if_neg hm)
      | documents | done | user | uid | failed => exact Or.inl rfl

/-- What the step on the answer to `call` does. -/
theorem answer_cases {s s' : DisplaySearchState} {call : Call Cont} {a : Answer} {r : Unit}
    {out : List (Call Cont)} (h : program.onAnswer s call a r = (s', out)) :
    (s' = s ∧ out = []) ∨
      (∃ u, call.cont = .getCurrentUser ∧ a = .user u ∧ s' = { s with mCurrentUser := u } ∧
        out = []) ∨
      ∃ profile, call.cont = .fetch ∧ a = .snapshot (some profile) ∧ s.mounted = true ∧
        s' = readProfile profile s ∧ out = [add s'] := by
  have h' : onAnswer s call.cont a = (s', out) := h
  rcases onAnswer_cases s call.cont a with
    heq | ⟨u, hc, ha, heq⟩ | ⟨profile, hc, ha, hm, heq⟩ <;>
    rw [heq] at h' <;> obtain ⟨rfl, rfl⟩ := Prod.mk.inj h'
  · exact Or.inl ⟨rfl, rfl⟩
  · exact Or.inr (Or.inl ⟨u, hc, ha, rfl, rfl⟩)
  · exact Or.inr (Or.inr ⟨profile, hc, ha, hm, rfl, rfl⟩)

/-- No answer changes the profile that is read, or reads one. -/
theorem onAnswer_fetch (s : DisplaySearchState) (cont : Cont) (a : Answer) :
    fetch (onAnswer s cont a).1 = fetch s ∧
      ∀ call ∈ (onAnswer s cont a).2, call.cont ≠ .fetch := by
  rcases onAnswer_cases s cont a with h | ⟨u, -, -, h⟩ | ⟨profile, -, -, -, h⟩ <;> rw [h]
  · exact ⟨rfl, List.forall_mem_nil _⟩
  · exact ⟨rfl, List.forall_mem_nil _⟩
  · refine ⟨rfl, ?_⟩
    intro call hc
    rw [List.mem_singleton.mp hc]
    intro h
    cases h

/-- No answer changes what was searched, or what is on the screen. -/
theorem onAnswer_keeps (s : DisplaySearchState) (cont : Cont) (a : Answer) :
    (onAnswer s cont a).1.queryText = s.queryText ∧ (onAnswer s cont a).1.fresh = s.fresh ∧
      (onAnswer s cont a).1.stream = s.stream ∧ (onAnswer s cont a).1.snapshot = s.snapshot ∧
      (onAnswer s cont a).1.historyEntries = s.historyEntries ∧
      (onAnswer s cont a).1.mounted = s.mounted := by
  rcases onAnswer_cases s cont a with h | ⟨u, -, -, h⟩ | ⟨profile, -, -, -, h⟩ <;> rw [h] <;>
    exact ⟨rfl, rfl, rfl, rfl, rfl, rfl⟩

end P0ker.UserSearch
