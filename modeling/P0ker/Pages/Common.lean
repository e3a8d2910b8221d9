import P0ker.Firebase

/-!
# What the pages share

Every page that writes for the signed-in user asks for that user in `initState`. The group and game
pages show a loading indicator, and with it none of their buttons, until the answer is there
(`userFound`). `print('Current user: ' + mCurrentUser)` stands before `userFound = true` and throws
on a null user, so a null answer leaves the page loading.

`LooksUp` says that a page does this, and `LookedUp` what follows in every run: a page that has
found its user has one, and keeps it.
-/

namespace P0ker

open Async

/-- `new Random().nextInt(999999999)`. -/
abbrev Draw := Fin 999999999

/-- A draw can be given as a numeral. -/
instance draw_neZero : NeZero 999999999 := ⟨by decide⟩

/-- The part of a page's state that the lookup sets. -/
structure UserLookup where
  mCurrentUser : Option String := none
  userFound : Bool := false
  deriving DecidableEq

/-- `userIdFound` after `auth.currentUser()` has answered. -/
def userIdFound (userId : Option String) (s : UserLookup) : UserLookup :=
  match userId with
  | some _ => { s with mCurrentUser := userId, userFound := true }
  | none => { s with mCurrentUser := none }

/-- The buttons are only on the screen of a page that has its user. -/
theorem userFound_userIdFound {userId : Option String} {s : UserLookup}
    (h : s.userFound = false) (h' : (userIdFound userId s).userFound = true) :
    (userIdFound userId s).mCurrentUser ≠ none := by
  cases userId with
  | none =>
      have hsame : (userIdFound none s).userFound = s.userFound := rfl
      rw [hsame, h] at h'
      cases h'
  | some u => exact nofun

/-! ## Who waits for what -/

variable {ι σ ε δ κ : Type} [DecidableEq ι]

section Awaiting

variable [DecidableEq κ] {c : Config ι σ (Backend ι) (Call κ) Answer} {cont : κ} {i : ι} {s : σ}
  {out : List (Call κ)} {cause : List (Call κ × Answer)} {k : Nat} {m : Message ι (Call κ) Answer}

/-- The page that waits for the answer to a message, if the answer runs `cont`. -/
def awaits (cont : κ) (m : Message ι (Call κ) Answer) : Option ι :=
  if m.call.cont = cont then some m.client else none

/-- The pages that wait for answers that run `cont`. -/
def awaiting (cont : κ) (c : Config ι σ (Backend ι) (Call κ) Answer) : Multiset ι :=
  c.carried (awaits cont) fun p => awaits cont p.1

omit [DecidableEq ι] in
theorem mem_awaiting : i ∈ awaiting cont c ↔
    (∃ m ∈ c.calls, m.call.cont = cont ∧ m.client = i) ∨
      ∃ p ∈ c.answers, p.1.call.cont = cont ∧ p.1.client = i := by
  simp only [awaiting, Config.carried, Multiset.mem_add, Multiset.mem_coe, List.mem_filterMap,
    awaits, Option.ite_none_right_eq_some, Option.some.injEq]

omit [DecidableEq ι] in
/-- Calls that run other code make nobody wait. -/
theorem filterMap_awaits (h : ∀ call ∈ out, call.cont ≠ cont) :
    (out.map (Message.mk i · cause)).filterMap (awaits cont) = [] := by
  rw [List.filterMap_eq_nil_iff]
  intro m hm
  obtain ⟨call, hc, rfl⟩ := List.mem_map.mp hm
  exact if_neg (h call hc)

theorem awaiting_post : awaiting cont (c.post i s out cause) =
    awaiting cont c + ↑((out.map (Message.mk i · cause)).filterMap (awaits cont)) :=
  Config.carried_post _ _ c i s out cause

omit [DecidableEq ι] in
theorem awaiting_served {b : Backend ι} {a : Answer} (hk : c.calls[k]? = some m) :
    awaiting cont (c.served k m b a) = awaiting cont c :=
  add_right_cancel (Config.carried_served (awaits cont) (fun p => awaits cont p.1) c b a hk)

omit [DecidableEq ι] in
/-- An answer that runs `cont` is taken off: its page no longer waits for it. -/
theorem awaiting_taken {a : Answer} (hk : c.answers[k]? = some (m, a)) (hm : m.call.cont = cont) :
    awaiting cont c = m.client ::ₘ awaiting cont (c.taken k) := by
  have htaken := Config.carried_taken (awaits cont) (fun p => awaits cont p.1) c hk
  rw [← Multiset.singleton_add, add_comm]
  simpa [awaiting, awaits, hm] using htaken.symm

omit [DecidableEq ι] in
theorem awaiting_taken_ne {a : Answer} (hk : c.answers[k]? = some (m, a))
    (hm : m.call.cont ≠ cont) : awaiting cont (c.taken k) = awaiting cont c := by
  have htaken := Config.carried_taken (awaits cont) (fun p => awaits cont p.1) c hk
  simpa [awaiting, awaits, hm] using htaken

end Awaiting

/-! ## The lookup is made once -/

/-- A page asks for its user in `initState`, and nowhere else; `cont` is the code that runs on the
answer, and nothing else touches `lookup`. -/
structure LooksUp (P : Program σ ε δ (Call κ) Answer) (lookup : σ → UserLookup) (opened : σ → Bool)
    (cont : κ) : Prop where
  event : ∀ s e s' out, P.onEvent s e = some (s', out) → lookup s' = lookup s ∧
    ((opened s = false ∧ opened s' = true ∧ out = [⟨cont, .currentUser⟩]) ∨
      (opened s' = opened s ∧ ∀ call ∈ out, call.cont ≠ cont))
  answer : ∀ s call a d s' out, P.onAnswer s call a d = (s', out) →
    opened s' = opened s ∧ (∀ call' ∈ out, call'.cont ≠ cont) ∧
      (lookup s' = lookup s ∨ call.cont = cont ∧ ∃ u, lookup s' = userIdFound u (lookup s))

section LookedUp

variable {P : Program σ ε δ (Call κ) Answer} {lookup : σ → UserLookup} {opened : σ → Bool}
  {cont : κ} [DecidableEq κ] {c c' : Config ι σ (Backend ι) (Call κ) Answer}
  {init : Config ι σ (Backend ι) (Call κ) Answer → Prop}
  {C : Config ι σ (Backend ι) (Call κ) Answer → Action ι ε δ Outcome → Prop}

/-- Each page has at most one lookup in flight, and then it has been opened and has no user yet; a
page that has found its user has one. -/
structure LookedUp (lookup : σ → UserLookup) (opened : σ → Bool) (cont : κ)
    (c : Config ι σ (Backend ι) (Call κ) Answer) : Prop where
  nodup : (awaiting cont c).Nodup
  waiting : ∀ i ∈ awaiting cont c,
    opened (c.clients i) = true ∧ (lookup (c.clients i)).userFound = false
  closed : ∀ i, opened (c.clients i) = false → (lookup (c.clients i)).userFound = false
  found : ∀ i, (lookup (c.clients i)).userFound = true →
    (lookup (c.clients i)).mCurrentUser ≠ none

omit [DecidableEq ι] in
theorem LookedUp.start (clients : ι → σ) (b : Backend ι)
    (h : ∀ i, (lookup (clients i)).userFound = false) :
    LookedUp lookup opened cont (Config.start clients b []) := by
  refine ⟨Multiset.nodup_zero, fun i hi => absurd hi (Multiset.notMem_zero i), fun i _ => h i, ?_⟩
  intro i hi
  have hfalse : (lookup (clients i)).userFound = false := h i
  rw [show (lookup (clients i)).userFound = true from hi] at hfalse
  cases hfalse

omit [DecidableEq ι] in
/-- Nothing that matters to the lookups has changed. -/
theorem LookedUp.frame (h : LookedUp lookup opened cont c)
    (hflight : awaiting cont c' = awaiting cont c)
    (hlookup : ∀ j, lookup (c'.clients j) = lookup (c.clients j))
    (hopened : ∀ j, opened (c'.clients j) = opened (c.clients j)) :
    LookedUp lookup opened cont c' := by
  refine ⟨hflight ▸ h.nodup, ?_, ?_, ?_⟩
  · intro i hi
    rw [hlookup, hopened]
    exact h.waiting i (hflight ▸ hi)
  · intro i
    rw [hlookup, hopened]
    exact h.closed i
  · intro i
    rw [hlookup]
    exact h.found i

omit [DecidableEq κ] in
theorem field_post {γ : Type} (f : σ → γ) {i : ι} {s : σ} {out : List (Call κ)}
    {cause : List (Call κ × Answer)} (h : f s = f (c.clients i)) (j : ι) :
    f ((c.post i s out cause).clients j) = f (c.clients j) := by
  refine Config.client_post (p := fun s => f s = _) ?_ fun _ => rfl
  rintro rfl
  exact h

theorem LookedUp.event {i : ι} {e : ε} {s : σ} {out : List (Call κ)}
    (hP : LooksUp P lookup opened cont) (h : LookedUp lookup opened cont c)
    (he : P.onEvent (c.clients i) e = some (s, out)) :
    LookedUp lookup opened cont (c.post i s out []) := by
  obtain ⟨hsame, hcase⟩ := hP.event _ _ _ _ he
  have hpost : awaiting cont (c.post i s out []) =
      awaiting cont c + ↑((out.map (Message.mk i · [])).filterMap (awaits cont)) := awaiting_post
  have hlookup : ∀ j, lookup ((c.post i s out []).clients j) = lookup (c.clients j) :=
    field_post lookup hsame
  rcases hcase with ⟨hclosed, hopen, rfl⟩ | ⟨hopen, hout⟩
  · -- the page is opened now, so no lookup of it was in flight
    have hnot : i ∉ awaiting cont c := by
      intro hi
      have hopened := (h.waiting i hi).1
      rw [hclosed] at hopened
      cases hopened
    have hnew : awaiting cont (c.post i s [⟨cont, .currentUser⟩] []) = i ::ₘ awaiting cont c := by
      rw [← Multiset.singleton_add, add_comm]
      simpa [awaits] using hpost
    refine ⟨?_, ?_, ?_, ?_⟩
    · rw [hnew]
      exact Multiset.nodup_cons.mpr ⟨hnot, h.nodup⟩
    · intro j hj
      rw [hlookup]
      by_cases hji : j = i
      · rw [hji, Config.post_clients_self]
        exact ⟨hopen, h.closed i hclosed⟩
      · rw [Config.post_clients_ne _ _ _ _ _ hji]
        rw [hnew] at hj
        exact h.waiting j ((Multiset.mem_cons.mp hj).resolve_left hji)
    · intro j hj
      rw [hlookup]
      by_cases hji : j = i
      · rw [hji]
        exact h.closed i hclosed
      · rw [Config.post_clients_ne _ _ _ _ _ hji] at hj
        exact h.closed j hj
    · intro j
      rw [hlookup]
      exact h.found j
  · refine h.frame ?_ hlookup (field_post opened hopen)
    rw [filterMap_awaits hout] at hpost
    exact hpost.trans (add_zero _)

omit [DecidableEq ι] in
theorem LookedUp.served {k : Nat} {m : Message ι (Call κ) Answer} {b : Backend ι} {a : Answer}
    (h : LookedUp lookup opened cont c) (hk : c.calls[k]? = some m) :
    LookedUp lookup opened cont (c.served k m b a) := by
  exact h.frame (awaiting_served hk) (fun _ => rfl) (fun _ => rfl)

theorem LookedUp.delivered {k : Nat} {m : Message ι (Call κ) Answer} {a : Answer} {d : δ} {s : σ}
    {out : List (Call κ)} {cause : List (Call κ × Answer)} (hP : LooksUp P lookup opened cont)
    (h : LookedUp lookup opened cont c) (hk : c.answers[k]? = some (m, a))
    (ha : P.onAnswer (c.clients m.client) m.call a d = (s, out)) :
    LookedUp lookup opened cont ((c.taken k).post m.client s out cause) := by
  obtain ⟨hopen, hout, hcase⟩ := hP.answer _ _ _ _ _ _ ha
  have hpost : awaiting cont ((c.taken k).post m.client s out cause) =
      awaiting cont (c.taken k) := by
    rw [awaiting_post, filterMap_awaits hout]
    exact add_zero _
  have hopened : ∀ j, opened (((c.taken k).post m.client s out cause).clients j) =
      opened (c.clients j) := field_post opened hopen
  by_cases hm : m.call.cont = cont
  · -- its only lookup comes home
    have hnew : awaiting cont c = m.client ::ₘ
        awaiting cont ((c.taken k).post m.client s out cause) := by
      rw [hpost]
      exact awaiting_taken hk hm
    obtain ⟨hnot, hnodup⟩ := Multiset.nodup_cons.mp (hnew ▸ h.nodup)
    have hwaiting := h.waiting m.client (hnew ▸ Multiset.mem_cons_self _ _)
    refine ⟨hnodup, ?_, ?_, ?_⟩
    · intro j hj
      have hji : j ≠ m.client := fun hji => hnot (hji ▸ hj)
      rw [Config.post_clients_ne _ _ _ _ _ hji]
      exact h.waiting j (hnew ▸ Multiset.mem_cons_of_mem hj)
    · intro j hj
      rw [hopened] at hj
      by_cases hji : j = m.client
      · rw [hji, hwaiting.1] at hj
        cases hj
      · rw [Config.post_clients_ne _ _ _ _ _ hji]
        exact h.closed j hj
    · intro j hj
      by_cases hji : j = m.client
      · rw [hji, Config.post_clients_self] at hj ⊢
        rcases hcase with hsame | ⟨-, u, hu⟩
        · rw [hsame, hwaiting.2] at hj
          cases hj
        · rw [hu] at hj ⊢
          exact userFound_userIdFound hwaiting.2 hj
      · rw [Config.post_clients_ne _ _ _ _ _ hji] at hj ⊢
        exact h.found j hj
  · have hsame : lookup s = lookup (c.clients m.client) :=
      hcase.resolve_right fun hcont => hm hcont.1
    exact h.frame (hpost.trans (awaiting_taken_ne hk hm))
      (field_post (c := c.taken k) lookup hsame) hopened

theorem lookedUp (hP : LooksUp P lookup opened cont)
    (h : (system P (firebase ι κ) init).Reach C c)
    (hinit : ∀ c, init c → LookedUp lookup opened cont c) : LookedUp lookup opened cont c := by
  refine h.invariant hinit ?_
  intro c a c' _ hq _ hs
  refine step_keeps (Q := LookedUp lookup opened cont) hs ?_ ?_ ?_
  · intro i e s out _ he
    exact hq.event hP he
  · intro k o m b r _ hk _
    exact hq.served hk
  · intro k d m r s out _ hk ha
    exact hq.delivered hP hk ha

/-- A page that has found its user keeps it. -/
theorem LookedUp.kept (hP : LooksUp P lookup opened cont) (h : LookedUp lookup opened cont c)
    {a : Action ι ε δ Outcome} (hs : step P (firebase ι κ) c a = some c') {i : ι}
    (hi : (lookup (c.clients i)).userFound = true) :
    lookup (c'.clients i) = lookup (c.clients i) := by
  refine step_keeps (Q := fun c' => lookup (c'.clients i) = lookup (c.clients i)) hs ?_
    (fun _ _ _ _ _ _ _ _ => rfl) ?_
  · intro j e s out _ he
    exact field_post lookup (hP.event _ _ _ _ he).1 i
  · intro k d m r s out _ hk ha
    rcases (hP.answer _ _ _ _ _ _ ha).2.2 with hsame | ⟨hcont, -⟩
    · exact field_post (c := c.taken k) lookup hsame i
    · -- a lookup that comes home belongs to a page that has not found its user
      have hne : i ≠ m.client := by
        rintro rfl
        have hmem : m.client ∈ awaiting cont c :=
          mem_awaiting.mpr (Or.inr ⟨_, List.mem_of_getElem? hk, hcont, rfl⟩)
        rw [(h.waiting _ hmem).2] at hi
        cases hi
      rw [Config.post_clients_ne _ _ _ _ _ hne, Config.taken_clients]

/-- Besides its lookup, the page issues calls only once it has found its user, or on the answers to
such calls. -/
structure Gated (P : Program σ ε δ (Call κ) Answer) (lookup : σ → UserLookup) (cont : κ) :
    Prop where
  event : ∀ s e s' out, P.onEvent s e = some (s', out) →
    (∀ call ∈ out, call.cont = cont) ∨ (lookup s).userFound = true
  answer : ∀ s call a d s' out, P.onAnswer s call a d = (s', out) → out ≠ [] → call.cont ≠ cont

/-- Whoever has issued such a call has found the user. -/
def AskersFound (lookup : σ → UserLookup) (cont : κ)
    (c : Config ι σ (Backend ι) (Call κ) Answer) : Prop :=
  ∀ m ∈ c.issued, m.call.cont ≠ cont → (lookup (c.clients m.client)).userFound = true

omit [DecidableEq κ] in
theorem AskersFound.post {i : ι} {s : σ} {out : List (Call κ)} {cause : List (Call κ × Answer)}
    (h : AskersFound lookup cont c)
    (hkept : ∀ j, (lookup (c.clients j)).userFound = true →
      lookup ((c.post i s out cause).clients j) = lookup (c.clients j))
    (hout : ∀ call ∈ out, call.cont ≠ cont → (lookup (c.clients i)).userFound = true) :
    AskersFound lookup cont (c.post i s out cause) := by
  intro m hm hcont
  rcases mem_issued_post hm with hm | ⟨call, hc, rfl⟩
  · rw [hkept _ (h m hm hcont)]
    exact h m hm hcont
  · rw [hkept _ (hout call hc hcont)]
    exact hout call hc hcont

theorem askersFound (hP : LooksUp P lookup opened cont) (hG : Gated P lookup cont)
    (h : (system P (firebase ι κ) init).Reach C c)
    (hinit : ∀ c, init c → InFlightIssued c ∧ LookedUp lookup opened cont c ∧
      AskersFound lookup cont c) : AskersFound lookup cont c := by
  refine h.invariant (fun c hc => (hinit c hc).2.2) ?_
  intro c a c' hr hq _ hs
  have hlooked := lookedUp hP hr fun c hc => (hinit c hc).2.1
  have hkept := fun i => hlooked.kept hP hs (i := i)
  have hinfl := Reach.inFlightIssued hr fun c hc => (hinit c hc).1
  cases a with
  | event i e =>
      obtain ⟨s, out, he, rfl⟩ := step_event (S := firebase ι κ) hs
      refine hq.post hkept ?_
      intro call hc hcont
      rcases hG.event _ _ _ _ he with hall | hfound
      · exact absurd (hall call hc) hcont
      · exact hfound
  | serve k o =>
      obtain ⟨m, b, r, -, -, rfl⟩ := step_serve (P := P) hs
      exact hq
  | deliver k d =>
      obtain ⟨m, r, s, out, hk, ha, rfl⟩ := step_deliver (S := firebase ι κ) hs
      refine AskersFound.post (c := c.taken k) hq hkept ?_
      intro call hc _
      exact hq m (hinfl.2 _ (List.mem_of_getElem? hk))
        (hG.answer _ _ _ _ _ _ ha (List.ne_nil_of_mem hc))

end LookedUp

end P0ker
