import P0ker.Lib.Machine
import Mathlib.Data.List.Perm.Basic
import Mathlib.Algebra.Order.Group.Multiset
import Mathlib.Tactic.Abel

/-!
# Asynchronous clients over a shared service

Any number of clients run one *program*: a handler for each event of the user interface and a
handler for each answer to a call the client issued. Handlers run to completion and only *issue*
calls; a *service* shared by all clients evaluates each call at some later moment, and its answer
is handled by the client at a moment later still. Calls of one client may be evaluated, and
answers handled, in any order.

The machine of such a system has three kinds of action:

* `event i e` — the interface of client `i` raises `e`;
* `serve k o` — the service evaluates the `k`-th outstanding call, `o` resolving what the service
  leaves open (whether the call is accepted, which fresh name it picks);
* `deliver k d` — the client that issued it handles the `k`-th outstanding answer, `d` resolving
  what the handler leaves open (a random draw).

Two things are recorded that no handler reads: with each call the answers that led to it
(`Message.cause`, latest first), and every call ever issued (`Config.issued`).
-/

namespace Async

/-- A client program. `onEvent` is `none` when the event is not possible in that state (the button
is not on the screen). -/
structure Program (σ ε δ ρ α : Type) where
  onEvent : σ → ε → Option (σ × List ρ)
  onAnswer : σ → ρ → α → δ → σ × List ρ

/-- A service: how a call of a client is evaluated, `none` when the outcome `o` is impossible. -/
structure Service (ι β ρ ω α : Type) where
  serve : β → ι → ρ → ω → Option (β × α)

/-- An issued call. -/
structure Message (ι ρ α : Type) where
  client : ι
  call : ρ
  /-- The answered calls whose handlers led to this call, latest first. -/
  cause : List (ρ × α)
  deriving DecidableEq

/-- A configuration of the whole system. -/
structure Config (ι σ β ρ α : Type) where
  clients : ι → σ
  backend : β
  /-- Issued, not yet evaluated. -/
  calls : List (Message ι ρ α)
  /-- Evaluated, not yet handled. -/
  answers : List (Message ι ρ α × α)
  /-- Every call issued so far, oldest first. -/
  issued : List (Message ι ρ α)

inductive Action (ι ε δ ω : Type) where
  | event (i : ι) (e : ε)
  | serve (k : Nat) (o : ω)
  | deliver (k : Nat) (d : δ)
  deriving DecidableEq

variable {ι σ ε δ ρ α β ω : Type} [DecidableEq ι]

namespace Config

/-- A start of the system: the calls `ms` are issued and outstanding, nothing else. -/
def start (clients : ι → σ) (backend : β) (ms : List (Message ι ρ α)) : Config ι σ β ρ α :=
  ⟨clients, backend, ms, [], ms⟩

/-- No call and no answer is outstanding. -/
def Quiet (c : Config ι σ β ρ α) : Prop :=
  c.calls = [] ∧ c.answers = []

instance [DecidableEq ρ] [DecidableEq α] (c : Config ι σ β ρ α) :
    Decidable c.Quiet := by
  unfold Quiet
  infer_instance

/-- Client `i` moves to `s` and issues `out`. -/
def post (c : Config ι σ β ρ α) (i : ι) (s : σ) (out : List ρ) (cause : List (ρ × α)) :
    Config ι σ β ρ α :=
  { c with
    clients := Function.update c.clients i s
    calls := c.calls ++ out.map (⟨i, ·, cause⟩)
    issued := c.issued ++ out.map (⟨i, ·, cause⟩) }

/-- The `k`-th outstanding call `m` has been evaluated to `a`, leaving the service in `b`. -/
def served (c : Config ι σ β ρ α) (k : Nat) (m : Message ι ρ α) (b : β) (a : α) :
    Config ι σ β ρ α :=
  { c with backend := b, calls := c.calls.eraseIdx k, answers := c.answers ++ [(m, a)] }

/-- The `k`-th outstanding answer is taken off the list. -/
def taken (c : Config ι σ β ρ α) (k : Nat) : Config ι σ β ρ α :=
  { c with answers := c.answers.eraseIdx k }

section Fields

variable (c : Config ι σ β ρ α) (i : ι) (s : σ) (out : List ρ) (cause : List (ρ × α))
  (k : Nat) (m : Message ι ρ α) (b : β) (a : α)

@[simp] theorem post_clients : (c.post i s out cause).clients = Function.update c.clients i s := rfl
theorem post_clients_self : (c.post i s out cause).clients i = s := by
  rw [post_clients, Function.update_self]
theorem post_clients_ne {j : ι} (h : j ≠ i) : (c.post i s out cause).clients j = c.clients j := by
  rw [post_clients, Function.update_of_ne h]
@[simp] theorem post_backend : (c.post i s out cause).backend = c.backend := rfl
@[simp] theorem post_answers : (c.post i s out cause).answers = c.answers := rfl
@[simp] theorem post_calls :
    (c.post i s out cause).calls = c.calls ++ out.map (⟨i, ·, cause⟩) := rfl
@[simp] theorem post_issued :
    (c.post i s out cause).issued = c.issued ++ out.map (⟨i, ·, cause⟩) := rfl

omit [DecidableEq ι] in
@[simp] theorem served_clients : (c.served k m b a).clients = c.clients := rfl
omit [DecidableEq ι] in
@[simp] theorem served_backend : (c.served k m b a).backend = b := rfl
omit [DecidableEq ι] in
@[simp] theorem served_calls : (c.served k m b a).calls = c.calls.eraseIdx k := rfl
omit [DecidableEq ι] in
@[simp] theorem served_answers : (c.served k m b a).answers = c.answers ++ [(m, a)] := rfl
omit [DecidableEq ι] in
@[simp] theorem served_issued : (c.served k m b a).issued = c.issued := rfl

omit [DecidableEq ι] in
@[simp] theorem taken_clients : (c.taken k).clients = c.clients := rfl
omit [DecidableEq ι] in
@[simp] theorem taken_backend : (c.taken k).backend = c.backend := rfl
omit [DecidableEq ι] in
@[simp] theorem taken_calls : (c.taken k).calls = c.calls := rfl
omit [DecidableEq ι] in
@[simp] theorem taken_answers : (c.taken k).answers = c.answers.eraseIdx k := rfl
omit [DecidableEq ι] in
@[simp] theorem taken_issued : (c.taken k).issued = c.issued := rfl

end Fields

/-- Two moves of one client are one. -/
theorem post_post (c : Config ι σ β ρ α) (i : ι) (s s' : σ) (out out' : List ρ)
    (cause : List (ρ × α)) :
    (c.post i s out cause).post i s' out' cause = c.post i s' (out ++ out') cause := by
  simp only [post, Function.update_idem, List.map_append, List.append_assoc]

/-- A client that stays as it is has not moved. -/
theorem post_self (c : Config ι σ β ρ α) (i : ι) (cause : List (ρ × α)) :
    c.post i (c.clients i) [] cause = c := by
  simp only [post, Function.update_eq_self, List.map_nil, List.append_nil]

/-- What holds of client `j` after a move of client `i`, which is the same or another. -/
theorem client_post {p : σ → Prop} {c : Config ι σ β ρ α} {i j : ι} {s : σ} {out : List ρ}
    {cause : List (ρ × α)} (hself : j = i → p s) (hne : j ≠ i → p (c.clients j)) :
    p ((c.post i s out cause).clients j) := by
  by_cases hj : j = i
  · rw [hj, post_clients_self]
    exact hself hj
  · rw [post_clients_ne _ _ _ _ _ hj]
    exact hne hj

end Config

/-- One action of the system. -/
def step (P : Program σ ε δ ρ α) (S : Service ι β ρ ω α) (c : Config ι σ β ρ α) :
    Action ι ε δ ω → Option (Config ι σ β ρ α)
  | .event i e =>
      match P.onEvent (c.clients i) e with
      | some (s, out) => some (c.post i s out [])
      | none => none
  | .serve k o =>
      match c.calls[k]? with
      | some m =>
          match S.serve c.backend m.client m.call o with
          | some (b, a) => some (c.served k m b a)
          | none => none
      | none => none
  | .deliver k d =>
      match c.answers[k]? with
      | some (m, a) =>
          let r := P.onAnswer (c.clients m.client) m.call a d
          some ((c.taken k).post m.client r.1 r.2 ((m.call, a) :: m.cause))
      | none => none

/-- The system of clients that run `P` over the service `S`. -/
def system (P : Program σ ε δ ρ α) (S : Service ι β ρ ω α) (init : Config ι σ β ρ α → Prop) :
    Machine (Config ι σ β ρ α) (Action ι ε δ ω) where
  init := init
  step := step P S

/-! ## What one action can do -/

variable {P : Program σ ε δ ρ α} {S : Service ι β ρ ω α} {c c' : Config ι σ β ρ α}
  {init : Config ι σ β ρ α → Prop} {C : Config ι σ β ρ α → Action ι ε δ ω → Prop}

theorem step_event {i : ι} {e : ε} (h : step P S c (.event i e) = some c') :
    ∃ s out, P.onEvent (c.clients i) e = some (s, out) ∧ c' = c.post i s out [] := by
  simp only [step] at h
  split at h
  · next s out he => exact ⟨s, out, he, (Option.some.inj h).symm⟩
  · cases h

theorem step_serve {k : Nat} {o : ω} (h : step P S c (.serve k o) = some c') :
    ∃ m b a, c.calls[k]? = some m ∧ S.serve c.backend m.client m.call o = some (b, a) ∧
      c' = c.served k m b a := by
  simp only [step] at h
  split at h
  · next m hm =>
      split at h
      · next b a hs => exact ⟨m, b, a, hm, hs, (Option.some.inj h).symm⟩
      · cases h
  · cases h

theorem step_deliver {k : Nat} {d : δ} (h : step P S c (.deliver k d) = some c') :
    ∃ m a s out, c.answers[k]? = some (m, a) ∧ P.onAnswer (c.clients m.client) m.call a d = (s, out)
      ∧ c' = (c.taken k).post m.client s out ((m.call, a) :: m.cause) := by
  simp only [step] at h
  split at h
  · next m a hm => exact ⟨m, a, _, _, hm, rfl, (Option.some.inj h).symm⟩
  · cases h

theorem step_event_of {i : ι} {e : ε} {s : σ} {out : List ρ}
    (h : P.onEvent (c.clients i) e = some (s, out)) :
    step P S c (.event i e) = some (c.post i s out []) := by
  simp only [step, h]

theorem step_serve_of {k : Nat} {o : ω} {m : Message ι ρ α} {b : β} {a : α}
    (hk : c.calls[k]? = some m) (hs : S.serve c.backend m.client m.call o = some (b, a)) :
    step P S c (.serve k o) = some (c.served k m b a) := by
  simp only [step, hk, hs]

/-- An outstanding answer can always be handled. -/
theorem step_deliver_of {k : Nat} {d : δ} {m : Message ι ρ α} {a : α}
    (h : c.answers[k]? = some (m, a)) :
    step P S c (.deliver k d) = some ((c.taken k).post m.client
      (P.onAnswer (c.clients m.client) m.call a d).1 (P.onAnswer (c.clients m.client) m.call a d).2
      ((m.call, a) :: m.cause)) := by
  simp only [step, h]

/-- A property of configurations is kept by every action once it is kept by what each of the three
kinds of action does. -/
theorem step_keeps {Q : Config ι σ β ρ α → Prop} {a : Action ι ε δ ω}
    (h : step P S c a = some c')
    (hevent : ∀ i e s out, a = .event i e → P.onEvent (c.clients i) e = some (s, out) →
      Q (c.post i s out []))
    (hserve : ∀ k o m b r, a = .serve k o → c.calls[k]? = some m →
      S.serve c.backend m.client m.call o = some (b, r) → Q (c.served k m b r))
    (hdeliver : ∀ k d m r s out, a = .deliver k d → c.answers[k]? = some (m, r) →
      P.onAnswer (c.clients m.client) m.call r d = (s, out) →
      Q ((c.taken k).post m.client s out ((m.call, r) :: m.cause))) : Q c' := by
  cases a with
  | event i e =>
      obtain ⟨s, out, he, rfl⟩ := step_event h
      exact hevent i e s out rfl he
  | serve k o =>
      obtain ⟨m, b, r, hm, hs, rfl⟩ := step_serve h
      exact hserve k o m b r rfl hm hs
  | deliver k d =>
      obtain ⟨m, r, s, out, hm, ha, rfl⟩ := step_deliver h
      exact hdeliver k d m r s out rfl hm ha

/-! ## Messages in flight -/

/-- Every outstanding call, and the call of every outstanding answer, was issued. -/
def InFlightIssued (c : Config ι σ β ρ α) : Prop :=
  (∀ m ∈ c.calls, m ∈ c.issued) ∧ ∀ p ∈ c.answers, p.1 ∈ c.issued

theorem InFlightIssued.post {i : ι} {s : σ} {out : List ρ} {cause : List (ρ × α)}
    (hq : InFlightIssued c) : InFlightIssued (c.post i s out cause) := by
  refine ⟨fun m hm => ?_, fun p hp => ?_⟩
  · simp only [Config.post_calls, Config.post_issued, List.mem_append] at hm ⊢
    exact hm.imp_left (hq.1 m)
  · simp only [Config.post_issued, List.mem_append]
    exact Or.inl (hq.2 p hp)

omit [DecidableEq ι] in
theorem InFlightIssued.served {k : Nat} {m : Message ι ρ α} {b : β} {a : α} (hq : InFlightIssued c)
    (hk : c.calls[k]? = some m) : InFlightIssued (c.served k m b a) := by
  refine ⟨fun m' hm => hq.1 m' (List.mem_of_mem_eraseIdx hm), fun p hp => ?_⟩
  rcases List.mem_append.mp hp with hp | hp
  · exact hq.2 p hp
  · obtain rfl := List.mem_singleton.mp hp
    exact hq.1 m (List.mem_of_getElem? hk)

omit [DecidableEq ι] in
theorem InFlightIssued.taken {k : Nat} (hq : InFlightIssued c) : InFlightIssued (c.taken k) :=
  ⟨hq.1, fun p hp => hq.2 p (List.mem_of_mem_eraseIdx hp)⟩

theorem InFlightIssued.step (hq : InFlightIssued c) {a : Action ι ε δ ω}
    (h : step P S c a = some c') : InFlightIssued c' :=
  step_keeps h (fun _ _ _ _ _ _ => hq.post) (fun _ _ _ _ _ _ hk _ => hq.served hk)
    fun _ _ _ _ _ _ _ _ _ => hq.taken.post

omit [DecidableEq ι] in
theorem InFlightIssued.start (clients : ι → σ) (backend : β) (ms : List (Message ι ρ α)) :
    InFlightIssued (Config.start clients backend ms) :=
  ⟨fun _ hm => hm, List.forall_mem_nil _⟩

/-- Every reached state has only issued messages in flight. -/
theorem Reach.inFlightIssued (h : (system P S init).Reach C c)
    (hinit : ∀ c, init c → InFlightIssued c) : InFlightIssued c :=
  h.invariant hinit fun _ _ _ _ hq _ hs => hq.step hs

/-- The calls a handler has just issued. -/
theorem mem_issued_post {i : ι} {s : σ} {out : List ρ} {cause : List (ρ × α)} {m : Message ι ρ α}
    (h : m ∈ (c.post i s out cause).issued) :
    m ∈ c.issued ∨ ∃ call ∈ out, m = ⟨i, call, cause⟩ := by
  rw [Config.post_issued, List.mem_append] at h
  rcases h with h | h
  · exact Or.inl h
  · obtain ⟨call, hc, rfl⟩ := List.mem_map.mp h
    exact Or.inr ⟨call, hc, rfl⟩

theorem mem_calls_post {i : ι} {s : σ} {out : List ρ} {cause : List (ρ × α)} {m : Message ι ρ α}
    (h : m ∈ (c.post i s out cause).calls) :
    m ∈ c.calls ∨ ∃ call ∈ out, m = ⟨i, call, cause⟩ := by
  rw [Config.post_calls, List.mem_append] at h
  rcases h with h | h
  · exact Or.inl h
  · obtain ⟨call, hc, rfl⟩ := List.mem_map.mp h
    exact Or.inr ⟨call, hc, rfl⟩

omit [DecidableEq ι] in
/-- Removing the `k`-th element keeps every other one. -/
theorem mem_eraseIdx_or {γ : Type} {l : List γ} {k : Nat} {x y : γ} (hk : l[k]? = some x)
    (hy : y ∈ l) : y = x ∨ y ∈ l.eraseIdx k := by
  obtain ⟨n, hn⟩ := List.mem_iff_getElem?.mp hy
  by_cases h : n = k
  · subst h
    rw [hk] at hn
    exact Or.inl (Option.some.inj hn).symm
  · exact Or.inr (List.mem_eraseIdx_iff_getElem?.mpr ⟨n, h, hn⟩)

omit [DecidableEq ι] in
/-- Elements whose keys are all different are told apart by their keys. -/
theorem eq_of_nodup_filterMap {α β : Type} {f : α → Option β} {l : List α} {x y : α} {k : β}
    (h : (l.filterMap f).Nodup) (hx : x ∈ l) (hy : y ∈ l) (hfx : f x = some k)
    (hfy : f y = some k) : x = y := by
  have hne := List.pairwise_filterMap.mp h
  have heq : ∀ ⦃x⦄, x ∈ l → ∀ ⦃y⦄, y ∈ l → f x = some k → f y = some k → x = y := by
    apply List.Pairwise.forall_of_forall_of_flip
    · exact fun _ _ _ _ => rfl
    · exact hne.imp fun hab ha hb => absurd rfl (hab k ha k hb)
    · exact hne.imp fun hab hb ha => absurd rfl (hab k ha k hb)
  exact heq hx hy hfx hfy

omit [DecidableEq ι] in
theorem mem_answers_served {k : Nat} {m : Message ι ρ α} {b : β} {a : α} {p : Message ι ρ α × α}
    (h : p ∈ (c.served k m b a).answers) : p ∈ c.answers ∨ p = (m, a) := by
  rw [Config.served_answers, List.mem_append] at h
  exact h.imp_right List.mem_singleton.mp

/-! ### The order of the messages

The outstanding calls stand in the order in which they were issued. -/

/-- An element with `Q` stands before position `k`. -/
def Preceded {γ : Type} (Q : γ → Prop) (k : Nat) (l : List γ) : Prop :=
  ∃ j < k, ∃ x, l[j]? = some x ∧ Q x

omit [DecidableEq ι] in
theorem Preceded.append {γ : Type} {Q : γ → Prop} {k : Nat} {l : List γ} (more : List γ)
    (h : Preceded Q k l) : Preceded Q k (l ++ more) := by
  obtain ⟨j, hj, x, hx, hq⟩ := h
  refine ⟨j, hj, x, ?_, hq⟩
  rw [List.getElem?_append_left (List.getElem?_eq_some_iff.mp hx).1, hx]

omit [DecidableEq ι] in
/-- Removing the `n`-th element leaves the others in their order. -/
theorem preceded_eraseIdx {γ : Type} {l : List γ} {n k : Nat} {x : γ}
    (h : (l.eraseIdx n)[k]? = some x) : ∃ k', l[k']? = some x ∧ ∀ Q : γ → Prop, Preceded Q k' l →
      (∃ y, l[n]? = some y ∧ Q y) ∨ Preceded Q k (l.eraseIdx n) := by
  have hindex : ∀ j, (l.eraseIdx n)[j]? = l[if j < n then j else j + 1]? := by
    intro j
    rw [List.getElem?_eraseIdx]
    split <;> rfl
  refine ⟨if k < n then k else k + 1, (hindex k).symm.trans h, ?_⟩
  rintro Q ⟨j, hj, y, hy, hq⟩
  by_cases hjn : j = n
  · exact Or.inl ⟨y, hjn ▸ hy, hq⟩
  · refine Or.inr ⟨if j < n then j else j - 1, ?_, y, ?_, hq⟩
    · split at hj <;> split <;> omega
    · rw [hindex, ← hy]
      congr 1
      by_cases hlt : j < n
      · rw [if_pos hlt, if_pos hlt]
      · rw [if_neg hlt, if_neg (by omega), Nat.sub_add_cancel (by omega)]

/-! ### One message in flight

A client that is left alone has one message in flight at a time. -/

section Lone

variable {i : ι} {s : σ} {out : List ρ} {cause : List (ρ × α)} {m : Message ι ρ α} {b : β} {a : α}

omit [DecidableEq ι] in
/-- The only message there is. -/
theorem eq_of_getElem?_singleton {γ : Type} {k : Nat} {x y : γ} (h : [x][k]? = some y) :
    k = 0 ∧ y = x := by
  cases k with
  | zero => exact ⟨rfl, (Option.some.inj h).symm⟩
  | succ => cases h

theorem Config.post_calls_of_nil (hc : c.calls = []) :
    (c.post i s out cause).calls = out.map (⟨i, ·, cause⟩) := by
  rw [Config.post_calls, hc, List.nil_append]

omit [DecidableEq ι] in
theorem Config.served_calls_of_lone (hc : c.calls = [m]) : (c.served 0 m b a).calls = [] := by
  rw [Config.served_calls, hc]
  rfl

omit [DecidableEq ι] in
theorem Config.served_answers_of_nil (ha : c.answers = []) :
    (c.served 0 m b a).answers = [(m, a)] := by
  rw [Config.served_answers, ha]
  rfl

omit [DecidableEq ι] in
/-- The only answer is taken, and none is left. -/
theorem Config.taken_of_lone {k : Nat} {p q : Message ι ρ α × α} (ha : c.answers = [p])
    (hk : c.answers[k]? = some q) : q = p ∧ (c.taken k).answers = [] := by
  rw [ha] at hk
  obtain ⟨rfl, rfl⟩ := eq_of_getElem?_singleton hk
  refine ⟨rfl, ?_⟩
  rw [Config.taken_answers, ha]
  rfl

end Lone

/-- Nothing issued is ever forgotten. -/
theorem mem_issued_step {a : Action ι ε δ ω} (h : step P S c a = some c') {m : Message ι ρ α}
    (hm : m ∈ c.issued) : m ∈ c'.issued := by
  refine step_keeps (Q := fun c => m ∈ c.issued) h ?_ (fun _ _ _ _ _ _ _ _ => hm) ?_
  · intro i e s out _ _
    exact List.mem_append_left _ hm
  · intro k d m' r s out _ _ _
    exact List.mem_append_left _ hm

theorem mem_issued_steps {m : Message ι ρ α} (h : (system P S init).Steps C c c')
    (hm : m ∈ c.issued) : m ∈ c'.issued :=
  h.preserves (P := fun c => m ∈ c.issued) hm fun _ _ _ hm _ hs => mem_issued_step hs hm

/-- Every issued call is outstanding, or its answer is, or it is done. -/
def Accounted (Done : Config ι σ β ρ α → Message ι ρ α → Prop) (c : Config ι σ β ρ α) : Prop :=
  ∀ m ∈ c.issued, m ∈ c.calls ∨ (∃ r, (m, r) ∈ c.answers) ∨ Done c m

omit [DecidableEq ι] in
theorem Accounted.start (Done : Config ι σ β ρ α → Message ι ρ α → Prop) (clients : ι → σ)
    (backend : β) (ms : List (Message ι ρ α)) : Accounted Done (Config.start clients backend ms) :=
  fun _ hm => Or.inl hm

/-- What is done stays done, and what is handled is done. -/
theorem Accounted.step {Done : Config ι σ β ρ α → Message ι ρ α → Prop} {a : Action ι ε δ ω}
    (hq : Accounted Done c) (h : Async.step P S c a = some c')
    (hstays : ∀ m ∈ c.issued, Done c m → Done c' m)
    (hdone : ∀ k d m r, a = .deliver k d → c.answers[k]? = some (m, r) → Done c' m) :
    Accounted Done c' := by
  cases a with
  | event i e =>
      obtain ⟨s, out, -, rfl⟩ := step_event h
      intro m hm
      rw [Config.post_issued, List.mem_append] at hm
      rw [Config.post_calls, List.mem_append]
      rcases hm with hm | hm
      · rcases hq m hm with hcall | hanswer | hd
        · exact Or.inl (Or.inl hcall)
        · exact Or.inr (Or.inl hanswer)
        · exact Or.inr (Or.inr (hstays m hm hd))
      · exact Or.inl (Or.inr hm)
  | serve k o =>
      obtain ⟨m', b, r, hk, -, rfl⟩ := step_serve h
      intro m hm
      rcases hq m hm with hcall | ⟨r', hanswer⟩ | hd
      · rcases mem_eraseIdx_or hk hcall with rfl | hcall
        · exact Or.inr (Or.inl ⟨r, List.mem_append_right _ (List.mem_singleton_self _)⟩)
        · exact Or.inl hcall
      · exact Or.inr (Or.inl ⟨r', List.mem_append_left _ hanswer⟩)
      · exact Or.inr (Or.inr (hstays m hm hd))
  | deliver k d =>
      obtain ⟨m', r, s, out, hk, -, rfl⟩ := step_deliver h
      intro m hm
      rw [Config.post_issued, Config.taken_issued, List.mem_append] at hm
      rw [Config.post_calls, Config.taken_calls, List.mem_append]
      rcases hm with hm | hm
      · rcases hq m hm with hcall | ⟨r', hanswer⟩ | hd
        · exact Or.inl (Or.inl hcall)
        · rcases mem_eraseIdx_or hk hanswer with heq | hanswer
          · obtain ⟨rfl, rfl⟩ := Prod.mk.inj heq
            exact Or.inr (Or.inr (hdone k d m r' rfl hk))
          · exact Or.inr (Or.inl ⟨r', hanswer⟩)
        · exact Or.inr (Or.inr (hstays m hm hd))
      · exact Or.inl (Or.inr hm)

/-- **What is issued.** A property of issued calls holds of all of them, in every reached state, if
it holds of what an event issues, and of what an answer issues when it holds of the answered
call. -/
theorem Reach.issued {K : Message ι ρ α → Prop} (h : (system P S init).Reach C c)
    (hinit : ∀ c, init c → InFlightIssued c ∧ ∀ m ∈ c.issued, K m)
    (hevent : ∀ c i e s out, (system P S init).Reach C c → C c (.event i e) →
      P.onEvent (c.clients i) e = some (s, out) → ∀ call ∈ out, K ⟨i, call, []⟩)
    (hanswer : ∀ c k m a d s out, (system P S init).Reach C c → C c (.deliver k d) →
      c.answers[k]? = some (m, a) → K m → P.onAnswer (c.clients m.client) m.call a d = (s, out) →
      ∀ call ∈ out, K ⟨m.client, call, (m.call, a) :: m.cause⟩) : ∀ m ∈ c.issued, K m := by
  refine h.invariant (P := fun c => ∀ m ∈ c.issued, K m) (fun c hc => (hinit c hc).2) ?_
  intro c a c' hr hq hC hs
  refine step_keeps (Q := fun c => ∀ m ∈ c.issued, K m) hs ?_ (fun _ _ _ _ _ _ _ _ => hq) ?_
  · intro i e s out hact he m hm
    subst hact
    rcases mem_issued_post hm with hm | ⟨call, hc, rfl⟩
    · exact hq m hm
    · exact hevent c i e s out hr hC he call hc
  · intro k d m r s out hact hk ha m' hm
    subst hact
    rcases mem_issued_post hm with hm | ⟨call, hc, rfl⟩
    · exact hq m' hm
    · have hissued := (Reach.inFlightIssued hr fun c hc => (hinit c hc).1).2 _
        (List.mem_of_getElem? hk)
      exact hanswer c k m r d s out hr hC hk (hq m hissued) ha call hc

/-- **What the clients are like.** A property of a client's state that every handler keeps holds of
all clients in every reached state. -/
theorem Reach.clients {I : σ → Prop} (h : (system P S init).Reach C c)
    (hinit : ∀ c, init c → ∀ i, I (c.clients i))
    (hevent : ∀ s e s' out, I s → P.onEvent s e = some (s', out) → I s')
    (hanswer : ∀ s call a d s' out, I s → P.onAnswer s call a d = (s', out) → I s') :
    ∀ i, I (c.clients i) := by
  refine h.invariant (P := fun c : Config ι σ β ρ α => ∀ i, I (c.clients i)) hinit ?_
  intro c a c' _ hq _ hs
  refine step_keeps (Q := fun c : Config ι σ β ρ α => ∀ i, I (c.clients i)) hs ?_
    (fun _ _ _ _ _ _ _ _ => hq) ?_
  · intro i e s out _ he j
    exact Config.client_post (fun _ => hevent _ _ _ _ (hq i) he) fun _ => hq j
  · intro k d m r s out _ _ ha j
    exact Config.client_post (fun _ => hanswer _ _ _ _ _ _ (hq m.client) ha) fun _ => hq j

/-- **What a client has for its calls.** A relation between the state of a client and the calls it
has issued, which every handler keeps and which holds of what a handler issues, holds in every
reached state. -/
theorem Reach.related {R : σ → ρ → Prop} (h : (system P S init).Reach C c)
    (hinit : ∀ c, init c → InFlightIssued c ∧ ∀ m ∈ c.issued, R (c.clients m.client) m.call)
    (hevent : ∀ s e s' out, P.onEvent s e = some (s', out) →
      (∀ call, R s call → R s' call) ∧ ∀ call ∈ out, R s' call)
    (hanswer : ∀ s call a d s' out, R s call → P.onAnswer s call a d = (s', out) →
      (∀ call', R s call' → R s' call') ∧ ∀ call' ∈ out, R s' call') :
    ∀ m ∈ c.issued, R (c.clients m.client) m.call := by
  refine h.invariant (P := fun c => ∀ m ∈ c.issued, R (c.clients m.client) m.call)
    (fun c hc => (hinit c hc).2) ?_
  intro c a c' hr hq _ hs
  -- one client moves: its old calls keep the relation, and its new ones have it
  have hpost : ∀ {c : Config ι σ β ρ α} {i s out cause},
      (∀ m ∈ c.issued, R (c.clients m.client) m.call) →
      (∀ call, R (c.clients i) call → R s call) → (∀ call ∈ out, R s call) →
      ∀ m ∈ (c.post i s out cause).issued,
        R ((c.post i s out cause).clients m.client) m.call := by
    intro c i s out cause hq hkeeps hout m hm
    rcases mem_issued_post hm with hm | ⟨call, hc, rfl⟩
    · refine Config.client_post (p := (R · m.call)) ?_ fun _ => hq m hm
      exact fun hi => hkeeps _ (hi ▸ hq m hm)
    · rw [Config.post_clients_self]
      exact hout call hc
  refine step_keeps (Q := fun c => ∀ m ∈ c.issued, R (c.clients m.client) m.call) hs ?_
    (fun _ _ _ _ _ _ _ _ => hq) ?_
  · intro i e s out _ he
    obtain ⟨hkeeps, hout⟩ := hevent _ _ _ _ he
    exact hpost hq hkeeps hout
  · intro k d m r s out _ hk ha
    have hissued := (Reach.inFlightIssued hr fun c hc => (hinit c hc).1).2 _
      (List.mem_of_getElem? hk)
    obtain ⟨hkeeps, hout⟩ := hanswer _ _ _ _ _ _ (hq m hissued) ha
    exact hpost (c := c.taken k) hq hkeeps hout

/-! ### What the messages in flight carry

Some messages carry a token (a name a client was told is free). `carried f g` is the multiset of
the tokens in flight, `f` reading them off the calls and `g` off the answers. -/

section Carried

variable {κ : Type} (f : Message ι ρ α → Option κ) (g : Message ι ρ α × α → Option κ)

/-- The tokens of the messages in flight. -/
def Config.carried (c : Config ι σ β ρ α) : Multiset κ :=
  ↑(c.calls.filterMap f) + ↑(c.answers.filterMap g)

omit [DecidableEq ι] in
/-- Removing the `k`-th element of a list removes just the token it carries. -/
theorem coe_filterMap_eraseIdx {γ : Type} (f : γ → Option κ) {l : List γ} {k : Nat} {x : γ}
    (h : l[k]? = some x) :
    (↑(l.filterMap f) : Multiset κ) = ↑((l.eraseIdx k).filterMap f) + ↑(f x).toList := by
  obtain ⟨hk, rfl⟩ := List.getElem?_eq_some_iff.mp h
  have hp : (l.filterMap f).Perm ((l[k] :: l.eraseIdx k).filterMap f) :=
    (List.getElem_cons_eraseIdx_perm hk).symm.filterMap f
  rw [Multiset.coe_eq_coe.mpr hp, List.filterMap_cons, add_comm]
  cases f l[k] <;> rfl

theorem Config.carried_post (c : Config ι σ β ρ α) (i : ι) (s : σ) (out : List ρ)
    (cause : List (ρ × α)) :
    (c.post i s out cause).carried f g
      = c.carried f g + ↑((out.map (Message.mk i · cause)).filterMap f) := by
  simp only [Config.carried, Config.post_calls, Config.post_answers, List.filterMap_append,
    ← Multiset.coe_add]
  rw [add_right_comm]

omit [DecidableEq ι] in
theorem Config.carried_served (c : Config ι σ β ρ α) {k : Nat} {m : Message ι ρ α} (b : β) (a : α)
    (h : c.calls[k]? = some m) :
    (c.served k m b a).carried f g + ↑(f m).toList = c.carried f g + ↑(g (m, a)).toList := by
  simp only [Config.carried, Config.served_calls, Config.served_answers, List.filterMap_append,
    ← Multiset.coe_add]
  rw [coe_filterMap_eraseIdx f h]
  have hg : (↑(List.filterMap g [(m, a)]) : Multiset κ) = ↑(g (m, a)).toList := by
    rw [List.filterMap_cons]
    cases g (m, a) <;> rfl
  rw [hg]
  abel

omit [DecidableEq ι] in
theorem Config.carried_taken (c : Config ι σ β ρ α) {k : Nat} {p : Message ι ρ α × α}
    (h : c.answers[k]? = some p) :
    (c.taken k).carried f g + ↑(g p).toList = c.carried f g := by
  simp only [Config.carried, Config.taken_calls, Config.taken_answers]
  rw [coe_filterMap_eraseIdx g h, add_assoc]

/-- Handling an answer takes its token out and puts those of the new calls in. -/
theorem Config.carried_deliver (c : Config ι σ β ρ α) {k : Nat} {p : Message ι ρ α × α} (i : ι)
    (s : σ) (out : List ρ) (cause : List (ρ × α)) (h : c.answers[k]? = some p) :
    ((c.taken k).post i s out cause).carried f g + ↑(g p).toList
      = c.carried f g + ↑((out.map (Message.mk i · cause)).filterMap f) := by
  rw [Config.carried_post, add_right_comm, Config.carried_taken f g c h]

end Carried

end Async
