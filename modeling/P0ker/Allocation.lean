import P0ker.Writes

/-!
# Draw an id, ask for it, save under it

The NewGroup page and the NewGame page run the same loop: a query asks whether the drawn id is
taken; the answer either issues the writes, or draws again. `Allocates` says that a page runs this
loop, whatever its ids and its writes are.

`Attempt` follows one press of the button that is left alone: the query is out; or answered; or it
was rejected and the attempt has stopped; or its id was free and the writes are out.
-/

namespace P0ker

open Async

variable {ι σ ε δ κ : Type} [DecidableEq ι]

/-- The query finds a document. -/
def Found (db : Db) : Request → Prop
  | .whereEq coll name v => db.whereEq coll name v ≠ []
  | _ => False

instance (db : Db) : ∀ r, Decidable (Found db r)
  | .whereEq _ _ _ => by unfold Found; infer_instance
  | .get _ | .setData _ _ | .add _ _ | .currentUser | .signIn _ _ | .createUser _ _ => .isFalse id

/-- A page runs the loop: `ask` is the query about the id the page holds, `save` the writes of what
the page holds, and `Ready` what stays true of the page while it is left alone. -/
structure Allocates (P : Program σ ε δ (Call κ) Answer) (Ready : σ → Prop) (ask : σ → Call κ)
    (save : σ → List (Call κ)) : Prop where
  query : ∀ s, ∃ coll name v, (ask s).req = .whereEq coll name v
  free : ∀ s t d, Ready s → ∃ s', P.onAnswer s (ask t) (.documents []) d = (s', save s') ∧
    Ready s' ∧ ask s' = ask s
  taken : ∀ s t ds d, Ready s → ds ≠ [] →
    ∃ s', P.onAnswer s (ask t) (.documents ds) d = (s', [ask s']) ∧ Ready s'
  failed : ∀ s t e d, P.onAnswer s (ask t) (.failed e) d = (s, [])
  written : ∀ s t call a d, call ∈ save t → P.onAnswer s call a d = (s, [])
  apart : ∀ s, ∀ call ∈ save s, ∀ call' ∈ save s, ∀ p d d', call.req.Stores p d →
    call'.req.Stores p d' → call' = call

section Attempt

variable {P : Program σ ε δ (Call κ) Answer} {Ready : σ → Prop} {ask : σ → Call κ}
  {save : σ → List (Call κ)} {rej : Rejected ι κ}
  {c₀ c c' : Config ι σ (Backend ι) (Call κ) Answer} {i : ι} {first : Call κ}

/-- The queries of an attempt: those of `asked` found their ids taken, `m` is the latest one, and
asks about the id the page holds. -/
structure Asking (Ready : σ → Prop) (ask : σ → Call κ)
    (c₀ c : Config ι σ (Backend ι) (Call κ) Answer) (i : ι) (first : Call κ)
    (asked : List (Message ι (Call κ) Answer)) (m : Message ι (Call κ) Answer) : Prop where
  client : m.client = i
  call : m.call = ask (c.clients i)
  ready : Ready (c.clients i)
  found : ∀ q ∈ asked, ∃ s, q.call = ask s ∧ Found c₀.backend.db q.call.req
  first : ∃ rest, (asked ++ [m]).map (·.call) = first :: rest

/-- Where an attempt can be. -/
inductive Attempt (Ready : σ → Prop) (ask : σ → Call κ) (save : σ → List (Call κ))
    (rej : Rejected ι κ) (c₀ : Config ι σ (Backend ι) (Call κ) Answer) (i : ι) (first : Call κ)
    (c : Config ι σ (Backend ι) (Call κ) Answer) : Prop
  | asking (asked : List (Message ι (Call κ) Answer)) (m : Message ι (Call κ) Answer) :
      Asking Ready ask c₀ c i first asked m → since c₀ c = asked ++ [m] →
      c.backend.db = c₀.backend.db → c.calls = [m] → c.answers = [] →
      Attempt Ready ask save rej c₀ i first c
  | answered (asked : List (Message ι (Call κ) Answer)) (m : Message ι (Call κ) Answer)
      (a : Answer) : Asking Ready ask c₀ c i first asked m → since c₀ c = asked ++ [m] →
      c.backend.db = c₀.backend.db → c.calls = [] → c.answers = [(m, a)] →
      (rej m = true ∧ (∃ e, a = .failed e) ∨ rej m = false ∧
        ∃ coll name v, m.call.req = .whereEq coll name v ∧
          a = .documents (c₀.backend.db.whereEq coll name v)) →
      Attempt Ready ask save rej c₀ i first c
  | stopped (asked : List (Message ι (Call κ) Answer)) (m : Message ι (Call κ) Answer) :
      Asking Ready ask c₀ c i first asked m → since c₀ c = asked ++ [m] →
      rej m = true → c.Quiet → Attempt Ready ask save rej c₀ i first c
  | saving (asked : List (Message ι (Call κ) Answer)) (m : Message ι (Call κ) Answer)
      (cause : List (Call κ × Answer)) :
      Asking Ready ask c₀ c i first asked m →
      since c₀ c = (asked ++ [m]) ++ (save (c.clients i)).map (⟨i, ·, cause⟩) →
      rej m = false → ¬ Found c₀.backend.db m.call.req →
      (∀ w ∈ c.calls, w.client = i ∧ w.call ∈ save (c.clients i)) →
      (∀ p ∈ c.answers, p.1.client = i ∧ p.1.call ∈ save (c.clients i)) →
      Attempt Ready ask save rej c₀ i first c

/-- The query is evaluated. -/
theorem Attempt.served {asked : List (Message ι (Call κ) Answer)} {m : Message ι (Call κ) Answer}
    {o : Outcome} {b : Backend ι} {a : Answer} (hA : Allocates P Ready ask save)
    (h : Asking Ready ask c₀ c i first asked m) (hsince : since c₀ c = asked ++ [m])
    (hdb : c.backend.db = c₀.backend.db) (hcalls : c.calls = [m]) (hanswers : c.answers = [])
    (hrej : o.rejected = rej m)
    (hserve : c.backend.serve m.client m.call.req o = some (b, a)) :
    Attempt Ready ask save rej c₀ i first (c.served 0 m b a) := by
  obtain ⟨coll, name, v, hreq⟩ := hA.query (c.clients i)
  have hreq' : m.call.req = .whereEq coll name v := by rw [h.call, hreq]
  rw [hreq'] at hserve
  have hb : b = c.backend := (Backend.serve_whereEq hserve).1
  subst hb
  refine .answered asked m a ⟨h.client, h.call, h.ready, h.found, h.first⟩ hsince hdb ?_ ?_ ?_
  · exact Config.served_calls_of_lone hcalls
  · exact Config.served_answers_of_nil hanswers
  · cases o with
    | reject e =>
        obtain ⟨-, rfl⟩ := Prod.mk.inj (Option.some.inj hserve)
        exact Or.inl ⟨hrej.symm, e, rfl⟩
    | accept fresh =>
        obtain ⟨-, rfl⟩ := Prod.mk.inj (Option.some.inj hserve)
        exact Or.inr ⟨hrej.symm, coll, name, v, hreq', by rw [hdb]⟩

/-- The answer to the query is handled: the attempt stops, asks again, or saves. -/
theorem Attempt.handled {asked : List (Message ι (Call κ) Answer)} {m : Message ι (Call κ) Answer}
    {k : Nat} {a : Answer} {d : δ} (hA : Allocates P Ready ask save)
    (hg : c₀.issued.length ≤ c.issued.length)
    (h : Asking Ready ask c₀ c i first asked m) (hsince : since c₀ c = asked ++ [m])
    (hdb : c.backend.db = c₀.backend.db) (hcalls : c.calls = []) (hempty : (c.taken k).answers = [])
    (ha : rej m = true ∧ (∃ e, a = .failed e) ∨ rej m = false ∧
      ∃ coll name v, m.call.req = .whereEq coll name v ∧
        a = .documents (c₀.backend.db.whereEq coll name v)) :
    Attempt Ready ask save rej c₀ i first ((c.taken k).post m.client
      (P.onAnswer (c.clients m.client) m.call a d).1 (P.onAnswer (c.clients m.client) m.call a d).2
      ((m.call, a) :: m.cause)) := by
  have hclient := h.client
  subst hclient
  rcases ha with ⟨hrej, e, rfl⟩ | ⟨hrej, coll, name, v, hreq, rfl⟩
  · -- rejected: nothing is issued, and the page is as it was
    have hans : P.onAnswer (c.clients m.client) m.call (.failed e) d =
        (c.clients m.client, []) := by
      rw [h.call]
      exact hA.failed _ _ _ _
    rw [hans]
    refine .stopped asked m ⟨rfl, ?_, ?_, h.found, h.first⟩ ?_ hrej ⟨?_, hempty⟩
    · rw [Config.post_clients_self]
      exact h.call
    · rw [Config.post_clients_self]
      exact h.ready
    · rw [since_post (c := c.taken k) hg]
      exact (List.append_nil _).trans hsince
    · exact Config.post_calls_of_nil hcalls
  · by_cases hfree : c₀.backend.db.whereEq coll name v = []
    · -- free: the page saves what it holds
      obtain ⟨s', hans, hready, hask⟩ := hA.free (c.clients m.client) (c.clients m.client) d h.ready
      rw [← h.call] at hans
      rw [hfree, hans]
      refine .saving asked m ((m.call, .documents []) :: m.cause) ⟨rfl, ?_, ?_, h.found, h.first⟩
        ?_ hrej ?_ ?_ ?_
      · rw [Config.post_clients_self, hask]
        exact h.call
      · rw [Config.post_clients_self]
        exact hready
      · rw [since_post (c := c.taken k) hg, Config.post_clients_self, ← hsince]
        rfl
      · rw [hreq]
        exact fun hfound => hfound hfree
      · intro w hw
        rw [Config.post_calls_of_nil (c := c.taken k) hcalls] at hw
        obtain ⟨call, hc, rfl⟩ := List.mem_map.mp hw
        rw [Config.post_clients_self]
        exact ⟨rfl, hc⟩
      · intro p hp
        rw [Config.post_answers, hempty] at hp
        cases hp
    · -- taken: the page asks about another id
      obtain ⟨s', hans, hready⟩ := hA.taken (c.clients m.client)
        (c.clients m.client) _ d h.ready hfree
      rw [← h.call] at hans
      rw [hans]
      refine .asking (asked ++ [m]) ⟨m.client, ask s',
          (m.call, .documents (c₀.backend.db.whereEq coll name v)) :: m.cause⟩
        ⟨rfl, ?_, ?_, ?_, ?_⟩ ?_ hdb ?_ hempty
      · rw [Config.post_clients_self]
      · rw [Config.post_clients_self]
        exact hready
      · intro q hq
        rcases List.mem_append.mp hq with hq | hq
        · exact h.found q hq
        · obtain rfl := List.mem_singleton.mp hq
          refine ⟨_, h.call, ?_⟩
          rw [hreq]
          exact hfree
      · obtain ⟨rest, hrest⟩ := h.first
        rw [List.map_append, hrest]
        exact ⟨_, rfl⟩
      · rw [since_post (c := c.taken k) hg]
        exact congrArg (· ++ _) hsince
      · exact Config.post_calls_of_nil hcalls

/-- One step of an attempt that is left alone. -/
theorem Attempt.step {a : Action ι ε δ Outcome} (hA : Allocates P Ready ask save)
    (hg : c₀.issued.length ≤ c.issued.length) (h : Attempt Ready ask save rej c₀ i first c)
    (hC : Alone rej c a) (hs : Async.step P (firebase ι κ) c a = some c') :
    Attempt Ready ask save rej c₀ i first c' := by
  cases a with
  | event => exact hC.elim
  | serve k o =>
      obtain ⟨m', b, r, hk, hserve, rfl⟩ := step_serve hs
      have hrej := hC m' hk
      cases h with
      | asking asked m hask hsince hdb hcalls hanswers =>
          rw [hcalls] at hk
          obtain ⟨rfl, rfl⟩ := eq_of_getElem?_singleton hk
          exact Attempt.served hA hask hsince hdb hcalls hanswers hrej hserve
      | answered asked m a hask hsince hdb hcalls =>
          rw [hcalls] at hk
          cases hk
      | stopped asked m hask hsince hrej hq =>
          rw [hq.1] at hk
          cases hk
      | saving asked m cause hask hsince hacc hfree hcalls hanswers =>
          refine .saving asked m cause ⟨hask.client, hask.call, hask.ready, hask.found, hask.first⟩
            hsince hacc hfree ?_ ?_
          · exact fun w hw => hcalls w (List.mem_of_mem_eraseIdx hw)
          · intro p hp
            rcases mem_answers_served hp with hp | rfl
            · exact hanswers p hp
            · exact hcalls m' (List.mem_of_getElem? hk)
  | deliver k d =>
      obtain ⟨m', r, s, out, hk, hans, rfl⟩ := step_deliver (S := firebase ι κ) hs
      cases h with
      | asking asked m hask hsince hdb hcalls hanswers =>
          rw [hanswers] at hk
          cases hk
      | answered asked m a hask hsince hdb hcalls hanswers ha =>
          obtain ⟨heq, hempty⟩ := Config.taken_of_lone hanswers hk
          obtain ⟨rfl, rfl⟩ := Prod.mk.inj heq
          have hh := Attempt.handled (d := d) hA hg hask hsince hdb hcalls hempty ha
          rw [hans] at hh
          exact hh
      | stopped asked m hask hsince hrej hq =>
          rw [hq.2] at hk
          cases hk
      | saving asked m cause hask hsince hacc hfree hcalls hanswers =>
          -- no code runs on the answer to a write
          obtain ⟨hi, hw⟩ := hanswers (m', r) (List.mem_of_getElem? hk)
          have hnone := hA.written (c.clients m'.client) (c.clients i) m'.call r d hw
          rw [hnone] at hans
          obtain ⟨rfl, rfl⟩ := Prod.mk.inj hans
          have hsame : ((c.taken k).post m'.client (c.clients m'.client) []
              ((m'.call, r) :: m'.cause)).clients i = c.clients i := by
            rw [hi, Config.post_clients_self]
          refine .saving asked m cause ⟨hask.client, hask.call.trans (by rw [hsame]),
            hsame ▸ hask.ready, hask.found, hask.first⟩ ?_ hacc hfree ?_ ?_
          · rw [hsame, since_post (c := c.taken k) hg]
            exact (List.append_nil _).trans hsince
          · intro w hw
            rw [hsame]
            rcases mem_calls_post hw with hw | ⟨call, hc, -⟩
            · exact hcalls w hw
            · cases hc
          · intro p hp
            rw [hsame]
            exact hanswers p (List.mem_of_mem_eraseIdx hp)

/-- A button is pressed when nothing is in flight, and left alone until nothing is in flight. -/
structure Pressed (M : Machine (Config ι σ (Backend ι) (Call κ) Answer) (Action ι ε δ Outcome))
    (rej : Rejected ι κ) (i : ι) (e : ε) (c₀ c₁ c : Config ι σ (Backend ι) (Call κ) Answer) :
    Prop where
  quiet : c₀.Quiet
  press : M.step c₀ (.event i e) = some c₁
  run : M.Steps (Alone rej) c₁ c
  done : c.Quiet

omit [DecidableEq ι] in
theorem Asking.stores_nothing {asked : List (Message ι (Call κ) Answer)}
    {m : Message ι (Call κ) Answer} (hA : Allocates P Ready ask save)
    (h : Asking Ready ask c₀ c i first asked m) :
    ∀ q ∈ asked ++ [m], ∀ p d, ¬ q.call.req.Stores p d := by
  intro q hq p d hd
  -- all of them are queries
  have hquery : ∃ s, q.call = ask s := by
    rcases List.mem_append.mp hq with hq | hq
    · obtain ⟨s, hs, -⟩ := h.found q hq
      exact ⟨s, hs⟩
    · rw [List.mem_singleton.mp hq]
      exact ⟨_, h.call⟩
  obtain ⟨s, hs⟩ := hquery
  obtain ⟨coll, name, v, hreq⟩ := hA.query s
  rw [hs, hreq] at hd
  exact hd

/-- The press starts an attempt. -/
theorem Attempt.of_press {init : Config ι σ (Backend ι) (Call κ) Answer → Prop} {e : ε} {s₁ : σ}
    {c₁ : Config ι σ (Backend ι) (Call κ) Answer} (hq : c₀.Quiet)
    (hpress : (system P (firebase ι κ) init).step c₀ (.event i e) = some c₁)
    (he : P.onEvent (c₀.clients i) e = some (s₁, [ask s₁])) (hready : Ready s₁) :
    Attempt Ready ask save rej c₀ i (ask s₁) c₁ ∧ Progress rej c₀ c₁ := by
  obtain ⟨s, out, he', rfl⟩ := step_event (S := firebase ι κ) hpress
  rw [he] at he'
  obtain ⟨rfl, rfl⟩ := Prod.mk.inj (Option.some.inj he')
  refine ⟨?_, (Progress.start hq).post⟩
  refine .asking [] ⟨i, ask s₁, []⟩ ⟨rfl, ?_, ?_, List.forall_mem_nil _, ⟨[], rfl⟩⟩ ?_ rfl ?_ hq.2
  · rw [Config.post_clients_self]
  · rw [Config.post_clients_self]
    exact hready
  · simp [since]
  · exact Config.post_calls_of_nil hq.1

/-- An attempt that is left alone goes on. -/
theorem Attempt.steps {init : Config ι σ (Backend ι) (Call κ) Answer → Prop}
    {C : Config ι σ (Backend ι) (Call κ) Answer → Action ι ε δ Outcome → Prop}
    {c₁ : Config ι σ (Backend ι) (Call κ) Answer} (hA : Allocates P Ready ask save)
    (h : Attempt Ready ask save rej c₀ i first c₁ ∧ Progress rej c₀ c₁)
    (hrun : (system P (firebase ι κ) init).Steps C c₁ c) (hC : ∀ c a, C c a → Alone rej c a) :
    Attempt Ready ask save rej c₀ i first c ∧ Progress rej c₀ c :=
  hrun.preserves (P := fun c => Attempt Ready ask save rej c₀ i first c ∧ Progress rej c₀ c) h
    fun c a _ h hc hstep => ⟨h.1.step hA h.2.grown.length_le (hC c a hc) hstep,
      h.2.step (hC c a hc).chosen hstep⟩

/-- **What a press comes to.** Once nothing is in flight, a query was rejected and the store is as
it was; or the writes of the last id that was asked about, which no query found taken, have been
issued, and the accepted ones have had their effects. -/
theorem Pressed.outcome {init : Config ι σ (Backend ι) (Call κ) Answer → Prop} {e : ε} {s₁ : σ}
    {c₁ : Config ι σ (Backend ι) (Call κ) Answer} (hA : Allocates P Ready ask save)
    (h : Pressed (system P (firebase ι κ) init) rej i e c₀ c₁ c)
    (he : P.onEvent (c₀.clients i) e = some (s₁, [ask s₁])) (hready : Ready s₁) :
    (∃ asked m, Asking Ready ask c₀ c i (ask s₁) asked m ∧ since c₀ c = asked ++ [m] ∧
      rej m = true ∧ ∀ p, DocStore.get c.backend.db p = DocStore.get c₀.backend.db p) ∨
    ∃ asked m cause, Asking Ready ask c₀ c i (ask s₁) asked m ∧
      since c₀ c = (asked ++ [m]) ++ (save (c.clients i)).map (⟨i, ·, cause⟩) ∧
      rej m = false ∧ ¬ Found c₀.backend.db m.call.req ∧
      Effects rej ((save (c.clients i)).map (⟨i, ·, cause⟩)) c₀.backend.db c.backend.db := by
  obtain ⟨hattempt, hp⟩ := Attempt.steps hA (Attempt.of_press h.quiet h.press he hready) h.run
    fun _ _ hC => hC
  have hq := h.done
  cases hattempt with
  | asking asked m hask hsince hdb hcalls =>
      rw [hq.1] at hcalls
      cases hcalls
  | answered asked m a hask hsince hdb hcalls hanswers =>
      rw [hq.2] at hanswers
      cases hanswers
  | stopped asked m hask hsince hrej =>
      refine Or.inl ⟨asked, m, hask, hsince, hrej, fun p => hp.get_untouched ?_⟩
      intro q hq' d
      exact hask.stores_nothing hA q (hsince ▸ hq') p d
  | saving asked m cause hask hsince hacc hfree =>
      refine Or.inr ⟨asked, m, cause, hask, hsince, hacc, hfree, ?_⟩
      refine hp.effects hq hsince (hask.stores_nothing hA) ?_
      intro w hw w' hw' p d d' hd hd'
      obtain ⟨call, hc, rfl⟩ := List.mem_map.mp hw
      obtain ⟨call', hc', rfl⟩ := List.mem_map.mp hw'
      rw [hA.apart _ call hc call' hc' p d d' hd hd']

end Attempt

end P0ker
