import P0ker.Firebase

/-!
# What becomes of the writes of a run

Pages issue their writes and do not wait for them; each is evaluated at some later moment, in any
order, and may be rejected. `rej` chooses which calls of a run are rejected.

`Progress` follows the documents of a run from a moment `c₀` at which nothing was in flight: every
document is as it was in `c₀` or as an accepted call issued since has left it; and every write
issued since is still outstanding, or rejected, or its path has been written. When nothing is in
flight and no two calls store at one path, that says exactly what the store holds
(`Progress.get_stored`, `Progress.get_untouched`).
-/

namespace P0ker

open Async

variable {ι σ ε δ κ : Type} [DecidableEq ι]

/-- The request stores the document `d` at the path `p` when it is accepted. -/
def Request.Stores : Request → Path → Doc → Prop
  | .setData doc data, p, d => p = doc ∧ d = data
  | .add coll data, p, d => (∃ id, p = coll ++ [id]) ∧ d = data
  | _, _, _ => False

def Outcome.rejected : Outcome → Bool
  | .accept _ => false
  | .reject _ => true

/-- One evaluation leaves the document at a path alone, or stores the request's own. -/
theorem Backend.serve_stores {b b' : Backend ι} {i : ι} {r : Request} {o : Outcome} {a : Answer}
    (h : b.serve i r o = some (b', a)) (p : Path) :
    DocStore.get b'.db p = DocStore.get b.db p ∨
      (o.rejected = false ∧ ∃ d, r.Stores p d ∧ DocStore.get b'.db p = some d) := by
  cases o with
  | reject e =>
      obtain ⟨rfl, -⟩ := Prod.mk.inj (Option.some.inj h)
      exact Or.inl rfl
  | accept fresh =>
      cases Backend.served_of_serve h with
      | rejected | found | got | user | signedIn | created => exact Or.inl rfl
      | wrote doc data =>
          by_cases hp : p = doc
          · subst hp
            exact Or.inr ⟨rfl, data, ⟨rfl, rfl⟩, DocStore.get_setData _ _ _⟩
          · exact Or.inl (DocStore.get_setData_ne _ _ hp)
      | added coll data id hnone =>
          by_cases hp : p = coll ++ [id]
          · subst hp
            exact Or.inr ⟨rfl, data, ⟨⟨id, rfl⟩, rfl⟩, DocStore.get_setData _ _ _⟩
          · exact Or.inl (DocStore.get_setData_ne _ _ hp)

/-- An accepted `setData` has stored its document. -/
theorem Backend.serve_accepted {b b' : Backend ι} {i : ι} {doc : Path} {data : Doc} {fresh : String}
    {a : Answer} (h : b.serve i (.setData doc data) (.accept fresh) = some (b', a)) :
    DocStore.get b'.db doc = some data := by
  obtain ⟨rfl, -⟩ := Prod.mk.inj (Option.some.inj h)
  exact DocStore.get_setData _ _ _

theorem Backend.serve_add {b b' : Backend ι} {i : ι} {coll : Path} {data : Doc} {o : Outcome}
    {a : Answer} (h : b.serve i (.add coll data) o = some (b', a)) :
    (o.rejected = true ∧ b' = b) ∨ (o.rejected = false ∧
      ∃ id, DocStore.get b.db (coll ++ [id]) = none ∧
        DocStore.get b'.db (coll ++ [id]) = some data) := by
  cases o with
  | reject e =>
      obtain ⟨rfl, -⟩ := Prod.mk.inj (Option.some.inj h)
      exact Or.inl ⟨rfl, rfl⟩
  | accept id =>
      simp only [Backend.serve] at h
      split at h
      · next hnone =>
          obtain ⟨rfl, -⟩ := Prod.mk.inj (Option.some.inj h)
          exact Or.inr ⟨rfl, id, hnone, DocStore.get_setData _ _ _⟩
      · cases h

/-- Only `setData` replaces a document. -/
theorem Backend.serve_kept {b b' : Backend ι} {i : ι} {r : Request} {o : Outcome} {a : Answer}
    (h : b.serve i r o = some (b', a)) (hr : ∀ doc data, r ≠ .setData doc data) {p : Path} {d : Doc}
    (hd : DocStore.get b.db p = some d) : DocStore.get b'.db p = some d := by
  cases Backend.served_of_serve h with
  | rejected | found | got | user | signedIn | created => exact hd
  | wrote doc data => exact absurd rfl (hr doc data)
  | added coll data id hnone =>
      have hne : p ≠ coll ++ [id] := by
        rintro rfl
        rw [hnone] at hd
        cases hd
      exact (DocStore.get_setData_ne _ _ hne).trans hd

/-! ## Every document has been stored by a call -/

section Documents

variable {P : Program σ ε δ (Call κ) Answer} {c : Config ι σ (Backend ι) (Call κ) Answer}
  {init : Config ι σ (Backend ι) (Call κ) Answer → Prop}
  {C : Config ι σ (Backend ι) (Call κ) Answer → Action ι ε δ Outcome → Prop}

/-- **What is stored.** What holds of the documents there are at the start, and of every document an
issued call stores, holds of every document in every reached state. -/
theorem Reach.documents {K : Path → Doc → Prop} (h : (system P (firebase ι κ) init).Reach C c)
    (hinit : ∀ c, init c → InFlightIssued c ∧
      ∀ p d, DocStore.get c.backend.db p = some d → K p d)
    (hissued : ∀ c, (system P (firebase ι κ) init).Reach C c → ∀ m ∈ c.issued, ∀ p d,
      m.call.req.Stores p d → K p d) :
    ∀ p d, DocStore.get c.backend.db p = some d → K p d := by
  refine h.invariant (P := fun c => ∀ p d, DocStore.get c.backend.db p = some d → K p d)
    (fun c hc => (hinit c hc).2) ?_
  intro c a c' hr hq _ hs
  refine step_keeps (Q := fun c => ∀ p d, DocStore.get c.backend.db p = some d → K p d) hs
    (fun _ _ _ _ _ _ => hq) ?_ (fun _ _ _ _ _ _ _ _ _ => hq)
  intro k o m b r _ hk hserve p d hget
  rcases Backend.serve_stores hserve p with hsame | ⟨-, d', hd', hget'⟩
  · rw [Config.served_backend, hsame] at hget
    exact hq p d hget
  · rw [Config.served_backend, hget'] at hget
    -- what is stored now was written by a call
    obtain rfl := Option.some.inj hget
    have hinfl := Async.Reach.inFlightIssued hr fun c hc => (hinit c hc).1
    exact hissued c hr m (hinfl.1 m (List.mem_of_getElem? hk)) p d' hd'

/-- Every document that the answer to a request shows is as `K` says. -/
def Answer.Shows (K : Path → Doc → Prop) : Request → Answer → Prop
  | .get doc, .snapshot (some d) => K doc d
  | .whereEq coll _ _, .documents ds => ∀ e ∈ ds, K (coll ++ [e.1]) e.2
  | _, _ => True

/-- An evaluation shows what is stored. -/
theorem Backend.serve_shows {K : Path → Doc → Prop} {b b' : Backend ι} {i : ι} {r : Request}
    {o : Outcome} {a : Answer} (h : b.serve i r o = some (b', a))
    (hdb : ∀ p d, DocStore.get b.db p = some d → K p d) : a.Shows K r := by
  cases Backend.served_of_serve h with
  | rejected => cases r <;> trivial
  | wrote | added | user | signedIn | created => trivial
  | found coll name v =>
      rintro ⟨id, d⟩ hmem
      exact hdb _ _ (Db.mem_whereEq.mp hmem).1
  | got doc =>
      cases hd : DocStore.get b.db doc with
      | none => trivial
      | some d => exact hdb doc d hd

/-- Every document is as `K` says, wherever it is: stored, in an answer, or in a write. -/
structure Keeps (K : Path → Doc → Prop) (c : Config ι σ (Backend ι) (Call κ) Answer) : Prop where
  stored : ∀ p d, DocStore.get c.backend.db p = some d → K p d
  shown : ∀ q ∈ c.answers, q.2.Shows K q.1.call.req
  written : ∀ m ∈ c.issued, ∀ p d, m.call.req.Stores p d → K p d

theorem Keeps.post {K : Path → Doc → Prop} {i : ι} {s : σ} {out : List (Call κ)}
    {cause : List (Call κ × Answer)} (h : Keeps K c)
    (hout : ∀ call ∈ out, ∀ p d, call.req.Stores p d → K p d) :
    Keeps K (c.post i s out cause) := by
  refine ⟨h.stored, h.shown, ?_⟩
  intro m hm
  rcases mem_issued_post hm with hm | ⟨call, hc, rfl⟩
  · exact h.written m hm
  · exact hout call hc

/-- **The schema rule.** A handler that has been shown only documents that are as `K` says, and then
writes only such documents, keeps the whole store so. -/
theorem Reach.keeps {K : Path → Doc → Prop} (h : (system P (firebase ι κ) init).Reach C c)
    (hinit : ∀ c, init c → InFlightIssued c ∧ Keeps K c)
    (hevent : ∀ c i e s out, (system P (firebase ι κ) init).Reach C c →
      P.onEvent (c.clients i) e = some (s, out) → ∀ call ∈ out, ∀ p d, call.req.Stores p d → K p d)
    (hanswer : ∀ c m a r s out, (system P (firebase ι κ) init).Reach C c → m ∈ c.issued →
      a.Shows K m.call.req → P.onAnswer (c.clients m.client) m.call a r = (s, out) →
      ∀ call ∈ out, ∀ p d, call.req.Stores p d → K p d) : Keeps K c := by
  refine h.invariant (fun c hc => (hinit c hc).2) ?_
  intro c a c' hr hq _ hs
  have hinfl := Async.Reach.inFlightIssued hr fun c hc => (hinit c hc).1
  refine step_keeps (Q := Keeps K) hs ?_ ?_ ?_
  · intro i e s out _ he
    exact hq.post (hevent c i e s out hr he)
  · intro k o m b r _ hk hserve
    refine ⟨?_, ?_, hq.written⟩
    · intro p d hget
      rcases Backend.serve_stores hserve p with hsame | ⟨-, d', hd', hget'⟩
      · rw [Config.served_backend, hsame] at hget
        exact hq.stored p d hget
      · rw [Config.served_backend, hget'] at hget
        obtain rfl := Option.some.inj hget
        exact hq.written m (hinfl.1 m (List.mem_of_getElem? hk)) p d' hd'
    · intro q hmem
      rcases mem_answers_served hmem with hmem | rfl
      · exact hq.shown q hmem
      · exact Backend.serve_shows hserve hq.stored
  · intro k d m r s out _ hk ha
    have hmem := List.mem_of_getElem? hk
    have htaken : Keeps K (c.taken k) :=
      ⟨hq.stored, fun q hmem => hq.shown q (List.mem_of_mem_eraseIdx hmem), hq.written⟩
    exact htaken.post (hanswer c m r d s out hr (hinfl.2 _ hmem) (hq.shown _ hmem) ha)

end Documents

/-! ## Runs -/

/-- Which calls of a run are rejected. -/
abbrev Rejected (ι κ : Type) := Message ι (Call κ) Answer → Bool

variable {rej : Rejected ι κ}

/-- The service follows the choice. -/
def Chosen (rej : Rejected ι κ) (c : Config ι σ (Backend ι) (Call κ) Answer) :
    Action ι ε δ Outcome → Prop
  | .serve k o => ∀ m ∈ c.calls[k]?, o.rejected = rej m
  | _ => True

/-- The service follows the choice, and no event is raised. -/
def Alone (rej : Rejected ι κ) (c : Config ι σ (Backend ι) (Call κ) Answer) :
    Action ι ε δ Outcome → Prop
  | .event _ _ => False
  | .serve k o => ∀ m ∈ c.calls[k]?, o.rejected = rej m
  | .deliver _ _ => True

instance (c : Config ι σ (Backend ι) (Call κ) Answer) :
    ∀ a : Action ι ε δ Outcome, Decidable (Chosen rej c a)
  | .event _ _ => .isTrue trivial
  | .serve _ _ => by unfold Chosen; infer_instance
  | .deliver _ _ => .isTrue trivial

instance (c : Config ι σ (Backend ι) (Call κ) Answer) :
    ∀ a : Action ι ε δ Outcome, Decidable (Alone rej c a)
  | .event _ _ => .isFalse id
  | .serve _ _ => by unfold Alone; infer_instance
  | .deliver _ _ => .isTrue trivial

omit [DecidableEq ι] in
theorem Alone.chosen {c : Config ι σ (Backend ι) (Call κ) Answer} {a : Action ι ε δ Outcome}
    (h : Alone rej c a) : Chosen rej c a := by
  cases a with
  | event => exact h.elim
  | serve => exact h
  | deliver => exact h

/-- The calls issued since `c₀`. -/
def since (c₀ c : Config ι σ (Backend ι) (Call κ) Answer) : List (Message ι (Call κ) Answer) :=
  c.issued.drop c₀.issued.length

section Progress

variable {c₀ c c' : Config ι σ (Backend ι) (Call κ) Answer} {P : Program σ ε δ (Call κ) Answer}
  {init : Config ι σ (Backend ι) (Call κ) Answer → Prop}
  {C : Config ι σ (Backend ι) (Call κ) Answer → Action ι ε δ Outcome → Prop}

structure Progress (rej : Rejected ι κ) (c₀ c : Config ι σ (Backend ι) (Call κ) Answer) : Prop where
  grown : c₀.issued <+: c.issued
  flight : ∀ m ∈ c.calls, m ∈ since c₀ c
  origin : ∀ p, DocStore.get c.backend.db p = DocStore.get c₀.backend.db p ∨
    ∃ m ∈ since c₀ c, rej m = false ∧
      ∃ d, m.call.req.Stores p d ∧ DocStore.get c.backend.db p = some d
  lands : ∀ m ∈ since c₀ c, ∀ p d, m.call.req = .setData p d → m ∈ c.calls ∨ rej m = true ∨
    ∃ m' ∈ since c₀ c, rej m' = false ∧
      ∃ d', m'.call.req.Stores p d' ∧ DocStore.get c.backend.db p = some d'

omit [DecidableEq ι] in
theorem Progress.start (hq : c₀.Quiet) : Progress rej c₀ c₀ := by
  refine ⟨List.prefix_refl _, ?_, fun p => Or.inl rfl, ?_⟩
  · rw [hq.1]
    nofun
  · simp [since]

theorem since_post {i : ι} {s : σ} {out : List (Call κ)} {cause : List (Call κ × Answer)}
    (hg : c₀.issued.length ≤ c.issued.length) :
    since c₀ (c.post i s out cause) = since c₀ c ++ out.map (⟨i, ·, cause⟩) := by
  simp only [since, Config.post_issued]
  exact List.drop_append_of_le_length hg

theorem mem_since_post {i : ι} {s : σ} {out : List (Call κ)} {cause : List (Call κ × Answer)}
    {m : Message ι (Call κ) Answer} (hg : c₀.issued <+: c.issued) :
    m ∈ since c₀ (c.post i s out cause) ↔
      m ∈ since c₀ c ∨ ∃ call ∈ out, m = ⟨i, call, cause⟩ := by
  rw [since_post hg.length_le, List.mem_append, List.mem_map]
  simp only [eq_comm]

/-- A handler runs: what it issues is outstanding. -/
theorem Progress.post {i : ι} {s : σ} {out : List (Call κ)} {cause : List (Call κ × Answer)}
    (h : Progress rej c₀ c) : Progress rej c₀ (c.post i s out cause) := by
  have hmem := @mem_since_post ι σ κ _ c₀ c i s out cause
  have hold : ∀ {m}, m ∈ since c₀ c → m ∈ since c₀ (c.post i s out cause) :=
    fun hm => (hmem h.grown).mpr (Or.inl hm)
  refine ⟨h.grown.trans (List.prefix_append _ _), ?_, ?_, ?_⟩
  · intro m hm
    rcases mem_calls_post hm with hm | hnew
    · exact hold (h.flight m hm)
    · exact (hmem h.grown).mpr (Or.inr hnew)
  · intro p
    refine (h.origin p).imp_right ?_
    rintro ⟨m, hm, hrest⟩
    exact ⟨m, hold hm, hrest⟩
  · intro m hm p d hreq
    rw [Config.post_calls, List.mem_append]
    rcases (hmem h.grown).mp hm with hm | ⟨call, hc, rfl⟩
    · rcases h.lands m hm p d hreq with hcalls | hrej | ⟨m', hm', hrest⟩
      · exact Or.inl (Or.inl hcalls)
      · exact Or.inr (Or.inl hrej)
      · exact Or.inr (Or.inr ⟨m', hold hm', hrest⟩)
    · exact Or.inl (Or.inr (List.mem_map.mpr ⟨call, hc, rfl⟩))

/-- A call is evaluated: it is rejected, or what it stores is there. -/
theorem Progress.served {k : Nat} {o : Outcome} {m : Message ι (Call κ) Answer} {b : Backend ι}
    {a : Answer} (h : Progress rej c₀ c) (hC : o.rejected = rej m) (hk : c.calls[k]? = some m)
    (hserve : c.backend.serve m.client m.call.req o = some (b, a)) :
    Progress rej c₀ (c.served k m b a) := by
  have hm : m ∈ since c₀ c := h.flight m (List.mem_of_getElem? hk)
  have hstores := Backend.serve_stores hserve
  refine ⟨h.grown, fun m' hm' => h.flight m' (List.mem_of_mem_eraseIdx hm'), ?_, ?_⟩
  · intro p
    rcases hstores p with hsame | ⟨hacc, hd⟩
    · rw [Config.served_backend, hsame]
      exact h.origin p
    · exact Or.inr ⟨m, hm, hC.symm.trans hacc, hd⟩
  · intro m' hm' p d hreq
    -- a path once written stays written by a call of this run
    have hkeep : (∃ m'' ∈ since c₀ c, rej m'' = false ∧ ∃ d', m''.call.req.Stores p d' ∧
        DocStore.get c.backend.db p = some d') → ∃ m'' ∈ since c₀ (c.served k m b a),
        rej m'' = false ∧ ∃ d', m''.call.req.Stores p d' ∧ DocStore.get b.db p = some d' := by
      intro hwritten
      rcases hstores p with hsame | ⟨hacc, hd⟩
      · rw [hsame]
        exact hwritten
      · exact ⟨m, hm, hC.symm.trans hacc, hd⟩
    rcases h.lands m' hm' p d hreq with hcalls | hrej | hwritten
    · rcases mem_eraseIdx_or hk hcalls with rfl | hcalls
      · cases o with
        | reject e => exact Or.inr (Or.inl hC.symm)
        | accept fresh =>
            rw [hreq] at hserve
            refine Or.inr (Or.inr ⟨m', hm', hC.symm, d, ?_, Backend.serve_accepted hserve⟩)
            rw [hreq]
            exact ⟨rfl, rfl⟩
      · exact Or.inl hcalls
    · exact Or.inr (Or.inl hrej)
    · exact Or.inr (Or.inr (hkeep hwritten))

theorem Progress.step {a : Action ι ε δ Outcome} (h : Progress rej c₀ c) (hC : Chosen rej c a)
    (hs : Async.step P (firebase ι κ) c a = some c') : Progress rej c₀ c' := by
  refine step_keeps (Q := Progress rej c₀) hs (fun _ _ _ _ _ _ => h.post) ?_ ?_
  · intro k o m b r hact hk hserve
    subst hact
    exact h.served (hC m hk) hk hserve
  · intro k d m r s out _ _ _
    have htaken : Progress rej c₀ (c.taken k) := ⟨h.grown, h.flight, h.origin, h.lands⟩
    exact htaken.post

/-- Every run from a quiet moment makes progress. -/
theorem Progress.of_steps (hq : c₀.Quiet) (hC : ∀ c a, C c a → Chosen rej c a)
    (hs : (system P (firebase ι κ) init).Steps C c₀ c) : Progress rej c₀ c :=
  hs.preserves (P := Progress rej c₀) (Progress.start hq) fun c a _ h hc hstep =>
    h.step (hC c a hc) hstep

/-! ### Runs whose writes are all accepted -/

/-- No write is rejected. -/
def WritesAccepted (c : Config ι σ (Backend ι) (Call κ) Answer) : Action ι ε δ Outcome → Prop
  | .serve k o => ∀ m ∈ c.calls[k]?, m.call.req.Writes → o.rejected = false
  | _ => True

instance (c : Config ι σ (Backend ι) (Call κ) Answer) :
    ∀ a : Action ι ε δ Outcome, Decidable (WritesAccepted c a)
  | .event _ _ | .deliver _ _ => .isTrue trivial
  | .serve _ _ => by unfold WritesAccepted; infer_instance

/-- No write is rejected, and each client's writes are evaluated in the order it issued them. -/
def InOrder (c : Config ι σ (Backend ι) (Call κ) Answer) : Action ι ε δ Outcome → Prop
  | .serve k o => ∀ m ∈ c.calls[k]?, m.call.req.Writes → o.rejected = false ∧
      ¬ Preceded (fun m' => m'.client = m.client ∧ m'.call.req.Writes) k c.calls
  | _ => True

omit [DecidableEq ι] in
theorem Request.Stores.writes {r : Request} {p : Path} {d : Doc} (h : r.Stores p d) : r.Writes := by
  cases r with
  | setData | add => trivial
  | whereEq | get | currentUser | signIn | createUser => exact h

/-- Evaluating anything but a write changes nothing that progress is about. -/
theorem Progress.served_read {k : Nat} {o : Outcome} {m : Message ι (Call κ) Answer}
    {b : Backend ι} {a : Answer} (h : Progress rej c₀ c) (hr : ¬ m.call.req.Writes)
    (hk : c.calls[k]? = some m)
    (hserve : c.backend.serve m.client m.call.req o = some (b, a)) :
    Progress rej c₀ (c.served k m b a) := by
  have hdb : b.db = c.backend.db := Backend.serve_db hr hserve
  refine ⟨h.grown, fun m' hm' => h.flight m' (List.mem_of_mem_eraseIdx hm'), ?_, ?_⟩
  · intro p
    rw [Config.served_backend, hdb]
    exact h.origin p
  · intro m' hm' p d hreq
    rw [Config.served_backend, hdb]
    refine (h.lands m' hm' p d hreq).imp_left fun hcalls => ?_
    refine (mem_eraseIdx_or hk hcalls).resolve_left ?_
    rintro rfl
    rw [hreq] at hr
    exact hr trivial

theorem Progress.of_accepted_steps (hq : c₀.Quiet)
    (hs : (system P (firebase ι κ) init).Steps WritesAccepted c₀ c) :
    Progress (fun _ => false) c₀ c := by
  refine hs.preserves (P := Progress (fun _ => false) c₀) (Progress.start hq) ?_
  intro c a c' h hC hstep
  refine step_keeps (Q := Progress (fun _ => false) c₀) hstep (fun _ _ _ _ _ _ => h.post) ?_ ?_
  · intro k o m b r hact hk hserve
    subst hact
    by_cases hw : m.call.req.Writes
    · exact h.served (hC m hk hw) hk hserve
    · exact h.served_read hw hk hserve
  · intro k d m r s out _ _ _
    have htaken : Progress (fun _ => false) c₀ (c.taken k) :=
      ⟨h.grown, h.flight, h.origin, h.lands⟩
    exact htaken.post

/-- Every write has been evaluated. -/
def AllApplied (c : Config ι σ (Backend ι) (Call κ) Answer) : Prop :=
  ∀ m ∈ c.calls, ¬ m.call.req.Writes

instance (c : Config ι σ (Backend ι) (Call κ) Answer) : Decidable (AllApplied c) := by
  unfold AllApplied
  infer_instance

omit [DecidableEq ι] in
/-- A path at which all writes of the run put the same document holds it. -/
theorem Progress.get_applied {m : Message ι (Call κ) Answer} {p : Path} {d : Doc}
    (h : Progress (fun _ => false) c₀ c) (hq : AllApplied c) (hm : m ∈ since c₀ c)
    (hreq : m.call.req = .setData p d)
    (honly : ∀ m' ∈ since c₀ c, ∀ d', m'.call.req.Stores p d' → d' = d) :
    DocStore.get c.backend.db p = some d := by
  rcases h.lands m hm p d hreq with hcalls | hrej | ⟨m', hm', -, d', hd', hget⟩
  · exact absurd (by rw [hreq]; trivial) (hq m hcalls)
  · cases hrej
  · rw [hget, honly m' hm' d' hd']

/-! ## The store once nothing is in flight -/

omit [DecidableEq ι] in
/-- A path that no call of the run stores at keeps its document. -/
theorem Progress.get_untouched (h : Progress rej c₀ c) {p : Path}
    (hp : ∀ m ∈ since c₀ c, ∀ d, ¬ m.call.req.Stores p d) :
    DocStore.get c.backend.db p = DocStore.get c₀.backend.db p := by
  rcases h.origin p with hsame | ⟨m, hm, -, d, hd, -⟩
  · exact hsame
  · exact absurd hd (hp m hm d)

omit [DecidableEq ι] in
/-- The path of a write, when no other call of the run stores there, holds the written document,
or, if the write was rejected, what it held before. -/
theorem Progress.get_stored (h : Progress rej c₀ c) (hq : c.Quiet)
    {m : Message ι (Call κ) Answer} {p : Path} {d : Doc} (hm : m ∈ since c₀ c)
    (hreq : m.call.req = .setData p d)
    (honly : ∀ m' ∈ since c₀ c, ∀ d', m'.call.req.Stores p d' → m' = m) :
    DocStore.get c.backend.db p = if rej m then DocStore.get c₀.backend.db p else some d := by
  cases hrej : rej m with
  | true =>
      rcases h.origin p with hsame | ⟨m', hm', hacc, d', hd', -⟩
      · exact hsame
      · rw [honly m' hm' d' hd', hrej] at hacc
        cases hacc
  | false =>
      rcases h.lands m hm p d hreq with hcalls | hrej' | ⟨m', hm', -, d', hd', hget⟩
      · rw [hq.1] at hcalls
        cases hcalls
      · rw [hrej] at hrej'
        cases hrej'
      · have hsame := honly m' hm' d' hd'
        rw [hsame, hreq] at hd'
        rw [hget, hd'.2]
        rfl

/-- `db'` is `db` with the accepted writes of `ws` carried out, and nothing else. -/
structure Effects (rej : Rejected ι κ) (ws : List (Message ι (Call κ) Answer)) (db db' : Db) :
    Prop where
  stored : ∀ w ∈ ws, ∀ p d, w.call.req = .setData p d →
    DocStore.get db' p = if rej w then DocStore.get db p else some d
  untouched : ∀ p, (∀ w ∈ ws, ∀ d, ¬ w.call.req.Stores p d) →
    DocStore.get db' p = DocStore.get db p

omit [DecidableEq ι] in
/-- A run that has issued the writes `ws`, no two of them at one path, and stored nothing else. -/
theorem Progress.effects {qs ws : List (Message ι (Call κ) Answer)} (h : Progress rej c₀ c)
    (hq : c.Quiet) (hsince : since c₀ c = qs ++ ws)
    (hqs : ∀ m ∈ qs, ∀ p d, ¬ m.call.req.Stores p d)
    (hapart : ∀ w ∈ ws, ∀ w' ∈ ws, ∀ p d d', w.call.req.Stores p d → w'.call.req.Stores p d' →
      w' = w) : Effects rej ws c₀.backend.db c.backend.db := by
  constructor
  · intro w hw p d hreq
    refine h.get_stored hq (hsince ▸ List.mem_append_right _ hw) hreq ?_
    intro m' hm' d' hd'
    rw [hsince, List.mem_append] at hm'
    rcases hm' with hm' | hm'
    · exact absurd hd' (hqs m' hm' p d')
    · exact hapart w hw m' hm' p d d' (by rw [hreq]; exact ⟨rfl, rfl⟩) hd'
  · intro p hp
    refine h.get_untouched ?_
    intro m hm d
    rw [hsince, List.mem_append] at hm
    rcases hm with hm | hm
    · exact hqs m hm p d
    · exact hp m hm d

section Effects

variable {qs ws : List (Message ι (Call κ) Answer)} {db db' : Db}

omit [DecidableEq ι] in
/-- Calls that store nothing have no effects. -/
theorem Effects.prepend (h : Effects rej ws db db')
    (hqs : ∀ m ∈ qs, ∀ p d, ¬ m.call.req.Stores p d) : Effects rej (qs ++ ws) db db' := by
  constructor
  · intro w hw p d hreq
    rcases List.mem_append.mp hw with hw | hw
    · exact absurd (by rw [hreq]; exact ⟨rfl, rfl⟩) (hqs w hw p d)
    · exact h.stored w hw p d hreq
  · intro p hp
    exact h.untouched p fun w hw => hp w (List.mem_append_right _ hw)

omit [DecidableEq ι] in
/-- Writes that are all rejected change nothing. -/
theorem Effects.none (h : Effects rej ws db db')
    (hset : ∀ w ∈ ws, ∀ p d, w.call.req.Stores p d → w.call.req = .setData p d ∧ rej w = true) :
    ∀ p, DocStore.get db' p = DocStore.get db p := by
  intro p
  by_cases hp : ∃ w ∈ ws, ∃ d, w.call.req.Stores p d
  · obtain ⟨w, hw, d, hd⟩ := hp
    obtain ⟨hreq, hrej⟩ := hset w hw p d hd
    rw [h.stored w hw p d hreq, hrej]
    rfl
  · apply h.untouched
    intro w hw d hd
    exact hp ⟨w, hw, d, hd⟩

end Effects

end Progress

end P0ker
