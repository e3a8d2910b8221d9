import P0ker.Groups.Creation

/-!
# Does the pointer to the group in creation dangle?

The NewGroup page leaves the id and the type of the group it has created at `users/u/creation/0`,
where the Friends page reads them. The pointer is the last of three messages. As long as each
client's messages are applied in the order it sent them, the two copies of the group are there
before the pointer is, although the form may have changed since the press, several groups may be
under way, and the messages of all clients arrive in any mixture.

`pointer_sound` says so for every state a run reaches, not only for quiet ones: a pointer still in
flight has its group stored already, or still before it in the queue (`Covered`).
-/

namespace P0ker.CreationPointer

open Async NewGroup Groups

variable {ι : Type} [DecidableEq ι]

/-- A document with the groupid `i` is stored at the path. -/
def HasGroup (db : Db) (p : Path) (i : Nat) : Prop :=
  ∃ d, DocStore.get db p = some d ∧ d.field "groupid" = .int i

/-- Where the group that a pointer of `u` names is stored. -/
def targets (u : String) (i : Nat) (t : String) : List Path :=
  [groupPath t (Nat.repr i), userGroupPath u (Nat.repr i)]

/-- Every pointer names a group that everybody sees and that its user has in the own list, both with
its id. -/
def PointsToGroups (db : Db) : Prop :=
  ∀ u d i t, DocStore.get db (creationPath u) = some d → d.field "id" = .int i →
    d.field "type" = .str t → ∀ p ∈ targets u i t, HasGroup db p i

/-- An outstanding write of client `j` that stores a document with the groupid `i` at the path. -/
def WritesGroup (j : ι) (p : Path) (i : Nat) (m : GroupMessage ι) : Prop :=
  m.client = j ∧ ∃ d, m.call.req = .setData p d ∧ d.field "groupid" = .int i

/-- The group of every pointer in flight is stored, or before it in the queue. -/
def Covered (c : GroupConfig ι) : Prop :=
  ∀ k w u d i t, c.calls[k]? = some w → w.call.req = .setData (creationPath u) d →
    d.field "id" = .int i → d.field "type" = .str t → ∀ p ∈ targets u i t,
      HasGroup c.backend.db p i ∨ Preceded (WritesGroup w.client p i) k c.calls

/-! ## What the messages say -/

theorem interpInt_eq_repr {n : Option Nat} {i : Nat} (h : interpInt n = Nat.repr i) :
    n = some i :=
  interpInt_inj.mp h

/-- Whatever is stored where a group belongs is a group with that id. -/
theorem groupid_of_stores {s : NewGroupState} {call : Call Cont} {u : String} {i : Nat} {t : String}
    {p : Path} {d : Doc} (hc : call ∈ saved s) (hd : call.req.Stores p d)
    (hp : p ∈ targets u i t) : d.field "groupid" = .int i := by
  -- the last segment of either path is the id
  have hid : s.groupId = some i ∧ d = groupDoc s := by
    rcases List.mem_cons.mp hp with rfl | hp
    · rcases stores_saved hc hd with ⟨hpath, hdoc⟩ | ⟨hpath, -⟩ | hpath
      · simp only [groupPath, List.cons.injEq, and_true, true_and] at hpath
        exact ⟨interpInt_eq_repr hpath.2.symm, hdoc⟩
      · exact absurd (List.cons.inj hpath).1 (by decide)
      · exact absurd (List.cons.inj hpath).1 (by decide)
    · obtain rfl := List.mem_singleton.mp hp
      rcases stores_saved hc hd with ⟨hpath, -⟩ | ⟨hpath, hdoc⟩ | hpath
      · exact absurd (List.cons.inj hpath).1 (by decide)
      · simp only [userGroupPath, List.cons.injEq, and_true, true_and] at hpath
        exact ⟨interpInt_eq_repr hpath.2.symm, hdoc⟩
      · simp [userGroupPath, creationPath] at hpath
  obtain ⟨hgroup, rfl⟩ := hid
  show Value.ofInt s.groupId = .int i
  rw [hgroup]
  rfl

/-- The pointer is the third message of a group, after the two that store it. -/
theorem pointer_of_saved {s : NewGroupState} {n : Nat} {call : Call Cont} {u : String} {d : Doc}
    {i : Nat} {t : String} (hn : (saved s)[n]? = some call)
    (hreq : call.req = .setData (creationPath u) d) (hid : d.field "id" = .int i)
    (htype : d.field "type" = .str t) : n = 2 ∧ ∀ p ∈ targets u i t, ∃ j < 2, ∃ call',
      (saved s)[j]? = some call' ∧ ∃ d', call'.req = .setData p d' ∧
        d'.field "groupid" = .int i := by
  -- the first two messages go elsewhere
  have hlast : n = 2 ∧ call = ⟨.written, .setData (creationPath (interp s.mCurrentUser))
      [("id", .ofInt s.groupId), ("type", .str s.groupType)]⟩ := by
    match n, hn with
    | 0, hn =>
        obtain rfl := Option.some.inj hn
        exact absurd (Request.setData.inj hreq).1 (by simp [groupPath, creationPath])
    | 1, hn =>
        obtain rfl := Option.some.inj hn
        exact absurd (Request.setData.inj hreq).1 (by simp [userGroupPath, creationPath])
    | 2, hn => exact ⟨rfl, (Option.some.inj hn).symm⟩
    | n + 3, hn => cases hn
  obtain ⟨rfl, rfl⟩ := hlast
  obtain ⟨hpath, rfl⟩ := Request.setData.inj hreq
  have hgroup : s.groupId = some i := Value.ofInt_inj.mp hid
  have hu : interp s.mCurrentUser = u := by
    simpa [creationPath] using hpath
  have ht : s.groupType = t := Value.str.inj htype
  subst hu ht
  have hdoc : (groupDoc s).field "groupid" = .int i := by
    show Value.ofInt s.groupId = .int i
    rw [hgroup]
    rfl
  refine ⟨rfl, fun p hp => ?_⟩
  rcases List.mem_cons.mp hp with rfl | hp
  · refine ⟨0, by decide, _, rfl, groupDoc s, ?_, hdoc⟩
    rw [hgroup]
    rfl
  · obtain rfl := List.mem_singleton.mp hp
    refine ⟨1, by decide, _, rfl, groupDoc s, ?_, hdoc⟩
    rw [hgroup]
    rfl

/-! ## One step -/

section Step

variable {C : GroupConfig ι → GroupAction ι → Prop} {c : GroupConfig ι} {k : Nat} {o : Outcome}
  {m : GroupMessage ι} {b : Backend ι} {a : Answer}

/-- Whatever is stored, the groups there are stay groups with their ids. -/
theorem HasGroup.served (hr : (groupSystem ι).Reach C c) (hk : c.calls[k]? = some m)
    (hserve : c.backend.serve m.client m.call.req o = some (b, a)) {u : String} {i : Nat}
    {t : String} {p : Path} (hp : p ∈ targets u i t) (h : HasGroup c.backend.db p i) :
    HasGroup b.db p i := by
  rcases Backend.serve_stores hserve p with hsame | ⟨-, d, hd, hget⟩
  · rw [HasGroup, hsame]
    exact h
  · -- overwritten, by a group with the same id
    have hissued := (inFlightIssued hr).1 m (List.mem_of_getElem? hk)
    obtain ⟨s, hs⟩ := (sent hr m hissued).stores hd
    exact ⟨d, hget, groupid_of_stores hs hd hp⟩

/-- A handler runs: what it issues goes to the end of the queue. -/
theorem Covered.post {j : ι} {s : NewGroupState} {out : List (Call Cont)}
    {cause : List (Call Cont × Answer)} (h : Covered c)
    (hout : (∃ s', out = saved s') ∨ ∀ call ∈ out, ¬ call.req.Writes) :
    Covered (c.post j s out cause) := by
  intro k w u d i t hw hreq hid htype p hp
  rw [Config.post_calls] at hw ⊢
  by_cases hold : k < c.calls.length
  · rw [List.getElem?_append_left hold] at hw
    exact (h k w u d i t hw hreq hid htype p hp).imp_right (Preceded.append _)
  · rw [List.getElem?_append_right (Nat.le_of_not_lt hold), List.getElem?_map,
      Option.map_eq_some_iff] at hw
    obtain ⟨call, hcall, rfl⟩ := hw
    rcases hout with ⟨s', rfl⟩ | hout
    · -- the pointer comes with the two copies before it
      obtain ⟨hn, hbefore⟩ := pointer_of_saved hcall hreq hid htype
      obtain ⟨n, hlt, call', hcall', d', hreq', hid'⟩ := hbefore p hp
      refine Or.inr ⟨c.calls.length + n, by omega, ⟨j, call', cause⟩, ?_, rfl, d', hreq', hid'⟩
      rw [List.getElem?_append_right (Nat.le_add_right _ _), Nat.add_sub_cancel_left,
        List.getElem?_map, hcall', Option.map_some]
    · refine absurd ?_ (hout call (List.mem_of_getElem? hcall))
      rw [show call.req = .setData (creationPath u) d from hreq]
      trivial

/-- A call is evaluated: a copy that leaves the queue is stored. -/
theorem Covered.served (hr : (groupSystem ι).Reach C c) (h : Covered c)
    (hC : m.call.req.Writes → o.rejected = false) (hk : c.calls[k]? = some m)
    (hserve : c.backend.serve m.client m.call.req o = some (b, a)) :
    Covered (c.served k m b a) := by
  intro n w u d i t hw hreq hid htype p hp
  obtain ⟨n', hw', hpreceded⟩ := preceded_eraseIdx hw
  rcases h n' w u d i t hw' hreq hid htype p hp with hstored | hbefore
  · exact Or.inl (HasGroup.served hr hk hserve hp hstored)
  · refine (hpreceded _ hbefore).imp_left ?_
    rintro ⟨m', hm', -, d', hreq', hid'⟩
    -- the copy itself is evaluated, and accepted
    obtain rfl := Option.some.inj (hk.symm.trans hm')
    rw [hreq'] at hC hserve
    cases o with
    | reject e => cases hC trivial
    | accept fresh => exact ⟨d', Backend.serve_accepted hserve, hid'⟩

/-- A pointer is stored only when its group is. -/
theorem PointsToGroups.served (hr : (groupSystem ι).Reach C c) (hcovered : Covered c)
    (hpoints : PointsToGroups c.backend.db) (hk : c.calls[k]? = some m)
    (hC : m.call.req.Writes → o.rejected = false ∧
      ¬ Preceded (fun m' => m'.client = m.client ∧ m'.call.req.Writes) k c.calls)
    (hserve : c.backend.serve m.client m.call.req o = some (b, a)) : PointsToGroups b.db := by
  intro u d i t hget hid htype p hp
  refine HasGroup.served hr hk hserve hp ?_
  rcases Backend.serve_stores hserve (creationPath u) with hsame | ⟨-, d', hd', hget'⟩
  · rw [hsame] at hget
    exact hpoints u d i t hget hid htype p hp
  · obtain rfl := Option.some.inj (hget.symm.trans hget')
    have hissued := (inFlightIssued hr).1 m (List.mem_of_getElem? hk)
    obtain ⟨s, hs⟩ := (sent hr m hissued).stores hd'
    have hreq : m.call.req = .setData (creationPath u) d := by
      rcases mem_saved.mp hs with hcall | hcall | hcall <;> rw [hcall] at hd' ⊢ <;>
        obtain ⟨hpath, rfl⟩ := hd'
      · exact absurd (List.cons.inj hpath).1 (by decide)
      · simp [userGroupPath, creationPath] at hpath
      · rw [hpath]
    refine (hcovered k m u d i t hk hreq hid htype p hp).resolve_right ?_
    -- nothing of its client is before a write that is evaluated
    rintro ⟨j, hj, m', hm', hclient, d', hreq', -⟩
    refine (hC hd'.writes).2 ⟨j, hj, m', hm', hclient, ?_⟩
    rw [hreq']
    trivial

end Step

/-! ## Every run -/

section Run

variable {c : GroupConfig ι}

theorem covered (h : (groupSystem ι).Reach InOrder c) :
    Covered c ∧ PointsToGroups c.backend.db := by
  refine h.invariant (P := fun c => Covered c ∧ PointsToGroups c.backend.db) ?_ ?_
  · rintro _ ⟨b, hb, rfl⟩
    refine ⟨nofun, ?_⟩
    intro u d i t hget
    rw [start, Config.start, hb, DocStore.get_empty] at hget
    cases hget
  · intro c a c' hr hq hC hs
    refine step_keeps (Q := fun c => Covered c ∧ PointsToGroups c.backend.db) hs ?_ ?_ ?_
    · intro i e s out _ he
      refine ⟨hq.1.post (Or.inr ?_), hq.2⟩
      rcases onEvent_cases he with ⟨rfl, -⟩ | ⟨-, -, -, rfl⟩ | ⟨r, -, -, -, -, rfl⟩
      · exact List.forall_mem_nil _
      · exact List.forall_mem_singleton.mpr id
      · exact List.forall_mem_singleton.mpr id
    · intro k o m b x hact hk hserve
      subst hact
      have hcond := hC m hk
      exact ⟨hq.1.served hr (fun hw => (hcond hw).1) hk hserve,
        hq.2.served hr hq.1 hk hcond hserve⟩
    · intro k d m x s out _ _ ha
      refine ⟨Covered.post (c := c.taken k) hq.1 ?_, hq.2⟩
      rcases answer_cases ha with
        ⟨-, rfl⟩ | ⟨u, -, -, -, rfl⟩ | ⟨-, -, -, -, rfl⟩ | ⟨-, -, -, -, rfl⟩
      · exact Or.inr (List.forall_mem_nil _)
      · exact Or.inr (List.forall_mem_nil _)
      · exact Or.inr (List.forall_mem_singleton.mpr id)
      · exact Or.inl ⟨_, rfl⟩

/-- In every state of every run in which each client's writes are applied in the order it issued
them, a pointer names a group that is stored in the shared store and in its user's list, both times
with the id the pointer gives. -/
theorem pointer_sound (h : (groupSystem ι).Reach InOrder c) {u t : String} {i : Nat} {d : Doc}
    (hget : DocStore.get c.backend.db (creationPath u) = some d) (hid : d.field "id" = .int i)
    (htype : d.field "type" = .str t) :
    (∃ g, DocStore.get c.backend.db (groupPath t (Nat.repr i)) = some g ∧
      g.field "groupid" = .int i) ∧
    ∃ g, DocStore.get c.backend.db (userGroupPath u (Nat.repr i)) = some g ∧
      g.field "groupid" = .int i := by
  have hpoints := (covered h).2 u d i t hget hid htype
  exact ⟨hpoints _ List.mem_cons_self,
    hpoints _ (List.mem_cons_of_mem _ (List.mem_singleton_self _))⟩

end Run

/-! ## Two groups under way, the type changed in between -/

instance (c : GroupConfig ι) : ∀ a, Decidable (InOrder (ε := Event) (δ := Draw) c a)
  | .event _ _ | .deliver _ _ => .isTrue trivial
  | .serve _ _ => by
      unfold InOrder Preceded
      infer_instance

/-- Ola asks about the public 1, taps 'Private' and asks about 2. Both answers save 2; the first
pointer is stored while the writes of the second answer are still in flight. -/
def overlapping : List (GroupAction Unit) :=
  openPage ++ ([.event () (.pressCreate 1), .event () .tapPrivate, .event () (.pressCreate 2),
    .serve 0 (.accept ""), .serve 0 (.accept ""), .deliver 1 0, .deliver 0 0,
    .serve 0 (.accept ""), .serve 0 (.accept ""), .serve 0 (.accept "")] :
      List (GroupAction Unit))

theorem pointer_sound_ola : ∃ c : GroupConfig Unit,
    (groupSystem Unit).follow InOrder (Groups.start withOla) overlapping = some c ∧
    c.calls ≠ [] ∧ DocStore.get c.backend.db (creationPath "ola") =
      some [("id", .int 2), ("type", .str "private")] ∧
    ∃ g, DocStore.get c.backend.db (groupPath "private" "2") = some g ∧
      g.field "groupid" = .int 2 := by
  have hrun : ((groupSystem Unit).follow InOrder (Groups.start withOla) overlapping).map
      (fun c => (c.calls.length, DocStore.get c.backend.db (creationPath "ola")))
      = some (3, some [("id", .int 2), ("type", .str "private")]) := by
    decide +kernel
  obtain ⟨c, hc, heq⟩ := Option.map_eq_some_iff.mp hrun
  obtain ⟨hcalls, hget⟩ := Prod.mk.inj heq
  have hbusy : c.calls ≠ [] := by
    intro hnil
    rw [hnil] at hcalls
    cases hcalls
  have hreach : (groupSystem Unit).Reach InOrder c := Machine.Reach.of_follow ⟨_, rfl, rfl⟩ hc
  exact ⟨c, hc, hbusy, hget, (pointer_sound hreach hget (t := "private") (i := 2) rfl rfl).1⟩

end P0ker.CreationPointer
