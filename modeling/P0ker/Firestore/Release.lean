import P0ker.Firestore.LocalStore

/-!
# The Firestore client: what the user sees while writes are settled

A write shows in the local view as soon as it is made. Some time after the server has acknowledged
it, its batch is taken out of the queue and its result goes into the cache instead. The main result
is that the user does not see that (`view_kept`): until there is news of a document its view stays
the same, but for the mark that it has local mutations.
-/

namespace P0ker.Firestore

variable {V Q U : Type}

/-! ## Documents that are the same but for the mark -/

/-- What is known is the same, but for the mark that there are local mutations. -/
inductive SameDocument : (document document' : Option (MaybeDocument V)) → Prop where
  | none : SameDocument none none
  | deleted (key : DocumentKey) (version : SnapshotVersion) :
      SameDocument (some (.deleted key version)) (some (.deleted key version))
  | document (key : DocumentKey) (version : SnapshotVersion) (data : ObjectValue V)
      (mark mark' : Bool) : SameDocument (some (.document ⟨key, version, data, mark⟩))
        (some (.document ⟨key, version, data, mark'⟩))

/-- Both fail alike, or find the same document. -/
inductive Alike : (x x' : Except String (Option (MaybeDocument V))) → Prop where
  | ok {document document' : Option (MaybeDocument V)} (h : SameDocument document document') :
      Alike (.ok document) (.ok document')
  | error (message : String) : Alike (.error message) (.error message)

section Alike

variable {document document' : Option (MaybeDocument V)}
  {baseDoc baseDoc' : Option (MaybeDocument V)}
  {x x' : Except String (Option (MaybeDocument V))} {mutation : Mutation V} {key : DocumentKey}
  {localWriteTime : Int}

theorem SameDocument.refl (document : Option (MaybeDocument V)) :
    SameDocument document document := by
  rcases document with _ | ⟨key, version, data, mark⟩ | ⟨key, version⟩
  · exact .none
  · exact .document key version data mark mark
  · exact .deleted key version

theorem SameDocument.keyedAt (h : SameDocument document document') :
    KeyedAt key document ↔ KeyedAt key document' := by
  cases h with
  | none => exact Iff.rfl
  | deleted => exact Iff.rfl
  | document => rw [keyedAt_some, keyedAt_some]; rfl

theorem SameDocument.trans {document'' : Option (MaybeDocument V)}
    (h : SameDocument document document')
    (h' : SameDocument document' document'') : SameDocument document document'' := by
  cases h with
  | none => exact h'
  | deleted => exact h'
  | document =>
      cases h' with
      | document => exact .document _ _ _ _ _

theorem Alike.refl (x : Except String (Option (MaybeDocument V))) : Alike x x := by
  cases x with
  | error message => exact .error message
  | ok document => exact .ok (.refl document)

theorem Alike.trans {x'' : Except String (Option (MaybeDocument V))} (h : Alike x x')
    (h' : Alike x' x'') : Alike x x'' := by
  cases h with
  | error message => exact h'
  | ok h =>
      cases h' with
      | ok h' => exact .ok (h.trans h')

theorem Alike.bind {f f' : Option (MaybeDocument V) → Except String (Option (MaybeDocument V))}
    (h : Alike x x') (hf : ∀ document document', SameDocument document document' →
      Alike (f document) (f' document')) : Alike (x >>= f) (x' >>= f') := by
  cases h with
  | ok h => exact hf _ _ h
  | error message => exact .error message

theorem Alike.hardAssert {p p' : Prop} [Decidable p] [Decidable p'] (hp : p ↔ p') (message : String)
    (h : Alike x x') :
    Alike (hardAssert p message >>= fun _ => x) (hardAssert p' message >>= fun _ => x') := by
  by_cases htrue : p
  · rw [hardAssert_pos htrue, hardAssert_pos (hp.mp htrue)]
    exact h
  · rw [Firestore.hardAssert, Firestore.hardAssert, if_neg htrue, if_neg fun h => htrue (hp.mpr h)]
    exact .error message

/-! ## Mutations -/

theorem SameDocument.isValidFor (h : SameDocument document document')
    (precondition : Precondition) :
    precondition.isValidFor document = precondition.isValidFor document' := by
  cases h with
  | none => rfl
  | deleted => rfl
  | document => rcases precondition with _ | ⟨_ | _⟩ | _ <;> rfl

theorem SameDocument.previousValue (h : SameDocument baseDoc baseDoc') (path : FieldPath) :
    Mutation.previousValue baseDoc path = Mutation.previousValue baseDoc' path := by
  cases h <;> rfl

/-- The mutation says itself what the values are; a transform leaves that to the server. -/
def Mutation.IsPlain : Mutation V → Prop
  | .set _ _ _ | .patch _ _ _ _ | .delete _ _ => True
  | .transform _ _ => False

/-- A plain mutation does the same with a result and without. -/
theorem Mutation.applyTo_plain (hplain : mutation.IsPlain) (h : SameDocument document document')
    {result result' : Option (MutationResult V)} (hresult : ∀ r ∈ result, r.Answers mutation)
    (hresult' : ∀ r ∈ result', r.Answers mutation) :
    Alike (mutation.applyTo document baseDoc localWriteTime result)
      (mutation.applyTo document' baseDoc' localWriteTime result') := by
  cases mutation with
  | set key precondition value =>
      have hnone := Mutation.all_isNone hresult
      have hnone' := Mutation.all_isNone hresult'
      simp only [applyTo, hardAssert_pos hnone, hardAssert_pos hnone', ok_bind]
      rw [← h.isValidFor]
      split
      · cases h with
        | none => exact .ok (.document _ _ _ _ _)
        | deleted => exact .ok (.document _ _ _ _ _)
        | document => exact Alike.hardAssert Iff.rfl _ (.ok (.document _ _ _ _ _))
      · exact .ok h
  | patch key precondition fieldMask value =>
      have hnone := Mutation.all_isNone hresult
      have hnone' := Mutation.all_isNone hresult'
      simp only [applyTo, hardAssert_pos hnone, hardAssert_pos hnone', ok_bind]
      rw [← h.isValidFor]
      split
      · cases h with
        | none => exact Alike.hardAssert Iff.rfl _ (.ok (.document _ _ _ _ _))
        | deleted => exact Alike.hardAssert Iff.rfl _ (.ok (.document _ _ _ _ _))
        | document => exact Alike.hardAssert Iff.rfl _ (.ok (.document _ _ _ _ _))
      · exact .ok h
  | transform key fieldTransforms => exact hplain.elim
  | delete key precondition =>
      have hnone := Mutation.all_isNone hresult
      have hnone' := Mutation.all_isNone hresult'
      simp only [applyTo, hardAssert_pos hnone, hardAssert_pos hnone', ok_bind]
      rw [← h.isValidFor]
      split
      · exact Alike.hardAssert h.keyedAt _ (.ok (.deleted _ _))
      · exact .ok h

/-- A mutation of the local view does the same to the same document. -/
theorem Mutation.applyTo_same (h : SameDocument document document')
    (hbase : SameDocument baseDoc baseDoc') :
    Alike (mutation.applyTo document baseDoc localWriteTime none)
      (mutation.applyTo document' baseDoc' localWriteTime none) := by
  by_cases hplain : mutation.IsPlain
  · exact applyTo_plain hplain h (by rintro r ⟨⟩) (by rintro r ⟨⟩)
  · cases mutation with
    | transform key fieldTransforms =>
        have hresults : localTransformResults fieldTransforms baseDoc localWriteTime =
            localTransformResults fieldTransforms baseDoc' localWriteTime :=
          List.map_congr_left fun transform _ => by rw [hbase.previousValue]
        simp only [applyTo, hresults]
        refine Alike.hardAssert Iff.rfl _ ?_
        rw [← h.isValidFor]
        split
        · cases h with
          | none => exact .error _
          | deleted => exact .error _
          | document => exact Alike.hardAssert Iff.rfl _ (Alike.refl _)
        · exact .ok h
    | set | patch | delete => exact absurd trivial hplain

/-! ## Batches -/

namespace MutationBatch

variable {batch : MutationBatch V}

/-- A batch of the local view does the same to the same document. -/
theorem applyTo_same (h : SameDocument document document') :
    Alike (batch.applyTo document key none) (batch.applyTo document' key none) := by
  have hloop : ∀ (mutations : List (Mutation V)) (i : Nat)
      (before before' : Option (MaybeDocument V)), SameDocument before before' →
      Alike (applyFrom batch key document none i mutations before)
        (applyFrom batch key document' none i mutations before') := by
    intro mutations
    induction mutations with
    | nil => exact fun i before before' hbefore => .ok hbefore
    | cons mutation mutations ih =>
        intro i before before' hbefore
        rw [applyFrom, applyFrom]
        split
        · exact Alike.bind (Mutation.applyTo_same hbefore h) (ih (i + 1))
        · exact ih (i + 1) before before' hbefore
  exact Alike.hardAssert h.keyedAt _ (Alike.hardAssert (by simp) _ (hloop _ _ _ _ h))

/-- A batch whose mutations of the document are plain does the same with its results. -/
theorem applyTo_answered (h : SameDocument document document') {r : MutationBatchResult V}
    (hanswered : batch.AnsweredBy r.mutationResults)
    (hplain : ∀ mutation ∈ batch.mutations, mutation.key = key → mutation.IsPlain) :
    Alike (batch.applyTo document key none) (batch.applyTo document' key (some r)) := by
  have hloop : ∀ (mutations : List (Mutation V)) (i : Nat)
      (before before' : Option (MaybeDocument V)), SameDocument before before' →
      (∀ mutation ∈ mutations, mutation.key = key → mutation.IsPlain) →
      List.Forall₂ (fun mutation result => result.Answers mutation) mutations
        (r.mutationResults.drop i) →
      Alike (applyFrom batch key document none i mutations before)
        (applyFrom batch key document' (some r.mutationResults) i mutations before') := by
    intro mutations
    induction mutations with
    | nil => exact fun i before before' hbefore _ _ => .ok hbefore
    | cons mutation mutations ih =>
        intro i before before' hbefore hplain hresults
        obtain ⟨hfirst, hplain⟩ := List.forall_mem_cons.mp hplain
        obtain ⟨result, rest, hanswers, hrest, hdrop⟩ := List.forall₂_cons_left_iff.mp hresults
        have hresult : r.mutationResults[i]? = some result := by
          rw [← List.head?_drop, hdrop]
          rfl
        have hlater : r.mutationResults.drop (i + 1) = rest := by
          rw [← List.tail_drop, hdrop]
          rfl
        rw [applyFrom, applyFrom]
        have hlaterRun : ∀ after after', SameDocument after after' →
            Alike (applyFrom batch key document none (i + 1) mutations after)
              (applyFrom batch key document' (some r.mutationResults) (i + 1) mutations after') :=
          fun after after' hafter => ih (i + 1) after after' hafter hplain (hlater ▸ hrest)
        split
        · next hkey =>
            refine Alike.bind (Mutation.applyTo_plain (hfirst hkey) hbefore (by rintro r ⟨⟩) ?_)
              hlaterRun
            intro r' hr'
            obtain rfl : result = r' := Option.some.inj (hresult.symm.trans hr')
            exact hanswers
        · exact hlaterRun before before' hbefore
  refine Alike.hardAssert h.keyedAt _ (Alike.hardAssert ?_ _ (hloop _ _ _ _ h hplain hanswered))
  simp [hanswered.length_eq]

end MutationBatch

end Alike

/-! ## Versions -/

section Versions

variable {version : SnapshotVersion} {document document' baseDoc : Option (MaybeDocument V)}
  {key : DocumentKey}

theorem of_hardAssert {α : Type} {p : Prop} [Decidable p] {message : String}
    {x : Except String α} {y : α}
    (h : (hardAssert p message >>= fun _ => x) = .ok y) : x = .ok y := by
  obtain ⟨-, -, hx⟩ := bind_eq_ok.mp h
  exact hx

/-- What is known is of an older version. -/
def Older (version : SnapshotVersion) (document : Option (MaybeDocument V)) : Prop :=
  ∀ doc ∈ document, doc.version < version

theorem older_some {doc : MaybeDocument V} : Older version (some doc) ↔ doc.version < version := by
  simp [Older]

/-- A mutation makes no new version. -/
theorem Mutation.applyTo_older {mutation : Mutation V} {localWriteTime : Int}
    {result : Option (MutationResult V)} (hversion : 0 < version) (h : Older version document)
    (hrun : mutation.applyTo document baseDoc localWriteTime result = .ok document') :
    Older version document' := by
  cases mutation with
  | set key precondition value =>
      have hrun := of_hardAssert hrun
      split at hrun
      · rcases document with _ | doc | ⟨key', version'⟩
        · obtain rfl := Except.ok.inj hrun
          exact older_some.mpr hversion
        · obtain rfl := Except.ok.inj (of_hardAssert hrun)
          have holder := older_some.mp h
          exact older_some.mpr holder
        · obtain rfl := Except.ok.inj hrun
          exact older_some.mpr hversion
      · obtain rfl := Except.ok.inj hrun
        exact h
  | patch key precondition fieldMask value =>
      have hrun := of_hardAssert hrun
      split at hrun
      · obtain rfl := Except.ok.inj (of_hardAssert hrun)
        rcases document with _ | doc | ⟨key', version'⟩
        · exact older_some.mpr hversion
        · have holder := older_some.mp h
          exact older_some.mpr holder
        · have holder := older_some.mp h
          exact older_some.mpr holder
      · obtain rfl := Except.ok.inj hrun
        exact h
  | transform key fieldTransforms =>
      have hrun := of_hardAssert hrun
      split at hrun
      · rcases document with _ | doc | ⟨key', version'⟩
        · cases hrun
        · have hrun := of_hardAssert hrun
          have holder := older_some.mp h
          dsimp only at hrun
          split at hrun
          all_goals
            obtain ⟨results, -, hrun⟩ := bind_eq_ok.mp hrun
            obtain ⟨newData, -, hrun⟩ := bind_eq_ok.mp hrun
            obtain rfl := Except.ok.inj hrun
            exact older_some.mpr holder
        · cases hrun
      · obtain rfl := Except.ok.inj hrun
        exact h
  | delete key precondition =>
      have hrun := of_hardAssert hrun
      split at hrun
      · obtain rfl := Except.ok.inj (of_hardAssert hrun)
        exact older_some.mpr hversion
      · obtain rfl := Except.ok.inj hrun
        exact h

theorem MutationBatch.applyTo_older {batch : MutationBatch V}
    {result : Option (MutationBatchResult V)} (hversion : 0 < version) (h : Older version document)
    (hrun : batch.applyTo document key result = .ok document') : Older version document' := by
  have hloop : ∀ (mutations : List (Mutation V)) (i : Nat) (before : Option (MaybeDocument V)),
      Older version before →
      applyFrom batch key document (result.map (·.mutationResults)) i mutations before =
        .ok document' →
      Older version document' := by
    intro mutations
    induction mutations with
    | nil =>
        intro i before hbefore hrun
        obtain rfl := Except.ok.inj hrun
        exact hbefore
    | cons mutation mutations ih =>
        intro i before hbefore hrun
        rw [applyFrom] at hrun
        split at hrun
        · obtain ⟨after, hstep, hrest⟩ := bind_eq_ok.mp hrun
          exact ih (i + 1) after (Mutation.applyTo_older hversion hbefore hstep) hrest
        · exact ih (i + 1) before hbefore hrun
  exact hloop _ _ _ h (of_hardAssert (of_hardAssert hrun))

end Versions

/-! ## Released results -/

/-- The result has a later version of the document than what is known. -/
def MutationBatchResult.NewerThan (r : MutationBatchResult V) (key : DocumentKey)
    (document : Option (MaybeDocument V)) : Prop :=
  ∀ p ∈ r.docVersions.find? key, 0 < p.2 ∧ Older p.2 document

/-- The batches of the document, applied one after the other. -/
def viewWith (key : DocumentKey) (batches : List (MutationBatch V))
    (document : Option (MaybeDocument V)) : Except String (Option (MaybeDocument V)) :=
  (batches.filter (·.Mutates key)).foldlM
    (fun document batch => batch.applyTo document key none) document

section Released

variable {key : DocumentKey} {document document' : Option (MaybeDocument V)}
  {results : List (MutationBatchResult V)} {cache cache' : RemoteDocumentCache V}

theorem viewWith_cons_of_mutates {batch : MutationBatch V} (hmutates : batch.Mutates key)
    (batches : List (MutationBatch V)) (document : Option (MaybeDocument V)) :
    viewWith key (batch :: batches) document =
      batch.applyTo document key none >>= viewWith key batches := by
  rw [viewWith, List.filter_cons_of_pos (by simpa using hmutates), List.foldlM_cons]
  rfl

theorem viewWith_cons_of_not_mutates {batch : MutationBatch V} (hmutates : ¬ batch.Mutates key)
    (batches : List (MutationBatch V)) (document : Option (MaybeDocument V)) :
    viewWith key (batch :: batches) document = viewWith key batches document := by
  rw [viewWith, List.filter_cons_of_neg (by simpa using hmutates)]
  rfl

theorem viewWith_congr {batches batches' : List (MutationBatch V)}
    (h : batches.filter (·.Mutates key) = batches'.filter (·.Mutates key))
    (document : Option (MaybeDocument V)) :
    viewWith key batches document = viewWith key batches' document := by
  rw [viewWith, h, viewWith]

theorem viewWith_same (batches : List (MutationBatch V)) (h : SameDocument document document') :
    Alike (viewWith key batches document) (viewWith key batches document') := by
  induction batches generalizing document document' with
  | nil => exact .ok h
  | cons batch batches ih =>
      by_cases hmutates : batch.Mutates key
      · rw [viewWith_cons_of_mutates hmutates, viewWith_cons_of_mutates hmutates]
        exact Alike.bind (MutationBatch.applyTo_same h) fun after after' hafter => ih hafter
      · rw [viewWith_cons_of_not_mutates hmutates, viewWith_cons_of_not_mutates hmutates]
        exact ih h

/-- A result that goes into the cache takes the place of its batch. -/
theorem applyBatchResult_alike {r : MutationBatchResult V} (hr : r.Complete)
    (hplain : ∀ mutation ∈ r.batch.mutations, mutation.key = key → mutation.IsPlain)
    (hmutates : r.batch.Mutates key) (hnewer : r.NewerThan key (cache.find? key))
    (hrun : LocalStore.applyBatchResult cache r = .ok cache')
    (h : SameDocument document (cache.find? key)) :
    ∃ document', r.batch.applyTo document key none = .ok document' ∧
      SameDocument document' (cache'.find? key) ∧
      ∀ version, 0 < version → Older version (cache.find? key) →
        Older version (cache'.find? key) := by
  obtain ⟨cache'', hrun', hfound⟩ := LocalStore.applyBatchResult_ok hr cache
  rw [hrun] at hrun'
  obtain rfl := Except.ok.inj hrun'
  have hsettle := hfound key
  obtain ⟨⟨key', version⟩, hversion⟩ := Option.ne_none_iff_exists'.mp (hr.versions key hmutates)
  have hold : (cache.find? key).all (·.version < version) := by
    have holder := (hnewer _ hversion).2
    rcases hcached : cache.find? key with _ | doc
    · rfl
    · rw [hcached] at holder
      simpa using older_some.mp holder
  simp only [if_pos hmutates, LocalStore.settle, hversion, if_pos hold] at hsettle
  have halike := MutationBatch.applyTo_answered h hr.answered hplain
  rw [hsettle] at halike
  generalize hx : r.batch.applyTo document key none = x at halike
  cases halike with
  | ok hsame => exact ⟨_, rfl, hsame, fun version hpos => fun holder =>
      MutationBatch.applyTo_older hpos holder hsettle⟩

/-- The results that go into the cache take the place of their batches. -/
theorem released_alike (hcomplete : ∀ r ∈ results, r.Complete)
    (hplain : ∀ r ∈ results, ∀ mutation ∈ r.batch.mutations, mutation.key = key → mutation.IsPlain)
    (hnewer : ∀ r ∈ results, r.NewerThan key (cache.find? key))
    (hrun : results.foldlM LocalStore.applyBatchResult cache = .ok cache')
    (h : SameDocument document (cache.find? key)) (later : List (MutationBatch V)) :
    Alike (viewWith key (results.map (·.batch) ++ later) document)
      (viewWith key later (cache'.find? key)) := by
  induction results generalizing cache document with
  | nil =>
      obtain rfl := Except.ok.inj hrun
      exact viewWith_same later h
  | cons r results ih =>
      obtain ⟨hr, hcomplete⟩ := List.forall_mem_cons.mp hcomplete
      obtain ⟨hplainFirst, hplain⟩ := List.forall_mem_cons.mp hplain
      obtain ⟨hnewerFirst, hnewer⟩ := List.forall_mem_cons.mp hnewer
      rw [List.foldlM_cons] at hrun
      obtain ⟨cache₁, hstep, hrest⟩ := bind_eq_ok.mp hrun
      by_cases hmutates : r.batch.Mutates key
      · obtain ⟨document₁, happly, hsame, hkept⟩ :=
          applyBatchResult_alike hr hplainFirst hmutates hnewerFirst hstep h
        have hlater := ih hcomplete hplain (fun r' hr' p hp =>
          ⟨(hnewer r' hr' p hp).1, hkept p.2 (hnewer r' hr' p hp).1 (hnewer r' hr' p hp).2⟩)
            hrest hsame
        rw [List.map_cons, List.cons_append, viewWith_cons_of_mutates hmutates, happly]
        exact hlater
      · obtain ⟨cache'', hstep', hfound⟩ := LocalStore.applyBatchResult_ok hr cache
        rw [hstep] at hstep'
        obtain rfl := Except.ok.inj hstep'
        have hsame := hfound key
        rw [if_neg hmutates] at hsame
        have hcached := Except.ok.inj hsame
        have hlater := ih hcomplete hplain (hcached ▸ hnewer) hrest (hcached ▸ h)
        rw [List.map_cons, List.cons_append, viewWith_cons_of_not_mutates hmutates]
        exact hlater

end Released

/-! ## The local view -/

namespace LocalStore

section Lawful

open LawfulMutationQueue

variable [MutationQueue V Q] {s : LocalStore V Q U} {a : U → Outbox V} {action : Action V U}
  {key : DocumentKey}

/-- The call brings no news of the document: it is not written, a write of it is not rejected, the
server tells nothing of it, it is not forgotten, and the user stays. -/
def Action.Spares (s : LocalStore V Q U) (key : DocumentKey) : Action V U → Prop
  | .userDidChange _ => False
  | .locallyWriteMutations _ mutations => ∀ mutation ∈ mutations, mutation.key ≠ key
  | .rejectBatchID _ => ∀ batch ∈ s.nextMutationBatchAfterBatchID batchIDUnknown,
      ¬ batch.Mutates key
  | .applyRemoteEvent documentUpdates _ => documentUpdates.find? key = none
  | .collectGarbage garbage => key ∉ garbage
  | .acknowledgeBatchWithResult _ | .setLastStreamToken _ | .allocateQuery _ | .releaseQuery _ =>
      True

/-- The call can only settle writes of the document: it comes in turn and brings no news of it, and
the results held are for plain mutations of it and have later versions than the cache. -/
structure Action.Settles [LawfulMutationQueue V Q] (s : LocalStore V Q U) (key : DocumentKey)
    (action : Action V U) : Prop where
  inTurn : action.InTurn s
  spares : action.Spares s key
  plain : ∀ r ∈ action.heldDuring s, ∀ mutation ∈ r.batch.mutations, mutation.key = key →
    mutation.IsPlain
  newer : ∀ r ∈ action.heldDuring s, r.NewerThan key (s.remoteDocumentCache.find? key)

omit [MutationQueue V Q] in
theorem find?_foldl_applyDocumentUpdate {docs : List (MaybeDocument V)}
    (h : ∀ doc ∈ docs, doc.key ≠ key) (cache : RemoteDocumentCache V) :
    (docs.foldl applyDocumentUpdate cache).find? key = cache.find? key := by
  induction docs generalizing cache with
  | nil => rfl
  | cons doc docs ih =>
      obtain ⟨hne, h⟩ := List.forall_mem_cons.mp h
      rw [List.foldl_cons, ih h, applyDocumentUpdate]
      split
      · rw [SortedBy.find?_insert, if_neg hne]
      · rfl

omit [MutationQueue V Q] in
theorem find?_foldl_erase {keys : List DocumentKey} (h : key ∉ keys)
    (cache : RemoteDocumentCache V) :
    (keys.foldl SortedBy.erase cache).find? key = cache.find? key := by
  induction keys generalizing cache with
  | nil => rfl
  | cons first keys ih =>
      obtain ⟨hne, h⟩ := List.ne_and_not_mem_of_not_mem_cons h
      rw [List.foldl_cons, ih h, SortedBy.find?_erase, if_neg hne]

theorem Action.find?_cacheDuring (h : action.Spares s key) :
    (action.cacheDuring s).find? key = s.remoteDocumentCache.find? key := by
  cases action with
  | applyRemoteEvent documentUpdates remoteVersion =>
      exact find?_foldl_applyDocumentUpdate (SortedBy.find?_eq_none.mp h) _
  | collectGarbage garbage => exact find?_foldl_erase h _
  | _ => rfl

variable [LawfulMutationQueue V Q] [DecidableEq U]

omit [DecidableEq U] in
theorem Inv.batches (h : s.Inv a) :
    (a s.user).batches = s.heldBatchResults.map (·.batch) ++ (a s.user).unacknowledged := by
  rw [h.held, Outbox.held_append_unacknowledged]

omit [DecidableEq U] in
theorem Inv.documentForKey (h : s.Inv a) (key : DocumentKey) :
    s.documentForKey key = viewWith key (a s.user).batches (s.remoteDocumentCache.find? key) := by
  rw [LocalStore.documentForKey, LocalDocumentsView.documentForKey,
    LocalDocumentsView.localDocument,
    mutationQueue, allMutationBatchesAffectingDocumentKey_ok (h.represents s.user)]
  rfl

omit [DecidableEq U] in
/-- Of the batches of the document the call takes none away but those it may release. -/
theorem Inv.viewWith_batches (h : s.Inv a) (hspares : action.Spares s key)
    {rest : List (MutationBatch V)}
    (hrewrites : action.Rewrites (a s.user).unacknowledged rest)
    (document : Option (MaybeDocument V)) : viewWith key (a s.user).batches document =
      viewWith key ((action.heldDuring s).map (·.batch) ++ rest) document := by
  rw [h.batches]
  cases action with
  | userDidChange user => exact hspares.elim
  | locallyWriteMutations localWriteTime mutations =>
      obtain ⟨batchID, -, rfl⟩ := hrewrites
      have hspared : ¬ (⟨batchID, localWriteTime, mutations⟩ : MutationBatch V).Mutates key := by
        rintro ⟨mutation, hmem, hkey⟩
        exact hspares mutation hmem hkey
      refine viewWith_congr ?_ document
      simp [Action.heldDuring, hspared]
  | acknowledgeBatchWithResult r =>
      have hfirst : (a s.user).unacknowledged = r.batch :: rest := hrewrites
      simp [hfirst, Action.heldDuring]
  | rejectBatchID batchID =>
      obtain ⟨batch, hfirst, -⟩ := hrewrites
      have hspared : ¬ batch.Mutates key := hspares batch (by rw [h.next, hfirst]; rfl)
      refine viewWith_congr ?_ document
      simp [hfirst, Action.heldDuring, hspared]
  | setLastStreamToken | applyRemoteEvent | allocateQuery | releaseQuery | collectGarbage =>
      obtain rfl := hrewrites
      rfl

/-- A call that can only settle writes of the document keeps what the user sees of it. -/
theorem Inv.settles (h : s.Inv a) (hsettles : action.Settles s key) :
    ∃ s' a', action.run s = .ok s' ∧ s'.Inv a' ∧
      Alike (s.documentForKey key) (s'.documentForKey key) := by
  have hsame : ∀ user, action ≠ .userDidChange user := by
    rintro user rfl
    exact hsettles.spares
  obtain ⟨s', a', rest, hrun, hleaves, hrewrites, hcomplete⟩ := h.leaves hsettles.inTurn hsame
  obtain ⟨released, hheld, -, hcache⟩ := hleaves.released
  have hmem : ∀ r ∈ released, r ∈ action.heldDuring s := by
    intro r hr
    rw [hheld]
    exact List.mem_append_left _ hr
  have hrest : (a' s'.user).batches = s'.heldBatchResults.map (·.batch) ++ rest := by
    rw [hleaves.inv.batches, hleaves.user, hleaves.unacknowledged]
  have hfound := Action.find?_cacheDuring hsettles.spares
  refine ⟨s', a', hrun, hleaves.inv, ?_⟩
  rw [h.documentForKey, hleaves.inv.documentForKey, hrest,
    h.viewWith_batches hsettles.spares hrewrites,
    hheld, List.map_append, List.append_assoc, ← hfound]
  refine released_alike (fun r hr => hcomplete r (hmem r hr))
    (fun r hr => hsettles.plain r (hmem r hr))
    (fun r hr => ?_) hcache (.refl _) _
  rw [hfound]
  exact hsettles.newer r (hmem r hr)

/-- **What the user sees.** From any state the store comes to by calls in turn: as long as there is
no news of a document, acknowledging its writes and releasing their results changes nothing of its
local view but the mark that it has local mutations. -/
theorem view_kept {s₀ s₁ s' : LocalStore V Q U}
    (h₀ : ∀ user, Represents (s₀.mutationQueues user) (a user))
    (hstart : s₀.startMutationQueue = .ok s₁) (h : (machine s₁).Reach Action.InTurn s)
    (hsettled : (machine s₁).Steps (fun s action => action.Settles s key) s s') :
    ∃ document document', s.documentForKey key = .ok document ∧
      s'.documentForKey key = .ok document' ∧ SameDocument document document' := by
  obtain ⟨s₁', a₁, hstart', hinv, -⟩ := startMutationQueue_ok h₀
  rw [hstart] at hstart'
  obtain rfl := Except.ok.inj hstart'
  obtain ⟨a', ha'⟩ := hinv.1.reach h
  obtain ⟨a'', -, halike⟩ : ∃ a'', s'.Inv a'' ∧
    Alike (s.documentForKey key) (s'.documentForKey key) := by
    refine hsettled.preserves (P := fun s' => ∃ a'', s'.Inv a'' ∧
      Alike (s.documentForKey key) (s'.documentForKey key)) ⟨a', ha', .refl _⟩ ?_
    rintro s₂ action s₃ ⟨a₂, h₂, halike⟩ hsettles hstep
    obtain ⟨s₃', a₃, hrun, h₃, hkept⟩ := h₂.settles hsettles
    rw [machine_step hrun] at hstep
    obtain rfl := Option.some.inj hstep
    exact ⟨a₃, h₃, halike.trans hkept⟩
  obtain ⟨document, hdocument⟩ := ha'.holdsInOrder.views key
  rw [hdocument] at halike ⊢
  generalize hview : s'.documentForKey key = x at halike
  cases halike with
  | ok hsame => exact ⟨_, _, rfl, rfl, hsame⟩

end Lawful

open MemoryMutationQueue in
/-- While a target is listened to, user 1 writes two documents. The server acknowledges the first
write at time 1; its result is held until the target has come to that time, and then released. -/
theorem view_kept_acknowledged : ∃ (key : DocumentKey)
    (s₁ s s' s'' : LocalStore Unit (MemoryMutationQueue Unit) Nat),
    (machine s₁).Reach Action.InTurn s ∧
    (machine s₁).Steps (fun s action => action.Settles s key) s s' ∧
    (machine s₁).Steps (fun s action => action.Settles s key) s' s'' ∧
    (MutationQueue.allMutationBatches s.mutationQueue).map (·.batchID) = [1, 2] ∧
    s'.heldBatchResults.map (·.commitVersion) = [1] ∧ s''.heldBatchResults = [] ∧
    (MutationQueue.allMutationBatches s''.mutationQueue).map (·.batchID) = [2] ∧
    ∃ document document', s.documentForKey key = .ok document ∧
      s''.documentForKey key = .ok document' ∧ SameDocument document document' := by
  let s₀ : LocalStore Unit (MemoryMutationQueue Unit) Nat :=
    { mutationQueues := fun _ => {}, user := 1 }
  let s₁ : LocalStore Unit (MemoryMutationQueue Unit) Nat :=
    { s₀ with mutationQueues := Function.update (fun _ => {}) 1 {} }
  let key : DocumentKey := userKey "u1"
  let r : MutationBatchResult Unit :=
    ⟨emptyDocument 1 "u1", 1, [⟨some 1, none⟩], none, SortedBy.insert ∅ (key, 1)⟩
  have h₀ : ∀ user, LawfulMutationQueue.Represents (s₀.mutationQueues user) .new :=
    fun _ => MemoryMutationQueue.represents_new
  have hstart : s₀.startMutationQueue = .ok s₁ := rfl
  have h₁ : (machine s₁).Reach Action.InTurn s₁ := Machine.Reach.init rfl
  have h₂ := h₁.step (a := Action.allocateQuery 1) (List.not_mem_nil : (1 : Int) ∉ []) rfl
  have h₃ := h₂.step (a := Action.locallyWriteMutations 0 (emptyDocument 1 "u1").mutations)
    ⟨List.cons_ne_nil _ _, (by decide : (1 : Int) < batchIDMax)⟩ rfl
  have h₄ := h₃.step (a := Action.locallyWriteMutations 0 (emptyDocument 2 "u2").mutations)
    ⟨List.cons_ne_nil _ _, (by decide : (2 : Int) < batchIDMax)⟩ rfl
  have hplain : ∀ r' ∈ [r], ∀ mutation ∈ r'.batch.mutations, mutation.key = key →
      mutation.IsPlain := by
    refine List.forall_mem_singleton.mpr fun mutation hmem _ => ?_
    obtain rfl := List.mem_singleton.mp hmem
    trivial
  have hnewer : ∀ r' ∈ [r], r'.NewerThan key none := by
    refine List.forall_mem_singleton.mpr fun p hp => ?_
    have hfound : r.docVersions.find? key = some (key, 1) := by
      rw [SortedBy.find?_insert, if_pos rfl]
    obtain rfl := Option.some.inj (hfound.symm.trans hp)
    exact ⟨one_pos, by rintro doc ⟨⟩⟩
  obtain ⟨s, s', s'', hreach, hheld, hevent, hbatches, hresults, hreleased, hbatches'⟩ :
      ∃ s s' s'', (machine s₁).Reach Action.InTurn s ∧
        (machine s₁).Steps (fun s action => action.Settles s key) s s' ∧
        (machine s₁).Steps (fun s action => action.Settles s key) s' s'' ∧
        (MutationQueue.allMutationBatches s.mutationQueue).map (·.batchID) = [1, 2] ∧
        s'.heldBatchResults.map (·.commitVersion) = [1] ∧ s''.heldBatchResults = [] ∧
        (MutationQueue.allMutationBatches s''.mutationQueue).map (·.batchID) = [2] :=
    ⟨_, _, _, h₄,
      Machine.Steps.single (a := Action.acknowledgeBatchWithResult r)
        ⟨⟨rfl, r.mutationResults, .cons rfl .nil, rfl⟩, trivial, hplain, hnewer⟩ rfl,
      Machine.Steps.single (a := Action.applyRemoteEvent ∅ 1)
        ⟨Or.inr (by decide), rfl, hplain, hnewer⟩ rfl, rfl, rfl, rfl, rfl⟩
  exact ⟨key, s₁, s, s', s'', hreach, hheld, hevent, hbatches, hresults, hreleased, hbatches',
    view_kept h₀ hstart hreach (hheld.trans hevent)⟩

end LocalStore

end P0ker.Firestore
