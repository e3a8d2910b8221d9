import P0ker.Firestore.LocalDocumentsView

/-!
# The Firestore client: the local store

The local store keeps, for the user who is signed in, the queue of writes on top of the cache of
what the server has sent. A write that the server has acknowledged is *held* in the queue until the
watched targets have caught up with the version it was committed at; only then is its result put
into the cache and the batch removed.

Each operation is first shown to keep the invariant `LocalStore.Inv`, and so not to fail any
assertion. The last section shows that a release of held writes does not change what the user sees.
-/

namespace P0ker.Firestore

variable {V Q U : Type}

/-- The targets that are listened to. -/
abbrev TargetIDs := SortedBy (fun targetID : Int => targetID)

/-- `FSTLocalStore`, with the queue that the persistence keeps for each user. -/
structure LocalStore (V Q U : Type) where
  mutationQueues : U → Q
  user : U
  remoteDocumentCache : RemoteDocumentCache V := ∅
  lastRemoteSnapshotVersion : SnapshotVersion := 0
  targetIDs : TargetIDs := ∅
  heldBatchResults : List (MutationBatchResult V) := []

namespace LocalStore

section Operations

variable [MutationQueue V Q] [DecidableEq U]

def mutationQueue (s : LocalStore V Q U) : Q :=
  s.mutationQueues s.user

def setMutationQueue (s : LocalStore V Q U) (queue : Q) : LocalStore V Q U :=
  { s with mutationQueues := Function.update s.mutationQueues s.user queue }

/-- The local documents. -/
def documentForKey (s : LocalStore V Q U) (key : DocumentKey) :
    Except String (Option (MaybeDocument V)) :=
  LocalDocumentsView.documentForKey s.remoteDocumentCache s.mutationQueue key

def documentsForKeys (s : LocalStore V Q U) (keys : DocumentKeySet) :
    Except String (MaybeDocumentDictionary V) :=
  LocalDocumentsView.documentsForKeys s.remoteDocumentCache s.mutationQueue keys

/-- The leftovers of a run before this one, which are acknowledged, are dropped. -/
def dropAcknowledged (queue : Q) : Except String Q :=
  let highestAck := MutationQueue.highestAcknowledgedBatchID queue
  if highestAck ≠ batchIDUnknown then
    match MutationQueue.allMutationBatchesThroughBatchID queue highestAck with
    | [] => return queue
    | batch :: batches => MutationQueue.removeMutationBatches queue (batch :: batches)
  else return queue

def startMutationQueue (s : LocalStore V Q U) : Except String (LocalStore V Q U) := do
  let queue ← MutationQueue.start s.mutationQueue
  let queue ← dropAcknowledged queue
  return { s.setMutationQueue queue with heldBatchResults := [] }

/-- The documents of these batches. -/
def keysOf (batches : List (MutationBatch V)) : DocumentKeySet :=
  batches.foldl (fun keys batch =>
    batch.mutations.foldl (fun keys mutation => keys.insert mutation.key) keys) ∅

/-- `userDidChange:` -/
def userDidChange (s : LocalStore V Q U) (user : U) :
    Except String (MaybeDocumentDictionary V × LocalStore V Q U) := do
  let oldBatches := MutationQueue.allMutationBatches s.mutationQueue
  let s ← startMutationQueue { s with user := user }
  let newBatches := MutationQueue.allMutationBatches s.mutationQueue
  return (← s.documentsForKeys (keysOf (oldBatches ++ newBatches)), s)

/-- `locallyWriteMutations:` -/
def locallyWriteMutations (s : LocalStore V Q U) (localWriteTime : Int)
    (mutations : List (Mutation V)) :
    Except String ((MutationBatch V × MaybeDocumentDictionary V) × LocalStore V Q U) := do
  let (batch, queue) ← MutationQueue.addMutationBatch s.mutationQueue localWriteTime mutations
  let s := s.setMutationQueue queue
  return ((batch, ← s.documentsForKeys batch.keys), s)

/-- `isRemoteUpToVersion:`; without targets there are no snapshots, and nothing to wait for. -/
def isRemoteUpToVersion (s : LocalStore V Q U) (version : SnapshotVersion) : Bool :=
  version ≤ s.lastRemoteSnapshotVersion || s.targetIDs.toList.isEmpty

/-- `shouldHoldBatchResultWithVersion:` -/
def shouldHoldBatchResult (s : LocalStore V Q U) (version : SnapshotVersion) : Bool :=
  !s.isRemoteUpToVersion version || !s.heldBatchResults.isEmpty

/-- What `applyBatchResult:` does for one document. -/
def applyResultTo (batchResult : MutationBatchResult V) (cache : RemoteDocumentCache V)
    (docKey : DocumentKey) : Except String (RemoteDocumentCache V) :=
  let remoteDoc := cache.find? docKey
  match batchResult.docVersions.find? docKey with
  | none => .error "docVersions should contain every doc in the write."
  | some (_, ackVersion) =>
      if remoteDoc.all (·.version < ackVersion) then do
        match ← batchResult.batch.applyTo remoteDoc docKey (some batchResult) with
        | none => do
            hardAssert (remoteDoc.isNone)
              "Mutation batch %s applied to document %s resulted in nil."
            return cache
        | some doc => return cache.insert doc
      else return cache

/-- `applyBatchResult:` -/
def applyBatchResult (cache : RemoteDocumentCache V) (batchResult : MutationBatchResult V) :
    Except String (RemoteDocumentCache V) :=
  batchResult.batch.keys.toList.foldlM (applyResultTo batchResult) cache

/-- `removeMutationBatches:` -/
def removeMutationBatches (s : LocalStore V Q U) (batches : List (MutationBatch V)) :
    Except String (DocumentKeySet × LocalStore V Q U) := do
  let queue ← MutationQueue.removeMutationBatches s.mutationQueue batches
  return (keysOf batches, s.setMutationQueue queue)

/-- `releaseBatchResults:` -/
def releaseBatchResults (s : LocalStore V Q U) (batchResults : List (MutationBatchResult V)) :
    Except String (DocumentKeySet × LocalStore V Q U) := do
  let cache ← batchResults.foldlM applyBatchResult s.remoteDocumentCache
  removeMutationBatches { s with remoteDocumentCache := cache } (batchResults.map (·.batch))

/-- `releaseHeldBatchResults` -/
def releaseHeldBatchResults (s : LocalStore V Q U) :
    Except String (DocumentKeySet × LocalStore V Q U) :=
  match s.heldBatchResults.takeWhile fun batchResult =>
      s.isRemoteUpToVersion batchResult.commitVersion with
  | [] => return (∅, s)
  | batchResult :: toRelease =>
      releaseBatchResults
        { s with heldBatchResults := s.heldBatchResults.drop (batchResult :: toRelease).length }
        (batchResult :: toRelease)

/-- The part of `acknowledgeBatchWithResult:` that holds a result, or releases it. -/
def holdOrRelease (s : LocalStore V Q U) (batchResult : MutationBatchResult V) :
    Except String (DocumentKeySet × LocalStore V Q U) :=
  if s.shouldHoldBatchResult batchResult.commitVersion then
    return (∅, { s with heldBatchResults := s.heldBatchResults ++ [batchResult] })
  else s.releaseBatchResults [batchResult]

/-- `acknowledgeBatchWithResult:` -/
def acknowledgeBatchWithResult (s : LocalStore V Q U) (batchResult : MutationBatchResult V) :
    Except String (MaybeDocumentDictionary V × LocalStore V Q U) := do
  let queue ← MutationQueue.acknowledgeBatch s.mutationQueue batchResult.batch
    batchResult.streamToken
  let (affected, s) ← holdOrRelease (s.setMutationQueue queue) batchResult
  MutationQueue.performConsistencyCheck s.mutationQueue
  return (← s.documentsForKeys affected, s)

/-- `rejectBatchID:` -/
def rejectBatchID (s : LocalStore V Q U) (batchID : Int) :
    Except String (MaybeDocumentDictionary V × LocalStore V Q U) := do
  match ← MutationQueue.lookupMutationBatch s.mutationQueue batchID with
  | none => .error "Attempt to reject nonexistent batch!"
  | some toReject => do
      let lastAcked := MutationQueue.highestAcknowledgedBatchID s.mutationQueue
      hardAssert (lastAcked < batchID) "Acknowledged batches can't be rejected."
      let (affected, s) ← s.removeMutationBatches [toReject]
      MutationQueue.performConsistencyCheck s.mutationQueue
      return (← s.documentsForKeys affected, s)

def setLastStreamToken (s : LocalStore V Q U) (streamToken : Option String) : LocalStore V Q U :=
  s.setMutationQueue (MutationQueue.setLastStreamToken s.mutationQueue streamToken)

def nextMutationBatchAfterBatchID (s : LocalStore V Q U) (batchID : Int) :
    Option (MutationBatch V) :=
  MutationQueue.nextMutationBatchAfterBatchID s.mutationQueue batchID

/-- What an event from the server does to one document: an older version is not taken, unless the
event is made up by the client and has none. -/
def applyDocumentUpdate (cache : RemoteDocumentCache V) (doc : MaybeDocument V) :
    RemoteDocumentCache V :=
  if (cache.find? doc.key).all fun existingDoc =>
      doc.version = 0 || existingDoc.version ≤ doc.version
  then cache.insert doc
  else cache

/-- The part of `applyRemoteEvent:` that takes over the version of the event; an event that is made
up has none. -/
def setLastRemoteSnapshotVersion (s : LocalStore V Q U) (remoteVersion : SnapshotVersion) :
    Except String (LocalStore V Q U) :=
  if remoteVersion ≠ 0 then do
    hardAssert (s.lastRemoteSnapshotVersion ≤ remoteVersion)
      "Watch stream reverted to previous snapshot?? (%s < %s)"
    return { s with lastRemoteSnapshotVersion := remoteVersion }
  else return s

/-- `applyRemoteEvent:`, for an event with these documents and this version. -/
def applyRemoteEvent (s : LocalStore V Q U) (documentUpdates : MaybeDocumentDictionary V)
    (remoteVersion : SnapshotVersion) :
    Except String (MaybeDocumentDictionary V × LocalStore V Q U) := do
  let s := { s with
    remoteDocumentCache := documentUpdates.toList.foldl applyDocumentUpdate s.remoteDocumentCache }
  let s ← s.setLastRemoteSnapshotVersion remoteVersion
  let (releasedWriteKeys, s) ← s.releaseHeldBatchResults
  let keysToRecalc := releasedWriteKeys.toList.foldl SortedBy.insert
    (documentUpdates.toList.foldl (fun keys doc => SortedBy.insert keys doc.key) ∅)
  return (← s.documentsForKeys keysToRecalc, s)

/-- `allocateQuery:`, for the query with this target. -/
def allocateQuery (s : LocalStore V Q U) (targetID : Int) : Except String (LocalStore V Q U) := do
  hardAssert (targetID ∉ s.targetIDs.toList) "Tried to allocate an already allocated query: %s"
  return { s with targetIDs := s.targetIDs.insert targetID }

/-- `releaseQuery:`, for a query the query cache knows, with this target. -/
def releaseQuery (s : LocalStore V Q U) (targetID : Int) : Except String (LocalStore V Q U) := do
  let s := { s with targetIDs := s.targetIDs.erase targetID }
  if s.targetIDs.toList.isEmpty then
    let (_, s) ← s.releaseHeldBatchResults
    return s
  else return s

/-- `collectGarbage`, for what the garbage collector returns. -/
def collectGarbage (s : LocalStore V Q U) (garbage : List DocumentKey) : LocalStore V Q U :=
  { s with remoteDocumentCache := garbage.foldl SortedBy.erase s.remoteDocumentCache }

end Operations

/-! ## Results -/

section Results

variable {r : MutationBatchResult V} {key : DocumentKey} {document : Option (MaybeDocument V)}

/-- What the result of a batch makes of one of its documents; a version that is as new is not
touched. -/
def settle (r : MutationBatchResult V) (key : DocumentKey) (document : Option (MaybeDocument V)) :
    Except String (Option (MaybeDocument V)) :=
  match r.docVersions.find? key with
  | none => .error "docVersions should contain every doc in the write."
  | some (_, ackVersion) =>
      if document.all (·.version < ackVersion) then r.batch.applyTo document key (some r)
      else .ok document

theorem settle_ok (hr : r.Complete) (hmutates : r.batch.Mutates key) (hkey : KeyedAt key document) :
    ∃ document', settle r key document = .ok document' ∧ KeyedAt key document' ∧
      (document.isSome → document'.isSome) := by
  obtain ⟨⟨key', version⟩, hversion⟩ := Option.ne_none_iff_exists'.mp (hr.versions key hmutates)
  simp only [settle, hversion]
  split
  · refine r.batch.applyTo_ok hkey fun r' hr' => ?_
    obtain rfl := Option.some.inj hr'
    exact hr.answered
  · exact ⟨document, rfl, hkey, id⟩

/-- One document of the batch is settled, the others are left as they are. -/
theorem applyResultTo_ok (hr : r.Complete) (hmutates : r.batch.Mutates key)
    (cache : RemoteDocumentCache V) :
    ∃ cache', applyResultTo r cache key = .ok cache' ∧
      settle r key (cache.find? key) = .ok (cache'.find? key) ∧
      ∀ key', key' ≠ key → cache'.find? key' = cache.find? key' := by
  obtain ⟨document, hsettle, hdocument, hsome⟩ :=
    settle_ok hr hmutates (LocalDocumentsView.keyedAt_find? cache key)
  obtain ⟨⟨key', version⟩, hversion⟩ := Option.ne_none_iff_exists'.mp (hr.versions key hmutates)
  rw [hsettle]
  simp only [settle, hversion] at hsettle
  simp only [applyResultTo, hversion]
  split at hsettle
  · next hold =>
      rw [if_pos hold, hsettle, ok_bind]
      cases document with
      | none =>
          have hnone : cache.find? key = none := by
            rcases hcached : cache.find? key with _ | doc
            · rfl
            · rw [hcached] at hsome
              cases hsome rfl
          refine ⟨cache, ?_, congrArg _ hnone.symm, fun _ _ => rfl⟩
          rw [hardAssert_pos (by rw [hnone]; rfl)]
          rfl
      | some doc =>
          have hdocKey : doc.key = key := hdocument doc rfl
          refine ⟨cache.insert doc, rfl, ?_, fun key' hne => ?_⟩
          · rw [SortedBy.find?_insert, if_pos hdocKey]
          · rw [SortedBy.find?_insert, if_neg fun heq => hne (heq.symm.trans hdocKey)]
  · next hold =>
      rw [if_neg hold]
      exact ⟨cache, rfl, hsettle.symm, fun _ _ => rfl⟩

/-- The result of a batch is put into the cache document by document. -/
theorem applyBatchResult_ok (hr : r.Complete) (cache : RemoteDocumentCache V) :
    ∃ cache', applyBatchResult cache r = .ok cache' ∧ ∀ key,
      (if r.batch.Mutates key then settle r key (cache.find? key) else .ok (cache.find? key)) =
        .ok (cache'.find? key) := by
  have hloop : ∀ (keys : List DocumentKey) (cache : RemoteDocumentCache V), keys.Nodup →
      (∀ key ∈ keys, r.batch.Mutates key) →
      ∃ cache', keys.foldlM (applyResultTo r) cache = .ok cache' ∧ ∀ key,
        (if key ∈ keys then settle r key (cache.find? key) else .ok (cache.find? key)) =
          .ok (cache'.find? key) := by
    intro keys
    induction keys with
    | nil => exact fun cache _ _ => ⟨cache, rfl, fun _ => rfl⟩
    | cons docKey keys ih =>
        intro cache hnodup hall
        obtain ⟨hnot, hnodup⟩ := List.nodup_cons.mp hnodup
        obtain ⟨hmutates, hall⟩ := List.forall_mem_cons.mp hall
        obtain ⟨cache₁, hstep, hsettle, hothers⟩ := applyResultTo_ok hr hmutates cache
        obtain ⟨cache', hrest, hcache'⟩ := ih cache₁ hnodup hall
        refine ⟨cache', ?_, fun key => ?_⟩
        · rw [List.foldlM_cons, hstep]
          exact hrest
        · have hlater := hcache' key
          by_cases heq : key = docKey
          · subst heq
            rw [if_neg hnot] at hlater
            rw [if_pos List.mem_cons_self, hsettle, hlater]
          · rw [hothers key heq] at hlater
            rw [← hlater]
            simp only [List.mem_cons, heq, false_or]
  have hnodup : r.batch.keys.toList.Nodup := r.batch.keys.sorted.imp ne_of_lt
  obtain ⟨cache', hrun, hcache'⟩ := hloop r.batch.keys.toList cache hnodup fun key hkey =>
    MutationBatch.mem_keys.mp hkey
  refine ⟨cache', hrun, fun key => ?_⟩
  rw [← hcache' key]
  exact if_congr MutationBatch.mem_keys.symm rfl rfl

/-- The results of batches are put into the cache one after the other. -/
theorem applyBatchResults_ok {results : List (MutationBatchResult V)}
    (h : ∀ r ∈ results, r.Complete) (cache : RemoteDocumentCache V) :
    ∃ cache', results.foldlM applyBatchResult cache = .ok cache' := by
  induction results generalizing cache with
  | nil => exact ⟨cache, rfl⟩
  | cons r results ih =>
      obtain ⟨hr, hlater⟩ := List.forall_mem_cons.mp h
      obtain ⟨cache₁, hstep, -⟩ := applyBatchResult_ok hr cache
      obtain ⟨cache', hrest⟩ := ih hlater cache₁
      refine ⟨cache', ?_⟩
      rw [List.foldlM_cons, hstep]
      exact hrest

end Results

/-! ## The invariant -/

section Lawful

open LawfulMutationQueue

variable [MutationQueue V Q] [LawfulMutationQueue V Q] [DecidableEq U] {s : LocalStore V Q U}
  {a : U → Outbox V} {r : MutationBatchResult V}

/-- Every queue stands for an outbox; the results that are held are those of the batches that are
acknowledged and still there; and the watched targets have not caught up with the first of them. -/
structure Inv (s : LocalStore V Q U) (a : U → Outbox V) : Prop where
  represents : ∀ user, Represents (s.mutationQueues user) (a user)
  held : s.heldBatchResults.map (·.batch) = (a s.user).held
  complete : ∀ r ∈ s.heldBatchResults, r.Complete
  behind : ∀ r ∈ s.heldBatchResults.head?, ¬ s.isRemoteUpToVersion r.commitVersion

/-- What an operation of the user leaves: these batches are not acknowledged, and of these results
the first are released into this cache, with which the watched targets have caught up. -/
structure Leaves (s s' : LocalStore V Q U) (a a' : U → Outbox V) (cache : RemoteDocumentCache V)
    (held : List (MutationBatchResult V)) (unacknowledged : List (MutationBatch V)) : Prop where
  inv : s'.Inv a'
  user : s'.user = s.user
  others : ∀ user, user ≠ s.user → a' user = a user
  unacknowledged : (a' s.user).unacknowledged = unacknowledged
  issued : (a s.user).issued ≤ (a' s.user).issued
  released : ∃ released, held = released ++ s'.heldBatchResults ∧
    (∀ r ∈ released, s'.isRemoteUpToVersion r.commitVersion) ∧
    released.foldlM applyBatchResult cache = .ok s'.remoteDocumentCache

theorem represents_setMutationQueue (h : ∀ user, Represents (s.mutationQueues user) (a user))
    {queue : Q} {outbox : Outbox V} (hqueue : Represents queue outbox) (user : U) :
    Represents ((s.setMutationQueue queue).mutationQueues user)
      (Function.update a s.user outbox user) := by
  rw [setMutationQueue]
  by_cases heq : user = s.user
  · subst heq
    simpa using hqueue
  · simpa [heq] using h user

omit [MutationQueue V Q] [LawfulMutationQueue V Q] in
@[simp] theorem mutationQueue_setMutationQueue (queue : Q) :
    (s.setMutationQueue queue).mutationQueue = queue :=
  Function.update_self _ _ _

omit [DecidableEq U] in
theorem Inv.documentsForKeys (h : s.Inv a) (keys : DocumentKeySet) :
    ∃ docs, s.documentsForKeys keys = .ok docs :=
  LocalDocumentsView.documentsForKeys_ok (h.represents s.user) s.remoteDocumentCache keys

/-! ## Operations -/

/-- Results are released that are those of the oldest batches. -/
theorem releaseBatchResults_ok (h : ∀ user, Represents (s.mutationQueues user) (a user))
    {results : List (MutationBatchResult V)} (hne : results ≠ [])
    (hcomplete : ∀ r ∈ results, r.Complete) {rest : List (MutationBatch V)}
    (hheld : (a s.user).held = results.map (·.batch) ++ rest) :
    ∃ cache queue, results.foldlM applyBatchResult s.remoteDocumentCache = .ok cache ∧
      s.releaseBatchResults results = .ok (keysOf (results.map (·.batch)),
        { s.setMutationQueue queue with remoteDocumentCache := cache }) ∧
      Represents queue ((a s.user).remove (results.map (·.batch))) := by
  obtain ⟨cache, hcache⟩ := applyBatchResults_ok hcomplete s.remoteDocumentCache
  have hpart : results.map (·.batch) <:+: (a s.user).batches := by
    refine ⟨[], rest ++ (a s.user).unacknowledged, ?_⟩
    rw [List.nil_append, ← List.append_assoc, ← hheld, Outbox.held_append_unacknowledged]
  obtain ⟨queue, hqueue, hrepresents⟩ := removeMutationBatches_ok (h s.user)
    (fun hnil => hne (List.map_eq_nil_iff.mp hnil)) hpart
  refine ⟨cache, queue, hcache, ?_, hrepresents⟩
  simp only [releaseBatchResults, hcache, ok_bind, removeMutationBatches, mutationQueue, hqueue]
  rfl

/-- The results that the targets have caught up with are released. -/
theorem releaseHeldBatchResults_ok (h : ∀ user, Represents (s.mutationQueues user) (a user))
    (hheld : s.heldBatchResults.map (·.batch) = (a s.user).held)
    (hcomplete : ∀ r ∈ s.heldBatchResults, r.Complete) :
    ∃ keys s' a', s.releaseHeldBatchResults = .ok (keys, s') ∧
      Leaves s s' a a' s.remoteDocumentCache s.heldBatchResults (a s.user).unacknowledged := by
  let upTo : MutationBatchResult V → Bool := fun r => s.isRemoteUpToVersion r.commitVersion
  have hsplit : s.heldBatchResults.takeWhile upTo ++ s.heldBatchResults.dropWhile upTo =
      s.heldBatchResults := List.takeWhile_append_dropWhile
  have hdrop : s.heldBatchResults.drop (s.heldBatchResults.takeWhile upTo).length =
      s.heldBatchResults.dropWhile upTo := by
    have hleft : (s.heldBatchResults.takeWhile upTo ++ s.heldBatchResults.dropWhile upTo).drop
        (s.heldBatchResults.takeWhile upTo).length = s.heldBatchResults.dropWhile upTo :=
          List.drop_left
    rwa [hsplit] at hleft
  have hbehind : ∀ r ∈ (s.heldBatchResults.dropWhile upTo).head?, ¬ upTo r := by
    intro r hr
    have hnot := List.head?_dropWhile_not upTo s.heldBatchResults
    rw [Option.mem_def.mp hr] at hnot
    simpa using hnot
  have hreleased : ∀ r ∈ s.heldBatchResults.takeWhile upTo, upTo r := fun r hr =>
    List.mem_takeWhile_imp hr
  rw [releaseHeldBatchResults]
  split
  · next hnone =>
      have hnone : s.heldBatchResults.takeWhile upTo = [] := hnone
      rw [hnone, List.nil_append] at hsplit
      rw [hsplit] at hbehind
      exact ⟨∅, s, a, rfl, ⟨h, hheld, hcomplete, hbehind⟩, rfl, fun _ _ => rfl, rfl, le_rfl, [],
        rfl, List.forall_mem_nil _, rfl⟩
  · next first rest hsome =>
      have hsome : s.heldBatchResults.takeWhile upTo = first :: rest := hsome
      rw [hsome] at hsplit hdrop hreleased
      rw [hdrop]
      have hcompleteFirst : ∀ r ∈ first :: rest, r.Complete := fun r hr => by
        refine hcomplete r ?_
        rw [← hsplit]
        exact List.mem_append_left _ hr
      have hheld' : (a s.user).held =
          (first :: rest).map (·.batch) ++ (s.heldBatchResults.dropWhile upTo).map (·.batch) := by
        rw [← hheld, ← List.map_append, hsplit]
      obtain ⟨cache, queue, hcache, hrun, hqueue⟩ := releaseBatchResults_ok
        (s := { s with heldBatchResults := s.heldBatchResults.dropWhile upTo }) h
        (List.cons_ne_nil first rest) hcompleteFirst hheld'
      obtain ⟨hheldLeft, hunacknowledged⟩ := Outbox.remove_held_parts hheld'
      refine ⟨_, _, Function.update a s.user ((a s.user).remove ((first :: rest).map (·.batch))),
        hrun, ⟨?_, ?_, ?_, hbehind⟩, rfl, ?_, ?_, ?_, first :: rest, hsplit.symm, hreleased,
          hcache⟩
      · exact represents_setMutationQueue h hqueue
      · show (s.heldBatchResults.dropWhile upTo).map (·.batch) =
          (Function.update a s.user _ s.user).held
        rw [Function.update_self, hheldLeft]
      · exact fun r hr => hcomplete r ((List.dropWhile_sublist upTo).subset hr)
      · exact fun user hne => Function.update_of_ne hne _ _
      · rw [Function.update_self, hunacknowledged]
      · rw [Function.update_self]
        exact le_rfl

omit [DecidableEq U] in
/-- What is dropped is all that is held. -/
theorem dropAcknowledged_ok {q : Q} {a : Outbox V} (h : Represents q a) :
    ∃ q' a', dropAcknowledged q = .ok q' ∧ Represents q' a' ∧ a'.held = [] ∧
      a'.unacknowledged = a.unacknowledged := by
  rw [dropAcknowledged, highestAcknowledgedBatchID_eq h,
    allMutationBatchesThroughBatchID_eq h a.isBatchID_acknowledged]
  split
  · split
    · next hnone => exact ⟨q, a, rfl, h, hnone, rfl⟩
    · next batch batches hsome =>
        have hall : a.held = (batch :: batches) ++ [] := by
          rw [List.append_nil]
          exact hsome
        have hpart : batch :: batches <:+: a.batches :=
          ⟨[], a.unacknowledged, by
            rw [List.nil_append, ← hsome]
            exact a.held_append_unacknowledged⟩
        obtain ⟨q', hremove, h'⟩ := removeMutationBatches_ok h (List.cons_ne_nil _ _) hpart
        obtain ⟨hheld, hrest⟩ := Outbox.remove_held_parts hall
        exact ⟨q', _, hremove, h', hheld, hrest⟩
  · next hunknown =>
      refine ⟨q, a, rfl, h, List.filter_eq_nil_iff.mpr fun b hb => ?_, rfl⟩
      have hknown := a.known b hb
      rw [← not_not.mp hunknown] at hknown
      simpa using hknown

/-- A queue that is started has no acknowledged batches. -/
theorem startMutationQueue_ok (h : ∀ user, Represents (s.mutationQueues user) (a user)) :
    ∃ s' a', s.startMutationQueue = .ok s' ∧ (s'.Inv a' ∧ s'.heldBatchResults = []) ∧
      s'.user = s.user ∧ (∀ user, user ≠ s.user → a' user = a user) ∧
      (a' s.user).unacknowledged = (a s.user).unacknowledged := by
  obtain ⟨q₁, a₁, hstart, h₁, hbatches, hacknowledged⟩ := start_ok (h s.user)
  have hunacknowledged : a₁.unacknowledged = (a s.user).unacknowledged := by
    rw [Outbox.unacknowledged, Outbox.unacknowledged, hbatches]
    rcases hacknowledged with hsame | ⟨hnone, -⟩
    · rw [hsame]
    · rw [hnone]
      rfl
  obtain ⟨q₂, a₂, hdrop, h₂, hheld, hrest⟩ := dropAcknowledged_ok h₁
  refine ⟨{ s.setMutationQueue q₂ with heldBatchResults := [] }, Function.update a s.user a₂, ?_,
    ⟨⟨?_, ?_, List.forall_mem_nil _, ?_⟩, rfl⟩, rfl,
      fun user hne => Function.update_of_ne hne _ _, ?_⟩
  · simp only [startMutationQueue, mutationQueue, hstart, ok_bind, hdrop]
    rfl
  · exact represents_setMutationQueue h h₂
  · show [] = (Function.update a s.user a₂ s.user).held
    rw [Function.update_self, hheld]
  · rintro r ⟨⟩
  · rw [Function.update_self, hrest, hunacknowledged]

/-- The queue of the new user is started. -/
theorem userDidChange_ok (h : s.Inv a) (user : U) :
    ∃ docs s' a', s.userDidChange user = .ok (docs, s') ∧
      (s'.Inv a' ∧ s'.heldBatchResults = []) ∧ s'.user = user ∧
      (∀ u, u ≠ user → a' u = a u) ∧ (a' user).unacknowledged = (a user).unacknowledged := by
  obtain ⟨s', a', hstart, hinv, huser, hothers, hrest⟩ :=
    startMutationQueue_ok (s := { s with user := user }) h.represents
  obtain ⟨docs, hdocs⟩ := hinv.1.documentsForKeys (keysOf
    (MutationQueue.allMutationBatches s.mutationQueue ++
      MutationQueue.allMutationBatches s'.mutationQueue))
  refine ⟨docs, s', a', ?_, hinv, huser, hothers, hrest⟩
  simp only [userDidChange, hstart, ok_bind, hdocs]
  rfl

/-- A batch that is written comes last. -/
theorem locallyWriteMutations_ok (h : s.Inv a) (localWriteTime : Int)
    {mutations : List (Mutation V)} (hne : mutations ≠ []) (hroom : HasRoom s.mutationQueue) :
    ∃ batch docs s' a', s.locallyWriteMutations localWriteTime mutations = .ok ((batch, docs), s') ∧
      Leaves s s' a a' s.remoteDocumentCache s.heldBatchResults
        ((a s.user).unacknowledged ++ [batch]) ∧
      batch = ⟨batch.batchID, localWriteTime, mutations⟩ ∧ (a s.user).issued < batch.batchID := by
  obtain ⟨batchID, queue, hissued, hlast, hadd, hqueue⟩ :=
    addMutationBatch_ok localWriteTime (h.represents s.user) hroom hne
  obtain ⟨hheld, hrest⟩ :=
    Outbox.add_parts (b := ⟨batchID, localWriteTime, mutations⟩) hne hissued hlast
  have hinv : (s.setMutationQueue queue).Inv (Function.update a s.user
      ((a s.user).add ⟨batchID, localWriteTime, mutations⟩ hne hissued hlast)) := by
    refine ⟨represents_setMutationQueue h.represents hqueue, ?_, h.complete, h.behind⟩
    show s.heldBatchResults.map (·.batch) = (Function.update a s.user _ s.user).held
    rw [Function.update_self, hheld, h.held]
  obtain ⟨docs, hdocs⟩ := hinv.documentsForKeys
    (MutationBatch.keys ⟨batchID, localWriteTime, mutations⟩)
  refine ⟨⟨batchID, localWriteTime, mutations⟩, docs, s.setMutationQueue queue, _, ?_,
    ⟨hinv, rfl, fun user hne => Function.update_of_ne hne _ _, ?_, ?_, [], rfl,
      List.forall_mem_nil _, rfl⟩, rfl, hissued⟩
  · simp only [locallyWriteMutations, mutationQueue, hadd, ok_bind, hdocs]
    rfl
  · rw [Function.update_self, hrest]
  · rw [Function.update_self]
    exact hissued.le

omit [DecidableEq U] in
theorem Leaves.of_frame {s₁ s' : LocalStore V Q U} {a₁ a' : U → Outbox V}
    {cache : RemoteDocumentCache V} {held : List (MutationBatchResult V)}
    {unacknowledged : List (MutationBatch V)} (h : Leaves s₁ s' a₁ a' cache held unacknowledged)
    (huser : s₁.user = s.user) (hothers : ∀ user, user ≠ s.user → a₁ user = a user)
    (hissued : (a s.user).issued ≤ (a₁ s.user).issued) :
    Leaves s s' a a' cache held unacknowledged where
  inv := h.inv
  user := h.user.trans huser
  others := fun user hne => (h.others user (huser ▸ hne)).trans (hothers user hne)
  unacknowledged := huser ▸ h.unacknowledged
  issued := hissued.trans (huser ▸ h.issued)
  released := h.released

/-- A result that follows those that are held is held after them, or released. -/
theorem holdOrRelease_ok (h : ∀ user, Represents (s.mutationQueues user) (a user)) (hr : r.Complete)
    (hheld : (a s.user).held = s.heldBatchResults.map (·.batch) ++ [r.batch])
    (hcomplete : ∀ r ∈ s.heldBatchResults, r.Complete)
    (hbehind : ∀ r ∈ s.heldBatchResults.head?, ¬ s.isRemoteUpToVersion r.commitVersion) :
    ∃ keys s' a', s.holdOrRelease r = .ok (keys, s') ∧
      Leaves s s' a a' s.remoteDocumentCache (s.heldBatchResults ++ [r])
        (a s.user).unacknowledged := by
  rw [holdOrRelease]
  split
  · next hhold =>
      refine ⟨∅, { s with heldBatchResults := s.heldBatchResults ++ [r] }, a, rfl,
        ⟨h, ?_, ?_, ?_⟩, rfl, fun _ _ => rfl, rfl, le_rfl, [], rfl, List.forall_mem_nil _, rfl⟩
      · rw [hheld, List.map_append]
        rfl
      · exact List.forall_mem_append.mpr ⟨hcomplete, List.forall_mem_singleton.mpr hr⟩
      · intro r' hr'
        rw [List.head?_append] at hr'
        cases hfirst : s.heldBatchResults.head? with
        | none =>
            rw [hfirst] at hr'
            obtain rfl := Option.some.inj hr'
            have hnil := List.head?_eq_none_iff.mp hfirst
            have hbehind : ¬ s.isRemoteUpToVersion r.commitVersion := by
              simpa [shouldHoldBatchResult, hnil] using hhold
            exact hbehind
        | some first =>
            rw [hfirst] at hr'
            obtain rfl := Option.some.inj hr'
            exact hbehind first hfirst
  · next hhold =>
      obtain ⟨hupTo, hnil⟩ : s.isRemoteUpToVersion r.commitVersion ∧ s.heldBatchResults = [] := by
        simpa [shouldHoldBatchResult] using hhold
      have hall : (a s.user).held = [r].map (·.batch) ++ [] := by
        rw [hheld, hnil]
        rfl
      obtain ⟨cache, queue, hcache, hrun, hqueue⟩ :=
        releaseBatchResults_ok h (List.cons_ne_nil r [])
        (List.forall_mem_singleton.mpr hr) hall
      obtain ⟨hheldLeft, hunacknowledged⟩ := Outbox.remove_held_parts hall
      refine ⟨_, _, Function.update a s.user ((a s.user).remove ([r].map (·.batch))), hrun,
        ⟨represents_setMutationQueue h hqueue, ?_, ?_, ?_⟩, rfl,
        fun user hne => Function.update_of_ne hne _ _, ?_, ?_, [r], ?_,
        List.forall_mem_singleton.mpr hupTo, hcache⟩
      · show s.heldBatchResults.map (·.batch) = (Function.update a s.user _ s.user).held
        rw [Function.update_self, hheldLeft, hnil]
        rfl
      · exact hcomplete
      · exact hbehind
      · rw [Function.update_self, hunacknowledged]
      · rw [Function.update_self]
        exact le_rfl
      · show s.heldBatchResults ++ [r] = [r] ++ s.heldBatchResults
        rw [hnil]
        rfl

/-- The first batch that is not acknowledged is acknowledged. -/
theorem acknowledgeBatchWithResult_ok (h : s.Inv a) (hr : r.Complete)
    {rest : List (MutationBatch V)} (hfirst : (a s.user).unacknowledged = r.batch :: rest) :
    ∃ docs s' a', s.acknowledgeBatchWithResult r = .ok (docs, s') ∧
      Leaves s s' a a' s.remoteDocumentCache (s.heldBatchResults ++ [r]) rest := by
  have hmem : r.batch ∈ (a s.user).unacknowledged := by
    rw [hfirst]
    exact List.mem_cons_self
  obtain ⟨hbatch, hlater⟩ := Outbox.mem_unacknowledged.mp hmem
  obtain ⟨queue, hack, hqueue⟩ : ∃ queue,
      MutationQueue.acknowledgeBatch (s.mutationQueues s.user) r.batch r.streamToken = .ok queue ∧
        Represents queue ((a s.user).acknowledge r.batch hbatch) :=
    acknowledgeBatch_ok (h.represents s.user) hbatch hlater
  obtain ⟨hheld, hrest⟩ := Outbox.acknowledge_parts hfirst hbatch
  have hsame : ∀ outbox : Outbox V,
      Function.update a s.user outbox (s.setMutationQueue queue).user = outbox :=
    fun outbox => Function.update_self _ _ _
  obtain ⟨keys, s', a', hrun, hleaves⟩ := holdOrRelease_ok (s := s.setMutationQueue queue)
    (represents_setMutationQueue h.represents hqueue) hr (by rw [hsame, hheld, ← h.held]; rfl)
    h.complete h.behind
  rw [hsame, hrest] at hleaves
  obtain ⟨docs, hdocs⟩ := hleaves.inv.documentsForKeys keys
  refine ⟨docs, s', a', ?_, hleaves.of_frame rfl (fun user hne => Function.update_of_ne hne _ _) ?_⟩
  · have hcheck : MutationQueue.performConsistencyCheck s'.mutationQueue = .ok () :=
      performConsistencyCheck_ok (hleaves.inv.represents s'.user)
    simp only [acknowledgeBatchWithResult, mutationQueue, hack, ok_bind, hrun]
    rw [mutationQueue] at hcheck
    rw [hcheck, ok_bind, hdocs]
    rfl
  · rw [Function.update_self]
    exact le_rfl

/-- The first batch that is not acknowledged is rejected. -/
theorem rejectBatchID_ok (h : s.Inv a) {batch : MutationBatch V} {rest : List (MutationBatch V)}
    (hfirst : (a s.user).unacknowledged = batch :: rest) :
    ∃ docs s' a', s.rejectBatchID batch.batchID = .ok (docs, s') ∧
      Leaves s s' a a' s.remoteDocumentCache s.heldBatchResults rest := by
  have hmem : batch ∈ (a s.user).unacknowledged := by
    rw [hfirst]
    exact List.mem_cons_self
  obtain ⟨hbatch, hlater⟩ := Outbox.mem_unacknowledged.mp hmem
  have hpart : [batch] <:+: (a s.user).batches := by
    refine ⟨(a s.user).held, rest, ?_⟩
    rw [List.append_assoc, List.singleton_append, ← hfirst, Outbox.held_append_unacknowledged]
  obtain ⟨queue, hremove, hqueue⟩ :=
    removeMutationBatches_ok (h.represents s.user) (List.cons_ne_nil batch []) hpart
  obtain ⟨hheld, hrest⟩ := Outbox.remove_first_parts hfirst
  have hinv : (s.setMutationQueue queue).Inv
      (Function.update a s.user ((a s.user).remove [batch])) := by
    refine ⟨represents_setMutationQueue h.represents hqueue, ?_, h.complete, h.behind⟩
    show s.heldBatchResults.map (·.batch) = (Function.update a s.user _ s.user).held
    rw [Function.update_self, hheld, h.held]
  obtain ⟨docs, hdocs⟩ := hinv.documentsForKeys (keysOf [batch])
  refine ⟨docs, s.setMutationQueue queue, _, ?_,
    ⟨hinv, rfl, fun user hne => Function.update_of_ne hne _ _, ?_, ?_, [], rfl,
      List.forall_mem_nil _, rfl⟩⟩
  · simp only [rejectBatchID, mutationQueue,
      lookupMutationBatch_ok (h.represents s.user) (Outbox.isBatchID hbatch),
        Outbox.lookup_of_mem hbatch, ok_bind, highestAcknowledgedBatchID_eq (h.represents s.user),
      hardAssert_pos hlater, removeMutationBatches, hremove]
    have hcheck : MutationQueue.performConsistencyCheck (s.setMutationQueue queue).mutationQueue =
        .ok () := by
      rw [mutationQueue_setMutationQueue]
      exact performConsistencyCheck_ok hqueue
    rw [mutationQueue] at hcheck
    simp only [pure_eq_ok, ok_bind, hcheck, hdocs]
  · rw [Function.update_self, hrest]
  · rw [Function.update_self]
    exact le_rfl

theorem setLastStreamToken_inv (h : s.Inv a) (streamToken : Option String) :
    (s.setLastStreamToken streamToken).Inv a := by
  refine ⟨fun user => ?_, h.held, h.complete, h.behind⟩
  have htoken := represents_setMutationQueue h.represents
    (setLastStreamToken_ok streamToken (h.represents s.user)) user
  rwa [Function.update_eq_self] at htoken

/-- An event of the server that is not older than the last one. -/
theorem applyRemoteEvent_ok (h : s.Inv a) (documentUpdates : MaybeDocumentDictionary V)
    {remoteVersion : SnapshotVersion}
    (hversion : remoteVersion = 0 ∨ s.lastRemoteSnapshotVersion ≤ remoteVersion) :
    ∃ docs s' a', s.applyRemoteEvent documentUpdates remoteVersion = .ok (docs, s') ∧
      Leaves s s' a a' (documentUpdates.toList.foldl applyDocumentUpdate s.remoteDocumentCache)
        s.heldBatchResults (a s.user).unacknowledged := by
  obtain ⟨s₁, hset, hqueues, huser, hcache, hheld⟩ : ∃ s₁ : LocalStore V Q U,
      setLastRemoteSnapshotVersion { s with
        remoteDocumentCache :=
          documentUpdates.toList.foldl applyDocumentUpdate s.remoteDocumentCache }
        remoteVersion = .ok s₁ ∧ s₁.mutationQueues = s.mutationQueues ∧ s₁.user = s.user ∧
      s₁.remoteDocumentCache = documentUpdates.toList.foldl applyDocumentUpdate
        s.remoteDocumentCache ∧
      s₁.heldBatchResults = s.heldBatchResults := by
    rw [setLastRemoteSnapshotVersion]
    split
    · next hne =>
        rw [hardAssert_pos (hversion.resolve_left hne)]
        exact ⟨_, rfl, rfl, rfl, rfl, rfl⟩
    · exact ⟨_, rfl, rfl, rfl, rfl, rfl⟩
  obtain ⟨keys, s', a', hrun, hleaves⟩ := releaseHeldBatchResults_ok (s := s₁) (a := a)
    (fun user => by rw [hqueues]; exact h.represents user) (by rw [hheld, huser]; exact h.held)
    (by rw [hheld]; exact h.complete)
  rw [hcache, hheld, huser] at hleaves
  obtain ⟨docs, hdocs⟩ := hleaves.inv.documentsForKeys (keys.toList.foldl SortedBy.insert
    (documentUpdates.toList.foldl (fun keys doc => SortedBy.insert keys doc.key) ∅))
  refine ⟨docs, s', a', ?_, hleaves.of_frame huser (fun _ _ => rfl) le_rfl⟩
  simp only [applyRemoteEvent, hset, ok_bind, hrun, hdocs]
  rfl

omit [DecidableEq U] in
/-- A target is added; what waits for the targets waits on. -/
theorem allocateQuery_ok (h : s.Inv a) {targetID : Int} (hnew : targetID ∉ s.targetIDs.toList) :
    ∃ s', s.allocateQuery targetID = .ok s' ∧
      Leaves s s' a a s.remoteDocumentCache s.heldBatchResults (a s.user).unacknowledged := by
  refine ⟨{ s with targetIDs := s.targetIDs.insert targetID }, ?_,
    ⟨h.represents, h.held, h.complete, ?_⟩,
    rfl, fun _ _ => rfl, rfl, le_rfl, [], rfl, List.forall_mem_nil _, rfl⟩
  · rw [allocateQuery, hardAssert_pos hnew]
    rfl
  · intro r hr hupTo
    have hbehind := h.behind r hr
    have hmem : targetID ∈ (s.targetIDs.insert targetID).toList :=
      SortedBy.mem_insert.mpr (Or.inl rfl)
    have hsome : (s.targetIDs.insert targetID).toList.isEmpty = false :=
      List.isEmpty_eq_false_iff.mpr (List.ne_nil_of_mem hmem)
    simp only [isRemoteUpToVersion, hsome, Bool.or_false] at hupTo
    simp only [isRemoteUpToVersion, hupTo, Bool.true_or, not_true_eq_false] at hbehind

/-- A target is taken away; after the last one nothing is waited for. -/
theorem releaseQuery_ok (h : s.Inv a) (targetID : Int) :
    ∃ s' a', s.releaseQuery targetID = .ok s' ∧
      Leaves s s' a a' s.remoteDocumentCache s.heldBatchResults (a s.user).unacknowledged := by
  rw [releaseQuery]
  split
  · next hempty =>
      obtain ⟨keys, s', a', hrun, hleaves⟩ := releaseHeldBatchResults_ok
        (s := { s with targetIDs := s.targetIDs.erase targetID }) h.represents h.held h.complete
      refine ⟨s', a', ?_, hleaves.of_frame rfl (fun _ _ => rfl) le_rfl⟩
      rw [hrun]
      rfl
  · next hsome =>
      have hsome : (s.targetIDs.erase targetID).toList.isEmpty = false := by simpa using hsome
      refine ⟨_, a, rfl, ⟨h.represents, h.held, h.complete, ?_⟩, rfl, fun _ _ => rfl, rfl, le_rfl,
        [], rfl, List.forall_mem_nil _, rfl⟩
      intro r hr hupTo
      have hbehind := h.behind r hr
      simp only [isRemoteUpToVersion, hsome, Bool.or_false] at hupTo
      simp only [isRemoteUpToVersion, hupTo, Bool.true_or, not_true_eq_false] at hbehind

/-! ## Every run

What the store does, told by its own answers and those of its queues. -/

/-- The batches of a queue that are not acknowledged. -/
def unacknowledged (queue : Q) : List (MutationBatch V) :=
  (MutationQueue.allMutationBatches queue).filter
    (MutationQueue.highestAcknowledgedBatchID queue < ·.batchID)

/-- A call that changes the store. -/
inductive Action (V U : Type) where
  | userDidChange (user : U)
  | locallyWriteMutations (localWriteTime : Int) (mutations : List (Mutation V))
  | acknowledgeBatchWithResult (batchResult : MutationBatchResult V)
  | rejectBatchID (batchID : Int)
  | setLastStreamToken (streamToken : Option String)
  | applyRemoteEvent (documentUpdates : MaybeDocumentDictionary V) (remoteVersion : SnapshotVersion)
  | allocateQuery (targetID : Int)
  | releaseQuery (targetID : Int)
  | collectGarbage (garbage : List DocumentKey)

namespace Action

def run (s : LocalStore V Q U) : Action V U → Except String (LocalStore V Q U)
  | .userDidChange user => return (← s.userDidChange user).2
  | .locallyWriteMutations localWriteTime mutations =>
      return (← s.locallyWriteMutations localWriteTime mutations).2
  | .acknowledgeBatchWithResult batchResult => return (← s.acknowledgeBatchWithResult batchResult).2
  | .rejectBatchID batchID => return (← s.rejectBatchID batchID).2
  | .setLastStreamToken streamToken => return s.setLastStreamToken streamToken
  | .applyRemoteEvent documentUpdates remoteVersion =>
      return (← s.applyRemoteEvent documentUpdates remoteVersion).2
  | .allocateQuery targetID => s.allocateQuery targetID
  | .releaseQuery targetID => s.releaseQuery targetID
  | .collectGarbage garbage => return s.collectGarbage garbage

/-- The call comes in turn: what is written mutates something and finds an id; the first batch that
is not acknowledged is the one that is acknowledged, with results for its mutations, or rejected; an
event is not older than the last one; and a target is not added twice. -/
def InTurn (s : LocalStore V Q U) : Action V U → Prop
  | .locallyWriteMutations _ mutations => mutations ≠ [] ∧ HasRoom s.mutationQueue
  | .acknowledgeBatchWithResult r =>
      s.nextMutationBatchAfterBatchID batchIDUnknown = some r.batch ∧
        ∃ results, r.batch.AnsweredBy results ∧
          MutationBatchResult.resultWithBatch r.batch r.commitVersion results r.streamToken = .ok r
  | .rejectBatchID batchID =>
      (s.nextMutationBatchAfterBatchID batchIDUnknown).map (·.batchID) = some batchID
  | .applyRemoteEvent _ remoteVersion =>
      remoteVersion = 0 ∨ s.lastRemoteSnapshotVersion ≤ remoteVersion
  | .allocateQuery targetID => targetID ∉ s.targetIDs.toList
  | .userDidChange _ | .setLastStreamToken _ | .releaseQuery _ | .collectGarbage _ => True

/-- What the call makes of the batches of the user that are not acknowledged. -/
def Rewrites (before after : List (MutationBatch V)) : Action V U → Prop
  | .locallyWriteMutations localWriteTime mutations =>
      ∃ batchID, (∀ b ∈ before, b.batchID < batchID) ∧
        after = before ++ [⟨batchID, localWriteTime, mutations⟩]
  | .acknowledgeBatchWithResult r => before = r.batch :: after
  | .rejectBatchID batchID => ∃ batch, before = batch :: after ∧ batch.batchID = batchID
  | .userDidChange _ | .setLastStreamToken _ | .applyRemoteEvent _ _ | .allocateQuery _
  | .releaseQuery _ | .collectGarbage _ => after = before

/-- The user after the call. -/
def userAfter (s : LocalStore V Q U) : Action V U → U
  | .userDidChange user => user
  | _ => s.user

/-- The results that are held when the call decides what to release; those of another user are
dropped. -/
def heldDuring (s : LocalStore V Q U) : Action V U → List (MutationBatchResult V)
  | .userDidChange _ => []
  | .acknowledgeBatchWithResult r => s.heldBatchResults ++ [r]
  | _ => s.heldBatchResults

/-- The cache when the call decides what to release. -/
def cacheDuring (s : LocalStore V Q U) : Action V U → RemoteDocumentCache V
  | .applyRemoteEvent documentUpdates _ =>
      documentUpdates.toList.foldl applyDocumentUpdate s.remoteDocumentCache
  | .collectGarbage garbage => garbage.foldl SortedBy.erase s.remoteDocumentCache
  | _ => s.remoteDocumentCache

/-- What the call is to do: it changes what is not acknowledged for the user in its own way, and
nothing for another user; and it releases the first of the results held, and only such that the
targets have caught up with. -/
structure Effect (s s' : LocalStore V Q U) (action : Action V U) : Prop where
  user : s'.user = action.userAfter s
  rewrites : action.Rewrites (unacknowledged (s.mutationQueues s'.user))
    (unacknowledged (s'.mutationQueues s'.user))
  others : ∀ user, user ≠ s'.user →
    unacknowledged (s'.mutationQueues user) = unacknowledged (s.mutationQueues user)
  released : ∃ released, action.heldDuring s = released ++ s'.heldBatchResults ∧
    ∀ r ∈ released, s'.isRemoteUpToVersion r.commitVersion

end Action

/-- The results that are held are those of the batches acknowledged, in their order; the targets are
behind the first; and every question about the documents and the writes is answered. -/
structure HoldsInOrder (s : LocalStore V Q U) : Prop where
  held : s.heldBatchResults.map (·.batch) =
    (MutationQueue.allMutationBatches s.mutationQueue).filter
    (·.batchID ≤ MutationQueue.highestAcknowledgedBatchID s.mutationQueue)
  behind : ∀ r ∈ s.heldBatchResults.head?,
    s.lastRemoteSnapshotVersion < r.commitVersion ∧ s.targetIDs.toList ≠ []
  views : ∀ key, ∃ document, s.documentForKey key = .ok document
  answers : AnswersPlainly s.mutationQueue

/-- The runs of a store. -/
def machine (s₀ : LocalStore V Q U) : Machine (LocalStore V Q U) (Action V U) where
  init s := s = s₀
  step s action := (action.run s).toOption

omit [LawfulMutationQueue V Q] in
theorem machine_step {s₀ s' : LocalStore V Q U} {action : Action V U} (h : action.run s = .ok s') :
    (machine s₀).step s action = some s' := by
  show (action.run s).toOption = some s'
  rw [h]
  rfl

omit [DecidableEq U] in
theorem Inv.unacknowledged (h : s.Inv a) (user : U) :
    unacknowledged (s.mutationQueues user) = (a user).unacknowledged := by
  rw [LocalStore.unacknowledged, allMutationBatches_eq (h.represents user),
    highestAcknowledgedBatchID_eq (h.represents user)]
  rfl

omit [DecidableEq U] in
theorem Inv.next (h : s.Inv a) :
    s.nextMutationBatchAfterBatchID batchIDUnknown = (a s.user).unacknowledged.head? := by
  rw [nextMutationBatchAfterBatchID, mutationQueue,
    nextMutationBatchAfterBatchID_eq (h.represents s.user) ⟨le_rfl, by decide⟩, Outbox.next_unknown]

omit [DecidableEq U] in
theorem Inv.holdsInOrder (h : s.Inv a) : s.HoldsInOrder where
  held := by
    rw [mutationQueue, allMutationBatches_eq (h.represents s.user),
      highestAcknowledgedBatchID_eq (h.represents s.user), h.held]
    rfl
  behind r hr := by
    have hbehind := h.behind r hr
    simpa [isRemoteUpToVersion] using hbehind
  views key := by
    obtain ⟨document, hdocument, -⟩ := LocalDocumentsView.localDocument_ok (h.represents s.user)
      (LocalDocumentsView.keyedAt_find? s.remoteDocumentCache key)
    exact ⟨document, hdocument⟩
  answers := Represents.answersPlainly (h.represents s.user)

omit [DecidableEq U] in
/-- An operation of the user, told by the answers of the queues. -/
theorem Leaves.effect {s' : LocalStore V Q U} {a' : U → Outbox V} {action : Action V U}
    {cache : RemoteDocumentCache V} {rest : List (MutationBatch V)} (h : s.Inv a)
    (hleaves : Leaves s s' a a' cache (action.heldDuring s) rest)
    (huser : action.userAfter s = s.user)
    (hrewrites : action.Rewrites (a s.user).unacknowledged rest) : action.Effect s s' where
  user := hleaves.user.trans huser.symm
  rewrites := by
    rw [hleaves.user, h.unacknowledged, hleaves.inv.unacknowledged, hleaves.unacknowledged]
    exact hrewrites
  others user hne := by
    rw [h.unacknowledged, hleaves.inv.unacknowledged, hleaves.others user (hleaves.user ▸ hne)]
  released := by
    obtain ⟨released, heq, hupTo, -⟩ := hleaves.released
    exact ⟨released, heq, hupTo⟩

/-- What a call of the same user leaves. -/
theorem Inv.leaves (h : s.Inv a) {action : Action V U} (hturn : action.InTurn s)
    (hsame : ∀ user, action ≠ .userDidChange user) :
    ∃ s' a' rest, action.run s = .ok s' ∧
      Leaves s s' a a' (action.cacheDuring s) (action.heldDuring s) rest ∧
      action.Rewrites (a s.user).unacknowledged rest ∧ ∀ r ∈ action.heldDuring s, r.Complete := by
  cases action with
  | userDidChange user => exact absurd rfl (hsame user)
  | locallyWriteMutations localWriteTime mutations =>
      obtain ⟨batch, docs, s', a', hrun, hleaves, hbatch, hissued⟩ :=
        locallyWriteMutations_ok h localWriteTime hturn.1 hturn.2
      refine ⟨s', a', _, by rw [Action.run, hrun]; rfl, hleaves,
        ⟨batch.batchID, fun b hb => ?_, ?_⟩, h.complete⟩
      · exact ((a s.user).given b (Outbox.mem_unacknowledged.mp hb).1).trans_lt hissued
      · rw [hbatch]
  | acknowledgeBatchWithResult r =>
      obtain ⟨hnext, results, hanswered, hresult⟩ := hturn
      rw [h.next] at hnext
      obtain ⟨r', hr', -, -, hcomplete⟩ := MutationBatchResult.resultWithBatch_ok hanswered
      rw [hresult] at hr'
      obtain rfl := Except.ok.inj hr'
      obtain ⟨rest, hfirst⟩ := List.head?_eq_some_iff.mp hnext
      obtain ⟨docs, s', a', hrun, hleaves⟩ := acknowledgeBatchWithResult_ok h hcomplete hfirst
      exact ⟨s', a', rest, by rw [Action.run, hrun]; rfl, hleaves, hfirst,
        List.forall_mem_append.mpr ⟨h.complete, List.forall_mem_singleton.mpr hcomplete⟩⟩
  | rejectBatchID batchID =>
      obtain ⟨batch, hnext, rfl⟩ := Option.map_eq_some_iff.mp hturn
      rw [h.next] at hnext
      obtain ⟨rest, hfirst⟩ := List.head?_eq_some_iff.mp hnext
      obtain ⟨docs, s', a', hrun, hleaves⟩ := rejectBatchID_ok h hfirst
      exact ⟨s', a', rest, by rw [Action.run, hrun]; rfl, hleaves, ⟨batch, hfirst, rfl⟩, h.complete⟩
  | setLastStreamToken streamToken =>
      exact ⟨s.setLastStreamToken streamToken, a, _, rfl,
        ⟨setLastStreamToken_inv h streamToken, rfl,
        fun _ _ => rfl, rfl, le_rfl, [], rfl, List.forall_mem_nil _, rfl⟩, rfl, h.complete⟩
  | applyRemoteEvent documentUpdates remoteVersion =>
      obtain ⟨docs, s', a', hrun, hleaves⟩ := applyRemoteEvent_ok h documentUpdates hturn
      exact ⟨s', a', _, by rw [Action.run, hrun]; rfl, hleaves, rfl, h.complete⟩
  | allocateQuery targetID =>
      obtain ⟨s', hrun, hleaves⟩ := allocateQuery_ok h hturn
      exact ⟨s', a, _, hrun, hleaves, rfl, h.complete⟩
  | releaseQuery targetID =>
      obtain ⟨s', a', hrun, hleaves⟩ := releaseQuery_ok h targetID
      exact ⟨s', a', _, hrun, hleaves, rfl, h.complete⟩
  | collectGarbage garbage =>
      have hinv : (s.collectGarbage garbage).Inv a := ⟨h.represents, h.held, h.complete, h.behind⟩
      exact ⟨s.collectGarbage garbage, a, _, rfl, ⟨hinv, rfl, fun _ _ => rfl, rfl, le_rfl, [], rfl,
        List.forall_mem_nil _, rfl⟩, rfl, h.complete⟩

/-- A call in turn does not fail, does what it is to do, and keeps the invariant. -/
theorem Inv.run (h : s.Inv a) {action : Action V U} (hturn : action.InTurn s) :
    ∃ s' a', action.run s = .ok s' ∧ s'.Inv a' ∧ action.Effect s s' := by
  by_cases hsame : ∀ user, action ≠ .userDidChange user
  · obtain ⟨s', a', rest, hrun, hleaves, hrewrites, -⟩ := h.leaves hturn hsame
    have huser : action.userAfter s = s.user := by
      cases action with
      | userDidChange user => exact absurd rfl (hsame user)
      | _ => rfl
    exact ⟨s', a', hrun, hleaves.inv, hleaves.effect h huser hrewrites⟩
  · obtain ⟨user, hchange⟩ := not_forall_not.mp hsame
    subst hchange
    obtain ⟨docs, s', a', hrun, hinv, huser, hothers, hrest⟩ := userDidChange_ok h user
    refine ⟨s', a', by rw [Action.run, hrun]; rfl, hinv.1, huser, ?_, ?_, [], hinv.2.symm,
      List.forall_mem_nil _⟩
    · rw [huser, h.unacknowledged, hinv.1.unacknowledged]
      exact hrest
    · intro other hne
      rw [h.unacknowledged, hinv.1.unacknowledged, hothers other (huser ▸ hne)]

/-- What calls in turn make of a store that keeps the invariant keeps it. -/
theorem Inv.reach {s₀ : LocalStore V Q U} {a₀ : U → Outbox V} (h₀ : s₀.Inv a₀)
    (h : (machine s₀).Reach Action.InTurn s) : ∃ a, s.Inv a := by
  refine h.invariant (P := fun s => ∃ a, s.Inv a) ?_ ?_
  · rintro s rfl
    exact ⟨a₀, h₀⟩
  · rintro s action s' - ⟨a, ha⟩ hturn hstep
    obtain ⟨s'', a'', hrun, h'', -⟩ := ha.run hturn
    rw [machine_step hrun] at hstep
    obtain rfl := Option.some.inj hstep
    exact ⟨a'', h''⟩

/-- **The local store.** Whatever the queues hold when the store is started: in every state it comes
to by calls in turn, the results held are those of the acknowledged batches, and no longer than
needed; and the next call in turn does not fail and does what it is to do. So no write is lost or
done twice, and none leaves the local view before it is rejected or the targets have caught up with
it. -/
theorem local_store {s₀ s₁ : LocalStore V Q U}
    (h₀ : ∀ user, Represents (s₀.mutationQueues user) (a user))
    (hstart : s₀.startMutationQueue = .ok s₁) (h : (machine s₁).Reach Action.InTurn s) :
    s.HoldsInOrder ∧
      ∀ action : Action V U, action.InTurn s → ∃ s', action.run s = .ok s' ∧
        action.Effect s s' := by
  obtain ⟨s₁', a₁, hstart', hinv, -⟩ := startMutationQueue_ok h₀
  rw [hstart] at hstart'
  obtain rfl := Except.ok.inj hstart'
  obtain ⟨a', ha'⟩ := hinv.1.reach h
  refine ⟨ha'.holdsInOrder, fun action hturn => ?_⟩
  obtain ⟨s', -, hrun, -, heffect⟩ := ha'.run hturn
  exact ⟨s', hrun, heffect⟩

end Lawful

open MemoryMutationQueue in
/-- A store of queues in memory: while a target is listened to, user 1 writes a document, which the
server acknowledges at time 1, and another one. The target has not come to time 1. -/
theorem local_store_written : ∃ s₁ s : LocalStore Unit (MemoryMutationQueue Unit) Nat,
    (machine s₁).Reach Action.InTurn s ∧
    s.heldBatchResults.map (fun r => (r.batch.batchID, r.commitVersion)) = [(1, 1)] ∧
    (unacknowledged (s.mutationQueues 1)).map (·.batchID) = [2] ∧ s.HoldsInOrder ∧
      ∀ action : Action Unit Nat, action.InTurn s → ∃ s', action.run s = .ok s' ∧
        action.Effect s s' := by
  let s₀ : LocalStore Unit (MemoryMutationQueue Unit) Nat :=
    { mutationQueues := fun _ => {}, user := 1 }
  let s₁ : LocalStore Unit (MemoryMutationQueue Unit) Nat :=
    { s₀ with mutationQueues := Function.update (fun _ => {}) 1 {} }
  let r : MutationBatchResult Unit := ⟨emptyDocument 1 "u1", 1, [⟨some 1, none⟩], none,
    SortedBy.insert ∅ (userKey "u1", 1)⟩
  have h₀ : ∀ user, LawfulMutationQueue.Represents (s₀.mutationQueues user) .new :=
    fun _ => MemoryMutationQueue.represents_new
  have hstart : s₀.startMutationQueue = .ok s₁ := rfl
  have h₁ : (machine s₁).Reach Action.InTurn s₁ := Machine.Reach.init rfl
  have h₂ := h₁.step (a := Action.allocateQuery 1) (List.not_mem_nil : (1 : Int) ∉ []) rfl
  have h₃ := h₂.step (a := Action.locallyWriteMutations 0 (emptyDocument 1 "u1").mutations)
    ⟨List.cons_ne_nil _ _, (by decide : (1 : Int) < batchIDMax)⟩ rfl
  have h₄ := h₃.step (a := Action.acknowledgeBatchWithResult r)
    ⟨rfl, r.mutationResults, .cons rfl .nil, rfl⟩ rfl
  have h₅ := h₄.step (a := Action.locallyWriteMutations 0 (emptyDocument 2 "u2").mutations)
    ⟨List.cons_ne_nil _ _, (by decide : (2 : Int) < batchIDMax)⟩ rfl
  exact ⟨s₁, _, h₅, rfl, rfl, local_store h₀ hstart h₅⟩

end LocalStore

end P0ker.Firestore
