import P0ker.Firestore.MemoryMutationQueue

/-!
# The Firestore client: the local view of the documents

What the user sees of a document is what the cache holds of it, with the batches in the queue
applied on top. A query is answered in a way that avoids looking at every document: the cached
documents that match are found by a scan, the batches are applied to them, the documents of the
batches that touch the collection are added, and what does not match is taken out at the end.

The main result is that this finds exactly the documents that match in the local view.
-/

namespace P0ker.Firestore

variable {V F Q : Type}

/-! ## Queries -/

/-- `FSTQuery`: the path, and what else is asked of a document (its order, its filters and its
bounds), of some type `F`. -/
structure Query (F : Type) where
  path : ResourcePath
  rest : F
  deriving DecidableEq

namespace Query

/-- `pathMatchesDocument:` -/
def pathMatchesDocument (query : Query F) (document : Document V) : Bool :=
  let documentPath := document.key.1
  if IsDocumentKey query.path then query.path = documentPath
  else query.path.isPrefixOf documentPath && query.path.length = documentPath.length - 1

/-- `matchesDocument:`, where `admits` is what the order, the filters and the bounds say. -/
def matchesDocument (admits : F → Document V → Bool) (query : Query F) (document : Document V) :
    Bool :=
  query.pathMatchesDocument document && admits query.rest document

end Query

/-! ## The cache of remote documents -/

/-- `FSTMemoryRemoteDocumentCache` -/
abbrev RemoteDocumentCache (V : Type) :=
    SortedBy (MaybeDocument.key : MaybeDocument V → DocumentKey)

/-- `FSTDocumentDictionary` -/
abbrev DocumentDictionary (V : Type) := SortedBy (Document.key : Document V → DocumentKey)

/-- `FSTMaybeDocumentDictionary` -/
abbrev MaybeDocumentDictionary (V : Type) :=
  SortedBy (MaybeDocument.key : MaybeDocument V → DocumentKey)

/-- `documentsMatchingQuery:` of the cache, for the query of a collection. -/
def RemoteDocumentCache.documentsMatchingQuery (admits : F → Document V → Bool)
    (cache : RemoteDocumentCache V) (query : Query F) (h : ¬ IsDocumentKey query.path) :
    DocumentDictionary V :=
  let scanned := cache.scan (collectionStart query.path h) fun maybeDoc =>
    query.path.isPrefixOf maybeDoc.key.1
  ((scanned.filterMap MaybeDocument.document?).filter (query.matchesDocument admits)).foldl
    SortedBy.insert ∅

/-! ## The local view -/

namespace LocalDocumentsView

variable [MutationQueue V Q]

/-- `localDocument:key:` -/
def localDocument (queue : Q) (document : Option (MaybeDocument V)) (documentKey : DocumentKey) :
    Except String (Option (MaybeDocument V)) := do
  let batches ← MutationQueue.allMutationBatchesAffectingDocumentKey queue documentKey
  batches.foldlM (fun document batch => batch.applyTo document documentKey none) document

/-- `documentForKey:` -/
def documentForKey (cache : RemoteDocumentCache V) (queue : Q) (key : DocumentKey) :
    Except String (Option (MaybeDocument V)) :=
  localDocument queue (cache.find? key) key

/-- `documentsForKeys:`; a document that is missing is taken for a deleted one. -/
def documentsForKeys (cache : RemoteDocumentCache V) (queue : Q) (keys : DocumentKeySet) :
    Except String (MaybeDocumentDictionary V) :=
  keys.toList.foldlM (fun results key => do
    let maybeDoc ← documentForKey cache queue key
    return results.insert (maybeDoc.getD (.deleted key 0))) ∅

/-- `localDocuments:` -/
def localDocuments (queue : Q) (documents : DocumentDictionary V) :
    Except String (DocumentDictionary V) :=
  documents.toList.foldlM (fun result remoteDocument => do
    match ← localDocument queue (some (.document remoteDocument)) remoteDocument.key with
    | some (.deleted _ _) => return result.erase remoteDocument.key
    | some (.document mutatedDoc) => return result.insert mutatedDoc
    | none => .error "Unknown document: %s") documents

/-- `documentsMatchingDocumentQuery:` -/
def documentsMatchingDocumentQuery (cache : RemoteDocumentCache V) (queue : Q)
    (docPath : DocumentKey) : Except String (DocumentDictionary V) := do
  match ← documentForKey cache queue docPath with
  | some (.document doc) => return SortedBy.insert ∅ doc
  | some (.deleted _ _) | none => return ∅

/-- The documents of the batches that are not in the results yet. -/
def matchingKeys (results : DocumentDictionary V) (batches : List (MutationBatch V)) :
    DocumentKeySet :=
  (batches.flatMap (·.mutations)).foldl (fun keys mutation =>
    if (results.find? mutation.key).isSome then keys else keys.insert mutation.key) ∅

/-- `documentsMatchingCollectionQuery:` -/
def documentsMatchingCollectionQuery (admits : F → Document V → Bool)
    (cache : RemoteDocumentCache V) (queue : Q) (query : Query F) (h : ¬ IsDocumentKey query.path) :
    Except String (DocumentDictionary V) := do
  let results ← localDocuments queue (cache.documentsMatchingQuery admits query h)
  let matchingMutationBatches ← MutationQueue.allMutationBatchesAffectingQuery queue query.path
  let results ← (matchingKeys results matchingMutationBatches).toList.foldlM (fun results key => do
    match ← documentForKey cache queue key with
    | some (.document doc) => return results.insert doc
    | some (.deleted _ _) | none => return results) results
  return results.filter (query.matchesDocument admits)

/-- `documentsMatchingQuery:` -/
def documentsMatchingQuery (admits : F → Document V → Bool) (cache : RemoteDocumentCache V)
    (queue : Q) (query : Query F) : Except String (DocumentDictionary V) :=
  if h : IsDocumentKey query.path then documentsMatchingDocumentQuery cache queue ⟨query.path, h⟩
  else documentsMatchingCollectionQuery admits cache queue query h

/-! ## No assertion fails -/

section Lawful

open LawfulMutationQueue

variable [LawfulMutationQueue V Q] {q : Q} {a : Outbox V} {cache : RemoteDocumentCache V}
  {key : DocumentKey} {document : Option (MaybeDocument V)} {admits : F → Document V → Bool}
  {query : Query F}

theorem applyAll_ok (batches : List (MutationBatch V)) (hkey : KeyedAt key document) :
    ∃ document', batches.foldlM (fun document batch => batch.applyTo document key none) document =
        .ok document' ∧ KeyedAt key document' ∧ (document.isSome → document'.isSome) := by
  induction batches generalizing document with
  | nil => exact ⟨document, rfl, hkey, id⟩
  | cons b batches ih =>
      obtain ⟨document₁, happly, hkey₁, hsome₁⟩ :=
        b.applyTo_ok hkey fun r (hr : r ∈ (none : Option (MutationBatchResult V))) => by cases hr
      obtain ⟨document₂, hrest, hkey₂, hsome₂⟩ := ih hkey₁
      refine ⟨document₂, ?_, hkey₂, hsome₂ ∘ hsome₁⟩
      rw [List.foldlM_cons, happly]
      exact hrest

theorem localDocument_ok (h : Represents q a) (hkey : KeyedAt key document) :
    ∃ document', localDocument q document key = .ok document' ∧ KeyedAt key document' ∧
      (document.isSome → document'.isSome) := by
  rw [localDocument, allMutationBatchesAffectingDocumentKey_ok h]
  exact applyAll_ok _ hkey

/-- A document that no batch touches is as the cache has it. -/
theorem localDocument_of_untouched (h : Represents q a) (huntouched : a.affecting key = [])
    (document : Option (MaybeDocument V)) : localDocument q document key = .ok document := by
  rw [localDocument, allMutationBatchesAffectingDocumentKey_ok h, huntouched]
  rfl

omit [MutationQueue V Q] in
theorem keyedAt_find? (cache : RemoteDocumentCache V) (key : DocumentKey) :
    KeyedAt key (cache.find? key) :=
  fun _ hdoc => SortedBy.key_of_find? hdoc

/-- Every document has a local view. -/
theorem exists_view (h : Represents q a) (cache : RemoteDocumentCache V) :
    ∃ view : DocumentKey → Option (MaybeDocument V), ∀ key,
      documentForKey cache q key = .ok (view key) ∧ KeyedAt key (view key) ∧
        ((cache.find? key).isSome → (view key).isSome) := by
  choose view hview using fun key => localDocument_ok h (keyedAt_find? cache key)
  exact ⟨view, hview⟩

/-- Any documents can be looked up. -/
theorem documentsForKeys_ok (h : Represents q a) (cache : RemoteDocumentCache V)
    (keys : DocumentKeySet) : ∃ results, documentsForKeys cache q keys = .ok results := by
  obtain ⟨view, hview⟩ := exists_view h cache
  have hloop : ∀ (l : List DocumentKey) (results : MaybeDocumentDictionary V),
      ∃ results', l.foldlM (fun results key => do
        let maybeDoc ← documentForKey cache q key
        return results.insert (maybeDoc.getD (.deleted key 0))) results = .ok results' := by
    intro l
    induction l with
    | nil => exact fun results => ⟨results, rfl⟩
    | cons key l ih =>
        intro results
        obtain ⟨results', hrest⟩ := ih (results.insert ((view key).getD (.deleted key 0)))
        refine ⟨results', ?_⟩
        rw [List.foldlM_cons, (hview key).1]
        exact hrest
  exact hloop keys.toList ∅

/-! ## What the steps find -/

/-- Under a collection, what matches is directly under it. -/
theorem under_of_matches {d : Document V} (hpath : ¬ IsDocumentKey query.path)
    (hmatches : query.matchesDocument admits d) : ∃ segment, d.key.1 = query.path ++ [segment] := by
  rw [Query.matchesDocument, Query.pathMatchesDocument, if_neg hpath, Bool.and_eq_true,
    Bool.and_eq_true] at hmatches
  obtain ⟨⟨hbegins, hlength⟩, -⟩ := hmatches
  obtain ⟨rest, hrest⟩ := List.isPrefixOf_iff_prefix.mp hbegins
  have hlength := of_decide_eq_true hlength
  have hne : d.key.1 ≠ [] := by
    intro hnil
    rw [hnil] at hrest
    obtain ⟨hquery, -⟩ := List.append_eq_nil_iff.mp hrest
    exact hpath (by rw [hquery]; rfl)
  have hpos := List.length_pos_iff.mpr hne
  rw [← hrest, List.length_append] at hlength hpos
  obtain ⟨segment, rfl⟩ := List.length_eq_one_iff.mp (show rest.length = 1 by omega)
  exact ⟨segment, hrest.symm⟩

/-- The scan of the cache finds the cached documents that match. -/
theorem mem_documentsMatchingQuery (hpath : ¬ IsDocumentKey query.path) {d : Document V} :
    d ∈ cache.documentsMatchingQuery admits query hpath ↔
      .document d ∈ cache ∧ query.matchesDocument admits d := by
  have hscan : cache.scan (collectionStart query.path hpath)
      (fun maybeDoc => query.path.isPrefixOf maybeDoc.key.1) =
      cache.toList.filter fun maybeDoc => query.path.isPrefixOf maybeDoc.key.1 := by
    refine SortedBy.scan_eq_filter ?_ ?_
    · intro doc _ hbegins
      refine PathOrder.concat_le_of_prefix PathOrder.empty_le
        (List.isPrefixOf_iff_prefix.mp hbegins) ?_
      exact fun heq => hpath (heq ▸ doc.key.2)
    · intro doc _ doc' _ hstart hlt hbegins
      have hbefore : query.path ≤ doc.key.1 :=
        (PathOrder.le_of_prefix (List.prefix_append _ [""])).trans hstart
      exact List.isPrefixOf_iff_prefix.mpr
        (PathOrder.prefix_of_between hbefore hlt.le (List.isPrefixOf_iff_prefix.mp hbegins))
  have hmem : ∀ d : Document V,
      d ∈ ((cache.toList.filter fun maybeDoc => query.path.isPrefixOf maybeDoc.key.1).filterMap
          MaybeDocument.document?).filter (query.matchesDocument admits) ↔
        .document d ∈ cache ∧ query.matchesDocument admits d := by
    intro d
    rw [List.mem_filter, List.mem_filterMap]
    refine and_congr_left fun hmatches => ?_
    constructor
    · rintro ⟨doc | ⟨key, version⟩, hdoc, hd⟩
      · obtain rfl := Option.some.inj hd
        exact (List.mem_filter.mp hdoc).1
      · cases hd
    · intro hdoc
      obtain ⟨segment, hsegment⟩ := under_of_matches hpath hmatches
      refine ⟨.document d, List.mem_filter.mpr ⟨hdoc, ?_⟩, rfl⟩
      rw [MaybeDocument.key, hsegment]
      exact List.isPrefixOf_iff_prefix.mpr (List.prefix_append _ _)
  have hdistinct : (((cache.toList.filter fun maybeDoc =>
      query.path.isPrefixOf maybeDoc.key.1).filterMap MaybeDocument.document?).filter
        (query.matchesDocument admits)).Pairwise fun d d' => d.key ≠ d'.key := by
    refine List.Pairwise.filter _ (List.pairwise_filterMap.mpr ?_)
    refine (cache.sorted.filter _).imp ?_
    intro doc doc' hlt d hd d' hd'
    rcases doc with doc | ⟨_, _⟩
    · rcases doc' with doc' | ⟨_, _⟩
      · obtain rfl := Option.some.inj hd
        obtain rfl := Option.some.inj hd'
        exact hlt.ne
      · cases hd'
    · cases hd
  rw [RemoteDocumentCache.documentsMatchingQuery, hscan, SortedBy.mem_foldl_insert hdistinct, hmem]
  simp

omit [LawfulMutationQueue V Q] in
/-- The batches are applied to the documents that were found. -/
theorem localDocuments_ok {view : DocumentKey → Option (MaybeDocument V)}
    {documents : DocumentDictionary V}
    (hview : ∀ d ∈ documents, localDocument q (some (.document d)) d.key = .ok (view d.key) ∧
      KeyedAt d.key (view d.key) ∧ (view d.key).isSome) :
    ∃ results, localDocuments q documents = .ok results ∧ ∀ d,
      d ∈ results ↔ (∃ r ∈ documents, r.key = d.key) ∧ view d.key = some (.document d) := by
  have hloop : ∀ (l : List (Document V)) (results : DocumentDictionary V),
      l.Pairwise (fun d d' => d.key ≠ d'.key) →
      (∀ d ∈ l, localDocument q (some (.document d)) d.key = .ok (view d.key) ∧
        KeyedAt d.key (view d.key) ∧ (view d.key).isSome) →
      ∃ results', l.foldlM (fun result remoteDocument => do
          match ← localDocument q (some (.document remoteDocument)) remoteDocument.key with
          | some (.deleted _ _) => return result.erase remoteDocument.key
          | some (.document mutatedDoc) => return result.insert mutatedDoc
          | none => .error "Unknown document: %s") results = .ok results' ∧ ∀ d,
        d ∈ results' ↔ (∃ r ∈ l, r.key = d.key) ∧ view d.key = some (.document d) ∨
          d ∈ results ∧ ∀ r ∈ l, r.key ≠ d.key := by
    intro l
    induction l with
    | nil => exact fun results _ _ => ⟨results, rfl, by simp⟩
    | cons r l ih =>
        intro results hdistinct hall
        obtain ⟨hr, hl⟩ := List.pairwise_cons.mp hdistinct
        obtain ⟨hlocal, hkey, hsome⟩ := hall r List.mem_cons_self
        obtain ⟨results₁, hstep, hresults₁⟩ : ∃ results₁,
            (do
              match ← localDocument q (some (.document r)) r.key with
              | some (.deleted _ _) => return results.erase r.key
              | some (.document mutatedDoc) => return results.insert mutatedDoc
              | none => .error "Unknown document: %s") = (.ok results₁ : Except String _) ∧ ∀ d,
            d ∈ results₁ ↔ r.key = d.key ∧ view d.key = some (.document d) ∨
              d ∈ results ∧ r.key ≠ d.key := by
          rw [hlocal]
          cases hdoc : view r.key with
          | none =>
              rw [hdoc] at hsome
              cases hsome
          | some doc =>
              rw [hdoc] at hkey
              cases doc with
              | document mutatedDoc =>
                  have hmutated : mutatedDoc.key = r.key := hkey _ rfl
                  refine ⟨results.insert mutatedDoc, rfl, fun d => ?_⟩
                  rw [SortedBy.mem_insert, hmutated]
                  refine or_congr ⟨?_, ?_⟩ (and_congr_right fun _ => ne_comm)
                  · rintro rfl
                    exact ⟨hmutated.symm, by rw [hmutated, hdoc]⟩
                  · rintro ⟨heq, hd⟩
                    rw [← heq, hdoc] at hd
                    exact (MaybeDocument.document.inj (Option.some.inj hd)).symm
              | deleted key version =>
                  refine ⟨results.erase r.key, rfl, fun d => ?_⟩
                  rw [SortedBy.mem_erase]
                  constructor
                  · exact fun ⟨hd, hne⟩ => Or.inr ⟨hd, hne.symm⟩
                  · rintro (⟨heq, hd⟩ | ⟨hd, hne⟩)
                    · rw [← heq, hdoc] at hd
                      cases hd
                    · exact ⟨hd, hne.symm⟩
        obtain ⟨results₂, hrest, hresults₂⟩ :=
          ih results₁ hl fun d hd => hall d (List.mem_cons_of_mem _ hd)
        refine ⟨results₂, ?_, fun d => ?_⟩
        · rw [List.foldlM_cons, hstep]
          exact hrest
        · rw [hresults₂, hresults₁, List.exists_mem_cons_iff, List.forall_mem_cons]
          constructor
          · rintro (⟨hlater, hd⟩ | ⟨⟨heq, hd⟩ | ⟨hd, hne⟩, hall'⟩)
            · exact Or.inl ⟨Or.inr hlater, hd⟩
            · exact Or.inl ⟨Or.inl heq, hd⟩
            · exact Or.inr ⟨hd, hne, hall'⟩
          · rintro (⟨heq | hlater, hd⟩ | ⟨hd, hne, hall'⟩)
            · refine Or.inr ⟨Or.inl ⟨heq, hd⟩, fun r' hr' heq' => ?_⟩
              exact hr r' hr' (heq.trans heq'.symm)
            · exact Or.inl ⟨hlater, hd⟩
            · exact Or.inr ⟨Or.inr ⟨hd, hne⟩, hall'⟩
  have hdistinct : documents.toList.Pairwise fun d d' => d.key ≠ d'.key :=
    documents.sorted.imp ne_of_lt
  obtain ⟨results, hrun, hresults⟩ := hloop documents.toList documents hdistinct hview
  refine ⟨results, hrun, fun d => (hresults d).trans ?_⟩
  constructor
  · rintro (hfound | ⟨hd, hne⟩)
    · exact hfound
    · exact absurd rfl (hne d hd)
  · exact Or.inl

theorem mem_matchingKeys {results : DocumentDictionary V} {batches : List (MutationBatch V)} :
    key ∈ matchingKeys results batches ↔
      (∃ b ∈ batches, b.Mutates key) ∧ results.find? key = none := by
  have hloop : ∀ (mutations : List (Mutation V)) (keys : DocumentKeySet),
      key ∈ mutations.foldl (fun keys mutation =>
          if (results.find? mutation.key).isSome then keys else keys.insert mutation.key) keys ↔
        key ∈ keys ∨ (∃ mutation ∈ mutations, mutation.key = key) ∧ results.find? key = none := by
    intro mutations
    induction mutations with
    | nil => simp
    | cons mutation mutations ih =>
        intro keys
        rw [List.foldl_cons, ih, List.exists_mem_cons_iff]
        by_cases hfound : (results.find? mutation.key).isSome
        · rw [if_pos hfound]
          refine or_congr_right (and_congr_left fun hnone => ⟨Or.inr, ?_⟩)
          rintro (rfl | hlater)
          · rw [hnone] at hfound
            cases hfound
          · exact hlater
        · rw [if_neg hfound, SortedBy.mem_insert]
          have hnone : results.find? mutation.key = none := by simpa using hfound
          constructor
          · rintro ((rfl | ⟨hkeys, -⟩) | ⟨hlater, hgone⟩)
            · exact Or.inr ⟨Or.inl rfl, hnone⟩
            · exact Or.inl hkeys
            · exact Or.inr ⟨Or.inr hlater, hgone⟩
          · rintro (hkeys | ⟨rfl | hlater, hgone⟩)
            · by_cases heq : key = mutation.key
              · exact Or.inl (Or.inl heq)
              · exact Or.inl (Or.inr ⟨hkeys, heq⟩)
            · exact Or.inl (Or.inl rfl)
            · exact Or.inr ⟨hlater, hgone⟩
  rw [matchingKeys, hloop]
  simp only [SortedBy.notMem_empty, false_or]
  refine and_congr_left fun _ => ?_
  constructor
  · rintro ⟨mutation, hmutation, hkey⟩
    obtain ⟨b, hb, hmem⟩ := List.mem_flatMap.mp hmutation
    exact ⟨b, hb, mutation, hmem, hkey⟩
  · rintro ⟨b, hb, mutation, hmem, hkey⟩
    exact ⟨mutation, List.mem_flatMap.mpr ⟨b, hb, hmem⟩, hkey⟩

omit [LawfulMutationQueue V Q] in
/-- The documents of the batches are added. -/
theorem addMatching_ok {view : DocumentKey → Option (MaybeDocument V)}
    (hview : ∀ key, documentForKey cache q key = .ok (view key) ∧ KeyedAt key (view key))
    (keys : List DocumentKey) (results : DocumentDictionary V) :
    ∃ results', keys.foldlM (fun results key => do
        match ← documentForKey cache q key with
        | some (.document doc) => return results.insert doc
        | some (.deleted _ _) | none => return results) results = .ok results' ∧ ∀ d,
      (d.key ∈ keys ∧ view d.key = some (.document d) → d ∈ results') ∧
      (d ∈ results' → d ∈ results ∨ d.key ∈ keys ∧ view d.key = some (.document d)) ∧
      (d ∈ results → d.key ∉ keys → d ∈ results') := by
  induction keys generalizing results with
  | nil => exact ⟨results, rfl, by simp⟩
  | cons key keys ih =>
      obtain ⟨hlocal, hkey⟩ := hview key
      obtain ⟨results₁, hstep, hresults₁⟩ : ∃ results₁,
          (do
            match ← documentForKey cache q key with
            | some (.document doc) => return results.insert doc
            | some (.deleted _ _) | none => return results) = (.ok results₁ :
                Except String _) ∧ ∀ d,
          d ∈ results₁ ↔ key = d.key ∧ view d.key = some (.document d) ∨
            d ∈ results ∧ (key = d.key → ∀ d', view key ≠ some (.document d')) := by
        have hunchanged : (∀ d', view key ≠ some (.document d')) → ∀ d : Document V, d ∈ results ↔
            key = d.key ∧ view d.key = some (.document d) ∨
              d ∈ results ∧ (key = d.key → ∀ d', view key ≠ some (.document d')) := by
          intro hnone d
          constructor
          · exact fun hd => Or.inr ⟨hd, fun _ => hnone⟩
          · rintro (⟨rfl, hd⟩ | ⟨hd, -⟩)
            · exact absurd hd (hnone d)
            · exact hd
        rw [hlocal]
        rcases hdoc : view key with _ | doc | ⟨key', version⟩
        · refine ⟨results, rfl, ?_⟩
          rw [← hdoc]
          exact hunchanged (by simp [hdoc])
        · rw [hdoc] at hkey
          have hdocKey : doc.key = key := hkey _ rfl
          refine ⟨results.insert doc, rfl, fun d => ?_⟩
          rw [SortedBy.mem_insert, hdocKey]
          constructor
          · rintro (rfl | ⟨hd, hne⟩)
            · exact Or.inl ⟨hdocKey.symm, by rw [hdocKey, hdoc]⟩
            · exact Or.inr ⟨hd, fun heq => absurd heq.symm hne⟩
          · rintro (⟨heq, hd⟩ | ⟨hd, hnone⟩)
            · rw [← heq, hdoc] at hd
              exact Or.inl (MaybeDocument.document.inj (Option.some.inj hd)).symm
            · exact Or.inr ⟨hd, fun heq => hnone heq.symm doc rfl⟩
        · refine ⟨results, rfl, ?_⟩
          rw [← hdoc]
          exact hunchanged (by simp [hdoc])
      obtain ⟨results₂, hrest, hresults₂⟩ := ih results₁
      refine ⟨results₂, ?_, fun d => ?_⟩
      · rw [List.foldlM_cons, hstep]
        exact hrest
      · obtain ⟨hin, hout, hkept⟩ := hresults₂ d
        refine ⟨?_, ?_, ?_⟩
        · rintro ⟨hmem, hd⟩
          by_cases hlater : d.key ∈ keys
          · exact hin ⟨hlater, hd⟩
          · have heq := (List.mem_cons.mp hmem).resolve_right hlater
            exact hkept ((hresults₁ d).mpr (Or.inl ⟨heq.symm, hd⟩)) hlater
        · intro hd
          rcases hout hd with hd₁ | ⟨hmem, hd'⟩
          · rcases (hresults₁ d).mp hd₁ with ⟨heq, hd'⟩ | ⟨hd', -⟩
            · exact Or.inr ⟨heq ▸ List.mem_cons_self, hd'⟩
            · exact Or.inl hd'
          · exact Or.inr ⟨List.mem_cons_of_mem _ hmem, hd'⟩
        · intro hd hnot
          obtain ⟨hne, hlater⟩ := not_or.mp fun hor => hnot (List.mem_cons.mpr hor)
          exact hkept ((hresults₁ d).mpr (Or.inr ⟨hd, fun heq => absurd heq.symm hne⟩)) hlater

/-- **The optimised query.** With a lawful queue no assertion fails, and the query of a collection
or of a document finds exactly the documents that match in the local view. -/
theorem documentsMatchingQuery_exact (h : Represents q a) (cache : RemoteDocumentCache V)
    (hdocument : IsDocumentKey query.path → ∀ d, admits query.rest d) :
    ∃ results, documentsMatchingQuery admits cache q query = .ok results ∧ ∀ d,
      d ∈ results ↔ documentForKey cache q d.key = .ok (some (.document d)) ∧
        query.matchesDocument admits d := by
  obtain ⟨view, hview⟩ := exists_view h cache
  have hlocal : ∀ d : Document V, documentForKey cache q d.key = .ok (some (.document d)) ↔
      view d.key = some (.document d) := by
    intro d
    rw [(hview d.key).1]
    exact ⟨Except.ok.inj, congrArg _⟩
  rw [documentsMatchingQuery]
  split
  · next hpath =>
      rw [documentsMatchingDocumentQuery, (hview _).1]
      have hexact : ∀ d : Document V, query.matchesDocument admits d ↔
          d.key = ⟨query.path, hpath⟩ := by
        intro d
        rw [Query.matchesDocument, Query.pathMatchesDocument, if_pos hpath, hdocument hpath d,
          Bool.and_true, decide_eq_true_iff, Subtype.ext_iff]
        exact eq_comm
      have hkeyed := (hview ⟨query.path, hpath⟩).2.1
      have hnone : (∀ d, view ⟨query.path, hpath⟩ ≠ some (.document d)) → ∀ d : Document V,
          d ∈ (∅ : DocumentDictionary V) ↔
            documentForKey cache q d.key = .ok (some (.document d)) ∧
              query.matchesDocument admits d := by
        intro hno d
        refine iff_of_false SortedBy.notMem_empty ?_
        rintro ⟨hd, hmatches⟩
        rw [hlocal, (hexact d).mp hmatches] at hd
        exact hno d hd
      rcases hdoc : view ⟨query.path, hpath⟩ with _ | doc | ⟨key, version⟩
      · exact ⟨∅, rfl, hnone (by simp [hdoc])⟩
      · rw [hdoc] at hkeyed
        have hkey : doc.key = ⟨query.path, hpath⟩ := hkeyed _ rfl
        refine ⟨SortedBy.insert ∅ doc, rfl, fun d => ?_⟩
        rw [SortedBy.mem_insert, hlocal, hexact]
        constructor
        · rintro (rfl | ⟨hd, -⟩)
          · exact ⟨by rw [hkey, hdoc], hkey⟩
          · cases hd
        · rintro ⟨hd, hdkey⟩
          rw [hdkey, hdoc] at hd
          exact Or.inl (MaybeDocument.document.inj (Option.some.inj hd)).symm
      · exact ⟨∅, rfl, hnone (by simp [hdoc])⟩
  · next hpath =>
      -- what is cached and matches
      have hcached : ∀ d ∈ cache.documentsMatchingQuery admits query hpath,
          localDocument q (some (.document d)) d.key = .ok (view d.key) ∧
            KeyedAt d.key (view d.key) ∧ (view d.key).isSome := by
        intro d hd
        have hfound : cache.find? d.key = some (.document d) :=
          SortedBy.find?_eq_some.mpr ⟨((mem_documentsMatchingQuery hpath).mp hd).1, rfl⟩
        obtain ⟨hdoc, hkeyed, hsome⟩ := hview d.key
        rw [documentForKey, hfound] at hdoc
        exact ⟨hdoc, hkeyed, hsome (by rw [hfound]; rfl)⟩
      obtain ⟨results₁, hrun₁, hresults₁⟩ := localDocuments_ok hcached
      obtain ⟨results₂, hrun₂, hresults₂⟩ := addMatching_ok
        (fun key => ⟨(hview key).1, (hview key).2.1⟩)
        (matchingKeys results₁ (a.affectingUnder query.path)).toList results₁
      refine ⟨results₂.filter (query.matchesDocument admits), ?_, fun d => ?_⟩
      · rw [documentsMatchingCollectionQuery, hrun₁]
        simp only [ok_bind]
        rw [allMutationBatchesAffectingQuery_ok h]
        simp only [ok_bind]
        rw [hrun₂]
        rfl
      · rw [SortedBy.mem_filter, hlocal]
        refine and_congr_left fun hmatches => ?_
        obtain ⟨hin, hout, hkept⟩ := hresults₂ d
        constructor
        · intro hd
          rcases hout hd with hd₁ | ⟨-, hd'⟩
          · exact ((hresults₁ d).mp hd₁).2
          · exact hd'
        · intro hd
          by_cases hnew : d.key ∈ matchingKeys results₁ (a.affectingUnder query.path)
          · exact hin ⟨hnew, hd⟩
          · refine hkept ((hresults₁ d).mpr ⟨?_, hd⟩) hnew
            rw [mem_matchingKeys, not_and] at hnew
            by_cases htouched : a.affecting d.key = []
            · -- no batch touches it: it is cached as it is
              have hsame := localDocument_of_untouched h htouched (cache.find? d.key)
              have hview' := (hview d.key).1
              rw [documentForKey, hsame, hd] at hview'
              have hmem := (SortedBy.find?_eq_some.mp (Except.ok.inj hview')).1
              exact ⟨d, (mem_documentsMatchingQuery hpath).mpr ⟨hmem, hmatches⟩, rfl⟩
            · -- a batch touches it: it is one of those that touch the collection
              obtain ⟨b, hb⟩ := List.exists_mem_of_ne_nil _ htouched
              obtain ⟨hb, hmutates⟩ := List.mem_filter.mp hb
              have hmutates : b.Mutates d.key := of_decide_eq_true hmutates
              obtain ⟨mutation, hmutation, hkey⟩ := hmutates
              obtain ⟨segment, hsegment⟩ := under_of_matches hpath hmatches
              have hunder : b ∈ a.affectingUnder query.path := List.mem_filter.mpr
                ⟨hb, decide_eq_true ⟨mutation, hmutation, segment, by rw [hkey, hsegment]⟩⟩
              have hfound := hnew ⟨b, hunder, mutation, hmutation, hkey⟩
              obtain ⟨r, hr⟩ := Option.ne_none_iff_exists'.mp hfound
              obtain ⟨hmem, hrkey⟩ := SortedBy.find?_eq_some.mp hr
              obtain ⟨⟨r', hr', hr'key⟩, -⟩ := (hresults₁ r).mp hmem
              exact ⟨r', hr', hr'key.trans hrkey⟩

end Lawful

/-- A user document with a name. -/
def userNamed (id name : String) : Document String :=
  ⟨MemoryMutationQueue.userKey id, 1, [("name", .leaf name)], false⟩

/-- The filter that the name is the one asked for. -/
def hasName (name : String) (document : Document String) : Bool :=
  (document.data.lookup "name").any fun
    | .leaf other => other = name
    | .object _ => false

/-- The query of the users with a name: two users are cached, the filter rejects one of them, and a
third is in the queue. -/
theorem documentsMatchingQuery_exact_written :
    ∃ (cache : RemoteDocumentCache String) (q : MemoryMutationQueue String),
    (.document (userNamed "u1" "Ola") ∈ cache ∧ .document (userNamed "u2" "Kai") ∈ cache) ∧
    (hasName "Ola" (userNamed "u1" "Ola") ∧ ¬ hasName "Ola" (userNamed "u2" "Kai")) ∧
    (MutationQueue.allMutationBatches q).flatMap (·.mutations.map (·.key.1)) = [["users", "u3"]] ∧
    ∃ results, documentsMatchingQuery hasName cache q ⟨["users"], "Ola"⟩ = .ok results ∧
      ∀ d, d ∈ results ↔ documentForKey cache q d.key = .ok (some (.document d)) ∧
        (Query.mk ["users"] "Ola").matchesDocument hasName d := by
  let cache : RemoteDocumentCache String := SortedBy.insert
    (SortedBy.insert ∅ (.document (userNamed "u1" "Ola"))) (.document (userNamed "u2" "Kai"))
  let mutations : List (Mutation String) :=
    [.set (userNamed "u3" "Ola").key .none (userNamed "u3" "Ola").data]
  have hnew : LawfulMutationQueue.Represents ({} : MemoryMutationQueue String) .new :=
    MemoryMutationQueue.represents_new
  have hne : mutations ≠ [] := List.cons_ne_nil _ _
  have hroom : (1 : Int) < batchIDMax := by decide
  obtain ⟨batchID, q, hissued, _, -, h⟩ := LawfulMutationQueue.addMutationBatch_ok 0 hnew hroom hne
  refine ⟨cache, q, ⟨?_, SortedBy.mem_insert.mpr (Or.inl rfl)⟩, by decide, ?_,
    documentsMatchingQuery_exact h cache fun hpath => absurd hpath (by decide)⟩
  · exact SortedBy.mem_insert.mpr (Or.inr ⟨SortedBy.mem_insert.mpr (Or.inl rfl), by decide⟩)
  · rw [LawfulMutationQueue.allMutationBatches_eq h]
    rfl

end LocalDocumentsView

end P0ker.Firestore
