import Mathlib.Data.List.Forall2
import P0ker.Firestore.Model

/-!
# The Firestore client: batches of mutations

The mutations of one write are a batch: they are applied one after the other, sent together, and
acknowledged or rejected together. A batch whose mutations have been taken out is a tombstone.
-/

namespace P0ker.Firestore

variable {V : Type}

/-- The sums and differences of ids are as of an `int32_t`, which `FSTBatchID` is. -/
def int32 (n : Int) : Int :=
  n.bmod 4294967296

/-- `kFSTBatchIDUnknown` -/
abbrev batchIDUnknown : Int := -1

/-- The largest `FSTBatchID`. -/
abbrev batchIDMax : Int := 2147483647

/-- An id a batch can have, or `kFSTBatchIDUnknown`; the largest one is never given out. -/
def IsBatchID (batchID : Int) : Prop :=
  batchIDUnknown ≤ batchID ∧ batchID < batchIDMax

theorem int32_eq {n : Int} (hlower : -2147483648 ≤ n) (hupper : n ≤ 2147483647) : int32 n = n :=
  Int.bmod_eq_of_le (by omega) (by omega)

/-- `FSTMutationBatch` -/
structure MutationBatch (V : Type) where
  batchID : Int
  localWriteTime : Int
  mutations : List (Mutation V)

/-- A set of document keys. -/
abbrev DocumentKeySet := SortedBy (id : DocumentKey → DocumentKey)

/-- `FSTMutationBatchResult` -/
structure MutationBatchResult (V : Type) where
  batch : MutationBatch V
  commitVersion : SnapshotVersion
  mutationResults : List (MutationResult V)
  streamToken : Option String
  docVersions : SortedBy (Prod.fst : DocumentKey × SnapshotVersion → DocumentKey)

namespace MutationBatch

def isTombstone (batch : MutationBatch V) : Bool :=
  batch.mutations.isEmpty

def toTombstone (batch : MutationBatch V) : MutationBatch V :=
  { batch with mutations := [] }

def keys (batch : MutationBatch V) : DocumentKeySet :=
  batch.mutations.foldl (fun set mutation => set.insert mutation.key) ∅

/-- The loop of `applyTo`: the mutations of the document, from place `i` on. -/
def applyFrom (batch : MutationBatch V) (documentKey : DocumentKey)
    (baseDoc : Option (MaybeDocument V)) (results : Option (List (MutationResult V))) :
    Nat → List (Mutation V) → Option (MaybeDocument V) → Except String (Option (MaybeDocument V))
  | _, [], maybeDoc => .ok maybeDoc
  | i, mutation :: mutations, maybeDoc => do
      let mutationResult := results.bind (·[i]?)
      let maybeDoc ←
        if mutation.key = documentKey then
          mutation.applyTo maybeDoc baseDoc batch.localWriteTime mutationResult
        else .ok maybeDoc
      applyFrom batch documentKey baseDoc results (i + 1) mutations maybeDoc

/-- `applyTo:documentKey:mutationBatchResult:` -/
def applyTo (batch : MutationBatch V) (maybeDoc : Option (MaybeDocument V))
    (documentKey : DocumentKey) (mutationBatchResult : Option (MutationBatchResult V)) :
    Except String (Option (MaybeDocument V)) := do
  hardAssert (∀ doc ∈ maybeDoc, doc.key = documentKey)
    "applyTo: key %s doesn't match maybeDoc key %s"
  hardAssert (∀ result ∈ mutationBatchResult,
      result.mutationResults.length = batch.mutations.length)
    "Mismatch between mutations length (%s) and results length (%s)"
  applyFrom batch documentKey maybeDoc
    (mutationBatchResult.map (·.mutationResults)) 0 batch.mutations
    maybeDoc

end MutationBatch

/-- `resultWithBatch:commitVersion:mutationResults:streamToken:`; a deletion has no version of its
own, and is given that of the commit. -/
def MutationBatchResult.resultWithBatch (batch : MutationBatch V) (commitVersion : SnapshotVersion)
    (mutationResults : List (MutationResult V)) (streamToken : Option String) :
    Except String (MutationBatchResult V) := do
  hardAssert (batch.mutations.length = mutationResults.length)
    "Mutations sent %s must equal results received %s"
  let docVersions := (batch.mutations.zip mutationResults).foldl
    (fun docVersions p => docVersions.insert (p.1.key, p.2.version.getD commitVersion)) ∅
  return ⟨batch, commitVersion, mutationResults, streamToken, docVersions⟩

/-! ## Applying a batch -/

namespace MutationBatch

variable {batch : MutationBatch V} {key : DocumentKey} {maybeDoc baseDoc : Option (MaybeDocument V)}

/-- `batch` has a mutation of the document. -/
def Mutates (batch : MutationBatch V) (key : DocumentKey) : Prop :=
  ∃ mutation ∈ batch.mutations, mutation.key = key

instance (batch : MutationBatch V) (key : DocumentKey) : Decidable (batch.Mutates key) :=
  inferInstanceAs (Decidable (∃ mutation ∈ batch.mutations, mutation.key = key))

theorem mem_foldl_insert {mutations : List (Mutation V)} {set : DocumentKeySet} :
    key ∈ mutations.foldl (fun set mutation => set.insert mutation.key) set ↔
      key ∈ set ∨ ∃ mutation ∈ mutations, mutation.key = key := by
  induction mutations generalizing set with
  | nil => simp
  | cons mutation mutations ih =>
      rw [List.foldl_cons, ih, SortedBy.mem_insert, List.exists_mem_cons_iff]
      constructor
      · rintro ((rfl | ⟨hset, -⟩) | hlater)
        · exact Or.inr (Or.inl rfl)
        · exact Or.inl hset
        · exact Or.inr (Or.inr hlater)
      · rintro (hset | rfl | hlater)
        · by_cases heq : key = mutation.key
          · exact Or.inl (Or.inl heq)
          · exact Or.inl (Or.inr ⟨hset, heq⟩)
        · exact Or.inl (Or.inl rfl)
        · exact Or.inr hlater

theorem mem_keys : key ∈ batch.keys ↔ batch.Mutates key := by
  rw [keys, mem_foldl_insert]
  simp [Mutates]

/-- The results are for the mutations, one each. -/
def AnsweredBy (batch : MutationBatch V) (results : List (MutationResult V)) : Prop :=
  List.Forall₂ (fun mutation result => result.Answers mutation) batch.mutations results

/-- What is left of the loop, with what is left of the results. -/
theorem applyFrom_ok {results : Option (List (MutationResult V))} {i : Nat}
    {mutations : List (Mutation V)} (hkey : KeyedAt key maybeDoc)
    (hresults : ∀ rs ∈ results, List.Forall₂ (fun mutation result => result.Answers mutation)
      mutations (rs.drop i)) :
    ∃ doc, applyFrom batch key baseDoc results i mutations maybeDoc = .ok doc ∧
      KeyedAt key doc ∧ (maybeDoc.isSome → doc.isSome) := by
  induction mutations generalizing i maybeDoc with
  | nil => exact ⟨maybeDoc, rfl, hkey, id⟩
  | cons mutation mutations ih =>
      have hlater : ∀ rs ∈ results, List.Forall₂ (fun mutation result => result.Answers mutation)
          mutations (rs.drop (i + 1)) := by
        intro rs hrs
        obtain ⟨result, rest, -, hrest, hdrop⟩ := List.forall₂_cons_left_iff.mp (hresults rs hrs)
        rw [← List.tail_drop, hdrop]
        exact hrest
      rw [applyFrom]
      split
      · next hmutation =>
          subst hmutation
          have hresult : ∀ result ∈ results.bind (·[i]?), result.Answers mutation := by
            intro result hresult
            obtain ⟨rs, hrs, hi⟩ := Option.bind_eq_some_iff.mp hresult
            obtain ⟨first, rest, hfirst, -, hdrop⟩ :=
              List.forall₂_cons_left_iff.mp (hresults rs hrs)
            have hhead : rs[i]? = some first := by
              rw [← List.head?_drop, hdrop]
              rfl
            rw [hhead] at hi
            rwa [← Option.some.inj hi]
          obtain ⟨doc, hdoc, hkey', hsome⟩ := Mutation.applyTo_ok baseDoc batch.localWriteTime hkey
            hresult
          obtain ⟨doc', hdoc', hkeyed, hsome'⟩ := ih hkey' hlater
          refine ⟨doc', ?_, hkeyed, hsome' ∘ hsome⟩
          rw [hdoc]
          exact hdoc'
      · exact ih hkey hlater

/-- No assertion fails when a batch is applied to what is known of a document, with no results or
with one for each of its mutations. -/
theorem applyTo_ok {result : Option (MutationBatchResult V)} (hkey : KeyedAt key maybeDoc)
    (hresult : ∀ r ∈ result, batch.AnsweredBy r.mutationResults) :
    ∃ doc, batch.applyTo maybeDoc key result = .ok doc ∧ KeyedAt key doc ∧
      (maybeDoc.isSome → doc.isSome) := by
  have hlength : ∀ r ∈ result, r.mutationResults.length = batch.mutations.length :=
    fun r hr => (hresult r hr).length_eq.symm
  rw [applyTo, hardAssert_pos hkey, hardAssert_pos hlength]
  simp only [ok_bind]
  refine applyFrom_ok hkey ?_
  intro rs hrs
  obtain ⟨r, hr, rfl⟩ := Option.map_eq_some_iff.mp hrs
  exact hresult r hr

/-- A batch leaves the other documents alone. -/
theorem applyTo_of_not_mutates {result : Option (MutationBatchResult V)}
    (hkey : KeyedAt key maybeDoc)
    (hlength : ∀ r ∈ result, r.mutationResults.length = batch.mutations.length)
    (h : ¬ batch.Mutates key) : batch.applyTo maybeDoc key result = .ok maybeDoc := by
  have hloop : ∀ (i : Nat) (mutations : List (Mutation V)),
      (∀ mutation ∈ mutations, mutation.key ≠ key) →
      applyFrom batch key maybeDoc (result.map (·.mutationResults)) i mutations maybeDoc =
        .ok maybeDoc := by
    intro i mutations hne
    induction mutations generalizing i with
    | nil => rfl
    | cons mutation mutations ih =>
        rw [applyFrom, if_neg (hne mutation List.mem_cons_self)]
        exact ih (i + 1) fun mutation' hmem => hne mutation' (List.mem_cons_of_mem _ hmem)
  rw [applyTo, hardAssert_pos hkey, hardAssert_pos hlength]
  exact hloop 0 batch.mutations fun mutation hmem heq => h ⟨mutation, hmem, heq⟩

end MutationBatch

/-! ## The result of a batch -/

namespace MutationBatchResult

variable {batch : MutationBatch V} {commitVersion : SnapshotVersion}
  {mutationResults : List (MutationResult V)} {streamToken : Option String}

theorem find?_foldl_insert {ps : List (Mutation V × MutationResult V)} {key : DocumentKey}
    {versions : SortedBy (Prod.fst : DocumentKey × SnapshotVersion → DocumentKey)}
    (h : versions.find? key ≠ none ∨ ∃ p ∈ ps, p.1.key = key) :
    (ps.foldl (fun versions p => versions.insert (p.1.key, p.2.version.getD commitVersion))
      versions).find? key ≠ none := by
  induction ps generalizing versions with
  | nil => simpa using h
  | cons p ps ih =>
      refine ih ?_
      rw [SortedBy.find?_insert]
      by_cases heq : p.1.key = key
      · exact Or.inl (by simp [heq])
      · refine h.imp (fun hfound => by simpa [heq] using hfound) ?_
        rintro ⟨q, hq, rfl⟩
        rcases List.mem_cons.mp hq with rfl | hq
        · exact absurd rfl heq
        · exact ⟨q, hq, rfl⟩

/-- The results are for the mutations of the batch, and there is a version for every document. -/
structure Complete (result : MutationBatchResult V) : Prop where
  answered : result.batch.AnsweredBy result.mutationResults
  versions : ∀ key, result.batch.Mutates key → result.docVersions.find? key ≠ none

/-- Results that are for the mutations make a result of the batch. -/
theorem resultWithBatch_ok (h : batch.AnsweredBy mutationResults) :
    ∃ result, resultWithBatch batch commitVersion mutationResults streamToken = .ok result ∧
      result.batch = batch ∧ result.commitVersion = commitVersion ∧ result.Complete := by
  refine ⟨_, by rw [resultWithBatch, hardAssert_pos h.length_eq]; rfl, rfl, rfl, ⟨h, ?_⟩⟩
  rintro key ⟨mutation, hmem, rfl⟩
  refine find?_foldl_insert (Or.inr ?_)
  obtain ⟨i, hi, rfl⟩ := List.mem_iff_getElem.mp hmem
  have hi' : i < mutationResults.length := h.length_eq ▸ hi
  refine ⟨(batch.mutations[i], mutationResults[i]), ?_, rfl⟩
  rw [← List.getElem_zip]
  exact List.getElem_mem (by simpa using ⟨hi, hi'⟩)

end MutationBatchResult

end P0ker.Firestore
