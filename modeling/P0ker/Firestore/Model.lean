import P0ker.Lib.PathOrder
import P0ker.Lib.SortedBy

/-!
# The Firestore client: documents and mutations

The part of the vendored client that says what a write does to a document: paths and keys, values,
documents that exist or are known to be deleted, preconditions, the four kinds of mutation, and
batches of mutations with the results the server sends for them.

A `HARD_ASSERT` that fails ends the program: an operation that checks one returns in
`Except String`, the error being the text of the assertion.
-/

namespace P0ker.Firestore

/-! ## Assertions -/

/-- `HARD_ASSERT(p, message)`. -/
def hardAssert (p : Prop) [Decidable p] (message : String) : Except String Unit :=
  if p then .ok () else .error message

section Assertions

variable {α β : Type} {p : Prop} [Decidable p] {message : String}

@[simp] theorem hardAssert_pos (h : p) : hardAssert p message = .ok () :=
  if_pos h

@[simp] theorem ok_bind (a : α) (f : α → Except String β) : (Except.ok a >>= f) = f a :=
  rfl

@[simp] theorem pure_eq_ok (a : α) : (pure a : Except String α) = .ok a :=
  rfl

theorem bind_eq_ok {x : Except String α} {f : α → Except String β} {b : β} :
    x >>= f = .ok b ↔ ∃ a, x = .ok a ∧ f a = .ok b := by
  cases x with
  | error e =>
      constructor
      · intro h
        cases h
      · rintro ⟨a, h, -⟩
        cases h
  | ok a => simp

end Assertions

/-! ## Paths and keys -/

/-- The segments of a path, compared one after the other. -/
abbrev ResourcePath := List String

/-- A path names a document if it has an even number of segments. -/
abbrev IsDocumentKey (path : ResourcePath) : Prop :=
  path.length % 2 = 0

/-- The key of a document: its path. -/
abbrev DocumentKey := { path : ResourcePath // IsDocumentKey path }

/-- The key at which a scan of a collection starts: the empty segment comes before all others. -/
def collectionStart (path : ResourcePath) (h : ¬ IsDocumentKey path) : DocumentKey :=
  ⟨path ++ [""], by
    rw [IsDocumentKey, List.length_append, List.length_singleton]
    omega⟩

/-- A point in the server's time; `0` is `SnapshotVersion::None()`. -/
abbrev SnapshotVersion := Int

/-! ## Values -/

/-- A value: an object, or a value without fields. -/
inductive FieldValue (V : Type) where
  | leaf (v : V)
  | object (fields : List (String × FieldValue V))

/-- The fields of an object, in the order of their names. -/
abbrev ObjectValue (V : Type) := List (String × FieldValue V)

/-- The path of a field: there is at least one name in it. -/
structure FieldPath where
  first : String
  rest : List String

variable {V : Type}

/-- `valueForPath:` -/
def valueForPath : FieldValue V → List String → Option (FieldValue V)
  | value, [] => some value
  | .object fields, name :: path => (fields.lookup name).bind fun value => valueForPath value path
  | .leaf _, _ :: _ => none

/-- The object in a field; an empty object if there is none. -/
def childObject (fields : ObjectValue V) (name : String) : ObjectValue V :=
  match fields.lookup name with
  | some (.object child) => child
  | _ => []

/-- `objectBySettingValue:forField:` -/
def settingField (fields : ObjectValue V) (name : String) (value : FieldValue V) : ObjectValue V :=
  SortedBy.insertList Prod.fst (name, value) fields

/-- `objectBySettingValue:forPath:` -/
def objectBySettingValue (fields : ObjectValue V) (value : FieldValue V) (first : String) :
    List String → ObjectValue V
  | [] => settingField fields first value
  | next :: rest =>
      settingField fields first
        (.object (objectBySettingValue (childObject fields first) value next rest))

/-- `objectByDeletingPath:` -/
def objectByDeletingPath (fields : ObjectValue V) (first : String) : List String → ObjectValue V
  | [] => fields.filter (·.1 ≠ first)
  | next :: rest =>
      match fields.lookup first with
      | some (.object child) => settingField fields first
          (.object (objectByDeletingPath child next rest))
      | _ => fields

/-! ## Documents -/

/-- `FSTDocument` -/
structure Document (V : Type) where
  key : DocumentKey
  version : SnapshotVersion
  data : ObjectValue V
  hasLocalMutations : Bool

/-- `FSTMaybeDocument`: a document, or the knowledge that there is none. -/
inductive MaybeDocument (V : Type) where
  | document (doc : Document V)
  | deleted (key : DocumentKey) (version : SnapshotVersion)

namespace MaybeDocument

def key : MaybeDocument V → DocumentKey
  | .document doc => doc.key
  | .deleted key _ => key

def version : MaybeDocument V → SnapshotVersion
  | .document doc => doc.version
  | .deleted _ version => version

/-- The document, if there is one. -/
def document? : MaybeDocument V → Option (Document V)
  | .document doc => some doc
  | .deleted _ _ => none

end MaybeDocument

/-! ## Mutations -/

inductive Precondition where
  | none
  | exists (expected : Bool)
  | updateTime (version : SnapshotVersion)

/-- `IsValidFor` -/
def Precondition.isValidFor : Precondition → Option (MaybeDocument V) → Bool
  | .updateTime version, some (.document doc) => doc.version = version
  | .updateTime _, _ => false
  | .exists true, maybeDoc => maybeDoc.any (·.document?.isSome)
  | .exists false, maybeDoc => maybeDoc.all (·.document?.isNone)
  | .none, _ => true

/-- The two virtual functions of a `TransformOperation`. -/
structure TransformOperation (V : Type) where
  applyToLocalView : (previousValue : Option (FieldValue V)) → (localWriteTime : Int) → FieldValue V
  applyToRemoteDocument : (previousValue : Option (FieldValue V)) →
    (transformResult : FieldValue V) → FieldValue V

structure FieldTransform (V : Type) where
  path : FieldPath
  transformation : TransformOperation V

/-- `FSTMutation`: its four kinds. -/
inductive Mutation (V : Type) where
  | set (key : DocumentKey) (precondition : Precondition) (value : ObjectValue V)
  | patch (key : DocumentKey) (precondition : Precondition) (fieldMask : List FieldPath)
      (value : ObjectValue V)
  | transform (key : DocumentKey) (fieldTransforms : List (FieldTransform V))
  | delete (key : DocumentKey) (precondition : Precondition)

/-- `FSTMutationResult`: what the server says of one mutation. -/
structure MutationResult (V : Type) where
  version : Option SnapshotVersion
  transformResults : Option (List (FieldValue V))

namespace Mutation

def key : Mutation V → DocumentKey
  | .set key _ _ | .patch key _ _ _ | .transform key _ | .delete key _ => key

/-- A transform comes with the precondition that the document exists. -/
def precondition : Mutation V → Precondition
  | .set _ precondition _ | .patch _ precondition _ _ | .delete _ precondition => precondition
  | .transform _ _ => .exists true

/-- `patchObjectValue:` -/
def patchObjectValue (fieldMask : List FieldPath) (value objectValue : ObjectValue V) :
    ObjectValue V :=
  fieldMask.foldl (fun result path =>
    match valueForPath (.object value) (path.first :: path.rest) with
    | some newValue => objectBySettingValue result newValue path.first path.rest
    | none => objectByDeletingPath result path.first path.rest) objectValue

/-- The value of a field in the document the batch started from. -/
def previousValue (baseDocument : Option (MaybeDocument V)) (path : FieldPath) :
    Option (FieldValue V) :=
  (baseDocument.bind MaybeDocument.document?).bind fun doc =>
    valueForPath (.object doc.data) (path.first :: path.rest)

/-- `serverTransformResultsWithBaseDocument:serverTransformResults:` -/
def serverTransformResults (fieldTransforms : List (FieldTransform V))
    (baseDocument : Option (MaybeDocument V)) (results : List (FieldValue V)) :
    Except String (List (FieldValue V)) := do
  hardAssert (fieldTransforms.length = results.length)
    "server transform result count (%s) should match field transforms count (%s)"
  return List.zipWith (fun transform result =>
    transform.transformation.applyToRemoteDocument
      (previousValue baseDocument transform.path) result)
    fieldTransforms results

/-- `localTransformResultsWithBaseDocument:writeTime:` -/
def localTransformResults (fieldTransforms : List (FieldTransform V))
    (baseDocument : Option (MaybeDocument V)) (localWriteTime : Int) : List (FieldValue V) :=
  fieldTransforms.map fun transform =>
    transform.transformation.applyToLocalView (previousValue baseDocument transform.path)
      localWriteTime

/-- `transformObject:transformResults:` -/
def transformObject (fieldTransforms : List (FieldTransform V)) (objectValue : ObjectValue V)
    (transformResults : List (FieldValue V)) : Except String (ObjectValue V) := do
  hardAssert (transformResults.length = fieldTransforms.length) "Transform results length mismatch."
  return (fieldTransforms.zip transformResults).foldl
    (fun result p => objectBySettingValue result p.2 p.1.path.first p.1.path.rest) objectValue

/-- `applyTo:baseDocument:localWriteTime:mutationResult:`, without a result when the mutation is
only applied to the local view. -/
def applyTo (mutation : Mutation V) (maybeDoc baseDoc : Option (MaybeDocument V))
    (localWriteTime : Int) (mutationResult : Option (MutationResult V)) :
    Except String (Option (MaybeDocument V)) :=
  let hasLocalMutations := mutationResult.isNone
  match mutation with
  | .set key precondition value => do
      hardAssert (mutationResult.all (·.transformResults.isNone))
        "Transform results received by FSTSetMutation."
      if precondition.isValidFor maybeDoc then
        match maybeDoc with
        | none | some (.deleted _ _) => return some (.document ⟨key, 0, value, hasLocalMutations⟩)
        | some (.document doc) => do
            hardAssert (doc.key = key) "Can only set a document with the same key"
            return some (.document ⟨doc.key, doc.version, value, hasLocalMutations⟩)
      else
        return maybeDoc
  | .patch key precondition fieldMask value => do
      hardAssert (mutationResult.all (·.transformResults.isNone))
        "Transform results received by FSTPatchMutation."
      if precondition.isValidFor maybeDoc then
        -- the precondition applied, so the document is created if there is none
        let doc : Document V :=
          match maybeDoc with
          | none => ⟨key, 0, [], hasLocalMutations⟩
          | some (.deleted key version) => ⟨key, version, [], hasLocalMutations⟩
          | some (.document doc) => doc
        hardAssert (doc.key = key) "Can only patch a document with the same key"
        return some (.document
          ⟨doc.key, doc.version, patchObjectValue fieldMask value doc.data, hasLocalMutations⟩)
      else
        return maybeDoc
  | .transform key fieldTransforms => do
      hardAssert (mutationResult.all (·.transformResults.isSome))
        "Transform results missing for FSTTransformMutation."
      if (Precondition.exists true).isValidFor maybeDoc then
        match maybeDoc.bind MaybeDocument.document? with
        | none => .error "Unknown MaybeDocument type %s"
        | some doc => do
            hardAssert (doc.key = key) "Can only transform a document with the same key"
            let transformResults ← match mutationResult.bind (·.transformResults) with
              | some results => serverTransformResults fieldTransforms baseDoc results
              | none => pure (localTransformResults fieldTransforms baseDoc localWriteTime)
            let newData ← transformObject fieldTransforms doc.data transformResults
            return some (.document ⟨doc.key, doc.version, newData, hasLocalMutations⟩)
      else
        return maybeDoc
  | .delete key precondition => do
      hardAssert (mutationResult.all (·.transformResults.isNone))
        "Transform results received by FSTDeleteMutation."
      if precondition.isValidFor maybeDoc then
        hardAssert (∀ doc ∈ maybeDoc, doc.key = key) "Can only delete a document with the same key"
        return some (.deleted key 0)
      else
        return maybeDoc

end Mutation

/-! ## What a mutation does -/

/-- What is known is known of the document with this key. -/
abbrev KeyedAt (key : DocumentKey) (maybeDoc : Option (MaybeDocument V)) : Prop :=
  ∀ doc ∈ maybeDoc, doc.key = key

theorem KeyedAt.none {key : DocumentKey} : KeyedAt (V := V) key none := by
  rintro doc ⟨⟩

theorem keyedAt_some {key : DocumentKey} {doc : MaybeDocument V} :
    KeyedAt key (some doc) ↔ doc.key = key := by
  simp [KeyedAt]

/-- The result is one for the mutation: transform results come for a transform, one for each of its
fields, and for no other mutation. -/
def MutationResult.Answers (result : MutationResult V) : Mutation V → Prop
  | .transform _ fieldTransforms => ∃ results, result.transformResults = some results ∧
      results.length = fieldTransforms.length
  | .set _ _ _ | .patch _ _ _ _ | .delete _ _ => result.transformResults = none

namespace Mutation

variable {mutation : Mutation V} {maybeDoc : Option (MaybeDocument V)}
  {mutationResult : Option (MutationResult V)} (baseDoc : Option (MaybeDocument V))
  (localWriteTime : Int)

theorem all_isNone (h : ∀ result ∈ mutationResult, result.transformResults = none) :
    mutationResult.all (·.transformResults.isNone) := by
  rcases mutationResult with _ | result
  · rfl
  · simp [h result rfl]

/-- No assertion fails when a mutation is applied to what is known of its own document, with no
result or with one for it; and what is known then is known of the same document. -/
theorem applyTo_ok (hkey : KeyedAt mutation.key maybeDoc)
    (hresult : ∀ result ∈ mutationResult, result.Answers mutation) :
    ∃ doc, mutation.applyTo maybeDoc baseDoc localWriteTime mutationResult = .ok doc ∧
      KeyedAt mutation.key doc ∧ (maybeDoc.isSome → doc.isSome) := by
  have huntouched : ∃ doc, (.ok maybeDoc : Except String (Option (MaybeDocument V))) = .ok doc ∧
      KeyedAt mutation.key doc ∧ (maybeDoc.isSome → doc.isSome) := ⟨maybeDoc, rfl, hkey, id⟩
  cases mutation with
  | set key precondition value =>
      have hnone := all_isNone hresult
      simp only [applyTo, hardAssert_pos hnone, ok_bind]
      split
      · rcases maybeDoc with _ | ⟨doc⟩ | ⟨key', version⟩
        · exact ⟨_, rfl, keyedAt_some.mpr rfl, fun _ => rfl⟩
        · have hdoc : doc.key = key := keyedAt_some.mp hkey
          simp only [hardAssert_pos hdoc, ok_bind]
          exact ⟨_, rfl, keyedAt_some.mpr hdoc, fun _ => rfl⟩
        · exact ⟨_, rfl, keyedAt_some.mpr rfl, fun _ => rfl⟩
      · exact huntouched
  | patch key precondition fieldMask value =>
      have hnone := all_isNone hresult
      simp only [applyTo, hardAssert_pos hnone, ok_bind]
      split
      · rcases maybeDoc with _ | ⟨doc⟩ | ⟨key', version⟩
        · simp only [hardAssert_pos, ok_bind]
          exact ⟨_, rfl, keyedAt_some.mpr rfl, fun _ => rfl⟩
        · have hdoc : doc.key = key := keyedAt_some.mp hkey
          simp only [hardAssert_pos hdoc, ok_bind]
          exact ⟨_, rfl, keyedAt_some.mpr hdoc, fun _ => rfl⟩
        · have hkey' : key' = key := keyedAt_some.mp hkey
          simp only [hardAssert_pos hkey', ok_bind]
          exact ⟨_, rfl, keyedAt_some.mpr hkey', fun _ => rfl⟩
      · exact huntouched
  | transform key fieldTransforms =>
      have hsome : mutationResult.all (·.transformResults.isSome) := by
        rcases mutationResult with _ | result
        · rfl
        · obtain ⟨results, hresults, -⟩ := hresult result rfl
          simp [hresults]
      simp only [applyTo, hardAssert_pos hsome, ok_bind]
      split
      · next hvalid =>
          rcases maybeDoc with _ | ⟨doc⟩ | ⟨key', version⟩
          · simp [Precondition.isValidFor] at hvalid
          · have hdoc : doc.key = key := keyedAt_some.mp hkey
            have hdone : ∀ results : List (FieldValue V), results.length = fieldTransforms.length →
                ∃ data, transformObject fieldTransforms doc.data results = .ok data := by
              intro results hlength
              exact ⟨_, by rw [transformObject, hardAssert_pos hlength]; rfl⟩
            simp only [Option.bind_some, MaybeDocument.document?, hardAssert_pos hdoc, ok_bind]
            rcases mutationResult with _ | result
            · obtain ⟨data, hdata⟩ := hdone
                (localTransformResults fieldTransforms baseDoc localWriteTime)
                (List.length_map _)
              simp only [Option.bind_none, pure_eq_ok, ok_bind, hdata]
              exact ⟨_, rfl, keyedAt_some.mpr hdoc, fun _ => rfl⟩
            · obtain ⟨results, hresults, hlength⟩ := hresult result rfl
              simp only [Option.bind_some, hresults, serverTransformResults,
                hardAssert_pos hlength.symm, pure_eq_ok, ok_bind]
              obtain ⟨data, hdata⟩ := hdone (List.zipWith (fun transform result =>
                transform.transformation.applyToRemoteDocument
                  (previousValue baseDoc transform.path) result) fieldTransforms results)
                (by simp [hlength])
              simp only [hdata, ok_bind]
              exact ⟨_, rfl, keyedAt_some.mpr hdoc, fun _ => rfl⟩
          · simp [Precondition.isValidFor, MaybeDocument.document?] at hvalid
      · exact huntouched
  | delete key precondition =>
      have hnone := all_isNone hresult
      simp only [applyTo, hardAssert_pos hnone, ok_bind]
      split
      · simp only [hardAssert_pos (show ∀ doc ∈ maybeDoc, doc.key = key from hkey), ok_bind]
        exact ⟨_, rfl, keyedAt_some.mpr rfl, fun _ => rfl⟩
      · exact huntouched

/-- `setData`: a document that is set without a precondition has the new data. -/
theorem set_applyTo {key : DocumentKey} {value : ObjectValue V} (hkey : KeyedAt key maybeDoc) :
    ∃ version, (Mutation.set key .none value).applyTo maybeDoc baseDoc localWriteTime none =
      .ok (some (.document ⟨key, version, value, true⟩)) := by
  rcases maybeDoc with _ | ⟨doc⟩ | ⟨key', version⟩
  · exact ⟨0, rfl⟩
  · have hdoc : doc.key = key := keyedAt_some.mp hkey
    refine ⟨doc.version, ?_⟩
    simp [applyTo, Precondition.isValidFor, hdoc]
  · exact ⟨0, rfl⟩

end Mutation

end P0ker.Firestore
