import Mathlib.Data.List.Sort
import Mathlib.Data.Prod.Lex
import P0ker.Firestore.MutationQueue

/-!
# The Firestore client: the mutation queue in memory

The batches are in an array in which every place holds the id after the one before, so that a batch
is found by subtracting the id of the first. A batch that is rejected while acknowledged ones are
held in front of it becomes a tombstone, and goes when what is in front of it goes. An index holds
every document with every batch that mutates it.

The main result is that the queue is lawful: with the ids consecutive and in the range of an
`int32_t`, no tombstone in front and the index exact, none of the assertions fails and every
question is answered from the live batches.
-/

namespace P0ker.Firestore

variable {V : Type}

/-! ## References -/

/-- `FSTDocumentReference`, ordered by the key and then the id. -/
abbrev DocumentReference := DocumentKey ×ₗ Int

namespace DocumentReference

def of (key : DocumentKey) (id : Int) : DocumentReference :=
  toLex (key, id)

def key (reference : DocumentReference) : DocumentKey :=
  (ofLex reference).1

def id (reference : DocumentReference) : Int :=
  (ofLex reference).2

@[simp] theorem key_of (key : DocumentKey) (id : Int) : (of key id).key = key :=
  rfl

@[simp] theorem id_of (key : DocumentKey) (id : Int) : (of key id).id = id :=
  rfl

@[simp] theorem of_key_id (reference : DocumentReference) :
    of reference.key reference.id = reference :=
  rfl

theorem of_le {key : DocumentKey} {id : Int} {reference : DocumentReference} :
    of key id ≤ reference ↔ key < reference.key ∨ key = reference.key ∧ id ≤ reference.id :=
  Prod.Lex.toLex_le_toLex

theorem lt_iff {r s : DocumentReference} : r < s ↔ r.key < s.key ∨ r.key = s.key ∧ r.id < s.id :=
  Prod.Lex.toLex_lt_toLex

end DocumentReference

/-- A set of references. -/
abbrev ReferenceIndex := SortedBy (fun reference : DocumentReference => reference)

/-! ## The queue -/

/-- `FSTMemoryMutationQueue` -/
structure MemoryMutationQueue (V : Type) where
  queue : List (MutationBatch V) := []
  batchesByDocumentKey : ReferenceIndex := ∅
  nextBatchID : Int := 1
  highestAcknowledgedBatchID : Int := batchIDUnknown
  lastStreamToken : Option String := none

namespace MemoryMutationQueue

def isEmpty (q : MemoryMutationQueue V) : Bool :=
  q.queue.isEmpty

def start (q : MemoryMutationQueue V) : Except String (MemoryMutationQueue V) := do
  let q :=
    if q.isEmpty then
      { q with nextBatchID := 1, highestAcknowledgedBatchID := batchIDUnknown }
    else q
  hardAssert (q.highestAcknowledgedBatchID < q.nextBatchID)
    "highestAcknowledgedBatchID must be less than the nextBatchID"
  return q

/-- `indexOfBatchID:`, the place of a batch by its id; it may be negative, or past the end. -/
def indexOfBatchID (q : MemoryMutationQueue V) (batchID : Int) : Int :=
  match q.queue with
  | [] => 0
  | firstBatch :: _ => int32 (batchID - firstBatch.batchID)

/-- `indexOfExistingBatchID:action:` -/
def indexOfExistingBatchID (q : MemoryMutationQueue V) (batchID : Int) : Except String Nat := do
  let index := q.indexOfBatchID batchID
  hardAssert (0 ≤ index ∧ index < q.queue.length) "Batches must exist to be %s"
  return index.toNat

def acknowledgeBatch (q : MemoryMutationQueue V) (batch : MutationBatch V)
    (streamToken : Option String) : Except String (MemoryMutationQueue V) := do
  hardAssert (q.highestAcknowledgedBatchID < batch.batchID)
    "Mutation batchIDs must be acknowledged in order"
  let batchIndex ← q.indexOfExistingBatchID batch.batchID
  let check? := q.queue[batchIndex]?
  hardAssert (∀ check ∈ check?, batch.batchID = check.batchID)
    "Queue ordering failure: expected batch %s, got batch %s"
  hardAssert (∀ check ∈ check?, ¬ check.isTombstone) "Can't acknowledge a previously removed batch"
  return { q with highestAcknowledgedBatchID := batch.batchID, lastStreamToken := streamToken }

/-- `addMutationBatchWithWriteTime:mutations:` -/
def addMutationBatch (q : MemoryMutationQueue V) (localWriteTime : Int)
    (mutations : List (Mutation V)) : Except String (MutationBatch V × MemoryMutationQueue V) := do
  hardAssert (0 < mutations.length) "Mutation batches should not be empty"
  let batchID := q.nextBatchID
  hardAssert (∀ prior ∈ q.queue.getLast?, prior.batchID < batchID)
    "Mutation batchIDs must be monotonically increasing order"
  let batch : MutationBatch V := ⟨batchID, localWriteTime, mutations⟩
  return (batch, { q with
    nextBatchID := int32 (batchID + 1)
    queue := q.queue ++ [batch]
    batchesByDocumentKey := batch.mutations.foldl
      (fun references mutation => references.insert (.of mutation.key batchID))
        q.batchesByDocumentKey })

def lookupMutationBatch (q : MemoryMutationQueue V) (batchID : Int) :
    Except String (Option (MutationBatch V)) :=
  let index := q.indexOfBatchID batchID
  if index < 0 then return none
  else match q.queue[index.toNat]? with
    | none => return none
    | some batch => do
        hardAssert (batch.batchID = batchID) "If found batch must match"
        return if batch.isTombstone then none else some batch

def nextMutationBatchAfterBatchID (q : MemoryMutationQueue V) (batchID : Int) :
    Option (MutationBatch V) :=
  let nextBatchID := int32 (max batchID q.highestAcknowledgedBatchID + 1)
  let index := (q.indexOfBatchID nextBatchID).toNat
  (q.queue.drop index).find? (!·.isTombstone)

/-- `allLiveMutationBatchesBeforeIndex:` -/
def allLiveMutationBatchesBeforeIndex (q : MemoryMutationQueue V) (endIndex : Nat) :
    List (MutationBatch V) :=
  (q.queue.take endIndex).filter (!·.isTombstone)

def allMutationBatches (q : MemoryMutationQueue V) : List (MutationBatch V) :=
  q.allLiveMutationBatchesBeforeIndex q.queue.length

def allMutationBatchesThroughBatchID (q : MemoryMutationQueue V) (batchID : Int) :
    List (MutationBatch V) :=
  let endIndex := q.indexOfBatchID batchID
  let endIndex :=
    if endIndex < 0 then 0
    else if q.queue.length ≤ endIndex then q.queue.length
    else endIndex.toNat + 1
  q.allLiveMutationBatchesBeforeIndex endIndex

/-- The block of `allMutationBatchesAffectingDocumentKey:`, for one reference after the other. -/
def batchesOf (q : MemoryMutationQueue V) :
    List DocumentReference → Except String (List (MutationBatch V))
  | [] => return []
  | reference :: references => do
      match ← q.lookupMutationBatch reference.id with
      | none => .error "Batches in the index must exist in the main table"
      | some batch => return batch :: (← q.batchesOf references)

def allMutationBatchesAffectingDocumentKey (q : MemoryMutationQueue V) (documentKey : DocumentKey) :
    Except String (List (MutationBatch V)) :=
  q.batchesOf (q.batchesByDocumentKey.scan (.of documentKey 0) (·.key = documentKey))

/-- The key the scan of a query starts at. -/
def startKey (path : ResourcePath) : DocumentKey :=
  if h : IsDocumentKey path then ⟨path, h⟩ else collectionStart path h

/-- The ids of the batches with a document directly under the path. -/
def uniqueBatchIDs (q : MemoryMutationQueue V) (path : ResourcePath) :
    SortedBy (fun batchID : Int => batchID) :=
  let immediateChildrenPathLength := path.length + 1
  let references := q.batchesByDocumentKey.scan (.of (startKey path) 0)
    fun reference => path.isPrefixOf reference.key.1
  (references.filter (·.key.1.length = immediateChildrenPathLength)).foldl
    (fun ids reference => ids.insert reference.id) ∅

/-- The batches with these ids that are still there. -/
def batchesWith (q : MemoryMutationQueue V) : List Int → Except String (List (MutationBatch V))
  | [] => return []
  | batchID :: batchIDs => do
      match ← q.lookupMutationBatch batchID with
      | none => q.batchesWith batchIDs
      | some batch => return batch :: (← q.batchesWith batchIDs)

def allMutationBatchesAffectingQuery (q : MemoryMutationQueue V) (path : ResourcePath) :
    Except String (List (MutationBatch V)) :=
  q.batchesWith (q.uniqueBatchIDs path).toList

/-- The loop that checks that the batches are next to each other in the queue, tombstones apart; how
far it has come in the queue. -/
def checkContiguous : (batches queue : List (MutationBatch V)) → Except String Nat
  | [], _ => return 0
  | _ :: _, [] => return 0
  | expected :: batches, batch :: queue =>
      if batch.isTombstone then return (← checkContiguous (expected :: batches) queue) + 1
      else do
        hardAssert (batch.batchID = expected.batchID)
          "Removed batches must be contiguous in the queue"
        return (← checkContiguous batches queue) + 1

def removeMutationBatches (q : MemoryMutationQueue V) (batches : List (MutationBatch V)) :
    Except String (MemoryMutationQueue V) :=
  match batches with
  | [] => .error "Should not remove mutations when none exist."
  | first :: rest => do
      let startIndex ← q.indexOfExistingBatchID first.batchID
      hardAssert (∀ batch ∈ q.queue[startIndex]?, batch.batchID = first.batchID)
        "Removed batches must exist in the queue"
      let queueIndex := startIndex + 1 + (← checkContiguous rest (q.queue.drop (startIndex + 1)))
      let queue :=
        if startIndex = 0 then
          (q.queue.drop queueIndex).dropWhile (·.isTombstone)
        else
          q.queue.take startIndex ++
            ((q.queue.drop startIndex).take (queueIndex - startIndex)).map (·.toTombstone) ++
            q.queue.drop queueIndex
      let references := batches.foldl (fun references batch =>
        batch.mutations.foldl (fun references mutation =>
          references.erase (.of mutation.key batch.batchID)) references) q.batchesByDocumentKey
      return { q with queue := queue, batchesByDocumentKey := references }

def performConsistencyCheck (q : MemoryMutationQueue V) : Except String Unit :=
  if q.queue.length = 0 then
    hardAssert (q.batchesByDocumentKey.toList = [])
      "Document leak -- detected dangling mutation references when queue is empty."
  else return ()

def containsKey (q : MemoryMutationQueue V) (key : DocumentKey) : Bool :=
  (q.batchesByDocumentKey.fromKey (.of key 0)).head?.any (·.key = key)

instance : MutationQueue V (MemoryMutationQueue V) where
  start := start
  isEmpty := isEmpty
  highestAcknowledgedBatchID := highestAcknowledgedBatchID
  acknowledgeBatch := acknowledgeBatch
  lastStreamToken := lastStreamToken
  setLastStreamToken q token := { q with lastStreamToken := token }
  addMutationBatch := addMutationBatch
  lookupMutationBatch := lookupMutationBatch
  nextMutationBatchAfterBatchID := nextMutationBatchAfterBatchID
  allMutationBatches := allMutationBatches
  allMutationBatchesThroughBatchID := allMutationBatchesThroughBatchID
  allMutationBatchesAffectingDocumentKey := allMutationBatchesAffectingDocumentKey
  allMutationBatchesAffectingQuery := allMutationBatchesAffectingQuery
  removeMutationBatches := removeMutationBatches
  performConsistencyCheck := performConsistencyCheck
  containsKey := containsKey

/-! ## Consecutive ids -/

/-- The ids are consecutive, from `first` on. -/
def Consecutive : (first : Int) → List (MutationBatch V) → Prop
  | _, [] => True
  | first, batch :: batches => batch.batchID = first ∧ Consecutive (first + 1) batches

section Consecutive

variable {first : Int} {batches rest : List (MutationBatch V)} {b : MutationBatch V}

theorem consecutive_append :
    Consecutive first (batches ++ rest) ↔
      Consecutive first batches ∧ Consecutive (first + batches.length) rest := by
  induction batches generalizing first with
  | nil => simp [Consecutive]
  | cons c batches ih =>
      have hlength : first + 1 + (batches.length : Int) =
          first + ((c :: batches).length : Int) := by
        rw [List.length_cons]
        omega
      rw [List.cons_append, Consecutive, Consecutive, ih, and_assoc, hlength]

theorem Consecutive.bounds (h : Consecutive first batches) (hb : b ∈ batches) :
    first ≤ b.batchID ∧ b.batchID < first + batches.length := by
  induction batches generalizing first with
  | nil => cases hb
  | cons c batches ih =>
      obtain ⟨hc, hrest⟩ := h
      rw [List.length_cons]
      rcases List.mem_cons.mp hb with rfl | hb
      · omega
      · have hbounds := ih hrest hb
        omega

theorem Consecutive.sorted (h : Consecutive first batches) :
    batches.Pairwise fun b c => b.batchID < c.batchID := by
  induction batches generalizing first with
  | nil => exact List.Pairwise.nil
  | cons b batches ih =>
      obtain ⟨hb, hrest⟩ := h
      refine List.pairwise_cons.mpr ⟨?_, ih hrest⟩
      intro c hc
      have hbounds := hrest.bounds hc
      omega

theorem Consecutive.getElem? (h : Consecutive first batches) {i : Nat} (hi : batches[i]? = some b) :
    b.batchID = first + i := by
  induction batches generalizing first i with
  | nil => cases hi
  | cons c batches ih =>
      cases i with
      | zero =>
          obtain rfl := Option.some.inj hi
          rw [h.1]
          omega
      | succ i =>
          have hid := ih h.2 hi
          omega

/-- From the place of an id on there are the larger ids. -/
theorem Consecutive.drop (h : Consecutive first batches) (id : Int) :
    batches.drop (id - first).toNat = batches.filter (id ≤ ·.batchID) := by
  induction batches generalizing first with
  | nil => simp
  | cons c batches ih =>
      by_cases hle : id ≤ first
      · have hall : ∀ b ∈ c :: batches, id ≤ b.batchID := fun b hb => hle.trans (h.bounds hb).1
        rw [Int.toNat_of_nonpos (by omega), List.drop_zero,
          List.filter_eq_self.mpr fun b hb => by simpa using hall b hb]
      · obtain ⟨hc, hrest⟩ := h
        have hplace : (id - first).toNat = (id - (first + 1)).toNat + 1 := by omega
        rw [hplace, List.drop_succ_cons, List.filter_cons_of_neg (by simpa [hc] using hle),
          ih hrest]

/-- Up to the place of an id there are the smaller ids. -/
theorem Consecutive.take (h : Consecutive first batches) (id : Int) :
    batches.take (id + 1 - first).toNat = batches.filter (·.batchID ≤ id) := by
  induction batches generalizing first with
  | nil => simp
  | cons c batches ih =>
      by_cases hle : first ≤ id
      · obtain ⟨hc, hrest⟩ := h
        have hplace : (id + 1 - first).toNat = (id + 1 - (first + 1)).toNat + 1 := by omega
        rw [hplace, List.take_succ_cons, List.filter_cons_of_pos (by simpa [hc] using hle),
          ih hrest]
      · have hnone : ∀ b ∈ c :: batches, ¬ b.batchID ≤ id := by
          intro b hb
          have hbounds := h.bounds hb
          omega
        rw [Int.toNat_of_nonpos (by omega), List.take_zero,
          List.filter_eq_nil_iff.mpr fun b hb => by simpa using hnone b hb]

theorem Consecutive.map_toTombstone (h : Consecutive first batches) :
    Consecutive first (batches.map (·.toTombstone)) := by
  induction batches generalizing first with
  | nil => trivial
  | cons c batches ih => exact ⟨h.1, ih h.2⟩

end Consecutive

/-! ## What the queue keeps -/

/-- The batches that are not tombstones. -/
def live (q : MemoryMutationQueue V) : List (MutationBatch V) :=
  q.queue.filter (!·.isTombstone)

/-- The id of the first batch in the queue, if there is one. -/
def firstBatchID (q : MemoryMutationQueue V) : Int :=
  q.nextBatchID - q.queue.length

/-- The ids are consecutive and positive and the last one is the one before the next, which is still
an `int32_t`; there is no tombstone in front; and the index holds what the batches mutate. -/
structure Inv (q : MemoryMutationQueue V) : Prop where
  consecutive : Consecutive q.firstBatchID q.queue
  positive : 1 ≤ q.firstBatchID
  bounded : q.nextBatchID ≤ batchIDMax
  head : ∀ b ∈ q.queue.head?, ¬ b.isTombstone
  index : ∀ reference, reference ∈ q.batchesByDocumentKey ↔
    ∃ b ∈ q.queue, b.batchID = reference.id ∧ b.Mutates reference.key
  acknowledged : q.highestAcknowledgedBatchID < q.nextBatchID

/-- The queue stands for the outbox of its live batches. -/
structure Represents (q : MemoryMutationQueue V) (a : Outbox V) : Prop extends Inv q where
  batches : a.batches = q.live
  highest : a.acknowledged = q.highestAcknowledgedBatchID
  issued : a.issued = q.nextBatchID - 1

section Represents

variable {q : MemoryMutationQueue V} {a : Outbox V} {b : MutationBatch V} {batchID : Int}

theorem mem_live : b ∈ q.live ↔ b ∈ q.queue ∧ b.mutations ≠ [] := by
  rw [live, List.mem_filter]
  simp [MutationBatch.isTombstone]

theorem Represents.mem (h : Represents q a) : b ∈ a.batches ↔ b ∈ q.queue ∧ b.mutations ≠ [] := by
  rw [h.batches, mem_live]

theorem Inv.isBatchID (h : Inv q) (hb : b ∈ q.queue) : IsBatchID b.batchID := by
  have hbounds := h.consecutive.bounds hb
  have hpositive := h.positive
  rw [firstBatchID] at hbounds hpositive
  have hlast : b.batchID < q.nextBatchID := by omega
  have hfirst : 1 ≤ b.batchID := by omega
  exact ⟨le_trans (by decide) hfirst, hlast.trans_le h.bounded⟩

/-- The difference of two ids is an `int32_t`. -/
theorem Inv.indexOfBatchID (h : Inv q) (hlower : -1 ≤ batchID) (hupper : batchID ≤ 2147483647)
    (hne : q.queue ≠ []) :
    q.indexOfBatchID batchID = batchID - q.firstBatchID := by
  have hconsecutive := h.consecutive
  have hpositive := h.positive
  have hbounded : q.nextBatchID ≤ 2147483647 := h.bounded
  rw [MemoryMutationQueue.indexOfBatchID]
  split
  · next hnil => exact absurd hnil hne
  · next c _ hcons =>
      rw [hcons] at hconsecutive
      rw [hconsecutive.1]
      rw [firstBatchID] at hpositive ⊢
      exact int32_eq (by omega) (by omega)

theorem Inv.getElem? (h : Inv q) (hb : b ∈ q.queue) :
    q.queue[(b.batchID - q.firstBatchID).toNat]? = some b := by
  obtain ⟨i, hi⟩ := List.mem_iff_getElem?.mp hb
  have hid := h.consecutive.getElem? hi
  have hplace : (b.batchID - q.firstBatchID).toNat = i := by omega
  rw [hplace, hi]

theorem Inv.batchID_inj (h : Inv q) {c : MutationBatch V} (hb : b ∈ q.queue) (hc : c ∈ q.queue)
    (heq : b.batchID = c.batchID) : b = c := by
  have hb' := h.getElem? hb
  rw [heq, h.getElem? hc] at hb'
  exact (Option.some.inj hb').symm

theorem Inv.indexOfExistingBatchID (h : Inv q) (hb : b ∈ q.queue) :
    q.indexOfExistingBatchID b.batchID = .ok (b.batchID - q.firstBatchID).toNat := by
  have hbounds := h.consecutive.bounds hb
  have hid := h.isBatchID hb
  have hindex := h.indexOfBatchID hid.1 hid.2.le (List.ne_nil_of_mem hb)
  rw [MemoryMutationQueue.indexOfExistingBatchID, hindex, hardAssert_pos (by omega)]
  rfl

/-! ## Questions -/

theorem Represents.lookup (h : Represents q a) (hbatchID : IsBatchID batchID) :
    q.lookupMutationBatch batchID = .ok (a.lookup batchID) := by
  have hgone : ∀ x, (∀ b ∈ q.queue, b.batchID = batchID → b.mutations = []) →
      x = (none : Option (MutationBatch V)) → x = a.lookup batchID := by
    rintro x hdead rfl
    refine (List.find?_eq_none.mpr fun b hb => ?_).symm
    obtain ⟨hmem, hlive⟩ := h.mem.mp hb
    simpa using fun heq => hlive (hdead b hmem heq)
  by_cases hne : q.queue = []
  · have hindex : q.indexOfBatchID batchID = 0 := by
      rw [MemoryMutationQueue.indexOfBatchID, hne]
    rw [lookupMutationBatch, hindex, ← hgone none (by simp [hne]) rfl]
    simp [hne]
  · rw [lookupMutationBatch, h.toInv.indexOfBatchID hbatchID.1 hbatchID.2.le hne]
    split
    · next hneg =>
        refine congrArg Except.ok (hgone none ?_ rfl)
        intro b hb heq
        have hbounds := h.consecutive.bounds hb
        omega
    · next hpos =>
        split
        · next hnone =>
            refine congrArg Except.ok (hgone none ?_ rfl)
            rintro b hb rfl
            rw [h.toInv.getElem? hb] at hnone
            cases hnone
        · next b hb =>
            have hid : b.batchID = batchID := by
              have hplace := h.consecutive.getElem? hb
              omega
            have hmem := List.mem_of_getElem? hb
            rw [hardAssert_pos hid]
            simp only [ok_bind, pure_eq_ok]
            subst hid
            split
            · next hdead =>
                refine congrArg Except.ok (hgone none ?_ rfl)
                intro c hc heq
                rw [h.toInv.batchID_inj hc hmem heq]
                simpa [MutationBatch.isTombstone] using hdead
            · next hlive =>
                rw [Outbox.lookup_of_mem (h.mem.mpr ⟨hmem, ?_⟩)]
                simpa [MutationBatch.isTombstone] using hlive

theorem Represents.next (h : Represents q a) (hbatchID : IsBatchID batchID) :
    q.nextMutationBatchAfterBatchID batchID = a.next batchID := by
  rw [nextMutationBatchAfterBatchID, Outbox.next, h.batches, h.highest, live, List.find?_filter]
  by_cases hne : q.queue = []
  · simp [hne]
  · have hhighest := h.acknowledged.trans_le h.bounded
    have hlater : max batchID q.highestAcknowledgedBatchID < 2147483647 :=
      max_lt hbatchID.2 hhighest
    have hknown : -1 ≤ max batchID q.highestAcknowledgedBatchID :=
      hbatchID.1.trans (le_max_left _ _)
    rw [int32_eq (by omega) (by omega), h.toInv.indexOfBatchID (by omega) (by omega) hne,
      h.consecutive.drop, List.find?_filter]
    congr 1
    funext b
    simp only [Int.add_one_le_iff, and_comm]

theorem Represents.through (h : Represents q a) (hbatchID : IsBatchID batchID) :
    q.allMutationBatchesThroughBatchID batchID = a.batches.filter (·.batchID ≤ batchID) := by
  rw [h.batches, live, List.filter_comm]
  by_cases hne : q.queue = []
  · simp [allMutationBatchesThroughBatchID, allLiveMutationBatchesBeforeIndex, hne]
  · rw [← h.consecutive.take, allMutationBatchesThroughBatchID,
      h.toInv.indexOfBatchID hbatchID.1 hbatchID.2.le hne, allLiveMutationBatchesBeforeIndex]
    congr 1
    split_ifs with hneg hlarge
    · rw [Int.toNat_of_nonpos (by omega)]
    · rw [List.take_length, List.take_of_length_le (by omega)]
    · congr 1
      omega

/-- The batches with these ids. -/
theorem Represents.batchesWith (h : Represents q a) {batches : List (MutationBatch V)}
    (hmem : ∀ b ∈ batches, b ∈ a.batches) :
    q.batchesWith (batches.map (·.batchID)) = .ok batches := by
  induction batches with
  | nil => rfl
  | cons b batches ih =>
      rw [List.map_cons, MemoryMutationQueue.batchesWith,
        h.lookup (Outbox.isBatchID (hmem b List.mem_cons_self)),
        Outbox.lookup_of_mem (hmem b List.mem_cons_self),
        ih fun c hc => hmem c (List.mem_cons_of_mem _ hc)]
      rfl

theorem Represents.batchesOf (h : Represents q a) {references : List DocumentReference}
    {batches : List (MutationBatch V)} (hmem : ∀ b ∈ batches, b ∈ a.batches)
    (hids : references.map (·.id) = batches.map (·.batchID)) :
    q.batchesOf references = .ok batches := by
  induction batches generalizing references with
  | nil =>
      rw [List.map_eq_nil_iff.mp hids]
      rfl
  | cons b batches ih =>
      obtain ⟨reference, rest, rfl, hid, hrest⟩ := List.map_eq_cons_iff.mp hids
      rw [MemoryMutationQueue.batchesOf, hid,
        h.lookup (Outbox.isBatchID (hmem b List.mem_cons_self)),
          Outbox.lookup_of_mem (hmem b List.mem_cons_self),
        ih (fun c hc => hmem c (List.mem_cons_of_mem _ hc)) hrest]
      rfl

/-- The ids in the index are positive. -/
theorem Inv.id_pos (h : Inv q) {reference : DocumentReference}
    (hmem : reference ∈ q.batchesByDocumentKey) : 0 < reference.id := by
  obtain ⟨b, hb, hid, -⟩ := (h.index reference).mp hmem
  have hbounds := h.consecutive.bounds hb
  have hpositive := h.positive
  omega

/-- What is in the index is in the live batches. -/
theorem Represents.mem_index (h : Represents q a) {reference : DocumentReference} :
    reference ∈ q.batchesByDocumentKey ↔
      ∃ b ∈ a.batches, b.batchID = reference.id ∧ b.Mutates reference.key := by
  rw [h.index]
  refine exists_congr fun b => ?_
  rw [h.mem, and_assoc]
  refine and_congr_right fun _ => ⟨fun hb => ⟨?_, hb⟩, And.right⟩
  obtain ⟨-, mutation, hmutation, -⟩ := hb
  exact List.ne_nil_of_mem hmutation

theorem Represents.sorted_ids (_ : Represents q a) (p : MutationBatch V → Bool) :
    ((a.batches.filter p).map (·.batchID)).Pairwise (· < ·) :=
  List.pairwise_map.mpr (a.sorted.filter p)

theorem Represents.affecting (h : Represents q a) {key : DocumentKey} :
    q.allMutationBatchesAffectingDocumentKey key = .ok (a.affecting key) := by
  rw [allMutationBatchesAffectingDocumentKey, SortedBy.scan_eq_filter]
  · refine h.batchesOf (fun b hb => (List.mem_filter.mp hb).1) ?_
    refine List.Pairwise.eq_of_mem_iff (r := (· < ·)) ?_ (h.sorted_ids _) fun batchID => ?_
    · refine List.pairwise_map.mpr ((List.pairwise_filter.mpr ?_ : (List.filter _ _).Pairwise _))
      refine q.batchesByDocumentKey.sorted.imp ?_
      intro r s hlt hr hs
      have hrs : r.key = s.key := (of_decide_eq_true hr).trans (of_decide_eq_true hs).symm
      rcases DocumentReference.lt_iff.mp hlt with hlt | ⟨-, hlt⟩
      · exact absurd hrs hlt.ne
      · exact hlt
    · simp only [List.mem_map, List.mem_filter, decide_eq_true_eq, Outbox.affecting]
      constructor
      · rintro ⟨reference, ⟨hmem, rfl⟩, rfl⟩
        obtain ⟨b, hb, hid, hmutates⟩ := h.mem_index.mp hmem
        exact ⟨b, ⟨hb, hmutates⟩, hid⟩
      · rintro ⟨b, ⟨hb, hmutates⟩, rfl⟩
        exact ⟨.of key b.batchID, ⟨h.mem_index.mpr ⟨b, hb, rfl, hmutates⟩, rfl⟩, rfl⟩
  · intro reference hmem hkey
    exact DocumentReference.of_le.mpr
      (Or.inr ⟨(of_decide_eq_true hkey).symm, (h.toInv.id_pos hmem).le⟩)
  · intro r _ s _ hstart hlt hs
    have hkey : s.key = key := of_decide_eq_true hs
    refine decide_eq_true ?_
    rcases DocumentReference.of_le.mp hstart with hbefore | ⟨heq, -⟩
    · rcases DocumentReference.lt_iff.mp hlt with hafter | ⟨heq, -⟩
      · exact absurd (hbefore.trans hafter) (hkey ▸ lt_irrefl _)
      · exact heq.trans hkey
    · exact heq.symm

theorem path_le_startKey (path : ResourcePath) : path ≤ (startKey path).1 := by
  rw [startKey]
  split
  · exact le_rfl
  · exact PathOrder.le_of_prefix (List.prefix_append _ _)

/-- The scan of a query starts in front of every document whose path begins with the one of the
query. -/
theorem startKey_le {path : ResourcePath} {key : DocumentKey} (h : path <+: key.1) :
    startKey path ≤ key := by
  show (startKey path).1 ≤ key.1
  rw [startKey]
  split
  · exact PathOrder.le_of_prefix h
  · next hpath =>
      have hne : path ≠ key.1 := fun heq => hpath (heq ▸ key.2)
      exact PathOrder.concat_le_of_prefix PathOrder.empty_le h hne

theorem mem_uniqueBatchIDs (h : Represents q a) {path : ResourcePath} :
    batchID ∈ q.uniqueBatchIDs path ↔ ∃ b ∈ a.batches, b.MutatesUnder path ∧
      b.batchID = batchID := by
  have hfold : ∀ (references : List DocumentReference)
      (ids : SortedBy (fun batchID : Int => batchID)),
      batchID ∈ references.foldl (fun ids reference => ids.insert reference.id) ids ↔
        batchID ∈ ids ∨ ∃ reference ∈ references, reference.id = batchID := by
    intro references
    induction references with
    | nil => simp
    | cons reference references ih =>
        intro ids
        rw [List.foldl_cons, ih, SortedBy.mem_insert, List.exists_mem_cons_iff]
        constructor
        · rintro ((rfl | ⟨hids, -⟩) | hlater)
          · exact Or.inr (Or.inl rfl)
          · exact Or.inl hids
          · exact Or.inr (Or.inr hlater)
        · rintro (hids | rfl | hlater)
          · by_cases heq : batchID = reference.id
            · exact Or.inl (Or.inl heq)
            · exact Or.inl (Or.inr ⟨hids, heq⟩)
          · exact Or.inl (Or.inl rfl)
          · exact Or.inr hlater
  have hscan : q.batchesByDocumentKey.scan (.of (startKey path) 0)
      (fun reference => path.isPrefixOf reference.key.1) =
      q.batchesByDocumentKey.toList.filter (fun reference => path.isPrefixOf reference.key.1) := by
    refine SortedBy.scan_eq_filter ?_ ?_
    · intro reference hmem hbegins
      refine DocumentReference.of_le.mpr ?_
      rcases (startKey_le (List.isPrefixOf_iff_prefix.mp hbegins)).lt_or_eq with hlt | heq
      · exact Or.inl hlt
      · exact Or.inr ⟨heq, (h.toInv.id_pos hmem).le⟩
    · intro r _ s _ hstart hlt hs
      have hbefore : startKey path ≤ r.key := by
        rcases DocumentReference.of_le.mp hstart with hlt | ⟨heq, -⟩
        · exact hlt.le
        · exact heq.le
      have hafter : r.key ≤ s.key := by
        rcases DocumentReference.lt_iff.mp hlt with hlt | ⟨heq, -⟩
        · exact hlt.le
        · exact heq.le
      exact List.isPrefixOf_iff_prefix.mpr (PathOrder.prefix_of_between
        ((path_le_startKey path).trans hbefore) hafter (List.isPrefixOf_iff_prefix.mp hs))
  rw [uniqueBatchIDs, hscan, hfold]
  simp only [SortedBy.notMem_empty, false_or, List.mem_filter, decide_eq_true_eq]
  constructor
  · rintro ⟨reference, ⟨⟨hmem, hbegins⟩, hlength⟩, rfl⟩
    obtain ⟨b, hb, hid, mutation, hmutation, hkey⟩ := h.mem_index.mp hmem
    obtain ⟨rest, hrest⟩ := List.isPrefixOf_iff_prefix.mp hbegins
    rw [← hrest, List.length_append] at hlength
    obtain ⟨segment, rfl⟩ := List.length_eq_one_iff.mp (Nat.add_left_cancel hlength)
    exact ⟨b, hb, ⟨mutation, hmutation, segment, by rw [hkey, hrest]⟩, hid⟩
  · rintro ⟨b, hb, ⟨mutation, hmutation, segment, hkey⟩, rfl⟩
    refine ⟨.of mutation.key b.batchID,
      ⟨⟨h.mem_index.mpr ⟨b, hb, rfl, mutation, hmutation, rfl⟩, ?_⟩, ?_⟩, rfl⟩
    · rw [DocumentReference.key_of, hkey]
      exact List.isPrefixOf_iff_prefix.mpr (List.prefix_append _ _)
    · rw [DocumentReference.key_of, hkey, List.length_append, List.length_singleton]

theorem Represents.affectingUnder (h : Represents q a) {path : ResourcePath} :
    q.allMutationBatchesAffectingQuery path = .ok (a.affectingUnder path) := by
  have hids : (q.uniqueBatchIDs path).toList = (a.affectingUnder path).map (·.batchID) := by
    refine List.Pairwise.eq_of_mem_iff (r := (· < ·)) (q.uniqueBatchIDs path).sorted
      (h.sorted_ids _) fun batchID => ?_
    rw [SortedBy.mem_toList, mem_uniqueBatchIDs h]
    simp [Outbox.affectingUnder, and_assoc]
  rw [allMutationBatchesAffectingQuery, hids]
  exact h.batchesWith fun b hb => (List.mem_filter.mp hb).1

theorem Represents.containsKey (h : Represents q a) {key : DocumentKey} :
    q.containsKey key = !(a.affecting key).isEmpty := by
  have hfound : (∃ reference ∈ q.batchesByDocumentKey, reference.key = key) ↔
      a.affecting key ≠ [] := by
    constructor
    · rintro ⟨reference, hmem, rfl⟩
      obtain ⟨b, hb, -, hmutates⟩ := h.mem_index.mp hmem
      exact List.ne_nil_of_mem (List.mem_filter.mpr ⟨hb, decide_eq_true hmutates⟩)
    · intro hne
      obtain ⟨b, hb⟩ := List.exists_mem_of_ne_nil _ hne
      obtain ⟨hmem, hmutates⟩ := List.mem_filter.mp hb
      exact ⟨.of key b.batchID, h.mem_index.mpr ⟨b, hmem, rfl, of_decide_eq_true hmutates⟩, rfl⟩
  have hhead : q.containsKey key = true ↔
      ∃ reference ∈ q.batchesByDocumentKey, reference.key = key := by
    rw [MemoryMutationQueue.containsKey, Option.any_eq_true]
    constructor
    · rintro ⟨reference, hhead, hkey⟩
      exact ⟨reference, (SortedBy.mem_fromKey.mp (List.mem_of_head? hhead)).1,
        of_decide_eq_true hkey⟩
    · rintro ⟨reference, hmem, rfl⟩
      have hfrom : reference ∈ q.batchesByDocumentKey.fromKey (.of reference.key 0) :=
        SortedBy.mem_fromKey.mpr ⟨hmem, DocumentReference.of_le.mpr
          (Or.inr ⟨rfl, (h.toInv.id_pos hmem).le⟩)⟩
      have hsorted : (q.batchesByDocumentKey.fromKey (.of reference.key 0)).Pairwise (· < ·) :=
        (q.batchesByDocumentKey.sorted).sublist (List.dropWhile_sublist _)
      have hall : ∀ r ∈ q.batchesByDocumentKey.fromKey (.of reference.key 0),
          DocumentReference.of reference.key 0 ≤ r := fun r hr => (SortedBy.mem_fromKey.mp hr).2
      cases hlist : q.batchesByDocumentKey.fromKey (.of reference.key 0) with
      | nil =>
          rw [hlist] at hfrom
          cases hfrom
      | cons first rest =>
          rw [hlist] at hfrom hsorted hall
          refine ⟨first, rfl, decide_eq_true ?_⟩
          -- the first reference is between the start of the scan and `reference`
          have hfirst : first ≤ reference := by
            rcases List.mem_cons.mp hfrom with rfl | hrest
            · exact le_rfl
            · exact ((List.pairwise_cons.mp hsorted).1 reference hrest).le
          have hstart := hall first List.mem_cons_self
          have hle : first.key ≤ reference.key := Prod.Lex.monotone_fst _ _ hfirst
          have hge : reference.key ≤ first.key :=
            Prod.Lex.monotone_fst (DocumentReference.of reference.key 0) first hstart
          exact le_antisymm hle hge
  by_cases hne : a.affecting key = []
  · have hfalse : q.containsKey key = false := by
      rw [Bool.eq_false_iff]
      intro htrue
      exact hfound.mp (hhead.mp htrue) hne
    rw [hfalse, hne]
    rfl
  · rw [hhead.mpr (hfound.mpr hne)]
    simpa using hne

/-! ## Changes -/

theorem represents_new : Represents ({} : MemoryMutationQueue V) .new where
  consecutive := trivial
  positive := le_rfl
  bounded := by
    show 1 ≤ batchIDMax
    decide
  head := by simp
  index := by simp
  acknowledged := by
    show batchIDUnknown < 1
    decide
  batches := rfl
  highest := rfl
  issued := rfl

theorem Represents.start (h : Represents q a) : ∃ q' a', q.start = .ok q' ∧ Represents q' a' ∧
    a'.batches = a.batches ∧
      (a'.acknowledged = a.acknowledged ∨ a.batches = [] ∧ a'.acknowledged = batchIDUnknown) := by
  by_cases hempty : q.queue = []
  · have hbatches : a.batches = [] := by
      rw [h.batches, live, hempty, List.filter_nil]
    refine ⟨{ q with nextBatchID := 1, highestAcknowledgedBatchID := batchIDUnknown }, .new, ?_,
      ⟨⟨?_, ?_, ?_, h.head, h.index, ?_⟩, hbatches.symm.trans h.batches, rfl, rfl⟩, hbatches.symm,
      Or.inr ⟨hbatches, rfl⟩⟩
    · rw [MemoryMutationQueue.start, isEmpty, hempty]
      rfl
    · show Consecutive _ q.queue
      rw [hempty]
      trivial
    · simp [firstBatchID, hempty]
    · show 1 ≤ batchIDMax
      decide
    · show batchIDUnknown < 1
      decide
  · refine ⟨q, a, ?_, h, rfl, Or.inl rfl⟩
    have hisEmpty : q.isEmpty = false := by simpa [isEmpty] using hempty
    simp [MemoryMutationQueue.start, hisEmpty, h.acknowledged]

theorem Represents.acknowledge (h : Represents q a) (hb : b ∈ a.batches)
    (hlater : a.acknowledged < b.batchID) {token : Option String} :
    ∃ q', q.acknowledgeBatch b token = .ok q' ∧ Represents q' (a.acknowledge b hb) := by
  obtain ⟨hmem, hlive⟩ := h.mem.mp hb
  rw [h.highest] at hlater
  have hbounds := h.consecutive.bounds hmem
  refine ⟨{ q with highestAcknowledgedBatchID := b.batchID, lastStreamToken := token }, ?_,
    ⟨⟨h.consecutive, h.positive, h.bounded, h.head, h.index, ?_⟩, h.batches, rfl, h.issued⟩⟩
  · simp [acknowledgeBatch, hlater, h.toInv.indexOfExistingBatchID hmem, h.toInv.getElem? hmem,
      MutationBatch.isTombstone, hlive]
  · show b.batchID < q.nextBatchID
    rw [firstBatchID] at hbounds
    omega

theorem mem_foldl_insert_reference {reference : DocumentReference} {id : Int}
    {mutations : List (Mutation V)} {references : ReferenceIndex} :
    reference ∈ mutations.foldl (fun references mutation => references.insert (.of mutation.key id))
      references ↔
      reference ∈ references ∨ id = reference.id ∧
        ∃ mutation ∈ mutations, mutation.key = reference.key := by
  induction mutations generalizing references with
  | nil => simp
  | cons mutation mutations ih =>
      have hfirst : reference = .of mutation.key id ↔ id = reference.id ∧
          mutation.key = reference.key := by
        constructor
        · rintro rfl
          exact ⟨rfl, rfl⟩
        · rintro ⟨rfl, hkey⟩
          rw [hkey, DocumentReference.of_key_id]
      rw [List.foldl_cons, ih, SortedBy.mem_insert, List.exists_mem_cons_iff, hfirst]
      by_cases hsame : id = reference.id ∧ mutation.key = reference.key
      · exact iff_of_true (Or.inl (Or.inl hsame)) (Or.inr ⟨hsame.1, Or.inl hsame.2⟩)
      · have hne : reference ≠ .of mutation.key id := fun heq => hsame (hfirst.mp heq)
        constructor
        · rintro ((hsame' | ⟨hmem, -⟩) | ⟨hid, hlater⟩)
          · exact absurd hsame' hsame
          · exact Or.inl hmem
          · exact Or.inr ⟨hid, Or.inr hlater⟩
        · rintro (hmem | ⟨hid, hkey | hlater⟩)
          · exact Or.inl (Or.inr ⟨hmem, hne⟩)
          · exact absurd ⟨hid, hkey⟩ hsame
          · exact Or.inr ⟨hid, hlater⟩

theorem Represents.add (h : Represents q a) {localWriteTime : Int} {mutations : List (Mutation V)}
    (hroom : q.nextBatchID < batchIDMax) (hne : mutations ≠ []) :
    ∃ batchID q', ∃ (hissued : a.issued < batchID) (hroom : batchID < batchIDMax),
      q.addMutationBatch localWriteTime mutations = .ok (⟨batchID, localWriteTime, mutations⟩, q') ∧
      Represents q' (a.add ⟨batchID, localWriteTime, mutations⟩ hne hissued hroom) := by
  have hbefore : ∀ b ∈ q.queue, b.batchID < q.nextBatchID := by
    intro b hb
    have hbounds := h.consecutive.bounds hb
    rw [firstBatchID] at hbounds
    omega
  have hpositive := h.positive
  have hnext : int32 (q.nextBatchID + 1) = q.nextBatchID + 1 := by
    have hroom : q.nextBatchID < 2147483647 := hroom
    rw [firstBatchID] at hpositive
    exact int32_eq (by omega) (by omega)
  have hfirst : ∀ b : MutationBatch V,
      q.nextBatchID + 1 - ((q.queue ++ [b]).length : Int) = q.firstBatchID := by
    intro b
    rw [firstBatchID, List.length_append, List.length_singleton]
    omega
  let batch : MutationBatch V := ⟨q.nextBatchID, localWriteTime, mutations⟩
  have hlive : batch.isTombstone = false := by simpa [batch, MutationBatch.isTombstone] using hne
  refine ⟨q.nextBatchID, { q with
      nextBatchID := q.nextBatchID + 1
      queue := q.queue ++ [batch]
      batchesByDocumentKey := mutations.foldl (fun references mutation =>
        references.insert (.of mutation.key q.nextBatchID)) q.batchesByDocumentKey },
    by have hissued := h.issued; omega, hroom, ?_, ⟨⟨?_, ?_, ?_, ?_, ?_, ?_⟩, ?_, h.highest, ?_⟩⟩
  · have hprior : ∀ prior ∈ q.queue.getLast?, prior.batchID < q.nextBatchID :=
      fun prior hprior => hbefore prior (List.mem_of_getLast? hprior)
    rw [addMutationBatch, hardAssert_pos (List.length_pos_iff.mpr hne)]
    simp only [ok_bind]
    rw [hardAssert_pos hprior]
    simp only [ok_bind, hnext]
    rfl
  · rw [firstBatchID, hfirst]
    refine consecutive_append.mpr ⟨h.consecutive, ?_, trivial⟩
    show q.nextBatchID = q.firstBatchID + q.queue.length
    rw [firstBatchID]
    omega
  · rw [firstBatchID, hfirst]
    exact h.positive
  · show q.nextBatchID + 1 ≤ batchIDMax
    omega
  · intro b hb
    rw [List.head?_append] at hb
    cases hqueue : q.queue.head? with
    | none =>
        rw [hqueue] at hb
        obtain rfl := Option.some.inj hb
        rw [hlive]
        decide
    | some c =>
        rw [hqueue] at hb
        obtain rfl := Option.some.inj hb
        exact h.head c hqueue
  · intro reference
    rw [mem_foldl_insert_reference, h.index]
    constructor
    · rintro (⟨b, hb, hid, hmutates⟩ | ⟨hid, hmutates⟩)
      · exact ⟨b, List.mem_append_left _ hb, hid, hmutates⟩
      · exact ⟨batch, List.mem_append_right _ (List.mem_singleton_self _), hid, hmutates⟩
    · rintro ⟨b, hb, hid, hmutates⟩
      rcases List.mem_append.mp hb with hb | hb
      · exact Or.inl ⟨b, hb, hid, hmutates⟩
      · obtain rfl := List.mem_singleton.mp hb
        exact Or.inr ⟨hid, hmutates⟩
  · have hack := h.acknowledged
    show q.highestAcknowledgedBatchID < q.nextBatchID + 1
    omega
  · show a.batches ++ [batch] = _
    rw [h.batches, live, live, List.filter_append, List.filter_cons_of_pos (by simp [hlive])]
    rfl
  · show q.nextBatchID = q.nextBatchID + 1 - 1
    omega

/-! ### Removal -/

/-- What the check of contiguity passes over is the batches that are left, and tombstones. -/
theorem checkContiguous_ok {batches queue rest : List (MutationBatch V)}
    (hqueue : queue.filter (!·.isTombstone) = batches ++ rest) :
    ∃ n, checkContiguous batches queue = .ok n ∧ n ≤ queue.length ∧
      (queue.take n).filter (!·.isTombstone) = batches ∧
      (queue.drop n).filter (!·.isTombstone) = rest := by
  induction queue generalizing batches with
  | nil =>
      obtain ⟨rfl, rfl⟩ := List.append_eq_nil_iff.mp hqueue.symm
      exact ⟨0, rfl, le_rfl, rfl, rfl⟩
  | cons c queue ih =>
      cases batches with
      | nil => exact ⟨0, rfl, Nat.zero_le _, rfl, hqueue⟩
      | cons expected batches =>
          by_cases hdead : c.isTombstone
          · rw [List.filter_cons_of_neg (by simpa using hdead)] at hqueue
            obtain ⟨n, hn, hle, htake, hdrop⟩ := ih hqueue
            refine ⟨n + 1, ?_, Nat.succ_le_succ hle, ?_, hdrop⟩
            · rw [checkContiguous, if_pos hdead, hn]
              rfl
            · rw [List.take_succ_cons, List.filter_cons_of_neg (by simpa using hdead), htake]
          · rw [List.filter_cons_of_pos (by simpa using hdead), List.cons_append] at hqueue
            obtain ⟨rfl, hrest⟩ := List.cons_eq_cons.mp hqueue
            obtain ⟨n, hn, hle, htake, hdrop⟩ := ih hrest
            refine ⟨n + 1, ?_, Nat.succ_le_succ hle, ?_, hdrop⟩
            · rw [checkContiguous, if_neg hdead, hardAssert_pos rfl, ok_bind, hn]
              rfl
            · rw [List.take_succ_cons, List.filter_cons_of_pos (by simpa using hdead), htake]

theorem dropWhile_tombstones (queue : List (MutationBatch V)) :
    (queue.dropWhile (·.isTombstone)).filter (!·.isTombstone) = queue.filter (!·.isTombstone) ∧
      ∀ b ∈ (queue.dropWhile (·.isTombstone)).head?, ¬ b.isTombstone := by
  induction queue with
  | nil => exact ⟨rfl, by simp⟩
  | cons c queue ih =>
      by_cases hdead : c.isTombstone
      · rw [List.dropWhile_cons_of_pos hdead, List.filter_cons_of_neg (by simpa using hdead)]
        exact ih
      · rw [List.dropWhile_cons_of_neg hdead]
        refine ⟨rfl, ?_⟩
        intro b hb
        obtain rfl := Option.some.inj hb
        exact hdead

theorem mem_foldl_erase {reference : DocumentReference} {batches : List (MutationBatch V)}
    {references : ReferenceIndex} :
    reference ∈ batches.foldl (fun references batch =>
        batch.mutations.foldl (fun references mutation =>
          references.erase (.of mutation.key batch.batchID)) references) references ↔
      reference ∈ references ∧ ∀ b ∈ batches, b.batchID = reference.id →
        ¬ b.Mutates reference.key := by
  have hone : ∀ (id : Int) (mutations : List (Mutation V)) (references : ReferenceIndex),
      reference ∈ mutations.foldl (fun references mutation =>
          references.erase (.of mutation.key id)) references ↔
        reference ∈ references ∧
          (id = reference.id → ¬ ∃ mutation ∈ mutations, mutation.key = reference.key) := by
    intro id mutations
    induction mutations with
    | nil => simp
    | cons mutation mutations ih =>
        intro references
        have hfirst : reference ≠ .of mutation.key id ↔
            (id = reference.id → mutation.key ≠ reference.key) := by
          constructor
          · rintro hne rfl hkey
            exact hne (by rw [hkey, DocumentReference.of_key_id])
          · rintro himp rfl
            exact himp rfl rfl
        rw [List.foldl_cons, ih, SortedBy.mem_erase, hfirst, and_assoc, ← imp_and,
          List.exists_mem_cons_iff, not_or]
  induction batches generalizing references with
  | nil => simp
  | cons b batches ih =>
      rw [List.foldl_cons]
      refine ih.trans ?_
      rw [hone, List.forall_mem_cons, and_assoc]
      rfl

/-- The live batches are all that mutates. -/
theorem exists_live {queue : List (MutationBatch V)} {id : Int} {key : DocumentKey} :
    (∃ b ∈ queue, b.batchID = id ∧ b.Mutates key) ↔
      ∃ b ∈ queue.filter (!·.isTombstone), b.batchID = id ∧ b.Mutates key := by
  refine exists_congr fun b => ?_
  rw [List.mem_filter, and_assoc]
  refine and_congr_right fun _ => ⟨fun hb => ⟨?_, hb⟩, And.right⟩
  obtain ⟨-, mutation, hmutation, -⟩ := hb
  simpa [MutationBatch.isTombstone] using List.ne_nil_of_mem hmutation

/-- A queue that is left with the other live batches. -/
theorem Represents.removed (h : Represents q a) {batches : List (MutationBatch V)}
    (queue : List (MutationBatch V)) (hbatches : ∀ b ∈ batches, b ∈ a.batches)
    (hconsecutive : Consecutive (q.nextBatchID - queue.length) queue)
    (hpositive : 1 ≤ q.nextBatchID - queue.length) (hhead : ∀ b ∈ queue.head?, ¬ b.isTombstone)
    (hlive : queue.filter (!·.isTombstone) = (a.remove batches).batches) :
    Represents { q with
      queue := queue
      batchesByDocumentKey := batches.foldl (fun references batch =>
        batch.mutations.foldl (fun references mutation =>
          references.erase (.of mutation.key batch.batchID)) references) q.batchesByDocumentKey }
      (a.remove batches) where
  consecutive := hconsecutive
  positive := hpositive
  bounded := h.bounded
  head := hhead
  acknowledged := h.acknowledged
  batches := hlive.symm
  highest := h.highest
  issued := h.issued
  index := by
    intro reference
    refine Iff.trans ?_ exists_live.symm
    show _ ↔ ∃ b ∈ queue.filter (!·.isTombstone), _
    rw [hlive, mem_foldl_erase, h.mem_index]
    have hkept : ∀ b, b ∈ (a.remove batches).batches ↔
        b ∈ a.batches ∧ b.batchID ∉ batches.map (·.batchID) := by
      intro b
      show b ∈ a.batches.filter _ ↔ _
      rw [List.mem_filter]
      simp
    constructor
    · rintro ⟨⟨b, hb, hid, hmutates⟩, hgone⟩
      refine ⟨b, (hkept b).mpr ⟨hb, fun hmem => ?_⟩, hid, hmutates⟩
      obtain ⟨c, hc, heq⟩ := List.mem_map.mp hmem
      obtain rfl := Outbox.batchID_inj (hbatches c hc) hb heq
      exact hgone c hc hid hmutates
    · rintro ⟨b, hb, hid, hmutates⟩
      obtain ⟨hb, hother⟩ := (hkept b).mp hb
      refine ⟨⟨b, hb, hid, hmutates⟩, fun c hc hcid _ => hother ?_⟩
      rw [hid, ← hcid]
      exact List.mem_map_of_mem hc

theorem Represents.remove (h : Represents q a) {batches : List (MutationBatch V)}
    (hne : batches ≠ []) (hpart : batches <:+: a.batches) :
    ∃ q', q.removeMutationBatches batches = .ok q' ∧ Represents q' (a.remove batches) := by
  obtain ⟨before, after, heq⟩ := hpart
  obtain ⟨first, rest, rfl⟩ := List.exists_cons_of_ne_nil hne
  have hfirst : first ∈ a.batches := by
    rw [← heq]
    simp
  obtain ⟨hmem, hlive⟩ := h.mem.mp hfirst
  have hremoved := Outbox.remove_eq (a := a) heq.symm
  -- the queue in front of the first batch, and after it
  have hsplit : q.queue.filter (!·.isTombstone) = before ++ first :: (rest ++ after) := by
    rw [← live, ← h.batches, ← heq]
    simp
  obtain ⟨front, back, hqueue, hfront, hback⟩ := List.filter_eq_append_iff.mp hsplit
  obtain ⟨dead, tail, rfl, hdead, -, htail⟩ := List.filter_eq_cons_iff.mp hback
  have hplace : q.indexOfExistingBatchID first.batchID = .ok (front ++ dead).length := by
    have hconsecutive := h.consecutive
    rw [hqueue, ← List.append_assoc] at hconsecutive
    have hid := (consecutive_append.mp hconsecutive).2.1
    rw [h.toInv.indexOfExistingBatchID hmem]
    congr 1
    omega
  have hatPlace : q.queue[(front ++ dead).length]? = some first := by
    rw [hqueue, ← List.append_assoc, List.getElem?_append_right le_rfl, Nat.sub_self]
    rfl
  have hdrop : q.queue.drop ((front ++ dead).length + 1) = tail := by
    rw [hqueue, ← List.append_assoc, ← List.drop_drop, List.drop_left]
    rfl
  obtain ⟨n, hn, hle, htake, hafter⟩ := checkContiguous_ok htail
  have hbatches : ∀ b ∈ first :: rest, b ∈ a.batches := by
    intro b hb
    rw [← heq]
    exact List.mem_append_left _ (List.mem_append_right _ hb)
  have hrest : q.queue.drop ((front ++ dead).length + 1 + n) = tail.drop n := by
    rw [← List.drop_drop, hdrop]
  have hdead : dead.filter (!·.isTombstone) = [] := List.filter_eq_nil_iff.mpr hdead
  by_cases hstart : (front ++ dead).length = 0
  · -- from the front: the tombstones that follow go too
    obtain ⟨rfl, rfl⟩ := List.append_eq_nil_iff.mp (List.length_eq_zero_iff.mp hstart)
    have hbefore : before = [] := hfront.symm
    obtain ⟨hlive', hhead⟩ := dropWhile_tombstones (tail.drop n)
    obtain ⟨gone, hgone⟩ : ∃ gone, q.queue = gone ++ (tail.drop n).dropWhile (·.isTombstone) := by
      obtain ⟨gone, hgone⟩ := List.dropWhile_suffix (·.isTombstone) (l := tail.drop n)
      refine ⟨q.queue.take (0 + 1 + n) ++ gone, ?_⟩
      rw [List.append_assoc, hgone, ← hrest]
      exact (List.take_append_drop _ _).symm
    have hconsecutive := h.consecutive
    rw [hgone] at hconsecutive
    have hfirstID : q.nextBatchID - (((tail.drop n).dropWhile (·.isTombstone)).length : Int) =
        q.firstBatchID + gone.length := by
      have hlength := congrArg List.length hgone
      rw [List.length_append] at hlength
      rw [firstBatchID]
      omega
    refine ⟨_, ?_, h.removed ((tail.drop n).dropWhile (·.isTombstone)) hbatches ?_ ?_ hhead ?_⟩
    · rw [removeMutationBatches, hplace]
      simp only [ok_bind]
      rw [hatPlace, hardAssert_pos (by simp), hdrop, hn]
      simp only [ok_bind, if_pos hstart, hrest]
      rfl
    · rw [hfirstID]
      exact (consecutive_append.mp hconsecutive).2
    · have hpositive := h.positive
      rw [hfirstID]
      omega
    · rw [hlive', hafter, hremoved, hbefore, List.nil_append]
  · -- from behind: what is removed turns into tombstones
    have hconsecutive := h.consecutive
    have hqueue' : q.queue = (front ++ dead) ++ ((first :: tail.take n) ++ tail.drop n) := by
      rw [List.cons_append, List.take_append_drop, hqueue, List.append_assoc]
    have hlength : ((front ++ dead) ++
        (((first :: tail.take n).map (·.toTombstone)) ++ tail.drop n)).length = q.queue.length := by
      rw [hqueue']
      simp only [List.length_append, List.length_map]
    rw [hqueue'] at hconsecutive
    obtain ⟨hfrontIDs, hbackIDs⟩ := consecutive_append.mp hconsecutive
    obtain ⟨hmiddleIDs, hendIDs⟩ := consecutive_append.mp hbackIDs
    refine ⟨_, ?_, h.removed
      ((front ++ dead) ++ (((first :: tail.take n).map (·.toTombstone)) ++ tail.drop n)) hbatches
      ?_ ?_ ?_ ?_⟩
    · have htakeFront : q.queue.take (front ++ dead).length = front ++ dead := by
        rw [hqueue', List.take_left]
      have hmiddle : (q.queue.drop (front ++ dead).length).take
          ((front ++ dead).length + 1 + n - (front ++ dead).length) = first :: tail.take n := by
        have hcount : (front ++ dead).length + 1 + n - (front ++ dead).length = n + 1 := by omega
        rw [hcount, hqueue', List.drop_left, List.cons_append, List.take_append_drop,
          List.take_succ_cons]
      rw [removeMutationBatches, hplace]
      simp only [ok_bind]
      rw [hatPlace, hardAssert_pos (by simp), hdrop, hn]
      simp only [ok_bind, if_neg hstart, hrest, htakeFront, hmiddle, List.append_assoc]
      rfl
    · rw [hlength]
      refine consecutive_append.mpr ⟨hfrontIDs,
        consecutive_append.mpr ⟨hmiddleIDs.map_toTombstone, ?_⟩⟩
      rw [List.length_map]
      exact hendIDs
    · rw [hlength]
      exact h.positive
    · intro b hb
      obtain ⟨c, front', hcons⟩ := List.exists_cons_of_ne_nil
        (fun hnil => hstart (List.length_eq_zero_iff.mpr hnil))
      refine h.head b ?_
      rw [hcons] at hb
      rw [hqueue', hcons]
      exact hb
    · have htombstones : ((first :: tail.take n).map (·.toTombstone)).filter (!·.isTombstone) =
          [] := by
        refine List.filter_eq_nil_iff.mpr fun b hb => ?_
        obtain ⟨c, -, rfl⟩ := List.mem_map.mp hb
        simp [MutationBatch.isTombstone, MutationBatch.toTombstone]
      rw [List.filter_append, List.filter_append, List.filter_append, hfront, hdead,
        htombstones, hafter, hremoved, List.append_nil, List.nil_append]

theorem Represents.performConsistencyCheck (h : Represents q a) :
    q.performConsistencyCheck = .ok () := by
  rw [MemoryMutationQueue.performConsistencyCheck]
  split
  · next hlength =>
      refine hardAssert_pos (List.eq_nil_iff_forall_not_mem.mpr fun reference hmem => ?_)
      obtain ⟨b, hb, -⟩ := (h.index reference).mp hmem
      rw [List.length_eq_zero_iff.mp hlength] at hb
      cases hb
  · rfl

theorem Represents.isEmpty (h : Represents q a) : q.isEmpty = a.batches.isEmpty := by
  rw [h.batches, live, MemoryMutationQueue.isEmpty]
  have hhead := h.head
  cases hqueue : q.queue with
  | nil => rfl
  | cons c queue =>
      rw [hqueue] at hhead
      have hc := hhead c rfl
      rw [List.filter_cons_of_pos (by simpa using hc)]
      rfl

end Represents

instance : LawfulMutationQueue V (MemoryMutationQueue V) where
  Represents := Represents
  HasRoom q := q.nextBatchID < batchIDMax
  start_ok h := h.start
  isEmpty_eq h := h.isEmpty
  highestAcknowledgedBatchID_eq h := h.highest.symm
  acknowledgeBatch_ok h hb hlater := h.acknowledge hb hlater
  setLastStreamToken_ok _ h :=
    ⟨⟨h.consecutive, h.positive, h.bounded, h.head, h.index, h.acknowledged⟩, h.batches, h.highest,
      h.issued⟩
  addMutationBatch_ok _ _ h hroom hne := h.add hroom hne
  lookupMutationBatch_ok h hid := h.lookup hid
  nextMutationBatchAfterBatchID_eq h hid := h.next hid
  allMutationBatches_eq {q a} h := by
    show q.allLiveMutationBatchesBeforeIndex q.queue.length = a.batches
    rw [allLiveMutationBatchesBeforeIndex, List.take_length, h.batches, live]
  allMutationBatchesThroughBatchID_eq h hid := h.through hid
  allMutationBatchesAffectingDocumentKey_ok h := h.affecting
  allMutationBatchesAffectingQuery_ok h := h.affectingUnder
  removeMutationBatches_ok h hne hpart := h.remove hne hpart
  performConsistencyCheck_ok h := h.performConsistencyCheck
  containsKey_eq h := h.containsKey

/-! ## Every run -/

/-- **The queue in memory.** In every state the new queue comes to by calls in turn, every question
is answered from the list of all batches, and the next call in turn does not fail and does what it
is to do. -/
theorem memory_queue {q : MemoryMutationQueue V}
    (h : (queueMachine ({} : MemoryMutationQueue V)).Reach QueueAction.InTurn q) :
    AnswersPlainly q ∧
      ∀ action : QueueAction V, action.InTurn q → ∃ q', action.run q = .ok q' ∧
        action.Effect q q' := by
  obtain ⟨a, ha⟩ := P0ker.Firestore.Represents.reach (Q := MemoryMutationQueue V) represents_new h
  refine ⟨P0ker.Firestore.Represents.answersPlainly ha, fun action hturn => ?_⟩
  obtain ⟨q', -, hrun, -, heffect⟩ := P0ker.Firestore.Represents.run ha hturn
  exact ⟨q', hrun, heffect⟩

/-- The key of a user's document. -/
def userKey (id : String) : DocumentKey :=
  ⟨["users", id], (rfl : 2 % 2 = 0)⟩

/-- The batch that writes an empty document. -/
def emptyDocument (batchID : Int) (id : String) : MutationBatch Unit :=
  ⟨batchID, 0, [.set (userKey id) .none []]⟩

/-- Two batches are written; the first is acknowledged, and then the second rejected. -/
theorem memory_queue_rejected : ∃ q : MemoryMutationQueue Unit,
    (queueMachine ({} : MemoryMutationQueue Unit)).Reach QueueAction.InTurn q ∧
    q.queue.map (fun b => (b.batchID, b.isTombstone)) = [(1, false), (2, true)] ∧
    AnswersPlainly q ∧ ∀ action : QueueAction Unit, action.InTurn q →
      ∃ q', action.run q = .ok q' ∧ action.Effect q q' := by
  let M := queueMachine ({} : MemoryMutationQueue Unit)
  have h₀ : M.Reach QueueAction.InTurn {} := Machine.Reach.init rfl
  have h₁ := Machine.Reach.step h₀
    (a := QueueAction.addMutationBatch 0 (emptyDocument 1 "u1").mutations)
    ⟨List.cons_ne_nil _ _, (by decide : (1 : Int) < batchIDMax)⟩ rfl
  have h₂ := Machine.Reach.step h₁
    (a := QueueAction.addMutationBatch 0 (emptyDocument 2 "u2").mutations)
    ⟨List.cons_ne_nil _ _, (by decide : (2 : Int) < batchIDMax)⟩ rfl
  have h₃ := Machine.Reach.step h₂ (a := QueueAction.acknowledgeBatch (emptyDocument 1 "u1") none)
    ⟨List.mem_cons_self, by decide⟩ rfl
  have h₄ := Machine.Reach.step h₃ (a := QueueAction.removeMutationBatches [emptyDocument 2 "u2"])
    ⟨List.cons_ne_nil _ _, [emptyDocument 1 "u1"], [], rfl⟩ rfl
  exact ⟨_, h₄, rfl, memory_queue h₄⟩

end MemoryMutationQueue

end P0ker.Firestore
