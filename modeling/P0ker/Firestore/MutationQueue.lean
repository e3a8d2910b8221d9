import P0ker.Lib.Machine
import P0ker.Firestore.MutationBatch

/-!
# The Firestore client: what a mutation queue is for

The client stores the batches that the server has not resolved in a queue. The protocol
`FSTMutationQueue` has more than one implementation; `MutationQueue` is the protocol.

What all of them are for is said by an `Outbox`: the batches that are left, oldest first, and the
highest id that has been acknowledged. An implementation is *lawful* if, as long as a batch is
acknowledged in turn, the batches that are removed are next to each other and the ids have not run
out, none of its assertions fails and it answers as the outbox would.
-/

namespace P0ker.Firestore

variable {V Q : Type}

/-! ## The protocol -/

/-- `FSTMutationQueue` -/
class MutationQueue (V : outParam Type) (Q : Type) where
  start : Q → Except String Q
  isEmpty : Q → Bool
  highestAcknowledgedBatchID : Q → Int
  acknowledgeBatch : Q → MutationBatch V → (streamToken : Option String) → Except String Q
  lastStreamToken : Q → Option String
  setLastStreamToken : Q → Option String → Q
  addMutationBatch : Q → (localWriteTime : Int) → List (Mutation V) →
    Except String (MutationBatch V × Q)
  lookupMutationBatch : Q → (batchID : Int) → Except String (Option (MutationBatch V))
  nextMutationBatchAfterBatchID : Q → (batchID : Int) → Option (MutationBatch V)
  allMutationBatches : Q → List (MutationBatch V)
  allMutationBatchesThroughBatchID : Q → (batchID : Int) → List (MutationBatch V)
  allMutationBatchesAffectingDocumentKey : Q → DocumentKey → Except String (List (MutationBatch V))
  allMutationBatchesAffectingQuery : Q → ResourcePath → Except String (List (MutationBatch V))
  removeMutationBatches : Q → List (MutationBatch V) → Except String Q
  performConsistencyCheck : Q → Except String Unit
  containsKey : Q → DocumentKey → Bool

/-! ## The outbox -/

/-- The batches that have not been removed, in the order of their ids; the highest id that has been
acknowledged; and the highest that has been given out since the start. -/
structure Outbox (V : Type) where
  batches : List (MutationBatch V)
  acknowledged : Int
  issued : Int
  sorted : batches.Pairwise fun b c => b.batchID < c.batchID
  mutates : ∀ b ∈ batches, b.mutations ≠ []
  known : ∀ b ∈ batches, batchIDUnknown < b.batchID
  given : ∀ b ∈ batches, b.batchID ≤ issued
  unknown_le : batchIDUnknown ≤ acknowledged
  acknowledged_le : acknowledged ≤ issued
  issued_lt : issued < batchIDMax

/-- The batch has a mutation of a document directly under the path. -/
def MutationBatch.MutatesUnder (batch : MutationBatch V) (path : ResourcePath) : Prop :=
  ∃ mutation ∈ batch.mutations, ∃ segment, mutation.key.1 = path ++ [segment]

instance (batch : MutationBatch V) (path : ResourcePath) : Decidable (batch.MutatesUnder path) :=
  decidable_of_iff (∃ mutation ∈ batch.mutations, mutation.key.1 ≠ [] ∧
    mutation.key.1.dropLast = path) <| by
    refine exists_congr fun mutation => and_congr_right fun _ => ?_
    constructor
    · rintro ⟨hne, rfl⟩
      exact ⟨_, (List.dropLast_append_getLast hne).symm⟩
    · rintro ⟨segment, h⟩
      simp [h]

namespace Outbox

/-- The batches that are not acknowledged. -/
def unacknowledged (a : Outbox V) : List (MutationBatch V) :=
  a.batches.filter (a.acknowledged < ·.batchID)

/-- The batches that are acknowledged, and held. -/
def held (a : Outbox V) : List (MutationBatch V) :=
  a.batches.filter (·.batchID ≤ a.acknowledged)

def lookup (a : Outbox V) (batchID : Int) : Option (MutationBatch V) :=
  a.batches.find? (·.batchID = batchID)

/-- The first batch that is not acknowledged and comes after `batchID`. -/
def next (a : Outbox V) (batchID : Int) : Option (MutationBatch V) :=
  a.batches.find? (max batchID a.acknowledged < ·.batchID)

def affecting (a : Outbox V) (key : DocumentKey) : List (MutationBatch V) :=
  a.batches.filter (·.Mutates key)

def affectingUnder (a : Outbox V) (path : ResourcePath) : List (MutationBatch V) :=
  a.batches.filter (·.MutatesUnder path)

/-- Nothing has been written. -/
def new : Outbox V where
  batches := []
  acknowledged := batchIDUnknown
  issued := 0
  sorted := List.Pairwise.nil
  mutates := List.forall_mem_nil _
  known := List.forall_mem_nil _
  given := List.forall_mem_nil _
  unknown_le := by decide
  acknowledged_le := by decide
  issued_lt := by decide

/-- Write a batch, with an id that has not been given out. -/
def add (a : Outbox V) (batch : MutationBatch V) (hmutations : batch.mutations ≠ [])
    (hissued : a.issued < batch.batchID) (hroom : batch.batchID < batchIDMax) : Outbox V where
  batches := a.batches ++ [batch]
  acknowledged := a.acknowledged
  issued := batch.batchID
  sorted := by
    refine List.pairwise_append.mpr ⟨a.sorted, List.pairwise_singleton _ _, ?_⟩
    intro b hb c hc
    rw [List.mem_singleton.mp hc]
    exact (a.given b hb).trans_lt hissued
  mutates := List.forall_mem_append.mpr ⟨a.mutates, List.forall_mem_singleton.mpr hmutations⟩
  known := List.forall_mem_append.mpr
    ⟨a.known, List.forall_mem_singleton.mpr
      ((a.unknown_le.trans a.acknowledged_le).trans_lt hissued)⟩
  given := List.forall_mem_append.mpr
    ⟨fun b hb => (a.given b hb).trans hissued.le, List.forall_mem_singleton.mpr le_rfl⟩
  unknown_le := a.unknown_le
  acknowledged_le := a.acknowledged_le.trans hissued.le
  issued_lt := hroom

def acknowledge (a : Outbox V) (batch : MutationBatch V) (h : batch ∈ a.batches) : Outbox V :=
  { a with
    acknowledged := batch.batchID
    unknown_le := (a.known batch h).le
    acknowledged_le := a.given batch h }

/-- Take the batches with these ids out. -/
def remove (a : Outbox V) (batches : List (MutationBatch V)) : Outbox V where
  batches := a.batches.filter (·.batchID ∉ batches.map (·.batchID))
  acknowledged := a.acknowledged
  issued := a.issued
  sorted := a.sorted.filter _
  mutates := fun b hb => a.mutates b (List.mem_filter.mp hb).1
  known := fun b hb => a.known b (List.mem_filter.mp hb).1
  given := fun b hb => a.given b (List.mem_filter.mp hb).1
  unknown_le := a.unknown_le
  acknowledged_le := a.acknowledged_le
  issued_lt := a.issued_lt

variable {a : Outbox V} {b c : MutationBatch V}

theorem isBatchID (hb : b ∈ a.batches) : IsBatchID b.batchID :=
  ⟨(a.known b hb).le, (a.given b hb).trans_lt a.issued_lt⟩

theorem isBatchID_acknowledged (a : Outbox V) : IsBatchID a.acknowledged :=
  ⟨a.unknown_le, a.acknowledged_le.trans_lt a.issued_lt⟩

/-- A batch is found by its id. -/
theorem batchID_inj (hb : b ∈ a.batches) (hc : c ∈ a.batches) (h : b.batchID = c.batchID) :
    b = c := by
  have hnodup : (a.batches.map (·.batchID)).Nodup := List.pairwise_map.mpr (a.sorted.imp ne_of_lt)
  exact List.inj_on_of_nodup_map hnodup hb hc h

theorem lookup_of_mem (h : b ∈ a.batches) : a.lookup b.batchID = some b := by
  cases hfound : a.lookup b.batchID with
  | none =>
      have hne := List.find?_eq_none.mp hfound b h
      simp at hne
  | some c =>
      have hid : c.batchID = b.batchID := by simpa using List.find?_some hfound
      rw [batchID_inj (List.mem_of_find?_eq_some hfound) h hid]

/-- The held batches come before the others. -/
theorem held_append_unacknowledged (a : Outbox V) : a.held ++ a.unacknowledged = a.batches := by
  have hsorted := a.sorted
  rw [held, unacknowledged]
  generalize a.batches = batches at hsorted
  induction batches with
  | nil => rfl
  | cons b batches ih =>
      obtain ⟨hb, hrest⟩ := List.pairwise_cons.mp hsorted
      by_cases hle : b.batchID ≤ a.acknowledged
      · rw [List.filter_cons_of_pos (by simpa using hle),
          List.filter_cons_of_neg (by simpa using hle), List.cons_append, ih hrest]
      · have hlt := not_le.mp hle
        have hafter : ∀ c ∈ batches, a.acknowledged < c.batchID :=
          fun c hc => hlt.trans (hb c hc)
        rw [List.filter_cons_of_neg (by simpa using hle),
          List.filter_cons_of_pos (by simpa using hlt),
          List.filter_eq_nil_iff.mpr fun c hc => by simpa using hafter c hc,
          List.filter_eq_self.mpr fun c hc => by simpa using hafter c hc, List.nil_append]

/-- The outbox from which a run of batches has been removed. -/
theorem remove_eq {before batches after : List (MutationBatch V)}
    (heq : a.batches = before ++ batches ++ after) :
    (a.remove batches).batches = before ++ after := by
  have hsorted := a.sorted
  rw [heq] at hsorted
  have hnodup : ((before ++ batches ++ after).map (·.batchID)).Nodup :=
    List.pairwise_map.mpr (hsorted.imp ne_of_lt)
  have hdisjoint : ∀ b ∈ before ++ after, b.batchID ∉ batches.map (·.batchID) := by
    rw [List.map_append, List.map_append] at hnodup
    obtain ⟨hleft, -, hright⟩ := List.nodup_append.mp hnodup
    obtain ⟨-, -, hbefore⟩ := List.nodup_append.mp hleft
    intro b hb hmem
    rcases List.mem_append.mp hb with hb | hb
    · exact hbefore _ (List.mem_map_of_mem hb) _ hmem rfl
    · exact hright _ (List.mem_append_right _ hmem) _ (List.mem_map_of_mem hb) rfl
  show a.batches.filter (·.batchID ∉ batches.map (·.batchID)) = _
  rw [heq, List.filter_append, List.filter_append,
    List.filter_eq_self.mpr fun b hb => by
      simpa using hdisjoint b (List.mem_append_left _ hb),
    List.filter_eq_nil_iff.mpr fun b hb => by
      simpa using ⟨b, hb, rfl⟩,
    List.filter_eq_self.mpr fun b hb => by
      simpa using hdisjoint b (List.mem_append_right _ hb), List.append_nil]

/-! ### Held and unacknowledged batches -/

theorem mem_held : b ∈ a.held ↔ b ∈ a.batches ∧ b.batchID ≤ a.acknowledged := by
  simp [held]

theorem mem_unacknowledged : b ∈ a.unacknowledged ↔ b ∈ a.batches ∧ a.acknowledged < b.batchID := by
  simp [unacknowledged]

/-- The place where the ids pass the last one acknowledged parts the batches. -/
theorem held_unacknowledged_of {first rest : List (MutationBatch V)} (h : a.batches = first ++ rest)
    (hfirst : ∀ b ∈ first, b.batchID ≤ a.acknowledged)
    (hrest : ∀ b ∈ rest, a.acknowledged < b.batchID) :
    a.held = first ∧ a.unacknowledged = rest := by
  have hno : ∀ b ∈ rest, ¬ b.batchID ≤ a.acknowledged := fun b hb => not_le.mpr (hrest b hb)
  have hnone : ∀ b ∈ first, ¬ a.acknowledged < b.batchID := fun b hb => not_lt.mpr (hfirst b hb)
  constructor
  · rw [held, h, List.filter_append, List.filter_eq_self.mpr fun b hb => by simpa using hfirst b hb,
      List.filter_eq_nil_iff.mpr fun b hb => by simpa using hno b hb, List.append_nil]
  · rw [unacknowledged, h, List.filter_append,
      List.filter_eq_nil_iff.mpr fun b hb => by simpa using hnone b hb,
      List.filter_eq_self.mpr fun b hb => by simpa using hrest b hb, List.nil_append]

/-- A new batch is not acknowledged. -/
theorem add_parts (hmutations : b.mutations ≠ []) (hissued : a.issued < b.batchID)
    (hroom : b.batchID < batchIDMax) :
    (a.add b hmutations hissued hroom).held = a.held ∧
      (a.add b hmutations hissued hroom).unacknowledged = a.unacknowledged ++ [b] := by
  refine held_unacknowledged_of ?_ (fun c hc => (mem_held.mp hc).2) ?_
  · rw [← List.append_assoc, held_append_unacknowledged]
    rfl
  · intro c hc
    rcases List.mem_append.mp hc with hc | hc
    · exact (mem_unacknowledged.mp hc).2
    · rw [List.mem_singleton.mp hc]
      exact a.acknowledged_le.trans_lt hissued

/-- The first batch that is not acknowledged comes next. -/
theorem acknowledge_parts {rest : List (MutationBatch V)} (h : a.unacknowledged = b :: rest)
    (hb : b ∈ a.batches) :
    (a.acknowledge b hb).held = a.held ++ [b] ∧ (a.acknowledge b hb).unacknowledged = rest := by
  have hbatches : a.batches = a.held ++ b :: rest := by rw [← h, held_append_unacknowledged]
  have hsorted := a.sorted
  rw [hbatches] at hsorted
  obtain ⟨-, htail, hbetween⟩ := List.pairwise_append.mp hsorted
  refine held_unacknowledged_of (by rw [List.append_assoc]; exact hbatches) ?_
    (List.pairwise_cons.mp htail).1
  intro c hc
  rcases List.mem_append.mp hc with hc | hc
  · exact (hbetween c hc b List.mem_cons_self).le
  · exact (congrArg _ (List.mem_singleton.mp hc)).le

/-- The oldest of the held batches are removed. -/
theorem remove_held_parts {batches rest : List (MutationBatch V)} (h : a.held = batches ++ rest) :
    (a.remove batches).held = rest ∧ (a.remove batches).unacknowledged = a.unacknowledged := by
  have hbatches : a.batches = [] ++ batches ++ (rest ++ a.unacknowledged) := by
    rw [List.nil_append, ← List.append_assoc, ← h, held_append_unacknowledged]
  have hremoved := remove_eq hbatches
  refine held_unacknowledged_of hremoved (fun c hc => ?_) fun c hc =>
    (mem_unacknowledged.mp hc).2
  have hc : c ∈ a.held := by
    rw [h]
    exact List.mem_append_right _ hc
  exact (mem_held.mp hc).2

/-- The first batch that is not acknowledged is removed. -/
theorem remove_first_parts {rest : List (MutationBatch V)} (h : a.unacknowledged = b :: rest) :
    (a.remove [b]).held = a.held ∧ (a.remove [b]).unacknowledged = rest := by
  have hbatches : a.batches = a.held ++ [b] ++ rest := by
    rw [List.append_assoc, List.singleton_append, ← h, held_append_unacknowledged]
  refine held_unacknowledged_of (remove_eq hbatches) (fun c hc => (mem_held.mp hc).2) fun c hc => ?_
  have hc : c ∈ a.unacknowledged := by
    rw [h]
    exact List.mem_cons_of_mem _ hc
  exact (mem_unacknowledged.mp hc).2

theorem next_eq (a : Outbox V) (batchID : Int) :
    a.next batchID = a.unacknowledged.find? (batchID < ·.batchID) := by
  rw [next, unacknowledged, List.find?_filter]
  congr 1
  funext b
  simp [and_comm]

theorem next_unknown (a : Outbox V) : a.next batchIDUnknown = a.unacknowledged.head? := by
  have hknown : ∀ b ∈ a.unacknowledged, batchIDUnknown < b.batchID :=
    fun b hb => a.known b (mem_unacknowledged.mp hb).1
  rw [next_eq]
  cases hunacknowledged : a.unacknowledged with
  | nil => rfl
  | cons b rest =>
      rw [hunacknowledged] at hknown
      rw [List.find?_cons_of_pos (by simpa using hknown b List.mem_cons_self)]
      rfl

end Outbox

/-! ## Lawful queues -/

/-- A queue that answers as an outbox would. -/
class LawfulMutationQueue (V : outParam Type) (Q : Type) [MutationQueue V Q] where
  /-- The queue stands for the outbox. -/
  Represents : Q → Outbox V → Prop
  /-- There is an id for a new batch, and one for the batch after it. -/
  HasRoom : Q → Prop
  start_ok : ∀ {q a}, Represents q a → ∃ q' a', MutationQueue.start q = .ok q' ∧ Represents q' a' ∧
    a'.batches = a.batches ∧
      (a'.acknowledged = a.acknowledged ∨ a.batches = [] ∧ a'.acknowledged = batchIDUnknown)
  isEmpty_eq : ∀ {q a}, Represents q a → MutationQueue.isEmpty q = a.batches.isEmpty
  highestAcknowledgedBatchID_eq : ∀ {q a}, Represents q a →
    MutationQueue.highestAcknowledgedBatchID q = a.acknowledged
  acknowledgeBatch_ok : ∀ {q a b token}, Represents q a → ∀ hb : b ∈ a.batches,
    a.acknowledged < b.batchID →
    ∃ q', MutationQueue.acknowledgeBatch q b token = .ok q' ∧ Represents q' (a.acknowledge b hb)
  setLastStreamToken_ok : ∀ {q a} token, Represents q a →
    Represents (MutationQueue.setLastStreamToken q token) a
  addMutationBatch_ok : ∀ {q a} localWriteTime {mutations}, Represents q a → HasRoom q →
    ∀ hne : mutations ≠ [],
      ∃ batchID q', ∃ (hissued : a.issued < batchID) (hroom : batchID < batchIDMax),
        MutationQueue.addMutationBatch q localWriteTime mutations =
          .ok (⟨batchID, localWriteTime, mutations⟩, q') ∧
        Represents q' (a.add ⟨batchID, localWriteTime, mutations⟩ hne hissued hroom)
  lookupMutationBatch_ok : ∀ {q a batchID}, Represents q a → IsBatchID batchID →
    MutationQueue.lookupMutationBatch q batchID = .ok (a.lookup batchID)
  nextMutationBatchAfterBatchID_eq : ∀ {q a batchID}, Represents q a → IsBatchID batchID →
    MutationQueue.nextMutationBatchAfterBatchID q batchID = a.next batchID
  allMutationBatches_eq : ∀ {q a}, Represents q a → MutationQueue.allMutationBatches q = a.batches
  allMutationBatchesThroughBatchID_eq : ∀ {q a batchID}, Represents q a → IsBatchID batchID →
    MutationQueue.allMutationBatchesThroughBatchID q batchID =
      a.batches.filter (·.batchID ≤ batchID)
  allMutationBatchesAffectingDocumentKey_ok : ∀ {q a key}, Represents q a →
    MutationQueue.allMutationBatchesAffectingDocumentKey q key = .ok (a.affecting key)
  allMutationBatchesAffectingQuery_ok : ∀ {q a path}, Represents q a →
    MutationQueue.allMutationBatchesAffectingQuery q path = .ok (a.affectingUnder path)
  removeMutationBatches_ok : ∀ {q a batches}, Represents q a → batches ≠ [] →
    batches <:+: a.batches →
    ∃ q', MutationQueue.removeMutationBatches q batches = .ok q' ∧ Represents q' (a.remove batches)
  performConsistencyCheck_ok : ∀ {q a}, Represents q a →
    MutationQueue.performConsistencyCheck q = .ok ()
  containsKey_eq : ∀ {q a key}, Represents q a →
    MutationQueue.containsKey q key = !(a.affecting key).isEmpty

/-! ## Runs of a queue

What a lawful queue does, told by its own answers. -/

open MutationQueue LawfulMutationQueue

/-- A call that changes a queue. -/
inductive QueueAction (V : Type) where
  | start
  | acknowledgeBatch (batch : MutationBatch V) (streamToken : Option String)
  | setLastStreamToken (streamToken : Option String)
  | addMutationBatch (localWriteTime : Int) (mutations : List (Mutation V))
  | removeMutationBatches (batches : List (MutationBatch V))

namespace QueueAction

variable [MutationQueue V Q]

def run (q : Q) : QueueAction V → Except String Q
  | .start => MutationQueue.start q
  | .acknowledgeBatch batch streamToken => MutationQueue.acknowledgeBatch q batch streamToken
  | .setLastStreamToken streamToken => .ok (MutationQueue.setLastStreamToken q streamToken)
  | .addMutationBatch localWriteTime mutations => do
      let (_, q') ← MutationQueue.addMutationBatch q localWriteTime mutations
      return q'
  | .removeMutationBatches batches => MutationQueue.removeMutationBatches q batches

/-- The call comes in turn: what is acknowledged is in the queue and has not been, what is removed
is a run of batches of the queue, and what is written mutates something and finds an id. -/
def InTurn [LawfulMutationQueue V Q] (q : Q) : QueueAction V → Prop
  | .start | .setLastStreamToken _ => True
  | .acknowledgeBatch batch _ =>
      batch ∈ allMutationBatches q ∧ highestAcknowledgedBatchID q < batch.batchID
  | .addMutationBatch _ mutations => mutations ≠ [] ∧ HasRoom q
  | .removeMutationBatches batches => batches ≠ [] ∧ batches <:+: allMutationBatches q

/-- What the call is to do. -/
def Effect (q q' : Q) : QueueAction V → Prop
  | .start => allMutationBatches q' = allMutationBatches q ∧
      (highestAcknowledgedBatchID q' = highestAcknowledgedBatchID q ∨
        allMutationBatches q = [] ∧ highestAcknowledgedBatchID q' = batchIDUnknown)
  | .acknowledgeBatch batch _ => allMutationBatches q' = allMutationBatches q ∧
      highestAcknowledgedBatchID q' = batch.batchID
  | .setLastStreamToken _ => allMutationBatches q' = allMutationBatches q ∧
      highestAcknowledgedBatchID q' = highestAcknowledgedBatchID q
  | .addMutationBatch localWriteTime mutations => ∃ batchID,
      (∀ b ∈ allMutationBatches q, b.batchID < batchID) ∧ highestAcknowledgedBatchID q < batchID ∧
      allMutationBatches q' = allMutationBatches q ++ [⟨batchID, localWriteTime, mutations⟩] ∧
      highestAcknowledgedBatchID q' = highestAcknowledgedBatchID q
  | .removeMutationBatches batches =>
      allMutationBatches q' =
        (allMutationBatches q).filter (·.batchID ∉ batches.map (·.batchID)) ∧
      highestAcknowledgedBatchID q' = highestAcknowledgedBatchID q

end QueueAction

/-- Every question is answered from the list of all batches. -/
structure AnswersPlainly [MutationQueue V Q] (q : Q) : Prop where
  isEmpty : MutationQueue.isEmpty q = (allMutationBatches q).isEmpty
  lookup : ∀ batchID, IsBatchID batchID → lookupMutationBatch q batchID =
    .ok ((allMutationBatches q).find? (·.batchID = batchID))
  next : ∀ batchID, IsBatchID batchID → nextMutationBatchAfterBatchID q batchID =
    (allMutationBatches q).find? (max batchID (highestAcknowledgedBatchID q) < ·.batchID)
  through : ∀ batchID, IsBatchID batchID → allMutationBatchesThroughBatchID q batchID =
    (allMutationBatches q).filter (·.batchID ≤ batchID)
  affectingKey : ∀ key, allMutationBatchesAffectingDocumentKey q key =
    .ok ((allMutationBatches q).filter (·.Mutates key))
  affectingQuery : ∀ path, allMutationBatchesAffectingQuery q path =
    .ok ((allMutationBatches q).filter (·.MutatesUnder path))
  containsKey : ∀ key, MutationQueue.containsKey q key =
    !((allMutationBatches q).filter (·.Mutates key)).isEmpty
  consistent : performConsistencyCheck q = .ok ()

/-- The runs of a queue. -/
def queueMachine [MutationQueue V Q] (q₀ : Q) : Machine Q (QueueAction V) where
  init q := q = q₀
  step q action := (action.run q).toOption

section Lawful

variable [MutationQueue V Q] [LawfulMutationQueue V Q] {q q₀ : Q} {a a₀ : Outbox V}

theorem Represents.answersPlainly (h : Represents q a) : AnswersPlainly q where
  isEmpty := by rw [isEmpty_eq h, allMutationBatches_eq h]
  lookup _ hid := by rw [lookupMutationBatch_ok h hid, allMutationBatches_eq h]; rfl
  next _ hid := by
    rw [nextMutationBatchAfterBatchID_eq h hid, allMutationBatches_eq h,
      highestAcknowledgedBatchID_eq h]
    rfl
  through _ hid := by rw [allMutationBatchesThroughBatchID_eq h hid, allMutationBatches_eq h]
  affectingKey _ := by
    rw [allMutationBatchesAffectingDocumentKey_ok h, allMutationBatches_eq h]
    rfl
  affectingQuery _ := by
    rw [allMutationBatchesAffectingQuery_ok h, allMutationBatches_eq h]
    rfl
  containsKey _ := by
    rw [containsKey_eq h, allMutationBatches_eq h]
    rfl
  consistent := performConsistencyCheck_ok h

/-- A call in turn does not fail, and does what it is to do. -/
theorem Represents.run (h : Represents q a) {action : QueueAction V} (hturn : action.InTurn q) :
    ∃ q' a', action.run q = .ok q' ∧ Represents q' a' ∧ action.Effect q q' := by
  have hall := allMutationBatches_eq h
  have hhighest := highestAcknowledgedBatchID_eq h
  cases action with
  | start =>
      obtain ⟨q', a', hrun, h', hbatches, hack⟩ := start_ok h
      refine ⟨q', a', hrun, h', ?_, ?_⟩
      · rw [allMutationBatches_eq h', hall, hbatches]
      · rw [highestAcknowledgedBatchID_eq h', hhighest, hall]
        exact hack
  | acknowledgeBatch batch streamToken =>
      obtain ⟨hmem, hlater⟩ := hturn
      rw [hall] at hmem
      rw [hhighest] at hlater
      obtain ⟨q', hrun, h'⟩ := acknowledgeBatch_ok h hmem hlater
      exact ⟨q', _, hrun, h', (allMutationBatches_eq h').trans hall.symm,
        highestAcknowledgedBatchID_eq h'⟩
  | setLastStreamToken streamToken =>
      have h' := setLastStreamToken_ok streamToken h
      exact ⟨_, a, rfl, h', (allMutationBatches_eq h').trans hall.symm,
        (highestAcknowledgedBatchID_eq h').trans hhighest.symm⟩
  | addMutationBatch localWriteTime mutations =>
      obtain ⟨hne, hroom⟩ := hturn
      obtain ⟨batchID, q', hissued, _, hrun, h'⟩ := addMutationBatch_ok localWriteTime h hroom hne
      refine ⟨q', _, ?_, h', batchID, ?_, ?_, ?_, ?_⟩
      · rw [QueueAction.run, hrun]
        rfl
      · rw [hall]
        exact fun b hb => (a.given b hb).trans_lt hissued
      · rw [hhighest]
        exact a.acknowledged_le.trans_lt hissued
      · rw [allMutationBatches_eq h', hall]
        rfl
      · rw [highestAcknowledgedBatchID_eq h', hhighest]
        rfl
  | removeMutationBatches batches =>
      obtain ⟨hne, hpart⟩ := hturn
      rw [hall] at hpart
      obtain ⟨q', hrun, h'⟩ := removeMutationBatches_ok h hne hpart
      refine ⟨q', _, hrun, h', ?_, ?_⟩
      · rw [allMutationBatches_eq h', hall]
        rfl
      · rw [highestAcknowledgedBatchID_eq h', hhighest]
        rfl

/-- What calls in turn make of a queue that stands for an outbox stands for one. -/
theorem Represents.reach (h₀ : Represents q₀ a₀)
    (h : (queueMachine q₀).Reach QueueAction.InTurn q) : ∃ a, Represents q a := by
  refine h.invariant (P := fun q => ∃ a, Represents q a) ?_ ?_
  · rintro q rfl
    exact ⟨a₀, h₀⟩
  · rintro q action q' - ⟨a, ha⟩ hturn hstep
    obtain ⟨q'', a'', hrun, h'', -⟩ := Represents.run ha hturn
    change (action.run q).toOption = some q' at hstep
    rw [hrun] at hstep
    obtain rfl := Option.some.inj hstep
    exact ⟨a'', h''⟩

end Lawful

end P0ker.Firestore
