import Mathlib.Data.List.AList

/-!
# A store of documents under paths

Documents live under paths, a path being a list of segments. A *collection* is a path too: its
documents are the ones stored one segment below it, not deeper. `setData` replaces the document at
its path, or creates it.
-/

/-- A store: finitely many documents of type `D`, each under its own path. -/
abbrev DocStore (K D : Type) := AList fun _ : List K => D

namespace DocStore

variable {K D : Type} [DecidableEq K]

/-- The document at a path. -/
def get (s : DocStore K D) (p : List K) : Option D :=
  s.lookup p

/-- Replace, or create, the document at a path. -/
def setData (s : DocStore K D) (p : List K) (d : D) : DocStore K D :=
  AList.insert p d s

/-- `id` when the path is the document `id` directly under the collection. -/
def childId (coll p : List K) : Option K :=
  if p.dropLast = coll then p.getLast? else none

/-- The documents directly under a collection, each with its id. -/
def documents (s : DocStore K D) (coll : List K) : List (K × D) :=
  s.entries.filterMap fun e => (childId coll e.1).map fun id => (id, e.2)

@[simp] theorem get_empty (p : List K) : get (∅ : DocStore K D) p = none :=
  AList.lookup_empty p

@[simp] theorem get_setData (s : DocStore K D) (p : List K) (d : D) :
    (s.setData p d).get p = some d :=
  AList.lookup_insert s

/-- The frame of `setData`: every other path keeps its document. -/
theorem get_setData_ne (s : DocStore K D) {p q : List K} (d : D) (h : q ≠ p) :
    (s.setData p d).get q = s.get q :=
  AList.lookup_insert_ne h

theorem get_setData_eq (s : DocStore K D) (p q : List K) (d : D) :
    (s.setData p d).get q = if q = p then some d else s.get q := by
  split
  · next h => rw [h, get_setData]
  · next h => exact get_setData_ne s d h

theorem childId_eq_some {coll p : List K} {id : K} :
    childId coll p = some id ↔ p = coll ++ [id] := by
  unfold childId
  constructor
  · intro h
    split at h
    · next hd =>
        rw [← hd]
        exact (List.dropLast_append_getLast? id h).symm
    · cases h
  · rintro rfl
    simp

/-- A document is listed under a collection exactly when it is stored one segment below. -/
theorem mem_documents {s : DocStore K D} {coll : List K} {id : K} {d : D} :
    (id, d) ∈ s.documents coll ↔ s.get (coll ++ [id]) = some d := by
  rw [documents, List.mem_filterMap, get, ← Option.mem_def, AList.mem_lookup_iff]
  constructor
  · rintro ⟨⟨p, d'⟩, hmem, h⟩
    obtain ⟨id', hid, heq⟩ := Option.map_eq_some_iff.mp h
    obtain ⟨rfl, rfl⟩ := Prod.mk.inj heq
    obtain rfl := childId_eq_some.mp hid
    exact hmem
  · intro hmem
    exact ⟨_, hmem, by rw [childId_eq_some.mpr rfl]; rfl⟩

/-! ## Many writes

When no two of them put different documents at one path, their order does not matter. -/

/-- Carry out the writes one after the other. -/
def setAll (s : DocStore K D) (ws : List (List K × D)) : DocStore K D :=
  ws.foldl (fun s w => s.setData w.1 w.2) s

theorem get_setAll_of_notMem {s : DocStore K D} {ws : List (List K × D)} {p : List K}
    (h : ∀ d, (p, d) ∉ ws) : (s.setAll ws).get p = s.get p := by
  induction ws generalizing s with
  | nil => rfl
  | cons w ws ih =>
      have hne : p ≠ w.1 := by
        rintro rfl
        exact h w.2 List.mem_cons_self
      show ((s.setData w.1 w.2).setAll ws).get p = s.get p
      rw [ih fun d hd => h d (List.mem_cons_of_mem _ hd), get_setData_ne _ _ hne]

theorem get_setAll_of_mem {s : DocStore K D} {ws : List (List K × D)} {p : List K} {d : D}
    (hsame : ∀ d', (p, d') ∈ ws → d' = d) (hmem : (p, d) ∈ ws) :
    (s.setAll ws).get p = some d := by
  induction ws generalizing s with
  | nil => cases hmem
  | cons w ws ih =>
      show ((s.setData w.1 w.2).setAll ws).get p = some d
      by_cases hlater : (p, d) ∈ ws
      · exact ih (fun d' hd' => hsame d' (List.mem_cons_of_mem _ hd')) hlater
      · -- this write is the last one at its path
        have hw : w = (p, d) := ((List.mem_cons.mp hmem).resolve_right hlater).symm
        subst hw
        rw [get_setAll_of_notMem, get_setData]
        intro d' hd'
        rw [hsame d' (List.mem_cons_of_mem _ hd')] at hd'
        exact hlater hd'

end DocStore
