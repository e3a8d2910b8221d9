import Mathlib.Data.List.Nodup
import Mathlib.Data.List.TakeWhile
import Mathlib.Order.Lattice

/-!
# Collections sorted by a key

A finite collection whose entries are kept in the strict order of their keys: a sorted set is
sorted by `id`, a sorted dictionary by `Prod.fst`, a cache of records by the key in the record. No
two entries have the same key, so an entry is found by its key, and the collection is determined by
what is found in it.

A *scan* starts at a key and goes on for as long as a test passes. Over a test that no larger key
passes again once it has failed, the scan finds every entry that passes.
-/

/-- Entries in the strict order of their keys. -/
structure SortedBy {α κ : Type} [LinearOrder κ] (key : α → κ) where
  toList : List α
  sorted : toList.Pairwise fun a b => key a < key b

namespace SortedBy

variable {α κ : Type} [LinearOrder κ] {key : α → κ}

/-! ## Sorted lists -/

/-- Put `a` in its place, instead of the entry that has its key. -/
def insertList (key : α → κ) (a : α) : List α → List α
  | [] => [a]
  | b :: l =>
      if key a < key b then a :: b :: l
      else if key b < key a then b :: insertList key a l
      else a :: l

theorem mem_insertList {a c : α} {l : List α} (h : c ∈ insertList key a l) : c = a ∨ c ∈ l := by
  induction l with
  | nil => exact Or.inl (List.mem_singleton.mp h)
  | cons b l ih =>
      rw [insertList] at h
      split_ifs at h with h₁ h₂
      · exact List.mem_cons.mp h
      · rcases List.mem_cons.mp h with rfl | h
        · exact Or.inr List.mem_cons_self
        · exact (ih h).imp_right (List.mem_cons_of_mem _)
      · exact (List.mem_cons.mp h).imp_right (List.mem_cons_of_mem _)

theorem sorted_insertList {a : α} {l : List α} (h : l.Pairwise fun a b => key a < key b) :
    (insertList key a l).Pairwise fun a b => key a < key b := by
  induction l with
  | nil => exact List.pairwise_singleton _ _
  | cons b l ih =>
      obtain ⟨hb, hl⟩ := List.pairwise_cons.mp h
      rw [insertList]
      split_ifs with h₁ h₂
      · refine List.pairwise_cons.mpr ⟨?_, h⟩
        intro c hc
        rcases List.mem_cons.mp hc with rfl | hc
        · exact h₁
        · exact h₁.trans (hb c hc)
      · refine List.pairwise_cons.mpr ⟨?_, ih hl⟩
        intro c hc
        rcases mem_insertList hc with rfl | hc
        · exact h₂
        · exact hb c hc
      · have heq : key a = key b := le_antisymm (not_lt.mp h₂) (not_lt.mp h₁)
        refine List.pairwise_cons.mpr ⟨?_, hl⟩
        intro c hc
        rw [heq]
        exact hb c hc

/-- Past its start a sorted list holds the larger keys. -/
theorem dropWhile_eq_filter {l : List α} (h : l.Pairwise fun a b => key a < key b) (k : κ) :
    l.dropWhile (fun a => key a < k) = l.filter (fun a => k ≤ key a) := by
  induction l with
  | nil => rfl
  | cons b l ih =>
      obtain ⟨hb, hl⟩ := List.pairwise_cons.mp h
      by_cases hk : key b < k
      · rw [List.dropWhile_cons_of_pos (by simpa using hk),
          List.filter_cons_of_neg (by simpa using hk), ih hl]
      · rw [List.dropWhile_cons_of_neg (by simpa using hk)]
        refine (List.filter_eq_self.mpr ?_).symm
        intro c hc
        rcases List.mem_cons.mp hc with rfl | hc
        · simpa using hk
        · simpa using (not_lt.mp hk).trans (hb c hc).le

/-- A test that fails from some entry on is passed by a first part of the list. -/
theorem takeWhile_eq_filter {l : List α} {p : α → Bool}
    (h : l.Pairwise fun a b => p b → p a) : l.takeWhile p = l.filter p := by
  induction l with
  | nil => rfl
  | cons b l ih =>
      obtain ⟨hb, hl⟩ := List.pairwise_cons.mp h
      by_cases hp : p b
      · rw [List.takeWhile_cons_of_pos hp, List.filter_cons_of_pos hp, ih hl]
      · rw [List.takeWhile_cons_of_neg hp, List.filter_cons_of_neg hp]
        exact (List.filter_eq_nil_iff.mpr fun c hc hpc => hp (hb c hc hpc)).symm

/-! ## Operations -/

/-- The empty collection. -/
def empty : SortedBy key :=
  ⟨[], List.Pairwise.nil⟩

instance : EmptyCollection (SortedBy key) :=
  ⟨empty⟩

instance : Membership α (SortedBy key) :=
  ⟨fun s a => a ∈ s.toList⟩

/-- Put an entry in, instead of the one that has its key. -/
def insert (s : SortedBy key) (a : α) : SortedBy key :=
  ⟨insertList key a s.toList, sorted_insertList s.sorted⟩

/-- Take out the entry with a key. -/
def erase (s : SortedBy key) (k : κ) : SortedBy key :=
  ⟨s.toList.filter (key · ≠ k), s.sorted.filter _⟩

/-- Take out the entries that fail the test. -/
def filter (s : SortedBy key) (p : α → Bool) : SortedBy key :=
  ⟨s.toList.filter p, s.sorted.filter p⟩

/-- The entry with a key. -/
def find? (s : SortedBy key) (k : κ) : Option α :=
  s.toList.find? (key · = k)

/-- The entries from a key on. -/
def fromKey (s : SortedBy key) (k : κ) : List α :=
  s.toList.dropWhile (key · < k)

/-- The entries from a key on, as long as they pass the test. -/
def scan (s : SortedBy key) (k : κ) (p : α → Bool) : List α :=
  (s.fromKey k).takeWhile p

variable {s t : SortedBy key} {a b : α} {k : κ}

/-! ## What is found -/

theorem mem_toList : a ∈ s.toList ↔ a ∈ s :=
  Iff.rfl

@[simp] theorem notMem_empty : a ∉ (∅ : SortedBy key) :=
  List.not_mem_nil

/-- No two entries have the same key. -/
theorem key_inj (ha : a ∈ s) (hb : b ∈ s) (h : key a = key b) : a = b := by
  have hnodup : (s.toList.map key).Nodup := List.pairwise_map.mpr (s.sorted.imp ne_of_lt)
  exact List.inj_on_of_nodup_map hnodup ha hb h

theorem find?_eq_some : s.find? k = some a ↔ a ∈ s ∧ key a = k := by
  constructor
  · intro h
    exact ⟨List.mem_of_find?_eq_some h, by simpa using List.find?_some h⟩
  · rintro ⟨ha, rfl⟩
    cases hb : s.find? (key a) with
    | none =>
        have hnone := List.find?_eq_none.mp hb a ha
        simp at hnone
    | some b =>
        have hkey : key b = key a := by simpa using List.find?_some hb
        rw [key_inj (List.mem_of_find?_eq_some hb) ha hkey]

theorem find?_eq_none : s.find? k = none ↔ ∀ a ∈ s, key a ≠ k := by
  rw [find?, List.find?_eq_none]
  simp [mem_toList]

theorem key_of_find? (h : s.find? k = some a) : key a = k :=
  (find?_eq_some.mp h).2

@[simp] theorem find?_empty : (∅ : SortedBy key).find? k = none :=
  rfl

theorem mem_insert : b ∈ s.insert a ↔ b = a ∨ b ∈ s ∧ key b ≠ key a := by
  show b ∈ insertList key a s.toList ↔ _
  have hsorted := s.sorted
  show _ ↔ b = a ∨ b ∈ s.toList ∧ key b ≠ key a
  generalize s.toList = l at hsorted
  induction l with
  | nil => simp [insertList]
  | cons c l ih =>
      obtain ⟨hc, hl⟩ := List.pairwise_cons.mp hsorted
      rw [insertList]
      split_ifs with h₁ h₂
      · rw [List.mem_cons]
        refine or_congr_right ⟨fun hb => ⟨hb, ?_⟩, And.left⟩
        rcases List.mem_cons.mp hb with rfl | hb
        · exact h₁.ne'
        · exact (h₁.trans (hc b hb)).ne'
      · rw [List.mem_cons, List.mem_cons, ih hl]
        constructor
        · rintro (rfl | rfl | ⟨hb, hne⟩)
          · exact Or.inr ⟨Or.inl rfl, h₂.ne⟩
          · exact Or.inl rfl
          · exact Or.inr ⟨Or.inr hb, hne⟩
        · rintro (rfl | ⟨rfl | hb, hne⟩)
          · exact Or.inr (Or.inl rfl)
          · exact Or.inl rfl
          · exact Or.inr (Or.inr ⟨hb, hne⟩)
      · have heq : key a = key c := le_antisymm (not_lt.mp h₂) (not_lt.mp h₁)
        rw [List.mem_cons, List.mem_cons]
        refine or_congr_right ⟨fun hb => ⟨Or.inr hb, ?_⟩, ?_⟩
        · rw [heq]
          exact (hc b hb).ne'
        · rintro ⟨rfl | hb, hne⟩
          · exact absurd heq.symm hne
          · exact hb

theorem find?_insert : (s.insert a).find? k = if key a = k then some a else s.find? k := by
  split
  · next h => exact find?_eq_some.mpr ⟨mem_insert.mpr (Or.inl rfl), h⟩
  · next h =>
      cases hb : s.find? k with
      | none =>
          refine find?_eq_none.mpr fun b hb' => ?_
          rcases mem_insert.mp hb' with rfl | ⟨hb', -⟩
          · exact h
          · exact find?_eq_none.mp hb b hb'
      | some b =>
          obtain ⟨hmem, hkey⟩ := find?_eq_some.mp hb
          refine find?_eq_some.mpr ⟨mem_insert.mpr (Or.inr ⟨hmem, ?_⟩), hkey⟩
          rw [hkey]
          exact fun h' => h h'.symm

theorem mem_erase : b ∈ s.erase k ↔ b ∈ s ∧ key b ≠ k := by
  show b ∈ s.toList.filter _ ↔ b ∈ s.toList ∧ _
  simp

theorem find?_erase {k' : κ} : (s.erase k').find? k = if k = k' then none else s.find? k := by
  split
  · next h =>
      subst h
      exact find?_eq_none.mpr fun b hb => (mem_erase.mp hb).2
  · next h =>
      cases hb : s.find? k with
      | none => exact find?_eq_none.mpr fun b hb' => find?_eq_none.mp hb b (mem_erase.mp hb').1
      | some b =>
          obtain ⟨hmem, hkey⟩ := find?_eq_some.mp hb
          exact find?_eq_some.mpr ⟨mem_erase.mpr ⟨hmem, by rwa [hkey]⟩, hkey⟩

theorem mem_filter {p : α → Bool} : b ∈ s.filter p ↔ b ∈ s ∧ p b :=
  List.mem_filter

/-- Entries with different keys that are put in one after the other. -/
theorem mem_foldl_insert {l : List α} (h : l.Pairwise fun a b => key a ≠ key b) :
    b ∈ l.foldl insert s ↔ b ∈ l ∨ b ∈ s ∧ ∀ a ∈ l, key b ≠ key a := by
  induction l generalizing s with
  | nil => simp
  | cons a l ih =>
      obtain ⟨ha, hl⟩ := List.pairwise_cons.mp h
      rw [List.foldl_cons, ih hl, mem_insert, List.mem_cons, List.forall_mem_cons]
      constructor
      · rintro (hb | ⟨rfl | ⟨hb, hne⟩, hall⟩)
        · exact Or.inl (Or.inr hb)
        · exact Or.inl (Or.inl rfl)
        · exact Or.inr ⟨hb, hne, hall⟩
      · rintro ((rfl | hb) | ⟨hb, hne, hall⟩)
        · exact Or.inr ⟨Or.inl rfl, fun c hc => ha c hc⟩
        · exact Or.inl hb
        · exact Or.inr ⟨Or.inr ⟨hb, hne⟩, hall⟩

/-! ## Scans -/

/-- **The scan.** Let the entries that pass the test have keys from `k` on, and let every entry
between `k` and one that passes pass as well. Then the scan from `k` finds all that pass, in the
order of their keys. -/
theorem scan_eq_filter {p : α → Bool} (hk : ∀ a ∈ s, p a → k ≤ key a)
    (hp : ∀ a ∈ s, ∀ b ∈ s, k ≤ key a → key a < key b → p b → p a) :
    s.scan k p = s.toList.filter p := by
  have hfrom : s.fromKey k = s.toList.filter (fun a => k ≤ key a) :=
    dropWhile_eq_filter s.sorted k
  rw [scan, hfrom, takeWhile_eq_filter, List.filter_filter]
  · refine List.filter_congr fun a ha => ?_
    by_cases h : p a
    · simp [h, hk a ha h]
    · simp [h]
  · refine (List.pairwise_filter.mpr ?_ : (s.toList.filter _).Pairwise _)
    refine s.sorted.imp_of_mem ?_
    intro a b ha hb hlt hka _ hpb
    exact hp a ha b hb (by simpa using hka) hlt hpb

theorem mem_fromKey : a ∈ s.fromKey k ↔ a ∈ s ∧ k ≤ key a := by
  rw [fromKey, dropWhile_eq_filter s.sorted]
  simp [mem_toList]

end SortedBy
