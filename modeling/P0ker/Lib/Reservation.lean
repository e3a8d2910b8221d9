import Mathlib.Logic.Relation
import Mathlib.Algebra.Order.Group.Multiset
import Mathlib.Data.Set.Insert

/-!
# Check, then claim

Keys are to be claimed at most once. A claimant first *checks* that a key is not taken and from
then on *holds* it; later it *commits* the key, which makes it taken, or drops it. Nothing marks a
held key, so two claimants may hold the same one.

`Step` is the disciplined protocol, in which a key is only checked while nobody holds it. Under
that discipline `Exclusive` is an invariant, and so a key that is committed was not taken
(`Exclusive.fresh`): the check is as good as a claim.
-/

namespace Reservation

variable {κ : Type}

/-- The keys already taken, and the keys held by claimants that checked them. -/
structure State (κ : Type) where
  taken : Set κ
  held : Multiset κ

/-- A step of the disciplined protocol. Keys may also become free again. -/
inductive Step : State κ → State κ → Prop
  | check {T : Set κ} {H : Multiset κ} {k : κ} : k ∉ T → k ∉ H → Step ⟨T, H⟩ ⟨T, k ::ₘ H⟩
  | commit {T T' : Set κ} {H : Multiset κ} {k : κ} : T' ⊆ insert k T → Step ⟨T, k ::ₘ H⟩ ⟨T', H⟩
  | drop {T : Set κ} {H : Multiset κ} {k : κ} : Step ⟨T, k ::ₘ H⟩ ⟨T, H⟩
  | free {T T' : Set κ} {H : Multiset κ} : T' ⊆ T → Step ⟨T, H⟩ ⟨T', H⟩

/-- No key is held twice, and no held key is taken. -/
structure Exclusive (s : State κ) : Prop where
  nodup : s.held.Nodup
  fresh : ∀ k ∈ s.held, k ∉ s.taken

theorem Exclusive.step {s s' : State κ} (h : Exclusive s) (hs : Step s s') : Exclusive s' := by
  obtain ⟨hn, hf⟩ := h
  cases hs with
  | @check T H k hT hH =>
      refine ⟨Multiset.nodup_cons.mpr ⟨hH, hn⟩, fun x hx => ?_⟩
      rcases Multiset.mem_cons.mp hx with rfl | hx
      · exact hT
      · exact hf x hx
  | @commit T T' H k hT =>
      obtain ⟨hk, hn'⟩ := Multiset.nodup_cons.mp hn
      refine ⟨hn', fun x hx hxT => ?_⟩
      rcases hT hxT with rfl | hxT
      · exact hk hx
      · exact hf x (Multiset.mem_cons_of_mem hx) hxT
  | drop =>
      exact ⟨(Multiset.nodup_cons.mp hn).2, fun x hx => hf x (Multiset.mem_cons_of_mem hx)⟩
  | free hT => exact ⟨hn, fun x hx hxT => hf x hx (hT hxT)⟩

theorem Exclusive.steps {s s' : State κ} (h : Exclusive s)
    (hs : Relation.ReflTransGen Step s s') : Exclusive s' := by
  induction hs with
  | refl => exact h
  | tail _ hst ih => exact ih.step hst

/-- Nothing is held at the start. -/
theorem exclusive_of_held_eq_zero {s : State κ} (h : s.held = 0) : Exclusive s := by
  refine ⟨h ▸ Multiset.nodup_zero, fun k hk => ?_⟩
  rw [h] at hk
  exact absurd hk (Multiset.notMem_zero k)

/-! ## The step a message makes

A message that leaves the network carries a key `o` or none, and so does what replaces it (`r`).
These are the steps that arise, from the bookkeeping equation of the two. -/

section Message

variable {T T' : Set κ} {H H' : Multiset κ} {o r : Option κ} {k : κ}

/-- The key is handed on, or there is none: nothing changes. -/
theorem steps_pass (h : H' + ↑o.toList = H + ↑r.toList) (ho : o = r) :
    Relation.ReflTransGen Step ⟨T, H⟩ ⟨T, H'⟩ := by
  subst ho
  rw [add_right_cancel h]

theorem steps_check (hT : k ∉ T) (hH : k ∉ H) (h : H' + ↑o.toList = H + ↑r.toList)
    (ho : o = none) (hr : r = some k) : Relation.ReflTransGen Step ⟨T, H⟩ ⟨T, H'⟩ := by
  subst ho hr
  have hH' : H' = k ::ₘ H := by
    rw [← Multiset.singleton_add, add_comm]
    exact (add_zero H').symm.trans h
  exact hH' ▸ Relation.ReflTransGen.single (Step.check hT hH)

theorem steps_commit (hT : T' ⊆ insert k T) (h : H' + ↑o.toList = H + ↑r.toList)
    (ho : o = some k) (hr : r = none) : Relation.ReflTransGen Step ⟨T, H⟩ ⟨T', H'⟩ := by
  subst ho hr
  have hH : H = k ::ₘ H' := by
    rw [← Multiset.singleton_add, add_comm]
    exact (add_zero H).symm.trans h.symm
  exact hH ▸ Relation.ReflTransGen.single (Step.commit hT)

/-- The key, if there was one, is dropped. -/
theorem steps_drop (h : H' + ↑o.toList = H + ↑r.toList) (hr : r = none) :
    Relation.ReflTransGen Step ⟨T, H⟩ ⟨T, H'⟩ := by
  subst hr
  cases o with
  | none => exact steps_pass h rfl
  | some k =>
      have hH : H = k ::ₘ H' := by
        rw [← Multiset.singleton_add, add_comm]
        exact (add_zero H).symm.trans h.symm
      exact hH ▸ Relation.ReflTransGen.single Step.drop

end Message

end Reservation
