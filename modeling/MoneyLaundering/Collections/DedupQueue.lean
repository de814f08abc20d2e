import Mathlib.Data.Finset.Insert
import Mathlib.Data.List.Infix

/-!
# Queues whose consumer drops what it has seen

A consumer takes the elements of a queue in order and drops those whose key it has seen. Of the
elements with one key that are in the queue, it can only accept the first: `Pending`. Appending an
element makes at most that element pending, and taking a seen element off the front makes none
pending.
-/

namespace DedupQueue

variable {α κ : Type*} {key : α → κ} {seen : Finset κ} {before queue : List α} {x y : α}

/-- The element `x` of the queue, which comes after `before`, will be accepted. -/
structure Pending (key : α → κ) (seen : Finset κ) (before : List α) (x : α) (queue : List α) :
    Prop where
  isPrefix : before ++ [x] <+: queue
  unseen : key x ∉ seen
  first : key x ∉ before.map key

theorem Pending.mem (h : Pending key seen before x queue) : x ∈ queue :=
  h.isPrefix.subset (by simp)

theorem pending_head {queue : List α} (h : key x ∉ seen) : Pending key seen [] x (x :: queue) :=
  ⟨List.prefix_append [x] queue, h, List.not_mem_nil⟩

theorem Pending.mono {seen' : Finset κ} (h : Pending key seen' before x queue)
    (hsub : seen ⊆ seen') :
    Pending key seen before x queue := ⟨h.isPrefix, fun hmem ↦ h.unseen (hsub hmem), h.first⟩

/-- Appending an element makes at most that element pending, if its key is new. -/
theorem pending_append (h : Pending key seen before x (queue ++ [y])) :
    Pending key seen before x queue ∨
      before = queue ∧ x = y ∧ key y ∉ seen ∧ key y ∉ queue.map key := by
  obtain ⟨hpre, hunseen, hfirst⟩ := h
  rcases List.prefix_concat_iff.mp hpre with heq | hpre
  · obtain ⟨rfl, hxy⟩ := List.append_inj' heq rfl
    obtain rfl : x = y := List.singleton_inj.mp hxy
    exact Or.inr ⟨rfl, rfl, hunseen, hfirst⟩
  · exact Or.inl ⟨hpre, hunseen, hfirst⟩

/-- An element behind a seen one is pending in the rest of the queue. -/
theorem pending_cons (h : Pending key seen before x (y :: queue)) (hy : key y ∈ seen) :
    ∃ before', before = y :: before' ∧ Pending key seen before' x queue := by
  obtain ⟨hpre, hunseen, hfirst⟩ := h
  cases before with
  | nil =>
    obtain ⟨rfl, -⟩ := List.cons_prefix_cons.mp hpre
    exact absurd hy hunseen
  | cons z before =>
    obtain ⟨rfl, hrest⟩ := List.cons_prefix_cons.mp hpre
    exact ⟨before, rfl, hrest, hunseen, fun hmem ↦ hfirst (List.mem_cons_of_mem _ hmem)⟩

theorem Pending.cons (h : Pending key seen before x queue) (hy : key y ∈ seen) :
    Pending key seen (y :: before) x (y :: queue) := by
  refine ⟨List.cons_prefix_cons.mpr ⟨rfl, h.isPrefix⟩, h.unseen, ?_⟩
  rw [List.map_cons, List.mem_cons, not_or]
  exact ⟨fun heq ↦ h.unseen (heq ▸ hy), h.first⟩

end DedupQueue
