import CoinLedger.Proofs.Answer
import Mathlib.Data.List.Forall2

/-!
# Lists related item by item

What a listing shows is told by a relation between the items that it reads and the entries that it
lists.  Two lists that are related item by item agree in everything that related items agree in
(`map_eq_of_forall₂`), and no item of the second one stands without a partner
(`exists_related_of_mem`).  Through a common list two others are related (`forall₂_of_common`).  A
traversal of a list relates each item to the value of its step (`mapM_eq_ok`).
-/

set_option autoImplicit false

namespace CoinLedger

variable {α β : Type} {related : α → β → Prop} {firsts : List α} {seconds : List β}

theorem map_eq_of_forall₂ {γ : Type} {left : α → γ} {right : β → γ}
    (agree : ∀ first second, related first second → left first = right second)
    (all : List.Forall₂ related firsts seconds) : firsts.map left = seconds.map right := by
  induction all with
  | nil => rfl
  | cons head _ ih => rw [List.map_cons, List.map_cons, agree _ _ head, ih]

theorem exists_related_of_mem (all : List.Forall₂ related firsts seconds) {second : β}
    (member : second ∈ seconds) : ∃ first ∈ firsts, related first second := by
  induction all with
  | nil => cases member
  | cons head _ ih =>
      rcases List.mem_cons.mp member with rfl | member
      · exact ⟨_, List.mem_cons_self, head⟩
      · obtain ⟨first, listed, partner⟩ := ih member
        exact ⟨first, List.mem_cons_of_mem _ listed, partner⟩

/-- Two lists that are related to a common one are related to each other. -/
theorem forall₂_of_common {γ : Type} {other : α → γ → Prop} {relates : β → γ → Prop}
    {thirds : List γ}
    (join : ∀ first second third, related first second → other first third →
      relates second third)
    (all : List.Forall₂ related firsts seconds) (others : List.Forall₂ other firsts thirds) :
    List.Forall₂ relates seconds thirds := by
  induction all generalizing thirds with
  | nil =>
      cases others
      exact .nil
  | cons head _ ih =>
      obtain _ | ⟨otherHead, others⟩ := others
      exact .cons (join _ _ _ head otherHead) (ih others)

/-- A traversal has a value when each of its steps has one. -/
theorem mapM_eq_ok {step : α → Answer β} {items : List α} {results : List β} :
    items.mapM step = .ok results ↔
      List.Forall₂ (fun item result => step item = .ok result) items results := by
  induction items generalizing results with
  | nil =>
      rw [List.forall₂_nil_left_iff]
      exact ⟨fun same => by cases same; rfl, fun none => by rw [none]; rfl⟩
  | cons item rest ih =>
      rw [List.mapM_cons, Answer.bind_eq_ok, List.forall₂_cons_left_iff]
      constructor
      · rintro ⟨first, head, others⟩
        obtain ⟨later, tail, same⟩ := Answer.bind_eq_ok.mp others
        cases same
        exact ⟨first, later, head, ih.mp tail, rfl⟩
      · rintro ⟨first, later, head, tail, rfl⟩
        exact ⟨first, head, Answer.bind_eq_ok.mpr ⟨later, ih.mpr tail, rfl⟩⟩

/-- A traversal whose steps all have values has one. -/
theorem exists_mapM_eq_ok {step : α → Answer β} {items : List α}
    (steps : ∀ item ∈ items, ∃ result, step item = .ok result) :
    ∃ results, items.mapM step = .ok results := by
  induction items with
  | nil => exact ⟨[], rfl⟩
  | cons item rest ih =>
      obtain ⟨first, head⟩ := steps item List.mem_cons_self
      obtain ⟨later, tail⟩ := ih fun other member => steps other (List.mem_cons_of_mem _ member)
      refine ⟨first :: later, ?_⟩
      rw [List.mapM_cons, head, tail]
      rfl

end CoinLedger
