import ChordSymbols.Proofs.Outcome
import Mathlib.Data.List.Forall2

/-!
# Traversals that can fail

A traversal of a list succeeds exactly when every member does, and its result
holds the results of the members in order.
-/

namespace ChordSymbols

section Partners

variable {α β : Type} {R : α → β → Prop} {xs : List α} {ys : List β}

theorem exists_right_of_mem (related : List.Forall₂ R xs ys) : ∀ x ∈ xs, ∃ y ∈ ys, R x y := by
  induction related with
  | nil => simp
  | @cons x y xs ys first rest ih =>
    intro z hz
    rcases List.mem_cons.mp hz with rfl | hz
    · exact ⟨y, List.mem_cons_self, first⟩
    · obtain ⟨w, hw, partner⟩ := ih z hz
      exact ⟨w, List.mem_cons_of_mem y hw, partner⟩

theorem exists_left_of_mem (related : List.Forall₂ R xs ys) : ∀ y ∈ ys, ∃ x ∈ xs, R x y :=
  exists_right_of_mem related.flip

/-- Lists that are related to one list are related to each other as their members are. -/
theorem forall₂_iff_of_related {γ : Type} {S : α → γ → Prop} {T : β → γ → Prop} {zs : List γ}
    (related : List.Forall₂ R xs ys) (step : ∀ x y z, R x y → (S x z ↔ T y z)) :
    List.Forall₂ S xs zs ↔ List.Forall₂ T ys zs := by
  induction related generalizing zs with
  | nil => rw [List.forall₂_nil_left_iff, List.forall₂_nil_left_iff]
  | @cons x y xs ys first rest ih =>
    rw [List.forall₂_cons_left_iff, List.forall₂_cons_left_iff]
    simp only [step x y _ first, ih]

theorem forall₂_append_left_iff {us : List α} :
    List.Forall₂ R (us ++ xs) ys ↔
      ∃ vs ws, List.Forall₂ R us vs ∧ List.Forall₂ R xs ws ∧ ys = vs ++ ws := by
  constructor
  · intro related
    refine ⟨ys.take us.length, ys.drop us.length, ?_, ?_, (List.take_append_drop _ ys).symm⟩
    · exact (List.forall₂_take_append ys us xs related.flip).flip
    · exact (List.forall₂_drop_append ys us xs related.flip).flip
  · rintro ⟨vs, ws, first, rest, rfl⟩
    exact List.rel_append first rest

end Partners

variable {ε α β : Type} {f : α → Except ε β}

theorem mapM_eq_ok {xs : List α} {ys : List β} :
    xs.mapM f = .ok ys ↔ List.Forall₂ (fun x y => f x = .ok y) xs ys := by
  induction xs generalizing ys with
  | nil =>
    rw [List.mapM_nil, List.forall₂_nil_left_iff]
    exact ⟨fun h => (Except.ok.inj h).symm, fun h => congrArg Except.ok h.symm⟩
  | cons x xs ih =>
    rw [List.mapM_cons, List.forall₂_cons_left_iff, bind_eq_ok]
    constructor
    · rintro ⟨y, first, h⟩
      obtain ⟨rest, tail, h⟩ := bind_eq_ok.mp h
      cases h
      exact ⟨y, rest, first, ih.mp tail, rfl⟩
    · rintro ⟨y, rest, first, tail, rfl⟩
      exact ⟨y, first, bind_eq_ok.mpr ⟨rest, ih.mpr tail, rfl⟩⟩

/-- A traversal fails as the first member does that fails. -/
theorem mapM_eq_error_at {xs : List α} {e : ε} :
    xs.mapM f = .error e ↔ ∃ before x after, xs = before ++ x :: after ∧
      (∀ b ∈ before, ∃ y, f b = .ok y) ∧ f x = .error e := by
  induction xs with
  | nil => simp [pure, Except.pure]
  | cons x xs ih =>
    rw [List.mapM_cons, bind_eq_error]
    constructor
    · rintro (first | ⟨y, first, h⟩)
      · exact ⟨[], x, xs, rfl, by simp, first⟩
      · rcases bind_eq_error.mp h with tail | ⟨ys, -, h⟩
        · obtain ⟨before, z, after, rfl, passed, failed⟩ := ih.mp tail
          refine ⟨x :: before, z, after, rfl, fun b hb => ?_, failed⟩
          rcases List.mem_cons.mp hb with rfl | hb
          · exact ⟨y, first⟩
          · exact passed b hb
        · cases h
    · rintro ⟨before, z, after, cut, passed, failed⟩
      cases before with
      | nil =>
        cases cut
        exact .inl failed
      | cons b before =>
        cases cut
        obtain ⟨y, first⟩ := passed x List.mem_cons_self
        have tail := ih.mpr ⟨before, z, after, rfl,
          fun a ha => passed a (List.mem_cons_of_mem x ha), failed⟩
        exact .inr ⟨y, first, bind_eq_error.mpr (.inl tail)⟩

theorem mapM_eq_error {xs : List α} :
    (∃ e, xs.mapM f = .error e) ↔ ∃ x ∈ xs, ∃ e, f x = .error e := by
  constructor
  · rintro ⟨e, whole⟩
    obtain ⟨before, x, after, rfl, -, failed⟩ := mapM_eq_error_at.mp whole
    exact ⟨x, by simp, e, failed⟩
  · rintro ⟨x, hx, e, failed⟩
    cases whole : xs.mapM f with
    | error d => exact ⟨d, rfl⟩
    | ok ys =>
      obtain ⟨y, -, done⟩ := exists_right_of_mem (mapM_eq_ok.mp whole) x hx
      cases failed.symm.trans done

theorem mapM_succeeds_iff {xs : List α} :
    (∃ ys, xs.mapM f = .ok ys) ↔ ∀ x ∈ xs, ∃ y, f x = .ok y := by
  constructor
  · rintro ⟨ys, whole⟩ x hx
    obtain ⟨y, -, done⟩ := exists_right_of_mem (mapM_eq_ok.mp whole) x hx
    exact ⟨y, done⟩
  · intro each
    cases whole : xs.mapM f with
    | ok ys => exact ⟨ys, rfl⟩
    | error e =>
      obtain ⟨x, hx, d, failed⟩ := mapM_eq_error.mp ⟨e, whole⟩
      obtain ⟨y, done⟩ := each x hx
      cases failed.symm.trans done

end ChordSymbols
