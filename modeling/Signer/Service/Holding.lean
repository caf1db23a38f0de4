import Mathlib.Logic.Function.Basic

/-!
# Who holds what

Things are taken and let go of, and a reverse index is kept in step.
-/

namespace Signer

/-- Parties that each hold at most one thing, and no thing held twice. -/
structure Holding (α β : Type) where
  held : α → Option β
  one_holder : ∀ {a a' b}, held a = some b → held a' = some b → a = a'

namespace Holding

variable {α β : Type}

def empty : Holding α β where
  held _ := none
  one_holder h := by cases h

variable {H : Holding α β}

def Free (H : Holding α β) (b : β) : Prop := ∀ a, H.held a ≠ some b

/-- A reverse index, which answers who holds a thing. -/
def Indexes (holder : β → Option α) (H : Holding α β) : Prop :=
  ∀ a b, holder b = some a ↔ H.held a = some b

variable {holder : β → Option α} {b : β}

theorem Indexes.free (h : Indexes holder H) (hb : holder b = none) :
    H.Free b := by
  intro a ha
  rw [(h a b).mpr ha] at hb
  cases hb

variable [DecidableEq α]

/-- A party takes a free thing, and lets go of what it held. -/
def take (H : Holding α β) (a : α) (b : β) (hfree : H.Free b) : Holding α β where
  held := Function.update H.held a (some b)
  one_holder := by
    intro x y c hx hy
    by_cases hxa : x = a <;> by_cases hya : y = a
    · rw [hxa, hya]
    · subst hxa
      rw [Function.update_self] at hx
      rw [Function.update_of_ne hya, ← hx] at hy
      exact absurd hy (hfree y)
    · subst hya
      rw [Function.update_self] at hy
      rw [Function.update_of_ne hxa, ← hy] at hx
      exact absurd hx (hfree x)
    · rw [Function.update_of_ne hxa] at hx
      rw [Function.update_of_ne hya] at hy
      exact H.one_holder hx hy

def release (H : Holding α β) (a : α) : Holding α β where
  held := Function.update H.held a none
  one_holder := by
    intro x y c hx hy
    have hxa : x ≠ a := by rintro rfl; simp at hx
    have hya : y ≠ a := by rintro rfl; simp at hy
    rw [Function.update_of_ne hxa] at hx
    rw [Function.update_of_ne hya] at hy
    exact H.one_holder hx hy

variable {a : α}

@[simp]
theorem held_take_self (hfree : H.Free b) : (H.take a b hfree).held a = some b :=
  Function.update_self ..

theorem held_take_of_ne {a a' : α} (hfree : H.Free b) (h : a' ≠ a) :
    (H.take a b hfree).held a' = H.held a' := Function.update_of_ne h ..

@[simp]
theorem held_release_self (a : α) : (H.release a).held a = none := Function.update_self ..

theorem held_release_of_ne {a a' : α} (h : a' ≠ a) : (H.release a).held a' = H.held a' :=
  Function.update_of_ne h ..

theorem held_release_eq_some {a a' : α} :
    (H.release a).held a' = some b ↔ H.held a' = some b ∧ a' ≠ a := by
  by_cases h : a' = a
  · simp [h]
  · simp [held_release_of_ne h, h]

theorem release_of_none (h : H.held a = none) : H.release a = H := by
  obtain ⟨held, hone⟩ := H
  have hsame : Function.update held a none = held := by rw [← h, Function.update_eq_self]
  simp only [release, hsame]

theorem Free.release (hfree : H.Free b) (a : α) : (H.release a).Free b := fun a' ha' =>
  hfree a' (held_release_eq_some.mp ha').1

/-! ### Keeping the index -/

variable [DecidableEq β]

theorem Indexes.release (h : Indexes holder H)
    (hb : H.held a = some b) : Indexes (Function.update holder b none) (H.release a) := by
  intro a' b'
  rw [held_release_eq_some, ← h a' b']
  by_cases hbb : b' = b
  · subst hbb
    have hholder : holder b' = some a := (h a b').mpr hb
    simp only [Function.update_self, hholder, Option.some.injEq, reduceCtorEq, false_iff]
    rintro ⟨rfl, hne⟩
    exact hne rfl
  · rw [Function.update_of_ne hbb]
    constructor
    · intro hholder
      refine ⟨hholder, ?_⟩
      -- a party holds one thing, so who holds another is another
      rintro rfl
      rw [(h a' b').mp hholder, Option.some.injEq] at hb
      exact hbb hb
    · exact And.left

theorem Indexes.take (h : Indexes holder H)
    (ha : H.held a = none) (hfree : H.Free b) :
    Indexes (Function.update holder b (some a)) (H.take a b hfree) := by
  intro a' b'
  by_cases hbb : b' = b
  · subst hbb
    rw [Function.update_self, Option.some.injEq]
    by_cases haa : a' = a
    · simp [haa]
    · rw [held_take_of_ne hfree haa]
      exact iff_of_false (Ne.symm haa) (hfree a')
  · rw [Function.update_of_ne hbb, h a' b']
    by_cases haa : a' = a
    · subst haa
      rw [held_take_self, ha, Option.some.injEq]
      exact iff_of_false (by simp) (Ne.symm hbb)
    · rw [held_take_of_ne hfree haa]

end Holding

end Signer
