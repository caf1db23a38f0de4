import Mathlib.Data.Nat.Notation
import Mathlib.Logic.Function.Basic
import Signer.Service.Run

/-!
# Interleaved calls

Calls run concurrently over a shared state. A call is a sequence of sections, and a section
is atomic: it sees the shared state as the sections before it left it, and remembers what it
needs until its next one. A schedule says which call takes its next section, so the runs on
all schedules are the interleavings of the calls.
-/

namespace Signer.Interleaving

variable {σ π ο : Type}

structure System (σ π : Type) where
  shared : σ
  progress : ℕ → π

/-- Call `i` takes its next section. -/
def step (sections : ℕ → π → σ → ο × π × σ) (i : ℕ) (sys : System σ π) : ο × System σ π :=
  let taken := sections i (sys.progress i) sys.shared
  (taken.1, { shared := taken.2.2, progress := Function.update sys.progress i taken.2.1 })

variable {sections : ℕ → π → σ → ο × π × σ} {i : ℕ} {sys sys' : System σ π} {output : ο}

theorem step_eq (h : step sections i sys = (output, sys')) :
    sections i (sys.progress i) sys.shared = (output, sys'.progress i, sys'.shared) ∧
      ∀ j, j ≠ i → sys'.progress j = sys.progress j := by
  cases h
  refine ⟨?_, fun j hj => Function.update_of_ne hj _ _⟩
  simp only [Function.update_self]

theorem step_keeps (Knows : ℕ → π → σ → Prop) (h : step sections i sys = (output, sys'))
    (hknows : ∀ j, Knows j (sys.progress j) sys.shared)
    (hself : Knows i (sys'.progress i) sys'.shared)
    (hothers : ∀ j, j ≠ i → Knows j (sys.progress j) sys.shared →
      Knows j (sys.progress j) sys'.shared) :
    ∀ j, Knows j (sys'.progress j) sys'.shared := by
  intro j
  by_cases hj : j = i
  · exact hj ▸ hself
  · rw [(step_eq h).2 j hj]
    exact hothers j hj (hknows j)

theorem progress_of_notMem {schedule : List ℕ} {taken : Run.Step ℕ (System σ π) ο}
    (h : taken ∈ Run.steps (step sections) sys schedule) {j : ℕ} (hj : j ∉ schedule) :
    taken.before.progress j = sys.progress j := by
  refine (Run.invariant (I := fun now => now.progress j = sys.progress j) rfl ?_ taken h).1
  intro later hlater hbefore
  obtain ⟨hinput, hmachine⟩ := Run.mem_steps hlater
  have hne : j ≠ later.input := fun heq => hj (heq ▸ hinput)
  rw [(step_eq hmachine).2 j hne, hbefore]

end Signer.Interleaving
