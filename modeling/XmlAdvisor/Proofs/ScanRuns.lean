import XmlAdvisor.Markup.Scanner
import Mathlib.Tactic.Lemma
import Mathlib.Tactic.SplitIfs

/-!
# Runs of the scanner

A scan of a whole text is a run of steps from state to state.  The steps that are left are bounded
by what is left of the text, so a scan never stops early.

* `ScanState.RunsTo` — a run from one state to another, and the tokens that it reads.
* **`ScanState.scan_of_runsTo`** — a scan goes on from where a run leads.
-/

namespace XmlAdvisor

namespace ScanState

/-- The number of changes of mode that can still be made without reading anything. -/
def changesLeft : Mode → Nat
  | .declaration => 2
  | .prolog => 1
  | _ => 0

/-- A bound for the number of steps that are left. -/
def stepsLeft (s : ScanState) : Nat :=
  s.cursor.rest.length + changesLeft s.mode

/-- A run from one state to another, and the tokens that it reads. -/
inductive RunsTo : ScanState → List Token → ScanState → Prop
  | refl (s : ScanState) : RunsTo s [] s
  | step {s s' s'' : ScanState} {t : Option Token} {tokens : List Token}
      (hrest : s.cursor.rest ≠ [])
      (hstep : s.step = .ok (t, s')) (hless : s'.stepsLeft < s.stepsLeft)
        (more : RunsTo s' tokens s'') :
      RunsTo s (t.toList ++ tokens) s''

namespace RunsTo

variable {s s' s'' : ScanState} {tokens tokens' : List Token}

lemma one {t : Option Token} (hrest : s.cursor.rest ≠ []) (hstep : s.step = .ok (t, s'))
    (hless : s'.stepsLeft < s.stepsLeft) : s.RunsTo t.toList s' := by
  rw [← List.append_nil t.toList]
  exact .step hrest hstep hless (.refl s')

lemma trans (h : s.RunsTo tokens s') (h' : s'.RunsTo tokens' s'') :
    s.RunsTo (tokens ++ tokens') s'' := by
  induction h with
  | refl s => exact h'
  | step hrest hstep hless more ih =>
      rw [List.append_assoc]
      exact .step hrest hstep hless (ih h')

end RunsTo

variable {s s' : ScanState} {tokens : List Token}

/-- A scan goes on from where a run leads, and has steps enough for what is left. -/
theorem scan_of_runsTo (h : s.RunsTo tokens s') (steps : Nat) (hsteps : s.stepsLeft ≤ steps) :
    ∃ steps', s'.stepsLeft ≤ steps' ∧
      s.scan steps = (tokens ++ (s'.scan steps').1, (s'.scan steps').2) := by
  induction h generalizing steps with
  | refl s => exact ⟨steps, hsteps, rfl⟩
  | @step s s₁ s'' t tokens hrest hstep hless more ih =>
      obtain ⟨steps, rfl⟩ : ∃ k, steps = k + 1 := ⟨steps - 1, by omega⟩
      obtain ⟨steps', hsteps', hscan⟩ := ih steps (by omega)
      refine ⟨steps', hsteps', ?_⟩
      have hmore : s.cursor.rest.isEmpty = false := by rwa [List.isEmpty_eq_false_iff]
      rw [scan, hmore, if_neg Bool.false_ne_true, hstep]
      dsimp only
      rw [hscan, List.append_assoc]

/-- Where a text ends a scan does. -/
lemma scan_of_rest_nil (h : s.cursor.rest = []) (steps : Nat) : s.scan steps = ([], none) := by
  cases steps with
  | zero => rfl
  | succ steps =>
      rw [scan, h]
      rfl

end ScanState

end XmlAdvisor
