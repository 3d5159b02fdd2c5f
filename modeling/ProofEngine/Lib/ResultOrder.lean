import Mathlib.Data.List.Forall2

/-! # Computations that succeed more often

One fallible computation extends another when it returns the same value wherever the other returns
one.  The relation passes through sequencing, loops and refusals. -/

namespace ResultOrder

variable {ε α β : Type}

/-- Whatever the first computation returns, the second returns too. -/
def Extends (first second : Except ε α) : Prop := ∀ value, first = .ok value → second = .ok value

theorem Extends.refl (computation : Except ε α) : Extends computation computation :=
  fun _ done => done

/-- A refusal is extended by anything. -/
theorem extends_error (failure : ε) (second : Except ε α) : Extends (.error failure) second := by
  intro value done
  cases done

theorem Extends.bind {first second : Except ε α} {next next' : α → Except ε β} (here : Extends first second)
    (later : ∀ value, Extends (next value) (next' value)) : Extends (first >>= next) (second >>= next') := by
  intro result done
  cases returned : first with
  | error failure =>
    rw [returned] at done
    cases done
  | ok value =>
    rw [returned] at done
    rw [here value returned]
    exact later value result done

/-- A guard that refuses less. -/
theorem Extends.guard {refuses refuses' : Prop} [Decidable refuses] [Decidable refuses'] {failure : ε}
    {refusal first second : Except ε α} (fewer : refuses' → refuses) (otherwise : Extends first second) :
    Extends (if refuses then .error failure else first) (if refuses' then refusal else second) := by
  by_cases refused : refuses
  · rw [if_pos refused]
    exact extends_error failure _
  · rw [if_neg refused, if_neg (mt fewer refused)]
    exact otherwise

/-- Two branches of the same test. -/
theorem Extends.ite {test : Prop} [Decidable test] {first first' second second' : Except ε α}
    (yes : Extends first first') (no : Extends second second') :
    Extends (if test then first else second) (if test then first' else second') := by
  by_cases holds : test
  · rw [if_pos holds, if_pos holds]
    exact yes
  · rw [if_neg holds, if_neg holds]
    exact no

theorem Extends.mapM {step step' : α → Except ε β} (each : ∀ item, Extends (step item) (step' item))
    (items : List α) : Extends (items.mapM step) (items.mapM step') := by
  induction items with
  | nil => exact .refl _
  | cons item items inductionHypothesis =>
    simp only [List.mapM_cons]
    exact (each item).bind fun result => inductionHypothesis.bind fun results => .refl _

end ResultOrder
