namespace Calculator

/-- From some number of frames on the property holds. -/
def Eventually (Holds : Nat → Prop) : Prop :=
  ∃ enough, ∀ frames, enough ≤ frames → Holds frames

namespace Eventually

variable {First Second : Nat → Prop}

theorem always (holds : ∀ frames, First frames) : Eventually First :=
  ⟨0, fun frames _ => holds frames⟩

theorem mono (eventually : Eventually First) (weaker : ∀ frames, First frames → Second frames) :
    Eventually Second := by
  obtain ⟨enough, holds⟩ := eventually
  exact ⟨enough, fun frames large => weaker frames (holds frames large)⟩

theorem and (first : Eventually First) (second : Eventually Second) :
    Eventually fun frames => First frames ∧ Second frames := by
  obtain ⟨enough, holds⟩ := first
  obtain ⟨more, also⟩ := second
  refine ⟨max enough more, fun frames large => ⟨holds frames ?_, also frames ?_⟩⟩ <;> omega

/-- What spends a fixed number of frames before the rest needs that many more. -/
theorem deeper (spent : Nat) (eventually : Eventually First)
    (step : ∀ frames, First frames → Second (frames + spent)) : Eventually Second := by
  obtain ⟨enough, holds⟩ := eventually
  refine ⟨enough + spent, fun frames large => ?_⟩
  have rest := step (frames - spent) (holds _ (by omega))
  rwa [Nat.sub_add_cancel (by omega)] at rest

end Eventually

end Calculator
