import Mathlib.Data.List.Basic

/-! Machines that answer calls: what every run keeps, and states that no sequence of calls tells
apart. -/
namespace ExploratoryOptimizer.Library.Machine

variable {State Call Answer : Type} (step : State → Call → State × Answer)

/-- The state after the calls, and what they answered. -/
def run (state : State) : List Call → State × List Answer
  | [] => (state,[])
  | call :: calls =>
    let rest := run (step state call).1 calls
    (rest.1,(step state call).2 :: rest.2)

theorem run_kept (Kept : State → Prop)
    (stepKept : ∀ state call, Kept state → Kept (step state call).1) (state : State)
    (holds : Kept state) (calls : List Call) : Kept (run step state calls).1 := by
  induction calls generalizing state with
  | nil => exact holds
  | cons call calls ih => exact ih (step state call).1 (stepKept state call holds)

/-- The same for a loop that may break off. -/
theorem foldlM_kept {Item : Type} (step : State → Item → Option State) (Kept : State → Prop)
    (items : List Item) (stepKept : ∀ state, ∀ item ∈ items, ∀ next, Kept state →
      step state item = some next → Kept next)
    (state final : State) (holds : Kept state) (ran : items.foldlM step state = some final) :
    Kept final := by
  induction items generalizing state with
  | nil => exact Option.some.inj ran ▸ holds
  | cons item items ih =>
    rw [List.foldlM_cons] at ran
    obtain ⟨next,stepped,rest⟩ := Option.bind_eq_some_iff.mp ran
    exact ih (fun state item later => stepKept state item (List.mem_cons_of_mem _ later)) next
      (stepKept state item (List.mem_cons_self ..) next holds stepped) rest

theorem foldlM_runs {Item : Type} (step : State → Item → Option State) (Kept : State → Prop)
    (stepRuns : ∀ state item, Kept state → ∃ next, step state item = some next ∧ Kept next)
    (items : List Item) (state : State) (holds : Kept state) :
    ∃ final, items.foldlM step state = some final ∧ Kept final := by
  induction items generalizing state with
  | nil => exact ⟨state,rfl,holds⟩
  | cons item items ih =>
    obtain ⟨next,stepped,kept⟩ := stepRuns state item holds
    obtain ⟨final,ran,last⟩ := ih next kept
    exact ⟨final,by rw [List.foldlM_cons,stepped]; exact ran,last⟩

/-- States that answer every call alike, and go over into such states, answer every sequence of
calls alike. -/
theorem run_alike (Alike : State → State → Prop)
    (stepAlike : ∀ first second call, Alike first second →
      Alike (step first call).1 (step second call).1 ∧ (step first call).2 = (step second call).2)
    (first second : State) (alike : Alike first second) (calls : List Call) :
    Alike (run step first calls).1 (run step second calls).1 ∧
      (run step first calls).2 = (run step second calls).2 := by
  induction calls generalizing first second with
  | nil => exact ⟨alike,rfl⟩
  | cons call calls ih =>
    obtain ⟨next,answer⟩ := stepAlike first second call alike
    obtain ⟨final,answers⟩ := ih _ _ next
    exact ⟨final,congrArg₂ List.cons answer answers⟩

end ExploratoryOptimizer.Library.Machine
