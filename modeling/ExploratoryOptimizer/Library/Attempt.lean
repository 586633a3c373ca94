import Mathlib.Data.List.Basic

/-! Loops that an error may break off: what a loop that ends has kept, what one of its items has
brought about, and when it ends. -/
namespace ExploratoryOptimizer.Library.Attempt

variable {ε σ α β : Type}

theorem bind_ok (first : Except ε α) (next : α → Except ε β) (result : β)
    (ran : (first >>= next) = .ok result) :
    ∃ value, first = .ok value ∧ next value = .ok result := by
  cases first with
  | error failure => cases ran
  | ok value => exact ⟨value,rfl,ran⟩

/-- The property may speak of the items that are done. -/
theorem foldlM_kept (step : σ → α → Except ε σ) (P : List α → σ → Prop) (items : List α)
    (each : ∀ done item rest state next, items = done ++ item :: rest → P done state →
      step state item = .ok next → P (done ++ [item]) next)
    (state final : σ) (holds : P [] state) (ran : items.foldlM step state = .ok final) :
    P items final := by
  suffices general : ∀ rest done state, items = done ++ rest → P done state →
      rest.foldlM step state = .ok final → P items final from general items [] state rfl holds ran
  intro rest
  induction rest with
  | nil =>
    intro done state split holds ran
    cases ran
    rwa [split,List.append_nil]
  | cons item rest ih =>
    intro done state split holds ran
    rw [List.foldlM_cons] at ran
    obtain ⟨next,stepped,ran⟩ := bind_ok _ _ _ ran
    exact ih (done ++ [item]) next (by simpa using split)
      (each done item rest state next split holds stepped) ran

theorem foldlM_invariant (step : σ → α → Except ε σ) (P : σ → Prop) (items : List α)
    (each : ∀ item ∈ items, ∀ state next, P state → step state item = .ok next → P next)
    (state final : σ) (holds : P state) (ran : items.foldlM step state = .ok final) : P final := by
  refine foldlM_kept step (fun _ => P) items ?_ state final holds ran
  intro done item rest state next split holds stepped
  exact each item (by simp [split]) state next holds stepped

/-- One item brings about what the later ones keep. -/
theorem foldlM_reached (step : σ → α → Except ε σ) (P Q : σ → Prop) (items : List α) (target : α)
    (member : target ∈ items)
    (each : ∀ item ∈ items, ∀ state next, P state → step state item = .ok next → P next)
    (hit : ∀ state next, P state → step state target = .ok next → Q next)
    (stays : ∀ item ∈ items, ∀ state next, P state → Q state → step state item = .ok next → Q next)
    (state final : σ) (holds : P state) (ran : items.foldlM step state = .ok final) : Q final := by
  refine (foldlM_kept step (fun done state => P state ∧ (target ∈ done → Q state))
      items ?_ state final
    ⟨holds,by simp⟩ ran).2 member
  rintro done item rest state next split ⟨holds,reached⟩ stepped
  have among : item ∈ items := by simp [split]
  refine ⟨each item among state next holds stepped,fun inside => ?_⟩
  rcases List.mem_append.mp inside with before | here
  · exact stays item among state next holds (reached before) stepped
  · obtain rfl := List.mem_singleton.mp here
    exact hit state next holds stepped

theorem foldlM_ends (step : σ → α → Except ε σ) (P : σ → Prop) (items : List α)
    (each : ∀ item ∈ items, ∀ state, P state → ∃ next, step state item = .ok next ∧ P next)
    (state : σ) (holds : P state) : ∃ final, items.foldlM step state = .ok final ∧ P final := by
  induction items generalizing state with
  | nil => exact ⟨state,rfl,holds⟩
  | cons item items ih =>
    obtain ⟨next,stepped,kept⟩ := each item (List.mem_cons_self ..) state holds
    obtain ⟨final,ran,last⟩ :=
      ih (fun later member => each later (List.mem_cons_of_mem _ member)) next kept
    exact ⟨final,by rw [List.foldlM_cons,stepped]; exact ran,last⟩

theorem exists_of_isOk (attempt : Except ε α) (succeeds : attempt.isOk = true) :
    ∃ value, attempt = .ok value := by
  cases attempt with
  | error failure => cases succeeds
  | ok value => exact ⟨value,rfl⟩

/-- A loop over consecutive numbers, with what holds before each of them. -/
theorem foldlM_counted (step : σ → Nat → Except ε σ) (P : Nat → σ → Prop) (start count : Nat)
    (each : ∀ number state next, start ≤ number → number < start + count → P number state →
      step state number = .ok next → P (number + 1) next)
    (state final : σ) (holds : P start state)
    (ran : (List.range' start count).foldlM step state = .ok final) :
    P (start + count) final := by
  induction count generalizing start state with
  | zero =>
    cases ran
    exact holds
  | succ count ih =>
    rw [List.range'_succ,List.foldlM_cons] at ran
    obtain ⟨next,stepped,rest⟩ := bind_ok _ _ _ ran
    have total : start + (count + 1) = start + 1 + count := by omega
    rw [total]
    refine ih (start + 1) (fun number state next low high => each number state next (by omega)
        (by omega)) next ?_ rest
    exact each start state next (Nat.le_refl _) (by omega) holds stepped

theorem foldlM_counted_ends (step : σ → Nat → Except ε σ) (P : Nat → σ → Prop) (start count : Nat)
    (each : ∀ number state, start ≤ number → number < start + count → P number state →
      ∃ next, step state number = .ok next ∧ P (number + 1) next)
    (state : σ) (holds : P start state) :
    ∃ final, (List.range' start count).foldlM step state = .ok final ∧ P (start + count) final := by
  induction count generalizing start state with
  | zero => exact ⟨state,rfl,holds⟩
  | succ count ih =>
    obtain ⟨next,stepped,kept⟩ := each start state (Nat.le_refl _) (by omega) holds
    obtain ⟨final,ran,last⟩ :=
      ih (start + 1) (fun number state low high => each number state (by omega) (by omega))
      next kept
    have total : start + (count + 1) = start + 1 + count := by omega
    rw [total]
    exact ⟨final,by rw [List.range'_succ,List.foldlM_cons,stepped]; exact ran,last⟩

/-- A loop that passes over some of its items. -/
theorem foldlM_filter (step : σ → α → Except ε σ) (wanted : α → Prop) [DecidablePred wanted]
    (items : List α) (state : σ) :
    items.foldlM (fun state item => if wanted item then step state item else .ok state) state =
      (items.filter wanted).foldlM step state := by
  induction items generalizing state with
  | nil => rfl
  | cons item items ih =>
    rw [List.foldlM_cons]
    by_cases chosen : wanted item
    · rw [if_pos chosen,List.filter_cons_of_pos (by simpa using chosen),List.foldlM_cons]
      exact congrArg _ (funext ih)
    · rw [if_neg chosen,List.filter_cons_of_neg (by simpa using chosen)]
      exact ih state

/-- Two nested loops are one. -/
theorem foldlM_flatMap (step : σ → β → Except ε σ) (inner : α → List β)
    (items : List α) (state : σ) :
    items.foldlM (fun state item => (inner item).foldlM step state) state =
      (items.flatMap inner).foldlM step state := by
  induction items generalizing state with
  | nil => rfl
  | cons item items ih =>
    rw [List.foldlM_cons,List.flatMap_cons,List.foldlM_append]
    exact congrArg _ (funext ih)

end ExploratoryOptimizer.Library.Attempt
