import Mathlib.Data.List.Basic

/-! Programs with a state that survives a failure: properties of the state that a program keeps
whatever its outcome, and states that a loop reaches. -/
namespace ExploratoryOptimizer.Library.Fallible

variable {ε σ α β : Type}

structure Keeps (P : σ → Prop) (program : ExceptT ε (StateM σ) α) : Prop where
  kept : ∀ state, P state → P (program.run.run state).2

/-- The program does not fail, and what it leaves behind has the second property. -/
structure Ensures (P : σ → Prop) (program : ExceptT ε (StateM σ) α) (Q : σ → Prop) : Prop where
  done :
    ∀ state, P state → ∃ value, (program.run.run state).1 = .ok value ∧ Q (program.run.run state).2

/-- A loop without a value is one that carries none. -/
theorem forM_eq_foldlM (items : List α) (body : α → ExceptT ε (StateM σ) Unit) :
    items.forM body = items.foldlM (fun _ item => body item) () := by
  induction items with
  | nil => rfl
  | cons item items ih =>
    change (body item >>= fun _ => items.forM body) = _
    rw [ih,List.foldlM_cons]

section Keeps

variable {P : σ → Prop}

theorem Keeps.pure (value : α) :
    Keeps P (pure value : ExceptT ε (StateM σ) α) := ⟨fun _ holds => holds⟩

theorem Keeps.throw (failure : ε) : Keeps P (throw failure : ExceptT ε (StateM σ) α) :=
  ⟨fun _ holds => holds⟩

theorem Keeps.get : Keeps P (get : ExceptT ε (StateM σ) σ) := ⟨fun _ holds => holds⟩

theorem run_bind_error (program : ExceptT ε (StateM σ) α) (next : α → ExceptT ε (StateM σ) β)
    (state : σ) (failure : ε) (failed : (program.run.run state).1 = .error failure) :
    (program >>= next).run.run state = (.error failure,(program.run.run state).2) := by
  rw [ExceptT.run_bind,StateT.run_bind]
  change (StateT.run (match (program.run.run state).1 with
    | Except.ok value => (next value).run
    | Except.error failure => _) (program.run.run state).2) = _
  rw [failed]
  rfl

theorem run_bind_ok (program : ExceptT ε (StateM σ) α) (next : α → ExceptT ε (StateM σ) β)
    (state : σ) (value : α) (done : (program.run.run state).1 = .ok value) :
    (program >>= next).run.run state = (next value).run.run (program.run.run state).2 := by
  rw [ExceptT.run_bind,StateT.run_bind]
  change (StateT.run (match (program.run.run state).1 with
    | Except.ok value => (next value).run
    | Except.error failure => _) (program.run.run state).2) = _
  rw [done]

theorem Keeps.bind {program : ExceptT ε (StateM σ) α} {next : α → ExceptT ε (StateM σ) β}
    (first : Keeps P program) (rest : ∀ value, Keeps P (next value)) :
    Keeps P (program >>= next) := by
  refine ⟨fun state holds => ?_⟩
  cases outcome : (program.run.run state).1 with
  | error failure =>
    rw [run_bind_error program next state failure outcome]
    exact first.kept state holds
  | ok value =>
    rw [run_bind_ok program next state value outcome]
    exact (rest value).kept _ (first.kept state holds)

/-- A program that first reads the state may use what it knows of it. -/
theorem Keeps.read {next : σ → ExceptT ε (StateM σ) β}
    (rest : ∀ state, P state → P ((next state).run.run state).2) :
    Keeps P (MonadState.get >>= next) := ⟨rest⟩

theorem Keeps.foldlM (items : List α) (step : β → α → ExceptT ε (StateM σ) β) (start : β)
    (each : ∀ item ∈ items, ∀ value, Keeps P (step value item)) :
    Keeps P (items.foldlM step start) := by
  induction items generalizing start with
  | nil => exact Keeps.pure start
  | cons item items ih =>
    rw [List.foldlM_cons]
    refine (each item (List.mem_cons_self ..) start).bind fun value => ?_
    exact ih value fun later member => each later (List.mem_cons_of_mem _ member)

theorem Keeps.forM (items : List α) (body : α → ExceptT ε (StateM σ) Unit)
    (each : ∀ item ∈ items, Keeps P (body item)) : Keeps P (items.forM body) := by
  rw [forM_eq_foldlM]
  exact Keeps.foldlM items _ () fun item member _ => each item member

end Keeps

section Ensures

variable {P Q R : σ → Prop}

theorem Ensures.pure (value : α) : Ensures P (pure value : ExceptT ε (StateM σ) α) P :=
  ⟨fun _ holds => ⟨value,rfl,holds⟩⟩

theorem Ensures.get :
    Ensures P (get : ExceptT ε (StateM σ) σ) P := ⟨fun state holds => ⟨state,rfl,holds⟩⟩

theorem Ensures.modify (f : σ → σ) (kept : ∀ state, P state → Q (f state)) :
    Ensures P (modify f : ExceptT ε (StateM σ) Unit) Q :=
      ⟨fun state holds => ⟨(),rfl,kept state holds⟩⟩

theorem Ensures.bind {program : ExceptT ε (StateM σ) α} {next : α → ExceptT ε (StateM σ) β}
    (first : Ensures P program Q) (rest : ∀ value, Ensures Q (next value) R) :
    Ensures P (program >>= next) R := by
  refine ⟨fun state holds => ?_⟩
  obtain ⟨value,done,kept⟩ := first.done state holds
  rw [run_bind_ok program next state value done]
  exact (rest value).done _ kept

theorem Ensures.foldlM (items : List α) (step : β → α → ExceptT ε (StateM σ) β) (start : β)
    (each : ∀ item ∈ items, ∀ value, Ensures P (step value item) P) :
    Ensures P (items.foldlM step start) P := by
  induction items generalizing start with
  | nil => exact Ensures.pure start
  | cons item items ih =>
    rw [List.foldlM_cons]
    refine (each item (List.mem_cons_self ..) start).bind fun value => ?_
    exact ih value fun later member => each later (List.mem_cons_of_mem _ member)

theorem Ensures.forM (items : List α) (body : α → ExceptT ε (StateM σ) Unit)
    (each : ∀ item ∈ items, Ensures P (body item) P) : Ensures P (items.forM body) P := by
  rw [forM_eq_foldlM]
  exact Ensures.foldlM items _ () fun item member _ => each item member

end Ensures

section Reaches

variable {P Q : σ → Prop}

theorem reaches_bind (program : ExceptT ε (StateM σ) α)
    (next : α → ExceptT ε (StateM σ) β) (state : σ) (reached : Q (program.run.run state).2)
    (stays : ∀ value, Keeps Q (next value)) :
    Q ((program >>= next).run.run state).2 := by
  cases outcome : (program.run.run state).1 with
  | error failure =>
    rw [run_bind_error program next state failure outcome]
    exact reached
  | ok value =>
    rw [run_bind_ok program next state value outcome]
    exact (stays value).kept _ reached

/-- One item of a loop that does not fail before it brings about what the later items keep. -/
theorem foldlM_reaches (items : List α) (step : β → α → ExceptT ε (StateM σ) β)
    (start : β) (target : α) (member : target ∈ items)
    (each : ∀ item ∈ items, ∀ value, Ensures P (step value item) P)
    (hit : ∀ value, Ensures P (step value target) Q)
    (stays : ∀ item ∈ items, ∀ value, Keeps Q (step value item)) (state : σ) (holds : P state) :
    Q ((items.foldlM step start).run.run state).2 := by
  induction items generalizing start state with
  | nil => cases member
  | cons item items ih =>
    rw [List.foldlM_cons]
    by_cases here : item = target
    · subst here
      obtain ⟨value,done,reached⟩ := (hit start).done state holds
      rw [run_bind_ok _ _ state value done]
      exact (Keeps.foldlM items step value fun later among =>
          stays later (List.mem_cons_of_mem _ among)).kept _ reached
    · obtain ⟨value,done,kept⟩ := (each item (List.mem_cons_self ..) start).done state holds
      rw [run_bind_ok _ _ state value done]
      refine ih value ((List.mem_cons.mp member).resolve_left (Ne.symm here)) ?_ ?_ _ kept
      · exact fun later among => each later (List.mem_cons_of_mem _ among)
      · exact fun later among => stays later (List.mem_cons_of_mem _ among)

theorem forM_reaches (items : List α) (body : α → ExceptT ε (StateM σ) Unit) (target : α)
    (member : target ∈ items) (each : ∀ item ∈ items, Ensures P (body item) P)
    (hit : Ensures P (body target) Q) (stays : ∀ item ∈ items, Keeps Q (body item)) (state : σ)
    (holds : P state) :
    Q ((items.forM body).run.run state).2 := by
  rw [forM_eq_foldlM]
  exact foldlM_reaches items _ () target member (fun item among _ => each item among) (fun _ => hit)
    (fun item among _ => stays item among) state holds

end Reaches

end ExploratoryOptimizer.Library.Fallible
