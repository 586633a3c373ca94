import ExploratoryOptimizer.Aqo.PlanStat
import Mathlib.Data.Multiset.AddSub

/-! Which executed plans teach what was predicted: the clauses `collect_planstat` gathers against
those of `get_path_clauses`, for one tree and for all trees `learn_query_stat` walks. -/
namespace ExploratoryOptimizer.Aqo.PlanStat
open PathTree

theorem nfeatures_perm (featurizer : Featurizer) (clauses clauses' : List ClauseRef)
    (perm : clauses.Perm clauses') :
    featurizer.nfeatures clauses = featurizer.nfeatures clauses' := by
  have same : (clauses : Multiset ClauseRef) = clauses' := Multiset.coe_eq_coe.mpr perm
  have keeps : featurizer.keeps clauses = featurizer.keeps clauses' := by
    funext clause
    unfold Featurizer.keeps
    rw [same]
    dsimp only
    rw [(perm.filter _).countP_eq,(perm.filter _).length_eq]
  unfold Featurizer.nfeatures
  rw [keeps]
  exact perm.countP_eq _

section Lost

variable (featurizer : Featurizer)

/-- Clauses that a plan of matching samples leaves out of what it passes on: those of a scan or
join without features, unless a node above the scan learns them once more. -/
def lost : PathNode → List ClauseRef
  | .scan _ path => if featurizer.nfeatures (baseClauses path) = 0 then baseClauses path else []
  | .wrapper .subqueryScan path _ =>
    if featurizer.nfeatures (baseClauses path) = 0 then baseClauses path else []
  | .wrapper (.unique .noop) _ subpath => lost subpath
  | .wrapper _ path subpath =>
    if baseClauses path ≠ [] ∧ featurizer.nfeatures (getPathClauses subpath) > 0 then []
    else lost subpath
  | .gather path subpath =>
    if baseClauses path ≠ [] ∧ featurizer.nfeatures (getPathClauses subpath) > 0 then []
    else lost subpath
  | .join info _ outer inner =>
    if featurizer.nfeatures (info.joinrestrictinfo ++
        (getPathClauses outer ++ getPathClauses inner)) = 0 then
      info.joinrestrictinfo
    else []
  | _ => []

/-- A node above a scan has the scan's clauses too and must not find them passed on; the inputs of
a join must have passed on all of theirs. -/
def Matches : PathNode → Prop
  | .wrapper .subqueryScan _ _ => True
  | .wrapper (.unique .noop) _ subpath => Matches subpath
  | .wrapper _ path subpath =>
    Matches subpath ∧ (baseClauses path = [] ∨ (baseClauses path).Perm (lost featurizer subpath))
  | .gather path subpath =>
    Matches subpath ∧ (baseClauses path = [] ∨ (baseClauses path).Perm (lost featurizer subpath))
  | .join _ _ outer inner =>
    Matches outer ∧ Matches inner ∧ lost featurizer outer = [] ∧ lost featurizer inner = []
  | _ => True

end Lost

def Sample.AsPredicted (sample : Sample) : Prop :=
  sample.gathered.clauselist.Perm (getPathClauses sample.source)

def PlanNode.Executed (node : PlanNode) : Prop :=
  ∃ instrument, node.instrument = some instrument ∧
    ¬(instrument.ntuples = 0 ∧ instrument.nloops = 0)

def PlanState.Executed : PlanState → Prop
  | .leaf node _ => node.Executed
  | .unary node lefttree _ => node.Executed ∧ lefttree.Executed
  | .binary node lefttree righttree _ => node.Executed ∧ lefttree.Executed ∧ righttree.Executed
  | .rightOnly node righttree _ => node.Executed ∧ righttree.Executed

structure MadeFrom (rteRelid : Nat → Nat) (node : PathNode) (state : PlanState) : Prop where
  plan : createPlan rteRelid node = some state.plan
  executed : state.Executed

section Outcome

variable (featurizer : Featurizer) (restoreSelectivities : PathInfo → List ℚ)

structure Outcome (node : PathNode) (collected : Collected) : Prop where
  samples : (∀ sample ∈ collected.samples, sample.AsPredicted) ↔ Matches featurizer node
  passes : Matches featurizer node →
    (collected.gathered.clauselist ++ lost featurizer node).Perm (getPathClauses node)

theorem collectNode_unannotated (node : PlanNode) (inputs : Inputs) (below : Collected)
    (bare : node.info = none) :
    collectNode featurizer restoreSelectivities node inputs below = below := by
  unfold collectNode
  rw [bare]

theorem collectNode_silent (node : PlanNode) (below : Collected) (info : PathInfo)
    (annotated : node.info = some info) (empty : info.pathClauses = []) :
    collectNode featurizer restoreSelectivities node .left below = below := by
  unfold collectNode
  rw [annotated]
  cases node.instrument with
  | none => rfl
  | some instrument => simp [empty]

theorem collectNode_learns (node : PlanNode) (inputs : Inputs) (below : Collected) (info : PathInfo)
    (annotated : node.info = some info) (executed : node.Executed)
    (learns : inputs = .both ∨ inputs = .none ∨ info.pathClauses ≠ []) :
    let collected := collectNode featurizer restoreSelectivities node inputs below
    (∃ sample, collected.samples = below.samples ++ [sample] ∧ sample.source = info.source ∧
      sample.gathered.clauselist = info.pathClauses ++ below.gathered.clauselist) ∧
    collected.gathered.clauselist =
      if featurizer.nfeatures (info.pathClauses ++ below.gathered.clauselist) > 0 then
        info.pathClauses ++ below.gathered.clauselist
      else below.gathered.clauselist := by
  obtain ⟨instrument,measured,ran⟩ := executed
  simp only [collectNode,annotated,measured,if_pos learns,if_neg ran]
  refine ⟨⟨_,rfl,rfl,rfl⟩,?_⟩
  by_cases features : featurizer.nfeatures (info.pathClauses ++ below.gathered.clauselist) > 0
  · rw [if_pos features,if_pos features]
  · rw [if_neg features,if_neg features]

/-- A path that uses the clauses of its own relation. -/
structure IsScan (source : PathNode) : Prop where
  carries (rteRelid : Nat → Nat) :
    (aqoCopyGenericPathInfo rteRelid source).pathClauses = baseClauses source.path
  uses : getPathClauses source = baseClauses source.path
  loses : lost featurizer source =
    if featurizer.nfeatures (baseClauses source.path) = 0 then baseClauses source.path else []
  agrees : Matches featurizer source

/-- A path that uses the clauses of its input but carries those of its own relation. -/
structure IsAbove (source subpath : PathNode) : Prop where
  carries (rteRelid : Nat → Nat) :
    (aqoCopyGenericPathInfo rteRelid source).pathClauses = baseClauses source.path
  uses : getPathClauses source = getPathClauses subpath
  loses : lost featurizer source =
    if baseClauses source.path ≠ [] ∧ featurizer.nfeatures (getPathClauses subpath) > 0 then []
    else lost featurizer subpath
  agrees : Matches featurizer source ↔ Matches featurizer subpath ∧
    (baseClauses source.path = [] ∨ (baseClauses source.path).Perm (lost featurizer subpath))

theorem outcome_scan (source : PathNode) (isScan : IsScan featurizer source) (rteRelid : Nat → Nat)
    (node : PlanNode) (inputs : Inputs) (below : Collected)
    (annotated : node.info = some (aqoCopyGenericPathInfo rteRelid source))
    (executed : node.Executed) (learns : inputs = .none ∨ baseClauses source.path ≠ [])
    (nothing : below.gathered.clauselist = []) (silent : below.samples = []) :
    Outcome featurizer source (collectNode featurizer restoreSelectivities node inputs below) := by
  have clauses := isScan.carries rteRelid
  obtain ⟨⟨sample,samples,from_scan,learned⟩,passed⟩ :=
    collectNode_learns featurizer restoreSelectivities node inputs below _ annotated executed
      (.inr (by rwa [clauses]))
  rw [nothing,List.append_nil,clauses] at learned passed
  constructor
  · rw [samples,silent,List.nil_append]
    simp only [List.mem_singleton,forall_eq,Sample.AsPredicted,from_scan,learned]
    exact iff_of_true (.of_eq isScan.uses.symm) isScan.agrees
  · intro _
    rw [passed,isScan.loses,isScan.uses]
    by_cases none : featurizer.nfeatures (baseClauses source.path) = 0
    · simp [none]
    · simp [none,Nat.pos_of_ne_zero none]

theorem outcome_above (source subpath : PathNode) (isAbove : IsAbove featurizer source subpath)
    (rteRelid : Nat → Nat) (node : PlanNode) (below : Collected)
    (annotated : node.info = some (aqoCopyGenericPathInfo rteRelid source))
    (executed : node.Executed) (outcome : Outcome featurizer subpath below) :
    Outcome featurizer source (collectNode featurizer restoreSelectivities node .left below) := by
  obtain ⟨carries,same,loses,agrees⟩ := isAbove
  have clauses := carries rteRelid
  by_cases empty : baseClauses source.path = []
  · rw [collectNode_silent featurizer restoreSelectivities node below _ annotated
      (clauses.trans empty)]
    simp only [empty,ne_eq,not_true_eq_false,false_and,if_false,true_or,and_true] at loses agrees
    constructor
    · rw [agrees]
      exact outcome.samples
    · intro agreement
      rw [loses,same]
      exact outcome.passes (agrees.mp agreement)
  · obtain ⟨⟨sample,samples,from_source,learned⟩,passed⟩ :=
      collectNode_learns featurizer restoreSelectivities node .left below _ annotated executed
        (.inr (.inr (by rwa [clauses])))
    rw [clauses] at learned passed
    simp only [empty,ne_eq,not_false_eq_true,true_and,false_or] at loses agrees
    -- The sample is right exactly if the node puts back what was lost below it.
    have restores (agreement : Matches featurizer subpath) :
        (baseClauses source.path ++ below.gathered.clauselist).Perm (getPathClauses subpath) ↔
          (baseClauses source.path).Perm (lost featurizer subpath) := by
      have passes := (List.perm_append_comm.trans (outcome.passes agreement)).symm
      exact ⟨fun perm => (List.perm_append_right_iff _).mp (perm.trans passes),
        fun perm => ((List.perm_append_right_iff _).mpr perm).trans passes.symm⟩
    constructor
    · rw [samples,List.forall_mem_append,outcome.samples,agrees]
      refine and_congr_right fun agreement => ?_
      simp only [List.mem_singleton,forall_eq,Sample.AsPredicted,from_source,learned]
      rw [show getPathClauses (aqoCopyGenericPathInfo rteRelid source).source =
        getPathClauses subpath from same]
      exact restores agreement
    · intro agreement
      obtain ⟨agreement,own⟩ := agrees.mp agreement
      have all := (restores agreement).mpr own
      rw [passed,loses,same,nfeatures_perm featurizer _ _ all]
      by_cases features : featurizer.nfeatures (getPathClauses subpath) > 0
      · rw [if_pos features,if_pos features,List.append_nil]
        exact all
      · rw [if_neg features,if_neg features]
        exact outcome.passes agreement

theorem outcome_join (info : JoinInfo) (path : Path) (outer inner : PathNode) (rteRelid : Nat → Nat)
    (node : PlanNode) (left right below : Collected)
    (annotated : node.info = some (aqoCopyGenericPathInfo rteRelid (.join info path outer inner)))
    (executed : node.Executed)
    (concat : below.gathered.clauselist = right.gathered.clauselist ++ left.gathered.clauselist)
    (both : below.samples = left.samples ++ right.samples)
    (outerOutcome : Outcome featurizer outer left) (innerOutcome : Outcome featurizer inner right) :
    Outcome featurizer (.join info path outer inner)
      (collectNode featurizer restoreSelectivities node .both below) := by
  obtain ⟨⟨sample,samples,from_join,learned⟩,passed⟩ :=
    collectNode_learns featurizer restoreSelectivities node .both below _ annotated
      executed (.inl rfl)
  simp only [aqoCopyGenericPathInfo,concat] at from_join learned passed
  have swapped (outerAgrees : Matches featurizer outer) (innerAgrees : Matches featurizer inner) :
      ((right.gathered.clauselist ++ left.gathered.clauselist) ++
        (lost featurizer outer ++ lost featurizer inner)).Perm
        (getPathClauses outer ++ getPathClauses inner) := by
    refine List.Perm.trans ?_
      ((outerOutcome.passes outerAgrees).append (innerOutcome.passes innerAgrees))
    rw [← Multiset.coe_eq_coe]
    simp only [← Multiset.coe_add]
    rw [add_comm (right.gathered.clauselist : Multiset ClauseRef),add_add_add_comm]
  have restores (outerAgrees : Matches featurizer outer) (innerAgrees : Matches featurizer inner) :
      (info.joinrestrictinfo ++ (right.gathered.clauselist ++ left.gathered.clauselist)).Perm
        (info.joinrestrictinfo ++ (getPathClauses outer ++ getPathClauses inner)) ↔
          lost featurizer outer = [] ∧ lost featurizer inner = [] := by
    rw [List.perm_append_left_iff]
    constructor
    · intro perm
      have lengths := (perm.trans (swapped outerAgrees innerAgrees).symm).length_eq
      simp only [List.length_append] at lengths
      exact ⟨List.eq_nil_of_length_eq_zero (by omega),List.eq_nil_of_length_eq_zero (by omega)⟩
    · rintro ⟨outerLost,innerLost⟩
      have perm := swapped outerAgrees innerAgrees
      rwa [outerLost,innerLost,List.append_nil,List.append_nil] at perm
  constructor
  · rw [samples,both,List.forall_mem_append,List.forall_mem_append,outerOutcome.samples,
      innerOutcome.samples,Matches,and_assoc]
    refine and_congr_right fun outerAgrees => and_congr_right fun innerAgrees => ?_
    simp only [List.mem_singleton,forall_eq,Sample.AsPredicted,from_join,learned,getPathClauses]
    exact restores outerAgrees innerAgrees
  · rw [Matches]
    rintro ⟨outerAgrees,innerAgrees,nothing⟩
    have all := (restores outerAgrees innerAgrees).mpr nothing
    rw [passed,lost,getPathClauses,nfeatures_perm featurizer _ _ all]
    by_cases features : featurizer.nfeatures
        (info.joinrestrictinfo ++ (getPathClauses outer ++ getPathClauses inner)) = 0
    · rw [if_neg (by omega),if_pos features]
      exact List.perm_append_comm.trans all
    · rw [if_pos (by omega),if_neg features,List.append_nil]
      exact all

end Outcome

/-! Trees made by `createPlan`. -/

namespace PlanState

theorem plan_eq_leaf (state : PlanState) (info : Option PathInfo)
    (shape : state.plan = .leaf info) :
    ∃ node subPlan, state = .leaf node subPlan ∧ node.info = info := by
  cases state with
  | leaf node subPlan => exact ⟨node,subPlan,rfl,by simpa [plan] using shape⟩
  | unary | binary | rightOnly => simp [plan] at shape

theorem plan_eq_unary (state : PlanState) (info : Option PathInfo) (left : Plan)
    (shape : state.plan = .unary info left) :
    ∃ node lefttree subPlan, state = .unary node lefttree subPlan ∧ node.info = info ∧
      lefttree.plan = left := by
  cases state with
  | unary node lefttree subPlan => exact ⟨node,lefttree,subPlan,rfl,by simpa [plan] using shape⟩
  | leaf | binary | rightOnly => simp [plan] at shape

theorem plan_eq_binary (state : PlanState) (info : Option PathInfo) (left right : Plan)
    (shape : state.plan = .binary info left right) :
    ∃ node lefttree righttree subPlan, state = .binary node lefttree righttree subPlan ∧
      node.info = info ∧ lefttree.plan = left ∧ righttree.plan = right := by
  cases state with
  | binary node lefttree righttree subPlan =>
    exact ⟨node,lefttree,righttree,subPlan,rfl,by simpa [plan] using shape⟩
  | leaf | unary | rightOnly => simp [plan] at shape

end PlanState

section Made

variable (featurizer : Featurizer) (restoreSelectivities : PathInfo → List ℚ)

def SameWalk (state state' : PlanState) : Prop :=
  ∀ gathered,
    (collectPlanstat featurizer restoreSelectivities state gathered).samples =
      (collectPlanstat featurizer restoreSelectivities state' gathered).samples ∧
    (collectPlanstat featurizer restoreSelectivities state gathered).gathered =
      (collectPlanstat featurizer restoreSelectivities state' gathered).gathered

theorem unary_bare (node : PlanNode) (lefttree : PlanState) (subPlan : List PlanState)
    (bare : node.info = none) :
    SameWalk featurizer restoreSelectivities (.unary node lefttree subPlan) lefttree := by
  intro gathered
  rw [collectPlanstat,collectNode_unannotated featurizer restoreSelectivities node _ _ bare]
  exact ⟨rfl,rfl⟩

theorem inserted (needed : Bool) (plan : Plan) (state : PlanState)
    (shape : state.plan = plan.insert needed) (executed : state.Executed) :
    ∃ input, input.plan = plan ∧ input.Executed ∧
      SameWalk featurizer restoreSelectivities state input := by
  cases needed with
  | false => exact ⟨state,shape,executed,fun _ => ⟨rfl,rfl⟩⟩
  | true =>
    obtain ⟨node,lefttree,subPlan,rfl,bare,left⟩ := state.plan_eq_unary none plan shape
    exact ⟨lefttree,left,executed.2,
      unary_bare featurizer restoreSelectivities node lefttree subPlan bare⟩

theorem SameWalk.trans (state state' state'' : PlanState)
    (first : SameWalk featurizer restoreSelectivities state state')
    (second : SameWalk featurizer restoreSelectivities state' state'') :
    SameWalk featurizer restoreSelectivities state state'' :=
  fun gathered => ⟨(first gathered).1.trans (second gathered).1,
    (first gathered).2.trans (second gathered).2⟩

/-- What the tree made from a path looks like, up to nodes that the walk passes over. -/
inductive Shape (rteRelid : Nat → Nat) : PathNode → PlanState → Prop where
  | leaf (source : PathNode) (isScan : IsScan featurizer source) (node : PlanNode)
      (subPlan : List PlanState)
      (annotated : node.info = some (aqoCopyGenericPathInfo rteRelid source))
      (executed : node.Executed) :
      Shape rteRelid source (.leaf node subPlan)
  | bitmap (source : PathNode) (isScan : IsScan featurizer source)
      (clauses : baseClauses source.path ≠ []) (node index : PlanNode)
      (indexSubPlan subPlan : List PlanState)
      (annotated : node.info = some (aqoCopyGenericPathInfo rteRelid source))
      (bare : index.info = none) (executed : node.Executed) :
        Shape rteRelid source (.unary node (.leaf index indexSubPlan) subPlan)
  | above (source subpath : PathNode) (isAbove : IsAbove featurizer source subpath)
      (node : PlanNode) (lefttree input : PlanState) (subPlan : List PlanState)
      (annotated : node.info = some (aqoCopyGenericPathInfo rteRelid source))
      (executed : node.Executed) (same : SameWalk featurizer restoreSelectivities lefttree input)
      (below : Shape rteRelid subpath input) :
      Shape rteRelid source (.unary node lefttree subPlan)
  | distinct (path : Path) (subpath : PathNode) (state : PlanState)
      (below : Shape rteRelid subpath state) :
      Shape rteRelid (.wrapper (.unique .noop) path subpath) state
  | join (info : JoinInfo) (path : Path) (outer inner : PathNode) (node : PlanNode)
      (lefttree righttree outerInput innerInput : PlanState) (subPlan : List PlanState)
      (annotated : node.info = some (aqoCopyGenericPathInfo rteRelid (.join info path outer inner)))
      (executed : node.Executed)
      (left : SameWalk featurizer restoreSelectivities lefttree outerInput)
      (right : SameWalk featurizer restoreSelectivities righttree innerInput)
      (outerShape : Shape rteRelid outer outerInput)
      (innerShape : Shape rteRelid inner innerInput) :
      Shape rteRelid (.join info path outer inner) (.binary node lefttree righttree subPlan)

theorem shape_of_made (rteRelid : Nat → Nat) (path : PathNode) (state : PlanState)
    (made : MadeFrom rteRelid path state) :
    Shape featurizer restoreSelectivities rteRelid path state := by
  obtain ⟨shape,executed⟩ := made
  -- Induction along createPlan: one case for each kind of path it turns into a plan.
  induction path using createPlan.induct generalizing state with
  | case1 path empty => simp [createPlan,empty] at shape
  | case2 path clauses =>
    rw [createPlan,if_neg clauses,Option.some.injEq] at shape
    obtain ⟨node,lefttree,subPlan,rfl,annotated,left⟩ := state.plan_eq_unary _ _ shape.symm
    obtain ⟨index,indexSubPlan,rfl,bare⟩ := lefttree.plan_eq_leaf _ left
    refine .bitmap (.scan .bitmapHeapScan path) ?_ clauses node index indexSubPlan subPlan
      annotated bare executed.1
    exact ⟨fun _ => rfl,rfl,rfl,trivial⟩
  | case3 kind path other =>
    rw [createPlan.eq_2 _ _ _ other,Option.some.injEq] at shape
    obtain ⟨node,subPlan,rfl,annotated⟩ := state.plan_eq_leaf _ shape.symm
    refine .leaf _ ?_ node subPlan annotated executed
    exact ⟨fun _ => rfl,rfl,rfl,trivial⟩
  | case4 path subpath empty => simp [createPlan,empty] at shape
  | case5 path subpath clauses =>
    rw [createPlan,if_neg clauses,Option.some.injEq] at shape
    obtain ⟨node,subPlan,rfl,annotated⟩ := state.plan_eq_leaf _ shape.symm
    refine .leaf _ ?_ node subPlan annotated executed
    exact ⟨fun _ => rfl,rfl,rfl,trivial⟩
  | case6 path subpath ih | case7 path subpath ih | case9 path subpath ih
  | case11 path subpath ih =>
    rw [createPlan,Option.map_eq_some_iff] at shape
    obtain ⟨plan,sub,shape⟩ := shape
    obtain ⟨node,lefttree,subPlan,rfl,annotated,rfl⟩ := state.plan_eq_unary _ _ shape.symm
    refine .above _ subpath ?_ node lefttree lefttree subPlan annotated executed.1
      (fun _ => ⟨rfl,rfl⟩) (ih lefttree sub executed.2)
    exact ⟨fun _ => rfl,rfl,rfl,Iff.rfl⟩
  | case8 path subpath ih => exact .distinct path subpath state (ih state shape executed)
  | case10 path subpath ih =>
    rw [createPlan,Option.map_eq_some_iff] at shape
    obtain ⟨plan,sub,shape⟩ := shape
    obtain ⟨node,sort,subPlan,rfl,annotated,sorted⟩ := state.plan_eq_unary _ _ shape.symm
    obtain ⟨sortNode,lefttree,sortSubPlan,rfl,bare,rfl⟩ := sort.plan_eq_unary _ _ sorted
    refine .above _ subpath ?_ node _ lefttree subPlan annotated executed.1
      (unary_bare featurizer restoreSelectivities sortNode lefttree sortSubPlan bare)
      (ih lefttree sub executed.2.2)
    exact ⟨fun _ => rfl,rfl,rfl,Iff.rfl⟩
  | case12 info path outer inner outerIh innerIh =>
    rw [createPlan,Option.bind_eq_some_iff] at shape
    obtain ⟨outerPlan,outerSub,shape⟩ := shape
    obtain ⟨innerPlan,innerSub,shape⟩ := Option.map_eq_some_iff.mp shape
    obtain ⟨node,lefttree,righttree,subPlan,rfl,annotated,left,right⟩ :=
      state.plan_eq_binary _ _ _ shape.symm
    obtain ⟨outerState,rfl,outerExecuted,outerSame⟩ :=
      inserted featurizer restoreSelectivities _ _ _ left executed.2.1
    obtain ⟨sorted,sortedPlan,sortedExecuted,sortedSame⟩ :=
      inserted featurizer restoreSelectivities _ _ _ right executed.2.2
    obtain ⟨innerState,rfl,innerExecuted,innerSame⟩ :=
      inserted featurizer restoreSelectivities _ _ _ sortedPlan sortedExecuted
    exact .join info path outer inner node lefttree righttree outerState innerState subPlan
      annotated executed.1 outerSame (sortedSame.trans _ _ _ _ _ innerSame)
      (outerIh outerState outerSub outerExecuted) (innerIh innerState innerSub innerExecuted)
  | case13 => simp [createPlan] at shape

theorem outcome_shape (rteRelid : Nat → Nat) (path : PathNode) (state : PlanState)
    (shape : Shape featurizer restoreSelectivities rteRelid path state) (gathered : Gathered)
    (fresh : gathered.clauselist = []) :
    Outcome featurizer path (collectPlanstat featurizer restoreSelectivities state gathered) := by
  induction shape generalizing gathered with
  | leaf source isScan node subPlan annotated executed =>
    exact outcome_scan featurizer restoreSelectivities source isScan rteRelid node .none _ annotated
      executed (.inl rfl) fresh rfl
  | bitmap source isScan clauses node index indexSubPlan subPlan annotated bare executed =>
    rw [collectPlanstat,collectPlanstat,
      collectNode_unannotated featurizer restoreSelectivities index _ _ bare]
    exact outcome_scan featurizer restoreSelectivities source isScan rteRelid node .left _
      annotated executed (.inr clauses) fresh rfl
  | above source subpath isAbove node lefttree input subPlan annotated executed same _ ih =>
    have below := ih gathered fresh
    obtain ⟨samples,passed⟩ := same gathered
    refine outcome_above featurizer restoreSelectivities source subpath isAbove rteRelid node _
      annotated executed ⟨?_,?_⟩
    · rw [samples]
      exact below.samples
    · rw [passed]
      exact below.passes
  | distinct path subpath state _ ih =>
    have below := ih gathered fresh
    exact ⟨below.samples,below.passes⟩
  | join info path outer inner node lefttree righttree outerInput innerInput subPlan annotated
      executed left right _ _ outerIh innerIh =>
    rw [collectPlanstat]
    refine outcome_join featurizer restoreSelectivities info path outer inner rteRelid node _ _ _
      annotated executed ?_ ?_ (outerIh gathered fresh) (innerIh ⟨[],[],[]⟩ rfl)
    · rw [(left gathered).2,(right ⟨[],[],[]⟩).2]
    · rw [(left gathered).1,(right ⟨[],[],[]⟩).1]

theorem collectNode_samples (node : PlanNode) (inputs : Inputs) (below : Collected)
    (sample : Sample) (mem : sample ∈ below.samples) :
    sample ∈ (collectNode featurizer restoreSelectivities node inputs below).samples := by
  unfold collectNode
  split
  · dsimp only
    split_ifs
    all_goals simp [mem]
  · exact mem

theorem stale_scan (source : PathNode) (isScan : IsScan featurizer source) (rteRelid : Nat → Nat)
    (node : PlanNode) (inputs : Inputs) (below : Collected)
    (annotated : node.info = some (aqoCopyGenericPathInfo rteRelid source))
    (executed : node.Executed) (learns : inputs = .none ∨ baseClauses source.path ≠ [])
    (stale : below.gathered.clauselist ≠ []) :
    ∃ sample ∈ (collectNode featurizer restoreSelectivities node inputs below).samples,
      ¬sample.AsPredicted := by
  have clauses := isScan.carries rteRelid
  obtain ⟨⟨sample,samples,from_scan,learned⟩,-⟩ :=
    collectNode_learns featurizer restoreSelectivities node inputs below _ annotated executed
      (.inr (by rwa [clauses]))
  refine ⟨sample,by simp [samples],fun predicted => stale ?_⟩
  rw [Sample.AsPredicted,learned,clauses,from_scan] at predicted
  have lengths := (predicted.trans (.of_eq isScan.uses)).length_eq
  rw [List.length_append] at lengths
  exact List.eq_nil_of_length_eq_zero (Nat.left_eq_add.mp lengths.symm)

/-- Clauses left over from an earlier tree end up in the sample of the leftmost scan. -/
theorem stale_shape (rteRelid : Nat → Nat) (path : PathNode) (state : PlanState)
    (shape : Shape featurizer restoreSelectivities rteRelid path state) (gathered : Gathered)
    (stale : gathered.clauselist ≠ []) :
    ∃ sample ∈ (collectPlanstat featurizer restoreSelectivities state gathered).samples,
      ¬sample.AsPredicted := by
  induction shape generalizing gathered with
  | leaf source isScan node subPlan annotated executed =>
    exact stale_scan featurizer restoreSelectivities source isScan rteRelid node .none _ annotated
      executed (.inl rfl) stale
  | bitmap source isScan clauses node index indexSubPlan subPlan annotated bare executed =>
    rw [collectPlanstat,collectPlanstat,
      collectNode_unannotated featurizer restoreSelectivities index _ _ bare]
    exact stale_scan featurizer restoreSelectivities source isScan rteRelid node .left _
      annotated executed (.inr clauses) stale
  | above source subpath isAbove node lefttree input subPlan annotated executed same _ ih =>
    obtain ⟨sample,mem,wrong⟩ := ih gathered stale
    rw [← (same gathered).1] at mem
    exact ⟨sample,collectNode_samples featurizer restoreSelectivities node _ _ sample mem,wrong⟩
  | distinct path subpath state _ ih => exact ih gathered stale
  | join info path outer inner node lefttree righttree outerInput innerInput subPlan annotated
      executed left right _ _ outerIh _ =>
    obtain ⟨sample,mem,wrong⟩ := outerIh gathered stale
    refine ⟨sample,collectNode_samples featurizer restoreSelectivities node _ _ sample ?_,wrong⟩
    rw [← (left gathered).1] at mem
    exact List.mem_append_left _ mem

theorem collectAll_made (rteRelid : Nat → Nat) (paths : List PathNode) (states : List PlanState)
    (made : List.Forall₂ (MadeFrom rteRelid) paths states) (gathered : Gathered)
    (fresh : gathered.clauselist = []) :
    (∀ sample ∈ collectAll featurizer restoreSelectivities states gathered, sample.AsPredicted) ↔
      (∀ path ∈ paths, Matches featurizer path) ∧
        ∀ path ∈ paths.dropLast, (getPathClauses path).Perm (lost featurizer path) := by
  induction made generalizing gathered with
  | nil => simp [collectAll]
  | @cons path state paths states first rest ih =>
    have outcome := outcome_shape featurizer restoreSelectivities rteRelid path state
      (shape_of_made featurizer restoreSelectivities rteRelid path state first) gathered fresh
    rw [collectAll,List.forall_mem_append,outcome.samples,List.forall_mem_cons,and_assoc]
    refine and_congr_right fun agrees => ?_
    have passes := outcome.passes agrees
    cases rest with
    | nil => simp [collectAll]
    | @cons next nextState paths states second rest =>
      have empty :
        (collectPlanstat featurizer restoreSelectivities state gathered).gathered.clauselist = [] ↔
          (getPathClauses path).Perm (lost featurizer path) := by
        constructor
        · intro empty
          rw [empty] at passes
          exact passes.symm
        · intro perm
          have lengths := (passes.trans perm).length_eq
          rw [List.length_append] at lengths
          exact List.eq_nil_of_length_eq_zero (by omega)
      have head : (∀ earlier ∈ path :: (next :: paths).dropLast,
            (getPathClauses earlier).Perm (lost featurizer earlier)) ↔ _ := List.forall_mem_cons
      rw [List.dropLast_cons_cons,head,and_left_comm,← empty]
      by_cases passed :
        (collectPlanstat featurizer restoreSelectivities state gathered).gathered.clauselist = []
      · rw [ih _ passed]
        exact (and_iff_right passed).symm
      · obtain ⟨sample,mem,wrong⟩ :=
          stale_shape featurizer restoreSelectivities rteRelid next nextState
            (shape_of_made featurizer restoreSelectivities rteRelid next nextState second) _ passed
        refine iff_of_false (fun all => wrong (all sample ?_)) (fun all => passed all.1)
        exact List.mem_append_left _ mem

end Made

/-- What is learned is what was predicted exactly if every tree matches and every tree but the
last passes on no clauses: an annotated node above a scan learns the scan's clauses a second
time, a join misses the clauses of inputs without features, and the next tree of the work list
starts from what the one before has gathered. -/
theorem learned_as_predicted_iff (featurizer : Featurizer)
    (restoreSelectivities : PathInfo → List ℚ) (rteRelid : Nat → Nat) (planstate : PlanState)
    (paths : List PathNode) (made : List.Forall₂ (MadeFrom rteRelid) paths
      (walkOrder planstate.size [planstate])) :
    (∀ sample ∈ learnQueryStat featurizer restoreSelectivities planstate, sample.AsPredicted) ↔
      (∀ path ∈ paths, Matches featurizer path) ∧
        ∀ path ∈ paths.dropLast, (getPathClauses path).Perm (lost featurizer path) := by
  rw [learnQueryStat,learnPlans_eq]
  exact collectAll_made featurizer restoreSelectivities rteRelid paths _ made ⟨[],[],[]⟩ rfl

/-- Clause 3 equates columns of the relations 1 and 2; the others compare a column with a
constant. -/
def sampleClause (clause : ClauseRef) : Hash.Node :=
  if clause = 3 then Hash.int4Clause 96 65 (Hash.int4Var 1 1 20) (Hash.int4Var 2 1 26) 24
  else Hash.int4Clause 521 147 (Hash.int4Var (if clause < 8 then 1 else 2) clause 20)
    (.const " :consttype 23 :location 26".toList) 24

def sampleFeaturizer : Featurizer := hashFeaturizer Hash.exactHash sampleClause

def filtered (relid : Nat) (clause : ClauseRef) : RelCore :=
  {baseRel relid (1/2) with baserestrictinfo := [clause]}

def filteredScan (relid : Nat) (clause : ClauseRef) : PathNode :=
  createSeqscanPath (filtered relid clause) none plainData

def executedNode (info : Option PathInfo) : PlanNode := ⟨info,some ⟨5,1⟩⟩

theorem executedNode_executed (info : Option PathInfo) : (executedNode info).Executed :=
  ⟨⟨5,1⟩,rfl,by norm_num⟩

def executedScan (source : PathNode) : PlanState :=
  .leaf (executedNode (some (aqoCopyGenericPathInfo id source))) []

def filteredJoin : PathNode :=
  createHashjoinPath (baseRel 0 1) none plainData [3] (filteredScan 1 7) (filteredScan 2 9)

def joinState : PlanState :=
  .binary (executedNode (some (aqoCopyGenericPathInfo id filteredJoin)))
    (executedScan (filteredScan 1 7))
    (.unary (executedNode none) (executedScan (filteredScan 2 9)) []) []

theorem learned_as_predicted_iff_hashJoin :
    MadeFrom id filteredJoin joinState ∧
      ∀ sample ∈ learnQueryStat sampleFeaturizer (fun _ => [1]) joinState, sample.AsPredicted := by
  have made : MadeFrom id filteredJoin joinState :=
    ⟨rfl,executedNode_executed _,executedNode_executed _,executedNode_executed _,
      executedNode_executed _⟩
  refine ⟨made,(learned_as_predicted_iff sampleFeaturizer _ id joinState [filteredJoin]
      (.cons made .nil)).mpr
    ⟨?_,by simp⟩⟩
  rintro path (_ | ⟨_,⟨⟩⟩)
  refine ⟨trivial,trivial,?_,?_⟩
  · decide +kernel
  · decide +kernel

def materialPath : PathNode := createMaterialPath (filtered 1 7) plainData (filteredScan 1 7)

def materialState : PlanState :=
  .unary (executedNode (some (aqoCopyGenericPathInfo id materialPath)))
    (executedScan (filteredScan 1 7)) []

/-- A Material above a scan with one clause is learned with the clause twice. -/
theorem material_learns_clause_twice :
    MadeFrom id materialPath materialState ∧
      (learnQueryStat sampleFeaturizer (fun _ => [1]) materialState).map
        (fun sample => (sample.gathered.clauselist,getPathClauses sample.source)) =
        [([7],[7]),([7,7],[7])] := by
  refine ⟨⟨rfl,executedNode_executed _,executedNode_executed _⟩,?_⟩
  decide +kernel

end ExploratoryOptimizer.Aqo.PlanStat
