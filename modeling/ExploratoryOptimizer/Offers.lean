import ExploratoryOptimizer.Conservative
import ExploratoryOptimizer.Library.FuzzyTournament

/-! Whole sequences of offers to `add_path_explore`: what the pathlist and the best cost of a
relation hold after each of them, and how far the cheapest kept path is from the cheapest offer. -/
namespace ExploratoryOptimizer.Offers
open AddPath Library.Tournament Library.FuzzyTournament
open Conservative (offerAllExplore)

theorem offerAllExplore_append (parentRel : RelOptInfo) (offers : List Path) (newPath : Path)
    (bestPredCost pruneRate : ℚ) :
    offerAllExplore parentRel (offers ++ [newPath]) bestPredCost pruneRate =
      addPathExplore (offerAllExplore parentRel offers bestPredCost pruneRate) newPath
      bestPredCost pruneRate := by
  rw [offerAllExplore,List.foldl_append]
  rfl

/-- What one offer does to the pathlist. -/
inductive Outcome (parentRel : RelOptInfo) (newPath : Path) (bestPredCost pruneRate : ℚ)
    (pathlist : List Path) : Prop
  | compared (continues : needContinue parentRel newPath bestPredCost pruneRate)
      (result : pathlist = exploreLoop newPath parentRel.pathlist)
  | dropped (dearer : parentRel.bestCost ≤ newPath.totalCost) (filled : parentRel.pathlist ≠ [])
      (result : pathlist = parentRel.pathlist)
  | unchecked (negative : bestPredCost < 0) (filled : parentRel.pathlist ≠ [])
      (result : pathlist = newPath :: parentRel.pathlist)

theorem addPathExplore_outcome (parentRel : RelOptInfo) (newPath : Path)
    (bestPredCost pruneRate : ℚ) :
    Outcome parentRel newPath bestPredCost pruneRate
      (addPathExplore parentRel newPath bestPredCost pruneRate).pathlist := by
  by_cases continues : needContinue parentRel newPath bestPredCost pruneRate
  · exact .compared continues (by simp [addPathExplore,continues])
  have budgeted : unbudgeted parentRel newPath bestPredCost = false := by
    simp only [needContinue,Bool.or_eq_true,not_or,Bool.not_eq_true] at continues
    exact continues.1
  have parts := budgeted
  simp only [unbudgeted,Bool.or_eq_false_iff,decide_eq_false_iff_not,not_lt] at parts
  obtain ⟨⟨predicted,filled⟩,dearer⟩ := parts
  by_cases exceeds : pruned parentRel newPath bestPredCost pruneRate
  · exact .dropped dearer filled (by simp [addPathExplore,continues,exceeds])
  · refine .unchecked ?_ filled (by simp [addPathExplore,continues,exceeds])
    by_contra nonneg
    exact (needContinue_or_pruned parentRel newPath bestPredCost pruneRate (not_lt.mp nonneg)).elim
      continues exceeds

theorem addPathExplore_members (parentRel : RelOptInfo) (newPath path : Path)
    (bestPredCost pruneRate : ℚ)
    (member : path ∈ (addPathExplore parentRel newPath bestPredCost pruneRate).pathlist) :
    path = newPath ∨ path ∈ parentRel.pathlist := by
  cases addPathExplore_outcome parentRel newPath bestPredCost pruneRate with
  | compared _ result => exact mem_offer _ _ _ _ path (result ▸ member)
  | dropped _ _ result => exact .inr (result ▸ member)
  | unchecked _ _ result => exact List.mem_cons.mp (result ▸ member)

/-! The best cost of the relation. -/

structure CheapestSeen (offers : List Path) (rel : RelOptInfo) : Prop where
  attained : ∃ offered ∈ offers, offered.totalCost = rel.bestCost
  least : ∀ offered ∈ offers, rel.bestCost ≤ offered.totalCost

theorem addPathExplore_first (parentRel : RelOptInfo) (newPath : Path) (bestPredCost pruneRate : ℚ)
    (empty : parentRel.pathlist = []) :
    CheapestSeen [newPath] (addPathExplore parentRel newPath bestPredCost pruneRate) := by
  constructor
  · exact ⟨newPath,by simp,by simp [addPathExplore,empty]⟩
  · simp [addPathExplore,empty]

theorem addPathExplore_cheapest (parentRel : RelOptInfo) (newPath : Path)
    (bestPredCost pruneRate : ℚ) (offers : List Path) (filled : parentRel.pathlist ≠ [])
    (seen : CheapestSeen offers parentRel) :
    CheapestSeen (offers ++ [newPath])
      (addPathExplore parentRel newPath bestPredCost pruneRate) := by
  obtain ⟨⟨offered,member,attained⟩,least⟩ := seen
  by_cases cheaper : newPath.totalCost < parentRel.bestCost
  · have best : (addPathExplore parentRel newPath bestPredCost pruneRate).bestCost =
      newPath.totalCost := by
      simp [addPathExplore,cheaper]
    refine ⟨⟨newPath,by simp,best.symm⟩,?_⟩
    intro other among
    rw [best]
    rcases List.mem_append.mp among with earlier | last
    · exact cheaper.le.trans (least other earlier)
    · rw [List.mem_singleton.mp last]
  · have best : (addPathExplore parentRel newPath bestPredCost pruneRate).bestCost =
      parentRel.bestCost := by
      simp [addPathExplore,cheaper,filled]
    refine ⟨⟨offered,by simp [member],attained.trans best.symm⟩,?_⟩
    intro other among
    rw [best]
    rcases List.mem_append.mp among with earlier | last
    · exact least other earlier
    · rw [List.mem_singleton.mp last]
      exact not_lt.mp cheaper

section Run

variable (parentRel : RelOptInfo) (bestPredCost pruneRate : ℚ)

theorem offerAllExplore_ne_nil (offers : List Path) (offered : offers ≠ []) :
    (offerAllExplore parentRel offers bestPredCost pruneRate).pathlist ≠ [] := by
  obtain ⟨earlier,last,rfl⟩ := List.eq_nil_or_concat offers |>.resolve_left offered
  rw [List.concat_eq_append,offerAllExplore_append]
  exact addPathExplore_ne_nil _ _ _ _

theorem offerAllExplore_cheapest (offers : List Path) (empty : parentRel.pathlist = [])
    (offered : offers ≠ []) :
    CheapestSeen offers (offerAllExplore parentRel offers bestPredCost pruneRate) := by
  induction offers using List.reverseRecOn with
  | nil => exact absurd rfl offered
  | append_singleton earlier newPath ih =>
    rw [offerAllExplore_append]
    by_cases first : earlier = []
    · subst first
      exact addPathExplore_first _ _ _ _ empty
    · exact addPathExplore_cheapest _ _ _ _ _
        (offerAllExplore_ne_nil _ _ _ earlier first) (ih first)

/-- With a prediction an offer is either compared with the paths that are kept, or dropped. -/
theorem offerAllExplore_induction (motive : List Path → List Path → Prop)
    (empty : parentRel.pathlist = []) (predicted : 0 ≤ bestPredCost) (start : motive [] [])
    (compared : ∀ earlier kept newPath, motive earlier kept →
      motive (earlier ++ [newPath]) (exploreLoop newPath kept))
    (dropped : ∀ earlier kept newPath, motive earlier kept → motive (earlier ++ [newPath]) kept)
    (offers : List Path) :
    motive offers (offerAllExplore parentRel offers bestPredCost pruneRate).pathlist := by
  induction offers using List.reverseRecOn with
  | nil =>
    change motive [] parentRel.pathlist
    rw [empty]
    exact start
  | append_singleton earlier newPath ih =>
    rw [offerAllExplore_append]
    cases addPathExplore_outcome (offerAllExplore parentRel earlier bestPredCost pruneRate)
      newPath bestPredCost
        pruneRate with
    | compared _ result =>
      rw [result]
      exact compared _ _ newPath ih
    | dropped _ _ result =>
      rw [result]
      exact dropped _ _ newPath ih
    | unchecked negative _ _ => exact absurd predicted (not_le.mpr negative)

theorem offerAllExplore_sorted (offers : List Path) (empty : parentRel.pathlist = [])
    (predicted : 0 ≤ bestPredCost) :
    (offerAllExplore parentRel offers bestPredCost pruneRate).pathlist.Pairwise
      fun earlier later => earlier.totalCost ≤ later.totalCost := by
  refine offerAllExplore_induction parentRel bestPredCost pruneRate
    (fun _ kept => kept.Pairwise fun earlier later => earlier.totalCost ≤ later.totalCost) empty
    predicted .nil ?_ ?_ offers
  · intro _ _ newPath sorted
    exact offer_sorted Path.totalCost _ newPath _ sorted
  · intro _ _ _ sorted
    exact sorted

theorem offerAllExplore_kept (offers : List Path) (empty : parentRel.pathlist = [])
    (predicted : 0 ≤ bestPredCost) :
    KeptFrom addPathExploreVerdict offers
      (offerAllExplore parentRel offers bestPredCost pruneRate).pathlist := by
  refine offerAllExplore_induction parentRel bestPredCost pruneRate
    (KeptFrom addPathExploreVerdict) empty predicted ⟨[],List.Sublist.refl _,List.Perm.refl _,
    .nil⟩ ?_ ?_ offers
  · intro _ _ newPath kept
    exact keptFrom_offer _ _ _ _ newPath kept
  · intro _ _ newPath kept
    exact keptFrom_subset _ _ _ _ newPath (List.Sublist.refl _) kept

/-- The path undercut every offer made before it. -/
def UndercutEarlier (offers : List Path) (path : Path) : Prop :=
  ∃ before after, offers = before ++ path :: after ∧ ∀ earlier ∈ before, path.totalCost <
    earlier.totalCost

theorem UndercutEarlier.append (offers : List Path) (path newPath : Path)
    (undercut : UndercutEarlier offers path) :
    UndercutEarlier (offers ++ [newPath]) path := by
  obtain ⟨before,after,rfl,cheaper⟩ := undercut
  exact ⟨before,after ++ [newPath],by simp,cheaper⟩

theorem needContinue_budget (offers : List Path) (rel : RelOptInfo) (newPath : Path)
    (positive : 0 < bestPredCost) (started : rel.pathlist = [] → offers = [])
    (least : ∀ offered ∈ offers, rel.bestCost ≤ offered.totalCost)
    (continues : needContinue rel newPath bestPredCost pruneRate) :
    newPath.totalCost ≤ bestPredCost * pruneRate ∨
      UndercutEarlier (offers ++ [newPath]) newPath := by
  simp only [needContinue,unbudgeted,Bool.or_eq_true,Bool.and_eq_true,
    decide_eq_true_eq] at continues
  rcases continues with ((zero | first) | cheaper) | ⟨_,within⟩
  · exact absurd zero positive.ne'
  · exact .inr ⟨offers,[],rfl,by simp [started first]⟩
  · exact .inr ⟨offers,[],rfl,fun earlier member => lt_of_lt_of_le cheaper (least earlier member)⟩
  · exact .inl within

theorem offerAllExplore_budget (offers : List Path) (empty : parentRel.pathlist = [])
    (positive : 0 < bestPredCost) :
    ∀ path ∈ (offerAllExplore parentRel offers bestPredCost pruneRate).pathlist,
      path.totalCost ≤ bestPredCost * pruneRate ∨ UndercutEarlier offers path := by
  induction offers using List.reverseRecOn with
  | nil =>
    intro path member
    change path ∈ parentRel.pathlist at member
    simp [empty] at member
  | append_singleton earlier newPath ih =>
    have old : ∀ path ∈ (offerAllExplore parentRel earlier bestPredCost pruneRate).pathlist,
        path.totalCost ≤ bestPredCost * pruneRate ∨
        UndercutEarlier (earlier ++ [newPath]) path := by
      intro path member
      exact (ih path member).imp_right (UndercutEarlier.append _ _ _)
    have started : (offerAllExplore parentRel earlier bestPredCost pruneRate).pathlist = [] →
      earlier = [] := by
      intro none
      by_contra some_offer
      exact offerAllExplore_ne_nil _ _ _ earlier some_offer none
    have least : ∀ offered ∈ earlier,
        (offerAllExplore parentRel earlier bestPredCost pruneRate).bestCost ≤
        offered.totalCost := by
      intro offered member
      exact (offerAllExplore_cheapest _ _ _ earlier empty (List.ne_nil_of_mem member)).least offered
        member
    intro path member
    rw [offerAllExplore_append] at member
    cases addPathExplore_outcome (offerAllExplore parentRel earlier bestPredCost pruneRate)
      newPath bestPredCost
        pruneRate with
    | compared continues result =>
      rw [result] at member
      rcases mem_offer _ _ _ _ path member with rfl | before
      · exact needContinue_budget _ _ earlier _ path positive started least continues
      · exact old path before
    | dropped _ _ result => exact old path (result ▸ member)
    | unchecked negative _ _ => exact absurd positive (not_lt.mpr negative.le)

end Run

/-- The pathlist of a relation that was empty before the offers. -/
structure PathlistInvariant (bestPredCost pruneRate : ℚ) (offers : List Path)
    (rel : RelOptInfo) : Prop where
  nonempty : rel.pathlist ≠ []
  sorted : rel.pathlist.Pairwise fun earlier later => earlier.totalCost ≤ later.totalCost
  kept : KeptFrom addPathExploreVerdict offers rel.pathlist
  distinct : offers.Nodup ∨ (∀ path ∈ offers, path.Nonneg) → rel.pathlist.Nodup
  inListOrder : (∀ path ∈ offers, path.Nonneg) →
    rel.pathlist.Pairwise fun earlier later => addPathExploreVerdict later earlier = .keepBoth
  cheapest : CheapestSeen offers rel
  budget : 0 < bestPredCost → ∀ path ∈ rel.pathlist,
    path.totalCost ≤ bestPredCost * pruneRate ∨ UndercutEarlier offers path

theorem offerAllExplore_distinct (offers : List Path) (rel : RelOptInfo)
    (kept : KeptFrom addPathExploreVerdict offers rel.pathlist)
    (either : offers.Nodup ∨ ∀ path ∈ offers, path.Nonneg) : rel.pathlist.Nodup := by
  rcases either with distinct | nonneg
  · exact keptFrom_nodup _ _ _ kept distinct
  · apply keptFrom_irrefl_nodup _ _ _ kept
    intro path member
    simp [addPathExploreVerdict_self path (nonneg path member)]

theorem offerAllExplore_inListOrder (offers : List Path) (rel : RelOptInfo)
    (kept : KeptFrom addPathExploreVerdict offers rel.pathlist)
    (nonneg : ∀ path ∈ offers, path.Nonneg) :
    rel.pathlist.Pairwise fun earlier later => addPathExploreVerdict later earlier = .keepBoth := by
  obtain ⟨list,among,same,separate⟩ := kept
  have both : list.Pairwise fun earlier later =>
      addPathExploreVerdict later earlier = .keepBoth ∧
        addPathExploreVerdict earlier later = .keepBoth := by
    refine separate.imp_of_mem ?_
    intro earlier later member _ keeps
    exact ⟨keeps,addPathExploreVerdict_keeps_symm later earlier
      (nonneg earlier (among.subset member)) keeps⟩
  exact ((same.pairwise_iff fun pair => ⟨pair.2,pair.1⟩).mpr both).imp And.left

theorem addPathExplore_invariant (parentRel : RelOptInfo) (offers : List Path)
    (bestPredCost pruneRate : ℚ) (empty : parentRel.pathlist = []) (predicted : 0 ≤ bestPredCost)
    (offered : offers ≠ []) :
    PathlistInvariant bestPredCost pruneRate offers
      (offerAllExplore parentRel offers bestPredCost pruneRate) := by
  have kept := offerAllExplore_kept parentRel bestPredCost pruneRate offers empty predicted
  exact
    { nonempty := offerAllExplore_ne_nil parentRel bestPredCost pruneRate offers offered
      sorted := offerAllExplore_sorted parentRel bestPredCost pruneRate offers empty predicted
      kept := kept
      distinct := offerAllExplore_distinct offers _ kept
      inListOrder := offerAllExplore_inListOrder offers _ kept
      cheapest := offerAllExplore_cheapest parentRel bestPredCost pruneRate offers empty offered
      budget := offerAllExplore_budget parentRel bestPredCost pruneRate offers empty }

theorem addPathExplore_invariant_three :
    PathlistInvariant 100 (101/100)
      [seqScan (baseRel 1 0) 1 0 200 0,seqScan (baseRel 1 0) 2 0 100 0,
      seqScan (baseRel 1 0) 3 0 150 1] (offerAllExplore (RelOptInfo.ofPaths (baseRel 1 0) [])
        [seqScan (baseRel 1 0) 1 0 200 0,seqScan (baseRel 1 0) 2 0 100 0,
        seqScan (baseRel 1 0) 3 0 150 1] 100 (101/100)) :=
  addPathExplore_invariant _ _ _ _ rfl (by norm_num) (by simp)

/-! The distance from the cheapest offer. -/

theorem comparePathCostsFuzzily_dearer (path1 path2 : Path) (fuzzFactor : ℚ)
    (dearer : path1.totalCost > path2.totalCost * fuzzFactor) :
    comparePathCostsFuzzily path1 path2 fuzzFactor = .costsBetter2 ∨
      comparePathCostsFuzzily path1 path2 fuzzFactor = .costsDifferent := by
  unfold comparePathCostsFuzzily
  simp only [dearer,if_true]
  split_ifs
  · exact .inr rfl
  · exact .inl rfl

theorem addPathExploreVerdict_removes_costs (newPath oldPath : Path)
    (removed : addPathExploreVerdict newPath oldPath = .removeOld) :
    newPath.totalCost ≤ stdFuzzFactor * oldPath.totalCost := by
  by_contra exceeds
  rw [not_le,mul_comm] at exceeds
  unfold addPathExploreVerdict at removed
  dsimp only at removed
  split at removed
  · cases removed
  · rcases comparePathCostsFuzzily_dearer newPath oldPath stdFuzzFactor
      exceeds with worse | different
    · rw [worse] at removed
      dsimp only at removed
      split at removed
      · cases removed
      · cases removed
    · rw [different] at removed
      cases removed

theorem addPathExploreVerdict_rejects_costs (newPath oldPath : Path)
    (nonneg : 0 ≤ newPath.totalCost) (_ : 0 ≤ oldPath.totalCost)
    (rejected : addPathExploreVerdict newPath oldPath = .rejectNew) :
    oldPath.totalCost ≤ stdFuzzFactor * newPath.totalCost := by
  have widening : (1 : ℚ) ≤ stdFuzzFactor := by norm_num [stdFuzzFactor]
  by_contra exceeds
  rw [not_le,mul_comm] at exceeds
  have cheaper := exceeds_asymm _ _ _ nonneg widening exceeds
  have costs : comparePathCostsFuzzily newPath oldPath stdFuzzFactor = .costsBetter1 ∨
      comparePathCostsFuzzily newPath oldPath stdFuzzFactor = .costsDifferent := by
    unfold comparePathCostsFuzzily
    rw [if_neg cheaper,if_pos exceeds]
    split_ifs
    · exact .inr rfl
    · exact .inl rfl
  unfold addPathExploreVerdict at rejected
  dsimp only at rejected
  split at rejected
  · cases rejected
  · rcases costs with better | different
    · rw [better] at rejected
      dsimp only at rejected
      split at rejected
      · cases rejected
      · cases rejected
    · rw [different] at rejected
      cases rejected

theorem addPathExploreVerdict_respects :
    Respects stdFuzzFactor Path.totalCost addPathExploreVerdict fun path => 0 ≤ path.totalCost where
  widening := by norm_num [stdFuzzFactor]
  nonneg := fun _ nonneg => nonneg
  removes := fun newPath oldPath _ _ => addPathExploreVerdict_removes_costs newPath oldPath
  rejects := addPathExploreVerdict_rejects_costs

theorem offerAllExplore_members (parentRel : RelOptInfo) (offers : List Path)
    (bestPredCost pruneRate : ℚ) (empty : parentRel.pathlist = []) :
    ∀ path ∈ (offerAllExplore parentRel offers bestPredCost pruneRate).pathlist, path ∈ offers := by
  induction offers using List.reverseRecOn with
  | nil =>
    intro path member
    change path ∈ parentRel.pathlist at member
    simp [empty] at member
  | append_singleton earlier newPath ih =>
    intro path member
    rw [offerAllExplore_append] at member
    rcases addPathExplore_members _ _ _ _ _ member with rfl | before
    · simp
    · simp [ih path before]

/-- Fuzz factors that a sequence of offers may lose: one for each offer that removes kept paths, and
another if that offer is not kept itself. -/
def lostFactors (bestPredCost pruneRate : ℚ) (rel : RelOptInfo) : List Path → Nat
  | [] => 0
  | newPath :: later =>
    let next := addPathExplore rel newPath bestPredCost pruneRate
    loss rel.pathlist next.pathlist newPath + lostFactors bestPredCost pruneRate next later

theorem lostFactors_append (bestPredCost pruneRate : ℚ) (parentRel : RelOptInfo)
    (offers : List Path) (newPath : Path) :
    let rel := offerAllExplore parentRel offers bestPredCost pruneRate
    lostFactors bestPredCost pruneRate parentRel (offers ++ [newPath]) =
      lostFactors bestPredCost pruneRate parentRel offers +
        loss rel.pathlist (addPathExplore rel newPath bestPredCost pruneRate).pathlist newPath := by
  induction offers generalizing parentRel with
  | nil => exact Nat.add_comm ..
  | cons first offers ih =>
    have rest := ih (addPathExplore parentRel first bestPredCost pruneRate)
    dsimp only at rest ⊢
    rw [List.cons_append,lostFactors,rest,← Nat.add_assoc]
    rfl

def considering (considerStartup : Bool) : RelCore :=
  {baseRel 1 0 with considerStartup := considerStartup}

/-- Three paths alike but for their costs: each undercuts the one before it on startup cost and
exceeds its total cost by at most the fuzz factor. -/
def startupChain (considerStartup : Bool) : List Path :=
  [seqScan (considering considerStartup) 1 10 100 0,seqScan (considering considerStartup) 2 9 101 0,
    seqScan (considering considerStartup) 3 8 102 0]

/-- The last path removes the first one and is rejected by the second one, so that two factors are
lost, and the third path, which was never kept, costs another. -/
def rejectedRemover : List Path :=
  [seqScan (considering true) 1 10 100 0,seqScan (considering true) 2 5 (1015/10) 0,
    seqScan (considering true) 3 11 (992/10) 0,seqScan (considering true) 4 9 (1009/10) 0]

end ExploratoryOptimizer.Offers
