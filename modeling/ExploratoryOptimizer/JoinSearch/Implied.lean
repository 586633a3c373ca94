import ExploratoryOptimizer.JoinSearch.Eclass

/-! What the equivalence classes ask for at a join. A class is dealt with once. If it lacks an
operator it is broken from then on and its sources are asked for; otherwise its members are
equated. -/
namespace ExploratoryOptimizer.JoinSearch

section Origin

variable (root : PlannerInfo) (ec : EquivalenceClass)

/-- The clause is an operator that compares the two members. -/
def RestrictInfo.equates (rinfo : RestrictInfo) (left right : EquivalenceMember) : Prop :=
  rinfo.leftEm = some left ∧ rinfo.rightEm = some right ∧ ∃ opno, rinfo.clause = .opExpr opno

theorem createJoinClause_equates (opno : Nat) (leftem rightem : EquivalenceMember)
    (parentEc : Option Nat) (state : EclassState) :
    (createJoinClause ec opno leftem rightem parentEc state).1.equates leftem rightem := by
  unfold createJoinClause
  split
  next rinfo found =>
    have compares : rinfo.compares opno leftem rightem parentEc := by
      simpa using List.find?_some found
    exact ⟨compares.1,compares.2.1,opno,compares.2.2.2⟩
  next => exact ⟨rfl,rfl,opno,rfl⟩

theorem createJoinClause_broken (opno : Nat) (leftem rightem : EquivalenceMember)
    (parentEc : Option Nat) (state : EclassState) :
    (createJoinClause ec opno leftem rightem parentEc state).2.broken = state.broken := by
  unfold createJoinClause
  split
  · rfl
  · rfl

/-- The pair is one of an outer and an inner member. -/
theorem scanInner_mem (outerEm : EquivalenceMember) (inners : List EquivalenceMember)
    (start : Option BestPair) (P : BestPair → Prop) (begun : ∀ best ∈ start, P best)
    (each : ∀ innerEm ∈ inners, ∀ eqOp score, P ⟨outerEm,innerEm,eqOp,score⟩) :
    ∀ best ∈ scanInner root ec outerEm inners start, P best := by
  induction inners generalizing start with
  | nil => exact begun
  | cons innerEm rest ih =>
    have later : ∀ innerEm ∈ rest, ∀ eqOp score, P ⟨outerEm,innerEm,eqOp,score⟩ :=
      fun innerEm member => each innerEm (List.mem_cons_of_mem _ member)
    have here : ∀ eqOp score, ∀ best ∈ some (BestPair.mk outerEm innerEm eqOp score), P best := by
      intro eqOp score best chosen
      cases chosen
      exact each innerEm (List.mem_cons_self ..) eqOp score
    unfold scanInner
    split
    · exact ih start begun later
    · simp only
      split
      · split
        · exact here _ _
        · exact ih _ (here _ _) later
      · exact ih start begun later

theorem scanOuter_mem (inners outers : List EquivalenceMember) (start : Option BestPair)
    (P : BestPair → Prop) (begun : ∀ best ∈ start, P best)
    (each : ∀ outerEm ∈ outers, ∀ innerEm ∈ inners, ∀ eqOp score, P ⟨outerEm,innerEm,eqOp,score⟩) :
    ∀ best ∈ scanOuter root ec inners outers start, P best := by
  induction outers generalizing start with
  | nil => exact begun
  | cons outerEm rest ih =>
    have scanned :=
      scanInner_mem root ec outerEm inners start P begun (each outerEm (List.mem_cons_self ..))
    unfold scanOuter
    simp only
    split
    · exact scanned
    · exact ih _ scanned fun outerEm member => each outerEm (List.mem_cons_of_mem _ member)

/-- The class lacked an operator and is broken, or clauses with these facts were built. -/
inductive Attempted (state : EclassState) (facts : List RestrictInfo → Prop) :
    Option (List RestrictInfo) × EclassState → Prop
  | broken (next : EclassState) (marked : next.broken = ec.address :: state.broken) :
    Attempted state facts (none,next)
  | built (rinfos : List RestrictInfo) (next : EclassState) (kept : next.broken = state.broken)
      (known : facts rinfos) :
      Attempted state facts (some rinfos,next)

/-- The clause of the two sides compares an outer member with an inner one. -/
def sidesEquated (outers inners : List EquivalenceMember) (rinfos : List RestrictInfo) : Prop :=
  (outers = [] ∨ inners = []) ∧ rinfos = [] ∨
    ∃ outerEm ∈ outers, ∃ innerEm ∈ inners, ∃ rinfo, rinfos = [rinfo] ∧
    rinfo.equates outerEm innerEm

/-- The clauses of a chain compare neighbours, and all of them. -/
def chainEquated (members : List EquivalenceMember) (rinfos : List RestrictInfo) : Prop :=
  (∀ rinfo ∈ rinfos, ∃ left right, [left,right] <:+: members ∧ rinfo.equates left right) ∧
    members.IsChain fun left right => ∃ rinfo ∈ rinfos, rinfo.equates left right

/-- What a class that is not broken asks for at a join. -/
def classEquated (joinRelids outerRelids innerRelids : Relids)
    (rinfos : List RestrictInfo) : Prop :=
  ∃ sides added, rinfos = sides ++ added ∧
    sidesEquated (outerMembers ec joinRelids outerRelids)
    (innerMembers ec joinRelids outerRelids innerRelids) sides ∧
    chainEquated (if newMembers ec joinRelids outerRelids innerRelids = [] then [] else
      newMembers ec joinRelids outerRelids innerRelids ++
        (outerMembers ec joinRelids outerRelids ++ innerMembers ec joinRelids outerRelids
          innerRelids).head?.toList) added

theorem equateSides_attempted (outers inners : List EquivalenceMember) (state : EclassState) :
    Attempted ec state (sidesEquated outers inners) (equateSides root ec outers inners state) := by
  unfold equateSides
  split
  next both =>
    split
    · exact .broken _ rfl
    next best chosen =>
      have sides := scanOuter_mem root ec inners outers none
        (fun best => best.outerEm ∈ outers ∧ best.innerEm ∈ inners) (by simp)
        (fun outerEm outer innerEm inner _ _ => ⟨outer,inner⟩) best chosen
      refine .built _ _ (createJoinClause_broken ec best.eqOp best.outerEm best.innerEm _ state)
        (.inr ⟨best.outerEm,sides.1,best.innerEm,sides.2,_,rfl,?_⟩)
      exact createJoinClause_equates ec best.eqOp best.outerEm best.innerEm (some ec.address) state
  next one =>
    refine .built _ _ rfl (.inl ⟨?_,rfl⟩)
    by_contra neither
    exact one (not_or.mp neither)

theorem chainEquated_cons (prevEm curEm : EquivalenceMember) (rest : List EquivalenceMember)
    (made : RestrictInfo) (later : List RestrictInfo) (equates : made.equates prevEm curEm)
    (chained : chainEquated (curEm :: rest) later) :
    chainEquated (prevEm :: curEm :: rest) (made :: later) := by
  refine ⟨fun rinfo member => ?_,.cons_cons ⟨made,List.mem_cons_self ..,equates⟩ ?_⟩
  · rcases List.mem_cons.mp member with rfl | among
    · exact ⟨prevEm,curEm,⟨[],rest,rfl⟩,equates⟩
    · obtain ⟨left,right,inside,sides⟩ := chained.1 rinfo among
      exact ⟨left,right,inside.trans (List.suffix_cons ..).isInfix,sides⟩
  · exact chained.2.imp fun left right ⟨rinfo,among,sides⟩ =>
      ⟨rinfo,List.mem_cons_of_mem _ among,sides⟩

theorem equateChain_attempted (members : List EquivalenceMember) (state : EclassState) :
    Attempted ec state (chainEquated members) (equateChain root ec members state) := by
  induction members generalizing state with
  | nil => exact .built [] state rfl ⟨by simp,.nil⟩
  | cons prevEm rest ih =>
    cases rest with
    | nil => exact .built [] state rfl ⟨by simp,.singleton prevEm⟩
    | cons curEm rest =>
      unfold equateChain
      split
      · exact .broken _ rfl
      next eqOp _ =>
        have equates := createJoinClause_equates ec eqOp prevEm curEm none state
        have kept := createJoinClause_broken ec eqOp prevEm curEm none state
        have rest := ih (createJoinClause ec eqOp prevEm curEm none state).2
        dsimp only
        generalize equateChain root ec (curEm :: _)
          (createJoinClause ec eqOp prevEm curEm none state).2 = outcome at rest
        cases rest with
        | broken next marked => exact .broken next (by rw [marked,kept])
        | built later next same chained =>
          exact .built _ next (by rw [same,kept])
            (chainEquated_cons prevEm curEm _ _ later equates chained)

theorem equateNew_attempted (news olds : List EquivalenceMember) (state : EclassState) :
    Attempted ec state (chainEquated (if news = [] then [] else news ++ olds.head?.toList))
      (equateNew root ec news olds state) := by
  unfold equateNew
  by_cases none : news = []
  · rw [if_neg (not_not.mpr none),if_pos none]
    exact .built [] state rfl ⟨by simp,.nil⟩
  · rw [if_pos none,if_neg none]
    exact equateChain_attempted root ec _ state

theorem generateNormal_attempted (joinRelids outerRelids innerRelids : Relids)
    (state : EclassState) :
    Attempted ec state (classEquated ec joinRelids outerRelids innerRelids)
      (generateJoinImpliedEqualitiesNormal root ec joinRelids outerRelids innerRelids state) := by
  unfold generateJoinImpliedEqualitiesNormal
  dsimp only
  have first := equateSides_attempted root ec (outerMembers ec joinRelids outerRelids)
    (innerMembers ec joinRelids outerRelids innerRelids) state
  generalize equateSides root ec (outerMembers ec joinRelids outerRelids)
    (innerMembers ec joinRelids outerRelids innerRelids) state = outcome at first
  cases first with
  | broken next marked => exact .broken next marked
  | built sides middle kept sidesKnown =>
    have second := equateNew_attempted root ec (newMembers ec joinRelids outerRelids innerRelids)
      (outerMembers ec joinRelids outerRelids ++ innerMembers ec joinRelids outerRelids innerRelids)
      middle
    dsimp only
    generalize equateNew root ec (newMembers ec joinRelids outerRelids innerRelids)
      (outerMembers ec joinRelids outerRelids ++ innerMembers ec joinRelids outerRelids innerRelids)
      middle = added at second
    cases second with
    | broken next marked => exact .broken next (by rw [marked,kept])
    | built added next same chained =>
      exact .built _ next (by rw [same,kept]) ⟨sides,added,rfl,sidesKnown,chained⟩

/-- What becomes of a class at a join. -/
inductive Enforced (joinRelids outerRelids innerRelids : Relids) (state : EclassState) :
    List RestrictInfo × EclassState → Prop
  | away (unneeded : ¬ec.enforcedAt joinRelids) :
    Enforced joinRelids outerRelids innerRelids state ([],state)
  | sources (needed : ec.enforcedAt joinRelids) (next : EclassState) (marked : next.isBroken ec)
      (grown : next.broken = state.broken ∨ next.broken = ec.address :: state.broken) :
      Enforced joinRelids outerRelids innerRelids state
        (generateJoinImpliedEqualitiesBroken ec joinRelids outerRelids innerRelids,next)
  | members (needed : ec.enforcedAt joinRelids) (sound : ¬state.isBroken ec) (next : EclassState)
      (kept : next.broken = state.broken) (rinfos : List RestrictInfo)
      (equated : classEquated ec joinRelids outerRelids innerRelids rinfos) :
      Enforced joinRelids outerRelids innerRelids state (rinfos,next)

theorem generateForClass_enforced (joinRelids outerRelids innerRelids : Relids)
    (state : EclassState) :
    Enforced ec joinRelids outerRelids innerRelids state
      (generateForClass root joinRelids outerRelids innerRelids ec state) := by
  unfold generateForClass
  split
  next needed =>
    split
    next marked => exact .sources needed state marked (.inl rfl)
    next sound =>
      have attempted := generateNormal_attempted root ec joinRelids outerRelids innerRelids state
      generalize generateJoinImpliedEqualitiesNormal root ec joinRelids outerRelids innerRelids
        state = outcome at attempted
      cases attempted with
      | broken next marked =>
        refine .sources needed next ?_ (.inr marked)
        rw [EclassState.isBroken,marked]
        exact List.mem_cons_self ..
      | built rinfos next kept equated => exact .members needed sound next kept rinfos equated
  next unneeded => exact .away unneeded

theorem generateForClass_broken (joinRelids outerRelids innerRelids : Relids)
    (state : EclassState) :
    (generateForClass root joinRelids outerRelids innerRelids ec state).2.broken = state.broken ∨
      (generateForClass root joinRelids outerRelids innerRelids ec state).2.broken =
      ec.address :: state.broken := by
  have enforced := generateForClass_enforced root ec joinRelids outerRelids innerRelids state
  generalize generateForClass root joinRelids outerRelids innerRelids ec state = outcome at enforced
  cases enforced with
  | away => exact .inl rfl
  | sources _ next _ grown => exact grown
  | members _ _ next kept => exact .inl kept

/-- A clause that the class may ask for: it compares two members that the join can compute, or is a
source that it covers. -/
def EquivalenceClass.asks (joinRelids : Relids) (rinfo : RestrictInfo) : Prop :=
  (∃ left ∈ ec.ecMembers, ∃ right ∈ ec.ecMembers, left.emRelids ⊆ joinRelids ∧
      right.emRelids ⊆ joinRelids ∧
      (ec.ecMembers.Nodup → left ≠ right) ∧ rinfo.equates left right) ∨
    rinfo ∈ ec.ecSources ∧ rinfo.requiredRelids ⊆ joinRelids

theorem mem_outerMembers (joinRelids outerRelids : Relids) (em : EquivalenceMember) :
    em ∈ outerMembers ec joinRelids outerRelids ↔
      em ∈ ec.ecMembers ∧ em.emRelids ⊆ joinRelids ∧ em.emRelids ⊆ outerRelids := by
  simp [outerMembers]

theorem mem_innerMembers (joinRelids outerRelids innerRelids : Relids) (em : EquivalenceMember) :
    em ∈ innerMembers ec joinRelids outerRelids innerRelids ↔ em ∈ ec.ecMembers ∧
      em.emRelids ⊆ joinRelids ∧ ¬em.emRelids ⊆ outerRelids ∧ em.emRelids ⊆ innerRelids := by
  simp [innerMembers]

theorem mem_newMembers (joinRelids outerRelids innerRelids : Relids) (em : EquivalenceMember) :
    em ∈ newMembers ec joinRelids outerRelids innerRelids ↔ em ∈ ec.ecMembers ∧
      em.emRelids ⊆ joinRelids ∧ ¬em.emRelids ⊆ outerRelids ∧ ¬em.emRelids ⊆ innerRelids := by
  simp [newMembers]

/-- The members of a chain are new ones and an old one behind them. -/
theorem chain_members (joinRelids outerRelids innerRelids : Relids) (em : EquivalenceMember)
    (member : em ∈ newMembers ec joinRelids outerRelids innerRelids ++
      (outerMembers ec joinRelids outerRelids ++ innerMembers ec joinRelids outerRelids
        innerRelids).head?.toList) :
    em ∈ ec.ecMembers ∧ em.emRelids ⊆ joinRelids := by
  rcases List.mem_append.mp member with new | first
  · have facts := (mem_newMembers ec _ _ _ em).mp new
    exact ⟨facts.1,facts.2.1⟩
  · have old := List.mem_of_head? (Option.mem_toList.mp first)
    rcases List.mem_append.mp old with outer | inner
    · have facts := (mem_outerMembers ec _ _ em).mp outer
      exact ⟨facts.1,facts.2.1⟩
    · have facts := (mem_innerMembers ec _ _ _ em).mp inner
      exact ⟨facts.1,facts.2.1⟩

theorem chain_nodup (joinRelids outerRelids innerRelids : Relids) (distinct : ec.ecMembers.Nodup) :
    (newMembers ec joinRelids outerRelids innerRelids ++
      (outerMembers ec joinRelids outerRelids ++ innerMembers ec joinRelids outerRelids
        innerRelids).head?.toList).Nodup := by
  refine List.nodup_append.mpr ⟨distinct.filter _,?_,?_⟩
  · cases (outerMembers ec joinRelids outerRelids ++ innerMembers ec joinRelids outerRelids
        innerRelids).head? with
    | none => exact List.nodup_nil
    | some first => exact List.nodup_singleton first
  · rintro new newIn old oldIn rfl
    have facts := (mem_newMembers ec _ _ _ new).mp newIn
    rcases List.mem_append.mp (List.mem_of_head? (Option.mem_toList.mp oldIn)) with outer | inner
    · exact facts.2.2.1 ((mem_outerMembers ec _ _ new).mp outer).2.2
    · exact facts.2.2.2 ((mem_innerMembers ec _ _ _ new).mp inner).2.2.2

theorem classEquated_asks (joinRelids outerRelids innerRelids : Relids) (rinfos : List RestrictInfo)
    (equated : classEquated ec joinRelids outerRelids innerRelids rinfos) :
    ∀ rinfo ∈ rinfos, ec.asks joinRelids rinfo := by
  obtain ⟨sides,added,rfl,sidesKnown,chained⟩ := equated
  intro rinfo member
  rcases List.mem_append.mp member with side | new
  · rcases sidesKnown with ⟨_,rfl⟩ | ⟨outerEm,outer,innerEm,inner,made,rfl,equates⟩
    · cases side
    · obtain rfl := List.mem_singleton.mp side
      have outerFacts := (mem_outerMembers ec _ _ outerEm).mp outer
      have innerFacts := (mem_innerMembers ec _ _ _ innerEm).mp inner
      refine .inl ⟨outerEm,outerFacts.1,innerEm,innerFacts.1,outerFacts.2.1,innerFacts.2.1,
        fun _ same => ?_,equates⟩
      exact innerFacts.2.2.1 (same ▸ outerFacts.2.2)
  · obtain ⟨left,right,inside,equates⟩ := chained.1 rinfo new
    split at inside
    · have short := inside.length_le
      simp at short
    · have leftIn :=
        chain_members ec joinRelids outerRelids innerRelids left (inside.subset (by simp))
      have rightIn :=
        chain_members ec joinRelids outerRelids innerRelids right (inside.subset (by simp))
      refine .inl ⟨left,leftIn.1,right,rightIn.1,leftIn.2,rightIn.2,fun distinct => ?_,equates⟩
      have pair :=
        (chain_nodup ec joinRelids outerRelids innerRelids distinct).sublist inside.sublist
      simpa using pair

theorem generateForClass_asks (joinRelids outerRelids innerRelids : Relids) (state : EclassState) :
    ∀ rinfo ∈ (generateForClass root joinRelids outerRelids innerRelids ec state).1,
      ec.enforcedAt joinRelids ∧ ec.asks joinRelids rinfo := by
  have enforced := generateForClass_enforced root ec joinRelids outerRelids innerRelids state
  generalize generateForClass root joinRelids outerRelids innerRelids ec state = outcome at enforced
  intro rinfo member
  cases enforced with
  | away => cases member
  | sources needed =>
    have facts := List.mem_filter.mp member
    exact ⟨needed,.inr ⟨facts.1,(of_decide_eq_true facts.2).1⟩⟩
  | members needed _ _ _ rinfos equated =>
    exact ⟨needed,classEquated_asks ec _ _ _ rinfos equated rinfo member⟩

theorem implied_asks (joinRelids outerRelids innerRelids : Relids) (state : EclassState) :
    ∀ rinfo ∈ (generateJoinImpliedEqualities root joinRelids outerRelids innerRelids state).1,
      ∃ ec ∈ root.eqClasses, ec.enforcedAt joinRelids ∧ ec.asks joinRelids rinfo := by
  unfold generateJoinImpliedEqualities
  generalize root.eqClasses = eclasses
  induction eclasses generalizing state with
  | nil => simp [generateJoinImpliedEqualitiesForEcs]
  | cons ec eclasses ih =>
    intro rinfo member
    rcases List.mem_append.mp member with here | later
    · obtain ⟨enforced,asked⟩ := generateForClass_asks root ec _ _ _ state rinfo here
      exact ⟨ec,List.mem_cons_self ..,enforced,asked⟩
    · obtain ⟨other,among,enforced,asked⟩ := ih _ rinfo later
      exact ⟨other,List.mem_cons_of_mem _ among,enforced,asked⟩

end Origin

section Threaded

variable (root : PlannerInfo) (joinRelids outerRelids innerRelids : Relids)

/-- A class that is not in the list stays as it is. -/
theorem forEcs_other (eclasses : List EquivalenceClass) (ec : EquivalenceClass)
    (other : ∀ member ∈ eclasses, member.address ≠ ec.address) (state : EclassState) :
    (generateJoinImpliedEqualitiesForEcs root joinRelids outerRelids innerRelids eclasses
        state).2.isBroken ec ↔
      state.isBroken ec := by
  induction eclasses generalizing state with
  | nil => exact Iff.rfl
  | cons head rest ih =>
    have different : ec.address ≠ head.address := Ne.symm (other head (List.mem_cons_self ..))
    refine (ih (fun member among => other member (List.mem_cons_of_mem _ among)) _).trans ?_
    unfold EclassState.isBroken
    rcases generateForClass_broken root head joinRelids outerRelids innerRelids
      state with same | grown
    · rw [same]
    · rw [grown,List.mem_cons]
      exact or_iff_right different

/-- Each class is dealt with once, in a state in which it is as it was before. -/
theorem forEcs_each (eclasses : List EquivalenceClass) (distinct : (eclasses.map (·.address)).Nodup)
    (state : EclassState) (ec : EquivalenceClass) (member : ec ∈ eclasses) :
    ∃ middle : EclassState, (middle.isBroken ec ↔ state.isBroken ec) ∧
      (∀ rinfo ∈ (generateForClass root joinRelids outerRelids innerRelids ec middle).1,
        rinfo ∈ (generateJoinImpliedEqualitiesForEcs root joinRelids outerRelids innerRelids
          eclasses state).1) ∧
      ((generateJoinImpliedEqualitiesForEcs root joinRelids outerRelids innerRelids eclasses
          state).2.isBroken ec ↔
        (generateForClass root joinRelids outerRelids innerRelids ec middle).2.isBroken ec) := by
  induction eclasses generalizing state with
  | nil => cases member
  | cons head rest ih =>
    rw [List.map_cons,List.nodup_cons] at distinct
    have away : ∀ other ∈ rest, other.address ≠ head.address := by
      intro other among same
      exact distinct.1 (same ▸ List.mem_map_of_mem among)
    rcases List.mem_cons.mp member with rfl | later
    · exact ⟨state,Iff.rfl,fun rinfo asked => List.mem_append_left _ asked,
        forEcs_other root joinRelids outerRelids innerRelids rest ec away _⟩
    · obtain ⟨middle,same,asked,after⟩ := ih distinct.2
        (generateForClass root joinRelids outerRelids innerRelids head state).2 later
      refine ⟨middle,same.trans ?_,fun rinfo needed => List.mem_append_right _ (asked rinfo needed),
        after⟩
      have before :=
        forEcs_other root joinRelids outerRelids innerRelids [head] ec (fun other among => by
        rw [List.mem_singleton.mp among]
        exact Ne.symm (away ec later)) state
      exact before

/-- A class that the join has to enforce is broken afterwards and its sources are asked for, or it
was not broken before and is not afterwards, and its members are equated. -/
theorem implied_each (distinct : (root.eqClasses.map (·.address)).Nodup) (state : EclassState)
    (ec : EquivalenceClass) (member : ec ∈ root.eqClasses) (needed : ec.enforcedAt joinRelids) :
    let implied := generateJoinImpliedEqualities root joinRelids outerRelids innerRelids state
    (implied.2.isBroken ec ∧
        ∀ rinfo ∈ generateJoinImpliedEqualitiesBroken ec joinRelids outerRelids innerRelids,
        rinfo ∈ implied.1) ∨
      ¬state.isBroken ec ∧ ¬implied.2.isBroken ec ∧
        ∃ rinfos, classEquated ec joinRelids outerRelids innerRelids rinfos ∧ ∀ rinfo ∈ rinfos,
        rinfo ∈ implied.1 := by
  intro implied
  obtain ⟨middle,before,asked,after⟩ :=
    forEcs_each root joinRelids outerRelids innerRelids root.eqClasses distinct state ec member
  have enforced := generateForClass_enforced root ec joinRelids outerRelids innerRelids middle
  change ∀ rinfo ∈ _, rinfo ∈ implied.1 at asked
  change implied.2.isBroken ec ↔ _ at after
  generalize generateForClass root joinRelids outerRelids innerRelids ec middle =
    outcome at enforced asked after
  cases enforced with
  | away unneeded => exact absurd needed unneeded
  | sources _ next marked => exact .inl ⟨after.mpr marked,asked⟩
  | members _ sound next kept rinfos equated =>
    refine .inr ⟨fun broken => sound (before.mpr broken),fun broken => sound ?_,
      rinfos,equated,asked⟩
    have still := after.mp broken
    unfold EclassState.isBroken at still ⊢
    rwa [kept] at still

theorem implied_broken (distinct : (root.eqClasses.map (·.address)).Nodup) (state : EclassState)
    (ec : EquivalenceClass) (member : ec ∈ root.eqClasses) (broken : state.isBroken ec) :
    (generateJoinImpliedEqualities root joinRelids outerRelids innerRelids state).2.isBroken
      ec := by
  obtain ⟨middle,before,_,after⟩ :=
    forEcs_each root joinRelids outerRelids innerRelids root.eqClasses distinct state ec member
  refine after.mpr ?_
  have marked := before.mpr broken
  unfold EclassState.isBroken at marked ⊢
  rcases generateForClass_broken root ec joinRelids outerRelids innerRelids middle with same | grown
  · rwa [same]
  · rw [grown]
    exact List.mem_cons_of_mem _ marked

end Threaded

end ExploratoryOptimizer.JoinSearch
