import ExploratoryOptimizer.JoinPath

/-! What the nested loops over the two explore lists try, in closed form. The unique path is
already cached when a unique-ified join type is offered, so the relations never change; what
changes is the join type, which becomes plain at the first pair tried. -/
namespace ExploratoryOptimizer.JoinPath

def usableOuter (innerrel : RelCore) (outerPath : Path) : Bool := !outerPath.paramByRel innerrel

def usableInner (outerrel : RelCore) (innerPath : Path) : Bool := !innerPath.paramByRel outerrel

def EndsWithOnly (usable : Path → Bool) (paths : List Path) : Prop :=
  (paths.filter usable).length = 1 ∧ paths.getLast?.all usable

instance (usable : Path → Bool) (paths : List Path) : Decidable (EndsWithOnly usable paths) :=
  inferInstanceAs (Decidable (_ ∧ _))

theorem endsWithOnly_cons_usable (usable : Path → Bool) (first : Path) (rest : List Path)
    (ok : usable first) :
    EndsWithOnly usable (first :: rest) ↔ rest = [] := by
  constructor
  · rintro ⟨single,last⟩
    by_contra nonempty
    have none : rest.filter usable = [] := by simpa [ok] using single
    have ending := List.getLast?_eq_some_getLast nonempty
    rw [List.getLast?_cons,ending] at last
    exact List.filter_eq_nil_iff.mp none _ (List.getLast_mem nonempty) (by simpa using last)
  · rintro rfl
    simp [EndsWithOnly,ok]

theorem endsWithOnly_cons_unusable (usable : Path → Bool) (first : Path) (rest : List Path)
    (unusable : ¬usable first) (nonempty : rest ≠ []) :
    EndsWithOnly usable (first :: rest) ↔ EndsWithOnly usable rest := by
  unfold EndsWithOnly
  rw [List.filter_cons_of_neg unusable,List.getLast?_cons,List.getLast?_eq_some_getLast nonempty]
  rfl

theorem filter_tail (usable : Path → Bool) (paths : List Path) (chosen : Path) (others : List Path)
    (shape : paths.filter usable = chosen :: others) :
    others.filter usable = others ∧ ∀ path ∈ others, path ∈ paths := by
  have among : ∀ path ∈ others, path ∈ paths.filter usable := by
    rw [shape]
    exact fun path member => List.mem_cons_of_mem _ member
  exact ⟨List.filter_eq_self.mpr fun path member => (List.mem_filter.mp (among path member)).2,
    fun path member => (List.mem_filter.mp (among path member)).1⟩

def plainTries (outerrel innerrel : RelCore) (outerkeys : List PathKey) (jointype : JoinType)
    (outers inners : List Path) : List JoinTry :=
  (outers.filter (usableOuter innerrel)).flatMap fun outer =>
    (inners.filter (usableInner outerrel)).map fun inner => ⟨false,outer,inner,outerkeys,jointype⟩

theorem plainTries_no_inner (outerrel innerrel : RelCore) (outerkeys : List PathKey)
    (jointype : JoinType) (outers inners : List Path)
    (unusable : inners.filter (usableInner outerrel) = []) :
    plainTries outerrel innerrel outerkeys jointype outers inners = [] := by
  apply List.flatMap_eq_nil_iff.mpr
  intro outer _
  rw [unusable]
  rfl

theorem plainTries_eq_nil (outerrel innerrel : RelCore) (outerkeys : List PathKey)
    (jointype : JoinType) (outers inners : List Path) :
    plainTries outerrel innerrel outerkeys jointype outers inners = [] ↔
      outers.filter (usableOuter innerrel) = [] ∨ inners.filter (usableInner outerrel) = [] := by
  constructor
  · intro nothing
    by_contra both
    push Not at both
    obtain ⟨outer,outers',shape⟩ := List.exists_cons_of_ne_nil both.1
    obtain ⟨inner,inners',shape'⟩ := List.exists_cons_of_ne_nil both.2
    simp [plainTries,shape,shape'] at nothing
  · rintro (none | none)
    · simp [plainTries,none]
    · exact plainTries_no_inner _ _ _ _ _ _ none

theorem plainTries_cons (outerrel innerrel : RelCore) (outerkeys : List PathKey)
    (jointype : JoinType) (outer : Path) (outers inners : List Path) :
    plainTries outerrel innerrel outerkeys jointype (outer :: outers) inners =
      plainTries outerrel innerrel outerkeys jointype [outer] inners ++
        plainTries outerrel innerrel outerkeys jointype outers inners := by
  by_cases usable : usableOuter innerrel outer
  · simp [plainTries,usable]
  · simp [plainTries,usable]

theorem plainTries_mem (outerrel innerrel : RelCore) (outerkeys : List PathKey)
    (jointype : JoinType) (outers inners : List Path) (pair : JoinTry)
    (member : pair ∈ plainTries outerrel innerrel outerkeys jointype outers inners) :
    pair.outer ∈ outers ∧ pair.inner ∈ inners := by
  obtain ⟨outer,among,source⟩ := List.mem_flatMap.mp member
  obtain ⟨inner,among',rfl⟩ := List.mem_map.mp source
  exact ⟨(List.mem_filter.mp among).1,(List.mem_filter.mp among').1⟩

/-- After the first usable outer path the others are tried as they are, on either side. -/
theorem laterTries_stay (side : JoinType) (outerrel innerrel : RelOptInfo)
    (outerkeys : List PathKey) (outers inners : List Path) (chosen : Path) (others : List Path)
    (shape : outers.filter (usableOuter innerrel.toRelCore) = chosen :: others)
    (some_inner : inners.filter (usableInner outerrel.toRelCore) ≠ [])
    (ordinary : ∀ pair : JoinTry, pair.outer ∈ outers → pair.inner ∈ inners →
      ¬isUniquePath (uniqueSide side pair)) :
    StaysSemijoin side (plainTries outerrel.toRelCore innerrel.toRelCore outerkeys .inner
        others inners) ↔
      others = [] := by
  obtain ⟨usable,subset⟩ := filter_tail _ _ _ _ shape
  rw [staysSemijoin_ordinary,plainTries_eq_nil,usable]
  · simp [some_inner]
  · intro pair member
    obtain ⟨outer,inner⟩ := plainTries_mem _ _ _ _ _ _ pair member
    exact ordinary pair (subset _ outer) inner

theorem plainTries_filter (outerrel innerrel : RelCore) (outerkeys : List PathKey)
    (jointype : JoinType) (outers inners : List Path) :
    plainTries outerrel innerrel outerkeys jointype (outers.filter (usableOuter innerrel)) inners =
      plainTries outerrel innerrel outerkeys jointype outers inners := by
  simp [plainTries,List.filter_filter]

/-- The relations are untouched and these tries are appended. -/
structure Advances (before after : JoinState) (jointype : JoinType) (innerPath : Option Path)
    (tries : List JoinTry) : Prop where
  outerrel : after.outerrel = before.outerrel
  innerrel : after.innerrel = before.innerrel
  jointype : after.jointype = jointype
  innerPath : after.innerPath = innerPath
  tries : after.tries = before.tries ++ tries

theorem Advances.refl (state : JoinState) :
    Advances state state state.jointype state.innerPath [] :=
  ⟨rfl,rfl,rfl,rfl,by simp⟩

theorem Advances.trans {first second third : JoinState} {jointype jointype' : JoinType}
    {innerPath innerPath' : Option Path} {tries tries' : List JoinTry}
    (left : Advances first second jointype innerPath tries)
    (right : Advances second third jointype' innerPath' tries') :
    Advances first third jointype' innerPath' (tries ++ tries') where
  outerrel := right.outerrel.trans left.outerrel
  innerrel := right.innerrel.trans left.innerrel
  jointype := right.jointype
  innerPath := right.innerPath
  tries := by rw [right.tries,left.tries,List.append_assoc]

section Steps

variable (estimates : Path → UniqueEstimates) (outerkeys : List PathKey) (state : JoinState)
  (outerPath innerPath : Path)

theorem createUniquePath_cached (rel : RelOptInfo) (subpath : Path) (sjinfo : SpecialJoinInfo)
    (figures : UniqueEstimates) (unique : UniquePath)
    (cached : rel.cheapestUniquePath = some unique) :
    createUniquePath rel subpath sjinfo figures = (some unique,rel,sjinfo) := by
  simp [createUniquePath,cached]

theorem explorePair_skip
    (unusable : ¬(usableOuter state.innerrel.toRelCore outerPath ∧
        usableInner state.outerrel.toRelCore innerPath)) :
    ∃ after, explorePair estimates outerkeys (state,outerPath) innerPath = some (after,outerPath) ∧
      Advances state after state.jointype (some innerPath) [] := by
  refine ⟨{state with innerPath := some innerPath},?_,⟨rfl,rfl,rfl,rfl,by simp⟩⟩
  have skipped : (outerPath.paramByRel state.innerrel.toRelCore ||
      innerPath.paramByRel state.outerrel.toRelCore) = true := by
    simp only [usableOuter,usableInner,Bool.not_eq_true'] at unusable
    grind
  simp [explorePair,skipped]

private theorem not_skipped (usable : usableOuter state.innerrel.toRelCore outerPath)
    (usable' : usableInner state.outerrel.toRelCore innerPath) :
    (outerPath.paramByRel state.innerrel.toRelCore ||
        innerPath.paramByRel state.outerrel.toRelCore) = false := by
  simp only [usableOuter,usableInner,Bool.not_eq_true'] at usable usable'
  simp [usable,usable']

theorem explorePair_plain (usable : usableOuter state.innerrel.toRelCore outerPath)
    (usable' : usableInner state.outerrel.toRelCore innerPath)
    (plain : state.jointype ≠ .uniqueOuter ∧ state.jointype ≠ .uniqueInner) :
    ∃ after, explorePair estimates outerkeys (state,outerPath) innerPath = some (after,outerPath) ∧
      Advances state after state.jointype (some innerPath)
        [⟨false,outerPath,innerPath,outerkeys,state.jointype⟩] := by
  refine ⟨{state with innerPath := some innerPath}.tryPair outerkeys outerPath innerPath,?_,
    ⟨rfl,rfl,rfl,rfl,rfl⟩⟩
  have tried := not_skipped state outerPath innerPath usable usable'
  simp only [explorePair,tried]
  cases kind : state.jointype with
  | uniqueOuter => exact absurd kind plain.1
  | uniqueInner => exact absurd kind plain.2
  | _ => simp

theorem explorePair_uniqueOuter (usable : usableOuter state.innerrel.toRelCore outerPath)
    (usable' : usableInner state.outerrel.toRelCore innerPath)
    (kind : state.jointype = .uniqueOuter) (unique : UniquePath)
    (cached : state.outerrel.cheapestUniquePath = some unique) :
    ∃ after, explorePair estimates outerkeys (state,outerPath) innerPath =
      some (after,unique.path) ∧
      Advances state after .inner (some innerPath)
        [⟨false,unique.path,innerPath,outerkeys,.inner⟩] := by
  have tried := not_skipped state outerPath innerPath usable usable'
  simp only [explorePair,tried,kind,JoinState.uniqueOuter,
    createUniquePath_cached state.outerrel outerPath state.sjinfo
    (estimates outerPath) unique cached]
  exact ⟨_,rfl,⟨rfl,rfl,rfl,rfl,rfl⟩⟩

theorem explorePair_uniqueInner (usable : usableOuter state.innerrel.toRelCore outerPath)
    (usable' : usableInner state.outerrel.toRelCore innerPath)
    (kind : state.jointype = .uniqueInner) (unique : UniquePath)
    (cached : state.innerrel.cheapestUniquePath = some unique) :
    ∃ after, explorePair estimates outerkeys (state,outerPath) innerPath = some (after,outerPath) ∧
      Advances state after .inner (some unique.path)
      [⟨false,outerPath,unique.path,outerkeys,.inner⟩] := by
  have tried := not_skipped state outerPath innerPath usable usable'
  simp only [explorePair,tried,kind,JoinState.uniqueInner,
    createUniquePath_cached state.innerrel innerPath state.sjinfo
    (estimates innerPath) unique cached]
  exact ⟨_,rfl,⟨rfl,rfl,rfl,rfl,rfl⟩⟩

end Steps

section Inner

variable (estimates : Path → UniqueEstimates) (outerkeys : List PathKey)

theorem exploreInner_cons (inners : List Path) (state : JoinState) (outerPath innerPath : Path) :
    exploreInner estimates outerkeys (innerPath :: inners) state outerPath =
      (explorePair estimates outerkeys (state,outerPath) innerPath).bind fun next =>
        exploreInner estimates outerkeys inners next.1 next.2 := by
  simp [exploreInner,List.foldlM_cons]

theorem getLast?_cons_or (first : Path) (rest : List Path) (other : Option Path) :
    (first :: rest).getLast?.or other = rest.getLast?.or (some first) := by
  rw [List.getLast?_cons]
  cases rest.getLast? with
  | none => rfl
  | some last => rfl

theorem exploreInner_plain (inners : List Path) (state : JoinState) (outerPath : Path)
    (plain : state.jointype ≠ .uniqueOuter ∧ state.jointype ≠ .uniqueInner) :
    ∃ after, exploreInner estimates outerkeys inners state outerPath = some (after,outerPath) ∧
      Advances state after state.jointype (inners.getLast?.or state.innerPath)
        (plainTries state.outerrel.toRelCore state.innerrel.toRelCore outerkeys state.jointype
          [outerPath] inners) := by
  induction inners generalizing state with
  | nil =>
    refine ⟨state,rfl,?_⟩
    rw [plainTries_no_inner _ _ _ _ _ _ rfl]
    exact Advances.refl state
  | cons innerPath inners ih =>
    rw [exploreInner_cons,getLast?_cons_or]
    by_cases usable :
      usableOuter state.innerrel.toRelCore outerPath ∧
        usableInner state.outerrel.toRelCore innerPath
    · obtain ⟨middle,stepped,first⟩ :=
        explorePair_plain estimates outerkeys state outerPath innerPath usable.1 usable.2 plain
      obtain ⟨after,ran,rest⟩ := ih middle (first.jointype ▸ plain)
      refine ⟨after,by rw [stepped]; exact ran,?_⟩
      rw [first.jointype,first.innerPath,first.outerrel,first.innerrel] at rest
      have whole := first.trans rest
      simpa [plainTries,usable.1,usable.2] using whole
    · obtain ⟨middle,stepped,first⟩ :=
        explorePair_skip estimates outerkeys state outerPath innerPath usable
      obtain ⟨after,ran,rest⟩ := ih middle (first.jointype ▸ plain)
      refine ⟨after,by rw [stepped]; exact ran,?_⟩
      rw [first.jointype,first.innerPath,first.outerrel,first.innerrel] at rest
      have whole := first.trans rest
      have same :
        plainTries state.outerrel.toRelCore state.innerrel.toRelCore outerkeys state.jointype
          [outerPath] (innerPath :: inners) = plainTries state.outerrel.toRelCore
          state.innerrel.toRelCore
            outerkeys state.jointype [outerPath] inners := by
        by_cases outer : usableOuter state.innerrel.toRelCore outerPath
        · have inner : ¬usableInner state.outerrel.toRelCore innerPath :=
            fun ok => usable ⟨outer,ok⟩
          simp [plainTries,inner]
        · simp [plainTries,outer]
      rw [same]
      exact whole

theorem exploreInner_unusable (inners : List Path) (state : JoinState) (outerPath : Path)
    (unusable : usableOuter state.innerrel.toRelCore outerPath →
      inners.filter (usableInner state.outerrel.toRelCore) = []) :
    ∃ after, exploreInner estimates outerkeys inners state outerPath = some (after,outerPath) ∧
      Advances state after state.jointype (inners.getLast?.or state.innerPath) [] := by
  induction inners generalizing state with
  | nil => exact ⟨state,rfl,Advances.refl state⟩
  | cons innerPath inners ih =>
    rw [exploreInner_cons,getLast?_cons_or]
    have skip :
      ¬(usableOuter state.innerrel.toRelCore outerPath ∧
          usableInner state.outerrel.toRelCore innerPath) := by
      rintro ⟨outer,inner⟩
      simpa [inner] using unusable outer
    obtain ⟨middle,stepped,first⟩ :=
      explorePair_skip estimates outerkeys state outerPath innerPath skip
    have later : usableOuter middle.innerrel.toRelCore outerPath →
        inners.filter (usableInner middle.outerrel.toRelCore) = [] := by
      rw [first.outerrel,first.innerrel]
      intro outer
      have inner : ¬usableInner state.outerrel.toRelCore innerPath := fun ok => skip ⟨outer,ok⟩
      simpa [List.filter_cons,inner] using unusable outer
    obtain ⟨after,ran,rest⟩ := ih middle later
    refine ⟨after,by rw [stepped]; exact ran,?_⟩
    rw [first.jointype,first.innerPath] at rest
    exact first.trans rest

/-- The first usable pair makes the outer path unique for the rest of the loop. -/
theorem exploreInner_uniqueOuter (inners : List Path) (state : JoinState) (outerPath : Path)
    (outer : usableOuter state.innerrel.toRelCore outerPath)
    (inner : inners.filter (usableInner state.outerrel.toRelCore) ≠ [])
    (kind : state.jointype = .uniqueOuter) (unique : UniquePath)
    (cached : state.outerrel.cheapestUniquePath = some unique) :
    ∃ after tries, exploreInner estimates outerkeys inners state outerPath =
      some (after,unique.path) ∧
      Advances state after .inner (inners.getLast?.or state.innerPath) tries ∧
      tries ≠ [] ∧ ∀ pair ∈ tries, pair.outer = unique.path := by
  induction inners generalizing state with
  | nil => exact absurd rfl inner
  | cons innerPath inners ih =>
    rw [exploreInner_cons,getLast?_cons_or]
    by_cases usable : usableInner state.outerrel.toRelCore innerPath
    · obtain ⟨middle,stepped,first⟩ :=
        explorePair_uniqueOuter estimates outerkeys state outerPath innerPath outer usable
          kind unique cached
      obtain ⟨after,ran,rest⟩ := exploreInner_plain estimates outerkeys inners middle unique.path
        (by simp [first.jointype])
      rw [first.innerPath,first.jointype] at rest
      refine ⟨after,_,by rw [stepped]; exact ran,first.trans rest,by simp,?_⟩
      · intro pair member
        rcases List.mem_cons.mp member with rfl | later
        · rfl
        · obtain ⟨chosen,among,source⟩ := List.mem_flatMap.mp later
          obtain ⟨_,_,rfl⟩ := List.mem_map.mp source
          simpa using (List.mem_filter.mp among).1
    · obtain ⟨middle,stepped,first⟩ :=
        explorePair_skip estimates outerkeys state outerPath innerPath fun both => usable both.2
      obtain ⟨after,tries,ran,rest,some_try,all⟩ := ih middle (first.innerrel ▸ outer)
        (by simpa [first.outerrel,List.filter_cons,usable] using inner)
        (first.jointype.trans kind) (first.outerrel ▸ cached)
      refine ⟨after,tries,by rw [stepped]; exact ran,?_,some_try,all⟩
      rw [first.innerPath] at rest
      exact first.trans rest

theorem exploreInner_uniqueInner (inners : List Path) (state : JoinState) (outerPath chosen : Path)
    (others : List Path) (outer : usableOuter state.innerrel.toRelCore outerPath)
    (inner : inners.filter (usableInner state.outerrel.toRelCore) = chosen :: others)
    (kind : state.jointype = .uniqueInner) (unique : UniquePath)
    (cached : state.innerrel.cheapestUniquePath = some unique) :
    ∃ after, exploreInner estimates outerkeys inners state outerPath = some (after,outerPath) ∧
      Advances state after .inner
        (if EndsWithOnly (usableInner state.outerrel.toRelCore) inners then some unique.path
          else inners.getLast?)
        (⟨false,outerPath,unique.path,outerkeys,.inner⟩ ::
          others.map fun innerPath => ⟨false,outerPath,innerPath,outerkeys,.inner⟩) := by
  induction inners generalizing state with
  | nil => simp at inner
  | cons innerPath inners ih =>
    rw [exploreInner_cons]
    by_cases usable : usableInner state.outerrel.toRelCore innerPath
    · obtain ⟨middle,stepped,first⟩ :=
        explorePair_uniqueInner estimates outerkeys state outerPath innerPath outer usable
          kind unique cached
      obtain ⟨after,ran,rest⟩ := exploreInner_plain estimates outerkeys inners middle outerPath
        (by simp [first.jointype])
      refine ⟨after,by rw [stepped]; exact ran,?_⟩
      rw [List.filter_cons_of_pos usable,List.cons.injEq] at inner
      obtain ⟨rfl,rfl⟩ := inner
      rw [first.innerPath,first.outerrel,first.innerrel,first.jointype] at rest
      have whole := first.trans rest
      have last : inners.getLast?.or (some unique.path) =
          if EndsWithOnly (usableInner state.outerrel.toRelCore) (innerPath :: inners) then
            some unique.path
          else (innerPath :: inners).getLast? := by
        rw [List.getLast?_cons]
        simp only [endsWithOnly_cons_usable _ innerPath inners usable]
        by_cases empty : inners = []
        · simp [empty]
        · simp [empty,List.getLast?_eq_some_getLast empty]
      rw [← last]
      simpa [plainTries,outer] using whole
    · obtain ⟨middle,stepped,first⟩ :=
        explorePair_skip estimates outerkeys state outerPath innerPath fun both => usable both.2
      rw [List.filter_cons_of_neg usable] at inner
      obtain ⟨after,ran,rest⟩ := ih middle (first.innerrel ▸ outer) (first.outerrel ▸ inner)
        (first.jointype.trans kind) (first.innerrel ▸ cached)
      refine ⟨after,by rw [stepped]; exact ran,?_⟩
      have whole := first.trans rest
      have nonempty : inners ≠ [] := by
        rintro rfl
        simp at inner
      have same : (innerPath :: inners).getLast? = inners.getLast? := by
        simp [List.getLast?_cons,List.getLast?_eq_some_getLast nonempty]
      simp only [endsWithOnly_cons_unusable _ innerPath inners usable nonempty,same]
      simpa only [first.outerrel,List.nil_append] using whole

end Inner

section Outer

variable (estimates : Path → UniqueEstimates) (outerkeys : List PathKey)

theorem exploreOuter_cons (outers inners : List Path) (state : JoinState) (outerPath : Path) :
    exploreOuter estimates outerkeys (outerPath :: outers) inners state =
      ((exploreInner estimates outerkeys inners state outerPath).map (·.1)).bind
        (exploreOuter estimates outerkeys outers inners) := by
  unfold exploreOuter
  rw [List.foldlM_cons]
  rfl

def lastInner (outers inners : List Path) (before : Option Path) : Option Path :=
  if outers = [] then before else inners.getLast?.or before

theorem lastInner_cons (outerPath : Path) (outers inners : List Path) (before : Option Path) :
    lastInner outers inners (inners.getLast?.or before) = lastInner
      (outerPath :: outers) inners before := by
  unfold lastInner
  cases inners.getLast? with
  | none => simp
  | some last => simp

theorem exploreOuter_plain (outers inners : List Path) (state : JoinState)
    (plain : state.jointype ≠ .uniqueOuter ∧ state.jointype ≠ .uniqueInner) :
    ∃ after, exploreOuter estimates outerkeys outers inners state = some after ∧
      Advances state after state.jointype (lastInner outers inners state.innerPath)
        (plainTries state.outerrel.toRelCore state.innerrel.toRelCore outerkeys state.jointype
          outers inners) := by
  induction outers generalizing state with
  | nil => exact ⟨state,rfl,Advances.refl state⟩
  | cons outerPath outers ih =>
    obtain ⟨middle,stepped,first⟩ :=
      exploreInner_plain estimates outerkeys inners state outerPath plain
    obtain ⟨after,ran,rest⟩ := ih middle (first.jointype ▸ plain)
    refine ⟨after,by rw [exploreOuter_cons,stepped]; exact ran,?_⟩
    rw [first.jointype,first.innerPath,first.outerrel,first.innerrel,
      lastInner_cons outerPath] at rest
    rw [plainTries_cons]
    exact first.trans rest

theorem exploreOuter_unusable (outers inners : List Path) (state : JoinState)
    (unusable : outers.filter (usableOuter state.innerrel.toRelCore) = [] ∨
      inners.filter (usableInner state.outerrel.toRelCore) = []) :
    ∃ after, exploreOuter estimates outerkeys outers inners state = some after ∧
      Advances state after state.jointype (lastInner outers inners state.innerPath) [] := by
  induction outers generalizing state with
  | nil => exact ⟨state,rfl,Advances.refl state⟩
  | cons outerPath outers ih =>
    have here : usableOuter state.innerrel.toRelCore outerPath →
        inners.filter (usableInner state.outerrel.toRelCore) = [] := by
      intro usable
      rcases unusable with none | none
      · simp [usable] at none
      · exact none
    obtain ⟨middle,stepped,first⟩ :=
      exploreInner_unusable estimates outerkeys inners state outerPath here
    have later : outers.filter (usableOuter middle.innerrel.toRelCore) = [] ∨
        inners.filter (usableInner middle.outerrel.toRelCore) = [] := by
      rw [first.outerrel,first.innerrel]
      rcases unusable with none | none
      · exact .inl (List.filter_eq_nil_iff.mpr fun path member =>
          List.filter_eq_nil_iff.mp none path (List.mem_cons_of_mem _ member))
      · exact .inr none
    obtain ⟨after,ran,rest⟩ := ih middle later
    refine ⟨after,by rw [exploreOuter_cons,stepped]; exact ran,?_⟩
    rw [first.jointype,first.innerPath,lastInner_cons outerPath] at rest
    exact first.trans rest

/-- The first usable outer path is unique-ified; every later one is tried as it is. -/
theorem exploreOuter_uniqueOuter (outers inners : List Path) (state : JoinState) (chosen : Path)
    (others : List Path) (outer : outers.filter (usableOuter state.innerrel.toRelCore) =
      chosen :: others)
    (inner : inners.filter (usableInner state.outerrel.toRelCore) ≠ [])
    (kind : state.jointype = .uniqueOuter) (unique : UniquePath)
    (cached : state.outerrel.cheapestUniquePath = some unique) :
    ∃ after innerPath tries, exploreOuter estimates outerkeys outers inners state = some after ∧
      Advances state after .inner innerPath (tries ++
        plainTries state.outerrel.toRelCore state.innerrel.toRelCore outerkeys .inner
        others inners) ∧
      ∀ pair ∈ tries, pair.outer = unique.path := by
  induction outers generalizing state with
  | nil => simp at outer
  | cons outerPath outers ih =>
    rw [exploreOuter_cons]
    by_cases usable : usableOuter state.innerrel.toRelCore outerPath
    · obtain ⟨middle,tries,stepped,first,_,all⟩ :=
        exploreInner_uniqueOuter estimates outerkeys inners state outerPath usable inner
          kind unique cached
      obtain ⟨after,ran,rest⟩ := exploreOuter_plain estimates outerkeys outers inners middle
        (by simp [first.jointype])
      rw [List.filter_cons_of_pos usable,List.cons.injEq] at outer
      obtain ⟨rfl,rfl⟩ := outer
      rw [first.outerrel,first.innerrel,first.jointype] at rest
      rw [← plainTries_filter] at rest
      exact ⟨after,_,tries,by rw [stepped]; exact ran,first.trans rest,all⟩
    · obtain ⟨middle,stepped,first⟩ :=
        exploreInner_unusable estimates outerkeys inners state outerPath fun ok => absurd ok usable
      rw [List.filter_cons_of_neg usable] at outer
      obtain ⟨after,innerPath,tries,ran,rest,all⟩ :=
        ih middle (first.innerrel ▸ outer) (first.outerrel ▸ inner) (first.jointype.trans kind)
          (first.outerrel ▸ cached)
      rw [first.outerrel,first.innerrel] at rest
      exact ⟨after,innerPath,tries,by rw [stepped]; exact ran,first.trans rest,all⟩

/-- Only the first usable pair gets a unique inner path. The variable still holds that path at
the end exactly when the pair is the last one visited. -/
theorem exploreOuter_uniqueInner (outers inners : List Path) (state : JoinState)
    (chosen chosen' : Path) (others others' : List Path)
    (outer : outers.filter (usableOuter state.innerrel.toRelCore) = chosen :: others)
    (inner : inners.filter (usableInner state.outerrel.toRelCore) = chosen' :: others')
    (kind : state.jointype = .uniqueInner) (unique : UniquePath)
    (cached : state.innerrel.cheapestUniquePath = some unique) :
    ∃ after, exploreOuter estimates outerkeys outers inners state = some after ∧
      Advances state after .inner
        (if EndsWithOnly (usableOuter state.innerrel.toRelCore) outers ∧
            EndsWithOnly (usableInner state.outerrel.toRelCore) inners then some unique.path
            else inners.getLast?)
        (⟨false,chosen,unique.path,outerkeys,.inner⟩ ::
          (others'.map fun innerPath => ⟨false,chosen,innerPath,outerkeys,.inner⟩) ++
          plainTries state.outerrel.toRelCore state.innerrel.toRelCore outerkeys .inner
          others inners) := by
  induction outers generalizing state with
  | nil => simp at outer
  | cons outerPath outers ih =>
    rw [exploreOuter_cons]
    by_cases usable : usableOuter state.innerrel.toRelCore outerPath
    · rw [List.filter_cons_of_pos usable,List.cons.injEq] at outer
      obtain ⟨rfl,rfl⟩ := outer
      obtain ⟨middle,stepped,first⟩ :=
        exploreInner_uniqueInner estimates outerkeys inners state outerPath chosen' others' usable
          inner kind unique cached
      obtain ⟨after,ran,rest⟩ := exploreOuter_plain estimates outerkeys outers inners middle
        (by simp [first.jointype])
      rw [first.outerrel,first.innerrel,first.jointype,first.innerPath] at rest
      refine ⟨after,by rw [stepped]; exact ran,?_⟩
      have last : lastInner outers inners
          (if EndsWithOnly (usableInner state.outerrel.toRelCore) inners then some unique.path
            else inners.getLast?) =
          if EndsWithOnly (usableOuter state.innerrel.toRelCore) (outerPath :: outers) ∧
            EndsWithOnly (usableInner state.outerrel.toRelCore) inners then some unique.path
          else inners.getLast? := by
        have nonempty : inners ≠ [] := by
          rintro rfl
          simp at inner
        simp only [endsWithOnly_cons_usable _ outerPath outers usable,lastInner]
        by_cases empty : outers = []
        · simp [empty]
        · simp [empty,List.getLast?_eq_some_getLast nonempty]
      rw [last,← plainTries_filter] at rest
      exact first.trans rest
    · obtain ⟨middle,stepped,first⟩ :=
        exploreInner_unusable estimates outerkeys inners state outerPath fun ok => absurd ok usable
      rw [List.filter_cons_of_neg usable] at outer
      have nonempty : outers ≠ [] := by
        rintro rfl
        simp at outer
      obtain ⟨after,ran,rest⟩ := ih middle (first.innerrel ▸ outer) (first.outerrel ▸ inner)
        (first.jointype.trans kind) (first.innerrel ▸ cached)
      rw [first.outerrel,first.innerrel] at rest
      refine ⟨after,by rw [stepped]; exact ran,?_⟩
      simp only [endsWithOnly_cons_unusable _ outerPath outers usable nonempty]
      exact first.trans rest

end Outer

end ExploratoryOptimizer.JoinPath
