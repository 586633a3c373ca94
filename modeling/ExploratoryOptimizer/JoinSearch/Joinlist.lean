import ExploratoryOptimizer.JoinSearch.Meaning

/-! Join lists inside join lists. Each list is a search of its own over the relations of its items,
with the join relations, dummies and broken classes of the earlier searches in the state. For a
query of inner joins every plan down to the base relations computes the query, however the list is
nested. -/
namespace ExploratoryOptimizer.JoinSearch
open Library.Attempt Library.Blocks

mutual

/-- The range table indexes below a node. -/
def JoinlistNode.leaves : JoinlistNode → List Nat
  | .rangeTblRef rtindex => [rtindex]
  | .list first rest => first.leaves ++ joinlistLeaves rest
  | .other _ => []

def joinlistLeaves : List JoinlistNode → List Nat
  | [] => []
  | node :: rest => node.leaves ++ joinlistLeaves rest

end

mutual

def JoinlistNode.recognized : JoinlistNode → Bool
  | .rangeTblRef _ => true
  | .list first rest => first.recognized && joinlistRecognized rest
  | .other _ => false

def joinlistRecognized : List JoinlistNode → Bool
  | [] => true
  | node :: rest => node.recognized && joinlistRecognized rest

end

def JoinlistNode.relids (node : JoinlistNode) : Relids := node.leaves.toFinset

/-- The relids that the state knows of: join relations, and inputs of joins. -/
def SearchState.mentions (state : SearchState) (relids : Relids) : Prop :=
  (∃ rel ∈ state.joinRelList, rel.relids = relids) ∨
    ∃ call ∈ state.calls, call.outerrel = relids ∨ call.innerrel = relids

theorem leaves_nonempty : (node : JoinlistNode) → node.recognized → node.relids.Nonempty
  | .rangeTblRef rtindex,_ => ⟨rtindex,by simp [JoinlistNode.relids,JoinlistNode.leaves]⟩
  | .list first rest,known => by
    rw [JoinlistNode.recognized,Bool.and_eq_true] at known
    obtain ⟨rtindex,member⟩ := leaves_nonempty first known.1
    refine ⟨rtindex,?_⟩
    simp only [JoinlistNode.relids,JoinlistNode.leaves,List.mem_toFinset,
      List.mem_append] at member ⊢
    exact .inl member

theorem mem_joinlistLeaves (nodes : List JoinlistNode) (rtindex : Nat) :
    rtindex ∈ joinlistLeaves nodes ↔ ∃ node ∈ nodes, rtindex ∈ node.relids := by
  induction nodes with
  | nil => simp [joinlistLeaves]
  | cons node rest ih => simp [joinlistLeaves,ih,JoinlistNode.relids]

/-- The items of a list have nothing in common. -/
theorem joinlist_apart (nodes : List JoinlistNode) (recognized : joinlistRecognized nodes)
    (distinct : (joinlistLeaves nodes).Nodup) : Apart (nodes.map (·.relids)) := by
  induction nodes with
  | nil => exact ⟨List.Pairwise.nil,by simp⟩
  | cons node rest ih =>
    rw [joinlistRecognized,Bool.and_eq_true] at recognized
    rw [joinlistLeaves,List.nodup_append] at distinct
    obtain ⟨disjoint,nonempty⟩ := ih recognized.2 distinct.2.1
    refine ⟨List.pairwise_cons.mpr ⟨fun relids among => ?_,disjoint⟩,?_⟩
    · obtain ⟨other,member,rfl⟩ := List.mem_map.mp among
      refine Finset.disjoint_left.mpr fun rtindex here there => ?_
      have later := (mem_joinlistLeaves rest rtindex).mpr ⟨other,member,there⟩
      exact distinct.2.2 rtindex (List.mem_toFinset.mp here) rtindex later rfl
    · exact List.forall_mem_cons.mpr ⟨leaves_nonempty node recognized.1,nonempty⟩

/-- The items of a list are made in order, and then joined. -/
theorem thisrel_list (root : PlannerInfo) (first : JoinlistNode) (rest : List JoinlistNode)
    (state middle : SearchState) (rel : SearchRel) (rels : List SearchRel)
    (ran : joinlistRels root (first :: rest) state = .ok (rel :: rels,middle)) :
    joinChildren root rel rels middle = (JoinlistNode.list first rest).thisrel root state := by
  rw [joinlistRels] at ran
  obtain ⟨⟨head,next⟩,ranFirst,ran⟩ := bind_ok _ _ _ ran
  obtain ⟨⟨others,last⟩,ranRest,ran⟩ := bind_ok _ _ _ ran
  cases ran
  simp only [JoinlistNode.thisrel,ranFirst,ranRest,bind,Except.bind]

section Build

variable {Row Value : Type} {reading : Reading Row Value} {root : PlannerInfo}
  {clauses : List RestrictInfo} {baseRels : List SearchRel}

/-- From one state to a later one the relations were made for items with the given relids, and
nothing else was touched. -/
structure Built (reading : Reading Row Value) (root : PlannerInfo) (clauses : List RestrictInfo)
    (baseRels : List SearchRel) (state final : SearchState) (rels : List SearchRel)
    (sets : List Relids) : Prop where
  relids : blocksOf rels = sets
  clausal : ∀ rel ∈ rels, Clausal root clauses rel
  explains : reading.Explains root.eqClasses clauses baseRels final
  live : ∀ rel ∈ rels, planned baseRels final rel.relids
  later : Later state final
  mentions : ∀ relids, final.mentions relids → state.mentions relids ∨ ∃ set ∈ sets, relids ⊆ set

/-- The base relations of the leaves are there. -/
def based (root : PlannerInfo) (baseRels : List SearchRel) (leaves : List Nat) : Prop :=
  ∀ rtindex ∈ leaves, ∃ rel ∈ baseRels, findBaseRel root rtindex = .ok rel ∧ rel.relids = {rtindex}

/-- A node is built in a state that knows of nothing inside it. -/
def nodeBuilds (reading : Reading Row Value) (root : PlannerInfo) (clauses : List RestrictInfo)
    (baseRels : List SearchRel) (node : JoinlistNode) : Prop :=
  node.recognized → node.leaves.Nodup → based root baseRels node.leaves →
    ∀ state, reading.Explains root.eqClasses clauses baseRels state →
      (∀ relids, state.mentions relids → Disjoint relids node.relids) →
      ∃ rel final, node.thisrel root state = .ok (rel,final) ∧
        Built reading root clauses baseRels state final [rel] [node.relids]

def joinlistBuilds (reading : Reading Row Value) (root : PlannerInfo) (clauses : List RestrictInfo)
    (baseRels : List SearchRel) (nodes : List JoinlistNode) : Prop :=
  joinlistRecognized nodes → (joinlistLeaves nodes).Nodup →
    based root baseRels (joinlistLeaves nodes) →
    ∀ state, reading.Explains root.eqClasses clauses baseRels state →
      (∀ relids, state.mentions relids → ∀ node ∈ nodes, Disjoint relids node.relids) →
      ∃ rels final, joinlistRels root nodes state = .ok (rels,final) ∧
        Built reading root clauses baseRels state final rels (nodes.map (·.relids))

theorem Built.nil (state : SearchState)
    (explains : reading.Explains root.eqClasses clauses baseRels state) :
    Built reading root clauses baseRels state state [] [] :=
  ⟨rfl,by simp,explains,by simp,⟨⟨[],by simp⟩,fun _ marked => marked⟩,fun _ known => .inl known⟩

theorem Built.cons {state middle final : SearchState} {rel : SearchRel} {set : Relids}
    {rels : List SearchRel} {sets : List Relids}
    (first : Built reading root clauses baseRels state middle [rel] [set])
    (rest : Built reading root clauses baseRels middle final rels sets) :
    Built reading root clauses baseRels state final (rel :: rels) (set :: sets) := by
  refine ⟨?_,?_,rest.explains,?_,first.later.trans rest.later,fun relids known => ?_⟩
  · rw [← rest.relids]
    exact congrArg (· ++ blocksOf rels) first.relids
  · exact List.forall_mem_cons.mpr ⟨first.clausal rel (List.mem_singleton_self _),rest.clausal⟩
  · refine List.forall_mem_cons.mpr ⟨?_,rest.live⟩
    exact planned_later middle final rest.later _ (first.live rel (List.mem_singleton_self _))
  · rcases rest.mentions relids known with before | ⟨later,among,inside⟩
    · refine (first.mentions relids before).imp_right ?_
      rintro ⟨only,among,inside⟩
      exact ⟨only,List.mem_cons.mpr (.inl (List.mem_singleton.mp among)),inside⟩
    · exact .inr ⟨later,List.mem_cons_of_mem _ among,inside⟩

/-- What is known besides the items lies in one of them or away from all, so it holds at most
one. -/
theorem Built.small {state middle : SearchState} {rels : List SearchRel} {sets : List Relids}
    (built : Built reading root clauses baseRels state middle rels sets) (apart : Apart sets)
    (away : ∀ relids, state.mentions relids → ∀ set ∈ sets, Disjoint relids set) (relids : Relids)
    (known : middle.mentions relids) : size (blocksOf rels) relids ≤ 1 := by
  rw [built.relids]
  rcases built.mentions relids known with before | ⟨set,among,inside⟩
  · exact size_away apart relids (away relids before)
  · exact size_inside apart relids set among inside

/-- After a search the state knows of the relids that it knew of before, and of sets of initial
relations. -/
theorem layered_mentions {initialRels : List SearchRel} {state final : SearchState}
    (layered : Layered initialRels state.joinRelList state.calls final) (later : Later state final)
    (relids : Relids) (known : final.mentions relids) :
    state.mentions relids ∨ relids ⊆ (blocksOf initialRels).toFinset.biUnion id := by
  have inLevel (level : Nat) (among : relids ∈ (final.joinRelLevel level).map (·.relids)) :
      relids ⊆ (blocksOf initialRels).toFinset.biUnion id := by
    obtain ⟨rel,here,rfl⟩ := List.mem_map.mp among
    exact whole_subset _ _ (layered.sized level rel here).1
  rcases known with ⟨rel,listed,rfl⟩ | ⟨call,recorded,input⟩
  · rcases layered.known rel listed with early | ⟨level,here⟩
    · exact .inl (.inl ⟨rel,early,rfl⟩)
    · exact .inr (inLevel level (List.mem_map_of_mem here))
  · obtain ⟨made,appended⟩ := later.calls
    rw [appended] at recorded
    rcases List.mem_append.mp recorded with early | new
    · exact .inl (.inr ⟨call,early,input⟩)
    · have since : call ∈ final.since state.calls := by
        rw [SearchState.since,appended,List.drop_left]
        exact new
      obtain ⟨i,j,placed⟩ := layered.called call since
      rcases input with rfl | rfl
      · exact .inr (inLevel i placed.outer)
      · exact .inr (inLevel j placed.inner)

variable (lawful : reading.Lawful) {all : Relids}
  (wellFormed : WellFormed root.eqClasses clauses all) (base : Apart (blocksOf baseRels))
  (plain : Plain root)

include lawful wellFormed base plain

theorem Built.join {state middle : SearchState} {first : SearchRel} {rest : List SearchRel}
    {sets : List Relids} (built : Built reading root clauses baseRels state middle
      (first :: rest) sets) (apart : Apart sets)
    (fine : ∀ set ∈ sets, whole (blocksOf baseRels) set)
    (away : ∀ relids, state.mentions relids → ∀ set ∈ sets, Disjoint relids set) :
    ∃ rel final, joinChildren root first rest middle = .ok (rel,final) ∧
      Built reading root clauses baseRels state final [rel] [sets.toFinset.biUnion id] := by
  have blocks := built.relids
  unfold joinChildren
  by_cases single : rest.length + 1 = 1
  · obtain rfl : rest = [] := List.length_eq_zero_iff.mp (by omega)
    subst blocks
    refine ⟨first,middle,if_pos single,?_,built.clausal,built.explains,built.live,built.later,?_⟩
    · simp [blocksOf]
    · simpa [blocksOf] using built.mentions
  · rw [if_neg single]
    have small := built.small apart away
    have separate : Separate (first :: rest) middle.joinRelList :=
      ⟨blocks ▸ apart,fun rel listed => small rel.relids (.inl ⟨rel,listed,rfl⟩)⟩
    -- the search reads the same query, with its own initial relations
    have wellFormedHere :
      WellFormed (PlannerInfo.eqClasses {root with initialRels := first :: rest}) clauses all :=
        wellFormed
    have plainHere : Plain {root with initialRels := first :: rest} := ⟨plain.special,plain.lateral⟩
    have clausalHere :
      ∀ rel ∈ first :: rest, Clausal {root with initialRels := first :: rest} clauses rel :=
      fun rel member => ⟨(built.clausal rel member).joininfo,(built.clausal rel member).eclass⟩
    have basedHere : ∀ rel ∈ first :: rest, whole (blocksOf baseRels) rel.relids :=
      fun rel member =>
      fine rel.relids (blocks ▸ List.mem_map_of_mem member)
    obtain ⟨rel,final,ran,covers,_⟩ :=
      search_succeeds _ (first :: rest) middle plainHere separate (List.cons_ne_nil _ _)
    obtain ⟨layered,meant⟩ :=
      search_meant lawful wellFormedHere base basedHere plainHere middle final rel
        separate clausalHere
      built.explains built.live (fun call recorded =>
        ⟨small _ (.inr ⟨call,recorded,.inl rfl⟩),small _ (.inr ⟨call,recorded,.inr rfl⟩)⟩) ran
    obtain ⟨_,others,top⟩ := aqoJoinSearch_cases _ middle final rel ran
    have member : rel ∈ final.joinRelLevel (first :: rest).length := by
      rw [top]
      exact List.mem_cons_self ..
    have later : Later middle final := ⟨meant.later.calls,meant.later.dummies⟩
    refine ⟨rel,final,ran,?_,?_,⟨meant.explains.trees,meant.explains.dummies⟩,?_,
      built.later.trans later,fun relids known => ?_⟩
    · rw [← blocks]
      exact congrArg (fun relids => [relids]) covers
    · refine List.forall_mem_singleton.mpr ?_
      exact ⟨(meant.clausal _ rel member).joininfo,(meant.clausal _ rel member).eclass⟩
    · exact List.forall_mem_singleton.mpr (meant.live _ rel member)
    · rw [← blocks]
      rcases layered_mentions layered later relids known with before | inside
      · refine (built.mentions relids before).imp_right ?_
        rintro ⟨set,among,within⟩
        rw [← blocks] at among
        exact ⟨_,List.mem_singleton_self _,within.trans (block_subset_all _ set among)⟩
      · exact .inr ⟨_,List.mem_singleton_self _,inside⟩

omit lawful wellFormed base plain in
theorem baseRel_builds (clausal : ∀ rel ∈ baseRels, Clausal root clauses rel) (rtindex : Nat) :
    nodeBuilds reading root clauses baseRels (.rangeTblRef rtindex) := by
  intro _ _ known state explains _
  obtain ⟨rel,member,found,relids⟩ := known rtindex (List.mem_singleton_self _)
  refine ⟨rel,state,by simp only [JoinlistNode.thisrel,found,bind,Except.bind],?_,
    List.forall_mem_singleton.mpr (clausal rel member),explains,?_,
    ⟨⟨[],by simp⟩,fun _ marked => marked⟩,fun _ before => .inl before⟩
  · exact congrArg (fun relids => [relids]) relids
  · exact List.forall_mem_singleton.mpr fun _ => ⟨_,.initial rel member⟩

omit lawful wellFormed base plain in
/-- What the first item leaves behind is away from the others. -/
theorem cons_builds (node : JoinlistNode) (rest : List JoinlistNode)
    (first : nodeBuilds reading root clauses baseRels node)
    (others : joinlistBuilds reading root clauses baseRels rest) :
    joinlistBuilds reading root clauses baseRels (node :: rest) := by
  intro recognized distinct known state explains away
  have apart := joinlist_apart (node :: rest) recognized distinct
  rw [joinlistRecognized,Bool.and_eq_true] at recognized
  rw [joinlistLeaves,List.nodup_append] at distinct
  obtain ⟨rel,middle,ran,built⟩ := first recognized.1 distinct.1
    (fun rtindex leaf => known rtindex (List.mem_append_left _ leaf)) state explains
    (fun relids before => away relids before node (List.mem_cons_self ..))
  have awayNow (relids : Relids) (now : middle.mentions relids) (other : JoinlistNode)
    (member : other ∈ rest) :
      Disjoint relids other.relids := by
    rcases built.mentions relids now with before | ⟨set,only,inside⟩
    · exact away relids before other (List.mem_cons_of_mem _ member)
    · obtain rfl := List.mem_singleton.mp only
      exact ((List.pairwise_cons.mp apart.disjoint).1 _ (List.mem_map_of_mem member)).mono_left
        inside
  obtain ⟨rels,final,ranRest,builtRest⟩ := others recognized.2 distinct.2.1
    (fun rtindex leaf => known rtindex (List.mem_append_right _ leaf)) middle built.explains awayNow
  refine ⟨rel :: rels,final,?_,built.cons builtRest⟩
  simp only [joinlistRels,ran,ranRest,bind,Except.bind]

theorem list_builds (first : JoinlistNode) (rest : List JoinlistNode)
    (items : joinlistBuilds reading root clauses baseRels (first :: rest)) :
    nodeBuilds reading root clauses baseRels (.list first rest) := by
  intro recognized distinct known state explains away
  have covers :
    JoinlistNode.relids (.list first rest) =
      ((first :: rest).map (·.relids)).toFinset.biUnion id := by
    ext rtindex
    rw [JoinlistNode.relids,List.mem_toFinset]
    refine (mem_joinlistLeaves (first :: rest) rtindex).trans ?_
    simp
  have inside (set : Relids) (among : set ∈ (first :: rest).map (·.relids)) :
      set ⊆ JoinlistNode.relids (.list first rest) := covers ▸ block_subset_all _ set among
  have fine (set : Relids) (among : set ∈ (first :: rest).map (·.relids)) :
    whole (blocksOf baseRels) set := by
    intro rtindex member
    obtain ⟨rel,present,_,relids⟩ := known rtindex (List.mem_toFinset.mp (inside set among member))
    exact ⟨rel.relids,List.mem_map_of_mem present,by simp [relids],by simpa [relids] using member⟩
  obtain ⟨rels,middle,ran,built⟩ := items recognized distinct known state explains
    fun relids before node member => (away relids before).mono_right
    (inside _ (List.mem_map_of_mem member))
  obtain ⟨rel,rels,rfl⟩ : ∃ rel others, rels = rel :: others := by
    cases rels with
    | nil => cases built.relids
    | cons rel others => exact ⟨rel,others,rfl⟩
  obtain ⟨joinrel,final,joined,done⟩ := built.join lawful wellFormed base plain
    (joinlist_apart (first :: rest) recognized distinct) fine
    fun relids before set among => (away relids before).mono_right (inside set among)
  exact ⟨joinrel,final,thisrel_list root first rest state middle rel rels ran ▸
    joined,covers ▸ done⟩

end Build

section Query

variable {Row Value : Type} {reading : Reading Row Value} {root : PlannerInfo}
  {clauses : List RestrictInfo} {baseRels : List SearchRel} {all : Relids}

mutual

theorem node_builds (lawful : reading.Lawful) (wellFormed : WellFormed root.eqClasses clauses all)
    (base : Apart (blocksOf baseRels)) (plain : Plain root)
    (clausal : ∀ rel ∈ baseRels, Clausal root clauses rel) :
    (node : JoinlistNode) → nodeBuilds reading root clauses baseRels node
  | .rangeTblRef rtindex => baseRel_builds clausal rtindex
  | .list first rest => list_builds lawful wellFormed base plain first rest
    (cons_builds first rest (node_builds lawful wellFormed base plain clausal first)
      (joinlist_builds lawful wellFormed base plain clausal rest))
  | .other _ => by
    intro recognized
    cases recognized

theorem joinlist_builds (lawful : reading.Lawful)
    (wellFormed : WellFormed root.eqClasses clauses all) (base : Apart (blocksOf baseRels))
    (plain : Plain root) (clausal : ∀ rel ∈ baseRels, Clausal root clauses rel) :
    (nodes : List JoinlistNode) → joinlistBuilds reading root clauses baseRels nodes
  | [] => fun _ _ _ state explains _ => ⟨[],state,rfl,Built.nil state explains⟩
  | node :: rest => cons_builds node rest (node_builds lawful wellFormed base plain clausal node)
    (joinlist_builds lawful wellFormed base plain clausal rest)

end

/-- A join list over base relations: every leaf stands once in it, and its relation knows the
clauses that it shares with others. -/
structure Joinable (root : PlannerInfo) (clauses : List RestrictInfo) (baseRels : List SearchRel)
    (joinlist : List JoinlistNode) : Prop where
  recognized : joinlistRecognized joinlist
  distinct : (joinlistLeaves joinlist).Nodup
  relids : blocksOf baseRels = (joinlistLeaves joinlist).map ({·})
  found : based root baseRels (joinlistLeaves joinlist)
  clausal : ∀ rel ∈ baseRels, Clausal root clauses rel

/-- At the beginning no join is known, the rows of the base relations satisfy what can be checked in
them, and what is marked dummy is an empty base relation. -/
structure Filtered (reading : Reading Row Value) (root : PlannerInfo) (clauses : List RestrictInfo)
    (baseRels : List SearchRel) (state : SearchState) : Prop where
  rels : state.joinRelList = []
  calls : state.calls = []
  rows : ∀ rel ∈ baseRels, ∀ row, reading.scan rel.relids row ≠ 0 →
    reading.least root.eqClasses clauses rel.relids row ∧
      ∀ ec ∈ root.eqClasses, ec.joined → ¬state.eclasses.isBroken ec →
      reading.membersAgree ec rel.relids row
  empty : ∀ relids ∈ state.dummies, relids ∈ blocksOf baseRels ∧ ∀ row, reading.scan relids row = 0

theorem joinable_apart {joinlist : List JoinlistNode}
    (joinable : Joinable root clauses baseRels joinlist) :
    Apart (blocksOf baseRels) := by
  rw [joinable.relids]
  refine ⟨List.pairwise_map.mpr (joinable.distinct.imp fun different => by simpa using different),
    ?_⟩
  simp

theorem joinable_all {joinlist : List JoinlistNode}
    (joinable : Joinable root clauses baseRels joinlist) :
    (blocksOf baseRels).toFinset.biUnion id = (joinlistLeaves joinlist).toFinset := by
  ext rtindex
  simp [joinable.relids]

theorem filtered_explains {state : SearchState} (base : Apart (blocksOf baseRels))
    (filtered : Filtered reading root clauses baseRels state) :
    reading.Explains root.eqClasses clauses baseRels state := by
  refine ⟨fun tree relids tall => ?_,fun relids dummy row _ => ?_⟩
  · rw [filtered.calls] at tall
    cases tall with
    | initial rel member =>
      have scans (row : Row) :
        reading.scans baseRels rel.relids row = reading.scan rel.relids row :=
        total_block base _ _ (List.mem_map_of_mem member)
      refine ⟨fun row _ => (scans row).symm,fun row some => ?_,
        fun ec among joined sound row some => ?_⟩
      · exact ⟨(filtered.rows rel member row some).1,(scans row).symm⟩
      · exact (filtered.rows rel member row some).2 ec among joined sound
    | join call made => cases made
  · obtain ⟨among,none⟩ := filtered.empty relids dummy
    exact (total_block base _ _ among).trans (none row)

variable (covers : (blocksOf baseRels).toFinset.biUnion id = all)
  (wellFormed : WellFormed root.eqClasses clauses all)

include covers wellFormed

theorem query_of_least (row : Row) (least : reading.least root.eqClasses clauses all row) :
    reading.query root.eqClasses clauses baseRels row = reading.scans baseRels all row := by
  have scans :
    reading.scans baseRels all row =
      (baseRels.map fun rel => reading.scan rel.relids row).prod := by
    rw [← covers,Reading.scans,total_all,blocksOf,List.map_map]
    rfl
  rw [Reading.query,scans]
  refine if_pos ⟨fun rinfo listed => ?_,fun ec member joined rinfo source => ?_⟩
  · exact least.1 rinfo listed (wellFormed.clauses rinfo listed)
  · exact least.2 ec member joined rinfo source (wellFormed.sources ec member rinfo source).1

omit covers wellFormed in
theorem query_of_not_least (row : Row) (missed : ¬reading.least root.eqClasses clauses all row) :
    reading.query root.eqClasses clauses baseRels row = 0 :=
  if_neg fun holds => missed ⟨fun rinfo listed _ => holds.1 rinfo listed,
    fun ec member joined rinfo source _ => holds.2 ec member joined rinfo source⟩

/-- A plan for all the base relations computes the query. -/
theorem computes_query (lawful : reading.Lawful) (eclasses : EclassState) (count : Row → Nat)
    (computes : reading.Computes root.eqClasses clauses baseRels eclasses all count) (row : Row) :
    count row = reading.query root.eqClasses clauses baseRels row := by
  by_cases least : reading.least root.eqClasses clauses all row
  · rw [query_of_least covers wellFormed row least,
      computes.complete row (most_of_least lawful wellFormed row least)]
  · rw [query_of_not_least row least]
    by_contra some
    exact least (computes.sound row some).1

theorem empty_query (lawful : reading.Lawful)
    (empty : reading.emptyIn root.eqClasses clauses baseRels all) (row : Row) :
    reading.query root.eqClasses clauses baseRels row = 0 := by
  by_cases least : reading.least root.eqClasses clauses all row
  · rw [query_of_least covers wellFormed row least]
    exact empty row (most_of_least lawful wellFormed row least)
  · exact query_of_not_least row least

end Query

/-- Each relation holds every row once, and each member is a column. -/
def columnReading : Reading (Nat → Nat) Nat where
  scan := fun _ _ => 1
  holds := fun rinfo row =>
    match rinfo.clause with
    | .const value => value == some true
    | .other => row 2 == row 3
    | .opExpr _ =>
      (rinfo.leftEm.map fun em => row em.address) == rinfo.rightEm.map fun em => row em.address
  value := fun em row => row em.address
  equal := fun left right => left == right

/-- The last relation joins the two of an inner list. -/
def nestedJoinlist : List JoinlistNode := [.list (.rangeTblRef 1) [.rangeTblRef 2],.rangeTblRef 3]

theorem columnReading_lawful : columnReading.Lawful where
  symmetric := fun left right equal => by
    simp only [columnReading,beq_iff_eq] at equal ⊢
    exact equal.symm
  transitive := fun left middle right first second => by
    simp only [columnReading,beq_iff_eq] at first second ⊢
    exact first.trans second
  equates := by
    rintro rinfo left right ⟨isLeft,isRight,opno,isOp⟩ row
    simp [columnReading,Reading.same,isLeft,isRight,isOp]
  never := by
    rintro rinfo (null | false) row
    · simp [columnReading,null]
    · simp [columnReading,false]

theorem innerRoot_wellFormed :
    WellFormed innerRoot.eqClasses [outerClause] (joinlistLeaves nestedJoinlist).toFinset where
  addresses := by decide
  members := by decide
  relids := by decide
  sources := by
    intro ec member rinfo source
    obtain rfl := List.mem_singleton.mp member
    obtain rfl := List.mem_singleton.mp source
    exact ⟨by decide,joinedMembers.1,by decide,joinedMembers.2,by decide,by decide,⟨rfl,rfl,0,rfl⟩,
      by decide,by decide⟩
  tied := by
    intro ec member left leftIn right rightIn
    obtain rfl := List.mem_singleton.mp member
    have tie :
      Relation.EqvGen (fun left right => ∃ rinfo ∈ joinedClass.ecSources, rinfo.equates left right)
        joinedMembers.1 joinedMembers.2 := .rel _ _ ⟨_,List.mem_singleton_self _,rfl,rfl,0,rfl⟩
    simp only [joinedClass,List.mem_cons,List.not_mem_nil,or_false] at leftIn rightIn
    rcases leftIn with rfl | rfl <;> rcases rightIn with rfl | rfl
    · exact .refl _
    · exact tie
    · exact .symm _ _ tie
    · exact .refl _
  clauses := by decide

theorem nestedJoinlist_joinable : Joinable innerRoot [outerClause] threeRels nestedJoinlist where
  recognized := by decide
  distinct := by decide
  relids := by decide
  found := by
    intro rtindex leaf
    have leaf : rtindex = 1 ∨ rtindex = 2 ∨ rtindex = 3 := by
      simpa [nestedJoinlist,joinlistLeaves,JoinlistNode.leaves] using leaf
    rcases leaf with rfl | rfl | rfl
    · exact ⟨_,List.mem_cons_self ..,rfl,rfl⟩
    · exact ⟨_,List.mem_cons_of_mem _ (List.mem_cons_self ..),rfl,rfl⟩
    · exact ⟨_,List.mem_cons_of_mem _ (List.mem_cons_of_mem _ (List.mem_cons_self ..)),rfl,rfl⟩
  clausal := threeRels_innerClausal

theorem threeRels_filtered :
    Filtered columnReading innerRoot [outerClause] threeRels emptySearch where
  rels := rfl
  calls := rfl
  rows := by
    intro rel member row _
    have single : ∀ rel ∈ threeRels, ¬outerClause.requiredRelids ⊆ rel.relids ∧
        (∀ rinfo ∈ joinedClass.ecSources, ¬rinfo.requiredRelids ⊆ rel.relids) ∧
        ∀ left ∈ joinedClass.ecMembers.filter (·.emRelids ⊆ rel.relids),
          ∀ right ∈ joinedClass.ecMembers.filter (·.emRelids ⊆ rel.relids),
          left = right := by decide
    obtain ⟨noClause,noSource,oneMember⟩ := single rel member
    refine ⟨⟨fun rinfo listed inside => ?_,fun ec among _ rinfo source inside => ?_⟩,
      fun ec among _ _ left leftIn right rightIn different => ?_⟩
    · obtain rfl := List.mem_singleton.mp listed
      exact absurd inside noClause
    · obtain rfl := List.mem_singleton.mp among
      exact absurd inside (noSource rinfo source)
    · obtain rfl := List.mem_singleton.mp among
      exact absurd (oneMember left leftIn right rightIn) different
  empty := by simp [emptySearch]

end ExploratoryOptimizer.JoinSearch
