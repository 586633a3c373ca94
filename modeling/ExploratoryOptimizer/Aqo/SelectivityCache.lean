import ExploratoryOptimizer.Aqo.Hash
import ExploratoryOptimizer.Aqo.Session
import ExploratoryOptimizer.JoinPath
import ExploratoryOptimizer.Library.FirstWrite

/-! The selectivity cache of contrib/aqo: filled by `aqo_get_parameterized_baserel_size`
(cardinality_hooks.c) while a query is planned, read back by `restore_selectivities`
(postprocessing.c) when it is learned from. -/
namespace ExploratoryOptimizer.Aqo.SelectivityCache
open Hash JoinPath Library

structure Entry where
  clauseHash : Int
  relid : Nat
  globalRelid : Nat
  selectivity : ℚ

def Entry.sameKey (entry cur : Entry) : Bool :=
  cur.clauseHash = entry.clauseHash && cur.relid = entry.relid &&
    cur.globalRelid = entry.globalRelid

def cacheSelectivity (objects : List Entry) (clauseHash : Int) (relid globalRelid : Nat)
    (selectivity : ℚ) :
    List Entry :=
  FirstWrite.insert Entry.sameKey objects ⟨clauseHash,relid,globalRelid,selectivity⟩

def selectivityCacheFindGlobalRelid (objects : List Entry) (clauseHash : Int)
    (globalRelid : Nat) : Option ℚ :=
  -- The search ignores which alias of the table an entry was written for.
  (objects.find? fun cur => cur.clauseHash = clauseHash && cur.globalRelid = globalRelid).map
    (·.selectivity)

structure RestrictInfo where
  clause : Node
  leftRelids : Option (Finset Nat)
  rightRelids : Option (Finset Nat)
  normSelec : ℚ
  outerSelec : ℚ

structure SpecialJoinInfo where
  minLefthand : Finset Nat
  minRighthand : Finset Nat

def selectivity2 (clauseSelectivity : RestrictInfo → Option SpecialJoinInfo → ℚ)
    (rest : RestrictInfo) : ℚ :=
  match rest.leftRelids,rest.rightRelids with
  | some leftRelids,some rightRelids => clauseSelectivity rest (some ⟨leftRelids,rightRelids⟩)
  | _,_ => clauseSelectivity rest none

def getSelectivities2 (clauseSelectivity : RestrictInfo → Option SpecialJoinInfo → ℚ)
    (clauses : List RestrictInfo) :
    List ℚ :=
  clauses.map (selectivity2 clauseSelectivity)

structure SizeCall where
  relid : Nat
  baserestrictinfo : List RestrictInfo
  paramClauses : List RestrictInfo

namespace SizeCall

def allclauses (call : SizeCall) : List RestrictInfo := call.paramClauses ++ call.baserestrictinfo

def scanClauses (call : SizeCall) : List RestrictInfo := call.baserestrictinfo ++ call.paramClauses

end SizeCall

section Planning

variable (hash : HashAny) (clauseSelectivity : RestrictInfo → Option SpecialJoinInfo → ℚ)
  (rteRelid : Nat → Nat)

def cacheClauses (eclasses : Eclasses) (relid globalRelid : Nat) :
    List Entry → List RestrictInfo → List ℚ → List Entry
  | objects,rinfo :: clauses,selectivity :: selectivities =>
    cacheClauses eclasses relid globalRelid
      (cacheSelectivity objects (getClauseHash2 hash eclasses rinfo.clause) relid
        globalRelid selectivity)
      clauses selectivities
  | objects,_,_ => objects

def aqoGetParameterizedBaserelSize (context : Session.QueryContext) (objects : List Entry)
    (call : SizeCall) :
    List Entry :=
  if context.useAqo || context.learnAqo then
    match getEclasses hash (call.allclauses.map (·.clause)) with
    | some eclasses =>
      cacheClauses hash eclasses call.relid (rteRelid call.relid) objects call.allclauses
        (getSelectivities2 clauseSelectivity call.allclauses)
    | none => objects
  else objects

def planCalls (context : Session.QueryContext) (calls : List SizeCall) : List Entry :=
  -- `aqo_planner` clears the cache before a query is planned.
  calls.foldl (aqoGetParameterizedBaserelSize hash clauseSelectivity rteRelid context) []

end Planning

def restoreSelectivities (hash : HashAny) (objects : List Entry) (clauselist : List RestrictInfo)
    (relidslist : List Nat) (joinType : JoinType) (wasParametrized : Bool) : List ℚ :=
  let cached (rinfo : RestrictInfo) :=
    if joinType = .inner then rinfo.normSelec else rinfo.outerSelec
  match wasParametrized,relidslist,getEclasses hash (clauselist.map (·.clause)) with
  | true,[curRelid],some eclasses =>
    clauselist.map fun rinfo =>
      (selectivityCacheFindGlobalRelid objects (getClauseHash2 hash eclasses rinfo.clause)
          curRelid).getD (cached rinfo)
  | _,_,_ => clauselist.map cached

/-! What the cache holds after planning. -/

section Restored

variable (hash : HashAny) (clauseSelectivity : RestrictInfo → Option SpecialJoinInfo → ℚ)
  (rteRelid : Nat → Nat)

def sizingClasses (call : SizeCall) : Eclasses :=
  (getEclasses hash (call.allclauses.map (·.clause))).getD ⟨[],[]⟩

/-- The text that stands for a clause in the key of the cache: of the whole clause, or of its first
argument alone if it is an equality without constants; arguments in a class are replaced. -/
def hashedText (call : SizeCall) (rinfo : RestrictInfo) : Text :=
  nodeToString (hashedNode (getNodeHash2 hash) (sizingClasses hash call) rinfo.clause)

def written (call : SizeCall) (rinfo : RestrictInfo) : Entry :=
  ⟨hash.str (hashedText hash call rinfo),call.relid,rteRelid call.relid,
    selectivity2 clauseSelectivity rinfo⟩

theorem getEclasses_sizing (call : SizeCall) :
    getEclasses hash (call.allclauses.map (·.clause)) = some (sizingClasses hash call) := by
  rw [sizingClasses,getEclasses_eq,Option.getD_some]

theorem getEclasses_scan (call : SizeCall) :
    getEclasses hash (call.scanClauses.map (·.clause)) = some (sizingClasses hash call) := by
  rw [← getEclasses_sizing]
  exact getEclasses_perm hash _ _ (List.perm_append_comm.map _)

theorem cacheClauses_eq (call : SizeCall) (objects : List Entry) (clauses : List RestrictInfo) :
    cacheClauses hash (sizingClasses hash call) call.relid (rteRelid call.relid) objects clauses
        (getSelectivities2 clauseSelectivity clauses) =
      FirstWrite.insertAll Entry.sameKey objects
      (clauses.map (written hash clauseSelectivity rteRelid call)) := by
  induction clauses generalizing objects with
  | nil => rfl
  | cons rinfo clauses ih =>
    rw [getSelectivities2,List.map_cons,cacheClauses]
    exact ih _

theorem planCalls_eq (context : Session.QueryContext) (learns : context.learnAqo = true)
    (calls : List SizeCall) :
    planCalls hash clauseSelectivity rteRelid context calls =
      FirstWrite.insertAll Entry.sameKey []
        (calls.flatMap fun call =>
          call.allclauses.map (written hash clauseSelectivity rteRelid call)) := by
  have step (objects : List Entry) (call : SizeCall) :
      aqoGetParameterizedBaserelSize hash clauseSelectivity rteRelid context objects call =
        FirstWrite.insertAll Entry.sameKey objects
          (call.allclauses.map (written hash clauseSelectivity rteRelid call)) := by
    rw [aqoGetParameterizedBaserelSize,getEclasses_sizing,learns,Bool.or_true,if_pos rfl]
    exact cacheClauses_eq hash clauseSelectivity rteRelid call objects call.allclauses
  unfold planCalls
  generalize ([] : List Entry) = objects
  induction calls generalizing objects with
  | nil => rfl
  | cons call calls ih => rw [List.foldl_cons,List.flatMap_cons,FirstWrite.insertAll_append,step,ih]

theorem find_sized (context : Session.QueryContext) (learns : context.learnAqo = true)
    (calls : List SizeCall) (call : SizeCall) (mem : call ∈ calls) (rinfo : RestrictInfo)
    (sized : rinfo ∈ call.allclauses) :
    ∃ call' ∈ calls, ∃ rinfo' ∈ call'.allclauses, rteRelid call'.relid = rteRelid call.relid ∧
      hash.str (hashedText hash call' rinfo') = hash.str (hashedText hash call rinfo) ∧
      selectivityCacheFindGlobalRelid (planCalls hash clauseSelectivity rteRelid context calls)
        (hash.str (hashedText hash call rinfo)) (rteRelid call.relid) =
        some (selectivity2 clauseSelectivity rinfo') := by
  have own : written hash clauseSelectivity rteRelid call rinfo ∈
      calls.flatMap fun call =>
      call.allclauses.map (written hash clauseSelectivity rteRelid call) :=
    List.mem_flatMap.mpr ⟨call,mem,List.mem_map_of_mem sized⟩
  rw [selectivityCacheFindGlobalRelid,planCalls_eq hash clauseSelectivity rteRelid context learns,
    FirstWrite.find?_insertAll,List.nil_append]
  · cases found :
      List.find? (fun cur : Entry => cur.clauseHash = hash.str (hashedText hash call rinfo) &&
        cur.globalRelid = rteRelid call.relid)
        (calls.flatMap fun call =>
          call.allclauses.map (written hash clauseSelectivity rteRelid call)) with
    | none => simpa [written] using List.find?_eq_none.mp found _ own
    | some entry =>
      obtain ⟨call',mem',listed⟩ := List.mem_flatMap.mp (List.mem_of_find?_eq_some found)
      obtain ⟨rinfo',sized',rfl⟩ := List.mem_map.mp listed
      have key := List.find?_some found
      simp only [written,Bool.and_eq_true] at key
      exact ⟨call',mem',rinfo',sized',of_decide_eq_true key.2,of_decide_eq_true key.1,rfl⟩
  · intro entry cur equal
    simp only [Entry.sameKey,Bool.and_eq_true,decide_eq_true_eq] at equal
    rw [equal.1.1,equal.2]

theorem restore_eq (objects : List Entry) (call : SizeCall) :
    restoreSelectivities hash objects call.scanClauses [rteRelid call.relid] .inner true =
      call.scanClauses.map fun rinfo => (selectivityCacheFindGlobalRelid objects
        (hash.str (hashedText hash call rinfo)) (rteRelid call.relid)).getD rinfo.normSelec := by
  unfold restoreSelectivities
  rw [getEclasses_scan]
  refine List.map_congr_left fun rinfo _ => ?_
  simp only [if_true,getClauseHash2,getNodeHash2,hashedText]

theorem mem_scanClauses (call : SizeCall) (rinfo : RestrictInfo) :
    rinfo ∈ call.scanClauses ↔ rinfo ∈ call.allclauses :=
  List.perm_append_comm.mem_iff

/-- Learning gets the planning selectivities back exactly if no two clauses sized for one table
under the same text differ in selectivity. The text of an equality without constants is that of
its first argument, and tables are told apart by their oid, not by their alias. -/
theorem restored_as_planned_iff (noCollisions : Function.Injective hash.str)
    (context : Session.QueryContext) (learns : context.learnAqo = true) (calls : List SizeCall) :
    (∀ call ∈ calls,
        restoreSelectivities hash (planCalls hash clauseSelectivity rteRelid context calls)
        call.scanClauses
          [rteRelid call.relid] .inner true = getSelectivities2 clauseSelectivity
          call.scanClauses) ↔
      ∀ call ∈ calls, ∀ rinfo ∈ call.allclauses, ∀ call' ∈ calls, ∀ rinfo' ∈ call'.allclauses,
        rteRelid call.relid = rteRelid call'.relid → hashedText hash call rinfo =
        hashedText hash call' rinfo' →
          selectivity2 clauseSelectivity rinfo = selectivity2 clauseSelectivity rinfo' := by
  have restored (call : SizeCall) :
      (restoreSelectivities hash (planCalls hash clauseSelectivity rteRelid context calls)
          call.scanClauses [rteRelid call.relid] .inner true = getSelectivities2 clauseSelectivity
          call.scanClauses) ↔
        ∀ rinfo ∈ call.allclauses, (selectivityCacheFindGlobalRelid
          (planCalls hash clauseSelectivity rteRelid context calls)
          (hash.str (hashedText hash call rinfo)) (rteRelid call.relid)).getD rinfo.normSelec =
          selectivity2 clauseSelectivity rinfo := by
    rw [restore_eq,getSelectivities2,List.map_inj_left]
    simp only [mem_scanClauses]
  simp only [restored]
  have found := find_sized hash clauseSelectivity rteRelid context learns calls
  constructor
  · -- Both clauses get the one selectivity that is stored for their key.
    intro all call mem rinfo sized call' mem' rinfo' sized' table text
    obtain ⟨_,_,first,_,_,_,cached⟩ := found call mem rinfo sized
    have one := all call mem rinfo sized
    have other := all call' mem' rinfo' sized'
    rw [← table,← text,cached,Option.getD_some] at other
    rw [cached,Option.getD_some] at one
    exact one.symm.trans other
  · intro agree call mem rinfo sized
    obtain ⟨call',mem',first,sized',table,key,cached⟩ := found call mem rinfo sized
    rw [cached,Option.getD_some]
    exact agree call' mem' first sized' call mem rinfo sized table (noCollisions key)

end Restored

/-- The clause `arg = other` as derived from an equivalence class, whose member `arg` is one and
the same expression in every clause. -/
def derivedEqual (arg other : Node) (selectivity : ℚ) : RestrictInfo where
  clause := int4Clause 96 65 arg other (-1)
  leftRelids := some {1}
  rightRelids := some {2}
  normSelec := selectivity
  outerSelec := -1

def firstAlias (selectivity : ℚ) : SizeCall :=
  ⟨2,[],[derivedEqual (int4Var 1 1 40) (int4Var 2 1 30) selectivity]⟩

def secondAlias (selectivity : ℚ) : SizeCall :=
  ⟨3,[],[derivedEqual (int4Var 1 1 40) (int4Var 3 2 60) selectivity]⟩

def aliasRelid (relid : Nat) : Nat := if relid = 1 then 16390 else 16384

def learningContext : Session.QueryContext := {Session.QueryContext.zero with learnAqo := true}

theorem restored_as_planned_iff_aliases :
    Function.Injective exactHash.str ∧
      ∀ call ∈ [firstAlias (1/2),secondAlias (1/2)],
        restoreSelectivities exactHash
            (planCalls exactHash (fun rinfo _ => rinfo.normSelec) aliasRelid learningContext
              [firstAlias (1/2),secondAlias (1/2)])
            call.scanClauses [aliasRelid call.relid] .inner true =
          getSelectivities2 (fun rinfo _ => rinfo.normSelec) call.scanClauses := by
  refine ⟨exactHash_injective,
    (restored_as_planned_iff exactHash _ aliasRelid exactHash_injective learningContext rfl _).mpr
    ?_⟩
  have half (call : SizeCall) (mem : call ∈ [firstAlias (1/2),secondAlias (1/2)])
    (rinfo : RestrictInfo)
      (sized : rinfo ∈ call.allclauses) :
        selectivity2 (fun rinfo _ => rinfo.normSelec) rinfo = 1/2 := by
    simp only [List.mem_cons,List.not_mem_nil,or_false] at mem
    obtain rfl | rfl := mem
    all_goals
      obtain rfl := List.mem_singleton.mp sized
      rfl
  intro call mem rinfo sized call' mem' rinfo' sized' _ _
  rw [half call mem rinfo sized,half call' mem' rinfo' sized']

/-- Columns of two aliases equated with one outer column: learning reads the selectivity of the
first alias back for the second. -/
theorem alias_selectivity_mixed_up :
    Function.Injective exactHash.str ∧
      restoreSelectivities exactHash
          (planCalls exactHash (fun rinfo _ => rinfo.normSelec) aliasRelid learningContext
            [firstAlias (1/2),secondAlias (1/4)])
          (secondAlias (1/4)).scanClauses [aliasRelid 3] .inner true = [1/2] ∧
      getSelectivities2 (fun rinfo _ => rinfo.normSelec)
      (secondAlias (1/4)).scanClauses = [1/4] := by
  refine ⟨exactHash_injective,?_,rfl⟩
  decide +kernel

end ExploratoryOptimizer.Aqo.SelectivityCache
