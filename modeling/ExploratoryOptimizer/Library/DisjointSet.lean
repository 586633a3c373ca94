import Mathlib.Data.List.Perm.Subperm
import Mathlib.Logic.Function.Basic
import Mathlib.Logic.Relation

/-! Disjoint sets as a forest of parent links with path compression. Searches take fuel; a forest
on finitely many elements never needs more fuel than it has elements. -/
namespace ExploratoryOptimizer.Library.DisjointSet

variable {α : Type}

inductive RootAt (p : α → Option α) : Nat → α → α → Prop where
  | here (v : α) (top : p v = none) : RootAt p 0 v v
  | above (depth : Nat) (v u root : α) (link : p v = some u) (rest : RootAt p depth u root) :
      RootAt p (depth + 1) v root

def HasRoot (p : α → Option α) (v root : α) : Prop := ∃ depth, RootAt p depth v root

def Forest (p : α → Option α) : Prop := ∀ v, ∃ root, HasRoot p v root

def Keeps (p p' : α → Option α) : Prop := ∀ v root, HasRoot p v root → HasRoot p' v root

def Within (elements : List α) (p : α → Option α) : Prop := ∀ v u, p v = some u → u ∈ elements

theorem RootAt.unique (p : α → Option α) (depth depth' : Nat) (v root root' : α)
    (first : RootAt p depth v root) (second : RootAt p depth' v root') :
    depth = depth' ∧ root = root' := by
  induction first generalizing depth' with
  | here v top =>
    cases second with
    | here => exact ⟨rfl,rfl⟩
    | above depth' _ u _ link => simp [top] at link
  | above depth v u root link rest ih =>
    cases second with
    | here _ top => simp [top] at link
    | above depth' _ u' _ link' rest' =>
      rw [link,Option.some.injEq] at link'
      subst link'
      obtain ⟨rfl,rfl⟩ := ih depth' rest'
      exact ⟨rfl,rfl⟩

theorem HasRoot.unique (p : α → Option α) (v root root' : α) (first : HasRoot p v root)
    (second : HasRoot p v root') :
    root = root' :=
  (RootAt.unique p _ _ v root root' first.choose_spec second.choose_spec).2

theorem RootAt.top (p : α → Option α) (depth : Nat) (v root : α)
    (at_depth : RootAt p depth v root) :
    p root = none := by
  induction at_depth with
  | here v top => exact top
  | above depth v u root link rest ih => exact ih

theorem RootAt.mem (p : α → Option α) (elements : List α) (within : Within elements p)
    (depth : Nat) (v root : α) (at_depth : RootAt p depth v root) (mem : v ∈ elements) :
    root ∈ elements := by
  induction at_depth with
  | here v top => exact mem
  | above depth v u root link rest ih => exact ih (within v u link)

/-- Links never come back to an element, because its depth is fixed. -/
theorem RootAt.path (p : α → Option α) (elements : List α) (within : Within elements p)
    (depth : Nat) (v root : α) (at_depth : RootAt p depth v root) (mem : v ∈ elements) :
    ∃ path : List α, path.length = depth + 1 ∧ path.Nodup ∧ path ⊆ elements ∧
      ∀ u ∈ path, ∃ depth' ≤ depth, RootAt p depth' u root := by
  induction at_depth with
  | here v top => exact ⟨[v],rfl,by simp,by simpa using mem,by simpa using .here v top⟩
  | above depth v u root link rest ih =>
    obtain ⟨path,length,nodup,subset,lower⟩ := ih (within v u link)
    refine ⟨v :: path,by simp [length],List.nodup_cons.mpr ⟨fun revisited => ?_,nodup⟩,
      List.cons_subset.mpr ⟨mem,subset⟩,?_⟩
    · obtain ⟨depth',le,at_depth'⟩ := lower v revisited
      have same := (RootAt.unique p _ _ v root root (.above depth v u root link rest) at_depth').1
      omega
    · rintro w (_ | ⟨_,later⟩)
      · exact ⟨depth + 1,Nat.le_refl _,.above depth v u root link rest⟩
      · obtain ⟨depth',le,at_depth'⟩ := lower w later
        exact ⟨depth',Nat.le_succ_of_le le,at_depth'⟩

theorem RootAt.depth_lt (p : α → Option α) (elements : List α) (within : Within elements p)
    (depth : Nat) (v root : α) (at_depth : RootAt p depth v root) (mem : v ∈ elements) :
    depth < elements.length := by
  obtain ⟨path,length,nodup,subset,-⟩ := RootAt.path p elements within depth v root at_depth mem
  have bound := (nodup.subperm subset).length_le
  omega

theorem Keeps.trans (p p' p'' : α → Option α) (first : Keeps p p')
    (second : Keeps p' p'') : Keeps p p'' :=
  fun v root has => second v root (first v root has)

theorem Forest.keeps (p p' : α → Option α) (forest : Forest p)
    (keeps : Keeps p p') : Forest p' := by
  intro v
  obtain ⟨root,has⟩ := forest v
  exact ⟨root,keeps v root has⟩

def Linked (pairs : List (α × α)) : α → α → Prop := Relation.EqvGen fun v w => (v,w) ∈ pairs

theorem Linked.mono (pairs pairs' : List (α × α)) (subset : pairs ⊆ pairs') (v w : α)
    (linked : Linked pairs v w) :
    Linked pairs' v w :=
  Relation.EqvGen.mono (fun _ _ mem => subset mem) v w linked

theorem Linked.map {β : Type} (f : α → β) (pairs : List (α × α)) (v w : α)
    (linked : Linked pairs v w) :
    Linked (pairs.map (Prod.map f f)) (f v) (f w) := by
  induction linked with
  | rel v w mem => exact .rel _ _ (List.mem_map_of_mem mem)
  | refl v => exact .refl _
  | symm v w _ ih => exact .symm _ _ ih
  | trans u v w _ _ first second => exact .trans _ _ _ first second

/-- Two elements have the same root exactly if a chain of pairs links them. -/
structure Represents (p : α → Option α) (pairs : List (α × α)) : Prop where
  forest : Forest p
  linked (v w root root' : α) (has : HasRoot p v root) (has' : HasRoot p w root') :
    root = root' ↔ Linked pairs v w

theorem Represents.keeps (p p' : α → Option α) (pairs : List (α × α))
    (represents : Represents p pairs) (keeps : Keeps p p') : Represents p' pairs := by
  refine ⟨represents.forest.keeps p p' keeps,fun v w root root' has has' => ?_⟩
  obtain ⟨first,rooted⟩ := represents.forest v
  obtain ⟨second,rooted'⟩ := represents.forest w
  rw [HasRoot.unique p' v root first has (keeps v first rooted),
    HasRoot.unique p' w root' second has' (keeps w second rooted')]
  exact represents.linked v w first second rooted rooted'

theorem represents_nil : Represents (fun _ : α => none) [] where
  forest v := ⟨v,0,.here v rfl⟩
  linked := by
    rintro v w root root' ⟨_,⟨⟩ | ⟨_,_,_,_,⟨⟩⟩⟩ ⟨_,⟨⟩ | ⟨_,_,_,_,⟨⟩⟩⟩
    constructor
    · rintro rfl
      exact .refl v
    · intro linked
      induction linked with
      | rel _ _ mem => simp at mem
      | refl => rfl
      | symm _ _ _ ih => exact ih.symm
      | trans _ _ _ _ _ first second => exact first.trans second

theorem represents_again (p : α → Option α) (pairs : List (α × α))
    (represents : Represents p pairs) (v w : α) (already : Linked pairs v w) :
    Represents p (pairs ++ [(v,w)]) := by
  refine ⟨represents.forest,fun a b root root' has has' => ?_⟩
  rw [represents.linked a b root root' has has']
  refine ⟨Linked.mono pairs _ (List.subset_append_left ..) a b,fun linked => ?_⟩
  induction linked generalizing root root' with
  | rel a b mem =>
    obtain earlier | pair := List.mem_append.mp mem
    · exact .rel a b earlier
    · obtain ⟨rfl,rfl⟩ := Prod.mk.inj (List.mem_singleton.mp pair)
      exact already
  | refl a => exact .refl a
  | symm a b _ ih => exact (ih root' root has' has).symm _ _
  | trans a b c _ _ first second =>
    obtain ⟨middle,between⟩ := represents.forest b
    exact (first root middle has between).trans _ _ _ (second middle root' between has')

section Search

variable [DecidableEq α]

open Classical in
theorem members_of_root {β : Type} (p : α → Option α) (pairs : List (α × α))
    (represents : Represents p pairs) (vs roots : List α)
    (rooted : List.Forall₂ (HasRoot p) vs roots) (w root : α) (has : HasRoot p w root) (f : α → β) :
    ((vs.zip roots).filter fun entry => entry.2 = root).map (fun entry => f entry.1) =
      (vs.filter fun v => Linked pairs v w).map f := by
  induction rooted with
  | nil => rfl
  | @cons v root' vs roots first rest ih =>
    have same := represents.linked v w root' root first has
    by_cases member : root' = root
    · simp [member,same.mp member,ih]
    · have apart : ¬Linked pairs v w := fun linked => member (same.mpr linked)
      simp [member,apart,ih]

def getParent : Nat → (α → Option α) → α → Option (α × (α → Option α))
  | 0,_,_ => none
  | fuel + 1,p,v =>
    match p v with
    | none => some (v,p)
    | some u =>
      (getParent fuel p u).map fun found => (found.1,Function.update found.2 v (some found.1))

theorem compress_keeps (p : α → Option α) (v root : α) (has : HasRoot p v root) (lower : v ≠ root) :
    Keeps p (Function.update p v (some root)) := by
  rintro u root' ⟨depth,at_depth⟩
  induction at_depth with
  | here u top =>
    have other : u ≠ v := by
      rintro rfl
      exact lower (HasRoot.unique p u u root ⟨0,.here u top⟩ has)
    exact ⟨0,.here u (by rwa [Function.update_of_ne other])⟩
  | above depth u w root' link rest ih =>
    by_cases same : u = v
    · subst same
      have equal := HasRoot.unique p u root root' has ⟨depth + 1,.above depth u w root' link rest⟩
      subst equal
      have top : p root = none := RootAt.top p depth w root rest
      refine ⟨1,.above 0 u root root (Function.update_self ..) (.here root ?_)⟩
      rwa [Function.update_of_ne (Ne.symm lower)]
    · obtain ⟨depth',at_depth'⟩ := ih
      exact ⟨depth' + 1,.above depth' u w root' (by rwa [Function.update_of_ne same]) at_depth'⟩

theorem update_within (elements : List α) (p : α → Option α) (v u : α) (within : Within elements p)
    (mem : u ∈ elements) : Within elements (Function.update p v (some u)) := by
  intro w w' link
  by_cases same : w = v
  · subst same
    rw [Function.update_self,Option.some.injEq] at link
    exact link ▸ mem
  · rw [Function.update_of_ne same] at link
    exact within w w' link

theorem getParent_finds (elements : List α) (p : α → Option α) (within : Within elements p)
    (depth fuel : Nat) (v root : α) (at_depth : RootAt p depth v root) (mem : v ∈ elements)
    (enough : depth < fuel) :
    ∃ p', getParent fuel p v = some (root,p') ∧ Keeps p p' ∧ Within elements p' := by
  induction at_depth generalizing fuel with
  | here v top =>
    cases fuel with
    | zero => omega
    | succ fuel => exact ⟨p,by simp [getParent,top],fun _ _ has => has,within⟩
  | above depth v u root link rest ih =>
    cases fuel with
    | zero => omega
    | succ fuel =>
      obtain ⟨p',found,keeps,within'⟩ := ih fuel (within v u link) (Nat.lt_of_succ_lt_succ enough)
      have lower : v ≠ root := by
        rintro rfl
        simp [RootAt.top p depth u v rest] at link
      have has : HasRoot p' v root := keeps v root ⟨depth + 1,.above depth v u root link rest⟩
      refine ⟨Function.update p' v (some root),by simp [getParent,link,found],
        keeps.trans _ _ _ (compress_keeps p' v root has lower),
        update_within elements p' v root within' ?_⟩
      exact RootAt.mem p elements within depth u root rest (within v u link)

def getParents (fuel : Nat) : (α → Option α) → List α → Option (List α × (α → Option α))
  | p,[] => some ([],p)
  | p,v :: vs => (getParent fuel p v).bind fun found =>
      (getParents fuel found.2 vs).map fun rest => (found.1 :: rest.1,rest.2)

theorem getParents_finds (elements : List α) (p : α → Option α) (within : Within elements p)
    (forest : Forest p) (vs : List α) (mem : vs ⊆ elements) :
    ∃ roots p', getParents elements.length p vs = some (roots,p') ∧
      List.Forall₂ (HasRoot p) vs roots ∧ Keeps p p' ∧ Within elements p' := by
  induction vs generalizing p with
  | nil => exact ⟨[],p,rfl,.nil,fun _ _ has => has,within⟩
  | cons v vs ih =>
    obtain ⟨first,later⟩ := List.cons_subset.mp mem
    obtain ⟨root,depth,at_depth⟩ := forest v
    obtain ⟨p',found,keeps,within'⟩ :=
      getParent_finds elements p within depth elements.length v root at_depth first
        (RootAt.depth_lt p elements within depth v root at_depth first)
    have forest' := forest.keeps p p' keeps
    obtain ⟨roots,p'',founds,rooted,keeps',within''⟩ := ih p' within' forest' later
    refine ⟨root :: roots,p'',by simp [getParents,found,founds],.cons ⟨depth,at_depth⟩ ?_,
      keeps.trans _ _ _ keeps',within''⟩
    refine rooted.imp fun u root' has => ?_
    obtain ⟨root'',has'⟩ := forest u
    exact HasRoot.unique p' u root'' root' (keeps u root'' has') has ▸ has'

def merge (fuel : Nat) (below : α → α → Bool) (p : α → Option α) (v w : α) : Option
    (α → Option α) :=
  (getParent fuel p v).bind fun first => (getParent fuel first.2 w).map fun second =>
    if first.1 = second.1 then second.2
    else if below v w then Function.update second.2 first.1 (some second.1)
    else Function.update second.2 second.1 (some first.1)

end Search

section Classes

variable [DecidableEq α]

theorem link_root (p : α → Option α) (top top' : α) (isTop : p top = none) (isTop' : p top' = none)
    (distinct : top ≠ top') (v root : α) (has : HasRoot p v root) :
    HasRoot (Function.update p top (some top')) v (if root = top then top' else root) := by
  have upper : Function.update p top (some top') top' = none := by
    rwa [Function.update_of_ne distinct.symm]
  obtain ⟨depth,at_depth⟩ := has
  induction at_depth with
  | here v free =>
    by_cases same : v = top
    · subst same
      rw [if_pos rfl]
      exact ⟨1,.above 0 v top' top' (Function.update_self ..) (.here top' upper)⟩
    · rw [if_neg same]
      exact ⟨0,.here v (by rwa [Function.update_of_ne same])⟩
  | above depth v u root link rest ih =>
    obtain ⟨depth',at_depth'⟩ := ih
    have other : v ≠ top := by
      rintro rfl
      simp [isTop] at link
    exact ⟨depth' + 1,.above depth' v u _ (by rwa [Function.update_of_ne other]) at_depth'⟩

theorem link_represents (p : α → Option α) (pairs pairs' : List (α × α))
    (represents : Represents p pairs) (v w top top' : α) (has : HasRoot p v top)
    (has' : HasRoot p w top') (distinct : top ≠ top') (subset : pairs ⊆ pairs')
    (joined : Linked pairs' v w)
    (only : ∀ pair ∈ pairs', pair ∈ pairs ∨ pair = (v,w) ∨ pair = (w,v)) :
    Represents (Function.update p top (some top')) pairs' := by
  have isTop : p top = none := RootAt.top p _ v top has.choose_spec
  have isTop' : p top' = none := RootAt.top p _ w top' has'.choose_spec
  have moved := link_root p top top' isTop isTop' distinct
  have alike (a b root : α) (rooted : HasRoot p a root) (rooted' : HasRoot p b root) :
    Linked pairs' a b :=
    Linked.mono pairs pairs' subset a b ((represents.linked a b root root rooted rooted').mp rfl)
  -- Roots are the old ones with top replaced by top', so it is enough to compare old roots.
  have classes (a b root root' : α) (rooted : HasRoot p a root) (rooted' : HasRoot p b root') :
      ((if root = top then top' else root) = if root' = top then top' else root') ↔
        Linked pairs' a b := by
    constructor
    · intro equal
      by_cases moves : root = top
      · subst moves
        by_cases moves' : root' = root
        · subst moves'
          exact alike a b root' rooted rooted'
        · rw [if_pos rfl,if_neg moves'] at equal
          subst equal
          exact ((alike a v root rooted has).trans _ _ _ joined).trans _ _ _
            (alike w b top' has' rooted')
      · by_cases moves' : root' = top
        · subst moves'
          rw [if_neg moves,if_pos rfl] at equal
          subst equal
          exact ((alike a w root rooted has').trans _ _ _ (joined.symm _ _)).trans _ _ _
            (alike v b root' has rooted')
        · rw [if_neg moves,if_neg moves'] at equal
          subst equal
          exact alike a b root rooted rooted'
    · intro linked
      induction linked generalizing root root' with
      | rel a b mem =>
        obtain earlier | pair | pair := only (a,b) mem
        · rw [(represents.linked a b root root' rooted rooted').mpr (.rel a b earlier)]
        · obtain ⟨rfl,rfl⟩ := Prod.mk.inj pair
          simp [HasRoot.unique p a root top rooted has,HasRoot.unique p b root' top' rooted' has']
        · obtain ⟨rfl,rfl⟩ := Prod.mk.inj pair
          simp [HasRoot.unique p a root top' rooted has',HasRoot.unique p b root' top rooted' has]
      | refl a => rw [HasRoot.unique p a root root' rooted rooted']
      | symm a b _ ih => exact (ih root' root rooted' rooted).symm
      | trans a b c _ _ first second =>
        obtain ⟨middle,between⟩ := represents.forest b
        exact (first root middle rooted between).trans (second middle root' between rooted')
  refine ⟨fun a => ?_,fun a b root root' rooted rooted' => ?_⟩
  · obtain ⟨root,rooted⟩ := represents.forest a
    exact ⟨_,moved a root rooted⟩
  · obtain ⟨first,old⟩ := represents.forest a
    obtain ⟨second,old'⟩ := represents.forest b
    rw [HasRoot.unique _ a root _ rooted (moved a first old),HasRoot.unique _ b root' _ rooted'
      (moved b second old')]
    exact classes a b first second old old'

theorem merge_represents (elements : List α) (below : α → α → Bool) (p : α → Option α)
    (pairs : List (α × α)) (within : Within elements p) (represents : Represents p pairs) (v w : α)
    (mem : v ∈ elements) (mem' : w ∈ elements) :
    ∃ p', merge elements.length below p v w = some p' ∧ Represents p' (pairs ++ [(v,w)]) ∧
      Within elements p' := by
  obtain ⟨top,depth,at_depth⟩ := represents.forest v
  obtain ⟨q,found,keeps,within'⟩ :=
    getParent_finds elements p within depth elements.length v top at_depth mem
      (RootAt.depth_lt p elements within depth v top at_depth mem)
  have represents' := represents.keeps p q pairs keeps
  obtain ⟨top',depth',at_depth'⟩ := represents'.forest w
  obtain ⟨r,found',keeps',within''⟩ :=
    getParent_finds elements q within' depth' elements.length w top' at_depth' mem'
      (RootAt.depth_lt q elements within' depth' w top' at_depth' mem')
  have represents'' := represents'.keeps q r pairs keeps'
  have has : HasRoot r v top := keeps' v top (keeps v top ⟨depth,at_depth⟩)
  have has' : HasRoot r w top' := keeps' w top' ⟨depth',at_depth'⟩
  have only (pair : α × α) (joined : pair ∈ pairs ++ [(v,w)]) : pair ∈ pairs ∨ pair = (v,w) := by
    simpa using joined
  have joined : Linked (pairs ++ [(v,w)]) v w := .rel v w (by simp)
  have member : top ∈ elements := RootAt.mem p elements within depth v top at_depth mem
  have member' : top' ∈ elements := RootAt.mem q elements within' depth' w top' at_depth' mem'
  simp only [merge,found,found',Option.bind_some,Option.map_some,Option.some.injEq,exists_eq_left']
  by_cases same : top = top'
  · rw [if_pos same]
    exact ⟨represents_again r pairs represents'' v w
      ((represents''.linked v w top top' has has').mp same),within''⟩
  · rw [if_neg same]
    by_cases way : below v w = true
    · rw [if_pos way]
      exact ⟨link_represents r pairs _ represents'' v w top top' has has' same
        (List.subset_append_left ..) joined (fun pair mem => (only pair mem).imp_right .inl),
        update_within elements r top top' within'' member'⟩
    · rw [if_neg way]
      exact ⟨link_represents r pairs _ represents'' w v top' top has' has (Ne.symm same)
        (List.subset_append_left ..) (joined.symm _ _)
        (fun pair mem => (only pair mem).imp_right .inr),
        update_within elements r top' top within'' member⟩

def mergeAll (fuel : Nat) (below : α → α → Bool) : (α → Option α) → List (α × α) →
    Option (α → Option α)
  | p,[] => some p
  | p,(v,w) :: pairs => (merge fuel below p v w).bind fun p' => mergeAll fuel below p' pairs

theorem mergeAll_append (fuel : Nat) (below : α → α → Bool) (p : α → Option α)
    (pairs pairs' : List (α × α)) :
    mergeAll fuel below p (pairs ++ pairs') =
      (mergeAll fuel below p pairs).bind fun p' => mergeAll fuel below p' pairs' := by
  induction pairs generalizing p with
  | nil => rfl
  | cons pair pairs ih =>
    rw [List.cons_append,mergeAll,mergeAll,Option.bind_assoc]
    exact congrArg _ (funext fun p' => ih p')

/-- Merging pairs one after the other ends with the classes the pairs generate. -/
theorem mergeAll_represents (elements : List α) (below : α → α → Bool) (pairs : List (α × α))
    (mem : ∀ pair ∈ pairs, pair.1 ∈ elements ∧ pair.2 ∈ elements) :
    ∃ p, mergeAll elements.length below (fun _ => none) pairs = some p ∧ Represents p pairs ∧
      Within elements p := by
  suffices from_any : ∀ (p : α → Option α) (earlier : List (α × α)), Represents p earlier →
    Within elements p →
      ∃ p', mergeAll elements.length below p pairs = some p' ∧ Represents p' (earlier ++ pairs) ∧
      Within elements p' by
    exact from_any _ [] represents_nil (fun _ _ link => nomatch link)
  induction pairs with
  | nil =>
    intro p earlier represents within
    exact ⟨p,rfl,by rwa [List.append_nil],within⟩
  | cons pair pairs ih =>
    intro p earlier represents within
    obtain ⟨v,w⟩ := pair
    obtain ⟨first,later⟩ := List.forall_mem_cons.mp mem
    obtain ⟨q,merged,represents',within'⟩ :=
      merge_represents elements below p earlier within represents v w first.1
      first.2
    obtain ⟨p',rest,represents'',within''⟩ := ih later q (earlier ++ [(v,w)]) represents' within'
    refine ⟨p',by rw [mergeAll,merged,Option.bind_some,rest],?_,within''⟩
    rwa [List.append_assoc] at represents''

end Classes

end ExploratoryOptimizer.Library.DisjointSet
