import ExploratoryOptimizer.Library.Unrolled
import ExploratoryOptimizer.Aqo.Lwpr.Update
import Mathlib.Algebra.BigOperators.Group.Finset.Basic

/-! The `lwpr_math` vector functions as they are written: unrolled loops over memory, with pointers
that move on by a block. The other modules of the model use what they compute. -/
namespace ExploratoryOptimizer.Aqo.Lwpr.Kernels
open Library.Unrolled Library.FixedArray
open scoped BigOperators

/-- The doubles in memory; an address counts doubles. -/
abbrev Memory := Nat → ℚ

structure Pointers where
  y : Nat
  x : Nat

def Pointers.move (distance : Nat) (pointers : Pointers) : Pointers :=
  ⟨pointers.y + distance,pointers.x + distance⟩

def lwprMathDotProduct (memory : Memory) (x y n : Nat) : ℚ :=
  unrolled 4 (Pointers.move 4)
    (fun pointers i dp => dp + memory (pointers.y + i) * memory (pointers.x + i)) ⟨y,x⟩ n 0

/-- The loop of the functions that write `y`; `result` is the right hand side of their
assignments. -/
def vectorLoop (result : ℚ → ℚ → ℚ) (memory : Memory) (y x n : Nat) : Memory :=
  unrolled 8 (Pointers.move 8)
    (fun pointers i memory => Function.update memory (pointers.y + i)
      (result (memory (pointers.y + i)) (memory (pointers.x + i)))) ⟨y,x⟩ n memory

def lwprMathAddScalarVector (memory : Memory) (y : Nat) (a : ℚ) (x n : Nat) : Memory :=
  vectorLoop (fun yi xi => yi + a * xi) memory y x n

def lwprMathScalarVector (memory : Memory) (y : Nat) (a : ℚ) (x n : Nat) : Memory :=
  vectorLoop (fun _ xi => a * xi) memory y x n

def lwprMathScaleAddScalarVector (memory : Memory) (b : ℚ) (y : Nat) (a : ℚ) (x n : Nat) : Memory :=
  vectorLoop (fun yi xi => b * yi + a * xi) memory y x n

/-- Two vectors without a common element. -/
def Apart (x n y m : Nat) : Prop := x + n ≤ y ∨ y + m ≤ x

/-- Element `i` of the vector `y` has become `value i`, and nothing else has changed. -/
structure Assigned (before after : Memory) (y n : Nat) (value : Nat → ℚ) : Prop where
  element : ∀ i < n, after (y + i) = value i
  others : ∀ address, (∀ i < n, address ≠ y + i) → after address = before address

theorem lwprMathDotProduct_sum (memory : Memory) (x y n : Nat) :
    lwprMathDotProduct memory x y n = ∑ i ∈ Finset.range n, memory (x + i) * memory (y + i) := by
  obtain ⟨order,permuted,runs⟩ := unrolled_order 4 (Pointers.move 4)
    (fun pointers i dp => dp + memory (pointers.y + i) * memory (pointers.x + i))
    (fun pointers i => by simp only [Pointers.move,Nat.add_assoc]) n
  rw [lwprMathDotProduct,runs]
  calc order.foldl (fun dp i => dp + memory (y + i) * memory (x + i)) 0
    _ = (order.map fun i => memory (y + i) * memory (x + i)).sum := by
      rw [List.sum_eq_foldl,List.foldl_map]
    _ = ((List.range n).map fun i => memory (y + i) * memory (x + i)).sum := (permuted.map _).sum_eq
    _ = ∑ i ∈ Finset.range n, memory (x + i) * memory (y + i) := by
      simp only [mul_comm]
      rfl

/-- Elements of the two vectors may share an address only at the same index. -/
theorem vectorLoop_assigned (result : ℚ → ℚ → ℚ) (memory : Memory) (y x n : Nat)
    (unshared : ∀ i < n, ∀ j < n, x + i = y + j → i = j) :
    Assigned memory (vectorLoop result memory y x n) y n
      fun i => result (memory (y + i)) (memory (x + i)) := by
  obtain ⟨order,permuted,runs⟩ := unrolled_order 8 (Pointers.move 8)
    (fun pointers i (memory : Memory) => Function.update memory (pointers.y + i)
      (result (memory (pointers.y + i)) (memory (pointers.x + i))))
    (fun pointers i => by simp only [Pointers.move,Nat.add_assoc]) n
  have visited : ∀ i, i ∈ order ↔ i < n := by
    intro i
    rw [permuted.mem_iff,List.mem_range]
  have written : vectorLoop result memory y x n =
      writes (y + ·) (fun i memory => result (memory (y + i)) (memory (x + i))) order memory :=
        runs ⟨y,x⟩ memory
  rw [written]
  constructor
  · intro i bound
    apply writes_place (y + ·) _ order (permuted.nodup_iff.mpr List.nodup_range) _ _ memory i
      ((visited i).mpr bound)
    · intro i _ j _ same
      exact Nat.add_left_cancel same
    · intro i first j second different memory new
      -- neither operand of line `i` is the element that line `j` has written
      have own : y + i ≠ y + j := fun same => different (Nat.add_left_cancel same)
      have operand : x + i ≠ y + j := fun same =>
        different (unshared i ((visited i).mp first) j ((visited j).mp second) same)
      rw [Function.update_of_ne own,Function.update_of_ne operand]
  · intro address other
    exact writes_other _ _ order memory address fun i member => other i ((visited i).mp member)

theorem Apart.unshared {x y n : Nat} (apart : Apart x n y n) (i : Nat) (bound : i < n) (j : Nat)
    (bound' : j < n) (same : x + i = y + j) : i = j := by
  unfold Apart at apart
  omega

theorem kernels_meet_specifications (memory : Memory) (x y n : Nat) (a b : ℚ)
    (apart : Apart x n y n) :
    lwprMathDotProduct memory x y n = ∑ i ∈ Finset.range n, memory (x + i) * memory (y + i) ∧
      Assigned memory (lwprMathAddScalarVector memory y a x n) y n
        (fun i => memory (y + i) + a * memory (x + i)) ∧
      Assigned memory (lwprMathScalarVector memory y a x n) y n (fun i => a * memory (x + i)) ∧
      Assigned memory (lwprMathScaleAddScalarVector memory b y a x n) y n
        (fun i => b * memory (y + i) + a * memory (x + i)) := by
  refine ⟨lwprMathDotProduct_sum memory x y n,?_,?_,?_⟩
  · exact vectorLoop_assigned _ memory y x n apart.unshared
  · exact vectorLoop_assigned _ memory y x n apart.unshared
  · exact vectorLoop_assigned _ memory y x n apart.unshared

/-- One block and three lines of the rest; `y` starts five doubles behind the end of `x`. -/
theorem kernels_meet_specifications_eleven :
    Apart 0 11 16 11 ∧ lwprMathDotProduct (fun k => k) 0 16 11 = 1265 ∧
      lwprMathAddScalarVector (fun k => k) 16 2 0 11 26 = 46 ∧
      lwprMathScalarVector (fun k => k) 16 2 0 11 18 = 4 ∧
      lwprMathScaleAddScalarVector (fun k => k) 3 16 2 0 11 26 = 98 ∧
      lwprMathScaleAddScalarVector (fun k => k) 3 16 2 0 11 27 = 27 := by
  have apart : Apart 0 11 16 11 := .inl (by decide)
  obtain ⟨product,added,scaled,both⟩ := kernels_meet_specifications (fun k => k) 0 16 11 2 3 apart
  refine ⟨apart,?_,?_,?_,?_,?_⟩
  · rw [product]
    decide +kernel
  · exact (added.element 10 (by decide)).trans (by norm_num)
  · exact (scaled.element 2 (by decide)).trans (by norm_num)
  · exact (both.element 10 (by decide)).trans (by norm_num)
  · exact both.others 27 (by omega)

/-! `lwpr_aux_compute_projection` in memory, against the model's projection. -/

section Projection

variable {nIn : Nat}

/-- The memory from `base` on holds the array. -/
def Holds {size : Nat} (memory : Memory) (base : Nat) (cells : Cells ℚ size) : Prop :=
  ∀ i < size, memory (base + i) = cells.get i

/-- Where the function finds its arguments and its working copy of the input. It writes `s` and `xu`
only, which share nothing with each other or with the axes. -/
structure ProjectionBuffers (nIn nReg : Nat) where
  s : Nat
  xu : Nat
  U : Nat
  P : Nat
  enough : nReg ≤ nIn
  separateOutput : Apart s nReg xu nIn
  outputAxes : Apart s nReg U (nInStore nIn * nIn)
  outputInputs : Apart s nReg P (nInStore nIn * nIn)
  workAxes : Apart xu nIn U (nInStore nIn * nIn)
  workInputs : Apart xu nIn P (nInStore nIn * nIn)

variable {nReg : Nat} (buffers : ProjectionBuffers nIn nReg)

def axisLoading (memory : Memory) (j : Nat) : ℚ :=
  lwprMathDotProduct memory (buffers.U + j * nInStore nIn) buffers.xu nIn

/-- Stores the loading of axis `j` and takes its part out of the working copy. -/
def projectAxis (memory : Memory) (j : Nat) : Memory :=
  let sj := axisLoading buffers memory j
  lwprMathAddScalarVector (Function.update memory (buffers.s + j) sj) buffers.xu (-sj)
    (buffers.P + j * nInStore nIn) nIn

/-- Axes `j` to `j + count`; the last one leaves the working copy alone. -/
def projectionLoop : Nat → Nat → Memory → Memory
  | 0,j,memory => Function.update memory (buffers.s + j) (axisLoading buffers memory j)
  | count + 1,j,memory => projectionLoop count (j + 1) (projectAxis buffers memory j)

def copyInput (memory : Memory) (x : Nat) : Memory :=
  writes (buffers.xu + ·) (fun i memory => memory (x + i)) (List.range nIn) memory

def lwprAuxComputeProjection (memory : Memory) (x : Nat) : Memory :=
  projectionLoop buffers (nReg - 1) 0 (copyInput buffers memory x)

theorem column_within {j i : Nat} (axis : j < nIn) (bound : i < nIn) :
    i + j * nInStore nIn < nInStore nIn * nIn := by
  calc i + j * nInStore nIn
    _ < nInStore nIn + j * nInStore nIn := Nat.add_lt_add_right (lt_nInStore bound) _
    _ = nInStore nIn * (j + 1) := by ring
    _ ≤ nInStore nIn * nIn := Nat.mul_le_mul_left _ axis

theorem Holds.column {memory : Memory} {base : Nat} {square : Square nIn}
    (holds : Holds memory base square) {j i : Nat} (axis : j < nIn) (bound : i < nIn) : memory
    (base + j * nInStore nIn + i) = square.column j i := by
  rw [Nat.add_assoc,Nat.add_comm (j * nInStore nIn) i]
  exact holds _ (column_within axis bound)

theorem Holds.frame {size : Nat} {memory after : Memory} {base : Nat} {cells : Cells ℚ size}
    (holds : Holds memory base cells) (same : ∀ i < size, after (base + i) = memory (base + i)) :
    Holds after base cells := by
  intro i bound
  rw [same i bound,holds i bound]

/-- What the memory holds when an axis is projected: the axes, their inputs, and the input that is
left. -/
structure Loaded (memory : Memory) (U P : Square nIn) (x : Cells ℚ nIn) : Prop where
  axes : Holds memory buffers.U U
  inputs : Holds memory buffers.P P
  work : Holds memory buffers.xu x

variable {buffers} {memory : Memory} {U P : Square nIn} {x : Cells ℚ nIn}

theorem Loaded.axisLoading (loaded : Loaded buffers memory U P x) {j : Nat} (axis : j < nIn) :
    axisLoading buffers memory j = Lwpr.lwprMathDotProduct (U.column j) x.get nIn := by
  rw [Kernels.axisLoading,lwprMathDotProduct_sum]
  change _ = ∑ i ∈ Finset.range nIn, x.get i * U.column j i
  apply Finset.sum_congr rfl
  intro i member
  have bound := Finset.mem_range.mp member
  rw [loaded.axes.column axis bound,loaded.work i bound,mul_comm]

theorem projectAxis_assigned (memory : Memory) {j : Nat} (axis : j < nIn) :
    Assigned (Function.update memory (buffers.s + j) (axisLoading buffers memory j))
      (projectAxis buffers memory j) buffers.xu nIn fun i =>
        Function.update memory (buffers.s + j) (axisLoading buffers memory j) (buffers.xu + i) +
          -axisLoading buffers memory j *
            Function.update memory (buffers.s + j) (axisLoading buffers memory j)
              (buffers.P + j * nInStore nIn + i) := by
  apply vectorLoop_assigned fun yi xi => yi + -axisLoading buffers memory j * xi
  intro i bound k bound' same
  -- the inputs of the axis lie apart from the working copy
  have inside := column_within axis bound
  have apart := buffers.workInputs
  unfold Apart at apart
  omega

/-- A vector that shares nothing with the output and the working copy is not written. -/
theorem projectAxis_frame {j base size : Nat} (axis : j < nReg)
    (output : Apart buffers.s nReg base size) (work : Apart buffers.xu nIn base size) (i : Nat)
    (bound : i < size) :
    projectAxis buffers memory j (base + i) = memory (base + i) := by
  unfold Apart at output work
  have enough := buffers.enough
  rw [(projectAxis_assigned memory (by omega)).others (base + i) (by omega),
    Function.update_of_ne (by omega)]

theorem projectAxis_output {j k : Nat} (axis : j < nReg) (other : k < nReg) :
    projectAxis buffers memory j (buffers.s + k) =
      if k = j then axisLoading buffers memory j else memory (buffers.s + k) := by
  have apart := buffers.separateOutput
  have enough := buffers.enough
  unfold Apart at apart
  rw [(projectAxis_assigned memory (by omega)).others (buffers.s + k) (by omega)]
  split_ifs with same
  · rw [same,Function.update_self]
  · rw [Function.update_of_ne (by omega)]

theorem Loaded.projectAxis_work (loaded : Loaded buffers memory U P x) {j : Nat} (axis : j < nReg) :
    Holds (projectAxis buffers memory j) buffers.xu
      (Cells.fill fun i => x.get i - P.column j i * Lwpr.lwprMathDotProduct
        (U.column j) x.get nIn : Cells ℚ nIn) := by
  intro i bound
  have axis' : j < nIn := axis.trans_le buffers.enough
  have inside := column_within axis' bound
  have apart := buffers.separateOutput
  have apart' := buffers.outputInputs
  unfold Apart at apart apart'
  rw [(projectAxis_assigned memory axis').element i bound,Function.update_of_ne (by omega),
    Function.update_of_ne (by omega),Cells.get_fill _ i bound,loaded.work i bound,
    loaded.inputs.column axis' bound,loaded.axisLoading axis']
  ring

theorem Loaded.projectAxis (loaded : Loaded buffers memory U P x) {j : Nat} (axis : j < nReg) :
    Loaded buffers (projectAxis buffers memory j) U P
      (Cells.fill fun i => x.get i - P.column j i * Lwpr.lwprMathDotProduct (U.column j) x.get nIn)
      where
  axes := loaded.axes.frame (projectAxis_frame axis buffers.outputAxes buffers.workAxes)
  inputs := loaded.inputs.frame (projectAxis_frame axis buffers.outputInputs buffers.workInputs)
  work := loaded.projectAxis_work axis

/-- Loadings of earlier axes stay as they are. -/
theorem projectionLoop_earlier (memory : Memory) (count j : Nat) (within : j + count < nReg)
    (k : Nat) (earlier : k < j) :
    projectionLoop buffers count j memory (buffers.s + k) = memory (buffers.s + k) := by
  induction count generalizing j memory with
  | zero => exact Function.update_of_ne (by omega) ..
  | succ count ih =>
    rw [projectionLoop,ih _ (j + 1) (by omega) (by omega),projectAxis_output (by omega) (by omega),
      if_neg (by omega)]

theorem projectionLoop_loadings (loaded : Loaded buffers memory U P x) (count j : Nat)
    (within : j + count < nReg) (k : Nat) (bound : k ≤ count) :
    projectionLoop buffers count j memory (buffers.s + (j + k)) =
      ((projectionSteps U P (count + 1) j x).map Prod.fst).getD k 0 := by
  have enough := buffers.enough
  induction count generalizing j k memory x with
  | zero =>
    obtain rfl : k = 0 := by omega
    rw [projectionLoop,Nat.add_zero,Function.update_self,loaded.axisLoading (by omega)]
    rfl
  | succ count ih =>
    rw [projectionLoop,projectionSteps,List.map_cons]
    cases k with
    | zero =>
      rw [Nat.add_zero j,projectionLoop_earlier _ count (j + 1) (by omega) j (by omega),
        projectAxis_output (by omega) (by omega),if_pos rfl,loaded.axisLoading (by omega)]
      rfl
    | succ k =>
      rw [List.getD_cons_succ,← ih (loaded.projectAxis (by omega)) (j + 1) (by omega) k (by omega)]
      congr 2
      omega

theorem copyInput_frame {input base size : Nat} (work : Apart buffers.xu nIn base size) (i : Nat)
    (bound : i < size) :
    copyInput buffers memory input (base + i) = memory (base + i) := by
  unfold Apart at work
  apply writes_other
  intro j member
  have bound' := List.mem_range.mp member
  omega

theorem copyInput_work {input : Nat} (given : Holds memory input x)
    (apart : Apart input nIn buffers.xu nIn) :
    Holds (copyInput buffers memory input) buffers.xu x := by
  intro i bound
  rw [copyInput,writes_place (buffers.xu + ·) _ _ List.nodup_range _ _ memory i
    (List.mem_range.mpr bound),given i bound]
  · intro i _ j _ same
    exact Nat.add_left_cancel same
  · intro i first j second different memory new
    apply Function.update_of_ne
    intro same
    exact different (apart.unshared i (List.mem_range.mp first) j (List.mem_range.mp second) same)

/-- The loadings in memory are those of the model. -/
theorem lwprAuxComputeProjection_loadings (axes : Holds memory buffers.U U)
    (inputs : Holds memory buffers.P P) {input : Nat} (given : Holds memory input x)
    (apart : Apart input nIn buffers.xu nIn) (k : Nat) (bound : k < nReg) :
    lwprAuxComputeProjection buffers memory input (buffers.s + k) =
      (Lwpr.lwprAuxComputeProjection U P nReg x).getD k 0 := by
  have copied : Loaded buffers (copyInput buffers memory input) U P x :=
    ⟨axes.frame (copyInput_frame buffers.workAxes),
      inputs.frame (copyInput_frame buffers.workInputs),copyInput_work given apart⟩
  have loadings := projectionLoop_loadings copied (nReg - 1) 0 (by omega) k (by omega)
  rw [Nat.zero_add,Nat.sub_add_cancel (by omega)] at loadings
  exact loadings

/-- The linear prediction of a field is the sum that `lwpr_aux_predict_conf_one_T` forms from the
loadings in memory. -/
theorem localPrediction_in_memory (rf : ReceptiveField nIn) (xn : Cells ℚ nIn)
    (buffers : ProjectionBuffers nIn rf.usedAxes) (axes : Holds memory buffers.U rf.U)
    (inputs : Holds memory buffers.P rf.P) {input : Nat}
    (given : Holds memory input (ReceptiveField.centred xn rf.meanX))
    (apart : Apart input nIn buffers.xu nIn) :
    rf.localPrediction xn = rf.beta0 + ((List.range rf.usedAxes).map fun i =>
      lwprAuxComputeProjection buffers memory input (buffers.s + i) * rf.beta.get i).sum := by
  unfold ReceptiveField.localPrediction ReceptiveField.loadings
  congr 2
  refine List.map_congr_left fun i member => ?_
  rw [lwprAuxComputeProjection_loadings axes inputs given apart i (List.mem_range.mp member)]

/-- An update leaves in the field what its projection has written. -/
theorem updateAxes_in_memory (rf : ReceptiveField nIn) (lib : CLibrary) (y w : ℚ)
    (buffers : ProjectionBuffers nIn rf.nReg)
    (axes : Holds memory buffers.U (rf.updateAxes lib x y w).1.U)
    (inputs : Holds memory buffers.P (rf.updateAxes lib x y w).1.P) {input : Nat}
    (given : Holds memory input x) (apart : Apart input nIn buffers.xu nIn) (i : Nat)
    (axis : i < rf.nReg) :
    (rf.updateAxes lib x y w).1.s.get i =
      lwprAuxComputeProjection buffers memory input (buffers.s + i) := by
  rw [lwprAuxComputeProjection_loadings axes inputs given apart i axis]
  exact (Cells.get_fill _ i (axis.trans_le buffers.enough)).trans (if_pos axis)

end Projection

end ExploratoryOptimizer.Aqo.Lwpr.Kernels
