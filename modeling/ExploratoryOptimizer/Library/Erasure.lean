import Mathlib.Data.List.Basic
import Mathlib.Data.List.Infix

/-! Erasure of everything between a start pattern and the next stop symbol, over an arbitrary
alphabet. What has been read is kept with the last symbol first. -/
namespace ExploratoryOptimizer.Library.Erasure

section Contexts

variable {τ : Type}

/-- No beginning of the run, last symbol first, ends in the pattern or could complete one. -/
def Quiet (start run : List τ) : Prop :=
  ∀ part ∈ run.tails, part ≠ [] → ¬start.reverse <+: part ∧ ¬part <+: start.reverse

theorem Quiet.tail {start : List τ} {symbol : τ} {run : List τ}
    (quiet : Quiet start (symbol :: run)) :
    Quiet start run :=
  fun part member => quiet part (by simp [member])

theorem Quiet.of_map {υ : Type} {start run : List τ} (f : τ → υ)
    (quiet : Quiet (start.map f) (run.map f)) :
    Quiet start run := by
  intro part member nonempty
  have image : part.map f ∈ (run.map f).tails := by
    rw [List.mem_tails] at member ⊢
    exact member.map f
  obtain ⟨long,short⟩ := quiet (part.map f) image (by simpa using nonempty)
  rw [← List.map_reverse] at long short
  exact ⟨fun matched => long (matched.map f),fun matched => short (matched.map f)⟩

theorem Quiet.not_matched {start run : List τ} (quiet : Quiet start run) (nonempty : run ≠ [])
    (seen : List τ) :
    ¬start.reverse <+: run ++ seen := by
  intro matched
  obtain ⟨long,short⟩ := quiet run (by simp) nonempty
  exact (List.prefix_or_prefix_of_prefix matched (List.prefix_append run seen)).elim long short

/-- Every symbol comes right after its context, last symbol first. -/
def Guarded (context : τ → List τ) : List τ → List τ → Prop
  | _,[] => True
  | seen,symbol :: rest => context symbol <+: seen ∧ Guarded context (symbol :: seen) rest

theorem Guarded.mono {context : τ → List τ} {seen symbols : List τ}
    (guarded : Guarded context seen symbols) (more : List τ) :
    Guarded context (seen ++ more) symbols := by
  induction symbols generalizing seen with
  | nil => trivial
  | cons symbol rest ih => exact ⟨guarded.1.trans (List.prefix_append _ _),ih guarded.2⟩

theorem Guarded.append {context : τ → List τ} {seen first second : List τ}
    (guarded : Guarded context seen first)
    (guarded' : Guarded context (first.reverse ++ seen) second) :
    Guarded context seen (first ++ second) := by
  induction first generalizing seen with
  | nil => exact guarded'
  | cons symbol rest ih =>
    rw [List.reverse_cons,List.append_assoc] at guarded'
    exact ⟨guarded.1,ih guarded.2 guarded'⟩

theorem Guarded.concat {context : τ → List τ} {first second : List τ}
    (guarded : Guarded context [] first) (guarded' : Guarded context [] second) : Guarded context []
    (first ++ second) := by
  refine guarded.append ?_
  rw [List.append_nil]
  exact guarded'.mono first.reverse

theorem guarded_free (context : τ → List τ) (seen symbols : List τ)
    (free : ∀ symbol ∈ symbols, context symbol = []) :
    Guarded context seen symbols := by
  induction symbols generalizing seen with
  | nil => trivial
  | cons symbol rest ih =>
    refine ⟨?_,ih _ fun other member => free other (by simp [member])⟩
    rw [free symbol (by simp)]
    exact List.nil_prefix

/-- Every marked symbol is followed by the separator. -/
def Followed (marked : τ → Prop) (separator : τ) : List τ → Prop
  | [] => True
  | symbol :: rest => (marked symbol → rest.head? = some separator) ∧ Followed marked separator rest

theorem Followed.append {marked : τ → Prop} {separator : τ} {first second : List τ}
    (followed : Followed marked separator first) (followed' : Followed marked separator second) :
    Followed marked separator (first ++ second) := by
  induction first with
  | nil => exact followed'
  | cons symbol rest ih =>
    refine ⟨fun mark => ?_,ih followed.2⟩
    change (rest ++ second).head? = some separator
    rw [List.head?_append,followed.1 mark]
    rfl

theorem Followed.mono {marked marked' : τ → Prop} {separator : τ} {symbols : List τ}
    (followed : Followed marked separator symbols)
    (fewer : ∀ symbol ∈ symbols, marked' symbol → marked symbol) :
    Followed marked' separator symbols := by
  induction symbols with
  | nil => trivial
  | cons symbol rest ih =>
    exact ⟨fun mark => followed.1 (fewer symbol (by simp) mark),
      ih followed.2 fun other member => fewer other (by simp [member])⟩

theorem followed_free (marked : τ → Prop) (separator : τ) (symbols : List τ)
    (free : ∀ symbol ∈ symbols, ¬marked symbol) : Followed marked separator symbols := by
  induction symbols with
  | nil => trivial
  | cons symbol rest ih =>
    exact ⟨fun mark => absurd mark (free symbol (by simp)),ih fun other member =>
      free other (by simp [member])⟩

end Contexts

section Alphabet

variable {τ : Type} [DecidableEq τ] (start : List τ) (stop : τ → Bool)

/-- Whether the last symbol read is erased. -/
def skips : List τ → Bool
  | [] => false
  | symbol :: seen => (skips seen || start.reverse.isPrefixOf seen) && !stop symbol

def erase : List τ → List τ → List τ
  | _,[] => []
  | seen,symbol :: rest =>
    if skips start stop (symbol :: seen) then erase (symbol :: seen) rest
    else symbol :: erase (symbol :: seen) rest

/-- What is left of the symbols read, last one first. -/
def kept : List τ → List τ
  | [] => []
  | symbol :: seen => if skips start stop (symbol :: seen) then kept seen else symbol :: kept seen

theorem erase_sublist (seen symbols : List τ) :
    (erase start stop seen symbols).Sublist symbols := by
  induction symbols generalizing seen with
  | nil => exact .refl _
  | cons symbol rest ih =>
    rw [erase]
    split_ifs
    · exact (ih _).cons symbol
    · exact (ih _).cons_cons symbol

theorem skips_stop (seen : List τ) (symbol : τ) (stopping : stop symbol = true) :
    skips start stop (symbol :: seen) = false := by
  rw [skips,stopping,Bool.not_true,Bool.and_false]

theorem skips_run (seen run : List τ) (skipping : skips start stop seen = true)
    (free : ∀ symbol ∈ run, stop symbol = false) : skips start stop (run ++ seen) = true := by
  induction run with
  | nil => exact skipping
  | cons symbol run ih =>
    rw [List.cons_append,skips,ih fun other member => free other (by simp [member]),
      free symbol (by simp)]
    rfl

/-- Right after the pattern a run without stop symbols is erased. -/
theorem skips_after (seen run : List τ) (nonempty : run ≠ [])
    (free : ∀ symbol ∈ run, stop symbol = false) :
    skips start stop (run ++ (start.reverse ++ seen)) = true := by
  obtain ⟨later,first,rfl⟩ := (List.eq_nil_or_concat' run).resolve_left nonempty
  rw [List.append_assoc]
  apply skips_run
  · have matched : start.reverse.isPrefixOf (start.reverse ++ seen) = true :=
      List.isPrefixOf_iff_prefix.mpr (List.prefix_append _ _)
    rw [List.singleton_append,skips,matched,free first (by simp),Bool.or_true]
    rfl
  · exact fun symbol member => free symbol (by simp [member])

theorem not_skips_of_run (seen run : List τ) (keeps : skips start stop (run ++ seen) = false)
    (free : ∀ symbol ∈ run, stop symbol = false) : skips start stop seen = false := by
  by_contra skipping
  rw [Bool.not_eq_false] at skipping
  rw [skips_run start stop seen run skipping free] at keeps
  exact Bool.noConfusion keeps

/-- A run without stop symbols is kept as a whole when its last symbol is. -/
theorem kept_run (seen run : List τ) (keeps : skips start stop (run ++ seen) = false)
    (free : ∀ symbol ∈ run, stop symbol = false) :
    kept start stop (run ++ seen) = run ++ kept start stop seen := by
  induction run with
  | nil => rfl
  | cons symbol run ih =>
    have before : skips start stop (run ++ seen) = false :=
      not_skips_of_run start stop (run ++ seen) [symbol] keeps
        (by simpa using free symbol (by simp))
    rw [List.cons_append,kept,← List.cons_append,keeps,if_neg Bool.false_ne_true,
      ih before fun other member => free other (by simp [member])]
    rfl

/-- A run that begins with a stop symbol and is quiet is kept. -/
theorem skips_quiet (seen run : List τ) (symbol : τ) (stopping : stop symbol = true)
    (quiet : Quiet start (run ++ [symbol])) : skips start stop (run ++ symbol :: seen) = false := by
  induction run with
  | nil => exact skips_stop start stop seen symbol stopping
  | cons last run ih =>
    have unmatched : ¬start.reverse.isPrefixOf (run ++ symbol :: seen) := by
      have tail : Quiet start (run ++ [symbol]) := quiet.tail
      rw [List.isPrefixOf_iff_prefix,List.append_cons]
      exact tail.not_matched (by simp) seen
    rw [List.cons_append,skips,ih quiet.tail,Bool.false_or,eq_false_of_ne_true unmatched]
    rfl

theorem kept_quiet (seen run : List τ) (symbol : τ) (stopping : stop symbol = true)
    (quiet : Quiet start (run ++ [symbol])) :
    kept start stop (run ++ symbol :: seen) = run ++ symbol :: kept start stop seen := by
  induction run with
  | nil =>
    rw [List.nil_append,kept,skips_stop start stop seen symbol stopping,if_neg Bool.false_ne_true,
      List.nil_append]
  | cons last run ih =>
    rw [List.cons_append,kept,← List.cons_append,
      skips_quiet start stop seen (last :: run) symbol stopping quiet,
      if_neg Bool.false_ne_true,ih quiet.tail]
    rfl

/-- Symbols that follow the pattern without a stop symbol in between are gone. -/
theorem erase_guarded (context : τ → List τ) (seen symbols : List τ)
    (guarded : Guarded context seen symbols) (symbol : τ) (gap : List τ)
    (follows : gap ++ start.reverse <+: context symbol)
    (free : ∀ other ∈ symbol :: gap, stop other = false) :
    symbol ∉ erase start stop seen symbols := by
  induction symbols generalizing seen with
  | nil => exact List.not_mem_nil
  | cons current rest ih =>
    rw [erase]
    split_ifs with skipped
    · exact ih _ guarded.2
    · intro member
      rcases List.mem_cons.mp member with rfl | later
      · obtain ⟨before,rfl⟩ := follows.trans guarded.1
        rw [List.append_assoc] at skipped
        exact skipped (skips_after start stop before (symbol :: gap) (by simp) free)
      · exact ih _ guarded.2 later

/-- Contexts survive where they are kept together with their symbol. -/
theorem guarded_erase (context : τ → List τ) (seen symbols : List τ)
    (guarded : Guarded context seen symbols)
    (whole : ∀ symbol ∈ symbols, ∀ before,
      skips start stop (symbol :: (context symbol ++ before)) = false →
      kept start stop (context symbol ++ before) = context symbol ++ kept start stop before) :
    Guarded context (kept start stop seen) (erase start stop seen symbols) := by
  induction symbols generalizing seen with
  | nil => trivial
  | cons symbol rest ih =>
    have later := ih (symbol :: seen) guarded.2 fun other member => whole other (by simp [member])
    rw [erase]
    split_ifs with skipped
    · rw [kept,if_pos skipped] at later
      exact later
    · rw [kept,if_neg skipped] at later
      refine ⟨?_,later⟩
      obtain ⟨before,rfl⟩ := guarded.1
      rw [whole symbol (by simp) before (by simpa using skipped)]
      exact List.prefix_append _ _

/-- A context without stop symbols is kept together with its symbol. -/
theorem guarded_erase_run (context : τ → List τ) (seen symbols : List τ)
    (guarded : Guarded context seen symbols)
    (free : ∀ symbol, context symbol ≠ [] → ∀ other ∈ symbol :: context symbol,
      stop other = false) :
    Guarded context (kept start stop seen) (erase start stop seen symbols) := by
  refine guarded_erase start stop context seen symbols guarded fun symbol _ before keeps => ?_
  by_cases empty : context symbol = []
  · rw [empty]
    rfl
  · refine kept_run start stop before (context symbol) ?_ fun other member =>
      free symbol empty other (by simp [member])
    exact not_skips_of_run start stop _ [symbol] keeps
      (by simpa using free symbol empty symbol (by simp))

/-- Behind a symbol that is kept and is not part of the pattern the next one is kept. -/
theorem followed_erase (marked : τ → Prop) (separator : τ) (nonempty : start ≠ [])
    (apart : ∀ symbol, marked symbol → symbol ∉ start) (seen symbols : List τ)
    (followed : Followed marked separator symbols) :
    Followed marked separator (erase start stop seen symbols) := by
  induction symbols generalizing seen with
  | nil => trivial
  | cons symbol rest ih =>
    rw [erase]
    split_ifs with skipped
    · exact ih _ followed.2
    · refine ⟨fun mark => ?_,ih _ followed.2⟩
      obtain ⟨later,rfl⟩ := List.head?_eq_some_iff.mp (followed.1 mark)
      have unmatched : ¬start.reverse.isPrefixOf (symbol :: seen) := by
        rw [List.isPrefixOf_iff_prefix]
        intro matched
        obtain ⟨last,front,split⟩ :=
          List.exists_cons_of_ne_nil (List.reverse_ne_nil_iff.mpr nonempty)
        rw [split,List.cons_prefix_cons] at matched
        refine apart symbol mark ?_
        rw [← List.mem_reverse,split,← matched.1]
        exact List.mem_cons_self
      have keeps : skips start stop (separator :: symbol :: seen) = false := by
        rw [skips,eq_false_of_ne_true skipped,eq_false_of_ne_true unmatched]
        rfl
      rw [erase,keeps,if_neg Bool.false_ne_true]
      rfl

end Alphabet

end ExploratoryOptimizer.Library.Erasure
