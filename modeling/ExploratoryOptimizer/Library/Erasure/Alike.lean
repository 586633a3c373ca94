import ExploratoryOptimizer.Library.Erasure.Holes

/-! Texts that an erasure does not tell apart, and what it leaves at the ends of a text. -/
namespace ExploratoryOptimizer.Library.Erasure

/-! Texts that differ only in what is erased. -/

section Alike

variable {τ : Type} [DecidableEq τ] (start : List τ) (stop : τ → Bool)

theorem erase_append (seen first second : List τ) :
    erase start stop seen (first ++ second) =
      erase start stop seen first ++ erase start stop (first.reverse ++ seen) second := by
  induction first generalizing seen with
  | nil => rfl
  | cons symbol first ih =>
    rw [List.cons_append,erase,erase,ih,List.reverse_cons,List.append_assoc]
    split_ifs
    · rfl
    · rfl

/-- Whatever is read next, the pattern is matched after both or after neither. -/
structure Indistinct (seen seen' : List τ) : Prop where
  skips : skips start stop seen = skips start stop seen'
  matched : ∀ more, start.reverse <+: more ++ seen ↔ start.reverse <+: more ++ seen'

theorem Indistinct.refl (seen : List τ) : Indistinct start stop seen seen := ⟨rfl,fun _ => Iff.rfl⟩

variable {start stop}

theorem Indistinct.cons {seen seen' : List τ}
    (alike : Indistinct start stop seen seen') (symbol : τ) :
    Indistinct start stop (symbol :: seen) (symbol :: seen') := by
  constructor
  · have matched := alike.matched []
    rw [List.nil_append,List.nil_append,← List.isPrefixOf_iff_prefix,
      ← List.isPrefixOf_iff_prefix] at matched
    rw [Erasure.skips,Erasure.skips,alike.skips,Bool.eq_iff_iff.mpr matched]
  · intro more
    have matched := alike.matched (more ++ [symbol])
    rwa [List.append_assoc,List.append_assoc] at matched

theorem Indistinct.erase {seen seen' : List τ} (alike : Indistinct start stop seen seen')
    (word : List τ) :
    erase start stop seen word = erase start stop seen' word := by
  induction word generalizing seen seen' with
  | nil => rfl
  | cons symbol word ih =>
    rw [Erasure.erase,Erasure.erase,(alike.cons symbol).skips,ih (alike.cons symbol)]

omit [DecidableEq τ] in
theorem prefix_barrier (pattern more rest : List τ) (symbol : τ) (absent : symbol ∉ pattern) :
    pattern <+: more ++ symbol :: rest ↔ pattern <+: more := by
  constructor
  · intro matched
    rcases List.prefix_or_prefix_of_prefix matched
      (List.prefix_append more (symbol :: rest)) with short | ⟨tail,rfl⟩
    · exact short
    · rw [List.prefix_append_right_inj] at matched
      cases tail with
      | nil => rw [List.append_nil]
      | cons other tail =>
        rw [List.cons_prefix_cons] at matched
        exact absurd (by simp [matched.1]) absent
  · exact fun matched => matched.trans (List.prefix_append _ _)

/-- A stop symbol that the pattern does not hold separates what is read after it from what was
before. -/
theorem indistinct_stop (seen seen' : List τ) (symbol : τ) (stopping : stop symbol = true)
    (absent : symbol ∉ start) :
    Indistinct start stop (symbol :: seen) (symbol :: seen') := by
  constructor
  · rw [skips_stop start stop seen symbol stopping,skips_stop start stop seen' symbol stopping]
  · intro more
    have missing : symbol ∉ start.reverse := fun member => absent (List.mem_reverse.mp member)
    rw [prefix_barrier _ _ _ _ missing,prefix_barrier _ _ _ _ missing]

theorem erase_after (seen body : List τ) (free : ∀ symbol ∈ body, stop symbol = false) :
    erase start stop (start.reverse ++ seen) body = [] := by
  induction body using List.reverseRecOn with
  | nil => rfl
  | append_singleton body symbol ih =>
    rw [erase_append,ih fun other member => free other (by simp [member]),List.nil_append,erase]
    have skipped := skips_after start stop seen (symbol :: body.reverse) (by simp) (by
      intro other member
      exact free other (by simpa [or_comm] using member))
    rw [List.cons_append] at skipped
    rw [if_pos skipped,erase]

variable (start stop) in
/-- The same text but for what stands between the pattern and the next stop symbol. -/
inductive Alike : List τ → List τ → Prop where
  | nil : Alike [] []
  | cons (symbol : τ) (rest rest' : List τ) (alike : Alike rest rest') :
    Alike (symbol :: rest) (symbol :: rest')
  | erased (body body' : List τ) (last : τ) (rest rest' : List τ)
      (free : ∀ symbol ∈ body, stop symbol = false) (free' : ∀ symbol ∈ body', stop symbol = false)
      (stopping : stop last = true) (absent : last ∉ start) (alike : Alike rest rest') :
        Alike (start ++ (body ++ last :: rest)) (start ++ (body' ++ last :: rest'))

omit [DecidableEq τ] in
theorem Alike.prepend (word : List τ) {rest rest' : List τ} (alike : Alike start stop rest rest') :
    Alike start stop (word ++ rest) (word ++ rest') := by
  induction word with
  | nil => exact alike
  | cons symbol word ih => exact .cons symbol _ _ ih

theorem erase_body (seen body rest : List τ) (last : τ)
    (free : ∀ symbol ∈ body, stop symbol = false) (stopping : stop last = true) :
    erase start stop seen (start ++ (body ++ last :: rest)) =
      erase start stop seen start ++ last :: erase start stop
      (last :: (body.reverse ++ (start.reverse ++ seen))) rest := by
  rw [erase_append,erase_append _ _ _ body,erase_after seen body free,List.nil_append,erase,
    skips_stop start stop _ last stopping,if_neg Bool.false_ne_true]

theorem Alike.erase {text text' : List τ} (alike : Alike start stop text text')
    {seen seen' : List τ} (indistinct : Indistinct start stop seen seen') :
    erase start stop seen text = erase start stop seen' text' := by
  induction alike generalizing seen seen' with
  | nil => rfl
  | cons symbol rest rest' _ ih =>
    have next := indistinct.cons symbol
    rw [Erasure.erase,Erasure.erase,next.skips,ih next]
  | erased body body' last rest rest' free free' stopping absent _ ih =>
    rw [erase_body seen body rest last free stopping,
      erase_body seen' body' rest' last free' stopping,indistinct.erase start,
      ih (indistinct_stop _ _ last stopping absent)]

end Alike

/-! What an erasure leaves of a beginning of the text, and of the end of it. -/

section Ends

variable {τ : Type} [DecidableEq τ] {start : List τ} {stop : τ → Bool}

theorem erase_eq_kept (text : List τ) :
    erase start stop [] text = (kept start stop text.reverse).reverse := by
  induction text using List.reverseRecOn with
  | nil => rfl
  | append_singleton text symbol ih =>
    rw [erase_append,ih,List.append_nil,List.reverse_append,List.reverse_singleton,
      List.singleton_append,kept,erase]
    split_ifs
    · rw [erase,List.append_nil]
    · rw [erase,List.reverse_cons]

/-- Nothing is erased before the pattern can have been read. -/
theorem skips_short (seen : List τ) (short : seen.length ≤ start.length) :
    skips start stop seen = false := by
  induction seen with
  | nil => rfl
  | cons symbol seen ih =>
    rw [List.length_cons] at short
    have unmatched : ¬start.reverse.isPrefixOf seen := by
      rw [List.isPrefixOf_iff_prefix]
      intro matched
      have long := matched.length_le
      rw [List.length_reverse] at long
      omega
    rw [skips,ih (by omega),eq_false_of_ne_true unmatched]
    rfl

theorem erase_short (seen first : List τ) (short : seen.length + first.length ≤ start.length) :
    erase start stop seen first = first := by
  induction first generalizing seen with
  | nil => rfl
  | cons symbol first ih =>
    rw [List.length_cons] at short
    rw [erase,skips_short (symbol :: seen) (by rw [List.length_cons]; omega),
      if_neg Bool.false_ne_true,ih (symbol :: seen) (by rw [List.length_cons]; omega)]

theorem take_erase (text : List τ) (n : Nat) (short : n ≤ start.length) :
    (erase start stop [] text).take n = text.take n := by
  have size := List.length_take_le n text
  nth_rewrite 1 [← List.take_append_drop n text]
  rw [erase_append,erase_short [] (text.take n) (by rw [List.length_nil]; omega)]
  by_cases whole : n ≤ text.length
  · exact List.take_left' (List.length_take_of_le whole)
  · rw [List.drop_eq_nil_of_le (by omega),erase,List.append_nil,List.take_take,Nat.min_self]

/-- While an erasure goes on, the pattern is the last thing kept. -/
theorem kept_skipping (seen : List τ) (free : ∀ symbol ∈ start, stop symbol = false)
    (skipping : skips start stop seen = true) : start.reverse <+: kept start stop seen := by
  induction seen with
  | nil => cases skipping
  | cons symbol seen ih =>
    rw [kept,if_pos skipping]
    by_cases already : skips start stop seen = true
    · exact ih already
    · rw [skips,eq_false_of_ne_true already,Bool.false_or,Bool.and_eq_true,
        List.isPrefixOf_iff_prefix] at skipping
      obtain ⟨before,rfl⟩ := skipping.1
      rw [kept_run start stop before start.reverse (eq_false_of_ne_true already)
        (by simpa using free)]
      exact List.prefix_append _ _

/-- Behind a kept symbol with which the pattern does not end the next one is kept. -/
theorem erase_pair (text rest : List τ) (symbol next final : τ)
    (keeps : skips start stop (symbol :: text.reverse) = false) (last : start.getLast? = some final)
    (apart : symbol ≠ final) :
    ∃ rest', erase start stop [] (text ++ symbol :: next :: rest) =
      erase start stop [] text ++ symbol :: next :: rest' := by
  have unmatched : ¬start.reverse.isPrefixOf (symbol :: text.reverse) := by
    rw [List.isPrefixOf_iff_prefix]
    rw [← List.head?_reverse] at last
    obtain ⟨front,split⟩ := List.head?_eq_some_iff.mp last
    rw [split,List.cons_prefix_cons]
    exact fun matched => apart matched.1.symm
  have keepsNext : skips start stop (next :: symbol :: text.reverse) = false := by
    rw [skips,keeps,eq_false_of_ne_true unmatched]
    rfl
  refine ⟨erase start stop (next :: symbol :: text.reverse) rest,?_⟩
  rw [erase_append,List.append_nil,erase,keeps,if_neg Bool.false_ne_true,erase,keepsNext,
    if_neg Bool.false_ne_true]

/-- A quiet end of the text that begins with a stop symbol is left, and so is the symbol after
it. -/
theorem erase_quiet_end (text tail : List τ) (symbol : τ) (stopping : stop symbol = true)
    (quiet : Quiet start (tail.reverse ++ [symbol])) (ends : symbol :: tail <:+ text) :
    (∀ next, skips start stop (next :: text.reverse) = false) ∧
      symbol :: tail <:+ erase start stop [] text := by
  obtain ⟨before,rfl⟩ := ends
  have reversed :
    (before ++ symbol :: tail).reverse = tail.reverse ++ symbol :: before.reverse := by simp
  constructor
  · intro next
    have unmatched : ¬start.reverse.isPrefixOf (tail.reverse ++ symbol :: before.reverse) := by
      rw [List.isPrefixOf_iff_prefix,List.append_cons]
      exact quiet.not_matched (by simp) _
    rw [reversed,skips,skips_quiet start stop _ _ symbol stopping quiet,
      eq_false_of_ne_true unmatched]
    rfl
  · rw [erase_eq_kept,reversed,kept_quiet start stop _ _ symbol stopping quiet,List.reverse_append,
      List.reverse_cons,List.reverse_reverse,List.append_assoc]
    exact List.suffix_append _ _

/-- An end of the text without stop symbols is left unless an erasure goes on. -/
theorem erase_free_end (text tail : List τ) (free : ∀ symbol ∈ tail, stop symbol = false)
    (keeps : skips start stop text.reverse = false) (ends : tail <:+ text) :
    tail <:+ erase start stop [] text := by
  obtain ⟨before,rfl⟩ := ends
  rw [List.reverse_append] at keeps
  rw [erase_eq_kept,List.reverse_append,kept_run start stop _ _ keeps (by simpa using free),
    List.reverse_append,List.reverse_reverse]
  exact List.suffix_append _ _

omit [DecidableEq τ] in
/-- A text with the first symbol of the pattern only at its beginning is quiet unless it begins with
the pattern. -/
theorem quiet_first (symbol : τ) (word text : List τ) (absent : symbol ∉ text)
    (absent' : symbol ∉ word) (differs : ¬word <+: text) :
    Quiet (symbol :: word) (text.reverse ++ [symbol]) := by
  have ends (first second : List τ) (missing : symbol ∉ second)
    (matched : first ++ [symbol] <+: second ++ [symbol]) :
      first = second := by
    obtain ⟨more,whole⟩ := matched
    rcases List.eq_nil_or_concat' more with rfl | ⟨more,last,rfl⟩
    · rw [List.append_nil] at whole
      exact List.append_cancel_right whole
    · rw [← List.append_assoc] at whole
      have inner := (List.append_inj' whole rfl).1
      exact absurd (by rw [← inner]; simp) missing
  intro part member nonempty
  rw [List.mem_tails] at member
  obtain ⟨front,last,rfl⟩ := (List.eq_nil_or_concat' part).resolve_left nonempty
  obtain ⟨before,whole⟩ := member
  rw [← List.append_assoc] at whole
  obtain ⟨inner,here⟩ := List.append_inj' whole rfl
  rw [List.singleton_inj.mp here,List.reverse_cons]
  have missing : symbol ∉ front :=
    fun among => absent (by rw [← List.mem_reverse,← inner]; simp [among])
  have other : word.reverse ≠ front := by
    rintro rfl
    refine differs ?_
    rw [← List.reverse_suffix,← inner]
    exact List.suffix_append _ _
  exact ⟨fun matched => other (ends _ _ missing matched),
    fun matched => other (ends _ _ (by simpa using absent') matched).symm⟩

end Ends

/-! Two erasures in a row. -/

section Similar

variable {τ : Type} (start : List τ) (stop : τ → Bool) (start₂ : List τ) (stop₂ : τ → Bool)

/-- The same text but for what stands after either pattern. The second pattern and what follows it
are foreign to the first erasure. -/
inductive Similar : List τ → List τ → Prop where
  | nil : Similar [] []
  | cons (symbol : τ) (rest rest' : List τ) (similar : Similar rest rest') :
    Similar (symbol :: rest) (symbol :: rest')
  | first (body body' : List τ) (last : τ) (rest rest' : List τ)
      (free : ∀ symbol ∈ body, stop symbol = false) (free' : ∀ symbol ∈ body', stop symbol = false)
      (stopping : stop last = true) (absent : last ∉ start) (similar : Similar rest rest') :
        Similar (start ++ (body ++ last :: rest)) (start ++ (body' ++ last :: rest'))
  | second (body body' : List τ) (last : τ) (rest rest' : List τ)
      (foreign : ∀ symbol ∈ start₂ ++ body, symbol ∉ start ∧ stop symbol = false)
      (foreign' : ∀ symbol ∈ start₂ ++ body', symbol ∉ start ∧ stop symbol = false)
      (free : ∀ symbol ∈ body, stop₂ symbol = false)
      (free' : ∀ symbol ∈ body', stop₂ symbol = false) (stopping : stop last = true)
      (absent : last ∉ start) (stopping₂ : stop₂ last = true) (absent₂ : last ∉ start₂)
      (similar : Similar rest rest') :
        Similar (start₂ ++ (body ++ last :: rest)) (start₂ ++ (body' ++ last :: rest'))

variable {start stop start₂ stop₂}

theorem Similar.prepend (word : List τ) {rest rest' : List τ}
    (similar : Similar start stop start₂ stop₂ rest rest') :
    Similar start stop start₂ stop₂ (word ++ rest) (word ++ rest') := by
  induction word with
  | nil => exact similar
  | cons symbol word ih => exact .cons symbol _ _ ih

theorem Similar.refl (text : List τ) : Similar start stop start₂ stop₂ text text := by
  rw [← List.append_nil text]
  exact Similar.nil.prepend text

theorem Similar.append {text text' more more' : List τ}
    (similar : Similar start stop start₂ stop₂ text text')
    (later : Similar start stop start₂ stop₂ more more') :
    Similar start stop start₂ stop₂ (text ++ more) (text' ++ more') := by
  induction similar with
  | nil => exact later
  | cons symbol rest rest' _ ih => exact .cons symbol _ _ ih
  | first body body' last rest rest' free free' stopping absent _ ih =>
    simp only [List.append_assoc,List.cons_append]
    exact .first body body' last _ _ free free' stopping absent ih
  | second body body' last rest rest' foreign foreign' free free' stopping absent
      stopping₂ absent₂ _ ih =>
    simp only [List.append_assoc,List.cons_append]
    exact .second body body' last _ _ foreign foreign' free free' stopping absent
      stopping₂ absent₂ ih

variable [DecidableEq τ]

theorem skips_foreign_indistinct {seen seen' word word' : List τ}
    (indistinct : Indistinct start stop seen seen') (nonempty : start ≠ []) (first : word ≠ [])
    (first' : word' ≠ []) (chars : ∀ symbol ∈ word, symbol ∉ start ∧ stop symbol = false)
    (chars' : ∀ symbol ∈ word', symbol ∉ start ∧ stop symbol = false) :
    skips start stop (word.reverse ++ seen) = skips start stop (word'.reverse ++ seen') := by
  have matched := indistinct.matched []
  rw [List.nil_append,List.nil_append,← List.isPrefixOf_iff_prefix,
    ← List.isPrefixOf_iff_prefix] at matched
  rw [skips_foreign start stop seen word nonempty first chars,
    skips_foreign start stop seen' word' nonempty first' chars',indistinct.skips,
    Bool.eq_iff_iff.mpr matched]

/-- What the first erasure leaves differs only in what the second erases. -/
theorem Similar.erase {text text' : List τ} (similar : Similar start stop start₂ stop₂ text text')
    (nonempty : start ≠ []) (nonempty₂ : start₂ ≠ []) {seen seen' : List τ}
    (indistinct : Indistinct start stop seen seen') :
    Alike start₂ stop₂ (erase start stop seen text) (erase start stop seen' text') := by
  induction similar generalizing seen seen' with
  | nil => exact .nil
  | cons symbol rest rest' _ ih =>
    have next := indistinct.cons symbol
    rw [Erasure.erase,Erasure.erase,next.skips]
    split_ifs
    · exact ih next
    · exact .cons symbol _ _ (ih next)
  | first body body' last rest rest' free free' stopping absent _ ih =>
    rw [erase_body seen body rest last free stopping,
      erase_body seen' body' rest' last free' stopping,indistinct.erase start]
    exact Alike.prepend _ (.cons last _ _ (ih (indistinct_stop _ _ last stopping absent)))
  | second body body' last rest rest' foreign foreign' free free' stopping absent
      stopping₂ absent₂ _ ih =>
    have first : start₂ ++ body ≠ [] := by simp [nonempty₂]
    have first' : start₂ ++ body' ≠ [] := by simp [nonempty₂]
    rw [← List.append_assoc,← List.append_assoc start₂ body',
      erase_foreign start stop seen (start₂ ++ body) _ nonempty first foreign,
      erase_foreign start stop seen' (start₂ ++ body') _ nonempty first' foreign',
      skips_foreign_indistinct indistinct nonempty first first' foreign foreign',
      Erasure.erase,Erasure.erase,skips_stop start stop _ last stopping,
      skips_stop start stop _ last stopping,if_neg Bool.false_ne_true,if_neg Bool.false_ne_true]
    have later :=
      ih (indistinct_stop ((start₂ ++ body).reverse ++ seen)
          ((start₂ ++ body').reverse ++ seen') last
      stopping absent)
    split_ifs
    · exact .cons last _ _ later
    · rw [List.append_assoc,List.append_assoc]
      exact .erased body body' last _ _ free free' stopping₂ absent₂ later

end Similar

end ExploratoryOptimizer.Library.Erasure
