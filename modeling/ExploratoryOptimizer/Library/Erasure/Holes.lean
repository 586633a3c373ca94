import ExploratoryOptimizer.Library.Erasure

/-! Erasure in texts with named holes: a hole whose value is foreign to the pattern is kept or
erased as a whole. -/
namespace ExploratoryOptimizer.Library.Erasure

inductive Glyph (σ κ : Type) where
  | plain (c : σ)
  | hole (name : κ)
  deriving DecidableEq

namespace Glyph

variable {σ κ : Type}

def render (value : κ → List σ) : Glyph σ κ → List σ
  | plain c => [c]
  | hole name => value name

def stops (stop : σ → Bool) : Glyph σ κ → Bool
  | plain c => stop c
  | hole _ => false

end Glyph

open Glyph

section Holes

variable {σ κ : Type}

/-- The value of a hole can neither be part of the pattern nor stop an erasure. -/
def Foreign (start : List σ) (stop : σ → Bool) (value : κ → List σ) (name : κ) : Prop :=
  value name ≠ [] ∧ ∀ c ∈ value name, c ∉ start ∧ stop c = false

def ForeignIn (start : List σ) (stop : σ → Bool) (value : κ → List σ)
    (symbols : List (Glyph σ κ)) : Prop :=
  ∀ name, hole name ∈ symbols → Foreign start stop value name

theorem ForeignIn.tail {start : List σ} {stop : σ → Bool} {value : κ → List σ} {symbol : Glyph σ κ}
    {symbols : List (Glyph σ κ)} (foreign : ForeignIn start stop value (symbol :: symbols)) :
    ForeignIn start stop value symbols :=
  fun name member => foreign name (by simp [member])

theorem flatMap_render_congr (symbols : List (Glyph σ κ)) (first second : κ → List σ)
    (same : ∀ name, hole name ∈ symbols → first name = second name) :
    symbols.flatMap (render first) = symbols.flatMap (render second) := by
  refine List.flatMap_congr fun symbol member => ?_
  cases symbol with
  | plain c => rfl
  | hole name => exact same name member

theorem append_separator_inj (separator : σ) (first second rest rest' : List σ)
    (absent : separator ∉ first) (absent' : separator ∉ second)
    (same : first ++ separator :: rest = second ++ separator :: rest') :
    first = second ∧ rest = rest' := by
  induction first generalizing second with
  | nil =>
    cases second with
    | nil => exact ⟨rfl,(List.cons.inj same).2⟩
    | cons c second =>
      refine absurd ?_ absent'
      rw [(List.cons.inj same).1]
      exact List.mem_cons_self
  | cons c first ih =>
    cases second with
    | nil =>
      refine absurd ?_ absent
      rw [← (List.cons.inj same).1]
      exact List.mem_cons_self
    | cons d second =>
      obtain ⟨head,tail⟩ := List.cons.inj same
      obtain ⟨words,rests⟩ := ih second (fun member => absent (List.mem_cons_of_mem c member))
        (fun member => absent' (List.mem_cons_of_mem d member)) tail
      exact ⟨by rw [head,words],rests⟩

def IsHole : Glyph σ κ → Prop
  | plain _ => False
  | hole _ => True

/-- Where every value ends at a separator the text determines the values. -/
theorem render_inj (separator : σ) (symbols : List (Glyph σ κ)) (first second : κ → List σ)
    (followed : Followed IsHole (plain separator) symbols)
    (absent : ∀ name, hole name ∈ symbols → separator ∉ first name ∧ separator ∉ second name)
    (same : symbols.flatMap (render first) = symbols.flatMap (render second)) (name : κ)
    (member : hole name ∈ symbols) : first name = second name := by
  induction symbols with
  | nil => exact absurd member List.not_mem_nil
  | cons symbol rest ih =>
    have later :=
      ih followed.2 fun other within => absent other (List.mem_cons_of_mem symbol within)
    cases symbol with
    | plain c =>
      rw [List.flatMap_cons,List.flatMap_cons] at same
      exact later (List.append_cancel_left same) ((List.mem_cons.mp member).resolve_left nofun)
    | hole other =>
      obtain ⟨after,rfl⟩ := List.head?_eq_some_iff.mp (followed.1 trivial)
      obtain ⟨missing,missing'⟩ := absent other List.mem_cons_self
      obtain ⟨words,rests⟩ := append_separator_inj separator _ _ (after.flatMap (render first))
        (after.flatMap (render second)) missing missing' same
      rcases List.mem_cons.mp member with here | within
      · rw [hole.inj here]
        exact words
      · refine later ?_ within
        rw [List.flatMap_cons,List.flatMap_cons,rests]
        rfl

/-- The text of the symbols read, last character first. -/
def renderSeen (value : κ → List σ) (seen : List (Glyph σ κ)) : List σ :=
  seen.flatMap fun symbol => (symbol.render value).reverse

theorem prefix_render (start : List σ) (stop : σ → Bool) (value : κ → List σ) (word : List σ)
    (within : ∀ c ∈ word, c ∈ start) (seen : List (Glyph σ κ))
    (foreign : ForeignIn start stop value seen) :
    word.map plain <+: seen ↔ word <+: renderSeen value seen := by
  induction word generalizing seen with
  | nil => simp
  | cons c word ih =>
    cases seen with
    | nil => simp [renderSeen]
    | cons symbol seen =>
      cases symbol with
      | plain d =>
        rw [List.map_cons,List.cons_prefix_cons,
          ih (fun c member => within c (by simp [member])) seen foreign.tail,plain.injEq]
        exact List.cons_prefix_cons.symm
      | hole name =>
        obtain ⟨nonempty,chars⟩ := foreign name (by simp)
        obtain ⟨front,last,split⟩ := (List.eq_nil_or_concat' (value name)).resolve_left nonempty
        have other : c ≠ last := by
          rintro rfl
          exact (chars c (by simp [split])).1 (within c (by simp))
        have text :
          renderSeen value (hole name :: seen) =
            last :: (front.reverse ++ renderSeen value seen) := by
          simp [renderSeen,render,split]
        rw [text,List.map_cons,List.cons_prefix_cons,List.cons_prefix_cons]
        simp [other]

variable [DecidableEq σ] (start : List σ) (stop : σ → Bool) (value : κ → List σ)

/-- Within a foreign word the loop stays in the state it enters with. -/
theorem skips_foreign (text word : List σ) (nonempty : start ≠ []) (first : word ≠ [])
    (chars : ∀ c ∈ word, c ∉ start ∧ stop c = false) :
    skips start stop (word.reverse ++ text) =
      (skips start stop text || start.reverse.isPrefixOf text) := by
  induction word using List.reverseRecOn with
  | nil => exact absurd rfl first
  | append_singleton word c ih =>
    rw [List.reverse_append,List.reverse_singleton,List.append_assoc,List.singleton_append,skips,
      (chars c (by simp)).2,Bool.not_false,Bool.and_true]
    by_cases empty : word = []
    · rw [empty]
      rfl
    · have unmatched : ¬start.reverse.isPrefixOf (word.reverse ++ text) := by
        rw [List.isPrefixOf_iff_prefix]
        intro matched
        obtain ⟨front,last,rfl⟩ := (List.eq_nil_or_concat' word).resolve_left empty
        obtain ⟨begin,ending,split⟩ :=
          List.exists_cons_of_ne_nil (List.reverse_ne_nil_iff.mpr nonempty)
        rw [split,List.reverse_append,List.reverse_singleton,List.append_assoc,
          List.singleton_append,List.cons_prefix_cons] at matched
        have member : last ∈ start := by
          rw [← List.mem_reverse,split,← matched.1]
          simp
        exact (chars last (by simp)).1 member
      rw [ih empty fun d member => chars d (by simp [member]),
        eq_false_of_ne_true unmatched,Bool.or_false]

theorem erase_foreign (text word rest : List σ) (nonempty : start ≠ []) (first : word ≠ [])
    (chars : ∀ c ∈ word, c ∉ start ∧ stop c = false) :
    erase start stop text (word ++ rest) =
      (if skips start stop (word.reverse ++ text) then [] else word) ++ erase start stop
      (word.reverse ++ text) rest := by
  induction word generalizing text with
  | nil => exact absurd rfl first
  | cons c word ih =>
    by_cases empty : word = []
    · subst empty
      rw [List.singleton_append,erase,List.reverse_singleton,List.singleton_append]
      split_ifs
      · rfl
      · rfl
    · have same : skips start stop (word.reverse ++ c :: text) = skips start stop (c :: text) := by
        have whole := skips_foreign start stop text (c :: word) nonempty first chars
        have one :=
          skips_foreign start stop text [c] nonempty (by simp) (by simpa using chars c (by simp))
        rw [List.reverse_cons,List.append_assoc] at whole
        exact whole.trans one.symm
      rw [List.cons_append,erase,ih (c :: text) empty fun d member => chars d (by simp [member]),
        List.reverse_cons,List.append_assoc,List.singleton_append,same]
      split_ifs
      · rfl
      · rfl

variable [DecidableEq κ]

theorem skips_render (nonempty : start ≠ []) (seen : List (Glyph σ κ))
    (foreign : ForeignIn start stop value seen) :
    skips start stop (renderSeen value seen) = skips (start.map plain) (stops stop) seen := by
  have matched (seen : List (Glyph σ κ)) (foreign : ForeignIn start stop value seen) :
      start.reverse.isPrefixOf (renderSeen value seen) =
        (start.map plain).reverse.isPrefixOf seen := by
    rw [← List.map_reverse,Bool.eq_iff_iff,List.isPrefixOf_iff_prefix,List.isPrefixOf_iff_prefix]
    exact (prefix_render start stop value start.reverse (fun c member => List.mem_reverse.mp member)
        seen foreign).symm
  induction seen with
  | nil => rfl
  | cons symbol seen ih =>
    have text : renderSeen value (symbol :: seen) = (symbol.render value).reverse ++
      renderSeen value seen := rfl
    rw [text,skips,← ih foreign.tail,← matched seen foreign.tail]
    cases symbol with
    | plain c => rfl
    | hole name =>
      obtain ⟨first,chars⟩ := foreign name (by simp)
      rw [render,skips_foreign start stop _ (value name) nonempty first chars]
      exact (Bool.and_true _).symm

/-- Erasing a text with foreign values in its holes erases holes as a whole. -/
theorem erase_render (nonempty : start ≠ []) (seen symbols : List (Glyph σ κ))
    (foreign : ForeignIn start stop value (seen ++ symbols)) :
    erase start stop (renderSeen value seen) (symbols.flatMap (render value)) =
      (erase (start.map plain) (stops stop) seen symbols).flatMap (render value) := by
  induction symbols generalizing seen with
  | nil => rfl
  | cons symbol rest ih =>
    have later := ih (symbol :: seen) fun name member => foreign name (by
      simp only [List.mem_append,List.mem_cons] at member ⊢
      tauto)
    have text : renderSeen value (symbol :: seen) = (symbol.render value).reverse ++
      renderSeen value seen := rfl
    have skipped :=
      skips_render start stop value nonempty (symbol :: seen) fun name member => foreign name (by
      simp only [List.mem_append,List.mem_cons] at member ⊢
      tauto)
    rw [text] at later skipped
    have split :
      erase start stop (renderSeen value seen)
        (symbol.render value ++ rest.flatMap (render value)) =
        (if skips start stop ((symbol.render value).reverse ++ renderSeen value seen) then []
          else symbol.render value) ++
          erase start stop ((symbol.render value).reverse ++ renderSeen value seen)
          (rest.flatMap (render value)) := by
      cases symbol with
      | plain c =>
        rw [render,List.singleton_append,erase,List.reverse_singleton,List.singleton_append]
        split_ifs
        · rfl
        · rfl
      | hole name =>
        obtain ⟨first,chars⟩ := foreign name (by simp)
        exact erase_foreign start stop _ (value name) _ nonempty first chars
    rw [List.flatMap_cons,split,later,skipped,erase]
    split_ifs
    · rfl
    · rfl

end Holes

end ExploratoryOptimizer.Library.Erasure
