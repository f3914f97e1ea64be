import Mathlib.Data.List.Basic

/-! # Words Between Separators

    A list of words that is joined with a separator determines the words, as
    long as a scanner can tell a separator from a symbol within a word: it is
    home in front of each word and behind it, and it is away from home
    wherever the symbol of the separator stands in a word.
-/

namespace Delimited

section scanner
variable {α σ : Type} (step : σ → α → σ) (home : σ) (sep : α)

/-- A scanner that starts at home comes home behind the word, and it is away from home at every
    separator in it. -/
structure Sealed (word : List α) : Prop where
  back : word.foldl step home = home
  away : ∀ front rest, word = front ++ sep :: rest → front.foldl step home ≠ home

variable {step home sep}

theorem sealed_nil : Sealed step home sep [] where
  back := rfl
  away front rest h := by simp at h

/-- A word that does not move the scanner. -/
theorem sealed_of_forall {word : List α} (h : ∀ c ∈ word, step home c = home ∧ c ≠ sep) :
    Sealed step home sep word where
  back := by
    induction word with
    | nil => rfl
    | cons c word ih =>
      rw [List.forall_mem_cons] at h
      rw [List.foldl_cons, h.1.1]
      exact ih h.2
  away front rest hword := by
    have hmem : sep ∈ word := by simp [hword]
    exact absurd rfl (h sep hmem).2

theorem Sealed.append {word word' : List α} (h : Sealed step home sep word)
    (h' : Sealed step home sep word') : Sealed step home sep (word ++ word') where
  back := by rw [List.foldl_append, h.back, h'.back]
  away front rest hword := by
    -- the separator is in the second word, or in the first
    rcases List.append_eq_append_iff.mp hword with ⟨inner, hfront, hword'⟩ | ⟨inner, hword, hrest⟩
    · rw [hfront, List.foldl_append, h.back]
      exact h'.away inner rest hword'
    · cases inner with
      | nil =>
        rw [List.append_nil] at hword
        have haway := h'.away [] rest hrest.symm
        exact absurd rfl haway
      | cons c inner =>
        obtain ⟨rfl, -⟩ := List.cons.inj hrest
        exact h.away front inner hword

/-- Words with sealed words between them. -/
theorem sealed_intercalate {between : List α} (hbetween : Sealed step home sep between)
    {words : List (List α)} (h : ∀ word ∈ words, Sealed step home sep word) :
    Sealed step home sep (between.intercalate words) := by
  induction words with
  | nil => exact sealed_nil
  | cons word words ih =>
    rw [List.forall_mem_cons] at h
    by_cases hnil : words = []
    · rw [hnil, List.intercalate_singleton]
      exact h.1
    · rw [List.intercalate_cons_of_ne_nil hnil]
      exact (h.1.append hbetween).append (ih h.2)

/-- Between the first symbol and the last one the scanner does not come home. -/
theorem sealed_quoted {first last : α} {body : List α} (hfirst : first ≠ sep)
    (hbody : ∀ front, front <+: body → (first :: front).foldl step home ≠ home)
    (hlast : (first :: (body ++ [last])).foldl step home = home) :
    Sealed step home sep (first :: (body ++ [last])) where
  back := hlast
  away front rest hword := by
    cases front with
    | nil => exact absurd (List.cons.inj hword).1 hfirst
    | cons c front =>
      obtain ⟨rfl, hbody'⟩ := List.cons.inj hword
      apply hbody
      rcases List.append_eq_append_iff.mp hbody' with ⟨inner, hfront, hinner⟩ | ⟨inner, hfront, -⟩
      · cases inner with
        | nil => exact ⟨[], by simp [hfront]⟩
        | cons c' inner => simp at hinner
      · exact ⟨inner, hfront.symm⟩

/-! ### What the joined words determine -/

/-- The first separator at which the scanner is home is that behind the first word. -/
theorem Sealed.front_inj {word word' rest rest' : List α} (h : Sealed step home sep word)
    (h' : Sealed step home sep word') (heq : word ++ sep :: rest = word' ++ sep :: rest') :
    word = word' ∧ rest = rest' := by
  rcases List.append_eq_append_iff.mp heq with ⟨inner, hword', hinner⟩ | ⟨inner, hword, hinner⟩
  · cases inner with
    | nil =>
      rw [List.append_nil] at hword'
      exact ⟨hword'.symm, (List.cons.inj hinner).2⟩
    | cons c inner =>
      obtain ⟨rfl, -⟩ := List.cons.inj hinner
      exact absurd h.back (h'.away word inner hword')
  · cases inner with
    | nil =>
      rw [List.append_nil] at hword
      exact ⟨hword, (List.cons.inj hinner).2.symm⟩
    | cons c inner =>
      obtain ⟨rfl, -⟩ := List.cons.inj hinner
      exact absurd h'.back (h.away word' inner hword)

/-- Words with a separator behind each of them. -/
theorem terminated_inj {words words' : List (List α)}
    (h : ∀ word ∈ words, Sealed step home sep word)
    (h' : ∀ word ∈ words', Sealed step home sep word)
    (heq : words.flatMap (· ++ [sep]) = words'.flatMap (· ++ [sep])) : words = words' := by
  induction words generalizing words' with
  | nil =>
    cases words' with
    | nil => rfl
    | cons word' words' => simp at heq
  | cons word words ih =>
    cases words' with
    | nil => simp at heq
    | cons word' words' =>
      rw [List.forall_mem_cons] at h h'
      rw [List.flatMap_cons, List.flatMap_cons, List.append_assoc, List.append_assoc] at heq
      obtain ⟨hword, hrest⟩ := h.1.front_inj h'.1 heq
      rw [hword, ih h.2 h'.2 hrest]

/-- The words that are joined, with one more separator at the end. -/
theorem intercalate_append_sep {words : List (List α)} (hne : words ≠ []) :
    [sep].intercalate words ++ [sep] = words.flatMap (· ++ [sep]) := by
  induction words with
  | nil => exact absurd rfl hne
  | cons word words ih =>
    by_cases hnil : words = []
    · simp [hnil]
    · rw [List.intercalate_cons_of_ne_nil hnil, List.append_assoc, ih hnil, List.flatMap_cons]

/-- Words with a separator between each two. -/
theorem intercalate_inj {words words' : List (List α)} (hne : words ≠ []) (hne' : words' ≠ [])
    (h : ∀ word ∈ words, Sealed step home sep word)
    (h' : ∀ word ∈ words', Sealed step home sep word)
    (heq : [sep].intercalate words = [sep].intercalate words') : words = words' := by
  apply terminated_inj h h'
  rw [← intercalate_append_sep hne, ← intercalate_append_sep hne', heq]

end scanner

end Delimited
