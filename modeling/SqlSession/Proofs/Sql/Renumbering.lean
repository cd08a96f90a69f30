/-
Numbering a text a second time.

Numbering changes nothing but marks: between them the text is what it was, and one mark after
the other gets the next number.  A text that has been numbered has no mark left, so numbering it
again changes nothing at all.

For that the second pass has to be in the same region as the first one wherever they stand in
the same character.  What the first pass puts in for a mark opens and closes nothing, and the
only thing that a region looks at besides its own character is whether the next one is a dash or
a star, which neither a mark nor what it becomes is.
-/
import SqlSession.Proofs.Sql.ColumnPlaceholders
import SqlSession.Proofs.Text.Digits

namespace SqlSession.Sql

open Text

variable {cs first : List Char} {parts : List (List Char)} {ps : List Piece} {k n : Nat}
  {mark : Nat → List Char}

/-! ### Texts between marks -/

/-- A text, and further ones that each have a mark in front; the marks have numbers from `k`
on. -/
def withMarks (mark : Nat → List Char) (k : Nat) (first : List Char) (parts : List (List Char)) :
    List Char :=
  first ++ (parts.zipIdx k).flatMap fun (part, n) => mark n ++ part

theorem append_withMarks (cs : List Char) :
    cs ++ withMarks mark k first parts = withMarks mark k (cs ++ first) parts :=
  (List.append_assoc ..).symm

/-- A mark in front of the first text. -/
theorem mark_append_withMarks :
    mark k ++ withMarks mark (k + 1) first parts = withMarks mark k [] (first :: parts) := by
  rw [withMarks, withMarks, List.zipIdx_cons, List.flatMap_cons, List.nil_append,
    List.append_assoc]

/-- The texts between the question marks of the code are those between the placeholders. -/
theorem exists_parts (h : Reads starDelimiters cs ps) (k : Nat) :
    ∃ first parts, parts.length = ps.count (.code '?') ∧
      cs = withMarks (fun _ => ['?']) (k + 1) first parts ∧
      numbered k ps = withMarks (fun n => (placeholder n).toList) (k + 1) first parts := by
  induction h generalizing k with
  | nil => exact ⟨[], [], rfl, rfl, rfl⟩
  | @code c rest ps unopened more ih =>
      by_cases hc : c = '?'
      · subst hc
        obtain ⟨first, parts, hlength, hrest, hnumbered⟩ := ih (k + 1)
        refine ⟨[], first :: parts, by rw [List.length_cons, hlength, List.count_cons_self], ?_, ?_⟩
        · rw [← mark_append_withMarks, ← hrest]
          rfl
        · rw [← mark_append_withMarks, ← hnumbered]
          simp only [numbered, placeholder, String.toList_append, String.toList_ofList, if_true]
          rfl
      · obtain ⟨first, parts, hlength, hrest, hnumbered⟩ := ih k
        have hne : Piece.code c ≠ .code '?' := fun heq => hc (Piece.code.inj heq)
        refine ⟨c :: first, parts, by rw [hlength, List.count_cons_of_ne hne], ?_, ?_⟩
        · rw [hrest]
          exact append_withMarks [c]
        · simp only [numbered, hc, if_false, hnumbered]
          exact append_withMarks [c]
  | @run d text rest ps known opens spans more ih =>
      obtain ⟨first, parts, hlength, hrest, hnumbered⟩ := ih k
      have hne : Piece.run d.kind text ≠ .code '?' := by simp
      refine ⟨text ++ first, parts, by rw [hlength, List.count_cons_of_ne hne], ?_, ?_⟩
      · rw [← append_withMarks, ← hrest]
      · rw [← append_withMarks, ← hnumbered]
        rfl

/-! ### The second pass -/

theorem unmarked_placeholder (n : Nat) : Unmarked (placeholder n) := by
  intro c hc
  simp only [placeholder, String.toList_append, String.toList_ofList, List.mem_append] at hc
  rcases hc with hc | hc
  · rw [List.mem_singleton.mp hc]
    decide
  · have hdigit := isDigit_of_mem_natDigits hc
    simp only [List.mem_cons, List.not_mem_nil, or_false]
    rintro (rfl | rfl | rfl | rfl | rfl) <;> cases hdigit

/-- A numbered text begins as the text does, but for a question mark. -/
theorem head?_numberFrom (r : Region) (k : Nat) (cs : List Char) :
    (numberFrom r k cs).head? = cs.head? ∨
      cs.head? = some '?' ∧ (numberFrom r k cs).head? = some '$' := by
  cases cs with
  | nil => exact Or.inl rfl
  | cons c cs =>
      by_cases h : r = .code ∧ c = '?'
      · obtain ⟨rfl, rfl⟩ := h
        exact Or.inr ⟨rfl, rfl⟩
      · rw [numberFrom, if_neg h]
        exact Or.inl rfl

/-- No region can tell whether the text behind a character has been numbered. -/
theorem after_numberFrom (r : Region) (c : Char) (r' : Region) (k : Nat) (cs : List Char) :
    r.after c (numberFrom r' k cs).head? = r.after c cs.head? := by
  rcases head?_numberFrom r' k cs with h | ⟨hmark, hplaceholder⟩
  · rw [h]
  · rw [hmark, hplaceholder]
    cases r <;> simp [Region.after]

/-- **A second pass** copies what the first one has written, wherever they begin. -/
theorem numberFrom_numberFrom (r : Region) (k k' : Nat) (cs : List Char) :
    numberFrom r k' (numberFrom r k cs) = numberFrom r k cs := by
  induction cs generalizing r k with
  | nil => rfl
  | cons c cs ih =>
      by_cases h : r = .code ∧ c = '?'
      · obtain ⟨rfl, rfl⟩ := h
        have hmark : numberFrom .code k ('?' :: cs) =
            (placeholder (k + 1)).toList ++ numberFrom .code (k + 1) cs := numbers_mark cs
        rw [hmark, numbers_of_unmarked (unmarked_placeholder (k + 1)), ih]
      · rw [numberFrom, if_neg h, numberFrom, if_neg h, after_numberFrom, ih]

/--
**Numbering replaces marks and nothing else, and leaves none to a second pass.**  Every text is
made of the texts between some of its question marks, those that are code, and numbering it puts
`$1`, `$2` and so on in the place of these, in order and without gaps, and keeps the texts.
Numbering what comes of it once more gives the same.
-/
theorem numberPlaceholders_once (sql : String) :
    (∃ first parts ps, Reads starDelimiters sql.toList ps ∧ parts.length = ps.count (.code '?') ∧
      sql.toList = withMarks (fun _ => ['?']) 1 first parts ∧
      (numberPlaceholders sql).toList =
        withMarks (fun n => (placeholder n).toList) 1 first parts) ∧
      numberPlaceholders (numberPlaceholders sql) = numberPlaceholders sql := by
  refine ⟨?_, ?_⟩
  · obtain ⟨ps, hps⟩ := exists_reads starDelimiters sql.toList
    obtain ⟨first, parts, hlength, hsql, hnumbered⟩ := exists_parts hps 0
    refine ⟨first, parts, ps, hps, hlength, hsql, ?_⟩
    rw [numberPlaceholders, String.toList_ofList, numberFrom_reads hps, hnumbered]
  · simp only [numberPlaceholders, String.toList_ofList, numberFrom_numberFrom]

/-- What opens a quote behind a placeholder still does so the second time. -/
example : numberPlaceholders (numberPlaceholders "a = ?'?' -- ?\n and b = ?") =
    "a = $1'?' -- ?\n and b = $2" := by decide

end SqlSession.Sql
