/-
Blank characters and trimming.

A character is blank when Unicode gives it the property White_Space.  Zero-width
characters and the byte-order mark are not blank, and neither are the control
characters that separate files, groups, records and units.
-/

namespace SqlSession.Text

/-- Unicode White_Space. -/
def isBlank (c : Char) : Bool :=
  let n := c.toNat
  (0x09 ≤ n && n ≤ 0x0D) || n == 0x20 || n == 0x85 || n == 0xA0 || n == 0x1680
    || (0x2000 ≤ n && n ≤ 0x200A) || n == 0x2028 || n == 0x2029 || n == 0x202F
    || n == 0x205F || n == 0x3000

/-- What is left once the leading blanks are gone. -/
def trimStart (cs : List Char) : List Char :=
  cs.dropWhile isBlank

/-- What is left once the trailing blanks are gone. -/
def trimEnd (cs : List Char) : List Char :=
  (cs.reverse.dropWhile isBlank).reverse

/-- What is left once the blanks at both ends are gone. -/
def trim (cs : List Char) : List Char :=
  trimEnd (trimStart cs)

/-- The text without the blanks at its ends. -/
def trimmed (s : String) : String :=
  String.ofList (trim s.toList)

/-- Nothing but blanks, or nothing at all. -/
def isBlankText (s : String) : Bool :=
  s.toList.all isBlank

/-! ### What trimming leaves

Trimming removes blanks and nothing else, and what it leaves does not begin with
one.
-/

@[simp] theorem trimStart_nil : trimStart [] = [] := rfl

theorem trimStart_cons_blank {c : Char} (cs : List Char) (h : isBlank c = true) :
    trimStart (c :: cs) = trimStart cs := by
  simp [trimStart, h]

theorem trimStart_cons_of_not_blank {c : Char} (cs : List Char) (h : isBlank c = false) :
    trimStart (c :: cs) = c :: cs := by
  simp [trimStart, h]

theorem trimStart_suffix (cs : List Char) : trimStart cs <:+ cs :=
  List.dropWhile_suffix _

theorem length_trimStart_le (cs : List Char) : (trimStart cs).length ≤ cs.length :=
  (trimStart_suffix cs).length_le

theorem trimEnd_prefix (cs : List Char) : trimEnd cs <+: cs := by
  have h := List.dropWhile_suffix isBlank (l := cs.reverse)
  simpa [trimEnd] using List.reverse_prefix.2 h

/-- Nothing is trimmed off a text whose first and last characters are no blanks. -/
theorem trim_of_ends {cs : List Char} (hfirst : ∀ c ∈ cs.head?, isBlank c = false)
    (hlast : ∀ c ∈ cs.getLast?, isBlank c = false) : trim cs = cs := by
  have hend : trimEnd cs = cs := by
    unfold trimEnd
    rcases hr : cs.reverse with _ | ⟨c, r⟩
    · rw [← List.reverse_reverse cs, hr]
      rfl
    · have hc : isBlank c = false := by
        refine hlast c ?_
        rw [← List.head?_reverse, hr]
        rfl
      rw [List.dropWhile_cons_of_neg (by rw [hc]; decide), ← hr, List.reverse_reverse]
  unfold trim
  rcases cs with _ | ⟨c, cs⟩
  · rfl
  · rw [trimStart_cons_of_not_blank _ (hfirst c rfl), hend]

theorem trim_of_forall {cs : List Char} (h : ∀ c ∈ cs, isBlank c = false) : trim cs = cs :=
  trim_of_ends (fun c hc => h c (List.mem_of_mem_head? hc))
    fun c hc => h c (List.mem_of_mem_getLast? hc)

end SqlSession.Text
