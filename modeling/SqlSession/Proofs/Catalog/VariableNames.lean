/-
Variables without their `Id`.

A column that refers to a row is named after it with an `id` behind, and the variable for the row
leaves the `Id` out.  What is left out here is the last `Id` with everything behind it, wherever it
stands.  So `publisherId` becomes `publisher`, and so does `publisherIdCode`; the name is the one
without a trailing `Id` exactly if the last `Id`, if there is one, is the end.

An `Id` is never the beginning.  The first word of a variable is in lower case, and no character
has the capital `I` for its lower-case form.
-/
import Mathlib.Data.List.Infix
import SqlSession.Catalog.Table

namespace SqlSession

namespace Text

open Case

/-! ### Lower case -/

theorem lowercaseForm_eq (c : Char) :
    lowercaseForm c =
      if c.toNat < 0x80 then [c.toLower]
      else
        match toLowerLong.lookup c.toNat with
        | some form => form.map Char.ofNat
        | none =>
          match toLowerRuns.find? (·.1.contains c.toNat) with
          | some (_, distance) => [Char.ofNat (c.toNat + distance).toNat]
          | none => [c] := rfl

/-- Where the lower-case form of a character comes from: the letters of ASCII, the long forms, the
runs, or, for a character in none of them, itself. -/
theorem lowercaseForm_cases (c : Char) :
    (c.toNat < 0x80 ∧ lowercaseForm c = [c.toLower]) ∨
      (∃ form, (c.toNat, form) ∈ toLowerLong ∧ lowercaseForm c = form.map Char.ofNat) ∨
      (∃ run distance, (run, distance) ∈ toLowerRuns ∧ run.contains c.toNat = true ∧
        lowercaseForm c = [Char.ofNat (c.toNat + distance).toNat]) ∨
      (¬c.toNat < 0x80 ∧ lowercaseForm c = [c]) := by
  have heq := lowercaseForm_eq c
  by_cases hascii : c.toNat < 0x80
  · exact .inl ⟨hascii, heq.trans (if_pos hascii)⟩
  · rw [if_neg hascii] at heq
    cases hlong : toLowerLong.lookup c.toNat with
    | some form =>
        obtain ⟨before, after, hentry, -⟩ := List.lookup_eq_some_iff.mp hlong
        have hmem : (c.toNat, form) ∈ toLowerLong :=
          hentry ▸ List.mem_append_right _ (List.mem_cons_self ..)
        rw [hlong] at heq
        exact .inr (.inl ⟨form, hmem, heq⟩)
    | none =>
        cases hrun : toLowerRuns.find? (·.1.contains c.toNat) with
        | some entry =>
            have hin := List.find?_some hrun
            rw [hlong, hrun] at heq
            exact .inr (.inr (.inl ⟨entry.1, entry.2, List.mem_of_find?_eq_some hrun, hin, heq⟩))
        | none =>
            rw [hlong, hrun] at heq
            exact .inr (.inr (.inr ⟨hascii, heq⟩))

theorem lowercaseForm_ne_nil (c : Char) : lowercaseForm c ≠ [] := by
  have hforms : ∀ entry ∈ toLowerLong, entry.2 ≠ [] := by decide
  rcases lowercaseForm_cases c with ⟨-, h⟩ | ⟨form, hform, h⟩ | ⟨run, distance, -, -, h⟩ | ⟨-, h⟩
  · rw [h]
    exact List.cons_ne_nil _ _
  · rw [h, ne_eq, List.map_eq_nil_iff]
    exact hforms _ hform
  · rw [h]
    exact List.cons_ne_nil _ _
  · rw [h]
    exact List.cons_ne_nil _ _

theorem ofNat_ne_capital {n : Nat} (h : 0x49 < n) : Char.ofNat n ≠ 'I' := by
  intro heq
  by_cases hvalid : n.isValidChar
  · have hchar : Char.ofNat n = Char.ofNatAux n hvalid := dif_pos hvalid
    have hcode : n = 0x49 := congrArg Char.toNat (hchar.symm.trans heq)
    omega
  · have hchar : Char.ofNat n = '\x00' := dif_neg hvalid
    exact absurd (hchar.symm.trans heq) (by decide)

theorem capital_notMem_lowercaseForm (c : Char) : 'I' ∉ lowercaseForm c := by
  have hascii : ∀ n < 0x80, (Char.ofNat n).toLower ≠ 'I' := by decide
  have hforms : ∀ entry ∈ toLowerLong, ∀ n ∈ entry.2, 0x49 < n := by decide
  have hruns : (toLowerRuns.all fun (run, distance) =>
      0x49 < (run.first : Int) + distance) = true := by decide
  intro h
  rcases lowercaseForm_cases c with ⟨hc, heq⟩ | ⟨form, hform, heq⟩ | ⟨run, distance, hrun, hin, heq⟩
    | ⟨hc, heq⟩
  · rw [heq] at h
    have hlower := hascii c.toNat hc
    rw [Char.ofNat_toNat] at hlower
    exact hlower (List.mem_singleton.mp h).symm
  · rw [heq] at h
    obtain ⟨n, hn, hchar⟩ := List.mem_map.mp h
    exact ofNat_ne_capital (hforms _ hform n hn) hchar
  · rw [heq] at h
    have hfirst : 0x49 < (run.first : Int) + distance :=
      of_decide_eq_true (List.all_eq_true.mp hruns _ hrun)
    simp only [Run.contains, Bool.and_eq_true, decide_eq_true_eq] at hin
    have hcode : 0x49 < (c.toNat + distance).toNat := by omega
    exact ofNat_ne_capital hcode (List.mem_singleton.mp h).symm
  · rw [heq] at h
    have hcapital := List.mem_singleton.mp h
    subst hcapital
    exact hc (by decide)

namespace CamelCase

theorem lowered_ne_nil {word : List Char} (h : word ≠ []) : lowered word ≠ [] := by
  fun_cases lowered word
  · exact absurd rfl h
  · exact List.cons_ne_nil _ _
  · exact List.append_ne_nil_of_left_ne_nil (lowercaseForm_ne_nil _) _

theorem capital_notMem_lowered (word : List Char) : 'I' ∉ lowered word := by
  fun_induction lowered word with
  | case1 => exact List.not_mem_nil
  | case2 => decide
  | case3 c rest _ ih => exact List.not_mem_append (capital_notMem_lowercaseForm c) ih

/-- A word is cut off only when something of it has been read. -/
theorem humps_ne_nil {t : Trend} {word cs : List Char} (h : t = .upper → word ≠ []) :
    ∀ w ∈ humps t word cs, w ≠ [] := by
  fun_induction humps t word cs with
  | case1 => exact fun w hw => absurd hw List.not_mem_nil
  | case2 t word c =>
      intro w hw
      rw [List.mem_singleton.mp hw]
      simp
  | case3 t word c next rest _ ih =>
      intro w hw
      rcases List.mem_cons.mp hw with rfl | hw
      · simp
      · exact ih nofun w hw
  | case4 t word c next rest _ hcut ih =>
      intro w hw
      rcases List.mem_cons.mp hw with rfl | hw
      · simpa using h hcut.1
      · exact ih nofun w hw
  | case5 t word c next rest _ _ ih => exact ih fun _ => List.cons_ne_nil _ _

theorem words_ne_nil {name : List Char} : ∀ w ∈ words name, w ≠ [] := by
  intro w hw
  obtain ⟨run, -, hrun⟩ := List.mem_flatMap.mp hw
  exact humps_ne_nil (t := .unknown) nofun w hrun

/-- A name in lower camel case does not begin with a capital `I`. -/
theorem head?_lower_ne (name : String) : (lower name).toList.head? ≠ some 'I' := by
  rw [lower, String.toList_ofList]
  cases h : words name.toList with
  | nil => nofun
  | cons first rest =>
      have hfirst := lowered_ne_nil (words_ne_nil first (h ▸ List.mem_cons_self ..))
      obtain ⟨c, cs, hlowered⟩ := List.exists_cons_of_ne_nil hfirst
      show (lowered first ++ rest.flatMap capitalized).head? ≠ some 'I'
      rw [hlowered]
      intro hc
      refine capital_notMem_lowered first ?_
      rw [hlowered, Option.some.inj hc]
      exact List.mem_cons_self ..

end CamelCase

end Text

namespace Catalog

open Text

/-! ### The last `Id` -/

/-- There is an `Id` in the text. -/
def HasId (cs : List Char) : Prop :=
  ['I', 'd'] <:+: cs

variable {cs before after : List Char}

theorem hasId_cons_iff {c : Char} :
    HasId (c :: cs) ↔ (c = 'I' ∧ cs.head? = some 'd') ∨ HasId cs := by
  rw [HasId, List.infix_cons_iff, HasId, List.cons_prefix_cons, eq_comm]
  refine or_congr (and_congr_right fun _ => ?_) Iff.rfl
  cases cs with
  | nil => simp
  | cons d rest => simp [List.cons_prefix_cons, eq_comm]

theorem beforeLastId?_eq_none_iff : beforeLastId? cs = none ↔ ¬HasId cs := by
  induction cs with
  | nil => simp [beforeLastId?, HasId]
  | cons c rest ih =>
      rw [hasId_cons_iff, not_or, ← ih, beforeLastId?]
      cases beforeLastId? rest with
      | none => simp
      | some before => simp

/-- The last `Id` is found, which is the one with no other behind it. -/
theorem beforeLastId?_of_last (hafter : ¬HasId after) :
    beforeLastId? (before ++ 'I' :: 'd' :: after) = some before := by
  induction before with
  | nil =>
      have hnone : beforeLastId? ('d' :: after) = none :=
        beforeLastId?_eq_none_iff.mpr (by simpa [hasId_cons_iff] using hafter)
      show beforeLastId? ('I' :: 'd' :: after) = some []
      rw [beforeLastId?, hnone]
      rfl
  | cons c before ih => rw [List.cons_append, beforeLastId?, ih]

theorem HasId.exists_last (h : HasId cs) :
    ∃ before after, cs = before ++ 'I' :: 'd' :: after ∧ ¬HasId after := by
  induction cs with
  | nil => simp [HasId] at h
  | cons c rest ih =>
      by_cases hrest : HasId rest
      · obtain ⟨before, after, rfl, hafter⟩ := ih hrest
        exact ⟨c :: before, after, rfl, hafter⟩
      · obtain ⟨rfl, hd⟩ := (hasId_cons_iff.mp h).resolve_right hrest
        obtain ⟨after, rfl⟩ := List.head?_eq_some_iff.mp hd
        exact ⟨[], after, rfl, fun hafter => hrest (hasId_cons_iff.mpr (.inr hafter))⟩

/-- The text without an `Id` at its end, unless nothing else is in it. -/
def withoutTrailingId (s : String) : String :=
  if ['I', 'd'] <:+ s.toList ∧ 2 < s.toList.length then
    String.ofList (s.toList.take (s.toList.length - 2))
  else s

variable {s : String}

theorem withoutTrailingId_of_trailing (hs : s.toList = before ++ ['I', 'd']) (h : before ≠ []) :
    withoutTrailingId s = String.ofList before := by
  have hlength := List.length_pos_iff.mpr h
  rw [withoutTrailingId, hs, if_pos ⟨List.suffix_append .., by simp; omega⟩]
  simp

theorem withoutTrailingId_of_not (h : ¬['I', 'd'] <:+ s.toList) : withoutTrailingId s = s :=
  if_neg fun htrailing => h htrailing.1

theorem length_le_withoutTrailingId (s : String) :
    s.toList.length ≤ (withoutTrailingId s).toList.length + 2 := by
  unfold withoutTrailingId
  split
  next => rw [String.toList_ofList, List.length_take]; omega
  next => exact Nat.le_add_right _ _

/-! ### Variables -/

namespace Column

/-- No variable begins with `Id`. -/
theorem before_ne_nil {c : Column} (h : c.variableName.toList = before ++ 'I' :: cs) :
    before ≠ [] := by
  rintro rfl
  have hhead : c.variableName.toList.head? = some 'I' := by rw [h]; rfl
  simp only [variableName] at hhead
  split at hhead
  · cases hhead
  · exact CamelCase.head?_lower_ne _ hhead

theorem variableNameWithoutId_of_not {c : Column} (h : ¬HasId c.variableName.toList) :
    c.variableNameWithoutId = c.variableName := by
  rw [variableNameWithoutId, withoutId, beforeLastId?_eq_none_iff.mpr h]

theorem variableNameWithoutId_of_last {c : Column}
    (h : c.variableName.toList = before ++ 'I' :: 'd' :: after) (hafter : ¬HasId after) :
    c.variableNameWithoutId = String.ofList before := by
  obtain ⟨first, rest, rfl⟩ := List.exists_cons_of_ne_nil (before_ne_nil h)
  rw [variableNameWithoutId, withoutId, h, beforeLastId?_of_last hafter]

/--
**What is left of a variable without its `Id`.**  Without an `Id` the variable stays as it is;
else it is cut before its last `Id`, whatever stands behind that.  So it loses a trailing `Id` and
nothing else exactly if nothing stands behind the last `Id`.
-/
theorem variableNameWithoutId_eq_iff (c : Column) :
    (¬HasId c.variableName.toList → c.variableNameWithoutId = c.variableName) ∧
      (∀ before after, c.variableName.toList = before ++ 'I' :: 'd' :: after → ¬HasId after →
        c.variableNameWithoutId = String.ofList before) ∧
      (c.variableNameWithoutId = withoutTrailingId c.variableName ↔
        ∀ before after, c.variableName.toList = before ++ 'I' :: 'd' :: after → ¬HasId after →
          after = []) := by
  refine ⟨variableNameWithoutId_of_not, fun _ _ => variableNameWithoutId_of_last, ?_⟩
  constructor
  · intro h before after hname hafter
    -- a trailing `Id` takes two characters with it, and so much stands before `after` alone
    have hlength := length_le_withoutTrailingId c.variableName
    rw [← h, variableNameWithoutId_of_last hname hafter, hname, String.toList_ofList] at hlength
    simp only [List.length_append, List.length_cons] at hlength
    exact List.eq_nil_of_length_eq_zero (by omega)
  · intro h
    by_cases hid : HasId c.variableName.toList
    · obtain ⟨before, after, hname, hafter⟩ := hid.exists_last
      obtain rfl := h before after hname hafter
      rw [variableNameWithoutId_of_last hname hafter,
        withoutTrailingId_of_trailing hname (before_ne_nil hname)]
    · rw [variableNameWithoutId_of_not hid,
        withoutTrailingId_of_not fun htrailing => hid htrailing.isInfix]

/-- The plural of a user's number is cut like the number. -/
example : ({ name := "user_ids" } : Column).variableNameWithoutId = "user" := by
  rfl

/-- A publisher's code is taken for the publisher: nothing trails, and half of the name goes. -/
theorem code_of_publisher_is_cut :
    let c : Column := { name := "publisher_id_code" }
    c.variableName = "publisherIdCode" ∧ withoutTrailingId c.variableName = "publisherIdCode" ∧
      c.variableNameWithoutId = "publisher" := by
  refine ⟨by rfl, ?_, by rfl⟩
  decide

end Column

end Catalog

end SqlSession
