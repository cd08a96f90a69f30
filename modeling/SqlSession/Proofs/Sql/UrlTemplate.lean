/-
Addresses filled into their templates.

The parts of an address are put into its template one kind after the other, so the text that one
part has brought in is searched for the placeholders of the kinds after it.  Filling in all parts
at once does not do that; it is `filled`, on a template that is taken apart into characters and
placeholders first.

In every template a placeholder ends at a character that no placeholder has, a separator.  No
placeholder therefore reaches across the end of a value, and what filling in a kind does to the
whole text it does to each value by itself.  So the address is the template with every value as
the later kinds leave it, and that is the template filled in at once exactly if these leave alone
every value that is used: separators are never taken away, so what one value gains no other value
can make up for.
-/
import Mathlib.Data.List.Infix
import SqlSession.Sql.Dialect

namespace SqlSession

/-! ### Replacing in a text with separators -/

namespace Text

variable {pattern replacement s t : List Char} {c : Char} {skip : Nat}

theorem replaceFrom_cons_of_not_start (h : ¬pattern <+: c :: s) :
    replaceFrom pattern replacement 0 (c :: s) = c :: replaceFrom pattern replacement 0 s := by
  rw [replaceFrom, if_neg (by rwa [List.isPrefixOf_iff_prefix])]

theorem replaceFrom_cons_of_start (h : pattern <+: c :: s) :
    replaceFrom pattern replacement 0 (c :: s) =
      replacement ++ replaceFrom pattern replacement (pattern.length - 1) s := by
  rw [replaceFrom, if_pos (by rwa [List.isPrefixOf_iff_prefix])]

/-- A pattern does not reach beyond a character that it does not have. -/
theorem prefix_append_cons_iff (hc : c ∉ pattern) : pattern <+: s ++ c :: t ↔ pattern <+: s := by
  refine ⟨fun h => ?_, List.prefix_append_of_prefix⟩
  rcases List.prefix_or_prefix_of_prefix h (List.prefix_append s (c :: t)) with h' | ⟨x, rfl⟩
  · exact h'
  · cases x with
    | nil => exact (List.append_nil s).symm ▸ List.prefix_rfl
    | cons d x =>
        obtain ⟨rfl, -⟩ := List.cons_prefix_cons.mp ((List.prefix_append_right_inj s).mp h)
        exact absurd (List.mem_append_right s (List.mem_cons_self ..)) hc

/-- What stands before a separator is replaced apart from the rest. -/
theorem replaceFrom_append_cons (hc : c ∉ pattern) (hskip : skip ≤ s.length) :
    replaceFrom pattern replacement skip (s ++ c :: t) =
      replaceFrom pattern replacement skip s ++ replaceFrom pattern replacement 0 (c :: t) := by
  induction s generalizing skip with
  | nil =>
      obtain rfl : skip = 0 := Nat.le_zero.mp hskip
      rfl
  | cons d s ih =>
      cases skip with
      | succ skip => exact ih (Nat.le_of_succ_le_succ hskip)
      | zero =>
          have hreach := prefix_append_cons_iff (s := d :: s) (t := t) hc
          rw [List.cons_append] at hreach ⊢
          by_cases h : pattern <+: d :: s
          · have hlength : pattern.length - 1 ≤ s.length := by
              have := h.length_le
              rw [List.length_cons] at this
              omega
            rw [replaceFrom_cons_of_start (hreach.mpr h), replaceFrom_cons_of_start h,
              ih hlength, List.append_assoc]
          · rw [replaceFrom_cons_of_not_start (hreach.not.mpr h),
              replaceFrom_cons_of_not_start h, ih (Nat.zero_le _), List.cons_append]

theorem replaceFrom_length (s : List Char) : replaceFrom pattern replacement s.length s = [] := by
  induction s with
  | nil => rfl
  | cons c s ih => exact ih

theorem replaceFrom_self (hpattern : pattern ≠ []) :
    replaceFrom pattern replacement 0 pattern = replacement := by
  obtain ⟨c, name, rfl⟩ := List.exists_cons_of_ne_nil hpattern
  rw [replaceFrom_cons_of_start List.prefix_rfl, List.length_cons, Nat.add_sub_cancel,
    replaceFrom_length, List.append_nil]

/-- Characters that the pattern does not have are never taken away. -/
theorem countP_le_replaceFrom {p : Char → Bool} (hpattern : pattern ≠ [])
    (hp : ∀ c ∈ pattern, p c = false) (s : List Char) : ∀ skip,
      (s.drop skip).countP p ≤ (replaceFrom pattern replacement skip s).countP p := by
  induction s with
  | nil => exact fun skip => (List.drop_nil (i := skip)).symm ▸ Nat.zero_le _
  | cons d s ih =>
      intro skip
      cases skip with
      | succ skip => exact ih skip
      | zero =>
          by_cases h : pattern <+: d :: s
          · have hnone : pattern.countP p = 0 :=
              List.countP_eq_zero.mpr fun c hc => by rw [hp c hc]; decide
            have hrest : (d :: s).countP p = (s.drop (pattern.length - 1)).countP p := by
              obtain ⟨rest, hrest⟩ := h
              obtain ⟨e, pattern, rfl⟩ := List.exists_cons_of_ne_nil hpattern
              obtain ⟨rfl, rfl⟩ := List.cons.inj hrest
              show (e :: pattern ++ rest).countP p =
                ((pattern ++ rest).drop pattern.length).countP p
              rw [List.countP_append, hnone, Nat.zero_add, List.drop_left]
            rw [replaceFrom_cons_of_start h, List.countP_append, List.drop_zero, hrest]
            exact (ih _).trans (Nat.le_add_left ..)
          · rw [replaceFrom_cons_of_not_start h, List.drop_zero, List.countP_cons,
              List.countP_cons]
            exact Nat.add_le_add_right (ih 0) _

end Text

/-! ### Templates taken apart -/

namespace Dialect

/-- What a template has a placeholder for. -/
inductive UrlPart where
  | server
  | port
  | directory
  | database
  | instanceName
  deriving DecidableEq

namespace UrlPart

/-- The parts in the order in which they are filled in. -/
def all : List UrlPart :=
  [server, port, directory, database, instanceName]

def placeholder : UrlPart → List Char
  | server => "$dbServer".toList
  | port => "$dbPort".toList
  | directory => "$dbDir".toList
  | database => "$dbName".toList
  | instanceName => "$instanceName".toList

/-- The part whose placeholder a text begins with. -/
def at? (cs : List Char) : Option UrlPart :=
  all.find? fun part => part.placeholder.isPrefixOf cs

theorem placeholder_eq_cons (part : UrlPart) :
    ∃ name, part.placeholder = '$' :: name ∧ '$' ∉ name := by
  cases part <;> exact ⟨_, rfl, by decide⟩

theorem placeholder_ne_nil (part : UrlPart) : part.placeholder ≠ [] := by
  obtain ⟨name, h, -⟩ := part.placeholder_eq_cons
  rw [h]
  exact List.cons_ne_nil _ _

theorem prefix_of_at? {part : UrlPart} {cs : List Char} (h : at? cs = some part) :
    part.placeholder <+: cs := by
  unfold at? at h
  have hprefix := List.find?_some h
  exact List.isPrefixOf_iff_prefix.mp hprefix

theorem placeholder_prefix_iff {part other : UrlPart} :
    part.placeholder <+: other.placeholder ↔ part = other := by
  cases part <;> cases other <;> decide

end UrlPart

/-- A template is made of characters and of placeholders. -/
inductive UrlPiece where
  | char (c : Char)
  | part (part : UrlPart)
  deriving DecidableEq

/-- The pieces of a template, after passing over `skip` characters of a placeholder. -/
def urlPieces : Nat → List Char → List UrlPiece
  | _, [] => []
  | skip + 1, _ :: rest => urlPieces skip rest
  | 0, c :: rest =>
    match UrlPart.at? (c :: rest) with
    | some part => .part part :: urlPieces (part.placeholder.length - 1) rest
    | none => .char c :: urlPieces 0 rest

/-- A template with the values of all parts filled in at once. -/
def filled (value : UrlPart → List Char) : List UrlPiece → List Char
  | [] => []
  | .char c :: rest => c :: filled value rest
  | .part part :: rest => value part ++ filled value rest

/-- A character that no placeholder has. -/
def isSeparator (c : Char) : Bool :=
  UrlPart.all.all fun part => !part.placeholder.contains c

/-- A placeholder can stand before these pieces: they begin with a separator, if at all. -/
def endsPart : List UrlPiece → Bool
  | [] => true
  | .char c :: _ => isSeparator c
  | .part _ :: _ => false

/-- Nothing but a placeholder begins like one, and each of them ends at a separator or with the
template. -/
def separated : List UrlPiece → Bool
  | [] => true
  | .char c :: rest => c != '$' && separated rest
  | .part _ :: rest => endsPart rest && separated rest

/-- The pieces of the template that is selected. -/
def selectedPieces (d : Dialect) (name : Option String) : List UrlPiece :=
  urlPieces 0 (d.templateFor name).toList

theorem templateFor_mem (d : Dialect) (name : Option String) :
    d.templateFor name ∈ d.urlTemplate :: d.instanceUrlTemplate.toList := by
  unfold templateFor
  split
  next h =>
    rw [h]
    split
    · exact List.mem_cons_self ..
    · exact List.mem_cons_of_mem _ (List.mem_singleton_self _)
  next => exact List.mem_cons_self ..

theorem separated_selectedPieces (product : Product) (name : Option String) :
    separated (product.dialect.selectedPieces name) = true := by
  have hall : ∀ template ∈
      product.dialect.urlTemplate :: product.dialect.instanceUrlTemplate.toList,
      separated (urlPieces 0 template.toList) = true := by
    cases product <;> decide +kernel
  exact hall _ (templateFor_mem product.dialect name)

/-- Taking a template apart loses nothing of it. -/
theorem filled_placeholder (template : List Char) : ∀ skip,
    filled UrlPart.placeholder (urlPieces skip template) = template.drop skip := by
  induction template with
  | nil => intro skip; rw [urlPieces, List.drop_nil]; rfl
  | cons c rest ih =>
      intro skip
      cases skip with
      | succ skip => exact ih skip
      | zero =>
          rw [urlPieces]
          split
          next part hpart =>
            obtain ⟨name, hname, -⟩ := part.placeholder_eq_cons
            obtain ⟨tail, htail⟩ := UrlPart.prefix_of_at? hpart
            rw [hname, List.cons_append] at htail
            obtain ⟨rfl, rfl⟩ := List.cons.inj htail
            rw [filled, ih, hname, List.length_cons, Nat.add_sub_cancel, List.drop_left]
            rfl
          next => rw [filled, ih]; rfl

theorem isSeparator_iff {c : Char} :
    isSeparator c = true ↔ ∀ part : UrlPart, c ∉ part.placeholder := by
  constructor
  · intro h part
    have hpart := List.all_eq_true.mp h part (by cases part <;> decide)
    simpa using hpart
  · exact fun h => List.all_eq_true.mpr fun part _ => by simpa using h part

/-! ### Filling in one kind after the other -/

/-- Put the value of a part in the place of its placeholder, wherever a text has it. -/
def fillIn (value : UrlPart → List Char) (text : List Char) (part : UrlPart) : List Char :=
  Text.replaceFrom part.placeholder (value part) 0 text

/-- The parts that are filled in after one. -/
def UrlPart.later (part : UrlPart) : List UrlPart :=
  (all.dropWhile (· ≠ part)).drop 1

/-- The value of a part as the later kinds leave it. -/
def settled (value : UrlPart → List Char) (part : UrlPart) : List Char :=
  part.later.foldl (fillIn value) (value part)

section Filling

variable {value v v' : UrlPart → List Char} {pieces : List UrlPiece} {part : UrlPart}

theorem fillIn_cons {c : Char} {s : List Char} (hc : c ≠ '$') :
    fillIn value (c :: s) part = c :: fillIn value s part := by
  refine Text.replaceFrom_cons_of_not_start fun h => ?_
  obtain ⟨name, hname, -⟩ := part.placeholder_eq_cons
  rw [hname] at h
  exact hc (List.cons_prefix_cons.mp h).1.symm

/-- One kind is filled in value by value. -/
theorem fillIn_filled (h : separated pieces = true) :
    fillIn value (filled v pieces) part = filled (fun p => fillIn value (v p) part) pieces := by
  induction pieces with
  | nil => rfl
  | cons piece pieces ih =>
      cases piece with
      | char c =>
          obtain ⟨hc, hpieces⟩ := Bool.and_eq_true_iff.mp h
          rw [filled, filled, fillIn_cons (bne_iff_ne.mp hc), ih hpieces]
      | part p =>
          obtain ⟨hend, hpieces⟩ := Bool.and_eq_true_iff.mp h
          rw [filled, filled, ← ih hpieces]
          match pieces, hend with
          | [], _ => simp only [filled, List.append_nil]; exact (List.append_nil _).symm
          | .char c :: pieces, hend =>
              exact Text.replaceFrom_append_cons (isSeparator_iff.mp hend part) (Nat.zero_le _)

theorem foldl_fillIn_filled (h : separated pieces = true) (parts : List UrlPart) :
    parts.foldl (fillIn value) (filled v pieces) =
      filled (fun p => parts.foldl (fillIn value) (v p)) pieces := by
  induction parts generalizing v with
  | nil => rfl
  | cons part parts ih => rw [List.foldl_cons, fillIn_filled h, ih]; rfl

/-- A text without `$` stays as it is. -/
theorem fillIn_of_notMem {s : List Char} (h : '$' ∉ s) : fillIn value s part = s := by
  induction s with
  | nil => rfl
  | cons c s ih =>
      obtain ⟨hc, hs⟩ := not_or.mp (List.mem_cons.not.mp h)
      rw [fillIn_cons (Ne.symm hc), ih hs]

/-- Later kinds leave a value without `$` alone. -/
theorem settled_of_notMem (h : '$' ∉ value part) : settled value part = value part := by
  unfold settled
  induction part.later with
  | nil => rfl
  | cons p parts ih => rw [List.foldl_cons, fillIn_of_notMem h, ih]

theorem fillIn_placeholder (value : UrlPart → List Char) (part other : UrlPart) :
    fillIn value part.placeholder other =
      if other = part then value other else part.placeholder := by
  split
  next h =>
    subst h
    exact Text.replaceFrom_self other.placeholder_ne_nil
  next h =>
    have hprefix := UrlPart.placeholder_prefix_iff.not.mpr h
    obtain ⟨name, hname, hdollar⟩ := part.placeholder_eq_cons
    rw [hname] at hprefix ⊢
    have hfill : fillIn value ('$' :: name) other = '$' :: fillIn value name other :=
      Text.replaceFrom_cons_of_not_start hprefix
    rw [hfill, fillIn_of_notMem hdollar]

/-- A placeholder that is filled in is its value, as the later kinds leave it. -/
theorem foldl_fillIn_placeholder (value : UrlPart → List Char) (part : UrlPart) :
    UrlPart.all.foldl (fillIn value) part.placeholder = settled value part := by
  cases part <;> simp [UrlPart.all, settled, UrlPart.later, fillIn_placeholder]

/-! ### Separators -/

theorem countP_le_fillIn (value : UrlPart → List Char) (part : UrlPart) (s : List Char) :
    s.countP isSeparator ≤ (fillIn value s part).countP isSeparator := by
  refine Text.countP_le_replaceFrom part.placeholder_ne_nil (fun c hc => ?_) s 0
  exact Bool.eq_false_iff.mpr fun h => isSeparator_iff.mp h part hc

theorem countP_le_settled (value : UrlPart → List Char) (part : UrlPart) :
    (value part).countP isSeparator ≤ (settled value part).countP isSeparator := by
  unfold settled
  generalize value part = s
  induction part.later generalizing s with
  | nil => exact Nat.le_refl _
  | cons p parts ih => exact (countP_le_fillIn value p s).trans (ih _)

theorem countP_filled_le (h : ∀ p, (v p).countP isSeparator ≤ (v' p).countP isSeparator) :
    (filled v pieces).countP isSeparator ≤ (filled v' pieces).countP isSeparator := by
  induction pieces with
  | nil => exact Nat.le_refl _
  | cons piece pieces ih =>
      cases piece with
      | char c =>
          rw [filled, filled, List.countP_cons, List.countP_cons]
          exact Nat.add_le_add_right ih _
      | part p =>
          rw [filled, filled, List.countP_append, List.countP_append]
          exact Nat.add_le_add (h p) ih

/-- Where two texts with as many separators each are followed by one, the texts are the same. -/
theorem eq_of_append_separator {a b x y : List Char} {c : Char} (hc : isSeparator c = true)
    (hcount : a.countP isSeparator = b.countP isSeparator) (h : a ++ c :: x = b ++ c :: y) :
    a = b := by
  rcases List.append_eq_append_iff.mp h with ⟨z, rfl, hz⟩ | ⟨z, rfl, hz⟩
  · cases z with
    | nil => exact (List.append_nil a).symm
    | cons d z =>
        obtain ⟨rfl, -⟩ := List.cons.inj hz
        simp [hc] at hcount
  · cases z with
    | nil => exact List.append_nil b
    | cons d z =>
        obtain ⟨rfl, -⟩ := List.cons.inj hz
        simp [hc] at hcount

/-- Where no value loses a separator, a template that is filled to the same text has the same
values in it. -/
theorem eq_of_filled_eq (hpieces : separated pieces = true)
    (hle : ∀ p, (v p).countP isSeparator ≤ (v' p).countP isSeparator)
    (h : filled v pieces = filled v' pieces) : ∀ p, .part p ∈ pieces → v p = v' p := by
  induction pieces with
  | nil => exact fun p hp => absurd hp List.not_mem_nil
  | cons piece pieces ih =>
      cases piece with
      | char c =>
          intro p hp
          obtain ⟨-, hpieces⟩ := Bool.and_eq_true_iff.mp hpieces
          exact ih hpieces (List.cons.inj h).2 p (by simpa using hp)
      | part q =>
          obtain ⟨hend, hpieces⟩ := Bool.and_eq_true_iff.mp hpieces
          rw [filled, filled] at h
          have hcount : (v q).countP isSeparator = (v' q).countP isSeparator := by
            have hsum := congrArg (List.countP isSeparator) h
            rw [List.countP_append, List.countP_append] at hsum
            have := hle q
            have hrest : (filled v pieces).countP isSeparator ≤
                (filled v' pieces).countP isSeparator := countP_filled_le hle
            omega
          have hq : v q = v' q := by
            match pieces, hend with
            | [], _ => simpa [filled] using h
            | .char c :: pieces, hend => exact eq_of_append_separator hend hcount h
          rw [hq] at h
          intro p hp
          rcases List.mem_cons.mp hp with hp | hp
          · cases hp
            exact hq
          · exact ih hpieces (List.append_cancel_left h) p hp

end Filling

/-! ### Addresses -/

/-- The texts that the parts of an address are given as. -/
def urlValue (server port directory database : String) (instanceName : Option String) :
    UrlPart → List Char
  | .server => server.toList
  | .port => port.toList
  | .directory => directory.toList
  | .database => database.toList
  | .instanceName => (instanceName.getD "").toList

theorem filled_congr {v v' : UrlPart → List Char} {pieces : List UrlPiece}
    (h : ∀ p, .part p ∈ pieces → v p = v' p) : filled v pieces = filled v' pieces := by
  induction pieces with
  | nil => rfl
  | cons piece pieces ih =>
      have hrest := ih fun p hp => h p (List.mem_cons_of_mem _ hp)
      cases piece with
      | char c => rw [filled, filled, hrest]
      | part p => rw [filled, filled, hrest, h p (List.mem_cons_self ..)]

/-- An address is its template with every value as the later kinds leave it. -/
theorem renderUrl_eq_filled (product : Product) (server port directory database : String)
    (instanceName : Option String) :
    product.dialect.renderUrl server port directory database instanceName =
      String.ofList (filled (settled (urlValue server port directory database instanceName))
        (product.dialect.selectedPieces instanceName)) := by
  have hfold : UrlPart.all.foldl
      (fillIn (urlValue server port directory database instanceName))
      (filled UrlPart.placeholder (product.dialect.selectedPieces instanceName)) = _ :=
    foldl_fillIn_filled (separated_selectedPieces product instanceName) UrlPart.all
  simp only [foldl_fillIn_placeholder] at hfold
  rw [← hfold, selectedPieces, filled_placeholder, List.drop_zero]
  simp only [renderUrl, Text.replaceAll, String.toList_ofList]
  rfl

/-- Values without `$` are filled in as they are. -/
theorem renderUrl_of_notMem (product : Product) (server port directory database : String)
    (instanceName : Option String)
    (h : ∀ part, '$' ∉ urlValue server port directory database instanceName part) :
    product.dialect.renderUrl server port directory database instanceName =
      String.ofList (filled (urlValue server port directory database instanceName)
        (product.dialect.selectedPieces instanceName)) := by
  rw [renderUrl_eq_filled]
  refine congrArg String.ofList (filled_congr fun part _ => ?_)
  exact settled_of_notMem (h part)

/--
**An address is its template filled in at once exactly if no value is filled into another.**
For every product and all values: the address is the selected template with every placeholder
replaced by its value as the later kinds leave it.  It is the template with every placeholder
replaced by its value as it is, all of them at once, exactly if the later kinds leave alone the
value of every placeholder that the template has.
-/
theorem renderUrl_at_once_iff (product : Product) (server port directory database : String)
    (instanceName : Option String) :
    let value := urlValue server port directory database instanceName
    let pieces := product.dialect.selectedPieces instanceName
    let url := product.dialect.renderUrl server port directory database instanceName
    url = String.ofList (filled (settled value) pieces) ∧
      (url = String.ofList (filled value pieces) ↔
        ∀ part, .part part ∈ pieces → settled value part = value part) := by
  intro value pieces url
  have hpieces := separated_selectedPieces product instanceName
  have hurl : url = String.ofList (filled (settled value) pieces) :=
    renderUrl_eq_filled product server port directory database instanceName
  refine ⟨hurl, ?_⟩
  rw [hurl, String.ofList_inj]
  constructor
  · intro h part hpart
    exact (eq_of_filled_eq hpieces (countP_le_settled value) h.symm part hpart).symm
  · exact filled_congr

/-- The name of a database in the place of a server is replaced by the database. -/
theorem server_named_like_placeholder :
    let value := urlValue "$dbName" "5432" "" "books" none
    let pieces := Product.postgreSql.dialect.selectedPieces none
    Product.postgreSql.dialect.renderUrl "$dbName" "5432" "" "books" none =
        "postgresql://books:5432/books" ∧
      String.ofList (filled value pieces) = "postgresql://$dbName:5432/books" ∧
      "postgresql://books:5432/books" ≠ "postgresql://$dbName:5432/books" := by
  decide +kernel

end Dialect

end SqlSession
