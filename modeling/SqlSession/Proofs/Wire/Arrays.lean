/-
Arrays of the server.

On the wire an array is the number of its dimensions, a flag, the number of the element type, a
length and a lower bound for each dimension, and then the elements in row-major order, each behind
its length, and only the length -1 for NULL.  `ArrayValue` is such an array, and `json` is what it
is in JSON: arrays within arrays, one level for each dimension.

An array of one dimension is read as that, whatever its length and wherever NULL stands in it, and
so is the array without any.  An array of more dimensions is refused.
`ArrayValue.decode?_bytes_iff` says both.
-/
import SqlSession.Proofs.Wire.Forms

namespace SqlSession.Wire

variable {t : ServerType}

/-! ### Arrays on the wire -/

/-- A value of a type that arrays are made of. -/
inductive Element : ServerType → Type where
  | int2 (n : Int) (fits : FitsBytes 2 n) : Element .int2
  | int4 (n : Int) (fits : FitsBytes 4 n) : Element .int4
  | int8 (n : Int) (fits : FitsBytes 8 n) : Element .int8
  | bool (b : Bool) : Element .bool
  | float8 (x : Binary64) : Element .float8
  /-- The length of a text has to fit as well. -/
  | text (s : String) (fits : FitsBytes 4 (Text.utf8Bytes s).length) : Element .text

namespace Element

def bytes : Element t → Bytes
  | int2 n _ => signedBytes 2 n
  | int4 n _ => signedBytes 4 n
  | int8 n _ => signedBytes 8 n
  | bool b => [if b then 1 else 0]
  | float8 x => floatBytes x
  | text s _ => Text.utf8Bytes s

def value : Element t → Value
  | int2 n _ | int4 n _ | int8 n _ => .int (Int64.ofInt n)
  | bool b => .bool b
  | float8 x => .float x
  | text s _ => .text s

end Element

/-- The elements of one dimension are numbered from the lower bound. -/
structure Dimension where
  length : Nat
  lower : Int
  length_fits : FitsBytes 4 length
  lower_fits : FitsBytes 4 lower

/-- An array with elements of the type, NULL or not. -/
structure ArrayValue (t : ServerType) where
  dimensions : List Dimension
  /-- There may be NULL among the elements. -/
  hasNull : Bool
  /-- The number of the element type. -/
  typeNumber : Nat
  elements : List (Option (Element t))
  rank_fits : FitsBytes 4 dimensions.length
  typeNumber_lt : typeNumber < Nat.pow 256 4
  /-- Without a dimension there is no element. -/
  length_elements :
    elements.length = if dimensions = [] then 0 else (dimensions.map (·.length)).prod

def Dimension.bytes (d : Dimension) : Bytes :=
  signedBytes 4 d.length ++ signedBytes 4 d.lower

/-- An element behind its length. -/
def cellBytes : Option Bytes → Bytes
  | none => signedBytes 4 (-1)
  | some b => signedBytes 4 b.length ++ b

/-- The elements from a place on, nested by the lengths of the dimensions. -/
def nested (elementAt : Nat → Json) : List Nat → Nat → Json
  | [], place => elementAt place
  | length :: lengths, place =>
    .array ((List.range length).map fun i => nested elementAt lengths (place + i * lengths.prod))

namespace ArrayValue

def bytes (a : ArrayValue t) : Bytes :=
  signedBytes 4 a.dimensions.length ++ signedBytes 4 (if a.hasNull then 1 else 0)
    ++ bigEndian 4 a.typeNumber ++ a.dimensions.flatMap Dimension.bytes
    ++ a.elements.flatMap fun x => cellBytes (x.map Element.bytes)

/-- An element in JSON. -/
def elementJson (x : Option (Element t)) : Json :=
  x.elim .null fun x => x.value.normalize

/-- The array in JSON. -/
def json (a : ArrayValue t) : Json :=
  if a.dimensions = [] then .array []
  else nested (fun i => elementJson (a.elements.getD i none)) (a.dimensions.map (·.length)) 0

end ArrayValue

/-! ### Taking the bytes apart -/

theorem fits_length (x : Element t) : FitsBytes 4 x.bytes.length := by
  cases x with
  | text s fits => exact fits
  | bool b => exact (by decide : FitsBytes 4 1)
  | int2 | int4 | int8 | float8 =>
      unfold Element.bytes
      simp only [length_signedBytes, floatBytes, length_bigEndian]
      decide

/-- Every element is read as the value that it is. -/
theorem decode?_element (x : Element t) : decode? t x.bytes = some x.value := by
  cases x with
  | int2 n fits | int4 n fits | int8 n fits =>
      unfold Element.bytes
      rw [decode?_of_intWidth rfl, int?_signedBytes (by decide) fits]
      rfl
  | bool b => cases b <;> rfl
  | float8 x => exact decode?_floatBytes x
  | text s fits => exact decode?_text s

theorem takeDimensions?_flatMap (ds : List Dimension) (rest : Bytes) :
    takeDimensions? ds.length (ds.flatMap Dimension.bytes ++ rest)
      = some (ds.map (·.length), rest) := by
  induction ds with
  | nil => rfl
  | cons d ds ih =>
      rw [List.length_cons, List.flatMap_cons, takeDimensions?, Dimension.bytes]
      simp only [List.append_assoc, Option.bind_eq_bind, Option.bind_some, Option.pure_def,
        takeInt?_signedBytes (by decide) d.length_fits,
        takeInt?_signedBytes (by decide) d.lower_fits, ih]
      rw [if_neg (by omega)]
      simp

theorem takeElements?_flatMap {cells : List (Option Bytes)}
    (h : ∀ b, some b ∈ cells → FitsBytes 4 b.length) :
    takeElements? cells.length (cells.flatMap cellBytes) = some cells := by
  induction cells with
  | nil => rfl
  | cons cell cells ih =>
      have hrest := ih fun b hb => h b (List.mem_cons_of_mem _ hb)
      rw [List.length_cons, List.flatMap_cons, takeElements?]
      cases cell with
      | none =>
          have hnull : FitsBytes 4 (-1) := by decide
          simp only [cellBytes, takeInt?_signedBytes (by decide) hnull, hrest, Option.bind_eq_bind,
            Option.bind_some, Option.pure_def]
          rfl
      | some b =>
          have hlength := h b (List.mem_cons_self ..)
          simp only [cellBytes, List.append_assoc, takeInt?_signedBytes (by decide) hlength,
            Option.bind_eq_bind, Option.bind_some, Option.pure_def]
          rw [if_neg (by omega), if_neg (by simp), Int.toNat_natCast, List.drop_left,
            List.take_left, hrest]
          rfl

namespace ArrayValue

variable {a : ArrayValue t} {d : Dimension}

theorem elements_eq_nil (h : a.dimensions = []) : a.elements = [] := by
  rw [← List.length_eq_zero_iff, a.length_elements, if_pos h]

theorem length_elements_of_one (h : a.dimensions = [d]) : a.elements.length = d.length := by
  rw [a.length_elements, if_neg (h ▸ List.cons_ne_nil _ _), h, List.map_singleton,
    List.prod_singleton]

/-- The elements as they stand on the wire. -/
def cells (a : ArrayValue t) : List (Option Bytes) :=
  a.elements.map (·.map Element.bytes)

theorem le_length_dimensions (ds : List Dimension) (rest : Bytes) :
    8 * ds.length ≤ (ds.flatMap Dimension.bytes ++ rest).length := by
  have hdim (d : Dimension) : d.bytes.length = 8 := by
    rw [Dimension.bytes, List.length_append, length_signedBytes, length_signedBytes]
  induction ds with
  | nil => exact Nat.zero_le _
  | cons d ds ih =>
      rw [List.length_cons, List.flatMap_cons, List.append_assoc, List.length_append, hdim]
      omega

/-- The bytes are taken apart into the elements, if there is at most one dimension. -/
theorem arrayElements?_bytes (a : ArrayValue t) :
    arrayElements? a.bytes = if a.dimensions.length ≤ 1 then some a.cells else none := by
  have hflag : FitsBytes 4 (if a.hasNull then 1 else 0) := by cases a.hasNull <;> decide
  have hcells : takeElements? a.elements.length
      (a.elements.flatMap fun x => cellBytes (x.map Element.bytes)) = some a.cells := by
    have hfits : ∀ b, some b ∈ a.cells → FitsBytes 4 b.length := by
      intro b hb
      obtain ⟨x, -, hx⟩ := List.mem_map.mp hb
      obtain ⟨x, -, rfl⟩ := Option.map_eq_some_iff.mp hx
      exact fits_length x
    have := takeElements?_flatMap hfits
    rwa [cells, List.length_map, List.flatMap_map] at this
  unfold arrayElements? bytes
  simp only [List.append_assoc, Option.bind_eq_bind, Option.bind_some,
    takeInt?_signedBytes (by decide) a.rank_fits, takeInt?_signedBytes (by decide) hflag,
    takeNat?_bigEndian 4 a.typeNumber_lt]
  have henough := le_length_dimensions a.dimensions
    (a.elements.flatMap fun x => cellBytes (x.map Element.bytes))
  rw [if_neg (by omega), Int.toNat_natCast, takeDimensions?_flatMap, Option.bind_some]
  rcases hdims : a.dimensions with _ | ⟨d, _ | ⟨d', ds⟩⟩
  · rwa [elements_eq_nil hdims] at hcells ⊢
  · rwa [length_elements_of_one hdims] at hcells
  · rw [if_neg (by simp)]
    rfl

/-! ### In JSON -/

/-- With at most one dimension the elements are the members. -/
theorem json_of_flat (h : a.dimensions.length ≤ 1) :
    a.json = .array (a.elements.map elementJson) := by
  unfold json
  rcases hdims : a.dimensions with _ | ⟨d, _ | ⟨d', ds⟩⟩
  · rw [if_pos rfl, elements_eq_nil hdims]
    rfl
  · have hlength := length_elements_of_one hdims
    rw [if_neg (List.cons_ne_nil _ _), List.map_singleton, nested, ← hlength]
    congr 1
    refine List.ext_getElem (by simp) fun i hi _ => ?_
    rw [List.length_map, List.length_range] at hi
    simp [nested, hi]
  · rw [hdims, List.length_cons, List.length_cons] at h
    omega

/-- An element as it is read. -/
def readElement? (t : ServerType) : Option Bytes → Option Json
  | none => some .null
  | some b => (decode? t b).map Value.normalize

theorem mapM_readElement?_cells (a : ArrayValue t) :
    a.cells.mapM (readElement? t) = some (a.elements.map elementJson) := by
  unfold cells
  induction a.elements with
  | nil => rfl
  | cons x xs ih =>
      rw [List.map_cons, List.mapM_cons, ih]
      cases x with
      | none => rfl
      | some x =>
          simp only [Option.map_some, readElement?, decode?_element]
          rfl

/-- **Arrays are read** as nested JSON if they have at most one dimension, and refused otherwise. -/
theorem decode?_bytes_iff (a : ArrayValue t) :
    (decode? (.array t) a.bytes = some (.json a.json) ↔ a.dimensions.length ≤ 1)
      ∧ (decode? (.array t) a.bytes = none ↔ 1 < a.dimensions.length) := by
  have hread : decode? (.array t) a.bytes
      = if a.dimensions.length ≤ 1 then some (.json (.array (a.elements.map elementJson)))
        else none := by
    show ((arrayElements? a.bytes).bind fun cells =>
      (cells.mapM (readElement? t)).map fun js => Value.json (.array js)) = _
    rw [arrayElements?_bytes]
    split
    · rw [Option.bind_some, mapM_readElement?_cells]
      rfl
    · rfl
  by_cases hflat : a.dimensions.length ≤ 1
  · rw [hread, if_pos hflat, ← json_of_flat hflat]
    exact ⟨iff_of_true rfl hflat, iff_of_false nofun (by omega)⟩
  · rw [hread, if_neg hflat]
    exact ⟨iff_of_false nofun hflat, iff_of_true rfl (by omega)⟩

/-- Four integers in two rows are refused. -/
theorem two_rows_refused :
    ∃ a : ArrayValue .int4, a.dimensions.map (·.length) = [2, 2]
      ∧ a.json.compact = "[[1,2],[3,4]]" ∧ decode? (.array .int4) a.bytes = none := by
  let two : Dimension := ⟨2, 1, by decide, by decide⟩
  let cell (n : Int) (fits : FitsBytes 4 n) : Option (Element .int4) := some (.int4 n fits)
  refine ⟨⟨[two, two], false, 23,
    [cell 1 (by decide), cell 2 (by decide), cell 3 (by decide), cell 4 (by decide)],
    by decide, by decide, by decide⟩, rfl, ?_, ?_⟩
  · decide +kernel
  · decide +kernel

end ArrayValue

end SqlSession.Wire
