/-
Reading a value back from its own text.

The text of a value has the value's own tree, so what is left to ask is which trees are read as the
value they were made from.  Two things stand in the way.  A value may be nested deeper than the
reader goes, and a double may be read as another one, or be refused as too large, because the
reader does not round a number's digits only once.  `isSome_parse?_compact` says exactly which
texts are read at all, and `parse?_compact_iff` which values come back.

A value that was itself read is never nested too deep, and its names are distinct
(`shape_of_ofDocument?`), so for such a value only its numbers decide.
-/
import SqlSession.Proofs.Json.Layouts

namespace SqlSession

/-! ### Numbers -/

/-- The number is read back from its own text. -/
def JsonNumber.ReadsBack (n : JsonNumber) : Prop :=
  JsonNumber.parse? n.text = some n

theorem JsonNumber.parse?_text_eq (n : JsonNumber) :
    JsonNumber.parse? n.text = n.literal.toNumber? := by
  unfold JsonNumber.parse?
  rw [n.parse?_text, Option.bind_some]

/-! ### Members -/

namespace Members

variable {members : List (String × Json)} {name : String} {value : Json}

theorem mem_insert {m : String × Json} (h : m ∈ insert members name value) :
    m ∈ members ∨ m = (name, value) := by
  induction members with
  | nil => exact .inr (List.mem_singleton.mp h)
  | cons first rest ih =>
      unfold insert at h
      split at h
      next hname =>
        rcases List.mem_cons.mp h with rfl | hrest
        · exact .inr (by rw [← hname])
        · exact .inl (List.mem_cons_of_mem _ hrest)
      next =>
        rcases List.mem_cons.mp h with rfl | hrest
        · exact .inl (List.mem_cons_self ..)
        · exact (ih hrest).imp (List.mem_cons_of_mem _) id

theorem names_insert_of_mem (h : name ∈ members.map Prod.fst) :
    (insert members name value).map Prod.fst = members.map Prod.fst := by
  induction members with
  | nil => cases h
  | cons first rest ih =>
      unfold insert
      split
      · rfl
      next hne =>
        rcases List.mem_cons.mp h with hname | hrest
        · exact absurd hname.symm hne
        · rw [List.map_cons, ih hrest, List.map_cons]

theorem insert_of_notMem (h : name ∉ members.map Prod.fst) :
    insert members name value = members ++ [(name, value)] := by
  induction members with
  | nil => rfl
  | cons first rest ih =>
      rw [List.map_cons, List.mem_cons, not_or] at h
      unfold insert
      rw [if_neg fun hname => h.1 hname.symm, ih h.2, List.cons_append]

theorem nodup_insert (h : (members.map Prod.fst).Nodup) :
    ((insert members name value).map Prod.fst).Nodup := by
  by_cases hmem : name ∈ members.map Prod.fst
  · rwa [names_insert_of_mem hmem]
  · rw [insert_of_notMem hmem, List.map_append, List.nodup_append]
    refine ⟨h, List.pairwise_singleton _ _, fun a ha b hb heq => hmem ?_⟩
    have hb' : b = name := List.mem_singleton.mp hb
    rw [← hb', ← heq]
    exact ha

/-- Putting members in one after the other keeps the names distinct and adds no others. -/
theorem ofList_spec (entries : List (String × Json)) :
    ((ofList entries).map Prod.fst).Nodup ∧ ∀ m ∈ ofList entries, m ∈ entries := by
  have hfold : ∀ members : List (String × Json), (members.map Prod.fst).Nodup →
      ((entries.foldl (fun members e => insert members e.1 e.2) members).map Prod.fst).Nodup ∧
        ∀ m ∈ entries.foldl (fun members e => insert members e.1 e.2) members,
          m ∈ members ∨ m ∈ entries := by
    induction entries with
    | nil => exact fun members h => ⟨h, fun m hm => .inl hm⟩
    | cons e entries ih =>
        intro members h
        obtain ⟨hnodup, hmem⟩ := ih (insert members e.1 e.2) (nodup_insert h)
        refine ⟨hnodup, fun m hm => ?_⟩
        rcases hmem m hm with hin | hin
        · exact (mem_insert hin).imp id fun heq => by rw [heq]; exact List.mem_cons_self ..
        · exact .inr (List.mem_cons_of_mem _ hin)
  obtain ⟨hnodup, hmem⟩ := hfold [] List.nodup_nil
  exact ⟨hnodup, fun m hm => (hmem m hm).resolve_left nofun⟩

/-- Members whose names are distinct already stay as they are. -/
theorem ofList_of_nodup {entries : List (String × Json)} (h : (entries.map Prod.fst).Nodup) :
    ofList entries = entries := by
  have hfold : ∀ members : List (String × Json), ((members ++ entries).map Prod.fst).Nodup →
      entries.foldl (fun members e => insert members e.1 e.2) members = members ++ entries := by
    induction entries with
    | nil => exact fun members _ => (List.append_nil _).symm
    | cons e entries ih =>
        intro members hnodup
        have hnew : e.1 ∉ members.map Prod.fst := by
          intro hmem
          rw [List.map_append, List.map_cons, List.nodup_append] at hnodup
          exact hnodup.2.2 _ hmem _ (List.mem_cons_self ..) rfl
        rw [List.foldl_cons, insert_of_notMem hnew, ih (by
          rw [List.map_cons, List.nodup_cons] at h
          exact h.2) _ (by rwa [List.append_assoc]), List.append_assoc]
        rfl
  exact hfold [] h

end Members

namespace Json

/-! ### Shapes -/

mutual

/-- How many arrays and objects stand one in the other. -/
def depth : Json → Nat
  | .array elements => elementsDepth elements + 1
  | .object members => membersDepth members + 1
  | _ => 0

def elementsDepth : List Json → Nat
  | [] => 0
  | e :: rest => max e.depth (elementsDepth rest)

def membersDepth : List (String × Json) → Nat
  | [] => 0
  | (_, v) :: rest => max v.depth (membersDepth rest)

end

mutual

/-- The numbers in a value, however deep. -/
def numbers : Json → List JsonNumber
  | .number n => [n]
  | .array elements => elementsNumbers elements
  | .object members => membersNumbers members
  | _ => []

def elementsNumbers : List Json → List JsonNumber
  | [] => []
  | e :: rest => e.numbers ++ elementsNumbers rest

def membersNumbers : List (String × Json) → List JsonNumber
  | [] => []
  | (_, v) :: rest => v.numbers ++ membersNumbers rest

end

mutual

/-- The names in every object are distinct. -/
def DistinctNames : Json → Prop
  | .array elements => ElementsDistinct elements
  | .object members => (members.map Prod.fst).Nodup ∧ MembersDistinct members
  | _ => True

def ElementsDistinct : List Json → Prop
  | [] => True
  | e :: rest => e.DistinctNames ∧ ElementsDistinct rest

def MembersDistinct : List (String × Json) → Prop
  | [] => True
  | (_, v) :: rest => v.DistinctNames ∧ MembersDistinct rest

end

/-! ### Reading the tree of a value -/

theorem elementsOf?_cons (k : Nat) (d : Document) (rest : List Document) :
    elementsOf? k (d :: rest) =
      (ofDocument? k d).bind fun j => (elementsOf? k rest).map (j :: ·) := by
  rw [elementsOf?]
  cases ofDocument? k d <;> cases elementsOf? k rest <;> rfl

theorem membersOf?_cons (k : Nat) (name : String) (d : Document)
    (rest : List (List Piece × Document)) :
    membersOf? k ((pieces name, d) :: rest) =
      (ofDocument? k d).bind fun j => (membersOf? k rest).map ((name, j) :: ·) := by
  rw [membersOf?, textOfPieces?_pieces]
  cases ofDocument? k d <;> cases membersOf? k rest <;> rfl

theorem isSome_bind_map {α β γ : Type} (a : Option α) (b : Option β) (f : α → β → γ) :
    (a.bind fun x => b.map (f x)).isSome ↔ a.isSome ∧ b.isSome := by
  cases a <;> cases b <;> simp

mutual

/-- The tree of a value is read where it is not too deep and its numbers are. -/
theorem isSome_ofDocument? : (k : Nat) → (j : Json) →
    ((ofDocument? k j.document).isSome ↔
      j.depth ≤ k ∧ ∀ n ∈ j.numbers, (JsonNumber.parse? n.text).isSome)
  | k, .null => by simp [document, ofDocument?, depth, numbers]
  | k, .bool b => by simp [document, ofDocument?, depth, numbers]
  | k, .number n => by
      rw [document, ofDocument?, Option.isSome_map, ← n.parse?_text_eq]
      simp [depth, numbers]
  | k, .text s => by
      rw [document, ofDocument?, textOfPieces?_pieces]
      simp [depth, numbers]
  | 0, .array elements => by simp [document, ofDocument?, depth]
  | k + 1, .array elements => by
      rw [document, ofDocument?, Option.isSome_map, isSome_elementsOf? k elements, depth, numbers,
        Nat.add_le_add_iff_right]
  | 0, .object members => by simp [document, ofDocument?, depth]
  | k + 1, .object members => by
      rw [document, ofDocument?, Option.isSome_map, isSome_membersOf? k members, depth, numbers,
        Nat.add_le_add_iff_right]

theorem isSome_elementsOf? : (k : Nat) → (elements : List Json) →
    ((elementsOf? k (elementDocuments elements)).isSome ↔
      elementsDepth elements ≤ k ∧
        ∀ n ∈ elementsNumbers elements, (JsonNumber.parse? n.text).isSome)
  | k, [] => by simp [elementDocuments, elementsOf?, elementsDepth, elementsNumbers]
  | k, e :: rest => by
      rw [elementDocuments, elementsOf?_cons, isSome_bind_map, isSome_ofDocument? k e,
        isSome_elementsOf? k rest, elementsDepth, elementsNumbers, Nat.max_le,
        List.forall_mem_append, and_and_and_comm]

theorem isSome_membersOf? : (k : Nat) → (members : List (String × Json)) →
    ((membersOf? k (memberDocuments members)).isSome ↔
      membersDepth members ≤ k ∧ ∀ n ∈ membersNumbers members, (JsonNumber.parse? n.text).isSome)
  | k, [] => by simp [memberDocuments, membersOf?, membersDepth, membersNumbers]
  | k, (name, v) :: rest => by
      rw [memberDocuments, membersOf?_cons, isSome_bind_map, isSome_ofDocument? k v,
        isSome_membersOf? k rest, membersDepth, membersNumbers, Nat.max_le,
        List.forall_mem_append, and_and_and_comm]

end

/-- **A value's text is read** where the value is not too deep and each number is in range. -/
theorem isSome_parse?_compact (j : Json) :
    (Json.parse? j.compact).isSome ↔
      j.depth ≤ 127 ∧ ∀ n ∈ j.numbers, (JsonNumber.parse? n.text).isSome := by
  unfold Json.parse?
  rw [Document.parse?_compact, Option.bind_some, isSome_ofDocument?]

theorem bind_map_eq_some {α β γ : Type} {a : Option α} {b : Option β} {f : α → β → γ} {x : α}
    {y : β} (hf : ∀ x' y', f x' y' = f x y → x' = x ∧ y' = y) :
    (a.bind fun x => b.map (f x)) = some (f x y) ↔ a = some x ∧ b = some y := by
  cases a with
  | none => simp
  | some x' =>
      cases b with
      | none => simp
      | some y' =>
          simp only [Option.bind_some, Option.map_some, Option.some.injEq]
          exact ⟨hf x' y', fun h => by rw [h.1, h.2]⟩

/-- Reading the tree of an object keeps its names. -/
theorem names_membersOf? {k : Nat} {members read : List (String × Json)}
    (h : membersOf? k (memberDocuments members) = some read) :
    read.map Prod.fst = members.map Prod.fst := by
  induction members generalizing read with
  | nil =>
      rw [memberDocuments, membersOf?] at h
      cases h
      rfl
  | cons m rest ih =>
      rw [memberDocuments, membersOf?_cons] at h
      obtain ⟨j, -, hmap⟩ := Option.bind_eq_some_iff.mp h
      obtain ⟨later, hlater, rfl⟩ := Option.map_eq_some_iff.mp hmap
      rw [List.map_cons, List.map_cons, ih hlater]

mutual

/-- The tree of a value is read as the value where each number is read as itself. -/
theorem ofDocument?_document : (k : Nat) → (j : Json) → j.depth ≤ k → j.DistinctNames →
    (ofDocument? k j.document = some j ↔ ∀ n ∈ j.numbers, n.ReadsBack)
  | k, .null, _, _ => by simp [document, ofDocument?, numbers]
  | k, .bool b, _, _ => by simp [document, ofDocument?, numbers]
  | k, .number n, _, _ => by
      rw [document, ofDocument?, ← n.parse?_text_eq]
      simp [numbers, JsonNumber.ReadsBack]
  | k, .text s, _, _ => by
      rw [document, ofDocument?, textOfPieces?_pieces]
      simp [numbers]
  | 0, .array elements, hdepth, _ => absurd hdepth (by simp [depth])
  | k + 1, .array elements, hdepth, hnames => by
      rw [depth, Nat.add_le_add_iff_right] at hdepth
      rw [DistinctNames] at hnames
      rw [document, ofDocument?, numbers, ← elementsOf?_documents k elements hdepth hnames]
      simp
  | 0, .object members, hdepth, _ => absurd hdepth (by simp [depth])
  | k + 1, .object members, hdepth, hnames => by
      rw [depth, Nat.add_le_add_iff_right] at hdepth
      rw [DistinctNames] at hnames
      have hmembers := membersOf?_documents k members hdepth hnames.2
      rw [document, ofDocument?, numbers, ← hmembers, Option.map_eq_some_iff]
      refine ⟨fun ⟨read, hread, heq⟩ => ?_, fun hread => ⟨members, hread, ?_⟩⟩
      · have hnodup : (read.map Prod.fst).Nodup := by
          rw [names_membersOf? hread]
          exact hnames.1
        rw [Members.ofList_of_nodup hnodup] at heq
        rw [hread, Json.object.inj heq]
      · rw [Members.ofList_of_nodup hnames.1]

theorem elementsOf?_documents : (k : Nat) → (elements : List Json) →
    elementsDepth elements ≤ k → ElementsDistinct elements →
      (elementsOf? k (elementDocuments elements) = some elements ↔
        ∀ n ∈ elementsNumbers elements, n.ReadsBack)
  | k, [], _, _ => by simp [elementDocuments, elementsOf?, elementsNumbers]
  | k, e :: rest, hdepth, hnames => by
      rw [elementsDepth, Nat.max_le] at hdepth
      rw [ElementsDistinct] at hnames
      rw [elementDocuments, elementsOf?_cons, elementsNumbers, List.forall_mem_append,
        ← ofDocument?_document k e hdepth.1 hnames.1,
        ← elementsOf?_documents k rest hdepth.2 hnames.2]
      exact bind_map_eq_some fun _ _ heq => List.cons.inj heq

theorem membersOf?_documents : (k : Nat) → (members : List (String × Json)) →
    membersDepth members ≤ k → MembersDistinct members →
      (membersOf? k (memberDocuments members) = some members ↔
        ∀ n ∈ membersNumbers members, n.ReadsBack)
  | k, [], _, _ => by simp [memberDocuments, membersOf?, membersNumbers]
  | k, (name, v) :: rest, hdepth, hnames => by
      rw [membersDepth, Nat.max_le] at hdepth
      rw [MembersDistinct] at hnames
      rw [memberDocuments, membersOf?_cons, membersNumbers, List.forall_mem_append,
        ← ofDocument?_document k v hdepth.1 hnames.1,
        ← membersOf?_documents k rest hdepth.2 hnames.2]
      exact bind_map_eq_some fun _ _ heq =>
        ⟨(Prod.mk.inj (List.cons.inj heq).1).2, (List.cons.inj heq).2⟩

end

/-! ### Values that were read -/

theorem membersDepth_le {k : Nat} {members : List (String × Json)} :
    membersDepth members ≤ k ↔ ∀ m ∈ members, m.2.depth ≤ k := by
  induction members with
  | nil => simp [membersDepth]
  | cons m rest ih => rw [membersDepth, Nat.max_le, ih, List.forall_mem_cons]

theorem membersDistinct_iff {members : List (String × Json)} :
    MembersDistinct members ↔ ∀ m ∈ members, m.2.DistinctNames := by
  induction members with
  | nil => simp [MembersDistinct]
  | cons m rest ih => rw [MembersDistinct, ih, List.forall_mem_cons]

mutual

/-- What was read is not too deep, and its names are distinct. -/
theorem shape_of_ofDocument? : (k : Nat) → (d : Document) → {j : Json} →
    ofDocument? k d = some j → j.depth ≤ k ∧ j.DistinctNames
  | k, .null, j, h => by
      rw [ofDocument?] at h
      cases h
      exact ⟨Nat.zero_le _, trivial⟩
  | k, .bool b, j, h => by
      rw [ofDocument?] at h
      cases h
      exact ⟨Nat.zero_le _, trivial⟩
  | k, .number n, j, h => by
      rw [ofDocument?] at h
      obtain ⟨n', -, rfl⟩ := Option.map_eq_some_iff.mp h
      exact ⟨Nat.zero_le _, trivial⟩
  | k, .text pieces, j, h => by
      rw [ofDocument?] at h
      obtain ⟨s, -, rfl⟩ := Option.map_eq_some_iff.mp h
      exact ⟨Nat.zero_le _, trivial⟩
  | 0, .array elements, j, h => by
      rw [ofDocument?] at h
      cases h
  | k + 1, .array elements, j, h => by
      rw [ofDocument?] at h
      obtain ⟨es, hes, rfl⟩ := Option.map_eq_some_iff.mp h
      have hshape := shape_of_elementsOf? k elements hes
      exact ⟨Nat.succ_le_succ hshape.1, hshape.2⟩
  | 0, .object members, j, h => by
      rw [ofDocument?] at h
      cases h
  | k + 1, .object members, j, h => by
      rw [ofDocument?] at h
      obtain ⟨ms, hms, rfl⟩ := Option.map_eq_some_iff.mp h
      have hshape := shape_of_membersOf? k members hms
      obtain ⟨hnodup, hmem⟩ := Members.ofList_spec ms
      exact ⟨Nat.succ_le_succ (membersDepth_le.mpr fun m hm => (hshape m (hmem m hm)).1),
        hnodup, membersDistinct_iff.mpr fun m hm => (hshape m (hmem m hm)).2⟩

theorem shape_of_elementsOf? : (k : Nat) → (elements : List Document) → {es : List Json} →
    elementsOf? k elements = some es → elementsDepth es ≤ k ∧ ElementsDistinct es
  | k, [], es, h => by
      rw [elementsOf?] at h
      cases h
      exact ⟨Nat.zero_le _, trivial⟩
  | k, d :: rest, es, h => by
      rw [elementsOf?_cons] at h
      obtain ⟨j, hj, hmap⟩ := Option.bind_eq_some_iff.mp h
      obtain ⟨js, hjs, rfl⟩ := Option.map_eq_some_iff.mp hmap
      have hfirst := shape_of_ofDocument? k d hj
      have hrest := shape_of_elementsOf? k rest hjs
      exact ⟨Nat.max_le.mpr ⟨hfirst.1, hrest.1⟩, hfirst.2, hrest.2⟩

theorem shape_of_membersOf? : (k : Nat) → (members : List (List Piece × Document)) →
    {ms : List (String × Json)} → membersOf? k members = some ms →
      ∀ m ∈ ms, m.2.depth ≤ k ∧ m.2.DistinctNames
  | k, [], ms, h => by
      rw [membersOf?] at h
      cases h
      exact nofun
  | k, (key, d) :: rest, ms, h => by
      rw [membersOf?] at h
      split at h
      next name j js hname hj hjs =>
        cases h
        intro m hm
        rcases List.mem_cons.mp hm with rfl | hm
        · exact shape_of_ofDocument? k d hj
        · exact shape_of_membersOf? k rest hjs m hm
      next => cases h

end

/-- **A value that was read** is read again from its own text just where all its numbers are. -/
theorem parse?_compact_iff {s : String} {j : Json} (h : Json.parse? s = some j) :
    Json.parse? j.compact = some j ↔ ∀ n ∈ j.numbers, n.ReadsBack := by
  obtain ⟨d, -, hd⟩ := Option.bind_eq_some_iff.mp h
  obtain ⟨hdepth, hnames⟩ := shape_of_ofDocument? 127 d hd
  unfold Json.parse?
  rw [Document.parse?_compact, Option.bind_some, ofDocument?_document 127 j hdepth hnames]

end Json

end SqlSession
