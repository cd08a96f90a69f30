/-
Both layouts of a JSON value are texts of one document.

`document` is the tree of a value: its numbers as the literals they are written with, its texts
as the pieces they are written with.  A document has words of its own, `Document.tokens`, and
these complete it again whatever is open around it, which is `ofTokensFrom?_tokens`.  Each layout
is cut into exactly these words: the compact one has nothing between them, and the indented one
has blanks.  So `Document.parse?_compact` and `Document.parse?_indented` give the same tree, and
a reader of either text reads the same thing.
-/
import SqlSession.Proofs.Json.Words

namespace SqlSession.Json

/-! ### The tree of a value -/

mutual

/-- The tree of a value, with numbers and texts as they are written. -/
def document : Json → Document
  | .null => .null
  | .bool b => .bool b
  | .number n => .number n.literal
  | .text s => .text (pieces s)
  | .array elements => .array (elementDocuments elements)
  | .object members => .object (memberDocuments members)

def elementDocuments : List Json → List Document
  | [] => []
  | j :: rest => document j :: elementDocuments rest

def memberDocuments : List (String × Json) → List (List Piece × Document)
  | [] => []
  | (k, j) :: rest => (pieces k, document j) :: memberDocuments rest

end

theorem elementDocuments_eq_map (elements : List Json) :
    elementDocuments elements = elements.map document := by
  induction elements with
  | nil => rfl
  | cons j rest ih => rw [elementDocuments, ih, List.map_cons]

theorem memberDocuments_eq_map (members : List (String × Json)) :
    memberDocuments members = members.map fun m => (pieces m.1, document m.2) := by
  induction members with
  | nil => rfl
  | cons m rest ih => rw [memberDocuments, ih, List.map_cons]

/-! ### The words of a document -/

namespace Document

mutual

/-- The words of a document. -/
def tokens : Document → List Token
  | .null => [.null]
  | .bool b => [.bool b]
  | .number n => [.number n]
  | .text ps => [.text ps]
  | .array elements => .beginArray :: (elementTokens elements ++ [.endArray])
  | .object members => .beginObject :: (memberTokens members ++ [.endObject])

def elementTokens : List Document → List Token
  | [] => []
  | [d] => tokens d
  | d :: rest => tokens d ++ .comma :: elementTokens rest

def memberTokens : List (List Piece × Document) → List Token
  | [] => []
  | [(k, d)] => .text k :: .colon :: tokens d
  | (k, d) :: rest => .text k :: .colon :: (tokens d ++ .comma :: memberTokens rest)

end

variable {stack : List Frame} {ts : List Token}

theorem ofTokensFrom?_of_step (next : Expecting) (stack' : List Frame) {state : Expecting}
    {t : Token} (h : step? state stack t = some (next, stack')) :
    ofTokensFrom? state stack (t :: ts) = ofTokensFrom? next stack' ts := by
  show (step? state stack t).bind _ = _
  rw [h]
  rfl

/-- The first element of an array is read like any other value. -/
theorem ofTokensFrom?_firstElement (d : Document) (stack : List Frame) (ts : List Token) :
    ofTokensFrom? .firstElement stack (d.tokens ++ ts) =
      ofTokensFrom? .value (.array [] :: stack) (d.tokens ++ ts) := by
  cases d <;> rw [tokens] <;> rfl

theorem exists_elementTokens (d : Document) (rest : List Document) :
    ∃ more, elementTokens (d :: rest) = d.tokens ++ more := by
  rcases rest with _ | ⟨d', rest⟩
  · exact ⟨[], by rw [elementTokens, List.append_nil]⟩
  · exact ⟨.comma :: elementTokens (d' :: rest), by rw [elementTokens]; exact nofun⟩

theorem exists_memberTokens (k : List Piece) (d : Document)
    (rest : List (List Piece × Document)) :
    ∃ more, memberTokens ((k, d) :: rest) = .text k :: more := by
  rcases rest with _ | ⟨m, rest⟩
  · exact ⟨.colon :: d.tokens, by rw [memberTokens]⟩
  · exact ⟨.colon :: (d.tokens ++ .comma :: memberTokens (m :: rest)), by
      rw [memberTokens]; exact nofun⟩

mutual

/-- The words of a document complete it, whatever is open around it. -/
theorem ofTokensFrom?_tokens : (d : Document) → (stack : List Frame) → (ts : List Token) →
    ofTokensFrom? .value stack (d.tokens ++ ts) = ofTokensFrom? (.separator d) stack ts
  | .null, stack, ts => by rw [tokens]; rfl
  | .bool b, stack, ts => by rw [tokens]; rfl
  | .number n, stack, ts => by rw [tokens]; rfl
  | .text ps, stack, ts => by rw [tokens]; rfl
  | .array [], stack, ts => by rw [tokens, elementTokens]; rfl
  | .array (d :: rest), stack, ts => by
      have helements := ofTokensFrom?_elements (d :: rest) nofun [] stack ts
      obtain ⟨more, hmore⟩ := exists_elementTokens d rest
      rw [hmore, List.append_assoc] at helements
      rw [tokens, List.cons_append, List.append_assoc,
        ofTokensFrom?_of_step .firstElement stack rfl, hmore,
        List.append_assoc, ofTokensFrom?_firstElement]
      exact helements
  | .object [], stack, ts => by rw [tokens, memberTokens]; rfl
  | .object ((k, d) :: rest), stack, ts => by
      have hmembers := ofTokensFrom?_members ((k, d) :: rest) nofun [] stack ts
      obtain ⟨more, hmore⟩ := exists_memberTokens k d rest
      rw [hmore, List.cons_append,
        ofTokensFrom?_of_step (.colon [] k) stack rfl] at hmembers
      rw [tokens, List.cons_append, List.append_assoc,
        ofTokensFrom?_of_step (.firstKey []) stack rfl, hmore,
        List.cons_append, ofTokensFrom?_of_step (.colon [] k) stack rfl]
      exact hmembers

theorem ofTokensFrom?_elements : (elements : List Document) → elements ≠ [] →
    (done : List Document) → (stack : List Frame) → (ts : List Token) →
      ofTokensFrom? .value (.array done :: stack) (elementTokens elements ++ .endArray :: ts) =
        ofTokensFrom? (.separator (.array (done.reverse ++ elements))) stack ts
  | [], hne, _, _, _ => absurd rfl hne
  | [d], _, done, stack, ts => by
      rw [elementTokens, ofTokensFrom?_tokens d,
        ofTokensFrom?_of_step (.separator (.array (d :: done).reverse)) stack rfl,
        List.reverse_cons]
  | d :: d' :: rest, _, done, stack, ts => by
      rw [elementTokens, List.append_assoc, ofTokensFrom?_tokens d, List.cons_append,
        ofTokensFrom?_of_step .value (.array (d :: done) :: stack) rfl,
        ofTokensFrom?_elements (d' :: rest) nofun, List.reverse_cons, List.append_assoc]
      · rfl
      · exact nofun

theorem ofTokensFrom?_members : (members : List (List Piece × Document)) → members ≠ [] →
    (done : List (List Piece × Document)) → (stack : List Frame) → (ts : List Token) →
      ofTokensFrom? (.key done) stack (memberTokens members ++ .endObject :: ts) =
        ofTokensFrom? (.separator (.object (done.reverse ++ members))) stack ts
  | [], hne, _, _, _ => absurd rfl hne
  | [(k, d)], _, done, stack, ts => by
      rw [memberTokens, List.cons_append, List.cons_append,
        ofTokensFrom?_of_step (.colon done k) stack rfl,
        ofTokensFrom?_of_step .value (.object done k :: stack) rfl,
        ofTokensFrom?_tokens d,
        ofTokensFrom?_of_step (.separator (.object ((k, d) :: done).reverse)) stack rfl,
        List.reverse_cons]
  | (k, d) :: m :: rest, _, done, stack, ts => by
      rw [memberTokens, List.cons_append, List.cons_append, List.append_assoc,
        ofTokensFrom?_of_step (.colon done k) stack rfl,
        ofTokensFrom?_of_step .value (.object done k :: stack) rfl,
        ofTokensFrom?_tokens d, List.cons_append,
        ofTokensFrom?_of_step (.key ((k, d) :: done)) stack rfl,
        ofTokensFrom?_members (m :: rest) nofun, List.reverse_cons, List.append_assoc]
      · rfl
      · exact nofun

end

/-- A text that is cut into the words of a document is a text of the document. -/
theorem parse?_of_cutApart {x : String} {d : Document} (h : CutApart x.toList d.tokens) :
    Document.parse? x = some d := by
  have hread := ofTokensFrom?_tokens d [] []
  rw [List.append_nil] at hread
  rw [Document.parse?, h.tokens?, Option.bind_some, hread]
  rfl

end Document

/-! ### What both layouts are made of -/

variable {a b : List Char} {s t : List Token}

theorem parted_cons {c : Char} {rest : List Char} (hnumber : isNumberChar c = false)
    (hlower : c.isLower = false) : Parted (c :: rest) := by
  intro d hd
  cases hd
  exact ⟨hnumber, hlower⟩

/-- A list between brackets. -/
theorem CutApart.bracketed {opening closing : Char} {o e : Token}
    (hopening : begin? opening = some ([o], .between))
    (hclosing : begin? closing = some ([e], .between)) (hparted : Parted [closing])
    (h : CutApart a s) : CutApart (opening :: (a ++ [closing])) (o :: (s ++ [e])) :=
  ((cut_mark hopening).append (h.append (cut_mark hclosing) nofun hparted)).apart

/-- Two lists with a comma between. -/
theorem CutApart.comma (ha : CutApart a s) (hb : CutApart b t) :
    CutApart (a ++ ',' :: b) (s ++ .comma :: t) := by
  have hcut := (ha.append (cut_mark (c := ',') rfl) nofun (parted_cons rfl rfl)).appendApart hb
  rwa [List.append_assoc, List.append_assoc] at hcut

theorem isSpace_of_mem_newLine {depth : Nat} {c : Char} (h : c ∈ newLine depth) :
    isSpace c = true := by
  rcases List.mem_cons.mp h with rfl | h
  · rfl
  · rw [(List.mem_replicate.mp h).2]
    rfl

theorem cut_newLine (depth : Nat) : Cut (newLine depth) [] :=
  cut_blanks fun _ => isSpace_of_mem_newLine

/-! ### The compact layout -/

mutual

theorem cutApart_compact : (j : Json) → CutApart j.compactChars j.document.tokens
  | .null => by
      rw [compactChars, document, Document.tokens]
      exact cutApart_null
  | .bool b => by
      rw [compactChars, document, Document.tokens]
      exact cutApart_bool b
  | .number n => by
      rw [compactChars, document, Document.tokens]
      exact cutApart_number n
  | .text x => by
      rw [compactChars, document, Document.tokens]
      exact (cut_quoted x).apart
  | .array elements => by
      rw [compactChars, document, Document.tokens]
      exact (cutApart_compactElements elements).bracketed rfl rfl (parted_cons rfl rfl)
  | .object members => by
      rw [compactChars, document, Document.tokens]
      exact (cutApart_compactMembers members).bracketed rfl rfl (parted_cons rfl rfl)

theorem cutApart_compactElements : (elements : List Json) →
    CutApart (compactElements elements) (Document.elementTokens (elementDocuments elements))
  | [] => by
      rw [compactElements, elementDocuments, Document.elementTokens]
      exact Cut.nil.apart
  | [j] => by
      rw [compactElements, elementDocuments, elementDocuments, Document.elementTokens]
      exact cutApart_compact j
  | j :: j' :: rest => by
      rw [compactElements, elementDocuments, elementDocuments, Document.elementTokens]
      · exact (cutApart_compact j).comma (cutApart_compactElements (j' :: rest))
      · exact nofun
      · exact nofun

theorem cutApart_compactMembers : (members : List (String × Json)) →
    CutApart (compactMembers members) (Document.memberTokens (memberDocuments members))
  | [] => by
      rw [compactMembers, memberDocuments, Document.memberTokens]
      exact Cut.nil.apart
  | [(k, j)] => by
      rw [compactMembers, memberDocuments, memberDocuments, Document.memberTokens]
      exact (cut_quoted k).appendApart
        ((cut_mark (c := ':') rfl).appendApart (cutApart_compact j))
  | (k, j) :: m :: rest => by
      rw [compactMembers, memberDocuments, memberDocuments, Document.memberTokens]
      · exact (cut_quoted k).appendApart ((cut_mark (c := ':') rfl).appendApart
          ((cutApart_compact j).comma (cutApart_compactMembers (m :: rest))))
      · exact nofun
      · exact nofun

end

/-! ### The indented layout -/

mutual

theorem cutApart_indented : (j : Json) → (depth : Nat) →
    CutApart (j.indentedChars depth) j.document.tokens
  | .null, depth => by
      rw [indentedChars, document, Document.tokens]
      exact cutApart_null
  | .bool b, depth => by
      rw [indentedChars, document, Document.tokens]
      exact cutApart_bool b
  | .number n, depth => by
      rw [indentedChars, document, Document.tokens]
      exact cutApart_number n
  | .text x, depth => by
      rw [indentedChars, document, Document.tokens]
      exact (cut_quoted x).apart
  | .array [], depth => by
      rw [indentedChars, document, Document.tokens]
      exact Cut.nil.apart.bracketed rfl rfl (parted_cons rfl rfl)
  | .array (j :: rest), depth => by
      have hcut := (cutApart_indentedElements (j :: rest) (depth + 1)).append
        (cut_newLine depth) nofun (parted_cons rfl rfl)
      rw [List.append_nil] at hcut
      rw [indentedChars, document, Document.tokens]
      exact hcut.apart.bracketed rfl rfl (parted_cons rfl rfl)
  | .object [], depth => by
      rw [indentedChars, document, Document.tokens]
      exact Cut.nil.apart.bracketed rfl rfl (parted_cons rfl rfl)
  | .object (m :: rest), depth => by
      have hcut := (cutApart_indentedMembers (m :: rest) (depth + 1)).append
        (cut_newLine depth) nofun (parted_cons rfl rfl)
      rw [List.append_nil] at hcut
      rw [indentedChars, document, Document.tokens]
      exact hcut.apart.bracketed rfl rfl (parted_cons rfl rfl)

theorem cutApart_indentedElements : (elements : List Json) → (depth : Nat) →
    CutApart (indentedElements depth elements)
      (Document.elementTokens (elementDocuments elements))
  | [], depth => by
      rw [indentedElements, elementDocuments, Document.elementTokens]
      exact Cut.nil.apart
  | [j], depth => by
      rw [indentedElements, elementDocuments, elementDocuments, Document.elementTokens]
      exact (cut_newLine depth).appendApart (cutApart_indented j depth)
  | j :: j' :: rest, depth => by
      rw [indentedElements, elementDocuments, elementDocuments, Document.elementTokens]
      · exact ((cut_newLine depth).appendApart (cutApart_indented j depth)).comma
          (cutApart_indentedElements (j' :: rest) depth)
      · exact nofun
      · exact nofun

theorem cutApart_indentedMembers : (members : List (String × Json)) → (depth : Nat) →
    CutApart (indentedMembers depth members)
      (Document.memberTokens (memberDocuments members))
  | [], depth => by
      rw [indentedMembers, memberDocuments, Document.memberTokens]
      exact Cut.nil.apart
  | [(k, j)], depth => by
      rw [indentedMembers, memberDocuments, memberDocuments, Document.memberTokens]
      exact ((cut_newLine depth).append (cut_quoted k)).appendApart
        (((cut_mark (c := ':') rfl).append (cut_blank rfl)).appendApart
          (cutApart_indented j depth))
  | (k, j) :: m :: rest, depth => by
      rw [indentedMembers, memberDocuments, memberDocuments, Document.memberTokens]
      · exact ((cut_newLine depth).append (cut_quoted k)).appendApart
          (((cut_mark (c := ':') rfl).append (cut_blank rfl)).appendApart
            ((cutApart_indented j depth).comma (cutApart_indentedMembers (m :: rest) depth)))
      · exact nofun
      · exact nofun

end

/-! ### Reading a layout -/

/-- The compact text of a value is read as its tree. -/
theorem Document.parse?_compact (j : Json) : Document.parse? j.compact = some j.document := by
  apply Document.parse?_of_cutApart
  rw [compact, String.toList_ofList]
  exact cutApart_compact j

/-- The indented text of a value is read as the same tree. -/
theorem Document.parse?_indented (j : Json) : Document.parse? j.indented = some j.document := by
  apply Document.parse?_of_cutApart
  rw [indented, String.toList_ofList]
  exact cutApart_indented j 0

end SqlSession.Json
