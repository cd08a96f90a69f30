/-
References to the environment.

Read from the left, a text is a literal up to its first `${`, the name up to the next `}`, and
so on with what follows.  `Template` is a text taken apart in this way, and every text is that of
exactly one template.  Its problems are in the order of the text: a reference to a variable that
is not set, and in the end an opening without `}`.

Expanding goes through a text once.  It writes literals and values as they are and stops at the
first problem.  Settings are expanded text by text, none of them left out.
-/
import Mathlib.Data.List.Infix
import Mathlib.Data.Option.Basic
import Mathlib.Logic.Function.Basic
import SqlSession.Config.File

namespace SqlSession

namespace Environment

/-! ### Texts taken apart -/

/-- Nothing in the text opens a reference. -/
def IsLiteral (text : List Char) : Prop :=
  ¬ ['$', '\x7b'] <:+: text

/-- A text as literals and references in turn. -/
inductive Template where
  /-- A literal up to the end. -/
  | literal (text : List Char) (plain : IsLiteral text)
  /-- A literal, and an opening that is never closed. -/
  | unclosed (text rest : List Char) (plain : IsLiteral text) (unended : '\x7d' ∉ rest)
  /-- A literal, the name of a variable, and what stands behind the reference. -/
  | reference (text name : List Char) (plain : IsLiteral text) (unended : '\x7d' ∉ name)
    (behind : Template)

/-- What a reference can come to grief at. -/
inductive Problem where
  /-- The variable of this name is not set. -/
  | unset (name : String)
  /-- A reference has no end. -/
  | unclosed
  deriving DecidableEq

/-- The error that reports a problem of a text. -/
def Problem.error (whole : String) : Problem → DbError
  | unset name => .config ("environment variable '" ++ name ++ "' is not set")
  | unclosed => .config ("unterminated $\x7b...\x7d in '" ++ whole ++ "'")

namespace Template

/-- The text that is taken apart. -/
def text : Template → List Char
  | literal l _ => l
  | unclosed l rest _ _ => l ++ '$' :: '\x7b' :: rest
  | reference l name _ _ behind => l ++ '$' :: '\x7b' :: (name ++ '\x7d' :: behind.text)

/-- What is wrong with the references, from left to right. -/
def problems (env : Environment) : Template → List Problem
  | literal _ _ => []
  | unclosed _ _ _ _ => [.unclosed]
  | reference _ name _ _ behind =>
    let name := String.ofList name
    if (env.lookup name).isSome then behind.problems env else .unset name :: behind.problems env

/-- The literals as they are, with the value of its variable for each reference. -/
def filled (env : Environment) : Template → List Char
  | literal l _ => l
  | unclosed l _ _ _ => l
  | reference l name _ _ behind =>
    l ++ ((env.lookup (String.ofList name)).getD "").toList ++ behind.filled env

end Template

variable {l l' rest rest' cs : List Char} {c : Char}

/-! ### Every text is that of one template -/

/-- No literal reaches into an opening behind it. -/
theorem IsLiteral.eq_nil (h : IsLiteral (l ++ cs))
    (heq : '$' :: '\x7b' :: rest = cs ++ '$' :: '\x7b' :: rest') : cs = [] := by
  match cs, heq with
  | [], _ => rfl
  | [_], heq => simp at heq
  | _ :: _ :: cs, heq =>
      simp only [List.cons_append, List.cons.injEq] at heq
      obtain ⟨rfl, rfl, -⟩ := heq
      exact absurd ⟨l, cs, by simp⟩ h

/-- The literal before the first opening is determined by the text. -/
theorem opening_inj (hl : IsLiteral l) (hl' : IsLiteral l')
    (heq : l ++ '$' :: '\x7b' :: rest = l' ++ '$' :: '\x7b' :: rest') : l = l' ∧ rest = rest' := by
  rcases List.append_eq_append_iff.mp heq with ⟨x, rfl, hx⟩ | ⟨x, rfl, hx⟩
  · obtain rfl := hl'.eq_nil hx
    exact ⟨(List.append_nil l).symm, by simpa using hx⟩
  · obtain rfl := hl.eq_nil hx
    exact ⟨List.append_nil l', by simpa using hx.symm⟩

/-- The name before the first end is determined by the text. -/
theorem ending_inj (hl : c ∉ l) (hl' : c ∉ l') (heq : l ++ c :: rest = l' ++ c :: rest') :
    l = l' ∧ rest = rest' := by
  rcases List.append_eq_append_iff.mp heq with ⟨x, rfl, hx⟩ | ⟨x, rfl, hx⟩
  · cases x with
    | nil => exact ⟨(List.append_nil l).symm, by simpa using hx⟩
    | cons d x => simp_all
  · cases x with
    | nil => exact ⟨List.append_nil l', by simpa using hx.symm⟩
    | cons d x => simp_all

theorem IsLiteral.ne_opening (h : IsLiteral l) : l ≠ l' ++ '$' :: '\x7b' :: rest := by
  rintro rfl
  exact h ⟨l', rest, by simp⟩

namespace Template

theorem text_injective : Function.Injective text := by
  intro t
  induction t with
  | literal l hl =>
      rintro (⟨l', hl'⟩ | ⟨l', rest, hl', hrest⟩ | ⟨l', name, hl', hname, behind⟩) h
      · cases h
        rfl
      · exact absurd h hl.ne_opening
      · exact absurd h hl.ne_opening
  | unclosed l rest hl hrest =>
      rintro (⟨l', hl'⟩ | ⟨l', rest', hl', hrest'⟩ | ⟨l', name, hl', hname, behind⟩) h
      · exact absurd h.symm hl'.ne_opening
      · obtain ⟨rfl, rfl⟩ := opening_inj hl hl' h
        rfl
      · obtain ⟨rfl, rfl⟩ := opening_inj hl hl' h
        simp at hrest
  | reference l name hl hname behind ih =>
      rintro (⟨l', hl'⟩ | ⟨l', rest', hl', hrest'⟩ | ⟨l', name', hl', hname', behind'⟩) h
      · exact absurd h.symm hl'.ne_opening
      · obtain ⟨rfl, rfl⟩ := opening_inj hl hl' h
        simp at hrest'
      · obtain ⟨rfl, hrest⟩ := opening_inj hl hl' h
        obtain ⟨rfl, hbehind⟩ := ending_inj hname hname' hrest
        obtain rfl := ih hbehind
        rfl

end Template

/-! ### Expanding a template -/

variable {env : Environment} {whole : String}

namespace Template

/-- The names that are referred to, in order. -/
def names : Template → List String
  | literal _ _ => []
  | unclosed _ _ _ _ => []
  | reference _ name _ _ behind => String.ofList name :: behind.names

/-- What expanding a text makes of it: its first problem, or else the text filled in. -/
def outcome (env : Environment) (whole : String) (t : Template) : Except DbError (List Char) :=
  match (t.problems env).head? with
  | some p => .error (p.error whole)
  | none => .ok (t.filled env)

end Template

/-! ### Several texts -/

variable {text : String} {texts : List String} {e : DbError} {α : Type}

end Environment

/-! ### Settings -/

namespace Config

variable {env : Environment} {c c' : Config} {e : DbError}

/-- The texts of the settings, in the order in which they are expanded. -/
def texts (c : Config) : List String :=
  [c.server, c.directory, c.database, c.user, c.password]
    ++ c.instanceName.toList ++ c.url.toList

/-- A reference in a value is not followed. -/
example : Environment.expand [("A", "$\x7bB\x7d"), ("B", "b")] "$\x7bA\x7d/$\x7bB\x7d" =
    .ok "$\x7bB\x7d/b" := by
  rfl

end Config

end SqlSession
