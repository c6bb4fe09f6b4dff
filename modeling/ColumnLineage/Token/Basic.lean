import ColumnLineage.Syntax.Ident
import ColumnLineage.Text.LowerCase
import ColumnLineage.Token.Keywords

/-!
# Tokens

A script is a list of tokens. Comments and white space are one kind of token, the blank, so that
a statement that holds nothing else can be told from one that says something.
-/

namespace ColumnLineage

/-- A word: a keyword or a name. -/
structure Word where
  value : String
  /-- Whether it was written in double quotes. -/
  quoted : Bool
  /-- The keyword that it spells, in capitals; empty for a quoted word. -/
  keyword : String
deriving DecidableEq, Repr

/-- Whether the word is a name and no keyword. -/
def Word.isName (w : Word) : Bool :=
  w.quoted || !keywords.contains w.keyword

def Word.render (w : Word) : String :=
  if w.quoted then "\"" ++ w.value ++ "\"" else w.value

def Word.ident (w : Word) : Ident :=
  ⟨w.value, if w.quoted then some .double else none⟩

/-- A lexical unit. -/
inductive Token
  | blank
  | word (w : Word)
  | number (spelling : String)
  | text (value : String)
  | marked (kind : TextKind) (value : String)
  | placeholder (name : String)
  /-- Punctuation, an operator, or a character that starts no other token. -/
  | symbol (spelling : String)
deriving DecidableEq, Repr

namespace Token

def render : Token → String
  | .blank => " "
  | .word w => w.render
  | .number s => s
  | .text s => "'" ++ s ++ "'"
  | .marked kind s => kind.enclose s
  | .placeholder name => name
  | .symbol s => s

/-- Whether the token is white space or a comment. -/
def isBlank : Token → Bool
  | .blank => true
  | _ => false

/-- Whether the token is the given punctuation. -/
def isSymbol (t : Token) (s : String) : Bool :=
  t = .symbol s

/-- Whether the token is the given keyword. -/
def isKeyword (t : Token) (k : String) : Bool :=
  match t with
  | .word w => w.keyword = k
  | _ => false

/-- The small letters of a word that is not quoted; the keyword that it spells stays. -/
def fold : Token → Token
  | .word w => if w.quoted then .word w else .word { w with value := Text.toLower w.value }
  | t => t

/-- Folding keeps blanks and everything that is not a word. -/
@[simp] theorem isBlank_fold (t : Token) : t.fold.isBlank = t.isBlank := by
  cases t with
  | word w => by_cases h : w.quoted <;> simp [fold, h, isBlank]
  | _ => rfl

/-- Folding keeps keywords. -/
@[simp] theorem isKeyword_fold (t : Token) (k : String) : t.fold.isKeyword k = t.isKeyword k := by
  cases t with
  | word w => by_cases h : w.quoted <;> simp [fold, h, isKeyword]
  | _ => rfl

end Token

end ColumnLineage
