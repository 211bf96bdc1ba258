/-!
# Tokens of source text

Rust source is read as trees of tokens: words, single punctuation marks, literals, and groups that
a pair of delimiters encloses. A mark knows whether another mark follows it without a space, so that
operators of several marks can be told apart from marks that only happen to be neighbours.
-/

namespace CommandDispatch.Source

/-- The pairs of delimiters. -/
inductive Delimiter where
  | parenthesis
  | bracket
  | brace
deriving Repr, DecidableEq

/-- What a literal is. Of strings the value is kept; of the others only that they are numbers or
not, since a minus sign may stand before a number. -/
inductive Literal where
  | string (value : String)
  | number
  | other
deriving Repr, DecidableEq

/-- A token, or a group of tokens between delimiters. -/
inductive TokenTree where
  /-- A name or keyword; a raw name keeps its mark `r#`. -/
  | word (text : String)
  /-- A punctuation mark, and whether another one follows it at once. -/
  | mark (char : Char) (joint : Bool)
  /-- A literal and how it was written. -/
  | literal (kind : Literal) (text : String)
  | group (delimiter : Delimiter) (trees : List TokenTree)
deriving Repr

abbrev Tokens := List TokenTree

mutual

/-- The number of tokens in a tree, its delimiters among them. -/
def TokenTree.size : TokenTree → Nat
  | .group _ trees => Tokens.size trees + 2
  | _ => 1

def Tokens.size : List TokenTree → Nat
  | [] => 0
  | t :: rest => t.size + Tokens.size rest

end

def reservedWords : List String :=
  [ "_", "abstract", "as", "async", "await", "become", "box", "break", "const", "continue",
    "crate", "do", "dyn", "else", "enum", "extern", "false", "final", "fn", "for", "if", "impl",
    "in", "let", "loop", "macro", "match", "mod", "move", "mut", "override", "priv", "pub", "ref",
    "return", "Self", "self", "static", "struct", "super", "trait", "true", "try", "type",
    "typeof", "unsafe", "unsized", "use", "virtual", "where", "while", "yield" ]

end CommandDispatch.Source
