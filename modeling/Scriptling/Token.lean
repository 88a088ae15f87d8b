-- Tokens: the words of the language. A token has a kind, the text it was read from,
-- the value it stands for if it is a literal, and the line on which it ends.

namespace Scriptling

/-! ## Keywords -/

/-- The reserved words. They are recognised in any letter case. -/
inductive Keyword
  | andWord | classWord | elseWord | falseWord | forWord | functionWord | ifWord | nilWord
  | orWord | printWord | returnWord | superWord | thisWord | trueWord | varWord | whileWord
  deriving DecidableEq, Repr

namespace Keyword

/-- Every keyword, in alphabetical order. -/
def all : List Keyword :=
  [andWord, classWord, elseWord, falseWord, forWord, functionWord, ifWord, nilWord,
   orWord, printWord, returnWord, superWord, thisWord, trueWord, varWord, whileWord]

/-- How a keyword is written in lower case. -/
def word : Keyword → String
  | andWord => "and"
  | classWord => "class"
  | elseWord => "else"
  | falseWord => "false"
  | forWord => "for"
  | functionWord => "function"
  | ifWord => "if"
  | nilWord => "nil"
  | orWord => "or"
  | printWord => "print"
  | returnWord => "return"
  | superWord => "super"
  | thisWord => "this"
  | trueWord => "true"
  | varWord => "var"
  | whileWord => "while"

/-- The name of the keyword's token kind. -/
def kindName : Keyword → String
  | andWord => "AND"
  | classWord => "CLASS"
  | elseWord => "ELSE"
  | falseWord => "FALSE"
  | forWord => "FOR"
  | functionWord => "FUNCTION"
  | ifWord => "IF"
  | nilWord => "NIL"
  | orWord => "OR"
  | printWord => "PRINT"
  | returnWord => "RETURN"
  | superWord => "SUPER"
  | thisWord => "THIS"
  | trueWord => "TRUE"
  | varWord => "VAR"
  | whileWord => "WHILE"

/-- The keyword that a text spells, in any letter case. Keywords are ASCII, and no
character outside ASCII has a lower-case form that spells part of one. -/
def ofText? (text : String) : Option Keyword :=
  all.find? fun k => k.word == text.map Char.toLower

end Keyword

/-! ## Kinds -/

/-- The kinds of token. -/
inductive Kind
  | leftParen | rightParen | leftBrace | rightBrace | comma | dot | minus | plus
  | semicolon | slash | star
  | bang | bangEqual | equal | equalEqual | greater | greaterEqual | less | lessEqual
  | identifier | string | number
  | keyword (k : Keyword)
  | eof
  deriving DecidableEq, Repr

namespace Kind

/-- The name under which a kind is listed. -/
def name : Kind → String
  | leftParen => "LEFT_PAREN"
  | rightParen => "RIGHT_PAREN"
  | leftBrace => "LEFT_BRACE"
  | rightBrace => "RIGHT_BRACE"
  | comma => "COMMA"
  | dot => "DOT"
  | minus => "MINUS"
  | plus => "PLUS"
  | semicolon => "SEMICOLON"
  | slash => "SLASH"
  | star => "STAR"
  | bang => "BANG"
  | bangEqual => "BANG_EQUAL"
  | equal => "EQUAL"
  | equalEqual => "EQUAL_EQUAL"
  | greater => "GREATER"
  | greaterEqual => "GREATER_EQUAL"
  | less => "LESS"
  | lessEqual => "LESS_EQUAL"
  | identifier => "IDENTIFIER"
  | string => "STRING"
  | number => "NUMBER"
  | keyword k => k.kindName
  | eof => "EOF"

/-- Every kind, each once. -/
def all : List Kind :=
  [leftParen, rightParen, leftBrace, rightBrace, comma, dot, minus, plus, semicolon, slash, star,
   bang, bangEqual, equal, equalEqual, greater, greaterEqual, less, lessEqual,
   identifier, string, number] ++ Keyword.all.map keyword ++ [eof]

/-- The kind listed under a name. -/
def ofName? (text : String) : Option Kind := all.find? fun k => k.name == text

/-- The kinds that begin a declaration or a statement. Recovery from an error stops before
one of these. -/
def startsStatement : Kind → Bool
  | keyword .classWord | keyword .functionWord | keyword .varWord | keyword .forWord
  | keyword .ifWord | keyword .whileWord | keyword .printWord | keyword .returnWord => true
  | _ => false

end Kind

/-! ## Tokens -/

/-- The value of a literal token. -/
inductive Literal
  | number (x : Float)
  | text (s : String)
  deriving DecidableEq

structure Token where
  kind : Kind
  lexeme : String
  literal : Option Literal
  /-- Lines of a source are counted from 1; a token made by hand may stand on any line. -/
  line : Int
  deriving DecidableEq

namespace Token

/-- The mark after the last token of a source that ends on `line`. -/
def endAt (line : Int) : Token := ⟨.eof, "", none, line⟩

end Token

end Scriptling
