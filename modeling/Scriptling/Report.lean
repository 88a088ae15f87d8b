-- What the language reports. A static error is found before anything runs and says where
-- it stands and what is wrong; a runtime error stops a run at one token.
import Scriptling.Token

namespace Scriptling

/-! ## Static errors -/

/-- What can be wrong with a source before it runs. -/
inductive Problem
  -- characters
  | unexpectedCharacter
  | unterminatedString
  -- declarations
  | functionName
  | parenAfterFunctionName
  | parameterName
  | parenAfterParameters
  | braceBeforeBody
  | tooManyParameters
  | variableName
  | semicolonAfterVariable
  -- statements
  | parenAfterFor
  | semicolonAfterLoopCondition
  | parenAfterForClauses
  | parenAfterIf
  | parenAfterIfCondition
  | semicolonAfterValue
  | semicolonAfterReturn
  | parenAfterWhile
  | parenAfterCondition
  | semicolonAfterExpression
  | braceAfterBlock
  -- expressions
  | parenAfterArguments
  | tooManyArguments
  | parenAfterExpression
  | expression
  | assignmentTarget
  | tooDeep
  -- scopes
  | ownInitializer
  | alreadyDeclared
  | topLevelReturn
  deriving DecidableEq, Repr

/-- The most parameters of a function, and the most arguments of a call. -/
def argumentLimit : Nat := 255

namespace Problem

def message : Problem → String
  | unexpectedCharacter => "Unexpected character."
  | unterminatedString => "Unterminated string."
  | functionName => "Expect function name."
  | parenAfterFunctionName => "Expect '(' after function name."
  | parameterName => "Expect parameter name."
  | parenAfterParameters => "Expect ')' after parameters."
  | braceBeforeBody => "Expect '\x7b' before function body."
  | tooManyParameters => "Can't have more than 255 parameters."
  | variableName => "Expect variable name."
  | semicolonAfterVariable => "Expect ';' after variable declaration."
  | parenAfterFor => "Expect '(' after 'for'."
  | semicolonAfterLoopCondition => "Expect ';' after loop condition."
  | parenAfterForClauses => "Expect ')' after for clauses."
  | parenAfterIf => "Expect '(' after 'if'."
  | parenAfterIfCondition => "Expect ')' after if condition."
  | semicolonAfterValue => "Expect ';' after value."
  | semicolonAfterReturn => "Expect ';' after return value."
  | parenAfterWhile => "Expect '(' after 'while'."
  | parenAfterCondition => "Expect ')' after condition."
  | semicolonAfterExpression => "Expect ';' after expression."
  | braceAfterBlock => "Expect '\x7d' after block."
  | parenAfterArguments => "Expect ')' after arguments."
  | tooManyArguments => "Can't have more than 255 arguments."
  | parenAfterExpression => "Expect ')' after expression."
  | expression => "Expect expression."
  | assignmentTarget => "Invalid assignment target."
  | tooDeep => "Expression nests too deeply."
  | ownInitializer => "Can't read local variable in its own initializer."
  | alreadyDeclared => "Already a variable with this name in this scope."
  | topLevelReturn => "Can't return from top-level code."

end Problem

/-- Where on its line a static error stands. -/
inductive Place
  | nowhere
  | atEnd
  | atLexeme (lexeme : String)
  deriving DecidableEq, Repr

namespace Place

def ofToken (t : Token) : Place := if t.kind = .eof then .atEnd else .atLexeme t.lexeme

def text : Place → String
  | nowhere => ""
  | atEnd => " at end"
  | atLexeme lexeme => " at '" ++ lexeme ++ "'"

end Place

structure StaticError where
  line : Int
  place : Place
  problem : Problem
  deriving DecidableEq, Repr

namespace StaticError

/-- An error at a token. -/
def atToken (t : Token) (p : Problem) : StaticError := ⟨t.line, .ofToken t, p⟩

end StaticError

/-! ## Runtime errors -/

/-- Why a run stops at a token. -/
inductive Failure
  | undefinedVariable (name : String)
  | operandNotNumber
  | operandsNotNumbers
  | operandsNotAddable
  | unknownUnary (lexeme : String)
  | unknownBinary (lexeme : String)
  | notCallable
  | wrongArgumentCount (expected got : Nat)
  | stackOverflow
  deriving DecidableEq, Repr

namespace Failure

def message : Failure → String
  | undefinedVariable name => "Undefined variable '" ++ name ++ "'."
  | operandNotNumber => "Operand must be a number."
  | operandsNotNumbers => "Operands must be numbers."
  | operandsNotAddable => "Operands must be two numbers or two strings."
  | unknownUnary lexeme => "Unknown unary operator '" ++ lexeme ++ "'."
  | unknownBinary lexeme => "Unknown binary operator '" ++ lexeme ++ "'."
  | notCallable => "Can only call functions."
  | wrongArgumentCount expected got =>
    "Expected " ++ toString expected ++ " arguments but got " ++ toString got ++ "."
  | stackOverflow => "Stack overflow."

end Failure

structure RuntimeError where
  token : Token
  failure : Failure
  deriving DecidableEq

/-! ## Notices -/

/-- A report as a reader sees it: the wording is settled, the cause is not kept. -/
inductive Notice
  | static (line : Int) (place : Place) (message : String)
  | runtime (line : Int) (message : String)
  deriving DecidableEq, Repr

namespace Notice

def isStatic : Notice → Bool
  | static .. => true
  | runtime .. => false

def isRuntime : Notice → Bool
  | static .. => false
  | runtime .. => true

/-- The part of a static notice before its message. -/
def head (line : Int) (place : Place) : String :=
  "[line " ++ toString line ++ "] Error" ++ place.text ++ ":"

end Notice

def StaticError.notice (e : StaticError) : Notice := .static e.line e.place e.problem.message

def RuntimeError.notice (e : RuntimeError) : Notice := .runtime e.token.line e.failure.message

/-- A static error on one line of text. -/
def StaticError.text (e : StaticError) : String :=
  Notice.head e.line e.place ++ " " ++ e.problem.message

/-- A report made during a session. -/
inductive Report
  | static (error : StaticError)
  | runtime (error : RuntimeError)
  deriving DecidableEq

namespace Report

def notice : Report → Notice
  | static e => e.notice
  | runtime e => e.notice

def static? : Report → Option StaticError
  | static e => some e
  | runtime _ => none

def runtime? : Report → Option RuntimeError
  | static _ => none
  | runtime e => some e

end Report

end Scriptling
