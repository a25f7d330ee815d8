import Offside.Source.Position
import Offside.Syntax.DataType
import Offside.Text.Quoted

/-!
# Errors

An error is a cause and a place. The cause decides the error's name, its category, the message that
states what happened and the tip that is shown beside a source excerpt.
-/

namespace Offside

/-- The stage of the work that an error belongs to. -/
inductive ErrorCategory where
  /-- Splitting a text into tokens. -/
  | lex
  /-- Building a program from tokens. -/
  | syntactic
  /-- Resolving names and checking types. -/
  | semantic
  /-- Entering a declaration under a name. -/
  | registration
  /-- A promise that a caller has broken. -/
  | internal
  deriving DecidableEq, Repr, Inhabited

namespace ErrorCategory

/-- The name of a category. -/
def name : ErrorCategory → String
  | lex => "Lex"
  | syntactic => "Syntax"
  | semantic => "Semantic"
  | registration => "Registration"
  | internal => "Internal"

end ErrorCategory

/-- What went wrong. -/
inductive ErrorCause where
  | unterminatedString (quote : String)
  | unknownOperator (operator : String)
  | numberParseError (token : String)
  | unexpectedToken (token : String)
  | unexpectedTokenDetailed (token message : String)
  | expectedToken (expected token : String)
  | indentationError (expected found : Nat)
  | unknownFunction (name : String)
  | unknownVariable (name : String)
  | unknownDataType (type : DataType)
  | breakNotAllowed
  | continueNotAllowed
  | notAllPathsReturn (type : DataType)
  | cannotConvertValue (source target : DataType)
  | cannotCallMethod (name : String)
  | cannotFindProperty (name : String)
  | returnNotAllowed
  | returnTypeMismatch (type : DataType) (function : String)
  | variableAlreadyDeclared (name : String)
  | functionAlreadyDeclared (function : String)
  | hotpotAlreadyDeclared (name : String)
  | entryPointAlreadyDeclared
  | internalError (message : String)
  deriving Inhabited

namespace ErrorCause

open Text (quoted)

/-- The name of a cause, as reports head it. -/
def name : ErrorCause → String
  | unterminatedString .. => "UnterminatedString"
  | unknownOperator .. => "UnknownOperator"
  | numberParseError .. => "NumberParseError"
  | unexpectedToken .. => "UnexpectedToken"
  | unexpectedTokenDetailed .. => "UnexpectedTokenDetailed"
  | expectedToken .. => "ExpectedToken"
  | indentationError .. => "IndentationError"
  | unknownFunction .. => "UnknownFunction"
  | unknownVariable .. => "UnknownVariable"
  | unknownDataType .. => "UnknownDataType"
  | breakNotAllowed => "BreakNotAllowed"
  | continueNotAllowed => "ContinueNotAllowed"
  | notAllPathsReturn .. => "NotAllPathsReturn"
  | cannotConvertValue .. => "CannotConvertValue"
  | cannotCallMethod .. => "CannotCallMethod"
  | cannotFindProperty .. => "CannotFindProperty"
  | returnNotAllowed => "ReturnNotAllowed"
  | returnTypeMismatch .. => "ReturnTypeMismatch"
  | variableAlreadyDeclared .. => "VariableAlreadyDeclared"
  | functionAlreadyDeclared .. => "FunctionAlreadyDeclared"
  | hotpotAlreadyDeclared .. => "HotpotAlreadyDeclared"
  | entryPointAlreadyDeclared => "EntryPointAlreadyDeclared"
  | internalError .. => "InternalError"

/-- The category of a cause. -/
def category : ErrorCause → ErrorCategory
  | unterminatedString .. | unknownOperator .. | numberParseError .. => .lex
  | unexpectedToken .. | unexpectedTokenDetailed .. | expectedToken .. | indentationError .. =>
    .syntactic
  | variableAlreadyDeclared .. | functionAlreadyDeclared .. | hotpotAlreadyDeclared ..
  | entryPointAlreadyDeclared => .registration
  | internalError .. => .internal
  | unknownFunction .. | unknownVariable .. | unknownDataType .. | breakNotAllowed
  | continueNotAllowed | notAllPathsReturn .. | cannotConvertValue .. | cannotCallMethod ..
  | cannotFindProperty .. | returnNotAllowed | returnTypeMismatch .. => .semantic

/-- The message of a cause. Texts taken from the source are quoted, types are not. -/
def message : ErrorCause → String
  | unterminatedString quote => "unterminated string literal opened with " ++ quoted quote
  | unknownOperator operator => "unknown operator: " ++ quoted operator
  | numberParseError token => "error parsing number: " ++ quoted token
  | unexpectedToken token => "unexpected token: " ++ quoted token
  | unexpectedTokenDetailed token detail =>
    "unexpected token (" ++ quoted detail ++ "): " ++ quoted token
  | expectedToken expected token => "expected " ++ expected ++ ", found " ++ quoted token
  | indentationError expected found =>
    "invalid indentation: expected " ++ toString expected ++ " columns, found " ++ toString found
  | unknownFunction name => "unknown function " ++ quoted name
  | unknownVariable name => "unknown variable " ++ quoted name
  | unknownDataType type => "unknown data type " ++ type.text
  | breakNotAllowed => "break is not allowed here"
  | continueNotAllowed => "continue is not allowed here"
  | notAllPathsReturn type => "not all paths return a value of type " ++ type.text
  | cannotConvertValue source target =>
    "cannot convert value of type " ++ source.text ++ " to " ++ target.text
  | cannotCallMethod name => "cannot call method " ++ quoted name
  | cannotFindProperty name => "cannot find property " ++ quoted name
  | returnNotAllowed => "return is not allowed here"
  | returnTypeMismatch type function =>
    "cannot return " ++ type.text ++ " from function " ++ quoted function
  | variableAlreadyDeclared name => "variable " ++ quoted name ++ " already declared"
  | functionAlreadyDeclared function => "function " ++ quoted function ++ " already declared"
  | hotpotAlreadyDeclared name => "hotpot " ++ quoted name ++ " already declared"
  | entryPointAlreadyDeclared => "entry point already declared"
  | internalError message => "internal error: " ++ message

/-- A text between grave accents. -/
private def ticked (text : String) : String :=
  "\x60" ++ text ++ "\x60"

/-- Advice for the reader of a report. An internal error offers none. -/
def tip? : ErrorCause → Option String
  | unterminatedString quote => some ("String is missing its closing " ++ ticked quote)
  | unknownOperator operator => some (ticked operator ++ " is not a known operator")
  | numberParseError token =>
    some ("Invalid number: " ++ ticked token ++ ", is it above the integer limit?")
  | unexpectedToken token => some ("Unexpected token: " ++ ticked token)
  | unexpectedTokenDetailed token detail =>
    some ("Unexpected token: " ++ ticked token ++ ", " ++ detail)
  | expectedToken expected token => some ("Expected " ++ expected ++ ", found " ++ ticked token)
  | indentationError expected found =>
    some ("Expected an indentation of " ++ toString expected ++ " columns, found "
      ++ toString found)
  | unknownFunction name => some ("No function named " ++ ticked name ++ " is declared")
  | unknownVariable name => some ("Variable " ++ ticked name ++ " not declared")
  | unknownDataType type => some ("Unknown type " ++ ticked type.text ++ " found")
  | breakNotAllowed => some (ticked "break" ++ " is only allowed inside a loop")
  | continueNotAllowed => some (ticked "continue" ++ " is only allowed inside a loop")
  | notAllPathsReturn type =>
    some ("Every path through the function must return a " ++ ticked type.text)
  | cannotConvertValue source target =>
    some ("Expected type " ++ ticked target.text ++ ", received " ++ ticked source.text)
  | cannotCallMethod name =>
    some ("Method " ++ ticked name ++ " can only be called on a hotpot variable")
  | cannotFindProperty name => some ("No property named " ++ ticked name ++ " was found")
  | returnNotAllowed => some (ticked "return" ++ " is only allowed inside a function")
  | returnTypeMismatch type function =>
    some ("Function " ++ ticked function ++ " cannot return a value of type " ++ ticked type.text)
  | variableAlreadyDeclared name =>
    some ("Variable " ++ ticked name ++ " already declared")
  | functionAlreadyDeclared function =>
    some ("Function " ++ ticked function ++ " already declared")
  | hotpotAlreadyDeclared name => some ("Hotpot " ++ ticked name ++ " already declared")
  | entryPointAlreadyDeclared => some ("Only one " ++ ticked "main" ++ " function may be declared")
  | internalError _ => none

end ErrorCause

/-- A cause and the place it shows at. -/
structure Error where
  /-- What went wrong. -/
  cause : ErrorCause
  /-- Where it shows. -/
  position : Position
  deriving Inhabited

end Offside
