import ItemClient.Error
import ItemClient.Json.Basic
import ItemClient.Text.Letter

/-!
# Tokens of an expression

The words an expression is made of, and what can be wrong with them.
-/

namespace ItemClient.Filter

/-- How a field is compared with a value. -/
inductive CompareOp where
  | eq
  | notEq
  | lt
  | ltEq
  | gt
  | gtEq
  deriving DecidableEq

namespace CompareOp

/-- The name of a comparison in the filter of the remote store. -/
def operator : CompareOp → String
  | eq => "_eq"
  | notEq => "_neq"
  | lt => "_lt"
  | ltEq => "_lte"
  | gt => "_gt"
  | gtEq => "_gte"

/-- The spelling of a comparison in an expression. -/
def symbol : CompareOp → String
  | eq => "=="
  | notEq => "!="
  | lt => "<"
  | ltEq => "<="
  | gt => ">"
  | gtEq => ">="

end CompareOp

/-- A word of an expression. -/
inductive Token where
  | ident (name : String)
  | dot
  | op (op : CompareOp)
  /-- What stands between the delimiters of a string, escapes left as they are. -/
  | str (body : String)
  /-- A number without fraction and exponent. -/
  | int (text : String)
  /-- A number with a fraction, an exponent or both. -/
  | float (text : String)
  /-- A variable with its dollar sign, field path and adjustment. -/
  | var (text : String)
  deriving DecidableEq

/-- A token as an error names it. -/
def Token.describe : Token → String
  | ident name => "identifier '" ++ name ++ "'"
  | dot => "'.'"
  | op o => "operator '" ++ o.symbol ++ "'"
  | str body => "string '" ++ body ++ "'"
  | int text | float text => "number " ++ text
  | var text => "variable " ++ text

/-- Why an expression is not a comparison. -/
inductive Fault where
  | unexpectedCharacter (c : Char) (offset : Nat)
  /-- A lone `=` or `!`. -/
  | unsupportedOperator (c : Char)
  | unterminatedString
  | unknownVariable (name : String)
  | unterminatedAdjustment (name : String)
  | expectedField (found : Option Token)
  | expectedOperator (found : Option Token)
  /-- An integer of more than 64 bits. -/
  | integerOutOfRange (text : String)
  /-- A number that no finite double is near to. -/
  | invalidFloat (text : String)
  | expectedLiteral (found : Option Token)
  /-- A token after the value. -/
  | trailing (found : Token)
  deriving DecidableEq

namespace Fault

def foundInstead : Option Token → String
  | none => ""
  | some t => ", found " ++ t.describe

def reason : Fault → String
  | unexpectedCharacter c offset =>
      "unexpected character '" ++ c.toString ++ "' at offset " ++ toString offset
  | unsupportedOperator c => "unsupported operator '" ++ c.toString ++ "'"
  | unterminatedString => "unterminated string literal"
  | unknownVariable name => "unknown variable '$" ++ name ++ "'"
  | unterminatedAdjustment name => "unterminated adjustment for $" ++ name
  | expectedField found => "expected field name" ++ foundInstead found
  | expectedOperator found => "expected comparison operator" ++ foundInstead found
  | integerOutOfRange text => "integer literal " ++ text ++ " is out of range"
  | invalidFloat text => "invalid float literal " ++ text
  | expectedLiteral none => "missing right-hand literal"
  | expectedLiteral (some t) => "right-hand side must be a literal, found " ++ t.describe
  | trailing t => "unexpected trailing " ++ t.describe

end Fault

end ItemClient.Filter
