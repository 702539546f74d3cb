import PredicateTree.Expr
import PredicateTree.Number.Shortest
import PredicateTree.Text.Comma
import PredicateTree.Text.Quoted

/-!
# Expr.Text

The printed form of trees and values. Binary nodes, conditionals and lambdas stand in parentheses,
so the shape of a tree can be read off its text.
-/

namespace PredicateTree

def Param.text (p : Param) : String := p.name

/-- A parameter where it is declared, with its type. -/
def Param.declaration (p : Param) : String := p.name ++ ": " ++ p.ty.text

/-- The parameters between bars, before a body. -/
def Param.header (ps : List Param) : String :=
  "|" ++ commaSeparated (ps.map Param.declaration) ++ "| "

/-- How an operator opens and closes around the text of its operand. -/
def UnaryOp.wrap : UnaryOp → String → String
  | .not, s => "!" ++ s
  | .neg, s => "-" ++ s
  | .isTrue, s => "is_true(" ++ s ++ ")"
  | .isFalse, s => "is_false(" ++ s ++ ")"

mutual

def Expr.text : Expr → String
  | .binary _ op a b => "(" ++ a.text ++ " " ++ op.symbol ++ " " ++ b.text ++ ")"
  | .unary _ op a => op.wrap a.text
  | .member _ t r => t.text ++ "." ++ r.name
  | .static _ r => r.declaringType ++ "::" ++ r.name
  | .call _ none m as =>
    m.declaringType ++ "::" ++ m.name ++ "(" ++ commaSeparated (Expr.texts as) ++ ")"
  | .call _ (some t) m as => t.text ++ "." ++ m.name ++ "(" ++ commaSeparated (Expr.texts as) ++ ")"
  | .constant _ v => v.text
  | .parameter _ p => p.text
  | .conditional _ a b c => "(" ++ a.text ++ " ? " ++ b.text ++ " : " ++ c.text ++ ")"
  | .default l => "default(" ++ l.ty.text ++ ")"
  | .dynamic _ b as => "dynamic " ++ b ++ "(" ++ commaSeparated (Expr.texts as) ++ ")"
  | .lambda _ ps b => "(" ++ Param.header ps ++ b.text ++ ")"

def Expr.texts : List Expr → List String
  | [] => []
  | a :: as => a.text :: Expr.texts as

def Value.text : Value → String
  | .null => "null"
  | .bool b => if b then "true" else "false"
  | .int n => toString n.toInt
  | .float x => x.text
  | .str s => quoted s
  | .object c _ => "value(" ++ c ++ ")"
  | .lambda ps b => Param.header ps ++ b.text

end

def Lambda.text (l : Lambda) : String := Param.header l.params ++ l.body.text

end PredicateTree
