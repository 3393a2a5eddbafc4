import WhileLang.Syntax.Expr

/-!
# Statements and blocks

A block is a list of statements: a whole program, a branch of a conditional or the
body of a loop.  A conditional without an else branch is a different statement
from one whose else branch is empty, and their S-expressions differ as well.
-/

namespace WhileLang

/-- A statement. -/
inductive Stmt where
  | assign (name : String) (value : Expr)
  | ifThen (condition : Expr) (thenBranch : List Stmt)
  | ifElse (condition : Expr) (thenBranch elseBranch : List Stmt)
  | whileDo (condition : Expr) (body : List Stmt)
  | print (value : Expr)
  | expression (value : Expr)

/-- A sequence of statements. -/
abbrev Block :=
  List Stmt

mutual

/-- The S-expression of a statement.  An expression that stands as a statement is
shown bare. -/
def Stmt.render : Stmt → String
  | .assign name value => "(:= " ++ name ++ " " ++ value.render ++ ")"
  | .ifThen condition thenBranch =>
      "(if " ++ condition.render ++ " (block" ++ renderItems thenBranch ++ "))"
  | .ifElse condition thenBranch elseBranch =>
      "(if " ++ condition.render ++ " (block" ++ renderItems thenBranch ++ ") (block" ++
        renderItems elseBranch ++ "))"
  | .whileDo condition body =>
      "(while " ++ condition.render ++ " (block" ++ renderItems body ++ "))"
  | .print value => "(print " ++ value.render ++ ")"
  | .expression value => value.render

/-- The S-expressions of the statements of a block, each after a space. -/
def renderItems : List Stmt → String
  | [] => ""
  | statement :: rest => " " ++ statement.render ++ renderItems rest

end

/-- The S-expression of a block. -/
def Block.render (block : Block) : String :=
  "(block" ++ renderItems block ++ ")"

mutual

/-- Whether two statements have the same shape and equal leaves, where floats are
compared as numbers. -/
def Stmt.agrees : Stmt → Stmt → Bool
  | .assign name value, .assign name' value' => name == name' && value.agrees value'
  | .ifThen condition thenBranch, .ifThen condition' thenBranch' =>
      condition.agrees condition' && blocksAgree thenBranch thenBranch'
  | .ifElse condition thenBranch elseBranch, .ifElse condition' thenBranch' elseBranch' =>
      condition.agrees condition' && blocksAgree thenBranch thenBranch' &&
        blocksAgree elseBranch elseBranch'
  | .whileDo condition body, .whileDo condition' body' =>
      condition.agrees condition' && blocksAgree body body'
  | .print value, .print value' => value.agrees value'
  | .expression value, .expression value' => value.agrees value'
  | _, _ => false

/-- Whether two blocks agree statement by statement. -/
def blocksAgree : List Stmt → List Stmt → Bool
  | [], [] => true
  | first :: rest, first' :: rest' => first.agrees first' && blocksAgree rest rest'
  | _, _ => false

end

end WhileLang
