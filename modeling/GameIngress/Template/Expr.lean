import GameIngress.Template.Token

/-!
# Template programs

Expressions compute values; statements write text, bind names and steer what is written.
-/
namespace GameIngress.Template

inductive Literal where
  | none
  | bool (b : Bool)
  | int (n : Nat)
  | decimal (digits : Nat) (exponent : Int)
  | text (s : String)
  deriving DecidableEq, Repr

inductive BinaryOp where
  | add | sub | mul | div | floorDiv | rem | pow | concat
  | eq | ne | lt | le | gt | ge | isIn
  deriving DecidableEq, Repr

mutual
inductive Expr where
  | lit (l : Literal)
  | var (name : String)
  | list (items : List Expr)
  | dict (entries : List (Expr × Expr))
  | attr (e : Expr) (name : String)
  | item (e sub : Expr)
  | slice (e : Expr) (start stop step : Option Expr)
  | not (e : Expr)
  | neg (e : Expr)
  | binary (op : BinaryOp) (a b : Expr)
  | both (a b : Expr)
  | either (a b : Expr)
  | choice (condition yes : Expr) (no : Option Expr)
  | filter (name : String) (e : Expr) (args : List Arg)
  | test (name : String) (e : Expr) (args : List Arg)
  | call (callee : Expr) (args : List Arg)
inductive Arg where
  | plain (e : Expr)
  | named (name : String) (e : Expr)
  | spread (e : Expr)
  | spreadNamed (e : Expr)
end

instance : Inhabited Expr := ⟨.lit .none⟩

/-- What a value is bound to: one name or attribute, or a list of such, matched item by item. -/
abbrev Target := Expr

/-- The filters that a captured text goes through, first to last. -/
abbrev FilterChain := List (String × List Arg)

inductive Stmt where
  | raw (s : String)
  | emit (e : Expr)
  | loop (target : Target) (iter : Expr) (filter : Option Expr) (recursive : Bool)
      (body orElse : List Stmt)
  | branch (condition : Expr) (yes no : List Stmt)
  | scoped (bindings : List (Target × Expr)) (body : List Stmt)
  | assign (target : Target) (e : Expr)
  | capture (target : Target) (filters : FilterChain) (body : List Stmt)
  | escaping (mode : Expr) (body : List Stmt)
  | filtered (filters : FilterChain) (body : List Stmt)
  | block (name : String) (body : List Stmt)
  /-- Fetch another template; there is none to be found. -/
  | fetch (name : Expr) (ignoreMissing : Bool)
  | define (name : String) (params : List (String × Option Expr)) (body : List Stmt)
  | invoke (callee : Expr) (args : List Arg) (params : List (String × Option Expr))
      (body : List Stmt)
  | run (callee : Expr) (args : List Arg)

instance : Inhabited Stmt := ⟨.raw ""⟩

end GameIngress.Template
