/-
A calculator: symbol tables, the meaning of symbols and names, and the settings
of the computation, which stay in force until a command changes them.
-/

import DecimalCalculator.Evaluation.Standard
import DecimalCalculator.Evaluation.Walk
import DecimalCalculator.Expression.Build

namespace DecimalCalculator

/-- Why a command has no answer. -/
inductive Failure where
  | table (error : TableError)
  | expression (error : ExpressionError)
  | evaluation (error : EvaluationError)
  deriving DecidableEq, Repr

def Failure.message : Failure → String
  | .table error => error.message
  | .expression error => error.message
  | .evaluation error => error.message

structure Calculator where
  tables : SymbolTables := .standard
  resolvers : Resolvers := .standard
  context : Context := {}

namespace Calculator

/-! ### Answers -/

def build (calculator : Calculator) (text : String) : Except Failure Expression :=
  (Expression.build calculator.tables text).mapError .expression

/-- The value of a tree under the resolvers and the context of the calculator. -/
def evaluate (calculator : Calculator) (expression : Expression) : Except Failure Value :=
  (Evaluation.evaluate calculator.resolvers calculator.context expression).mapError .evaluation

def calculate (calculator : Calculator) (text : String) : Except Failure Value := do
  calculator.evaluate (← calculator.build text)

/-! ### Commands -/

inductive ResolverChange where
  | operators (resolver : OperatorResolver)
  | brackets (resolver : BracketResolver)
  | functions (resolver : FunctionResolver)
  | listFunctions (resolver : ListFunctionResolver)
  | suffixes (resolver : SuffixResolver)
  | constants (resolver : ConstantResolver)

def ResolverChange.apply (resolvers : Resolvers) : ResolverChange → Resolvers
  | .operators resolver => { resolvers with operators := resolver }
  | .brackets resolver => { resolvers with brackets := resolver }
  | .functions resolver => { resolvers with functions := resolver }
  | .listFunctions resolver => { resolvers with listFunctions := resolver }
  | .suffixes resolver => { resolvers with suffixes := resolver }
  | .constants resolver => { resolvers with constants := resolver }

inductive Command where
  | calculate (text : String)
  | build (text : String)
  | evaluate (expression : Expression)
  | setDisplayScale (displayScale : UInt32)
  | setContext (context : Context)
  | setBrackets (brackets : List BracketPair)
  | setOperators (operators : List BinaryOperator)
  | setSuffixes (suffixes : List Char)
  | setResolver (change : ResolverChange)

inductive Reply where
  | value (value : Value)
  | expression (expression : Expression)
  | done
  | failed (failure : Failure)

def Reply.ofResult {α : Type} (success : α → Reply) : Except Failure α → Reply
  | .ok result => success result
  | .error failure => .failed failure

/-- The calculator with new tables, or as it was if the tables are refused. -/
def withTables (calculator : Calculator) : Except TableError SymbolTables → Calculator × Reply
  | .ok tables => ({ calculator with tables := tables }, .done)
  | .error error => (calculator, .failed (.table error))

/-- The calculator with a new context, or as it was if there is none. -/
def withContext (calculator : Calculator) : Outcome Context → Calculator × Reply
  | .ok context => ({ calculator with context := context }, .done)
  | .error error => (calculator, .failed (.evaluation error))

/-- Carries out a command.  Only commands that set something change the calculator. -/
def step (calculator : Calculator) : Command → Calculator × Reply
  | .calculate text => (calculator, .ofResult .value (calculator.calculate text))
  | .build text => (calculator, .ofResult .expression (calculator.build text))
  | .evaluate expression => (calculator, .ofResult .value (calculator.evaluate expression))
  | .setDisplayScale displayScale => calculator.withContext (Context.ofDisplayScale displayScale)
  | .setContext context => ({ calculator with context := context }, .done)
  | .setBrackets brackets => calculator.withTables (calculator.tables.withBrackets brackets)
  | .setOperators operators => calculator.withTables (calculator.tables.withOperators operators)
  | .setSuffixes suffixes => calculator.withTables (calculator.tables.withSuffixes suffixes)
  | .setResolver change =>
      ({ calculator with resolvers := change.apply calculator.resolvers }, .done)

/-- Carries out commands one after another and collects their replies. -/
def run (calculator : Calculator) : List Command → Calculator × List Reply
  | [] => (calculator, [])
  | command :: rest =>
      let (next, reply) := calculator.step command
      let (last, replies) := next.run rest
      (last, reply :: replies)

end Calculator
end DecimalCalculator
