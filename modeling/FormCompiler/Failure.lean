namespace FormCompiler

structure Failure where
  reasons : List String
  deriving DecidableEq, Repr

def Failure.text (f : Failure) : String := ": ".intercalate f.reasons

def Failure.within (f : Failure) (context : String) : Failure := ⟨context :: f.reasons⟩

inductive TableId where
  | lookup
  | dictionary
  deriving DecidableEq, Repr

def TableId.text : TableId → String
  | .lookup => "lookup-function"
  | .dictionary => "dictionary"

structure StrategyFailure where
  strategy : String
  failure : Failure
  deriving DecidableEq, Repr

def StrategyFailure.text (f : StrategyFailure) : String :=
  "[" ++ f.strategy ++ "] " ++ f.failure.text

inductive LoadError where
  | noStrategies (table : TableId)
  | unavailable (table : TableId) (failures : List StrategyFailure)
  deriving DecidableEq, Repr

def LoadError.text : LoadError → String
  | .noStrategies table => "no load strategy registered for the " ++ table.text ++ " table"
  | .unavailable table failures =>
    table.text ++ " table unavailable, all load strategies failed: " ++
      "; ".intercalate (failures.map StrategyFailure.text)

end FormCompiler
