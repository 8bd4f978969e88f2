import RecordMapping.JsonPath.Query

/-!
# Dialects of mapping expressions

An expression is a slash-separated path or a path query. Both find a list of values in a document,
and both can write a list of values into one, unless a query is not normalized.
-/

namespace RecordMapping

/-- The languages in which expressions are written. -/
inductive Dialect where
  | simple
  | jsonPath
  deriving DecidableEq

namespace Dialect

def id : Dialect → String
  | .simple => "simple"
  | .jsonPath => "jsonpath"

/-- The fields whose main property has to be mapped to raw data. -/
def requiredFields : Dialect → List String
  | .simple => ["id", "title"]
  | .jsonPath => ["id", "uuid", "title"]

end Dialect

/-- An expression that cannot be used, and why. -/
structure ExpressionError where
  expression : String
  fault : ExpressionFault
  deriving DecidableEq

namespace ExpressionError

def message (error : ExpressionError) : String :=
  s!"invalid mapping expression '{error.expression}': " ++ error.fault.message

end ExpressionError

/-- Why values could not be injected. -/
inductive InjectError where
  | unusable (error : ExpressionError)
  | blocked (conflict : Conflict)
  deriving DecidableEq

namespace InjectError

def message : InjectError → String
  | .unusable error => error.message
  | .blocked conflict =>
    "cannot write raw data at '" ++ pathText conflict.path ++ "': " ++ conflict.obstacle.message

end InjectError

inductive Expression where
  | slashed (path : SlashedPath)
  | jsonPath (query : PathQuery)

namespace Expression

/-- The expression that a text writes in a dialect. -/
def parse (dialect : Dialect) (source : String) : Except ExpressionError Expression :=
  match dialect with
  | .simple =>
    match SlashedPath.parse source with
    | .ok path => .ok (.slashed path)
    | .error fault => .error ⟨source, fault⟩
  | .jsonPath =>
    match PathQuery.parse source with
    | .ok query => .ok (.jsonPath query)
    | .error fault => .error ⟨PathQuery.trimmed source, fault⟩

def source : Expression → String
  | .slashed path => path.source
  | .jsonPath query => query.source

/-- The plan that values are written through, if there is one. -/
def plan? : Expression → Option Plan
  | .slashed path => some path.plan
  | .jsonPath query => query.writable

/-- The values found in a document, one for each delta. -/
def evaluate : Expression → Json → List Json
  | .slashed path, document => path.evaluate document
  | .jsonPath query, document => query.evaluate document

/-- The document with values written into it, one for each delta. -/
def inject (expression : Expression) (values : List Json) (cardinality : Cardinality)
    (document : Json) : Except InjectError Json :=
  match expression.plan? with
  | none => .error (.unusable ⟨expression.source, .notWritable⟩)
  | some plan =>
    match plan.inject values cardinality document with
    | .ok document => .ok document
    | .error conflict => .error (.blocked conflict)

end Expression

end RecordMapping
