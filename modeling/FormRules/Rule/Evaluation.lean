import FormRules.Condition.Evaluation
import FormRules.Log
import FormRules.Rule.Basic

/-!
# Evaluating rules

Evaluating a list of rules keeps those whose condition holds, in the order of
their priorities, rules of one priority in the order of the list.  Inactive
rules are passed over, and a rule whose condition cannot be evaluated has the
failure on its result instead of ending the evaluation; the failed results may
be asked for behind the triggered ones.
-/

namespace FormRules

/-- Why a condition was not decided: the kind of the failure and what is said
about it. -/
structure Failure where
  kind : String
  message : String
deriving DecidableEq, Repr

/-- What is shown of a failure: its message, or its kind when it has none. -/
def Failure.text (failure : Failure) : String :=
  if failure.message.isEmpty then failure.kind else failure.message

/-- Something that decides conditions, and the records it makes doing so. -/
structure Judge where
  verdict : Condition → FormData → Except Failure Bool
  log : Condition → FormData → List LogRecord

def EvaluationError.kind : EvaluationError → String
  | .tooDeep _ => "ConditionDepthError"
  | .unsupportedComparator _ => "UnsupportedOperatorError"
  | .unsupportedConnective _ | .blankReference | .notACondition _ => "ConditionError"

def EvaluationError.failure (e : EvaluationError) : Failure := ⟨e.kind, e.message⟩

namespace Evaluator

/-- The record of a negated group with another number of children than one. -/
def wideNegationRecord (children : Nat) : LogRecord :=
  ⟨.debug, .conditions,
    "NOT group with " ++ Text.natText children ++ " children negates their conjunction"⟩

def log (e : Evaluator) (condition : Condition) (data : FormData) : List LogRecord :=
  (e.wideNegationsAt data 1 condition).map wideNegationRecord

def judge (e : Evaluator) : Judge where
  verdict condition data := (e.evaluate data condition).mapError EvaluationError.failure
  log := e.log

end Evaluator

/-- The judge that fails on every condition. -/
def Judge.failing (failure : Failure) : Judge where
  verdict _ _ := .error failure
  log _ _ := []

structure RuleResult where
  rule : Rule
  triggered : Bool
  error : Option String
deriving DecidableEq

namespace RuleResult

def hasError (result : RuleResult) : Bool := result.error.isSome

/-- The action to carry out: that of the rule, if it triggered. -/
def action (result : RuleResult) : Option String :=
  if result.triggered then some result.rule.action else none

end RuleResult

namespace Judge

variable (judge : Judge)

def evaluateRule (data : FormData) (rule : Rule) : RuleResult :=
  if rule.isActive then
    match judge.verdict rule.condition data with
    | .ok triggered => ⟨rule, triggered, none⟩
    | .error failure => ⟨rule, false, some failure.text⟩
  else ⟨rule, false, none⟩

/-- The results of the rules that triggered, by priority. -/
def triggered (data : FormData) (rules : List Rule) : List RuleResult :=
  ((rules.map (judge.evaluateRule data)).filter (·.triggered)).mergeSort
    fun a b => decide (a.rule.priority ≤ b.rule.priority)

/-- The results of the rules that failed, in the order of the list. -/
def failed (data : FormData) (rules : List Rule) : List RuleResult :=
  (rules.map (judge.evaluateRule data)).filter (·.hasError)

/-- Evaluates rules; the failed ones follow the triggered ones if they are
asked for. -/
def evaluateRules (data : FormData) (rules : List Rule) (includeErrors : Bool) :
    List RuleResult :=
  if includeErrors then judge.triggered data rules ++ judge.failed data rules
  else judge.triggered data rules

/-- Whether a rule is aimed at a field and a step; a missing criterion admits
every rule. -/
def aimsAt (field : Option String) (step : Option Int) (rule : Rule) : Bool :=
  (field.isNone || rule.targetField == field) && (step.isNone || rule.targetStep == step)

def evaluateRulesFor (data : FormData) (rules : List Rule) (field : Option String)
    (step : Option Int) : List RuleResult :=
  judge.evaluateRules data (rules.filter (aimsAt field step)) false

def ruleLog (data : FormData) (rule : Rule) : List LogRecord :=
  if rule.isActive then
    judge.log rule.condition data ++
      match judge.verdict rule.condition data with
      | .ok triggered =>
        [⟨.debug, .engine, "Rule '" ++ rule.id ++ "' evaluated: triggered=" ++
          (if triggered then "True" else "False")⟩]
      | .error failure =>
        [⟨.error, .engine, "Error evaluating rule '" ++ rule.id ++ "': " ++ failure.message⟩]
  else [⟨.debug, .engine, "Rule '" ++ rule.id ++ "' is inactive, skipping"⟩]

def rulesLog (data : FormData) (rules : List Rule) : List LogRecord :=
  let failures := (judge.failed data rules).length
  rules.flatMap (judge.ruleLog data) ++
    (if failures = 0 then []
     else [⟨.warning, .engine, Text.natText failures ++ " rule(s) failed to evaluate"⟩]) ++
    [⟨.info, .engine, "Evaluated " ++ Text.natText rules.length ++ " rule(s): " ++
      Text.natText (judge.triggered data rules).length ++ " triggered"⟩]

/-- The records made while the rules aimed at a field and a step are
evaluated. -/
def rulesForLog (data : FormData) (rules : List Rule) (field : Option String)
    (step : Option Int) : List LogRecord :=
  judge.rulesLog data (rules.filter (aimsAt field step))

end Judge

end FormRules
