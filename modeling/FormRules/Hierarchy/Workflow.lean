import FormRules.Distinct
import FormRules.Hierarchy.Issue

/-!
# Workflow steps

A step lists the steps it can lead to.  The check reports links to unknown
steps and every step from which the workflow can loop.
-/

namespace FormRules

structure Step where
  id : String
  next : List String
deriving DecidableEq, Repr

namespace Step

def idKey : FieldKey := .single "id"
def nextKey : FieldKey := ⟨"nextStepIds", ["next_step_ids"]⟩

def read : Value → Reading Step
  | .obj fields =>
    Step.mk <$> Reading.required fields idKey Reading.text
      <*> Reading.optional fields nextKey [] Reading.texts
  | _ => Reading.fault .notAModel

end Step

namespace Steps

/-- Reads a list of steps, all or none of it.  Null stands for no steps, and so
do a text and an object with nothing in them. -/
def read : Value → Except InputError (List Step)
  | .null => .ok []
  | .list items =>
    match Reading.each Step.read items with
    | .ok steps => .ok steps
    | .faulty _ => .error .malformedSteps
  | .str s => if s.isEmpty then .ok [] else .error .malformedSteps
  | .obj fields => if fields.isEmpty then .ok [] else .error .malformedSteps
  | _ => .error .malformedSteps

/-- The links of each step; the first step of an id counts. -/
def links (steps : List Step) : Assoc (List String) :=
  (distinctBy Step.id steps).map fun step => (step.id, step.next)

def issuesOf (ids : List String) (graph : Graph) (id : String) (next : List String) :
    List Issue :=
  (next.filter fun n => !ids.contains n).map (.unknownStep id ·) ++
    ((graph.findCycle id).map (.circularStepChain id ·)).toList

def issues (steps : List Step) : List Issue :=
  let entries := links steps
  let graph := Graph.ofLists entries
  entries.flatMap fun e => issuesOf entries.keys graph e.1 e.2

end Steps

end FormRules
