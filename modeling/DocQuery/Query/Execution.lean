import DocQuery.Query.Evaluation

/-!
# Running a statement

A statement runs over documents that a source hands out one at a time.  Failures
of the source are handed on in place of results.  The numbers that `RAND` draws are
given with the run.
-/

namespace DocQuery

namespace Statement

/--
The name under which documents are bound.  A subquery as the source runs over the
same documents, so that they take the name of its own source.
-/
def documentName (parameters : Parameters) (s : Statement) : String :=
  match s.source with
  | .subquery inner _ => inner.source.rowName parameters
  | source => source.rowName parameters

def documentRow (s : Statement) (parameters : Parameters) (draws : Draws) (index : Nat)
    (document : Value) : Row :=
  Row.ofDocument (draws.part index) (s.documentName parameters) document

/--
The results of a statement over the documents of a source, which is not asked again
once it gave nothing.
-/
def execute {ε : Type} (s : Statement) (parameters : Parameters) (draws : Draws)
    (documents : Cursor ε Value) : Cursor ε Value :=
  (s.plan parameters).results
    (documents.fused.through (Stage.mapIdx (s.documentRow parameters draws)))

def run (s : Statement) (parameters : Parameters) (draws : Draws) (documents : List Value) :
    List Value :=
  ((s.execute parameters draws (Cursor.ofList (documents.map .ok))).items).map Plan.certain

end Statement

end DocQuery
