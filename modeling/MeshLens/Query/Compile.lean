import MeshLens.Query.Canonical
import MeshLens.Query.Phrase

/-!
# Compiling queries

The canonical text of a query is cut at ` OR ` into clauses and each clause at ` AND ` into
expressions. Neither the compiled query nor its error depends on the display settings; these only
decide which of the requests made on the way are still open.
-/

namespace MeshLens

namespace Clause

open Query

/-- The conjunctions of one conjunction from each of two lists. -/
def combine (xs ys : List (List Criterion)) : List (List Criterion) :=
  xs.flatMap fun x => ys.map fun y => x ++ y

/-- The clause of one expression. -/
def ofExpression (e : Expression) : Clause :=
  { target := e.target, alternatives := e.alternatives }

/-- Narrows a clause by one more expression, which has to be about the same kind of element. -/
def narrow (c : Clause) (e : Expression) : Except QueryFault Clause :=
  if e.target = c.target then
    .ok { c with alternatives := combine c.alternatives e.alternatives }
  else .error (.error .mixedKinds)

/-- Reads further expressions of a clause in order. -/
def readMore (c : Clause) : List Text → Reading Clause
  | [] => { requests := [], result := .ok c }
  | s :: rest =>
    let reading := Expression.read true s
    match reading.result.bind c.narrow with
    | .error e => { requests := reading.requests, result := .error e }
    | .ok c =>
      let others := readMore c rest
      { requests := reading.requests ++ others.requests, result := others.result }

/-- Reads a clause. -/
def read (s : Text) : Reading Clause :=
  let (first, rest) := Text.cutOn " AND " s
  let reading := Expression.read (!rest.isEmpty) first
  match reading.result with
  | .error e => { requests := reading.requests, result := .error e }
  | .ok e =>
    let others := readMore (ofExpression e) rest
    { requests := reading.requests ++ others.requests, result := others.result }

end Clause

namespace CompiledQuery

open Query

/-- Reads clauses in order. -/
def readClauses : List Text → Reading (List Clause)
  | [] => { requests := [], result := .ok [] }
  | s :: rest =>
    let reading := Clause.read s
    match reading.result with
    | .error e => { requests := reading.requests, result := .error e }
    | .ok clause =>
      let others := readClauses rest
      { requests := reading.requests ++ others.requests
        result := others.result.map fun clauses => clause :: clauses }

/-- Reads a canonical text. -/
def read (s : Text) : Reading CompiledQuery :=
  let reading := readClauses (Text.splitOn " OR " s)
  { requests := reading.requests, result := reading.result.map CompiledQuery.mk }

end CompiledQuery

/-- What compiling a text comes to: a query, or none for a blank text, or an error; and the
requests that are open, also after an error. -/
structure Compilation where
  result : Except QueryError (Option CompiledQuery)
  requests : List OptionRequest

namespace Compilation

/-- The compiled query, if there is one. -/
def query? (c : Compilation) : Option CompiledQuery :=
  match c.result with
  | .ok query => query
  | .error _ => none

/-- The error, if there is one. -/
def error? (c : Compilation) : Option QueryError :=
  match c.result with
  | .ok _ => none
  | .error e => some e

end Compilation

/-- Compiles the text of a query. A number that cannot be read is no error in the query: it ends
compiling, and nothing comes of it. -/
def compile (text : Text) (flags : DisplayFlags := {}) : Except UnreadableNumber Compilation :=
  match Query.canonical text with
  | [] => .ok { result := .ok none, requests := [] }
  | s =>
    let reading := CompiledQuery.read s
    let requests := reading.requests.foldl flags.collect []
    match reading.result with
    | .ok query => .ok { result := .ok (some query), requests }
    | .error (.error e) => .ok { result := .error e, requests }
    | .error (.number fault) => .error fault

end MeshLens
