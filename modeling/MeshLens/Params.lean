import MeshLens.Entries
import MeshLens.Url.Form
import MeshLens.Url.Location

/-!
# Query parameters

The confirmed texts of a session are kept as named parameters, either on their own or in the query
of a URL. Parameters keep their order, and those of other names are left alone.
-/

namespace MeshLens

/-- Named parameters, and the URL in whose query they are kept, if they are. -/
structure Params where
  location : Option Url.Location := none
  values : Entries Text := []

namespace Params

/-- Parameters on their own. -/
def ofValues (values : Entries Text) : Params :=
  { values }

/-- The parameters in the query of a URL; of a name that comes twice the last value counts. -/
def ofUrl (url : Text) : Except Url.UrlError Params :=
  (Url.Location.parse url).map fun location =>
    { location := some location
      values := .ofPairs (Url.decodePairs location.query) }

/-- The value of a parameter. -/
def get? (p : Params) (name : Text) : Option Text :=
  p.values.get? name

/-- Sets a parameter. -/
def set (p : Params) (name value : Text) : Params :=
  { p with values := p.values.set name value }

/-- Takes a parameter out. -/
def erase (p : Params) (name : Text) : Params :=
  { p with values := p.values.erase name }

/-- The parameters as a query. -/
def query (p : Params) : Text :=
  Url.encodePairs p.values

/-- The URL with the current parameters in its query, for parameters that are kept in one. -/
def url? (p : Params) : Option Text :=
  p.location.map fun location => { location with query := p.query }.render

/-- The first halves of surrogate pairs in a name or a value, which no URL can hold. -/
def halfRun? (p : Params) : Option Text.HalfRun :=
  p.values.findSome? fun (name, value) =>
    (Text.halfRun? name).or (Text.halfRun? value)

end Params

end MeshLens
