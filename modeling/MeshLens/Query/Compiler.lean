import MeshLens.Notice
import MeshLens.Query.Compile

/-!
# Compiling for the two inputs

Each input shows the message of its last compilation, when that failed.
-/

namespace MeshLens

namespace Compilation

/-- What a compilation reports: the selector or the fault, and nothing for a blank text. -/
def notices (c : Compilation) (channel : Channel) (text : Text) : List Notice :=
  match c.result with
  | .error e => [.rejected channel text e]
  | .ok none => []
  | .ok (some query) => [.compiled channel query.render]

end Compilation

/-- The error messages shown at the inputs. -/
structure Compiler where
  messages : PerChannel (Option Text) := .both none
  deriving DecidableEq, Repr

namespace Compiler

/-- The message that an input shows for an error. -/
def messageOf (channel : Channel) (e : QueryError) : Text :=
  channel.label ++ ": " ++ e.message

/-- The message shown at an input. -/
def message (c : Compiler) (channel : Channel) : Option Text :=
  c.messages.get channel

/-- Takes the message of an input away. -/
def clear (c : Compiler) (channel : Channel) : Compiler :=
  { c with messages := c.messages.set channel none }

/-- Compiles the text of an input; its message is that of this compilation from now on. The message
stays when a number cannot be read. -/
def compile (c : Compiler) (channel : Channel) (text : Text) (flags : DisplayFlags) :
    Except UnreadableNumber (Compilation × Compiler) :=
  (MeshLens.compile text flags).map fun compilation =>
    (compilation,
      { c with messages := c.messages.set channel (compilation.error?.map (messageOf channel)) })

end Compiler

end MeshLens
