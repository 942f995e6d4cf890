/-!
# What is wrong with a document
-/

namespace MeshLens.Yaml

/-- Why a document cannot be read. -/
inductive YamlError
  /-- A character that must not occur in a document. -/
  | character
  /-- Something that is no part of the notation, or stands where it must not. -/
  | token
  /-- Parts that do not fit together. -/
  | arrangement
  /-- A reference without an anchor, an anchor given twice, or a second document. -/
  | reference
  /-- A value that its tag does not allow. -/
  | value
  /-- A number, a moment or the code of a character that does not exist. -/
  | number
  /-- The code of a character that is out of all bounds. -/
  | hugeCode
  /-- A number that is spelled by nothing. -/
  | emptyNumber
  /-- A truth value that is no word for one. -/
  | truthWord
  /-- A moment that is not spelled like one. -/
  | momentText
  /-- Lists and objects within each other beyond measure. -/
  | depth
  deriving DecidableEq, Repr

end MeshLens.Yaml
