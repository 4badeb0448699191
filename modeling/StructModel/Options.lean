/-!
# Options of an extraction
-/

namespace StructModel

/-- What happens when two fields of one aggregate have the same output key: the whole file is given
up, or the later field replaces the earlier one. -/
inductive DuplicatePolicy where
  | error
  | lastWins
  deriving DecidableEq, Repr

/-- The tag key is the name under which a tag gives the output key. -/
structure Options where
  tagKey : String := "msg"
  exportedOnly : Bool := false
  duplicateKeys : DuplicatePolicy := .error
  deriving DecidableEq, Repr

end StructModel
