/-!
# References to fields

A field is named by its model and its own name, written `Model:field`.
-/

namespace SqlCompose

/-- Names a field through its model. -/
structure FieldRef where
  model : String
  field : String
deriving DecidableEq, Repr, Inhabited

/-- The written form `Model:field`, also the name of a projected column. -/
def FieldRef.text (ref : FieldRef) : String := ref.model ++ ":" ++ ref.field

end SqlCompose
