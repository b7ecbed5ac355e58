import PropertyTables.Error
import PropertyTables.Text.Escaped

/-!
# Error reports

The form in which the command line shows an error: the name of its variant and its parts, each
text escaped.
-/

namespace PropertyTables

open Text

/-- A variant with named parts, each part already written. -/
def reportRecord (variant : String) (parts : List (String × String)) : String :=
  variant ++ " \x7b " ++ ", ".intercalate (parts.map fun (name, text) => name ++ ": " ++ text)
    ++ " \x7d"

def ConstantError.variant : ConstantError → String
  | .notConstant .. => "SchemaIntegrity"
  | .literal _ _ _ (.overflow _) => "EncodingOverflow"
  | .literal .. => "InvalidLiteral"

def Error.variant : Error → String
  | .width _ => "Options"
  | .integrity .. => "SchemaIntegrity"
  | .constant error => error.variant
  | .ambiguous .. => "AmbiguousName"
  | .constants .. => "ConstantsFailed"
  | .document => "Document"
  | .file => "Io"
  | .absent _ => "Absent"

def ConstantError.report (error : ConstantError) : String :=
  reportRecord error.variant <|
    match error with
    | .notConstant unit name =>
      [("unit", escape unit), ("element", escape name), ("msg", escape "not a constant")]
    | .literal unit constant value fault =>
      [("unit", escape unit), ("constant", escape constant), ("value", escape (quote value)),
        match fault with
        | .overflow bits => ("width", toString bits)
        | fault => ("msg", escape fault.message)]

def Error.report : Error → String
  | .width bits => s!"Options({escape (widthMessage bits)})"
  | .constant error => error.report
  | .integrity unit element cause =>
    reportRecord "SchemaIntegrity"
      [("unit", escape unit), ("element", escape element), ("msg", escape cause.message)]
  | .ambiguous unit symbol first second =>
    reportRecord "AmbiguousName"
      [("unit", escape unit), ("symbol", escape symbol), ("first", escape first),
        ("second", escape second)]
  | .constants unit errors =>
    reportRecord "ConstantsFailed"
      [("unit", escape unit),
        ("errors", "[" ++ ", ".intercalate (errors.map ConstantError.report) ++ "]")]
  | error => error.variant

end PropertyTables
