import TypedMarkup.Compile
import TypedMarkup.Report.Basic

/-! # Reports on errors and diagnostics -/
namespace TypedMarkup
set_option autoImplicit false

/-- What could have stood there instead is added to the label. -/
def SyntaxError.report (e : SyntaxError) : Report where
  code := none
  message := e.message
  span := e.span
  label :=
    if e.expected.isEmpty then e.message
    else e.message ++ "\nExpected: " ++ ", ".intercalate e.expected

def DeclarationError.report (e : DeclarationError) : Report where
  code := none
  message := e.message
  span := e.span
  label := e.label

def Diagnostic.report (d : Diagnostic) : Report where
  code := some d.problem.code
  message := d.message
  span := d.span
  label := d.problem.name

/-- One report for each error, in order. -/
def CompileError.reports : CompileError → List Report
  | .malformed _ errors => errors.map SyntaxError.report
  | .declaration _ e => [e.report]

end TypedMarkup
