/-!
# Codes

Every kind of diagnostic has a code: `E` for errors, `W` for warnings.  `Code.explanation?` gives
the text that explains one; the letters of a code may be of either case.
-/

set_option autoImplicit false

namespace UnitCheck

namespace Code

/-! ## The codes

`E01` is for units that cannot be read or built, `E10` for names and types, `E19` for what is not
supported yet. -/

/-- A unit file that cannot be read. -/
def unreadableUnit : String := "E0100"

/-- A text that is not the document of a unit. -/
def malformedUnit : String := "E0101"

/-- A scope that does not exist. -/
def unknownScope : String := "E0102"

/-- A name declared twice in one scope. -/
def duplicateDeclaration : String := "E0103"

/-- A query where a declaration is due. -/
def queryDeclaration : String := "E0104"

/-- A name with no declaration of a variable. -/
def unresolvedName : String := "E1002"

/-- A call of something that is not a lambda. -/
def notCallable : String := "E1013"

/-- A form of expression that is not resolved yet. -/
def notSupported : String := "E1900"

/-- A declaration that hides one further out. -/
def shadowedDeclaration : String := "W0006"

/-! ## Explanations -/

/-- A text from its lines, each ended by a line feed. -/
def ofLines (lines : List String) : String := String.join (lines.map (· ++ "\n"))

/-- Each code with the lines that explain it. -/
def explanations : List (String × List String) := [
  (unreadableUnit, [
    "E0100: Unreadable unit",
    "",
    "The unit file could not be read from disk.",
    "",
    "Fix: Check that the path exists and is readable."]),
  (malformedUnit, [
    "E0101: Malformed unit",
    "",
    "The unit file is not a valid JSON compilation unit. Expressions need a",
    "\"type\" tag (Literal, Lambda, Variable or Call) and declarations need a",
    "\"kind\" tag (variable or type_name)."]),
  (unknownScope, [
    "E0102: Unknown scope",
    "",
    "A scope or expression refers to a scope that does not exist. Scope 0 is",
    "the root; the nth entry of \"scopes\" is scope n and may only name an",
    "earlier scope as its parent."]),
  (duplicateDeclaration, [
    "E0103: Duplicate declaration",
    "",
    "The same name is declared twice in one scope. Declaring it again in a",
    "nested scope is allowed and shadows the outer declaration (see W0006)."]),
  (queryDeclaration, [
    "E0104: Query declaration",
    "",
    "A unit declares an entry of kind \"query\". Query declarations are the",
    "dependency tokens produced by `bcc deps`; they name what an expression",
    "needs in scope and cannot themselves be declared.",
    "",
    "Fix: Declare the name as a variable or type_name."]),
  (unresolvedName, [
    "E1002: Unresolved name",
    "",
    "A variable reference could not be resolved to a variable declaration.",
    "Either no enclosing scope declares the name, the innermost declaration",
    "is not a variable (for example a type name), or the expression was",
    "never bound to a scope.",
    "",
    "Example:",
    "  x + 1    # no `x` in scope",
    "",
    "Fix: Declare the variable in the expression's scope or an enclosing one."]),
  (notCallable, [
    "E1013: Receiver is not callable",
    "",
    "The receiver of a function call does not have a lambda type.",
    "",
    "Example:",
    "  let x: i32",
    "  x()      # i32 is not a lambda",
    "",
    "Fix: Call a value whose type is a lambda (params->ret)."]),
  (notSupported, [
    "E1900: Not supported yet",
    "",
    "The construct is recognised but its type cannot be computed yet. This",
    "currently applies to lambda expressions, including lambdas used as the",
    "receiver of a call."]),
  (shadowedDeclaration, [
    "W0006: Shadowed declaration",
    "",
    "A declaration in a nested scope hides a declaration of the same name in",
    "an enclosing scope. Lookups from the nested scope see the inner one."])]

/-- The explanation of a code, whatever the case of its letters. -/
def explanation? (code : String) : Option String :=
  (explanations.lookup (code.map Char.toUpper)).map ofLines

end Code

end UnitCheck
