import Dialogue.Pattern.Reader
import Dialogue.Pattern.Meaning
/-!
# Engines for patterns

The rest of the library knows patterns only through a `PatternEngine`: it compiles a pattern to a
test of texts, or refuses it with a reason. What holds of a run holds for every engine.
`PatternEngine.standard` is the one that programs use.
-/

namespace Dialogue

/-- Compiles patterns to tests of texts. -/
structure PatternEngine where
  compile : String → Except String (String → Bool)

namespace PatternEngine

/-- Can the pattern be compiled? -/
def accepts (e : PatternEngine) (pattern : String) : Bool :=
  match e.compile pattern with
  | .ok _ => true
  | .error _ => false

/-- The test of a regular expression, if it is one. -/
def regex? (pattern : String) : Option (String → Bool) := do
  let a ← Pattern.Ast.read? pattern
  let e ← a.meaning?
  return fun text => e.isMatch text.toList

/-- The engine for regular expressions. -/
def standard : PatternEngine where
  compile pattern :=
    match regex? pattern with
    | some test => .ok test
    | none => .error "<regex error>"

end PatternEngine

end Dialogue
