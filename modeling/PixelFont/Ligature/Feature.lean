import PixelFont.Ligature.Resolution

/-!
The rules of the ligature feature in text. A longer sequence of components comes before a shorter
one, so that it wins over its beginnings; sequences of one length are in order of their names.
-/

set_option autoImplicit false

namespace PixelFont

namespace Substitution

/-- Whether the rule of a substitution comes before that of another, or may. -/
def precedes (first second : Substitution) : Bool :=
  decide (second.components.length < first.components.length) ||
    (first.components.length == second.components.length &&
      !Text.listOfTextsBefore second.components first.components)

/-- The rule of a substitution. -/
def rule (substitution : Substitution) : String :=
  "    sub " ++ " ".intercalate substitution.components ++ " by " ++ substitution.ligature ++ ";"

/-- Substitutions in the order of their rules. -/
def inOrder (substitutions : List Substitution) : List Substitution :=
  substitutions.mergeSort precedes

end Substitution

/-- The text of the ligature feature, if there is a substitution. -/
def ligatureFeature? (substitutions : List Substitution) : Option String :=
  if substitutions.isEmpty then none
  else
    some ("\n".intercalate
      (["feature liga \x7b"] ++ (Substitution.inOrder substitutions).map Substitution.rule ++
        ["\x7d liga;"]))

end PixelFont
