import Ambient.Json.Layout
import Ambient.Overrides

/-!
# Writing override tables

All four tables are written, in their fixed order and with sets and maps
sorted, so the text can be kept, edited and read back.
-/

namespace Ambient

open Json

/-- A rule at a depth; a rule for all categories names none. -/
def ExtendsRule.layout (depth : Nat) (r : ExtendsRule) : List Char :=
  layoutObject depth (
    [("names", layoutList (depth + 1) (r.names.toList.map layoutText)),
     ("base", layoutText r.base)] ++
    match r.category with
    | none => []
    | some c => [("category", layoutText c)])

def Overrides.layout (o : Overrides) : List Char :=
  layoutObject 0
    [("any_types", layoutList 1 (o.anyTypes.toList.map layoutText)),
     ("extends", layoutList 1 (o.extensions.map (·.layout 2))),
     ("commented_exports",
       layoutObject 1 (o.commentedExports.entries.map fun e => (e.1, layoutText e.2))),
     ("duplicate_params", layoutList 1 (o.duplicateParameters.map layoutText))]

def Overrides.toText (o : Overrides) : String :=
  String.ofList o.layout

end Ambient
