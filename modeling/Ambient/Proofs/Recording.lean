import Ambient.ModuleFile
import Mathlib.Data.List.Basic

/-!
# Rendering without state

Rendering threads the references of a module through every member it writes.
Here the two things it does are told apart: what an action yields, and which
categories it meets.

`Records act value keys` says both at once: from any references, `act` yields
`value` and leaves them with `keys` inserted in that order.  It is kept by
`pure`, by sequencing and by `mapM`, so each rendering function gets its
equation from those of the functions it calls, and the module of a category is
what `Scope.draft_eq` says: no line of it depends on what was met before.
-/

namespace Ambient

/-! ## Categories that are met -/

namespace References

variable {r : References} {key : String}

theorem insertNew_of_mem (h : key ∈ r.keys) : r.insertNew key = (false, r) :=
  if_pos (List.contains_iff_mem.mpr h)

theorem insertNew_of_not_mem (h : key ∉ r.keys) :
    r.insertNew key = (true, ⟨r.keys ++ [key]⟩) :=
  if_neg (mt List.contains_iff_mem.mp h)

theorem keys_insert (r : References) (key : String) :
    (r.insert key).keys = r.keys ++ if key ∈ r.keys then [] else [key] := by
  rw [insert]
  by_cases h : key ∈ r.keys
  · rw [insertNew_of_mem h, if_pos h, List.append_nil]
  · rw [insertNew_of_not_mem h, if_neg h]

/-- The references after several categories have been met. -/
def insertAll (r : References) (keys : List String) : References :=
  keys.foldl insert r

theorem insertAll_append (r : References) (keys more : List String) :
    r.insertAll (keys ++ more) = (r.insertAll keys).insertAll more :=
  List.foldl_append

end References

/-! ## Actions that yield and record -/

/-- From any references, an action yields a value and meets some categories. -/
def Records {α : Type} (act : StateM References α) (value : α) (keys : List String) : Prop :=
  ∀ r : References, act.run r = (value, r.insertAll keys)

namespace Records

variable {α β : Type} {act : StateM References α} {value : α} {keys : List String}

theorem pure (value : α) : Records (Pure.pure value) value [] :=
  fun _ => rfl

theorem bind {next : α → StateM References β} {result : β} {more : List String}
    (h : Records act value keys) (hnext : Records (next value) result more) :
    Records (act >>= next) result (keys ++ more) := by
  intro r
  rw [StateT.run_bind, h r, References.insertAll_append]
  exact hnext _

theorem map {f : α → β} (h : Records act value keys) :
    Records (act >>= fun a => Pure.pure (f a)) (f value) keys := by
  have hlast : Records (act >>= fun a => Pure.pure (f a)) (f value) (keys ++ []) :=
    h.bind (.pure (f value))
  rwa [List.append_nil] at hlast

/-- Members that are rendered in a row meet their categories in a row. -/
theorem mapM {f : α → StateM References β} {g : α → β} {k : α → List String}
    (h : ∀ a, Records (f a) (g a) (k a)) :
    ∀ l : List α, Records (l.mapM f) (l.map g) (l.flatMap k)
  | [] => by
      rw [List.mapM_nil]
      exact .pure []
  | a :: l => by
      rw [List.mapM_cons, List.map_cons, List.flatMap_cons]
      exact (h a).bind (mapM h l).map

end Records

/-! ## What a reference needs and how it is written -/

namespace Scope

/-- The category that a reference makes a module depend on: its owner, where
this is another category. -/
def foreignOwner? (s : Scope) (t : TypeRef) : Option String :=
  t.category.filter (· != s.category)

/-- The name of a type as seen from the category. -/
def qualifiedName (s : Scope) (t : TypeRef) : String :=
  match s.foreignOwner? t with
  | none => t.name
  | some owner => s.description.displayNameOf owner ++ "." ++ t.name

/-- A member with the type it refers to. -/
def typed (s : Scope) (name : String) (t : TypeRef) (site : Site) : String :=
  s.annotate name t site (s.qualifiedName t)

theorem records_qualify (s : Scope) (t : TypeRef) :
    Records (s.qualify t) (s.qualifiedName t) (s.foreignOwner? t).toList := by
  intro r
  unfold qualify qualifiedName foreignOwner?
  cases hc : t.category with
  | none => rfl
  | some owner =>
      by_cases howner : owner = s.category
      · simp only [howner, if_true, Option.filter_some, bne_self_eq_false]
        rfl
      · have hbne : (owner != s.category) = true := bne_iff_ne.mpr howner
        simp only [howner, if_false, Option.filter_some, hbne, if_true]
        rfl

theorem records_typedName (s : Scope) (name : String) (t : TypeRef) (site : Site) :
    Records (s.typedName name t site) (s.typed name t site) (s.foreignOwner? t).toList :=
  (s.records_qualify t).map

end Scope

/-! ## The references in a declaration -/

/-- The types that a method refers to: those of its parameters, then its result. -/
def Method.typeRefs (m : Method) : List TypeRef :=
  m.parameters.map (·.type) ++ [m.returnType]

/-- The types that a declaration refers to where it is rendered: the types of
all properties, then those of the methods that are not deprecated.  The
constants of an enum are written without type. -/
def Declaration.typeRefs (d : Declaration) : List TypeRef :=
  match d.kind with
  | .enum => []
  | .interface =>
      d.properties.map (·.type) ++ (d.methods.filter (!·.isDeprecated)).flatMap Method.typeRefs

/-- The types that a category refers to, declaration after declaration. -/
def Category.typeRefs (c : Category) : List TypeRef :=
  c.present.flatMap fun e => e.2.typeRefs

namespace Scope

/-- The categories that some references need, in order. -/
def owners (s : Scope) (ts : List TypeRef) : List String :=
  ts.filterMap s.foreignOwner?

theorem owners_append (s : Scope) (ts us : List TypeRef) :
    s.owners (ts ++ us) = s.owners ts ++ s.owners us :=
  List.filterMap_append

theorem flatMap_owners {α : Type} (s : Scope) (f : α → List TypeRef) (l : List α) :
    l.flatMap (fun a => s.owners (f a)) = s.owners (l.flatMap f) :=
  List.filterMap_flatMap.symm

theorem flatMap_owner {α : Type} (s : Scope) (f : α → TypeRef) (l : List α) :
    l.flatMap (fun a => (s.foreignOwner? (f a)).toList) = s.owners (l.map f) := by
  rw [owners, List.filterMap_map]
  exact (List.filterMap_eq_flatMap_toList (s.foreignOwner? ∘ f) l).symm

theorem owners_singleton (s : Scope) (t : TypeRef) :
    s.owners [t] = (s.foreignOwner? t).toList := by
  rw [← List.append_nil (s.foreignOwner? t).toList]
  exact (s.flatMap_owner id [t]).symm

/-! ## The lines of a declaration -/

def propertyLine (s : Scope) (p : Property) : String :=
  (if p.isDeprecated then deprecationNotice else "") ++ s.typed p.name p.type .field ++ ";"

/-- The parameters of a method with their types, before the patch. -/
def typedParameters (s : Scope) (m : Method) : List String :=
  m.parameters.map fun p => s.typed p.name p.type .parameter

def parameterList (s : Scope) (m : Method) : String :=
  ParameterPatch.applyAll s.settings.overrides.duplicateParameters
    (", ".intercalate (s.typedParameters m))

/-- A method with its parameters and the type of its result. -/
def signature (s : Scope) (m : Method) : String :=
  s.typed (m.name ++ "(" ++ s.parameterList m ++ ")") m.returnType .result

def methodLines (s : Scope) (m : Method) : List String :=
  m.docBlock ++ [s.signature m ++ ";"]

def memberLines (s : Scope) (d : Declaration) : List String :=
  (d.properties.map s.propertyLine).map ("  " ++ ·) ++
    ((d.methods.filter (!·.isDeprecated)).map s.methodLines).flatMap fun lines =>
      "" :: lines.map ("  " ++ ·)

def interfaceLines (s : Scope) (name : String) (d : Declaration) : List String :=
  if (s.memberLines d).isEmpty then [s.interfaceHead name ++ " " ++ closeBrace]
  else [s.interfaceHead name] ++ s.memberLines d ++ [closeBrace]

/-- The lines of a declaration inside its namespaces. -/
def bodyLines (s : Scope) (name : String) (d : Declaration) : List String :=
  match d.kind with
  | .enum => [renderEnum name d]
  | .interface => s.interfaceLines name d

/-- The line that opens a namespace around a declaration. -/
def wrapperOpening (name : String) : String :=
  "namespace " ++ name ++ openBrace

/-- The lines of a declaration: its documentation, the opening of each
namespace, the declaration itself, and the closing of each namespace. -/
def declarationLines (s : Scope) (key : String) (d : Declaration) : List String :=
  docBlock d.doc ++ (KeyPath.ofKey key).namespaces.map wrapperOpening ++
    s.bodyLines (KeyPath.ofKey key).leaf d ++
    (KeyPath.ofKey key).namespaces.map fun _ => closeBrace

def block (s : Scope) (e : String × Declaration) : Block :=
  ⟨e.1, s.declarationLines e.1 e.2⟩

/-! ## Each renderer yields its lines and meets its references -/

theorem records_renderProperty (s : Scope) (p : Property) :
    Records (s.renderProperty p) (s.propertyLine p) (s.foreignOwner? p.type).toList :=
  (s.records_typedName p.name p.type .field).map

theorem records_renderParameters (s : Scope) (m : Method) :
    Records (s.renderParameters m) (s.parameterList m) (s.owners (m.parameters.map (·.type))) := by
  rw [← flatMap_owner]
  exact (Records.mapM (fun p : Parameter => s.records_typedName p.name p.type .parameter) _).map

theorem records_renderSignature (s : Scope) (m : Method) :
    Records (s.renderSignature m) (s.signature m) (s.owners m.typeRefs) := by
  rw [Method.typeRefs, owners_append, owners_singleton]
  exact (s.records_renderParameters m).bind (s.records_typedName _ m.returnType .result)

theorem records_renderMethod (s : Scope) (m : Method) :
    Records (s.renderMethod m) (s.methodLines m) (s.owners m.typeRefs) :=
  (s.records_renderSignature m).map

theorem records_renderMembers (s : Scope) (d : Declaration) :
    Records (s.renderMembers d) (s.memberLines d)
      (s.owners (d.properties.map (·.type) ++
        (d.methods.filter (!·.isDeprecated)).flatMap Method.typeRefs)) := by
  rw [owners_append, ← flatMap_owner, ← flatMap_owners]
  exact (Records.mapM s.records_renderProperty d.properties).bind
    (Records.mapM s.records_renderMethod _).map

theorem records_renderInterface (s : Scope) (name : String) (d : Declaration) :
    Records (s.renderInterface name d) (s.interfaceLines name d)
      (s.owners (d.properties.map (·.type) ++
        (d.methods.filter (!·.isDeprecated)).flatMap Method.typeRefs)) := by
  rw [← List.append_nil (s.owners _)]
  refine (s.records_renderMembers d).bind ?_
  unfold interfaceLines
  split
  · exact .pure _
  · exact .pure _

theorem records_renderDeclaration (s : Scope) (key : String) (d : Declaration) :
    Records (s.renderDeclaration key d) (s.declarationLines key d) (s.owners d.typeRefs) := by
  unfold renderDeclaration declarationLines bodyLines Declaration.typeRefs
  cases d.kind with
  | enum => exact (Records.pure _).map
  | interface => exact (s.records_renderInterface _ d).map

theorem records_renderBlocks (s : Scope) (c : Category) :
    Records (s.renderBlocks c) (c.present.map s.block) (s.owners c.typeRefs) := by
  rw [Category.typeRefs, ← flatMap_owners]
  exact Records.mapM (fun e : String × Declaration => (s.records_renderDeclaration e.1 e.2).map) _

/-- **The parts of a module**, each from the category alone. -/
theorem draft_eq (s : Scope) (c : Category) :
    s.draft c =
      { category := s.category
        displayName := c.displayName
        references := (References.start s.settings.foundational).insertAll (s.owners c.typeRefs)
        blocks := c.present.map s.block
        exports := exportedNames s.description.services c } := by
  unfold draft
  rw [s.records_renderBlocks c]

end Scope

end Ambient
