import Ambient.TypeName
import Mathlib.Data.List.Induction
import Mathlib.Logic.Relation

/-!
# Where a type name is split

The markers behind a type name are taken off one at a time, from the right.  The
two markers end in different characters, so at most one of them stands at the
end of a name, and the order in which they are tried does not matter: a run of
this loop (`Strips`) gets shorter with every turn and can end in one place only.

That place is told without the loop.  `splitMarkers_is_maximal` says that a name
can be written in exactly one way as an element that ends in neither marker
(`Unmarked`) with markers behind it (`IsMarkers`), and that splitting finds it.
In a run of dots this decides how the dots are grouped: in threes from the
right, and what is left over stays with the element.
-/

namespace Ambient

/-! ## Elements and markers -/

def IsMarker (m : List Char) : Prop :=
  m = variadicMarker ∨ m = arrayMarker

/-- Markers, one behind the other. -/
def IsMarkers (suffix : List Char) : Prop :=
  ∃ ms : List (List Char), (∀ m ∈ ms, IsMarker m) ∧ suffix = ms.flatten

/-- An element ends in neither marker. -/
def Unmarked (element : List Char) : Prop :=
  ¬ variadicMarker <:+ element ∧ ¬ arrayMarker <:+ element

/-- One turn of the loop takes one marker off the end. -/
inductive Strips : List Char → List Char → Prop
  | marker {m : List Char} (name : List Char) : IsMarker m → Strips (name ++ m) name

theorem IsMarker.ne_nil {m : List Char} (h : IsMarker m) : m ≠ [] := by
  rcases h with rfl | rfl
  · exact List.cons_ne_nil _ _
  · exact List.cons_ne_nil _ _

theorem IsMarkers.nil : IsMarkers [] :=
  ⟨[], fun _ h => absurd h List.not_mem_nil, rfl⟩

theorem IsMarkers.append {suffix m : List Char} (h : IsMarkers suffix) (hm : IsMarker m) :
    IsMarkers (suffix ++ m) := by
  obtain ⟨ms, hms, rfl⟩ := h
  refine ⟨ms ++ [m], ?_, by rw [List.flatten_append, List.flatten_singleton]⟩
  intro x hx
  rcases List.mem_append.mp hx with hx | hx
  · exact hms x hx
  · exact List.mem_singleton.mp hx ▸ hm

/-! ## The loop -/

theorem Strips.length_lt {name rest : List Char} (h : Strips name rest) :
    rest.length < name.length := by
  cases h with
  | marker rest hm =>
      have hpositive := List.length_pos_iff.mpr hm.ne_nil
      rw [List.length_append]
      omega

/-- So the loop ends, whatever name it starts from. -/
theorem Strips.terminates : WellFounded fun rest before : List Char => Strips before rest :=
  Subrelation.wf (fun {_ _} h => h.length_lt) (measure List.length).wf

theorem exists_markers_of_strips {name rest : List Char}
    (h : Relation.ReflTransGen Strips name rest) : ∃ suffix, IsMarkers suffix ∧
      rest ++ suffix = name := by
  induction h using Relation.ReflTransGen.head_induction_on with
  | refl => exact ⟨[], .nil, List.append_nil rest⟩
  | head hturn _ ih =>
      cases hturn with
      | marker next hm =>
          obtain ⟨suffix, hsuffix, rfl⟩ := ih
          exact ⟨suffix ++ _, hsuffix.append hm, (List.append_assoc _ _ _).symm⟩

theorem strips_of_isMarkers {suffix : List Char} (element : List Char) (h : IsMarkers suffix) :
    Relation.ReflTransGen Strips (element ++ suffix) element := by
  obtain ⟨ms, hms, rfl⟩ := h
  induction ms using List.reverseRecOn with
  | nil =>
      rw [List.flatten_nil, List.append_nil]
  | append_singleton ms m ih =>
      have hm : IsMarker m := hms m (List.mem_append_right _ (List.mem_singleton_self m))
      rw [List.flatten_append, List.flatten_singleton, ← List.append_assoc]
      exact .head (.marker _ hm) (ih fun x hx => hms x (List.mem_append_left _ hx))

/-! ## What is left of a name -/

/-- A marker at the end makes no difference to what is left. -/
theorem stripMarkers_of_strips {name rest : List Char} (h : Strips name rest) :
    stripMarkers name.reverse = stripMarkers rest.reverse := by
  cases h with
  | marker rest hm =>
      rw [List.reverse_append]
      rcases hm with rfl | rfl
      · rfl
      · rfl

theorem stripMarkers_of_reflTransGen {name rest : List Char}
    (h : Relation.ReflTransGen Strips name rest) :
    stripMarkers name.reverse = stripMarkers rest.reverse := by
  induction h with
  | refl => rfl
  | tail _ hturn ih => exact ih.trans (stripMarkers_of_strips hturn)

theorem Unmarked.stripMarkers_eq {element : List Char} (h : Unmarked element) :
    stripMarkers element.reverse = element.reverse := by
  obtain ⟨hvariadic, harray⟩ := h
  unfold stripMarkers
  split
  · rename_i rest heq
    refine absurd ⟨rest.reverse, ?_⟩ hvariadic
    rw [← List.reverse_inj, heq, List.reverse_append, List.reverse_reverse]
    rfl
  · rename_i rest heq
    refine absurd ⟨rest.reverse, ?_⟩ harray
    rw [← List.reverse_inj, heq, List.reverse_append, List.reverse_reverse]
    rfl
  · rfl

theorem unmarked_stripMarkers (reversed : List Char) : Unmarked (stripMarkers reversed).reverse := by
  fun_induction stripMarkers reversed with
  | case1 rest ih => exact ih
  | case2 rest ih => exact ih
  | case3 rest hvariadic harray =>
      -- Neither pattern of the recursion fits, so neither marker begins the reversed name.
      constructor
      · rintro ⟨start, hstart⟩
        refine hvariadic start.reverse ?_
        rw [← List.reverse_reverse rest, ← hstart, List.reverse_append]
        rfl
      · rintro ⟨start, hstart⟩
        refine harray start.reverse ?_
        rw [← List.reverse_reverse rest, ← hstart, List.reverse_append]
        rfl

theorem strips_stripMarkers (reversed : List Char) :
    Relation.ReflTransGen Strips reversed.reverse (stripMarkers reversed).reverse := by
  fun_induction stripMarkers reversed with
  | case1 rest ih =>
      have hname : ('.' :: '.' :: '.' :: rest).reverse = rest.reverse ++ variadicMarker := by
        simp [variadicMarker]
      rw [hname]
      exact .head (.marker _ (.inl rfl)) ih
  | case2 rest ih =>
      have hname : (']' :: '[' :: rest).reverse = rest.reverse ++ arrayMarker := by
        simp [arrayMarker]
      rw [hname]
      exact .head (.marker _ (.inr rfl)) ih
  | case3 rest => exact .refl

/-! ## The split -/

theorem unmarked_splitMarkers (name : List Char) : Unmarked (splitMarkers name).1 :=
  unmarked_stripMarkers name.reverse

theorem strips_splitMarkers (name : List Char) :
    Relation.ReflTransGen Strips name (splitMarkers name).1 := by
  have hstrips := strips_stripMarkers name.reverse
  rwa [List.reverse_reverse] at hstrips

theorem exists_markers_splitMarkers (name : List Char) : ∃ suffix, IsMarkers suffix ∧
    (splitMarkers name).2 = suffix ∧ (splitMarkers name).1 ++ suffix = name := by
  obtain ⟨suffix, hsuffix, hname⟩ := exists_markers_of_strips (strips_splitMarkers name)
  have hdrop : ((splitMarkers name).1 ++ suffix).drop (splitMarkers name).1.length = suffix :=
    List.drop_left
  rw [hname] at hdrop
  exact ⟨suffix, hsuffix, hdrop, hname⟩

theorem splitMarkers_eq (name : List Char) :
    (splitMarkers name).1 ++ (splitMarkers name).2 = name := by
  obtain ⟨suffix, -, hsplit, hname⟩ := exists_markers_splitMarkers name
  rw [hsplit, hname]

theorem isMarkers_splitMarkers (name : List Char) : IsMarkers (splitMarkers name).2 := by
  obtain ⟨suffix, hsuffix, hsplit, -⟩ := exists_markers_splitMarkers name
  exact hsplit ▸ hsuffix

/-- Wherever the loop stops, it has found the element. -/
theorem eq_splitMarkers_of_strips {name element : List Char}
    (h : Relation.ReflTransGen Strips name element) (hunmarked : Unmarked element) :
    element = (splitMarkers name).1 := by
  have hleft : stripMarkers name.reverse = element.reverse :=
    (stripMarkers_of_reflTransGen h).trans hunmarked.stripMarkers_eq
  show element = (stripMarkers name.reverse).reverse
  rw [hleft, List.reverse_reverse]

/-- Splitting finds the one element without markers that has markers behind it. -/
theorem splitMarkers_eq_iff {name element suffix : List Char} :
    splitMarkers name = (element, suffix) ↔
      element ++ suffix = name ∧ IsMarkers suffix ∧ Unmarked element := by
  constructor
  · intro h
    have hname := splitMarkers_eq name
    have hmarkers := isMarkers_splitMarkers name
    have hunmarked := unmarked_splitMarkers name
    rw [h] at hname hmarkers hunmarked
    exact ⟨hname, hmarkers, hunmarked⟩
  · rintro ⟨rfl, hmarkers, hunmarked⟩
    have helement : element = (splitMarkers (element ++ suffix)).1 :=
      eq_splitMarkers_of_strips (strips_of_isMarkers element hmarkers) hunmarked
    have hsplit : (splitMarkers (element ++ suffix)).1 ++ (splitMarkers (element ++ suffix)).2 =
        element ++ suffix := splitMarkers_eq _
    rw [← helement] at hsplit
    exact Prod.ext helement.symm (List.append_cancel_left hsplit)

/-- **The split of a type name is the only one.**  The loop that takes markers
off ends from every name, and it ends in the element of the split and nowhere
else.  The element and the markers behind it are the one way to write the name
as something that ends in neither marker, followed by markers.  So the element
is not split any further, and the table of types that become `any` acts on the
element and leaves the markers as they are. -/
theorem splitMarkers_is_maximal (o : Overrides) (name : List Char) :
    Acc (fun rest before => Strips before rest) name ∧
      (∀ element, Relation.ReflTransGen Strips name element ∧ Unmarked element ↔
        element = (splitMarkers name).1) ∧
      (∀ element suffix, splitMarkers name = (element, suffix) ↔
        element ++ suffix = name ∧ IsMarkers suffix ∧ Unmarked element) ∧
      splitMarkers (splitMarkers name).1 = ((splitMarkers name).1, []) ∧
      o.substituteAny name =
        if String.ofList (splitMarkers name).1 ∈ o.anyTypes then
          "any".toList ++ (splitMarkers name).2
        else name := by
  refine ⟨Strips.terminates.apply name, ?_, fun _ _ => splitMarkers_eq_iff, ?_, ?_⟩
  · intro element
    constructor
    · rintro ⟨hstrips, hunmarked⟩
      exact eq_splitMarkers_of_strips hstrips hunmarked
    · rintro rfl
      exact ⟨strips_splitMarkers name, unmarked_splitMarkers name⟩
  · exact splitMarkers_eq_iff.mpr ⟨List.append_nil _, .nil, unmarked_splitMarkers name⟩
  · have htable : String.ofList (splitMarkers name).1 ∈ o.anyTypes ↔
        o.isAny (String.ofList (splitMarkers name).1) = true :=
      List.contains_iff_mem.symm
    cases hany : o.isAny (String.ofList (splitMarkers name).1) with
    | true =>
        rw [if_pos (htable.mpr hany)]
        exact if_pos hany
    | false =>
        rw [if_neg fun hmem => Bool.eq_false_iff.mp hany (htable.mp hmem)]
        exact if_neg (Bool.eq_false_iff.mp hany)

/-- Five dots are an element of two and one marker. -/
example : splitMarkers "Cell[].....".toList = ("Cell[]..".toList, "...".toList) := by decide

end Ambient
