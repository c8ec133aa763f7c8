import Ambient.Proofs.MarkerSplitting
import Ambient.Proofs.Recording
import Mathlib.Data.List.Basic

/-!
# Types with markers

A type name is an element with array markers and perhaps a variadic marker
behind it.  An element that ends in an identifier character stays apart from
its markers in every step: the markers are split off again, the variadic one
becomes one more array marker, and only an element that is exactly a primitive
type is lowercased.  So the steps act on the element alone
(`Scope.annotate_markers`).
-/

namespace Ambient

/-! ## Markers -/

def arrayMarkers (k : Nat) : List Char :=
  (List.replicate k arrayMarker).flatten

/-- Array markers, and the variadic marker behind them where it is asked for. -/
def markers (k : Nat) (variadic : Bool) : List Char :=
  arrayMarkers k ++ if variadic then variadicMarker else []

/-- The number of array markers that are written: a variadic type is an array. -/
def arrayDepth (k : Nat) (variadic : Bool) : Nat :=
  if variadic then k + 1 else k

theorem arrayMarkers_succ (k : Nat) : arrayMarkers (k + 1) = arrayMarkers k ++ arrayMarker := by
  rw [arrayMarkers, List.replicate_succ', List.flatten_append, List.flatten_singleton]
  rfl

theorem isMarkers_arrayMarkers (k : Nat) : IsMarkers (arrayMarkers k) :=
  ⟨List.replicate k arrayMarker, fun _ hm => .inr (List.eq_of_mem_replicate hm), rfl⟩

theorem isMarkers_markers (k : Nat) (variadic : Bool) : IsMarkers (markers k variadic) := by
  cases variadic with
  | false =>
      rw [markers, if_neg Bool.false_ne_true, List.append_nil]
      exact isMarkers_arrayMarkers k
  | true =>
      rw [markers, if_pos rfl]
      exact (isMarkers_arrayMarkers k).append (.inl rfl)

theorem mem_arrayMarkers {k : Nat} {c : Char} (h : c ∈ arrayMarkers k) : c = '[' ∨ c = ']' := by
  obtain ⟨m, hm, hc⟩ := List.mem_flatten.mp h
  rw [List.eq_of_mem_replicate hm] at hc
  simpa [arrayMarker] using hc

theorem isIdentifierChar_of_mem_arrayMarkers {k : Nat} {c : Char} (h : c ∈ arrayMarkers k) :
    isIdentifierChar c = false := by
  rcases mem_arrayMarkers h with rfl | rfl
  · decide
  · decide

def EndsInIdentifier (name : List Char) : Prop :=
  ∃ c, name.getLast? = some c ∧ isIdentifierChar c = true

namespace EndsInIdentifier

variable {name : List Char}

theorem append (start : List Char) (h : EndsInIdentifier name) :
    EndsInIdentifier (start ++ name) := by
  obtain ⟨c, hlast, hc⟩ := h
  exact ⟨c, by rw [List.getLast?_append, hlast, Option.some_or], hc⟩

theorem ne_nil (h : EndsInIdentifier name) : name ≠ [] := by
  obtain ⟨c, hlast, -⟩ := h
  rintro rfl
  exact nomatch hlast

theorem unmarked (h : EndsInIdentifier name) : Unmarked name := by
  obtain ⟨c, hlast, hc⟩ := h
  constructor
  · rintro ⟨start, rfl⟩
    rw [List.getLast?_append] at hlast
    obtain rfl : '.' = c := Option.some.inj hlast
    exact absurd hc (by decide)
  · rintro ⟨start, rfl⟩
    rw [List.getLast?_append] at hlast
    obtain rfl : ']' = c := Option.some.inj hlast
    exact absurd hc (by decide)

theorem eq_nil_of_append {start extra : List Char} (h : EndsInIdentifier (start ++ extra))
    (hextra : ∀ c ∈ extra, isIdentifierChar c = false) : extra = [] := by
  obtain ⟨c, hlast, hc⟩ := h
  by_contra hne
  rw [List.getLast?_append, List.getLast?_eq_some_getLast hne, Option.some_or] at hlast
  have hnone := hextra _ (List.getLast_mem hne)
  rw [Option.some.inj hlast, hc] at hnone
  exact Bool.noConfusion hnone

end EndsInIdentifier

/-! ## Splitting markers off -/

section Split

variable {element : List Char}

theorem splitMarkers_append (h : EndsInIdentifier element) (k : Nat) (variadic : Bool) :
    splitMarkers (element ++ markers k variadic) = (element, markers k variadic) :=
  splitMarkers_eq_iff.mpr ⟨rfl, isMarkers_markers k variadic, h.unmarked⟩

/-- A type is variadic by its last marker. -/
theorem variadicElement?_append (h : EndsInIdentifier element) (k : Nat) (variadic : Bool) :
    variadicElement? (element ++ markers k variadic) =
      if variadic then some (element ++ arrayMarkers k) else none := by
  cases variadic with
  | true =>
      have hne : (element ++ arrayMarkers k).reverse ≠ [] := by
        simp [h.ne_nil]
      obtain ⟨c, rest, hrest⟩ := List.exists_cons_of_ne_nil hne
      rw [markers, if_pos rfl, ← List.append_assoc, variadicElement?, List.reverse_append, hrest]
      show some (c :: rest).reverse = _
      rw [← hrest, List.reverse_reverse]
      rfl
  | false =>
      rw [markers, if_neg Bool.false_ne_true, List.append_nil]
      cases k with
      | zero =>
          obtain ⟨c, hlast, hc⟩ := h
          obtain ⟨start, rfl⟩ := List.getLast?_eq_some_iff.mp hlast
          rw [show arrayMarkers 0 = [] from rfl, List.append_nil, variadicElement?,
            List.reverse_append, List.reverse_singleton, List.singleton_append]
          split
          · rename_i heq
            obtain rfl : c = '.' := (List.cons_eq_cons.mp heq).1
            exact absurd hc (by decide)
          · rfl
      | succ k =>
          rw [arrayMarkers_succ, ← List.append_assoc, variadicElement?, List.reverse_append]
          rfl

end Split

/-! ## The steps -/

/-- The element after the look-up in the table. -/
def Overrides.substituteElement (o : Overrides) (element : List Char) : List Char :=
  if o.isAny (String.ofList element) then ['a', 'n', 'y'] else element

theorem Overrides.substituteAny_append (o : Overrides) {element : List Char}
    (h : EndsInIdentifier element) (k : Nat) (variadic : Bool) :
    o.substituteAny (element ++ markers k variadic) =
      o.substituteElement element ++ markers k variadic := by
  rw [substituteAny, splitMarkers_append h, substituteElement]
  dsimp only
  split_ifs <;> rfl

theorem Overrides.endsInIdentifier_substituteElement (o : Overrides) {element : List Char}
    (h : EndsInIdentifier element) : EndsInIdentifier (o.substituteElement element) := by
  unfold substituteElement
  split_ifs
  · exact ⟨'y', rfl, by decide⟩
  · exact h

theorem endsInIdentifier_of_mem_primitiveNames {p : List Char} (h : p ∈ primitiveNames) :
    EndsInIdentifier p := by
  simp only [primitiveNames, List.mem_cons, List.not_mem_nil, or_false] at h
  rcases h with rfl | rfl | rfl
  · exact ⟨'n', rfl, by decide⟩
  · exact ⟨'r', rfl, by decide⟩
  · exact ⟨'g', rfl, by decide⟩

/-- A name is a primitive type with array markers exactly if its element is one. -/
theorem isPrimitive_append {element : List Char} (h : EndsInIdentifier element) (k : Nat) :
    isPrimitive (element ++ arrayMarkers k) = decide (element ∈ primitiveNames) := by
  rw [Bool.eq_iff_iff, decide_eq_true_eq, isPrimitive, List.any_eq_true]
  constructor
  · rintro ⟨p, hp, hmatch⟩
    obtain ⟨hstart, hrest⟩ := Bool.and_eq_true_iff.mp hmatch
    have hbegins := List.isPrefixOf_iff_prefix.mp hstart
    have hnone : ∀ x ∈ (element ++ arrayMarkers k).drop p.length, isIdentifierChar x = false := by
      simpa using hrest
    -- What one of the two names has more than the other would end in an identifier character.
    rcases List.prefix_or_prefix_of_prefix hbegins (List.prefix_append _ _) with
      ⟨extra, hextra⟩ | ⟨extra, hextra⟩
    · rw [← hextra, List.append_assoc, List.drop_left] at hnone
      have hnil : extra = [] := (hextra ▸ h : EndsInIdentifier (p ++ extra)).eq_nil_of_append
        fun c hc => hnone c (List.mem_append_left _ hc)
      rw [hnil, List.append_nil] at hextra
      exact hextra ▸ hp
    · rw [← hextra, List.prefix_append_right_inj] at hbegins
      have hnil : extra = [] :=
        (hextra ▸ endsInIdentifier_of_mem_primitiveNames hp :
          EndsInIdentifier (element ++ extra)).eq_nil_of_append
        fun c hc => isIdentifierChar_of_mem_arrayMarkers (hbegins.subset hc)
      rw [hnil, List.append_nil] at hextra
      exact hextra ▸ hp
  · intro hp
    refine ⟨element, hp, Bool.and_eq_true_iff.mpr ⟨?_, ?_⟩⟩
    · exact List.isPrefixOf_iff_prefix.mpr (List.prefix_append _ _)
    · rw [List.drop_left, List.all_eq_true]
      intro c hc
      rw [isIdentifierChar_of_mem_arrayMarkers hc]
      rfl

theorem lowerAfter_of_ascii {cs : List Char} (h : ∀ c ∈ cs, c.toNat < 0x80) (before : List Char) :
    Text.lowerAfter before cs = cs.map Char.toLower := by
  induction cs generalizing before with
  | nil => rfl
  | cons c cs ih =>
      have hc := h c List.mem_cons_self
      have hsigma : c ≠ '\u03A3' := by
        rintro rfl
        exact absurd hc (by decide)
      rw [Text.lowerAfter, if_neg hsigma, Text.lowerChar, if_pos hc,
        ih fun d hd => h d (List.mem_cons_of_mem _ hd)]
      rfl

/-- An element as it is written: a primitive type is written in lowercase. -/
def lowerElement (element : List Char) : List Char :=
  if element ∈ primitiveNames then element.map Char.toLower else element

theorem lowerPrimitive_append {element : List Char} (h : EndsInIdentifier element) (k : Nat) :
    lowerPrimitive (element ++ arrayMarkers k) = lowerElement element ++ arrayMarkers k := by
  rw [lowerPrimitive, isPrimitive_append h, lowerElement]
  by_cases hp : element ∈ primitiveNames
  · have hnames : ∀ p ∈ primitiveNames, p.all (fun c => c.toNat < 0x80) = true := by decide
    have hascii : ∀ c ∈ element ++ arrayMarkers k, c.toNat < 0x80 := by
      intro c hc
      rcases List.mem_append.mp hc with hc | hc
      · exact of_decide_eq_true (List.all_eq_true.mp (hnames _ hp) c hc)
      · rcases mem_arrayMarkers hc with rfl | rfl
        · decide
        · decide
    have hmarkers : (arrayMarkers k).map Char.toLower = arrayMarkers k := by
      rw [arrayMarkers, List.map_flatten, List.map_replicate]
      rfl
    rw [if_pos (decide_eq_true hp), if_pos hp, Text.lowercase, lowerAfter_of_ascii hascii,
      List.map_append, hmarkers]
  · rw [if_neg (by simpa using hp), if_neg hp]

namespace Scope

/-- **The steps act on the element alone.**  Its array markers are written behind
it, and one more for the variadic marker, which moves to a parameter's name. -/
theorem annotate_markers (s : Scope) (name : String) (t : TypeRef) (site : Site)
    {element : List Char} (h : EndsInIdentifier element) (k : Nat) (variadic : Bool) :
    s.annotate name t site (String.ofList (element ++ markers k variadic)) =
      (if variadic = true ∧ site = .parameter then "..." else "") ++ name ++ ": " ++
        ((if s.isEnumField t site then "typeof " else "") ++
          String.ofList (lowerElement (s.settings.overrides.substituteElement element) ++
            arrayMarkers (arrayDepth k variadic))) := by
  have htypeof : ∀ type : String, ": typeof " ++ type = ": " ++ ("typeof " ++ type) :=
    fun type => (String.append_assoc : ": " ++ "typeof " ++ type = _)
  have hends := s.settings.overrides.endsInIdentifier_substituteElement h
  rw [annotate, String.toList_ofList, Overrides.substituteAny_append _ h]
  generalize s.settings.overrides.substituteElement element = shown at hends
  rw [variadicElement?_append hends]
  cases variadic with
  | false =>
      have hmarkers : markers k false = arrayMarkers k := List.append_nil _
      simp only [Bool.false_eq_true, if_false, false_and, hmarkers, lowerPrimitive_append hends,
        arrayDepth, String.empty_append]
      split_ifs <;> simp only [String.append_assoc, String.empty_append, htypeof]
  | true =>
      simp only [if_true, true_and, List.append_assoc, ← arrayMarkers_succ,
        lowerPrimitive_append hends, arrayDepth]
      split_ifs <;> simp only [String.append_assoc, String.empty_append, htypeof]

end Scope

end Ambient
