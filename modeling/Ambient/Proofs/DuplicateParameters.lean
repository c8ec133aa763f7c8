import Ambient.Proofs.PatchedParameters
import Ambient.Proofs.RewrittenTypes
import Mathlib.Data.List.Forall2
import Mathlib.Data.List.Nodup

/-!
# A parameter name that occurs twice

The patch is meant for a method in which two parameters have the same name: the
second one gets a `_`.  It works on the written list, and what it renames there
are the parameters that are the last of several on their line to show the name
(`IsRepeat`).  So the second one is renamed, and nothing else, exactly if it is
such a parameter and no other one is
(`renderSignature_renames_second_iff`).  A parameter that shows the name without
having it, such as `$sql` for `sql`, can take the `_` instead.

A line ends in a type that holds a line feed; without such types there is one
line, and the second parameter is renamed exactly if no later one shows the name.
-/

namespace Ambient

namespace WrittenParameter

/-! ## The last of several on a line -/

/-- A parameter, standing between `above` and `below`, that shows the name, with
one in front of it on the same line that does, and none behind it. -/
structure IsRepeat (name : String) (above : List WrittenParameter) (w : WrittenParameter)
    (below : List WrittenParameter) : Prop where
  shows : w.Shows name
  earlier : ∃ a u b, above = a ++ u :: b ∧ u.Shows name ∧ ∀ v ∈ u :: b, ¬ v.BreaksLine
  last : ∀ a u b, below = a ++ u :: b → u.Shows name → ∃ v ∈ w :: a, v.BreaksLine

/-- Whether the name has shown on the line that is open behind some parameters. -/
def seenBehind (name : String) (seen : Bool) (above : List WrittenParameter) : Bool :=
  above.foldl (fun seen w => !decide w.BreaksLine && (seen || decide (w.Shows name))) seen

section Repeats

variable {name : String}

theorem seenBehind_iff {above : List WrittenParameter} :
    seenBehind name false above = true ↔
      ∃ a u b, above = a ++ u :: b ∧ u.Shows name ∧ ∀ v ∈ u :: b, ¬ v.BreaksLine := by
  induction above using List.reverseRecOn with
  | nil => simp [seenBehind]
  | append_singleton above w ih =>
      have hstep : seenBehind name false (above ++ [w]) =
          (!decide w.BreaksLine && (seenBehind name false above || decide (w.Shows name))) :=
        List.foldl_concat ..
      rw [hstep, Bool.and_eq_true, Bool.or_eq_true, ih, Bool.not_eq_true', decide_eq_false_iff_not,
        decide_eq_true_eq]
      constructor
      · rintro ⟨hline, ⟨a, u, b, rfl, hshows, hlines⟩ | hshows⟩
        · refine ⟨a, u, b ++ [w], by simp, hshows, fun v hv => ?_⟩
          rcases List.mem_append.mp (List.cons_append ▸ hv) with hv | hv
          · exact hlines v hv
          · rwa [List.mem_singleton.mp hv]
        · exact ⟨above, w, [], rfl, hshows, by simpa using hline⟩
      · rintro ⟨a, u, b, heq, hshows, hlines⟩
        rcases List.eq_nil_or_concat b with rfl | ⟨b, v, rfl⟩
        · obtain ⟨-, hw⟩ := List.append_inj' heq rfl
          obtain rfl : w = u := List.singleton_inj.mp hw
          exact ⟨hlines w List.mem_cons_self, .inr hshows⟩
        · rw [List.concat_eq_append] at heq hlines
          have hsplit : above ++ [w] = (a ++ u :: b) ++ [v] := by simpa using heq
          obtain ⟨rfl, hw⟩ := List.append_inj' hsplit rfl
          obtain rfl : w = v := List.singleton_inj.mp hw
          refine ⟨hlines w (by simp), .inl ⟨a, u, b, rfl, hshows, fun x hx => hlines x ?_⟩⟩
          rw [← List.cons_append]
          exact List.mem_append_left _ hx

theorem showsNext_iff {below : List WrittenParameter} :
    showsNext name below = true ↔
      ∃ a u b, below = a ++ u :: b ∧ u.Shows name ∧ ∀ v ∈ a, ¬ v.BreaksLine := by
  induction below with
  | nil => simp [showsNext]
  | cons w below ih =>
      rw [showsNext, Bool.or_eq_true, Bool.and_eq_true, ih, Bool.not_eq_true',
        decide_eq_false_iff_not, decide_eq_true_eq]
      constructor
      · rintro (hshows | ⟨hline, a, u, b, rfl, hshows, hlines⟩)
        · exact ⟨[], w, below, rfl, hshows, List.forall_mem_nil _⟩
        · exact ⟨w :: a, u, b, rfl, hshows, List.forall_mem_cons.mpr ⟨hline, hlines⟩⟩
      · rintro ⟨a, u, b, heq, hshows, hlines⟩
        cases a with
        | nil =>
            obtain ⟨rfl, -⟩ := List.cons_eq_cons.mp heq
            exact .inl hshows
        | cons v a =>
            obtain ⟨rfl, rfl⟩ := List.cons_eq_cons.mp heq
            obtain ⟨hline, hlines⟩ := List.forall_mem_cons.mp hlines
            exact .inr ⟨hline, a, u, b, rfl, hshows, hlines⟩

theorem isRepeat_iff {above below : List WrittenParameter} {w : WrittenParameter} :
    IsRepeat name above w below ↔
      seenBehind name false above = true ∧ w.Shows name ∧
        ¬ (¬ w.BreaksLine ∧ showsNext name below = true) := by
  rw [seenBehind_iff, showsNext_iff]
  constructor
  · rintro ⟨hshows, hearlier, hlast⟩
    refine ⟨hearlier, hshows, ?_⟩
    rintro ⟨hline, a, u, b, rfl, hu, hlines⟩
    obtain ⟨v, hv, hbreaks⟩ := hlast a u b rfl hu
    have hall : ∀ v ∈ w :: a, ¬ v.BreaksLine := List.forall_mem_cons.mpr ⟨hline, hlines⟩
    exact hall v hv hbreaks
  · rintro ⟨hearlier, hshows, hnext⟩
    refine ⟨hshows, hearlier, fun a u b hbelow hu => ?_⟩
    by_contra hnone
    have hlines : ∀ v ∈ w :: a, ¬ v.BreaksLine := fun v hv hbreaks => hnone ⟨v, hv, hbreaks⟩
    obtain ⟨hline, hlines⟩ := List.forall_mem_cons.mp hlines
    exact hnext ⟨hline, a, u, b, hbelow, hu, hlines⟩

instance (name : String) (above : List WrittenParameter) (w : WrittenParameter)
    (below : List WrittenParameter) : Decidable (IsRepeat name above w below) :=
  decidable_of_iff _ isRepeat_iff.symm

theorem getElem?_renameRepeats (ws : List WrittenParameter) (seen : Bool) (k : Nat) :
    (renameRepeats name seen ws)[k]? = ws[k]?.map fun w =>
      if seenBehind name seen (ws.take k) = true ∧ w.Shows name ∧
        ¬ (¬ w.BreaksLine ∧ showsNext name (ws.drop (k + 1)) = true) then w.renamed else w := by
  induction ws generalizing seen k with
  | nil => rfl
  | cons w ws ih =>
      cases k with
      | zero => rfl
      | succ k => exact ih _ k

theorem getElem?_renameRepeats_append (a : List WrittenParameter) (w : WrittenParameter)
    (b : List WrittenParameter) :
    (renameRepeats name false (a ++ w :: b))[a.length]? =
      some (if IsRepeat name a w b then w.renamed else w) := by
  have hdrop : (a ++ w :: b).drop (a.length + 1) = b := by simp
  rw [getElem?_renameRepeats, List.take_left, hdrop, List.getElem?_append_right (le_refl _),
    Nat.sub_self, List.getElem?_cons_zero, Option.map_some]
  exact congrArg some (if_congr isRepeat_iff.symm rfl rfl)

theorem renamed_ne (w : WrittenParameter) : w.renamed ≠ w := by
  intro h
  have hname : w.name ++ "_" = w.name ++ "" := (congrArg name h).trans String.append_empty.symm
  exact absurd ((String.append_right_inj _).mp hname) (by decide)

/-- **One parameter is renamed, and no other**, exactly if it is the only one that
is the last of several on its line. -/
theorem renameRepeats_eq_iff {above below : List WrittenParameter} {q : WrittenParameter} :
    renameRepeats name false (above ++ q :: below) = above ++ q.renamed :: below ↔
      ∀ a w b, above ++ q :: below = a ++ w :: b → (IsRepeat name a w b ↔ a = above) := by
  have hmodify : above ++ q.renamed :: below =
      (above ++ q :: below).modify above.length renamed := by
    rw [List.modify_eq_take_cons_drop (by simp)]
    simp
  have hplace : ∀ a w b, above ++ q :: below = a ++ w :: b →
      (above ++ q.renamed :: below)[a.length]? = some (if a = above then w.renamed else w) := by
    intro a w b heq
    have hsame : above.length = a.length ↔ a = above :=
      ⟨fun h => (List.append_inj heq h).1.symm, fun h => congrArg List.length h.symm⟩
    rw [hmodify, List.getElem?_modify, heq, List.getElem?_append_right (le_refl _), Nat.sub_self,
      List.getElem?_cons_zero]
    exact congrArg some (if_congr hsame rfl rfl)
  constructor
  · intro hrenamed a w b heq
    have hboth := hplace a w b heq
    rw [← hrenamed, heq, getElem?_renameRepeats_append] at hboth
    by_cases hrepeat : IsRepeat name a w b
    · rw [if_pos hrepeat] at hboth
      by_cases ha : a = above
      · exact iff_of_true hrepeat ha
      · rw [if_neg ha] at hboth
        exact absurd (Option.some.inj hboth) w.renamed_ne
    · rw [if_neg hrepeat] at hboth
      by_cases ha : a = above
      · rw [if_pos ha] at hboth
        exact absurd (Option.some.inj hboth).symm w.renamed_ne
      · exact iff_of_false hrepeat ha
  · intro honly
    refine List.ext_getElem? fun k => ?_
    cases hk : (above ++ q :: below)[k]? with
    | none =>
        rw [hmodify, List.getElem?_modify, getElem?_renameRepeats, hk]
        rfl
    | some w =>
        obtain ⟨a, b, heq, rfl⟩ : ∃ a b, above ++ q :: below = a ++ w :: b ∧ a.length = k := by
          obtain ⟨hlt, rfl⟩ := List.getElem?_eq_some_iff.mp hk
          exact ⟨(above ++ q :: below).take k, (above ++ q :: below).drop (k + 1), by simp,
            List.length_take_of_le hlt.le⟩
        rw [hplace a w b heq, heq, getElem?_renameRepeats_append]
        exact congrArg some (if_congr (honly a w b heq) rfl rfl)

/-- Without line feeds in types, the last parameter that shows the name is the
only one that is renamed. -/
theorem isRepeat_iff_of_one_line {above below : List WrittenParameter} {q : WrittenParameter}
    (hlines : ∀ w ∈ above ++ q :: below, ¬ w.BreaksLine) (hfirst : ∃ u ∈ above, u.Shows name)
    (hq : q.Shows name) :
    (∀ a w b, above ++ q :: below = a ++ w :: b → (IsRepeat name a w b ↔ a = above)) ↔
      ∀ u ∈ below, ¬ u.Shows name := by
  have hbelow : ∀ w ∈ q :: below, ¬ w.BreaksLine := fun w hw =>
    hlines w (List.mem_append_right _ hw)
  constructor
  · intro honly u hu hshows
    have hrepeat := (honly above q below rfl).mpr rfl
    obtain ⟨a, b, rfl⟩ := List.append_of_mem hu
    obtain ⟨v, hv, hbreaks⟩ := hrepeat.last a u b rfl hshows
    refine hbelow v ?_ hbreaks
    rw [← List.cons_append]
    exact List.mem_append_left _ hv
  · intro hnone a w b heq
    constructor
    · intro hrepeat
      -- In front of `q` nothing is the last, as `q` follows; behind it nothing shows.
      rcases List.append_eq_append_iff.mp heq with ⟨rest, ha, hrest⟩ | ⟨rest, habove, hrest⟩
      · cases rest with
        | nil => rw [ha, List.append_nil]
        | cons v rest =>
            obtain ⟨-, hb⟩ := List.cons_eq_cons.mp hrest
            exact absurd hrepeat.shows (hnone w (hb ▸ by simp))
      · cases rest with
        | nil => rw [habove, List.append_nil]
        | cons v rest =>
            obtain ⟨rfl, hb⟩ := List.cons_eq_cons.mp hrest
            obtain ⟨v, hv, hbreaks⟩ := hrepeat.last rest q below hb hq
            refine absurd hbreaks (hlines v (List.mem_append_left _ ?_))
            rw [habove]
            exact List.mem_append_right _ hv
    · rintro rfl
      obtain ⟨hw, hb⟩ := List.cons_eq_cons.mp (List.append_cancel_left heq)
      subst hw hb
      obtain ⟨u, hu, hshows⟩ := hfirst
      obtain ⟨c, d, rfl⟩ := List.append_of_mem hu
      refine ⟨hq, ⟨c, u, d, rfl, hshows, fun v hv => hlines v ?_⟩, fun e v f hef hv => ?_⟩
      · exact List.mem_append_left _ (List.mem_append_right _ hv)
      · exact absurd hv (hnone v (hef ▸ by simp))

end Repeats

/-! ## A written list tells its parameters -/

def IsRenaming (us ws : List WrittenParameter) : Prop :=
  List.Forall₂ (fun u w => u = w ∨ u = w.renamed) us ws

theorem isRenaming_refl (ws : List WrittenParameter) : IsRenaming ws ws :=
  List.forall₂_same.mpr fun _ _ => .inl rfl

theorem isRenaming_append_cons (above : List WrittenParameter) (q : WrittenParameter)
    (below : List WrittenParameter) :
    IsRenaming (above ++ q.renamed :: below) (above ++ q :: below) :=
  List.rel_append (isRenaming_refl above) (.cons (.inr rfl) (isRenaming_refl below))

theorem isRenaming_renameRepeats (name : String) (seen : Bool) (ws : List WrittenParameter) :
    IsRenaming (renameRepeats name seen ws) ws := by
  induction ws generalizing seen with
  | nil => exact .nil
  | cons w ws ih =>
      refine .cons ?_ (ih _)
      split
      · exact .inr rfl
      · exact .inl rfl

theorem text_append_inj {u v w : WrittenParameter} (hu : u = w ∨ u = w.renamed)
    (hv : v = w ∨ v = w.renamed) (hcolon : ':' ∉ w.name.toList) {x y : List Char}
    (h : u.text.toList ++ x = v.text.toList ++ y) : u = v ∧ x = y := by
  have hframe : ∀ t : WrittenParameter, t = w ∨ t = w.renamed →
      t.lead = w.lead ∧ t.type = w.type ∧ ':' ∉ t.name.toList := by
    rintro t (rfl | rfl)
    · exact ⟨rfl, rfl, hcolon⟩
    · exact ⟨rfl, rfl, by simpa [renamed] using hcolon⟩
  obtain ⟨huLead, huType, huColon⟩ := hframe u hu
  obtain ⟨hvLead, hvType, hvColon⟩ := hframe v hv
  simp only [toList_text, huLead, hvLead, huType, hvType, List.append_assoc, List.cons_append,
    List.append_cancel_left_eq] at h
  -- Both names end at the first colon.
  have hpre : ParameterPatch.label u.name.toList <+:
      v.name.toList ++ ':' :: ' ' :: (w.type.toList ++ y) := by
    rw [← h, ParameterPatch.label_prefix_iff huColon huColon]
  have hname := (ParameterPatch.label_prefix_iff huColon hvColon _).mp hpre
  simp only [hname, List.append_cancel_left_eq, List.cons_eq_cons, true_and] at h
  refine ⟨?_, h⟩
  rw [mk.injEq, huLead, hvLead, huType, hvType, String.toList_inj.mp hname]
  exact ⟨rfl, rfl, rfl⟩

theorem behind_inj {us vs ws : List WrittenParameter} (hus : IsRenaming us ws)
    (hvs : IsRenaming vs ws) (hcolon : ∀ w ∈ ws, ':' ∉ w.name.toList) (h : behind us = behind vs) :
    us = vs := by
  induction hus generalizing vs with
  | nil => exact (List.forall₂_nil_right_iff.mp hvs).symm
  | @cons u w us ws hu _ ih =>
      obtain ⟨v, vs, hv, hrest, rfl⟩ := List.forall₂_cons_right_iff.mp hvs
      obtain ⟨hw, hcolon⟩ := List.forall_mem_cons.mp hcolon
      rw [behind_cons, behind_cons, List.append_cancel_left_eq] at h
      obtain ⟨rfl, hbehind⟩ := text_append_inj hu hv hw h
      rw [ih hrest hcolon hbehind]

theorem intercalate_text_inj {us vs ws : List WrittenParameter} (hus : IsRenaming us ws)
    (hvs : IsRenaming vs ws) (hcolon : ∀ w ∈ ws, ':' ∉ w.name.toList)
    (h : ", ".intercalate (us.map text) = ", ".intercalate (vs.map text)) : us = vs := by
  cases hus with
  | nil => exact (List.forall₂_nil_right_iff.mp hvs).symm
  | @cons u w us ws hu hus =>
      obtain ⟨v, vs, hv, hrest, rfl⟩ := List.forall₂_cons_right_iff.mp hvs
      obtain ⟨hw, hcolon⟩ := List.forall_mem_cons.mp hcolon
      have hlist := congrArg String.toList h
      rw [toList_intercalate_text, toList_intercalate_text] at hlist
      obtain ⟨rfl, hbehind⟩ := text_append_inj hu hv hw hlist
      rw [behind_inj hus hrest hcolon hbehind]

end WrittenParameter

/-! ## Signatures -/

namespace Scope

open WrittenParameter

/-- A type as it is written behind a parameter or a method. -/
def writtenType (s : Scope) (t : TypeRef) : String :=
  String.ofList (s.settings.overrides.rewritten (s.qualifiedName t).toList)

/-- A parameter as it is written in front of the patch. -/
def written (s : Scope) (p : Parameter) : WrittenParameter where
  lead :=
    if (variadicElement? (s.settings.overrides.substituteAny
      (s.qualifiedName p.type).toList)).isSome = true then "..." else ""
  name := p.name
  type := s.writtenType p.type

/-- The signature of a method whose parameters are written in some way. -/
def signatureWith (s : Scope) (m : Method) (ws : List WrittenParameter) : String :=
  m.name ++ "(" ++ ", ".intercalate (ws.map text) ++ "): " ++ s.writtenType m.returnType

variable {s : Scope}

theorem typed_parameter (s : Scope) (p : Parameter) :
    s.typed p.name p.type .parameter = (s.written p).text := by
  have hfield : ¬ s.isEnumField p.type .parameter = true := fun h =>
    nomatch ((s.isEnumField_iff _ _).mp h).1
  rw [typed, annotate_eq, if_neg hfield, String.empty_append, WrittenParameter.text, written]
  simp only [true_and]
  rfl

theorem typed_result (s : Scope) (name : String) (t : TypeRef) :
    s.typed name t .result = name ++ ": " ++ s.writtenType t := by
  have hfield : ¬ s.isEnumField t .result = true := fun h =>
    nomatch ((s.isEnumField_iff _ _).mp h).1
  have hlead : ¬ (Site.result = .parameter ∧ (variadicElement? (s.settings.overrides.substituteAny
      (s.qualifiedName t).toList)).isSome = true) := fun h => nomatch h.1
  rw [typed, annotate_eq, if_neg hfield, if_neg hlead, String.empty_append, String.empty_append]
  rfl

theorem signature_eq {m : Method} {n : String}
    (hdup : s.settings.overrides.duplicateParameters = [n]) (hn : IsSought n)
    (hplain : ∀ p ∈ m.parameters, (s.written p).IsPlain) :
    s.signature m = s.signatureWith m (renameRepeats n false (m.parameters.map s.written)) := by
  have htyped : s.typedParameters m = (m.parameters.map s.written).map text := by
    rw [typedParameters, List.map_map]
    exact List.map_congr_left fun p _ => s.typed_parameter p
  have hall : ∀ w ∈ m.parameters.map s.written, w.IsPlain := by
    intro w hw
    obtain ⟨p, hp, rfl⟩ := List.mem_map.mp hw
    exact hplain p hp
  have hlist : s.parameterList m =
      ", ".intercalate ((renameRepeats n false (m.parameters.map s.written)).map text) := by
    rw [parameterList, hdup, htyped]
    exact apply_intercalate hn hall
  rw [signature, typed_result, hlist, signatureWith]
  simp only [String.append_assoc]
  rfl

theorem signatureWith_inj {m : Method} {us vs : List WrittenParameter} :
    s.signatureWith m us = s.signatureWith m vs ↔
      ", ".intercalate (us.map text) = ", ".intercalate (vs.map text) := by
  simp only [signatureWith, String.append_left_inj, String.append_right_inj]

/-- A method in which the parameter `q` has the name of an earlier one, which is
the one name that is to be patched.  All other names differ from it and from each
other, none is the name with a `_` behind it, all are identifiers, and no type is
written with a colon. -/
structure NamedTwice (s : Scope) (m : Method) (above : List Parameter) (q : Parameter)
    (below : List Parameter) : Prop where
  duplicate : s.settings.overrides.duplicateParameters = [q.name]
  parameters : m.parameters = above ++ q :: below
  first : q.name ∈ above.map (·.name)
  distinct : ((above ++ below).map (·.name)).Nodup
  free : q.name ++ "_" ∉ m.parameters.map (·.name)
  names : ∀ p ∈ m.parameters, isScriptName p.name = true
  types : ∀ p ∈ m.parameters, ':' ∉ (s.writtenType p.type).toList

def secondRenamed (s : Scope) (above : List Parameter) (q : Parameter) (below : List Parameter) :
    List WrittenParameter :=
  above.map s.written ++ (s.written q).renamed :: below.map s.written

namespace NamedTwice

variable {m : Method} {above below : List Parameter} {q : Parameter}

theorem isPlain (h : s.NamedTwice m above q below) : ∀ p ∈ m.parameters, (s.written p).IsPlain := by
  intro p hp
  refine ⟨?_, h.names p hp, h.types p hp⟩
  unfold written
  dsimp only
  split
  · exact .inr rfl
  · exact .inl rfl

theorem map_written (h : s.NamedTwice m above q below) :
    m.parameters.map s.written = above.map s.written ++ s.written q :: below.map s.written := by
  rw [h.parameters, List.map_append, List.map_cons]

theorem nodup_secondRenamed (h : s.NamedTwice m above q below) :
    ((s.secondRenamed above q below).map (·.name)).Nodup := by
  have hnames : (s.secondRenamed above q below).map (·.name) =
      above.map (·.name) ++ (q.name ++ "_") :: below.map (·.name) := by
    simp [secondRenamed, written, WrittenParameter.renamed, Function.comp_def]
  have hfree := h.free
  rw [h.parameters, List.map_append, List.map_cons, List.mem_append, List.mem_cons, not_or,
    not_or] at hfree
  rw [hnames, List.nodup_middle, List.nodup_cons, List.mem_append, not_or, ← List.map_append]
  exact ⟨⟨hfree.1, hfree.2.2⟩, h.distinct⟩

/-- The signature tells which parameters are renamed. -/
theorem signature_eq_iff (h : s.NamedTwice m above q below) (hn : IsSought q.name) :
    s.signature m = s.signatureWith m (s.secondRenamed above q below) ↔
      ∀ a w b, m.parameters.map s.written = a ++ w :: b →
        (IsRepeat q.name a w b ↔ a = above.map s.written) := by
  have hcolon : ∀ w ∈ m.parameters.map s.written, ':' ∉ w.name.toList := by
    intro w hw
    obtain ⟨p, hp, rfl⟩ := List.mem_map.mp hw
    exact colon_not_mem_of_isScriptName (h.names p hp)
  rw [signature_eq h.duplicate hn h.isPlain, signatureWith_inj, secondRenamed]
  rw [h.map_written] at hcolon ⊢
  rw [← renameRepeats_eq_iff]
  constructor
  · intro htext
    exact intercalate_text_inj (isRenaming_renameRepeats _ _ _) (isRenaming_append_cons _ _ _)
      hcolon htext
  · intro heq
    rw [heq]

/-- Behind the second parameter no name is the same, so one that shows it ends in
`$` and the name. -/
theorem shows_iff (h : s.NamedTwice m above q below) {p : Parameter} (hp : p ∈ below) :
    (s.written p).Shows q.name ↔ '$' :: q.name.toList <:+ p.name.toList := by
  refine ⟨fun hshows => hshows.resolve_left fun hsame => ?_, .inr⟩
  have hdisjoint := List.disjoint_of_nodup_append (List.map_append ▸ h.distinct)
  exact hdisjoint h.first (hsame ▸ List.mem_map_of_mem hp)

end NamedTwice

/-- **Where the second of two parameters with one name is renamed.**  The names
with a `_` behind the second one are distinct.  The signature is written with them,
and with nothing else changed, exactly if the second parameter, and no other one,
is the last of several that show the name on its line; where no type holds a line
feed, exactly if no name behind it ends in `$` and the name. -/
theorem renderSignature_renames_second_iff (s : Scope) (r : References) (m : Method)
    (above : List Parameter) (q : Parameter) (below : List Parameter)
    (h : s.NamedTwice m above q below) (hstart : q.name.toList.head? ≠ some '$') :
    ((s.secondRenamed above q below).map (·.name)).Nodup ∧
    (((s.renderSignature m).run r).1 = s.signatureWith m (s.secondRenamed above q below) ↔
      ∀ a w b, m.parameters.map s.written = a ++ w :: b →
        (IsRepeat q.name a w b ↔ a = above.map s.written)) ∧
    ((∀ p ∈ m.parameters, ¬ (s.written p).BreaksLine) →
      (((s.renderSignature m).run r).1 = s.signatureWith m (s.secondRenamed above q below) ↔
        ∀ p ∈ below, ¬ '$' :: q.name.toList <:+ p.name.toList)) := by
  have hn : IsSought q.name := ⟨h.names q (by rw [h.parameters]; simp), hstart⟩
  rw [s.records_renderSignature m r]
  refine ⟨h.nodup_secondRenamed, h.signature_eq_iff hn, fun hlines => ?_⟩
  obtain ⟨p, hp, hname⟩ := List.mem_map.mp h.first
  have hfirst : ∃ u ∈ above.map s.written, u.Shows q.name :=
    ⟨s.written p, List.mem_map_of_mem hp, .inl hname⟩
  have hlines' : ∀ w ∈ m.parameters.map s.written, ¬ w.BreaksLine := by
    rw [List.forall_mem_map]
    exact hlines
  rw [h.map_written] at hlines'
  rw [h.signature_eq_iff hn, h.map_written,
    isRepeat_iff_of_one_line hlines' hfirst (.inl rfl), List.forall_mem_map]
  exact forall₂_congr fun p hp => not_congr (h.shows_iff hp)

/-- A category with the built-in tables, in which `sql` is to be patched. -/
def queryScope : Scope where
  description := {}
  settings := {}
  category := "jdbc"

/-- A method with a name in front of the second `sql` that ends in `$sql`. -/
def prepareMethod : Method where
  name := "prepare"
  parameters := [⟨"$sql", ⟨"Number", none⟩, ""⟩, ⟨"sql", ⟨"String", none⟩, ""⟩,
    ⟨"args", ⟨"Object...", none⟩, ""⟩, ⟨"sql", ⟨"String[]", none⟩, ""⟩]
  returnType := ⟨"Boolean", none⟩

theorem prepareMethod_renames_second :
    queryScope.NamedTwice prepareMethod (prepareMethod.parameters.take 3)
        ⟨"sql", ⟨"String[]", none⟩, ""⟩ [] ∧
      "sql".toList.head? ≠ some '$' ∧
      ((queryScope.renderSignature prepareMethod).run ⟨[]⟩).1 =
        "prepare($sql: number, sql: string, ...args: any[], sql_: string[]): boolean" := by
  have htwice : queryScope.NamedTwice prepareMethod (prepareMethod.parameters.take 3)
      ⟨"sql", ⟨"String[]", none⟩, ""⟩ [] :=
    ⟨by decide +kernel, by decide +kernel, by decide +kernel, by decide +kernel, by decide +kernel,
      by decide +kernel, by decide +kernel⟩
  have hstart : "sql".toList.head? ≠ some '$' := by decide
  obtain ⟨-, -, hlast⟩ := renderSignature_renames_second_iff queryScope ⟨[]⟩ prepareMethod _ _ _
    htwice hstart
  have hlines : ∀ p ∈ prepareMethod.parameters, ¬ (queryScope.written p).BreaksLine := by
    decide +kernel
  refine ⟨htwice, hstart, ((hlast hlines).mpr (List.forall_mem_nil _)).trans ?_⟩
  decide +kernel

/-- A method with a name behind the second `sql` that ends in `$sql`. -/
def queryMethod : Method where
  name := "query"
  parameters := [⟨"sql", ⟨"String", none⟩, ""⟩, ⟨"sql", ⟨"String", none⟩, ""⟩,
    ⟨"$sql", ⟨"String", none⟩, ""⟩]
  returnType := ⟨"Boolean", none⟩

/-- The `_` goes to that name, and `sql` still stands there twice. -/
theorem queryMethod_not_renames_second :
    queryScope.NamedTwice queryMethod (queryMethod.parameters.take 1)
        ⟨"sql", ⟨"String", none⟩, ""⟩ (queryMethod.parameters.drop 2) ∧
      ((queryScope.renderSignature queryMethod).run ⟨[]⟩).1 =
        "query(sql: string, sql: string, $sql_: string): boolean" ∧
      ((queryScope.renderSignature queryMethod).run ⟨[]⟩).1 ≠
        queryScope.signatureWith queryMethod (queryScope.secondRenamed
          (queryMethod.parameters.take 1) ⟨"sql", ⟨"String", none⟩, ""⟩
          (queryMethod.parameters.drop 2)) := by
  have htwice : queryScope.NamedTwice queryMethod (queryMethod.parameters.take 1)
      ⟨"sql", ⟨"String", none⟩, ""⟩ (queryMethod.parameters.drop 2) :=
    ⟨by decide +kernel, by decide +kernel, by decide +kernel, by decide +kernel, by decide +kernel,
      by decide +kernel, by decide +kernel⟩
  have hrendered : ((queryScope.renderSignature queryMethod).run ⟨[]⟩).1 =
      "query(sql: string, sql: string, $sql_: string): boolean" := by
    decide +kernel
  refine ⟨htwice, hrendered, ?_⟩
  rw [hrendered]
  decide +kernel

end Scope

end Ambient
