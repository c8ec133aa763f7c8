import Ambient.Name
import Ambient.Proofs.PatchedLines
import Mathlib.Data.List.Infix

/-!
# The patch of a list of parameters

The patch looks at characters.  In a list of parameters with identifiers for
names and no colon in a type, the label of a name can only start in a name: where
a parameter has that name, or one that ends in `$` and that name, as `$` is the
one identifier character that belongs to no word (`WrittenParameter.Shows`).  So
the patch can be told in parameters: on each line the last of at least two such
parameters is renamed (`apply_intercalate`).

The patch is followed part by part.  `patchRest` is the patch of what is left of
a text, given whether a label has started before on the line.  Parts in which no
label starts are copied (`patchRest_quiet`), and a label that starts is marked if
one has started before and none starts behind it (`patchRest_label`).
-/

namespace Ambient.ParameterPatch

open Text

/-! ## Part by part -/

section Parts

variable {name : List Char} {before : Option Char} {s t rest : List Char}

/-- The patch of the rest of a text; `seen` tells whether the label has started
before on the line, so that its last start is known to be patched. -/
def patchRest (name : List Char) (seen : Bool) (before : Option Char) (s : List Char) :
    List Char :=
  patchFrom (label name) before
    (if seen then (lastStart? (label name) before s).map (· + name.length) else none) s

/-- The label starts nowhere in `s`, which stands behind `before` and in front of
`rest`. -/
def Quiet (name : List Char) : Option Char → List Char → List Char → Prop
  | _, [], _ => True
  | before, c :: s, rest =>
      startsAt (label name) before (c :: (s ++ rest)) = false ∧ Quiet name (some c) s rest

theorem getLast?_cons_or (c : Char) (s : List Char) (before : Option Char) :
    (c :: s).getLast?.or before = s.getLast?.or (some c) := by
  rw [List.getLast?_cons]
  cases s.getLast? with
  | none => rfl
  | some d => rfl

theorem quiet_append :
    Quiet name before (s ++ t) rest ↔
      Quiet name before s (t ++ rest) ∧ Quiet name (s.getLast?.or before) t rest := by
  induction s generalizing before with
  | nil => simp [Quiet]
  | cons c s ih =>
      rw [List.cons_append, Quiet, Quiet, ih, List.append_assoc, getLast?_cons_or, and_assoc]

theorem quiet_of_startsAt
    (h : ∀ a b, s = a ++ b → b ≠ [] →
      startsAt (label name) (a.getLast?.or before) (b ++ rest) = false) :
    Quiet name before s rest := by
  induction s generalizing before with
  | nil => trivial
  | cons c s ih =>
      refine ⟨h [] (c :: s) rfl (List.cons_ne_nil c s), ih fun a b hs hb => ?_⟩
      rw [← getLast?_cons_or c a before]
      exact h (c :: a) b (congrArg (c :: ·) hs) hb

theorem quiet_of_not_prefix (h : ∀ b, b <:+ s → b ≠ [] → ¬ label name <+: b ++ rest) :
    Quiet name before s rest := by
  refine quiet_of_startsAt fun a b hs hb => ?_
  rw [Bool.eq_false_iff]
  intro hstart
  exact h b ⟨a, hs.symm⟩ hb (List.isPrefixOf_iff_prefix.mp (Bool.and_eq_true_iff.mp hstart).2)

theorem patchFrom_quiet (h : Quiet name before s rest) :
    patchFrom (label name) before none (s ++ rest) =
      s ++ patchFrom (label name) (s.getLast?.or before) none rest := by
  induction s generalizing before with
  | nil => rfl
  | cons c s ih =>
      obtain ⟨hstart, hs⟩ := h
      have htarget : target? (label name) before (c :: (s ++ rest)) = none := by
        rw [target?, hstart, if_neg Bool.false_ne_true]
      rw [List.cons_append, patchFrom_of_no_target htarget, ih hs, getLast?_cons_or,
        List.cons_append]

theorem patchFrom_copy (lab s rest : List Char) (before : Option Char) (d : Nat) :
    patchFrom lab before (some (s.length + d)) (s ++ rest) =
      s ++ patchFrom lab (s.getLast?.or before) (some d) rest := by
  induction s generalizing before with
  | nil => rw [List.length_nil, Nat.zero_add]; rfl
  | cons c s ih =>
      have hlength : (c :: s).length + d = (s.length + d) + 1 := by
        rw [List.length_cons]
        omega
      rw [hlength, getLast?_cons_or]
      exact congrArg (c :: ·) (ih (some c))

theorem lastStart?_quiet (h : Quiet name before s rest) (hline : '\n' ∉ s) :
    lastStart? (label name) before (s ++ rest) =
      (lastStart? (label name) (s.getLast?.or before) rest).map (s.length + ·) := by
  induction s generalizing before with
  | nil => simp
  | cons c s ih =>
      obtain ⟨hstart, hs⟩ := h
      obtain ⟨hc, hline⟩ : '\n' ≠ c ∧ '\n' ∉ s := by simpa using hline
      rw [List.cons_append, lastStart?, if_neg hc.symm, ih hs hline, getLast?_cons_or, hstart]
      cases lastStart? (label name) (s.getLast?.or (some c)) rest with
      | none => rfl
      | some d =>
          show some (s.length + d + 1) = some (s.length + 1 + d)
          rw [Nat.add_right_comm]

theorem lastStart?_quiet_of_feed (h : Quiet name before s rest) (hfeed : '\n' ∈ s) :
    lastStart? (label name) before (s ++ rest) = none := by
  induction s generalizing before with
  | nil => exact absurd hfeed List.not_mem_nil
  | cons c s ih =>
      obtain ⟨hstart, hs⟩ := h
      rw [List.cons_append, lastStart?, hstart]
      by_cases hc : c = '\n'
      · rw [if_pos hc]
        rfl
      · rw [if_neg hc, ih hs ((List.mem_cons.mp hfeed).resolve_left (Ne.symm hc))]
        rfl

/-- **A quiet part is copied**; behind a line feed no label has been seen. -/
theorem patchRest_quiet (h : Quiet name before s rest) (seen : Bool) :
    patchRest name seen before (s ++ rest) =
      s ++ patchRest name (seen && !decide ('\n' ∈ s)) (s.getLast?.or before) rest := by
  unfold patchRest
  cases seen with
  | false => exact patchFrom_quiet h
  | true =>
      by_cases hfeed : '\n' ∈ s
      · rw [lastStart?_quiet_of_feed h hfeed, decide_eq_true hfeed]
        exact patchFrom_quiet h
      · rw [lastStart?_quiet h hfeed, decide_eq_false hfeed]
        cases lastStart? (label name) (s.getLast?.or before) rest with
        | none => exact patchFrom_quiet h
        | some d =>
            show patchFrom _ _ (some (s.length + d + name.length)) _ = _
            rw [Nat.add_assoc]
            exact patchFrom_copy _ s rest before _

end Parts

/-! ## A label that starts -/

section Label

variable {name : List Char} {before : Option Char} {rest : List Char}

theorem exists_label_eq_cons (hcolon : ':' ∉ name) (rest : List Char) :
    ∃ c lab, label name = c :: lab ∧ lab.getLast?.or (some c) = some ':' ∧
      Quiet name (some c) lab rest := by
  obtain ⟨c, lab, hlab⟩ : ∃ c lab, label name = c :: lab :=
    List.exists_cons_of_ne_nil (by simp [label])
  refine ⟨c, lab, hlab, ?_, quiet_of_not_prefix fun b hb hne => ?_⟩
  · rw [← getLast?_cons_or c lab none, ← hlab, label, List.getLast?_append]
    rfl
  · have hb' : b <:+ label name := hlab ▸ hb.trans (List.suffix_cons c lab)
    have hlt : b.length < (label name).length := by
      rw [hlab]
      exact Nat.lt_succ_of_le hb.length_le
    have hpos : 0 < b.length := List.length_pos_iff.mpr hne
    rw [List.suffix_iff_eq_drop.mp hb']
    exact not_prefix_drop_label hcolon (by omega) (by omega) rest

theorem lastStart?_label (hcolon : ':' ∉ name) (hfeed : '\n' ∉ name)
    (hstart : startsAt (label name) before (label name ++ rest) = true) :
    lastStart? (label name) before (label name ++ rest) =
      some (((lastStart? (label name) (some ':') rest).map ((label name).length + ·)).getD 0) := by
  obtain ⟨c, lab, hlab, hlast, hquiet⟩ := exists_label_eq_cons hcolon rest
  have hline : '\n' ∉ label name := by simp [label, hfeed]
  obtain ⟨hc, hline⟩ : '\n' ≠ c ∧ '\n' ∉ lab := by simpa [hlab] using hline
  have hlength : (label name).length = lab.length + 1 := by rw [hlab, List.length_cons]
  have htext : label name ++ rest = c :: (lab ++ rest) := by rw [hlab, List.cons_append]
  rw [htext] at hstart ⊢
  rw [lastStart?, if_neg hc.symm, lastStart?_quiet hquiet hline, hlast, if_pos hstart, hlength]
  cases lastStart? (label name) (some ':') rest with
  | none => rfl
  | some d =>
      show some (lab.length + d + 1) = some (lab.length + 1 + d)
      rw [Nat.add_right_comm]

/-- A label, the first one on the line, is copied.  What is patched behind it is
the last label on the line, if there is one. -/
theorem patchFrom_first_label (hcolon : ':' ∉ name)
    (hstart : startsAt (label name) before (label name ++ rest) = true) :
    patchFrom (label name) before none (label name ++ rest) =
      label name ++ patchFrom (label name) (some ':')
        ((lastStart? (label name) (some ':') rest).map (· + name.length)) rest := by
  obtain ⟨c, lab, hlab, hlast, hquiet⟩ := exists_label_eq_cons hcolon rest
  have htext : label name ++ rest = c :: (lab ++ rest) := by rw [hlab, List.cons_append]
  have htarget : target? (label name) before (label name ++ rest) =
      (lastStart? (label name) (some ':') rest).map fun d =>
        (label name).length + d + ((label name).length - 1) := by
    rw [target?, if_pos hstart, List.drop_left, label, List.getLast?_append]
    rfl
  cases hbehind : lastStart? (label name) (some ':') rest with
  | none =>
      rw [htext, hbehind, Option.map_none] at htarget
      rw [htext, patchFrom_of_no_target htarget, patchFrom_quiet hquiet, hlast, hlab]
      rfl
  | some d =>
      have hlength : (label name).length = lab.length + 1 := by rw [hlab, List.length_cons]
      have hplace : (label name).length + d + ((label name).length - 1) =
          lab.length + (d + name.length) + 1 := by
        rw [length_label] at hlength ⊢
        omega
      simp only [htext, hbehind, Option.map_some, hplace] at htarget
      rw [htext, patchFrom_cons, htarget, advance, patchFrom_copy, hlast, hlab]
      rfl

theorem patchFrom_last_label (name rest : List Char) (before : Option Char) :
    patchFrom (label name) before (some name.length) (label name ++ rest) =
      name ++ ['_', ':'] ++ patchFrom (label name) (some ':') none rest := by
  have htext : label name ++ rest = name ++ ':' :: rest := by
    rw [label, List.append_assoc, List.singleton_append]
  rw [htext, patchFrom_pending, List.append_assoc]
  rfl

/-- **A label that starts** is marked if one has started before on the line and
none starts behind it. -/
theorem patchRest_label (hcolon : ':' ∉ name) (hfeed : '\n' ∉ name)
    (hstart : startsAt (label name) before (label name ++ rest) = true) (seen : Bool) :
    patchRest name seen before (label name ++ rest) =
      (if seen = true ∧ lastStart? (label name) (some ':') rest = none then name ++ ['_', ':']
        else label name) ++ patchRest name true (some ':') rest := by
  unfold patchRest
  cases seen with
  | false =>
      rw [if_neg Bool.false_ne_true, if_neg fun h => Bool.false_ne_true h.1]
      exact patchFrom_first_label hcolon hstart
  | true =>
      rw [lastStart?_label hcolon hfeed hstart]
      cases lastStart? (label name) (some ':') rest with
      | none =>
          have hplace : (some 0).map (· + name.length) = some name.length := by
            rw [Option.map_some, Nat.zero_add]
          show patchFrom _ _ ((some 0).map (· + name.length)) _ = _
          rw [hplace, patchFrom_last_label, if_pos ⟨rfl, rfl⟩]
          rfl
      | some d =>
          have hlast : (label name).getLast?.or before = some ':' := by
            rw [label, List.getLast?_append]
            rfl
          show patchFrom _ _ (some ((label name).length + d + name.length)) _ = _
          rw [Nat.add_assoc, patchFrom_copy, hlast, if_neg fun h => Option.some_ne_none d h.2]
          rfl

end Label

/-! ## Where a label cannot start -/

section NoLabel

variable {name : List Char}

/-- Up to the first colon of a text, the label stands where the name does. -/
theorem label_prefix_iff (hcolon : ':' ∉ name) {x : List Char} (hx : ':' ∉ x) (rest : List Char) :
    label name <+: x ++ ':' :: rest ↔ x = name := by
  rw [label]
  induction x generalizing name with
  | nil =>
      cases name with
      | nil => simp
      | cons d name =>
          obtain ⟨hd, -⟩ : ':' ≠ d ∧ ':' ∉ name := by simpa using hcolon
          simp [hd.symm]
  | cons c x ih =>
      obtain ⟨hc, hx⟩ : ':' ≠ c ∧ ':' ∉ x := by simpa using hx
      cases name with
      | nil => simp [hc]
      | cons d name =>
          obtain ⟨-, hname⟩ : ':' ≠ d ∧ ':' ∉ name := by simpa using hcolon
          rw [List.cons_append, List.cons_append, List.cons_prefix_cons, ih hname hx,
            List.cons_eq_cons, eq_comm]

theorem not_label_prefix {x : List Char} (hx : ':' ∉ x) : ¬ label name <+: x :=
  fun h => hx (h.subset (List.mem_append_right _ (List.mem_singleton_self ':')))

/-- A label does not go past a character that is not in it. -/
theorem not_label_prefix_append_cons {x : List Char} (hx : ':' ∉ x) {c : Char}
    (hc : c ∉ label name) (rest : List Char) : ¬ label name <+: x ++ c :: rest := by
  intro h
  rcases List.prefix_or_prefix_of_prefix h (List.prefix_append x _) with hinside | ⟨extra, hextra⟩
  · exact not_label_prefix hx hinside
  · rw [← hextra, List.prefix_append_right_inj] at h
    cases extra with
    | nil =>
        rw [List.append_nil] at hextra
        subst hextra
        exact not_label_prefix hx List.prefix_rfl
    | cons d extra =>
        obtain ⟨rfl, -⟩ := List.cons_prefix_cons.mp h
        exact hc (hextra ▸ List.mem_append_right _ List.mem_cons_self)

end NoLabel

end Ambient.ParameterPatch

namespace Ambient

open Text ParameterPatch

/-! ## Identifiers -/

/-- Whether a character can stand in an identifier of a module. -/
def isScriptChar (c : Char) : Bool :=
  isIdentifierChar c || c == '$'

/-- Whether a name is an ASCII identifier: one or more such characters, the first
of which is no digit. -/
def isScriptName (name : String) : Bool :=
  match name.toList with
  | [] => false
  | c :: cs => isScriptChar c && !c.isDigit && cs.all isScriptChar

theorem toNat_lt_of_isScriptChar {c : Char} (h : isScriptChar c = true) : c.toNat < 0x80 := by
  have hle : ∀ {b : UInt32}, c.val ≤ b → c.toNat ≤ b.toNat := UInt32.le_iff_toNat_le.mp
  have hcases : (((c.isUpper || c.isLower) || c.isDigit) || c == '_' || c == '$') = true := h
  rw [Bool.or_eq_true, Bool.or_eq_true, Bool.or_eq_true, Bool.or_eq_true, beq_iff_eq, beq_iff_eq]
    at hcases
  rcases hcases with (((hupper | hlower) | hdigit) | rfl) | rfl
  · exact Nat.lt_of_le_of_lt (hle (of_decide_eq_true hupper).2) (by decide)
  · have hlast := (Bool.and_eq_true_iff.mp hlower).2
    exact Nat.lt_of_le_of_lt (hle (of_decide_eq_true hlast)) (by decide)
  · have hlast := (Bool.and_eq_true_iff.mp hdigit).2
    exact Nat.lt_of_le_of_lt (hle (of_decide_eq_true hlast)) (by decide)
  · decide
  · decide

theorem isWordChar_of_isScriptChar {c : Char} (h : isScriptChar c = true) (hc : c ≠ '$') :
    isWordChar c = true := by
  have hall : ∀ n < 0x80, isScriptChar (Char.ofNat n) = true → Char.ofNat n ≠ '$' →
      isWordChar (Char.ofNat n) = true := by
    decide +kernel
  have hcode := hall c.toNat (toNat_lt_of_isScriptChar h)
  rw [Char.ofNat_toNat] at hcode
  exact hcode h hc

theorem isWordChar_dollar : isWordChar '$' = false := by
  decide +kernel

theorem isWordChar_dot : isWordChar '.' = false := by
  decide +kernel

theorem isWordSide_none : isWordSide none = false :=
  rfl

theorem isWordSide_space : isWordSide (some ' ') = false := by
  decide +kernel

theorem isScriptName_iff {name : String} :
    isScriptName name = true ↔
      ∃ c cs, name.toList = c :: cs ∧ c.isDigit = false ∧ ∀ d ∈ c :: cs, isScriptChar d = true := by
  unfold isScriptName
  cases name.toList with
  | nil => simp
  | cons c cs =>
      simp only [Bool.and_eq_true, Bool.not_eq_true', List.all_eq_true, List.cons_eq_cons,
        List.forall_mem_cons]
      constructor
      · rintro ⟨⟨hc, hdigit⟩, hcs⟩
        exact ⟨c, cs, ⟨rfl, rfl⟩, hdigit, hc, hcs⟩
      · rintro ⟨c', cs', ⟨rfl, rfl⟩, hdigit, hc, hcs⟩
        exact ⟨⟨hc, hdigit⟩, hcs⟩

theorem isScriptChar_of_mem {name : String} (h : isScriptName name = true) :
    ∀ c ∈ name.toList, isScriptChar c = true := by
  obtain ⟨c, cs, hname, -, hall⟩ := isScriptName_iff.mp h
  rwa [hname]

theorem not_mem_of_isScriptName {name : String} (h : isScriptName name = true) {c : Char}
    (hc : isScriptChar c = false) : c ∉ name.toList := by
  intro hmem
  rw [isScriptChar_of_mem h c hmem] at hc
  exact Bool.noConfusion hc

theorem isScriptChar_separators :
    isScriptChar ':' = false ∧ isScriptChar '\n' = false ∧ isScriptChar ',' = false ∧
      isScriptChar ' ' = false ∧ isScriptChar '.' = false := by
  decide

theorem colon_not_mem_of_isScriptName {name : String} (h : isScriptName name = true) :
    ':' ∉ name.toList :=
  not_mem_of_isScriptName h isScriptChar_separators.1

theorem lineFeed_not_mem_of_isScriptName {name : String} (h : isScriptName name = true) :
    '\n' ∉ name.toList :=
  not_mem_of_isScriptName h isScriptChar_separators.2.1

/-- A name that is looked for: an identifier that does not begin with `$`. -/
structure IsSought (name : String) : Prop where
  script : isScriptName name = true
  noDollar : name.toList.head? ≠ some '$'

namespace IsSought

variable {name : String}

theorem not_mem_label (h : IsSought name) {c : Char} (hc : c ∈ [',', ' ', '.']) :
    c ∉ label name.toList := by
  obtain ⟨-, -, hcomma, hspace, hdot⟩ := isScriptChar_separators
  have hout : isScriptChar c = false ∧ c ≠ ':' := by
    rcases List.mem_cons.mp hc with rfl | hc
    · exact ⟨hcomma, by decide⟩
    · rcases List.mem_cons.mp hc with rfl | hc
      · exact ⟨hspace, by decide⟩
      · rw [List.mem_singleton.mp hc]
        exact ⟨hdot, by decide⟩
  rw [label, List.mem_append, List.mem_singleton, not_or]
  exact ⟨not_mem_of_isScriptName h.script hout.1, hout.2⟩

theorem colon_not_mem (h : IsSought name) : ':' ∉ name.toList :=
  colon_not_mem_of_isScriptName h.script

theorem lineFeed_not_mem (h : IsSought name) : '\n' ∉ name.toList :=
  lineFeed_not_mem_of_isScriptName h.script

theorem ne_nil (h : IsSought name) : name.toList ≠ [] := by
  obtain ⟨c, cs, hname, -⟩ := isScriptName_iff.mp h.script
  rw [hname]
  exact List.cons_ne_nil c cs

theorem isWordBoundary (h : IsSought name) (before : Option Char) (rest : List Char) :
    isWordBoundary before (name.toList ++ rest).head? = !isWordSide before := by
  obtain ⟨c, cs, hname, -, hall⟩ := isScriptName_iff.mp h.script
  have hc : c ≠ '$' := by
    rintro rfl
    exact h.noDollar (by rw [hname]; rfl)
  have hword : isWordChar c = true := isWordChar_of_isScriptChar (hall c List.mem_cons_self) hc
  rw [hname, List.cons_append, List.head?_cons, Text.isWordBoundary]
  show (isWordSide before != isWordChar c) = _
  rw [hword]
  cases isWordSide before <;> rfl

end IsSought

/-! ## Written parameters -/

/-- A parameter as it is written: what stands in front of its name, the name and
the type. -/
structure WrittenParameter where
  lead : String
  name : String
  type : String
deriving DecidableEq

namespace WrittenParameter

def text (w : WrittenParameter) : String :=
  w.lead ++ w.name ++ ": " ++ w.type

/-- The parameter with a `_` behind its name. -/
def renamed (w : WrittenParameter) : WrittenParameter :=
  { w with name := w.name ++ "_" }

/-- The label of a name starts in the parameter: it has that name, or one that
ends in `$` and that name. -/
def Shows (name : String) (w : WrittenParameter) : Prop :=
  w.name = name ∨ '$' :: name.toList <:+ w.name.toList

instance (name : String) (w : WrittenParameter) : Decidable (w.Shows name) :=
  inferInstanceAs (Decidable (_ ∨ _))

/-- Some line ends in the type of the parameter. -/
def BreaksLine (w : WrittenParameter) : Prop :=
  '\n' ∈ w.type.toList

instance (w : WrittenParameter) : Decidable w.BreaksLine :=
  inferInstanceAs (Decidable (_ ∈ _))

/-- Nothing or the variadic marker stands in front of the name, which is an
identifier, and there is no colon in the type. -/
structure IsPlain (w : WrittenParameter) : Prop where
  lead : w.lead = "" ∨ w.lead = "..."
  name : isScriptName w.name = true
  type : ':' ∉ w.type.toList

theorem toList_text (w : WrittenParameter) :
    w.text.toList = w.lead.toList ++ (w.name.toList ++ ':' :: ' ' :: w.type.toList) := by
  simp [text]

theorem toList_text_renamed (w : WrittenParameter) :
    w.renamed.text.toList =
      w.lead.toList ++ (w.name.toList ++ '_' :: ':' :: ' ' :: w.type.toList) := by
  simp [text, renamed]

/-- What is written behind a parameter for those that follow it. -/
def behind (ws : List WrittenParameter) : List Char :=
  ws.flatMap fun w => ',' :: ' ' :: w.text.toList

theorem behind_cons (w : WrittenParameter) (ws : List WrittenParameter) :
    behind (w :: ws) = [',', ' '] ++ (w.text.toList ++ behind ws) := by
  rw [behind, List.flatMap_cons]
  rfl

theorem behind_eq_nil_or_cons (ws : List WrittenParameter) :
    behind ws = [] ∨ ∃ rest, behind ws = ',' :: rest := by
  cases ws with
  | nil => exact .inl rfl
  | cons w ws => exact .inr ⟨_, behind_cons w ws⟩

theorem toList_intercalate_text (w : WrittenParameter) (ws : List WrittenParameter) :
    (", ".intercalate ((w :: ws).map text)).toList = w.text.toList ++ behind ws := by
  rw [String.toList_intercalate]
  induction ws generalizing w with
  | nil => simp [behind]
  | cons u ws ih =>
      have hrest := ih u
      rw [List.map_cons, List.map_cons] at hrest ⊢
      rw [List.map_cons, List.map_cons, List.intercalate_cons_cons, hrest, behind_cons,
        List.append_assoc]
      rfl

/-! ## Where the label of a name starts -/

section Places

variable {name : String} {w : WrittenParameter}

theorem IsPlain.eq_dot_of_mem_lead (hw : w.IsPlain) : ∀ c ∈ w.lead.toList, c = '.' := by
  rcases hw.lead with hlead | hlead
  · simp [hlead]
  · simp [hlead]

theorem IsPlain.lineFeed_not_mem_lead (hw : w.IsPlain) : '\n' ∉ w.lead.toList :=
  fun hmem => absurd (hw.eq_dot_of_mem_lead _ hmem) (by decide)

theorem IsPlain.isWordSide_lead (hw : w.IsPlain) {before : Option Char}
    (hbefore : isWordSide before = false) :
    isWordSide (w.lead.toList.getLast?.or before) = false := by
  rcases hw.lead with hlead | hlead
  · rw [hlead]
    exact hbefore
  · rw [hlead]
    exact isWordChar_dot

theorem quiet_lead (hn : IsSought name) (hw : w.IsPlain) (before : Option Char)
    (rest : List Char) : Quiet name.toList before w.lead.toList rest := by
  refine quiet_of_not_prefix fun b hb hne => ?_
  obtain ⟨c, b, rfl⟩ := List.exists_cons_of_ne_nil hne
  obtain rfl : c = '.' := hw.eq_dot_of_mem_lead c (hb.subset List.mem_cons_self)
  exact not_label_prefix_append_cons (x := []) List.not_mem_nil (hn.not_mem_label (by simp))
    (b ++ rest)

theorem quiet_type (hn : IsSought name) (hw : w.IsPlain) (before : Option Char)
    (ws : List WrittenParameter) :
    Quiet name.toList before (' ' :: w.type.toList) (behind ws) := by
  refine quiet_of_not_prefix fun b hb _ => ?_
  have hcolon : ':' ∉ b := fun hmem =>
    hw.type ((List.mem_cons.mp (hb.subset hmem)).resolve_left (by decide))
  rcases behind_eq_nil_or_cons ws with hnil | ⟨rest, hrest⟩
  · rw [hnil, List.append_nil]
    exact not_label_prefix hcolon
  · rw [hrest]
    exact not_label_prefix_append_cons hcolon (hn.not_mem_label (by simp)) rest

/-- In a name that does not show the sought one, a word character stands in front
of each place where the sought one ends the name. -/
theorem quiet_name (hn : IsSought name) (hw : w.IsPlain) (hshows : ¬ w.Shows name)
    (before : Option Char) (rest : List Char) :
    Quiet name.toList before w.name.toList (':' :: rest) := by
  have hscript := isScriptChar_of_mem hw.name
  refine quiet_of_startsAt fun a b hab hb => Bool.eq_false_iff.mpr fun hstart => hshows ?_
  obtain ⟨hboundary, hpre⟩ := Bool.and_eq_true_iff.mp hstart
  have hcolon : ':' ∉ b := fun hmem =>
    colon_not_mem_of_isScriptName hw.name (hab ▸ List.mem_append_right a hmem)
  obtain rfl : b = name.toList :=
    (label_prefix_iff hn.colon_not_mem hcolon rest).mp (List.isPrefixOf_iff_prefix.mp hpre)
  rw [hn.isWordBoundary] at hboundary
  rcases List.eq_nil_or_concat a with rfl | ⟨a, c, rfl⟩
  · exact .inl (String.toList_inj.mp hab)
  · rw [List.concat_eq_append] at hab hboundary
    rw [List.getLast?_concat] at hboundary
    have hword : isWordChar c = false := by simpa [isWordSide] using hboundary
    have hc : c = '$' := by
      by_contra hc
      rw [isWordChar_of_isScriptChar (hscript c (by rw [hab]; simp)) hc] at hword
      exact Bool.noConfusion hword
    rw [List.append_assoc, hc] at hab
    exact .inr ⟨a, hab.symm⟩

theorem quiet_text (hn : IsSought name) (hw : w.IsPlain) (hshows : ¬ w.Shows name)
    (before : Option Char) (ws : List WrittenParameter) :
    Quiet name.toList before w.text.toList (behind ws) := by
  have hcolon : ¬ label name.toList <+: [] ++ ':' :: (' ' :: w.type.toList ++ behind ws) := by
    rw [label_prefix_iff hn.colon_not_mem List.not_mem_nil]
    exact hn.ne_nil.symm
  rw [toList_text, quiet_append, quiet_append]
  refine ⟨quiet_lead hn hw _ _, quiet_name hn hw hshows _ _, ?_, quiet_type hn hw _ ws⟩
  rw [Bool.eq_false_iff]
  intro hstart
  exact hcolon (List.isPrefixOf_iff_prefix.mp (Bool.and_eq_true_iff.mp hstart).2)

/-- In a parameter that shows the name its label starts once, at the end of the
name of the parameter. -/
theorem exists_label_of_shows (hn : IsSought name) (hw : w.IsPlain) (hshows : w.Shows name)
    {before : Option Char} (hbefore : isWordSide before = false) (rest : List Char) :
    ∃ start, w.text.toList = start ++ (label name.toList ++ ' ' :: w.type.toList) ∧
      w.renamed.text.toList =
        start ++ (name.toList ++ ['_', ':'] ++ ' ' :: w.type.toList) ∧
      '\n' ∉ start ∧
      Quiet name.toList before start (label name.toList ++ rest) ∧
      startsAt (label name.toList) (start.getLast?.or before)
        (label name.toList ++ rest) = true := by
  obtain ⟨first, hname, hfirst⟩ : ∃ first, w.name.toList = first ++ name.toList ∧
      (first = [] ∨ first.getLast? = some '$') := by
    rcases hshows with hsame | ⟨a, ha⟩
    · exact ⟨[], by rw [hsame, List.nil_append], .inl rfl⟩
    · exact ⟨a ++ ['$'], by rw [← ha]; simp, .inr List.getLast?_concat⟩
  have hside : isWordSide ((w.lead.toList ++ first).getLast?.or before) = false := by
    rcases hfirst with rfl | hdollar
    · rw [List.append_nil]
      exact hw.isWordSide_lead hbefore
    · rw [List.getLast?_append, hdollar]
      exact isWordChar_dollar
  refine ⟨w.lead.toList ++ first, ?_, ?_, ?_, ?_, ?_⟩
  · rw [toList_text, hname, label]
    simp
  · rw [toList_text_renamed, hname]
    simp
  · intro hmem
    rcases List.mem_append.mp hmem with hmem | hmem
    · exact hw.lineFeed_not_mem_lead hmem
    · exact lineFeed_not_mem_of_isScriptName hw.name (hname ▸ List.mem_append_left _ hmem)
  · rw [quiet_append]
    refine ⟨quiet_lead hn hw _ _, quiet_of_not_prefix fun b hb hne hpre => hne ?_⟩
    have hcolon : ':' ∉ b ++ name.toList := by
      intro hmem
      refine colon_not_mem_of_isScriptName hw.name ?_
      rw [hname]
      exact (List.mem_append.mp hmem).elim (fun h => List.mem_append_left _ (hb.subset h))
        (List.mem_append_right _)
    have htext : b ++ (label name.toList ++ rest) = (b ++ name.toList) ++ ':' :: rest := by
      simp [label]
    rw [htext, label_prefix_iff hn.colon_not_mem hcolon] at hpre
    exact List.append_left_eq_self.mp hpre
  · have htext : label name.toList ++ rest = name.toList ++ ':' :: rest := by simp [label]
    refine Bool.and_eq_true_iff.mpr ⟨?_, List.isPrefixOf_iff_prefix.mpr (List.prefix_append _ _)⟩
    rw [htext, hn.isWordBoundary, hside]
    rfl

end Places

/-! ## The parameters that are renamed -/

/-- Whether the name shows in one of the parameters up to the end of the line. -/
def showsNext (name : String) : List WrittenParameter → Bool
  | [] => false
  | w :: below => decide (w.Shows name) || (!decide w.BreaksLine && showsNext name below)

/-- The parameters with the last of several on each line renamed; `seen` tells
whether the name has shown before on the line. -/
def renameRepeats (name : String) (seen : Bool) : List WrittenParameter → List WrittenParameter
  | [] => []
  | w :: below =>
      (if seen = true ∧ w.Shows name ∧ ¬ (¬ w.BreaksLine ∧ showsNext name below = true) then
        w.renamed else w) ::
        renameRepeats name (!decide w.BreaksLine && (seen || decide (w.Shows name))) below

section Renamed

variable {name : String}

theorem lineFeed_mem_text {w : WrittenParameter} (hw : w.IsPlain) :
    '\n' ∈ w.text.toList ↔ w.BreaksLine := by
  simp [toList_text, hw.lineFeed_not_mem_lead, lineFeed_not_mem_of_isScriptName hw.name,
    BreaksLine]

theorem quiet_separator (hn : IsSought name) (before : Option Char) (rest : List Char) :
    Quiet name.toList before [',', ' '] rest := by
  refine quiet_of_not_prefix fun b hb hne => ?_
  obtain ⟨c, b, rfl⟩ := List.exists_cons_of_ne_nil hne
  have hc : c ∈ [',', ' ', '.'] := List.mem_append_left ['.'] (hb.subset List.mem_cons_self)
  exact not_label_prefix_append_cons (x := []) List.not_mem_nil (hn.not_mem_label hc) (b ++ rest)

/-- The search finds the name exactly if it shows. -/
theorem isSome_lastStart?_behind (hn : IsSought name) {ws : List WrittenParameter}
    (hws : ∀ w ∈ ws, w.IsPlain) (before : Option Char) :
    (lastStart? (label name.toList) before (behind ws)).isSome = showsNext name ws := by
  induction ws generalizing before with
  | nil =>
      show (lastStart? (label name.toList) before []).isSome = false
      rw [lastStart?, startsAt_nil]
      rfl
  | cons w ws ih =>
      obtain ⟨hw, hws⟩ := List.forall_mem_cons.mp hws
      rw [behind_cons, lastStart?_quiet (quiet_separator hn before _) (by decide),
        Option.isSome_map, showsNext]
      by_cases hshows : w.Shows name
      · obtain ⟨start, htext, -, hline, hquiet, hstart⟩ :=
          exists_label_of_shows hn hw hshows isWordSide_space
            (' ' :: w.type.toList ++ behind ws)
        rw [htext, List.append_assoc, List.append_assoc]
        show (lastStart? (label name.toList) (some ' ') _).isSome = _
        rw [lastStart?_quiet hquiet hline, Option.isSome_map,
          lastStart?_label hn.colon_not_mem hn.lineFeed_not_mem hstart, decide_eq_true hshows]
        rfl
      · have hquiet := quiet_text hn hw hshows (some ' ') ws
        rw [decide_eq_false hshows, Bool.false_or]
        by_cases hbreaks : w.BreaksLine
        · have hnone := lastStart?_quiet_of_feed hquiet ((lineFeed_mem_text hw).mpr hbreaks)
          show (lastStart? (label name.toList) (some ' ') _).isSome = _
          rw [hnone, decide_eq_true hbreaks]
          rfl
        · have hline : '\n' ∉ w.text.toList := fun h => hbreaks ((lineFeed_mem_text hw).mp h)
          show (lastStart? (label name.toList) (some ' ') _).isSome = _
          rw [lastStart?_quiet hquiet hline, Option.isSome_map, ih hws, decide_eq_false hbreaks]
          rfl

theorem lineFeed_mem_cons_type {w : WrittenParameter} :
    '\n' ∈ ' ' :: w.type.toList ↔ w.BreaksLine := by
  simp [BreaksLine]

/-- Behind the label in a parameter no label starts on the line, unless the type
has no line feed and the name shows behind it. -/
theorem lastStart?_type_eq_none_iff (hn : IsSought name) {w : WrittenParameter} (hw : w.IsPlain)
    {below : List WrittenParameter} (hbelow : ∀ u ∈ below, u.IsPlain) (before : Option Char) :
    lastStart? (label name.toList) before (' ' :: w.type.toList ++ behind below) = none ↔
      ¬ (¬ w.BreaksLine ∧ showsNext name below = true) := by
  have hquiet := quiet_type hn hw before below
  by_cases hbreaks : w.BreaksLine
  · rw [lastStart?_quiet_of_feed hquiet (lineFeed_mem_cons_type.mpr hbreaks)]
    simp [hbreaks]
  · rw [lastStart?_quiet hquiet fun h => hbreaks (lineFeed_mem_cons_type.mp h),
      Option.map_eq_none_iff, ← Option.not_isSome_iff_eq_none, isSome_lastStart?_behind hn hbelow]
    simp [hbreaks]

theorem patchRest_text (hn : IsSought name) {w : WrittenParameter} (hw : w.IsPlain)
    {below : List WrittenParameter} (hbelow : ∀ u ∈ below, u.IsPlain) {before : Option Char}
    (hbefore : isWordSide before = false) (seen : Bool) :
    ∃ last, patchRest name.toList seen before (w.text.toList ++ behind below) =
      (if seen = true ∧ w.Shows name ∧ ¬ (¬ w.BreaksLine ∧ showsNext name below = true) then
        w.renamed else w).text.toList ++
        patchRest name.toList (!decide w.BreaksLine && (seen || decide (w.Shows name))) last
          (behind below) := by
  by_cases hshows : w.Shows name
  · obtain ⟨start, htext, hrenamed, hline, hquiet, hstart⟩ :=
      exists_label_of_shows hn hw hshows hbefore (' ' :: w.type.toList ++ behind below)
    have htype := quiet_type hn hw (some ':') below
    have hnext := lastStart?_type_eq_none_iff hn hw hbelow (some ':')
    refine ⟨(' ' :: w.type.toList).getLast?.or (some ':'), ?_⟩
    have hseen : (!decide w.BreaksLine && (seen || decide (w.Shows name))) =
        (true && !decide ('\n' ∈ ' ' :: w.type.toList)) := by
      rw [decide_eq_true hshows, Bool.or_true, Bool.and_comm,
        decide_eq_decide.mpr lineFeed_mem_cons_type]
    rw [hseen, htext, List.append_assoc, List.append_assoc, patchRest_quiet hquiet,
      decide_eq_false hline, Bool.not_false, Bool.and_true,
      patchRest_label hn.colon_not_mem hn.lineFeed_not_mem hstart, patchRest_quiet htype]
    by_cases hmark : seen = true ∧ ¬ (¬ w.BreaksLine ∧ showsNext name below = true)
    · rw [if_pos ⟨hmark.1, hnext.mpr hmark.2⟩, if_pos ⟨hmark.1, hshows, hmark.2⟩, hrenamed]
      simp only [List.append_assoc]
    · rw [if_neg fun h => hmark ⟨h.1, hnext.mp h.2⟩, if_neg fun h => hmark ⟨h.1, h.2.2⟩, htext]
      simp only [List.append_assoc]
  · have hquiet := quiet_text hn hw hshows before below
    have hunmarked : ¬ (seen = true ∧ w.Shows name ∧
        ¬ (¬ w.BreaksLine ∧ showsNext name below = true)) := fun h => hshows h.2.1
    refine ⟨w.text.toList.getLast?.or before, ?_⟩
    rw [patchRest_quiet hquiet, if_neg hunmarked, decide_eq_false hshows, Bool.or_false,
      Bool.and_comm, decide_eq_decide.mpr (lineFeed_mem_text hw)]

theorem patchRest_behind (hn : IsSought name) {ws : List WrittenParameter}
    (hws : ∀ w ∈ ws, w.IsPlain) (seen : Bool) (before : Option Char) :
    patchRest name.toList seen before (behind ws) = behind (renameRepeats name seen ws) := by
  induction ws generalizing seen before with
  | nil => rfl
  | cons w ws ih =>
      obtain ⟨hw, hws⟩ := List.forall_mem_cons.mp hws
      obtain ⟨last, hpatch⟩ := patchRest_text hn hw hws isWordSide_space seen
      have hseen : (seen && !decide ('\n' ∈ [',', ' '])) = seen := Bool.and_true seen
      rw [behind_cons, patchRest_quiet (quiet_separator hn before _), hseen]
      show _ ++ patchRest _ _ (some ' ') _ = _
      rw [hpatch, ih hws, renameRepeats, behind_cons]

/-- **The patch of a parameter list renames the last of several parameters on a
line.** -/
theorem apply_intercalate (hn : IsSought name) {ws : List WrittenParameter}
    (hws : ∀ w ∈ ws, w.IsPlain) :
    ParameterPatch.apply name (", ".intercalate (ws.map text)) =
      ", ".intercalate ((renameRepeats name false ws).map text) := by
  cases ws with
  | nil => rfl
  | cons w ws =>
      obtain ⟨hw, hws⟩ := List.forall_mem_cons.mp hws
      obtain ⟨last, hpatch⟩ := patchRest_text hn hw hws isWordSide_none false
      rw [patchRest_behind hn hws] at hpatch
      rw [← String.toList_inj, ParameterPatch.apply, String.toList_ofList,
        toList_intercalate_text, renameRepeats, toList_intercalate_text]
      exact hpatch

end Renamed

end WrittenParameter

end Ambient
