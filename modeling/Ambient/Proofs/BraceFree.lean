import Ambient.Proofs.Bindings
import Ambient.Proofs.Braces
import Ambient.Proofs.Dependencies

/-!
# Where braces can come from

Nothing that shapes a text writes a brace.  Trimming, splitting and tidying only
leave characters out; the patch of a parameter list adds `_`; lowercasing maps no
letter to a brace; the name of a namespace holds identifier characters.  So what
is rendered from texts without braces has no braces but those that are written
for blocks, and each renderer that opens no block writes none.

`Description.texts` and `Settings.texts` are all texts that a description and the
settings hold.
-/

namespace Ambient

open Text

/-! ## Texts -/

theorem braceFree_iff_filter {cs : List Char} : BraceFree cs ↔ cs.filter isBrace = [] := by
  rw [List.filter_eq_nil_iff]
  exact forall₂_congr fun c _ => by rw [Bool.not_eq_true]

theorem BraceFree.text_append {a b : String} (ha : BraceFree a.toList) (hb : BraceFree b.toList) :
    BraceFree (a ++ b).toList := by
  rw [String.toList_append]
  exact ha.append hb

theorem BraceFree.trimEnd {cs : List Char} (h : BraceFree cs) : BraceFree (trimEnd cs) :=
  h.mono (List.rdropWhile_prefix isBlank cs).subset

theorem BraceFree.mem_splitLines {cs line : List Char} (h : BraceFree cs)
    (hline : line ∈ splitLines cs) : BraceFree line :=
  h.mono (mem_of_mem_splitOn hline).2

theorem braceFree_joinLines {lines : List (List Char)} (h : ∀ l ∈ lines, BraceFree l) :
    BraceFree (joinLines lines) := by
  rw [braceFree_iff_filter, filter_joinLines rfl, List.flatMap_eq_nil_iff]
  exact fun l hl => braceFree_iff_filter.mp (h l hl)

theorem braceFree_intercalate {separator : String} (hseparator : BraceFree separator.toList) :
    ∀ {texts : List String}, (∀ t ∈ texts, BraceFree t.toList) →
      BraceFree (separator.intercalate texts).toList
  | [], _ => by
      rw [String.toList_intercalate]
      exact fun c hc => absurd hc List.not_mem_nil
  | [t], h => by
      rw [String.toList_intercalate, List.map_singleton, List.intercalate_singleton]
      exact h t (List.mem_singleton_self t)
  | t :: u :: texts, h => by
      have hrest := braceFree_intercalate hseparator fun v hv => h v (List.mem_cons_of_mem t hv)
      rw [String.toList_intercalate, List.map_cons] at hrest ⊢
      rw [List.map_cons, List.intercalate_cons_cons]
      exact ((h t List.mem_cons_self).append hseparator).append hrest

/-! ## Documentation -/

theorem mem_paragraphs (lines : List (List Char)) :
    (paragraphs lines).1 ⊆ lines ∧
      ∀ p ∈ (paragraphs lines).2, p.line ∈ lines ∧ p.blanks ⊆ lines := by
  induction lines with
  | nil => exact ⟨List.Subset.refl [], fun p hp => absurd hp List.not_mem_nil⟩
  | cons line lines ih =>
      obtain ⟨hblanks, hlater⟩ := ih
      have hkeep : ∀ p ∈ (paragraphs lines).2, p.line ∈ line :: lines ∧ p.blanks ⊆ line :: lines :=
        fun p hp => ⟨List.mem_cons_of_mem _ (hlater p hp).1,
          List.subset_cons_of_subset _ (hlater p hp).2⟩
      have hstep : paragraphs (line :: lines) =
          if isBlankLine line then (line :: (paragraphs lines).1, (paragraphs lines).2)
          else ([], ⟨line, (paragraphs lines).1⟩ :: (paragraphs lines).2) := rfl
      rw [hstep]
      split
      · exact ⟨List.cons_subset_cons line hblanks, hkeep⟩
      · refine ⟨List.nil_subset _, fun p hp => ?_⟩
        rcases List.mem_cons.mp hp with rfl | hp
        · exact ⟨List.mem_cons_self, List.subset_cons_of_subset _ hblanks⟩
        · exact hkeep p hp

theorem braceFree_collapseBlanks {lines : List (List Char)} (h : ∀ l ∈ lines, BraceFree l) :
    ∀ l ∈ collapseBlanks lines, BraceFree l := by
  have hempty : BraceFree [] := by decide
  obtain ⟨hblanks, hlater⟩ := mem_paragraphs lines
  intro l hl
  rcases List.mem_append.mp hl with hl | hl
  · split at hl
    · simp only [List.mem_cons, List.not_mem_nil, or_false, or_self] at hl
      exact hl ▸ hempty
    · exact h l (hblanks hl)
  · obtain ⟨p, hp, hl⟩ := List.mem_flatMap.mp hl
    obtain ⟨hline, hafter⟩ := hlater p hp
    rw [Paragraph.tidy] at hl
    split at hl
    · rcases List.mem_cons.mp hl with rfl | hl
      · exact (h _ hline).mono (List.rdropWhile_prefix (· == ' ') p.line).subset
      · exact List.mem_singleton.mp hl ▸ hempty
    · rcases List.mem_cons.mp hl with rfl | hl
      · exact h _ hline
      · exact h l (hafter hl)

theorem braceFree_unbroken {cs : List Char} (h : BraceFree cs) (gap : Bool) :
    BraceFree (unbroken gap cs) := by
  induction cs generalizing gap with
  | nil => exact h
  | cons c cs ih =>
      have hrest : BraceFree cs := h.mono (List.subset_cons_self c cs)
      have hc : BraceFree [c] := h.mono (by simp)
      have hspace : BraceFree [' '] := by decide
      rw [unbroken]
      split
      · exact ih hrest true
      · split
        · exact hspace.append (ih hrest true)
        · exact hc.append (ih hrest false)

theorem braceFree_block {lines : List String} (h : ∀ l ∈ lines, BraceFree l.toList) :
    ∀ l ∈ block lines, BraceFree l.toList := by
  intro l hl
  rcases List.mem_append.mp hl with hl | hl
  · rcases List.mem_append.mp hl with hl | hl
    · exact List.mem_singleton.mp hl ▸ by decide
    · obtain ⟨k, hk, rfl⟩ := List.mem_map.mp hl
      exact BraceFree.text_append (by decide) (h k hk)
  · exact List.mem_singleton.mp hl ▸ by decide

theorem braceFree_docBlock {doc : String} (h : BraceFree doc.toList) :
    ∀ l ∈ docBlock doc, BraceFree l.toList := by
  refine braceFree_block fun l hl => ?_
  obtain ⟨line, hline, rfl⟩ := List.mem_map.mp hl
  rw [String.toList_ofList]
  exact (braceFree_joinLines (braceFree_collapseBlanks fun _ => h.mem_splitLines)).trimEnd
    |>.mem_splitLines hline

/-! ## Lowercase -/

/-- Whether a run moves no letter onto a brace. -/
def Text.CaseRun.AvoidsBraces (r : CaseRun) : Prop :=
  r.last + r.offset < 0x7B ∨ 0x7D < r.first + r.offset

instance (r : CaseRun) : Decidable r.AvoidsBraces :=
  inferInstanceAs (Decidable (_ ∨ _))

theorem caseRuns_avoidBraces : ∀ r ∈ caseRuns, r.AvoidsBraces := by
  decide +kernel

theorem lowerCode_avoids {runs : List CaseRun} (h : ∀ r ∈ runs, r.AvoidsBraces) {n : Nat}
    (hn : 0x7D < n) : lowerCode runs n < 0x7B ∨ 0x7D < lowerCode runs n := by
  induction runs with
  | nil => exact .inr hn
  | cons r runs ih =>
      rw [lowerCode]
      split
      · have hr : r.last + r.offset < 0x7B ∨ 0x7D < r.first + r.offset := h r List.mem_cons_self
        omega
      · exact ih fun q hq => h q (List.mem_cons_of_mem r hq)

theorem isBrace_ofNat {n : Nat} (h : n < 0x7B ∨ 0x7D < n) : isBrace (Char.ofNat n) = false := by
  by_cases hvalid : n.isValidChar
  · have hcode : (Char.ofNat n).toNat = n := by
      rw [Char.ofNat, dif_pos hvalid]
      rfl
    rw [Bool.eq_false_iff]
    intro hbrace
    rcases (Bool.or_eq_true _ _).mp hbrace with heq | heq
    · rw [eq_of_beq heq] at hcode
      have hopen : '\x7b'.toNat = 0x7B := rfl
      omega
    · rw [eq_of_beq heq] at hcode
      have hclose : '\x7d'.toNat = 0x7D := rfl
      omega
  · rw [Char.ofNat, dif_neg hvalid]
    rfl

theorem isBrace_toLower {c : Char} (h : isBrace c = false) (hc : c.toNat < 0x80) :
    isBrace c.toLower = false := by
  have hall : ∀ n < 0x80, isBrace (Char.ofNat n) = false → isBrace (Char.ofNat n).toLower = false := by
    decide
  have hc' := hall c.toNat hc
  rw [Char.ofNat_toNat] at hc'
  exact hc' h

theorem braceFree_lowerChar {c : Char} (h : isBrace c = false) : BraceFree (lowerChar c) := by
  unfold lowerChar
  split
  · rename_i hascii
    exact fun d hd => List.mem_singleton.mp hd ▸ isBrace_toLower h hascii
  · split
    · decide
    · rename_i hascii _
      exact fun d hd => List.mem_singleton.mp hd ▸
        isBrace_ofNat (lowerCode_avoids caseRuns_avoidBraces (by omega))

theorem braceFree_lowerAfter {cs : List Char} (h : BraceFree cs) (before : List Char) :
    BraceFree (lowerAfter before cs) := by
  induction cs generalizing before with
  | nil => exact h
  | cons c cs ih =>
      have hrest := ih (h.mono (List.subset_cons_self c cs)) (c :: before)
      have hc := h c List.mem_cons_self
      rw [lowerAfter]
      refine BraceFree.append ?_ hrest
      split
      · intro d hd
        obtain rfl := List.mem_singleton.mp hd
        unfold lowerSigma
        split <;> rfl
      · exact braceFree_lowerChar hc

/-! ## Types and parameters -/

theorem ParameterPatch.Marked.braceFree {cs ds : List Char} (h : Marked cs ds)
    (hcs : BraceFree cs) : BraceFree ds := by
  have hmark : BraceFree ['_'] := by decide
  induction h with
  | nil => exact hcs
  | keep c _ ih =>
      have hc : BraceFree [c] := hcs.mono (by simp)
      exact hc.append (ih (hcs.mono (List.subset_cons_self c _)))
  | mark _ ih => exact hmark.append (ih hcs)

theorem Category.braceFree_displayName (c : Category) : BraceFree c.displayName.toList :=
  fun _ h => isBrace_eq_false rfl rfl (isIdentifierChar_of_mem_displayName h)

theorem Description.braceFree_displayNameOf (d : Description) (key : String) :
    BraceFree (d.displayNameOf key).toList := by
  unfold displayNameOf
  cases d.category? key with
  | none => decide
  | some c => exact c.braceFree_displayName

theorem Overrides.braceFree_substituteAny (o : Overrides) {name : List Char} (h : BraceFree name) :
    BraceFree (o.substituteAny name) := by
  have hany : BraceFree ['a', 'n', 'y'] := by decide
  unfold substituteAny splitMarkers
  dsimp only
  split
  · exact hany.append (h.mono (List.drop_subset _ _))
  · exact h

theorem variadicElement?_subset {name element : List Char}
    (h : variadicElement? name = some element) : element ⊆ name := by
  unfold variadicElement? at h
  split at h
  · rename_i c rest hreverse
    obtain rfl := Option.some.inj h
    intro d hd
    rw [← List.mem_reverse, hreverse]
    exact List.mem_append_right ['.', '.', '.'] (List.mem_reverse.mp hd)
  · exact nomatch h

theorem braceFree_lowerPrimitive {name : List Char} (h : BraceFree name) :
    BraceFree (lowerPrimitive name) := by
  unfold lowerPrimitive
  split
  · exact braceFree_lowerAfter h []
  · exact h

namespace Scope

variable {s : Scope} {name : String} {t : TypeRef}

theorem braceFree_qualifiedName (ht : BraceFree t.name.toList) :
    BraceFree (s.qualifiedName t).toList := by
  unfold qualifiedName
  cases s.foreignOwner? t with
  | none => exact ht
  | some owner =>
      exact ((s.description.braceFree_displayNameOf owner).text_append (by decide)).text_append ht

theorem braceFree_typed (hname : BraceFree name.toList) (ht : BraceFree t.name.toList)
    (site : Site) : BraceFree (s.typed name t site).toList := by
  have htype := s.settings.overrides.braceFree_substituteAny (s.braceFree_qualifiedName ht)
  -- However the name and the type come out, they are put together in one of two ways.
  have hjoined : ∀ {written : String} {type : List Char} (enumField : Bool),
      BraceFree written.toList → BraceFree type →
      BraceFree (if enumField = true then
        written ++ ": typeof " ++ String.ofList (lowerPrimitive type)
        else written ++ ": " ++ String.ofList (lowerPrimitive type)).toList := by
    intro written type enumField hwritten htype
    have hlower : BraceFree (String.ofList (lowerPrimitive type)).toList := by
      rw [String.toList_ofList]
      exact braceFree_lowerPrimitive htype
    cases enumField with
    | false => exact (hwritten.text_append (by decide)).text_append hlower
    | true => exact (hwritten.text_append (by decide)).text_append hlower
  cases hvariadic : variadicElement?
      (s.settings.overrides.substituteAny (s.qualifiedName t).toList) with
  | none =>
      simp only [typed, annotate, hvariadic]
      exact hjoined _ hname htype
  | some element =>
      have helement : BraceFree (element ++ arrayMarker) :=
        (htype.mono (variadicElement?_subset hvariadic)).append (by decide)
      have hdotted : BraceFree (if site = .parameter then "..." ++ name else name).toList := by
        split
        · exact BraceFree.text_append (by decide) hname
        · exact hname
      simp only [typed, annotate, hvariadic]
      exact hjoined _ hdotted helement

end Scope

/-! ## All texts -/

def TypeRef.texts (t : TypeRef) : List String :=
  t.name :: t.category.toList

def Property.texts (p : Property) : List String :=
  p.name :: p.type.texts

def Parameter.texts (p : Parameter) : List String :=
  p.name :: p.doc :: p.type.texts

def Method.texts (m : Method) : List String :=
  m.name :: m.doc :: m.url :: (m.returnType.texts ++ m.parameters.flatMap Parameter.texts)

def Declaration.texts (d : Declaration) : List String :=
  d.doc :: d.url :: (d.properties.flatMap Property.texts ++ d.methods.flatMap Method.texts)

/-- The texts of a category, with the keys of its declarations. -/
def Category.texts (c : Category) : List String :=
  c.name.toList ++
    c.declarations.entries.flatMap fun e => e.1 :: e.2.toList.flatMap Declaration.texts

/-- All texts of a description, the keys and the URLs of the index among them. -/
def Description.texts (d : Description) : List String :=
  d.categories.entries.flatMap (fun e => e.1 :: e.2.texts) ++ d.services.entries.keys

def ExtendsRule.texts (r : ExtendsRule) : List String :=
  r.base :: (r.names.toList ++ r.category.toList)

def Overrides.texts (o : Overrides) : List String :=
  o.anyTypes.toList ++ o.extensions.flatMap ExtendsRule.texts ++
    o.commentedExports.entries.flatMap (fun e => [e.1, e.2]) ++ o.duplicateParameters

/-- All texts of the settings. -/
def Settings.texts (s : Settings) : List String :=
  [s.outerNamespace, s.header, s.filePrefix, s.foundational] ++ s.overrides.texts

/-- Texts in none of which a brace stands. -/
def NoBraces (texts : List String) : Prop :=
  ∀ t ∈ texts, BraceFree t.toList

instance (texts : List String) : Decidable (NoBraces texts) :=
  List.decidableBAll (fun t : String => BraceFree t.toList) texts

namespace NoBraces

theorem cons_iff {t : String} {ts : List String} :
    NoBraces (t :: ts) ↔ BraceFree t.toList ∧ NoBraces ts :=
  List.forall_mem_cons

theorem append_iff {ts us : List String} : NoBraces (ts ++ us) ↔ NoBraces ts ∧ NoBraces us :=
  List.forall_mem_append

theorem flatMap_iff {α : Type} {f : α → List String} {l : List α} :
    NoBraces (l.flatMap f) ↔ ∀ a ∈ l, NoBraces (f a) :=
  List.forall_mem_flatMap

end NoBraces

/-! ## Members -/

section Members

variable {s : Scope}

theorem Scope.braceFree_propertyLine {p : Property} (h : NoBraces p.texts) :
    BraceFree (s.propertyLine p).toList := by
  simp only [Property.texts, TypeRef.texts, NoBraces.cons_iff] at h
  obtain ⟨hname, htype, -⟩ := h
  have hnotice : BraceFree (if p.isDeprecated then deprecationNotice else "").toList := by
    split <;> decide
  exact (hnotice.text_append (s.braceFree_typed hname htype .field)).text_append (by decide)

theorem Scope.braceFree_parameterList {m : Method} (h : NoBraces m.texts) :
    BraceFree (s.parameterList m).toList := by
  simp only [Method.texts, NoBraces.cons_iff, NoBraces.append_iff, NoBraces.flatMap_iff,
    Parameter.texts, TypeRef.texts] at h
  obtain ⟨-, -, -, -, hparameters⟩ := h
  refine (ParameterPatch.marked_applyAll _ _).braceFree (braceFree_intercalate (by decide) ?_)
  intro t ht
  obtain ⟨p, hp, rfl⟩ := List.mem_map.mp ht
  obtain ⟨hname, -, htype, -⟩ := hparameters p hp
  exact s.braceFree_typed hname htype .parameter

theorem Scope.braceFree_signature {m : Method} (h : NoBraces m.texts) :
    BraceFree (s.signature m).toList := by
  have hparameters := s.braceFree_parameterList h
  simp only [Method.texts, TypeRef.texts, NoBraces.cons_iff, NoBraces.append_iff] at h
  obtain ⟨hname, -, -, ⟨hresult, -⟩, -⟩ := h
  exact s.braceFree_typed
    (((hname.text_append (by decide)).text_append hparameters).text_append (by decide)) hresult _

theorem Method.braceFree_docBlock {m : Method} (h : NoBraces m.texts) :
    ∀ l ∈ m.docBlock, BraceFree l.toList := by
  simp only [Method.texts, NoBraces.cons_iff, NoBraces.append_iff, NoBraces.flatMap_iff,
    Parameter.texts] at h
  obtain ⟨-, hdoc, hurl, -, hparameters⟩ := h
  refine braceFree_block fun l hl => ?_
  rcases List.mem_append.mp hl with hl | hl
  · rcases List.mem_append.mp hl with hl | hl
    · obtain ⟨line, hline, rfl⟩ := List.mem_map.mp hl
      rw [String.toList_ofList]
      exact hdoc.mem_splitLines hline
    · exact List.mem_singleton.mp hl ▸ hurl
  · obtain ⟨p, hp, rfl⟩ := List.mem_map.mp hl
    obtain ⟨hname, hpdoc, -⟩ := hparameters p hp
    refine ((BraceFree.text_append (by decide) hname).text_append (by decide)).text_append ?_
    rw [String.toList_ofList]
    exact braceFree_unbroken hpdoc false

theorem Scope.braceFree_methodLines {m : Method} (h : NoBraces m.texts) :
    ∀ l ∈ s.methodLines m, BraceFree l.toList := by
  intro l hl
  rcases List.mem_append.mp hl with hl | hl
  · exact m.braceFree_docBlock h l hl
  · exact List.mem_singleton.mp hl ▸ (s.braceFree_signature h).text_append (by decide)

theorem Scope.braceFree_memberLines {d : Declaration} (h : NoBraces d.texts) :
    ∀ l ∈ s.memberLines d, BraceFree l.toList := by
  simp only [Declaration.texts, NoBraces.cons_iff, NoBraces.append_iff, NoBraces.flatMap_iff] at h
  obtain ⟨-, -, hproperties, hmethods⟩ := h
  intro l hl
  rcases List.mem_append.mp hl with hl | hl
  · obtain ⟨line, hline, rfl⟩ := List.mem_map.mp hl
    obtain ⟨p, hp, rfl⟩ := List.mem_map.mp hline
    exact BraceFree.text_append (by decide) (s.braceFree_propertyLine (hproperties p hp))
  · obtain ⟨lines, hlines, hl⟩ := List.mem_flatMap.mp hl
    obtain ⟨m, hm, rfl⟩ := List.mem_map.mp hlines
    rcases List.mem_cons.mp hl with rfl | hl
    · decide
    · obtain ⟨line, hline, rfl⟩ := List.mem_map.mp hl
      exact BraceFree.text_append (by decide)
        (s.braceFree_methodLines (hmethods m (List.mem_of_mem_filter hm)) line hline)

end Members

/-! ## Around the declarations -/

theorem KeyPath.braceFree_part {key part : String} (hkey : BraceFree key.toList)
    (h : part ∈ (ofKey key).namespaces ++ [(ofKey key).leaf]) : BraceFree part.toList :=
  hkey.mono (mem_part h).2

theorem KeyPath.braceFree_leaf {key : String} (hkey : BraceFree key.toList) :
    BraceFree (ofKey key).leaf.toList :=
  braceFree_part hkey (List.mem_append_right _ (List.mem_singleton_self _))

theorem Overrides.braceFree_of_base? {o : Overrides} {name category base : String}
    (h : NoBraces o.texts) (hbase : o.base? name category = some base) : BraceFree base.toList := by
  simp only [texts, NoBraces.append_iff, NoBraces.flatMap_iff, ExtendsRule.texts,
    NoBraces.cons_iff] at h
  obtain ⟨⟨⟨-, hrules⟩, -⟩, -⟩ := h
  obtain ⟨r, hr, rfl⟩ := Option.map_eq_some_iff.mp hbase
  exact (hrules r (List.mem_of_find?_eq_some hr)).1

theorem Overrides.braceFree_of_exportNote? {o : Overrides} {name note : String}
    (h : NoBraces o.texts) (hnote : o.exportNote? name = some note) : BraceFree note.toList := by
  simp only [texts, NoBraces.append_iff, NoBraces.flatMap_iff] at h
  obtain ⟨⟨-, hnotes⟩, -⟩ := h
  exact hnotes _ (SortedMap.get?_eq_some_iff.mp hnote) note (by simp)

theorem Settings.braceFree_directive {s : Settings} {category : String} (h : NoBraces s.texts)
    (hcategory : BraceFree category.toList) : BraceFree (s.directive category).toList := by
  have hfile : BraceFree s.filePrefix.toList := h _ (by simp [texts])
  exact (BraceFree.text_append (by decide)
    (((hfile.text_append (by decide)).text_append hcategory).text_append (by decide))).text_append
      (by decide)

theorem Settings.braceFree_bindingLines {s : Settings} {displayName name : String}
    (h : NoBraces s.texts) (hdisplay : BraceFree displayName.toList)
    (hname : BraceFree name.toList) :
    ∀ l ∈ s.bindingLines displayName name, BraceFree l.toList := by
  have houter : BraceFree s.outerNamespace.toList := h _ (by simp [texts])
  have hpath : BraceFree (".".intercalate (s.bindingPath displayName name)).toList :=
    braceFree_intercalate (by decide) (by simp [bindingPath, houter, hdisplay, hname])
  have hbinding := (((BraceFree.text_append (a := "declare var ") (by decide) hname).text_append
    (b := ": ") (by decide)).text_append hpath).text_append (b := ";") (by decide)
  unfold bindingLines
  cases hfound : s.overrides.exportNote? name with
  | none =>
      intro l hl
      exact List.mem_singleton.mp hl ▸ hbinding
  | some note =>
      have hnote := Overrides.braceFree_of_exportNote? (NoBraces.append_iff.mp h).2 hfound
      intro l hl
      rcases List.mem_cons.mp hl with rfl | hl
      · exact BraceFree.text_append (by decide) hnote
      · exact List.mem_singleton.mp hl ▸ BraceFree.text_append (by decide) hbinding

/-! ## The parts of a description -/

theorem Description.noBraces_category {d : Description} (h : NoBraces d.texts) {key : String}
    {c : Category} (hc : d.category? key = some c) : NoBraces c.texts := by
  simp only [texts, NoBraces.append_iff, NoBraces.flatMap_iff, NoBraces.cons_iff] at h
  exact (h.1 _ (SortedMap.get?_eq_some_iff.mp hc)).2

theorem Category.noBraces_present {c : Category} (h : NoBraces c.texts)
    {e : String × Declaration} (he : e ∈ c.present) :
    BraceFree e.1.toList ∧ NoBraces e.2.texts := by
  simp only [texts, NoBraces.append_iff, NoBraces.flatMap_iff, NoBraces.cons_iff] at h
  have hentry := SortedMap.get?_eq_some_iff.mp (Category.mem_present.mp he)
  obtain ⟨hkey, hdeclaration⟩ := h.2 _ hentry
  exact ⟨hkey, hdeclaration e.2 (by simp)⟩

/-- The owner of a type that a declaration refers to is one of its texts. -/
theorem Declaration.owner_mem_texts {d : Declaration} {t : TypeRef} {owner : String}
    (ht : t ∈ d.typeRefs) (howner : t.category = some owner) : owner ∈ d.texts := by
  have hmem : owner ∈ t.texts := by simp [TypeRef.texts, howner]
  unfold typeRefs at ht
  split at ht
  · exact absurd ht List.not_mem_nil
  · simp only [texts, List.mem_cons, List.mem_append, List.mem_flatMap]
    rcases List.mem_append.mp ht with ht | ht
    · obtain ⟨p, hp, rfl⟩ := List.mem_map.mp ht
      exact .inr (.inr (.inl ⟨p, hp, List.mem_cons_of_mem _ hmem⟩))
    · obtain ⟨m, hm, ht⟩ := List.mem_flatMap.mp ht
      refine .inr (.inr (.inr ⟨m, List.mem_of_mem_filter hm, ?_⟩))
      simp only [Method.texts, List.mem_cons, List.mem_append, List.mem_flatMap]
      rcases List.mem_append.mp ht with ht | ht
      · obtain ⟨p, hp, rfl⟩ := List.mem_map.mp ht
        exact .inr (.inr (.inr (.inr ⟨p, hp, by simp [Parameter.texts, hmem]⟩)))
      · obtain rfl := List.mem_singleton.mp ht
        exact .inr (.inr (.inr (.inl hmem)))

theorem Scope.braceFree_references {s : Scope} {c : Category} (hs : NoBraces s.settings.texts)
    (hc : NoBraces c.texts) : NoBraces (s.draft c).references.keys := by
  intro key hkey
  rw [s.keys_references c, List.mem_eraseDups, List.mem_cons] at hkey
  rcases hkey with rfl | hkey
  · exact hs _ (by simp [Settings.texts])
  · obtain ⟨t, ht, howner⟩ := List.mem_filterMap.mp hkey
    obtain ⟨e, he, ht⟩ := List.mem_flatMap.mp ht
    exact (c.noBraces_present hc he).2 _
      (Declaration.owner_mem_texts ht (Option.filter_eq_some_iff.mp howner).1)

end Ambient
