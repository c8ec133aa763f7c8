import Ambient.Proofs.JsonAccepted
import Mathlib.Data.List.DropRight

/-!
# Readers of values, taken exactly

A reader is exact if whatever it accepts is, behind blanks, one value of the
grammar that it reads in the same way wherever the value stands (`Exact`).  So a
text that is accepted can be cut where its values begin and end without asking
the reader again.

Texts, words, lists, maps and records of exact readers are exact.  For maps and
records the members are told with their values as they are written
(`exists_of_map`, `RecordType.exists_of_read`).
-/

namespace Ambient.Json

/-! ## Values that are taken -/

/-- A value of the grammar that a reader reads wherever it stands. -/
structure Taken {α : Type} (value : Reader α) (a : α) (w : List Char) : Prop where
  reads : Reads value a w
  wellFormed : WellFormed .value w

/-- Whatever a reader accepts is one value behind blanks. -/
def Exact {α : Type} (value : Reader α) : Prop :=
  ∀ {s rest : List Char} {a : α}, value s = .ok (a, rest) →
    ∃ ws w, Blanks ws ∧ Taken value a w ∧ s = ws ++ (w ++ rest)

def takenForm {α : Type} (value : Reader α) : Form (α × List Char) :=
  fun p w => Taken value p.1 w ∧ w = p.2

theorem Exact.map {α β : Type} {value : Reader α} (h : Exact value) (f : α → β) :
    Exact fun s => (value s).map fun p => (f p.1, p.2) := by
  intro s rest b hread
  cases hvalue : value s with
  | error e =>
      simp only [hvalue] at hread
      cases hread
  | ok p =>
      obtain ⟨a, rest'⟩ := p
      simp only [hvalue] at hread
      cases hread
      obtain ⟨ws, w, hws, hw, heq⟩ := h hvalue
      exact ⟨ws, w, hws, ⟨hw.reads.map f, hw.wellFormed⟩, heq⟩

theorem exists_skipBlanks (s : List Char) : ∃ ws, Blanks ws ∧ s = ws ++ skipBlanks s :=
  ⟨s.takeWhile isBlank, fun _ hd => List.mem_takeWhile_imp hd,
    List.takeWhile_append_dropWhile.symm⟩

theorem skipBlanks_of_wellFormed {ws w rest : List Char} (hws : Blanks ws)
    (hw : WellFormed .value w) : skipBlanks (ws ++ (w ++ rest)) = w ++ rest := by
  obtain ⟨c, w, rfl, hblank, -⟩ := hw.start
  rw [List.cons_append, skipBlanks_append hws hblank]

/-! ## Simple values -/

theorem wellFormed_of_textForm {s : String} {w : List Char} (h : textForm s w) :
    WellFormed .value w := by
  obtain ⟨body, hbody, rfl⟩ := h
  exact .text hbody.shape

theorem exists_textForm_of_textBody {s cs rest : List Char} (h : textBody s = .ok (cs, rest)) :
    ∃ w, textForm (String.ofList cs) w ∧ '"' :: s = w ++ rest := by
  obtain ⟨body, hform, rfl⟩ := exists_of_textBody h
  exact ⟨'"' :: (body ++ ['"']), ⟨body, by rwa [String.toList_ofList], rfl⟩, by simp⟩

theorem exact_text : Exact text := by
  intro s rest a h
  unfold text at h
  split at h
  · rename_i hquote
    split at h
    · cases h
    · rename_i hbody
      cases h
      obtain ⟨ws, hws, rfl⟩ := exists_of_skipBlanks hquote
      obtain ⟨w, hw, heq⟩ := exists_textForm_of_textBody hbody
      exact ⟨ws, w, hws, ⟨reads_text hw, wellFormed_of_textForm hw⟩, by rw [heq]⟩
  · cases h

theorem eq_of_map_word {α : Type} {cs s rest : List Char} {a b : α}
    (h : ((word cs s).map fun p => (b, p.2)) = .ok (a, rest)) : a = b ∧ s = cs ++ rest := by
  cases hword : word cs s with
  | error e =>
      rw [hword] at h
      cases h
  | ok p =>
      obtain ⟨u, rest'⟩ := p
      rw [hword] at h
      cases h
      exact ⟨rfl, eq_append_of_word hword⟩

theorem exact_boolean : Exact boolean := by
  intro s rest b h
  unfold boolean at h
  split at h
  · rename_i hfirst
    obtain ⟨rfl, rfl⟩ := eq_of_map_word h
    obtain ⟨ws, hws, rfl⟩ := exists_of_skipBlanks hfirst
    have hform : booleanForm true ['t', 'r', 'u', 'e'] := rfl
    exact ⟨ws, _, hws, ⟨reads_boolean hform, .boolean hform⟩, rfl⟩
  · rename_i hfirst
    obtain ⟨rfl, rfl⟩ := eq_of_map_word h
    obtain ⟨ws, hws, rfl⟩ := exists_of_skipBlanks hfirst
    have hform : booleanForm false ['f', 'a', 'l', 's', 'e'] := rfl
    exact ⟨ws, _, hws, ⟨reads_boolean hform, .boolean hform⟩, rfl⟩
  · cases h

theorem reads_null : Reads null () ['n', 'u', 'l', 'l'] := by
  refine ⟨⟨_, _, rfl, rfl, by decide⟩, fun ws rest hws => ?_⟩
  have hskip : skipBlanks (ws ++ (['n', 'u', 'l', 'l'] ++ rest)) =
      'n' :: 'u' :: 'l' :: 'l' :: rest :=
    skipBlanks_append hws rfl
  rw [null, hskip]
  exact word_append ['u', 'l', 'l'] rest

theorem exact_null : Exact null := by
  intro s rest u h
  unfold null at h
  split at h
  · rename_i hfirst
    obtain rfl := eq_append_of_word h
    obtain ⟨ws, hws, rfl⟩ := exists_of_skipBlanks hfirst
    exact ⟨ws, _, hws, ⟨reads_null, .null⟩, rfl⟩
  · cases h

/-- A value that may be left out is `null`, or a value that does not begin like it. -/
theorem exists_of_optional {α : Type} {value : Reader α} (hvalue : Exact value)
    {s rest : List Char} {a : Option α} (h : optional value s = .ok (a, rest)) :
    ∃ ws w, Blanks ws ∧ s = ws ++ (w ++ rest) ∧
      (a = none ∧ w = ['n', 'u', 'l', 'l'] ∨
        ∃ b, a = some b ∧ Taken value b w ∧ w.head? ≠ some 'n') := by
  unfold optional at h
  split at h
  · rename_i hfirst
    obtain ⟨rfl, rfl⟩ := eq_of_map_word h
    obtain ⟨ws, hws, rfl⟩ := exists_of_skipBlanks hfirst
    exact ⟨ws, ['n', 'u', 'l', 'l'], hws, rfl, .inl ⟨rfl, rfl⟩⟩
  · rename_i hfirst
    cases hread : value (skipBlanks s) with
    | error e =>
        rw [hread] at h
        cases h
    | ok p =>
        obtain ⟨b, rest'⟩ := p
        rw [hread] at h
        cases h
        obtain ⟨ws, w, hws, hw, heq⟩ := hvalue hread
        have hskip : skipBlanks s = w ++ rest' := by
          rw [← skipBlanks_of_wellFormed hws hw.wellFormed, ← heq]
          exact (List.dropWhile_idempotent _ s).symm
        have hhead : w.head? ≠ some 'n' := by
          obtain ⟨c, w, rfl, -⟩ := hw.wellFormed.start
          intro hc
          obtain rfl : c = 'n' := by simpa using hc
          exact hfirst _ hskip
        obtain ⟨ws', hws', hs⟩ := exists_skipBlanks s
        exact ⟨ws', w, hws', by rw [← hskip, ← hs], .inr ⟨b, rfl, hw, hhead⟩⟩

theorem exact_optional {α : Type} {value : Reader α} (hvalue : Exact value) :
    Exact (optional value) := by
  intro s rest a h
  obtain ⟨ws, w, hws, heq, ⟨rfl, rfl⟩ | ⟨b, rfl, hb, hhead⟩⟩ := exists_of_optional hvalue h
  · exact ⟨ws, _, hws, ⟨reads_optional_null value, .null⟩, heq⟩
  · exact ⟨ws, w, hws, ⟨reads_optional hb.reads hhead, hb.wellFormed⟩, heq⟩

/-! ## Lists -/

theorem exists_of_nextItem {first more : Bool} {s rest : List Char}
    (h : nextItem first s = .ok (more, rest)) :
    (more = false ∧ ∃ ws rest', Blanks ws ∧ rest = ']' :: rest' ∧ s = ws ++ ']' :: rest') ∨
      (more = true ∧ ∃ gap, Gap first gap ∧ s = gap ++ rest) := by
  unfold nextItem at h
  split at h
  · cases h
  · rename_i hcloser
    cases h
    obtain ⟨ws, hws, rfl⟩ := exists_of_skipBlanks hcloser
    exact .inl ⟨rfl, ws, _, hws, rfl, rfl⟩
  · rename_i c s' _ hskip
    obtain ⟨ws, hws, rfl⟩ := exists_of_skipBlanks hskip
    split_ifs at h with hfirst hcomma
    · cases h
      obtain rfl := hfirst
      exact .inr ⟨rfl, ws, .first hws, rfl⟩
    · have hnot : first = false := Bool.eq_false_iff.mpr hfirst
      split at h
      · cases h
      · cases h
      · rename_i hne _
        cases h
        have hgap : Gap first (ws ++ ',' :: s'.takeWhile isBlank) := by
          rw [hnot]
          exact .comma hws fun d hd => List.mem_takeWhile_imp hd
        refine .inr ⟨rfl, _, hgap, ?_⟩
        rw [hcomma, List.append_assoc, List.cons_append, skipBlanks,
          List.takeWhile_append_dropWhile]

theorem wellFormed_of_items {β : Type} {part : Form β} {first : Bool} {bs : List β}
    {w : List Char} (h : Parts ']' part first bs w)
    (hpart : ∀ b v, part b v → WellFormed .value v) : WellFormed (.parts .square first) w := by
  induction h with
  | nil hws => exact .close hws
  | cons hgap hb _ ih => exact .part hgap .item (hpart _ _ hb) ih

theorem exists_of_itemsFrom {α : Type} {value : Reader α} (hvalue : Exact value) {first : Bool}
    {seen as : List α} {limit s rest : List Char}
    (h : itemsFrom value first seen limit s = .ok (as, rest)) :
    ∃ as' parts, Parts ']' (Taken value) first as' parts ∧ as = seen.reverse ++ as' ∧
      s = parts ++ rest := by
  fun_induction itemsFrom value first seen limit s with
  | case1 => cases h
  | case2 => cases h
  | case3 first seen limit s rest' l hnext =>
      cases h
      rcases exists_of_nextItem hnext with ⟨-, ws, rest'', hws, rfl, rfl⟩ | ⟨hmore, -⟩
      · exact ⟨[], ws ++ [']'], .nil hws, (List.append_nil _).symm, by simp⟩
      · cases hmore
  | case4 => cases h
  | case5 first seen limit s l rest' hnext a rest'' hread ih =>
      rcases exists_of_nextItem hnext with ⟨hmore, -⟩ | ⟨-, gap, hgap, rfl⟩
      · cases hmore
      · obtain ⟨ws, w, hws, hw, rfl⟩ := hvalue hread
        obtain ⟨as', parts, hparts, has, rfl⟩ := ih h
        refine ⟨a :: as', _, .cons (hgap.append_blanks hws) hw hparts, ?_, by simp⟩
        rw [has, List.reverse_cons, List.append_assoc, List.singleton_append]

theorem exists_of_list {α : Type} {item : Reader α} (hitem : Exact item) {s rest : List Char}
    {as : List α} (h : list item s = .ok (as, rest)) :
    ∃ ws w, Blanks ws ∧ listForm (Taken item) as w ∧ s = ws ++ (w ++ rest) := by
  unfold list at h
  split at h
  · rename_i hopener
    obtain ⟨ws, hws, rfl⟩ := exists_of_skipBlanks hopener
    obtain ⟨as', parts, hparts, rfl, rfl⟩ := exists_of_itemsFrom hitem h
    exact ⟨ws, '[' :: parts, hws, ⟨parts, hparts, rfl⟩, rfl⟩
  · cases h

theorem taken_list {α : Type} {item : Reader α} {as : List α} {w : List Char}
    (h : listForm (Taken item) as w) : Taken (list item) as w := by
  refine ⟨reads_list (fun _ _ ha => ha.reads) h, ?_⟩
  obtain ⟨parts, hparts, rfl⟩ := h
  exact .bracket (b := .square) (wellFormed_of_items hparts fun _ _ ha => ha.wellFormed)

theorem exact_list {α : Type} {item : Reader α} (hitem : Exact item) : Exact (list item) := by
  intro s rest as h
  obtain ⟨ws, w, hws, hw, heq⟩ := exists_of_list hitem h
  exact ⟨ws, w, hws, taken_list hw, heq⟩

theorem exact_textSet : Exact textSet :=
  Exact.map (exact_list exact_text) SortedSet.ofList

/-! ## Maps -/

theorem exists_of_nextKey {first : Bool} {s rest : List Char} {k : Option String}
    (h : nextKey first s = .ok (k, rest)) :
    (k = none ∧ ∃ ws rest', Blanks ws ∧ rest = '\x7d' :: rest' ∧ s = ws ++ '\x7d' :: rest') ∨
      ∃ name gap key, k = some name ∧ Gap first gap ∧ textForm name key ∧
        s = gap ++ (key ++ rest) := by
  unfold nextKey at h
  dsimp only at h
  split at h
  · cases h
  · rename_i hcloser
    cases h
    obtain ⟨ws, hws, rfl⟩ := exists_of_skipBlanks hcloser
    exact .inl ⟨rfl, ws, _, hws, rfl, rfl⟩
  · rename_i c s' _ hskip
    obtain ⟨ws, hws, rfl⟩ := exists_of_skipBlanks hskip
    split_ifs at h with hfirst hquote hcomma
    · obtain rfl := hfirst
      split at h
      · cases h
      · rename_i hbody
        cases h
        obtain ⟨key, hname, heq⟩ := exists_textForm_of_textBody hbody
        exact .inr ⟨_, ws, key, rfl, .first hws, hname, by rw [hquote, heq]⟩
    · have hnot : first = false := Bool.eq_false_iff.mpr hfirst
      split at h
      · cases h
      · rename_i hquote
        obtain ⟨ws', hws', rfl⟩ := exists_of_skipBlanks hquote
        split at h
        · cases h
        · rename_i hbody
          cases h
          obtain ⟨key, hname, heq⟩ := exists_textForm_of_textBody hbody
          exact .inr ⟨_, ws ++ ',' :: ws', key, rfl, hnot ▸ .comma hws hws', hname,
            by rw [hcomma, heq]; simp⟩
      · cases h
      · cases h

theorem exists_of_colon {s rest : List Char} {u : Unit} (h : colon s = .ok (u, rest)) :
    ∃ ws, Blanks ws ∧ s = ws ++ ':' :: rest := by
  unfold colon at h
  split at h
  · cases h
  · rename_i hcolon
    cases h
    exact exists_of_skipBlanks hcolon
  · cases h

theorem wellFormed_of_members {β : Type} {value : String → Form β} {first : Bool}
    {ms : List (String × β)} {w : List Char} (h : Parts '\x7d' (memberForm value) first ms w)
    (hvalue : ∀ key b v, value key b v → WellFormed .value v) :
    WellFormed (.parts .curly first) w := by
  induction h with
  | nil hws => exact .close hws
  | cons hgap hm _ ih =>
      obtain ⟨key, ws, ws', v, ⟨body, hbody, rfl⟩, hws, hws', hv, rfl⟩ := hm
      have hpart := WellFormed.part hgap (.key hbody.shape hws hws') (hvalue _ _ _ hv) ih
      simpa using hpart

theorem exists_of_entriesFrom {α : Type} {value : Reader α} (hvalue : Exact value) {first : Bool}
    {seen m : SortedMap α} {limit s rest : List Char}
    (h : entriesFrom value first seen limit s = .ok (m, rest)) :
    ∃ ms parts, Parts '\x7d' (memberForm fun _ => takenForm value) first ms parts ∧
      m = (ms.map fun e => (e.1, e.2.1)).foldl (fun m p => m.insert p.1 p.2) seen ∧
      s = parts ++ rest := by
  fun_induction entriesFrom value first seen limit s with
  | case1 => cases h
  | case2 => cases h
  | case3 first seen limit s rest' l hnext =>
      cases h
      rcases exists_of_nextKey hnext with ⟨-, ws, rest'', hws, rfl, rfl⟩ | ⟨_, _, _, hkey, -⟩
      · exact ⟨[], ws ++ ['\x7d'], .nil hws, rfl, by simp⟩
      · cases hkey
  | case4 => cases h
  | case5 => cases h
  | case6 first seen limit s l name rest' hnext u rest'' hcolon a after hread ih =>
      rcases exists_of_nextKey hnext with ⟨hkey, -⟩ | ⟨_, gap, key, heq, hgap, hkey, rfl⟩
      · cases hkey
      · obtain rfl := Option.some.inj heq
        obtain ⟨ws, hws, rfl⟩ := exists_of_colon hcolon
        obtain ⟨ws', v, hws', hv, rfl⟩ := hvalue hread
        obtain ⟨ms, parts, hparts, hm, rfl⟩ := ih h
        refine ⟨(name, a, v) :: ms, _,
          .cons hgap ⟨key, ws, ws', v, hkey, hws, hws', ⟨hv, rfl⟩, rfl⟩ hparts, hm, ?_⟩
        exact (member_append_assoc gap key ws ws' v parts rest).symm

/-- What is taken as a map is an object of values, of which the last one counts
under each name. -/
theorem exists_of_map {α : Type} {value : Reader α} (hvalue : Exact value) {s rest : List Char}
    {m : SortedMap α} (h : map value s = .ok (m, rest)) :
    ∃ ws w ms, Blanks ws ∧ mapForm (takenForm value) ms w ∧
      m = .ofList (ms.map fun e => (e.1, e.2.1)) ∧ s = ws ++ (w ++ rest) := by
  unfold map at h
  split at h
  · rename_i hopener
    obtain ⟨ws, hws, rfl⟩ := exists_of_skipBlanks hopener
    obtain ⟨ms, parts, hparts, rfl, rfl⟩ := exists_of_entriesFrom hvalue h
    exact ⟨ws, '\x7b' :: parts, ms, hws, ⟨parts, hparts, rfl⟩, rfl, rfl⟩
  · cases h

theorem taken_map {α : Type} {value : Reader α} {ms : List (String × α × List Char)}
    {w : List Char} (h : mapForm (takenForm value) ms w) :
    Taken (map value) (.ofList (ms.map fun e => (e.1, e.2.1))) w := by
  obtain ⟨parts, hparts, rfl⟩ := h
  refine ⟨?_, .bracket (b := .curly) (wellFormed_of_members hparts fun _ _ _ hv => hv.1.wellFormed)⟩
  have hread : mapForm (Reads value) (ms.map fun e => (e.1, e.2.1)) ('\x7b' :: parts) := by
    refine ⟨parts, hparts.map _ fun e v hm => ?_, rfl⟩
    obtain ⟨key, ws, ws', v, hkey, hws, hws', hv, rfl⟩ := hm
    exact ⟨key, ws, ws', v, hkey, hws, hws', hv.1.reads, rfl⟩
  exact reads_map (fun _ _ ha => ha) hread

theorem exact_map {α : Type} {value : Reader α} (hvalue : Exact value) : Exact (map value) := by
  intro s rest m h
  obtain ⟨ws, w, ms, hws, hw, rfl, heq⟩ := exists_of_map hvalue h
  exact ⟨ws, w, hws, taken_map hw, heq⟩

/-! ## Records -/

section Fields

variable {α β : Type} {value : Reader β}

theorem exact_defaulted (hvalue : Exact value) (name : String) (set : β → α → α) :
    Exact (Field.defaulted name value set).read :=
  hvalue.map set

theorem exact_required (hvalue : Exact value) (name : String) (set : β → α → α) :
    Exact (Field.required name value set).read :=
  hvalue.map set

end Fields

namespace RecordType

variable {α : Type} {r : RecordType α}

/-- A member of a record as it is taken: the change that it makes, with what is
written for its value. -/
def takenForm (r : RecordType α) (key : String) : Form ((α → α) × List Char) :=
  fun p w => (r.valueForm key p.1 w ∧ WellFormed .value w) ∧ w = p.2

/-- The members of a record with their changes only. -/
def changes (ms : List (String × (α → α) × List Char)) : List (String × (α → α)) :=
  ms.map fun m => (m.1, m.2.1)

theorem required_mem_of_missing?_eq_none {seen : List String} (h : r.missing? seen = none) :
    ∀ f ∈ r.fields, f.isRequired = true → f.name ∈ seen := by
  intro f hf hrequired
  have hfind := List.find?_eq_none.mp (Option.map_eq_none_iff.mp h) f hf
  simpa [hrequired] using hfind

theorem fieldKeys_cons_of_some {key : String} {f : Field α} (hf : r.field? key = some f)
    (p : (α → α) × List Char) (ms : List (String × (α → α) × List Char)) :
    r.fieldKeys (changes ((key, p) :: ms)) = key :: r.fieldKeys (changes ms) := by
  rw [fieldKeys, changes, List.map_cons, List.map_cons, List.filter_cons_of_pos (by rw [hf]; rfl)]
  rfl

theorem fieldKeys_cons_of_none {key : String} (hf : r.field? key = none)
    (p : (α → α) × List Char) (ms : List (String × (α → α) × List Char)) :
    r.fieldKeys (changes ((key, p) :: ms)) = r.fieldKeys (changes ms) := by
  rw [fieldKeys, changes, List.map_cons, List.map_cons,
    List.filter_cons_of_neg (by rw [hf]; simp)]
  rfl

/-- What is taken of a record behind some fields: members of which each field is
new, so that all required fields are there in the end. -/
theorem exists_of_fieldsFrom (hfields : ∀ f ∈ r.fields, Exact f.read) {first : Bool}
    {seen : List String} {value a : α} {limit s rest : List Char}
    (h : r.fieldsFrom first seen value limit s = .ok (a, rest)) (hseen : seen.Nodup) :
    ∃ ms parts, Parts '\x7d' (memberForm r.takenForm) first ms parts ∧
      (r.fieldKeys (changes ms) ++ seen).Nodup ∧
      (∀ f ∈ r.fields, f.isRequired = true → f.name ∈ r.fieldKeys (changes ms) ++ seen) ∧
      (changes ms).foldl (fun a m => m.2 a) value = a ∧ s = parts ++ rest := by
  fun_induction fieldsFrom r first seen value limit s with
  | case1 => cases h
  | case2 => cases h
  | case3 => cases h
  | case4 first seen value limit s rest' l hnext hmissing =>
      cases h
      rcases exists_of_nextKey hnext with ⟨-, ws, rest'', hws, rfl, rfl⟩ | ⟨_, _, _, hkey, -⟩
      · exact ⟨[], ws ++ ['\x7d'], .nil hws, hseen, required_mem_of_missing?_eq_none hmissing,
          rfl, by simp⟩
      · cases hkey
  | case5 => cases h
  | case6 => cases h
  | case7 => cases h
  | case8 first seen value limit s l name rest' hnext f hf hnew u rest'' hcolon change after hread
      ih =>
      rcases exists_of_nextKey hnext with ⟨hkey, -⟩ | ⟨_, gap, key, heq, hgap, hkey, rfl⟩
      · cases hkey
      · obtain rfl := Option.some.inj heq
        have hnot : name ∉ seen := by simpa using hnew
        obtain ⟨ws, hws, rfl⟩ := exists_of_colon hcolon
        obtain ⟨ws', v, hws', hv, rfl⟩ := hfields f (List.mem_of_find?_eq_some hf) hread
        obtain ⟨ms, parts, hparts, hnodup, hrequired, hvalue, rfl⟩ :=
          ih h (List.nodup_cons.mpr ⟨hnot, hseen⟩)
        refine ⟨(name, change, v) :: ms, _, .cons hgap ⟨key, ws, ws', v, hkey, hws, hws',
          ⟨⟨valueForm_of_field? hf hv.reads, hv.wellFormed⟩, rfl⟩, rfl⟩ hparts, ?_, ?_, hvalue, ?_⟩
        · rw [fieldKeys_cons_of_some hf]
          exact List.perm_middle.nodup_iff.mp hnodup
        · intro g hg hr
          rw [fieldKeys_cons_of_some hf]
          exact List.perm_middle.mem_iff.mp (hrequired g hg hr)
        · exact (member_append_assoc gap key ws ws' v parts rest).symm
  | case9 => cases h
  | case10 => cases h
  | case11 first seen value limit s l name rest' hnext hf hextensible u rest'' hcolon u' after
      hskip ih =>
      rcases exists_of_nextKey hnext with ⟨hkey, -⟩ | ⟨_, gap, key, heq, hgap, hkey, rfl⟩
      · cases hkey
      · obtain rfl := Option.some.inj heq
        obtain ⟨ws, hws, rfl⟩ := exists_of_colon hcolon
        obtain ⟨ws', v, hws', hv, rfl⟩ := exists_of_skipValue hskip
        obtain ⟨ms, parts, hparts, hnodup, hrequired, hvalue, rfl⟩ := ih h hseen
        have hform : r.valueForm name id v := by
          rw [valueForm, hf]
          exact ⟨hextensible, rfl, hv.skips⟩
        refine ⟨(name, id, v) :: ms, _, .cons hgap ⟨key, ws, ws', v, hkey, hws, hws',
          ⟨⟨hform, hv⟩, rfl⟩, rfl⟩ hparts, ?_, ?_, hvalue, ?_⟩
        · rwa [fieldKeys_cons_of_none hf]
        · rwa [fieldKeys_cons_of_none hf]
        · exact (member_append_assoc gap key ws ws' v parts rest).symm
  | case12 => cases h

/-- An object as it is taken for a record: members of which each field stands
once, and what their changes make of the default. -/
structure TakenObject (r : RecordType α) (a : α) (ms : List (String × (α → α) × List Char))
    (w : List Char) : Prop where
  written : ∃ parts, Parts '\x7d' (memberForm r.takenForm) true ms parts ∧ w = '\x7b' :: parts
  once : (r.fieldKeys (changes ms)).Nodup
  required : ∀ f ∈ r.fields, f.isRequired = true → f.name ∈ r.fieldKeys (changes ms)
  made : (changes ms).foldl (fun a m => m.2 a) r.default = a

theorem exists_of_read (hfields : ∀ f ∈ r.fields, Exact f.read) {s rest rest' : List Char} {a : α}
    (h : r.read s = .ok (a, rest)) (hcurly : skipBlanks s = '\x7b' :: rest') :
    ∃ ws w ms, Blanks ws ∧ r.TakenObject a ms w ∧ s = ws ++ (w ++ rest) := by
  unfold read at h
  rw [hcurly] at h
  obtain ⟨ws, hws, rfl⟩ := exists_of_skipBlanks hcurly
  obtain ⟨ms, parts, hparts, hnodup, hrequired, hmade, rfl⟩ :=
    exists_of_fieldsFrom hfields h List.nodup_nil
  rw [List.append_nil] at hnodup
  simp only [List.append_nil] at hrequired
  exact ⟨ws, '\x7b' :: parts, ms, hws, ⟨⟨parts, hparts, rfl⟩, hnodup, hrequired, hmade⟩, rfl⟩

theorem TakenObject.taken {a : α} {ms : List (String × (α → α) × List Char)} {w : List Char}
    (h : r.TakenObject a ms w) : Taken r.read a w := by
  obtain ⟨⟨parts, hparts, rfl⟩, honce, hrequired, hmade⟩ := h
  refine ⟨?_, .bracket (b := .curly) (wellFormed_of_members hparts fun _ _ _ hv => hv.1.2)⟩
  refine r.reads_record ⟨changes ms, parts, hparts.map _ fun m v hm => ?_, honce, hrequired, hmade,
    rfl⟩
  obtain ⟨key, ws, ws', v, hkey, hws, hws', hv, rfl⟩ := hm
  exact ⟨key, ws, ws', v, hkey, hws, hws', hv.1.1, rfl⟩

theorem exists_of_arrayEnd {s rest : List Char} {u : Unit} (h : arrayEnd s = .ok (u, rest)) :
    ∃ ws, Blanks ws ∧ s = ws ++ ']' :: rest := by
  unfold arrayEnd at h
  split at h
  · cases h
  · rename_i hcloser
    cases h
    exact exists_of_skipBlanks hcloser
  · split at h <;> cases h
  · cases h

/-- What is taken of a record in an array is read in the same way whatever follows. -/
theorem exists_of_elementsFrom {index : Nat} {value a : α} {fields : List (Field α)}
    (hfields : ∀ f ∈ fields, Exact f.read) {s rest : List Char}
    (h : r.elementsFrom index value fields s = .ok (a, rest)) :
    ∃ w, WellFormed (.parts .square (index == 0)) w ∧ s = w ++ rest ∧
      ∀ rest', r.elementsFrom index value fields (w ++ rest') = .ok (a, rest') := by
  fun_induction elementsFrom r index value fields s with
  | case1 => cases h
  | case2 index value s u rest' hend =>
      cases h
      obtain ⟨ws, hws, rfl⟩ := exists_of_arrayEnd hend
      refine ⟨ws ++ [']'], .close (b := .square) hws, by simp, fun after => ?_⟩
      rw [List.append_assoc, List.singleton_append, elementsFrom, arrayEnd,
        skipBlanks_append hws rfl]
      rfl
  | case3 => cases h
  | case4 => cases h
  | case5 index value f fields s rest' hnext change after hread ih =>
      rcases exists_of_nextItem hnext with ⟨hmore, -⟩ | ⟨-, gap, hgap, rfl⟩
      · cases hmore
      · obtain ⟨ws, v, hws, hv, rfl⟩ := hfields f List.mem_cons_self hread
        obtain ⟨w, hw, rfl, hagain⟩ := ih (fun g hg => hfields g (List.mem_cons_of_mem f hg)) h
        have hgap' := hgap.append_blanks hws
        refine ⟨gap ++ ws ++ ([] ++ (v ++ w)), .part hgap' .item hv.wellFormed hw, by simp,
          fun after => ?_⟩
        obtain ⟨c, v', hc, hblank, hcloser⟩ := hv.reads.start
        have hnext' : nextItem (index == 0) (gap ++ ws ++ (v ++ (w ++ after))) =
            .ok (true, v ++ (w ++ after)) := by
          rw [hc, List.cons_append]
          exact nextItem_gap hgap' hblank hcloser _
        have hread' : f.read (v ++ (w ++ after)) = .ok (change, w ++ after) :=
          hv.reads.read [] _ .nil
        have heq : gap ++ ws ++ ([] ++ (v ++ w)) ++ after = gap ++ ws ++ (v ++ (w ++ after)) := by
          simp only [List.nil_append, List.append_assoc]
        rw [heq, elementsFrom, hnext']
        simp only [hread']
        exact hagain after
  | case6 => cases h
  | case7 index value f fields s rest' hnext hrequired =>
      cases h
      rcases exists_of_nextItem hnext with ⟨-, ws, rest'', hws, rfl, rfl⟩ | ⟨hmore, -⟩
      · refine ⟨ws ++ [']'], .close (b := .square) hws, by simp, fun after => ?_⟩
        rw [List.append_assoc, List.singleton_append, elementsFrom, nextItem_closer hws]
        simp only [hrequired, List.drop_succ_cons, List.drop_zero]
      · cases hmore

theorem exact_read (hfields : ∀ f ∈ r.fields, Exact f.read) : Exact r.read := by
  intro s rest a h
  have hread := h
  unfold read at h
  split at h
  · rename_i hopener
    obtain ⟨ws, hws, rfl⟩ := exists_of_skipBlanks hopener
    obtain ⟨w, hw, rfl, hagain⟩ := exists_of_elementsFrom hfields h
    refine ⟨ws, '[' :: w, hws, ⟨⟨⟨_, _, rfl, rfl, by decide⟩, ?_⟩, .bracket (b := .square) hw⟩, rfl⟩
    intro ws' rest' hws'
    unfold read
    rw [List.cons_append, skipBlanks_append hws' rfl]
    exact hagain rest'
  · rename_i hopener
    obtain ⟨ws, w, ms, hws, hw, heq⟩ := exists_of_read hfields hread hopener
    exact ⟨ws, w, hws, hw.taken, heq⟩
  · cases h

end RecordType

/-! ## Whole texts -/

theorem exists_of_readAll {α : Type} {value : Reader α} {input : String} {a : α}
    (h : readAll value input = .ok a) :
    ∃ rest, value input.toList = .ok (a, rest) ∧ Blanks rest := by
  unfold readAll at h
  dsimp only at h
  split at h
  · cases h
  · rename_i rest hread
    split at h
    · rename_i hend
      cases h
      exact ⟨rest, hread, List.dropWhile_eq_nil_iff.mp hend⟩
    · cases h

end Ambient.Json
