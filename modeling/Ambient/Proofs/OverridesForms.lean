import Ambient.Overrides.Reading
import Ambient.Proofs.JsonLayout
import Ambient.Proofs.JsonRecords
import Mathlib.Data.Finset.Insert
import Mathlib.Data.Finset.Dedup

/-!
# Documents of override tables

A document names some of the four tables and tells what each of them holds:
sets and maps in any order and with repetitions, the members of a rule in any
order, a rule for all categories with `null` for its category or without one,
and blanks between all tokens.

Reading it replaces the named tables, each as a whole, in the built-in value
(`ofText_of_overridesForm`).  A table is read as the change that puts it in, and
the changes for several tables put them all in, whatever their order
(`foldl_put`).
-/

namespace Ambient

open Json

/-! ## Tables -/

inductive Table where
  | anyTypes
  | extensions
  | commentedExports
  | duplicateParameters
deriving DecidableEq

namespace Table

def key : Table → String
  | .anyTypes => "any_types"
  | .extensions => "extends"
  | .commentedExports => "commented_exports"
  | .duplicateParameters => "duplicate_params"

/-- Put one table of `o` in the place of the one that is there. -/
def put (o : Overrides) : Table → Overrides → Overrides
  | .anyTypes, x => { x with anyTypes := o.anyTypes }
  | .extensions, x => { x with extensions := o.extensions }
  | .commentedExports, x => { x with commentedExports := o.commentedExports }
  | .duplicateParameters, x => { x with duplicateParameters := o.duplicateParameters }

theorem key_injective : Function.Injective key := by
  intro t t' h
  cases t <;> cases t' <;> simp_all [key]

end Table

/-- The value with some tables of `o` and the others of `x`. -/
def Overrides.onto (o : Overrides) (tables : Finset Table) (x : Overrides) : Overrides where
  anyTypes := if .anyTypes ∈ tables then o.anyTypes else x.anyTypes
  extensions := if .extensions ∈ tables then o.extensions else x.extensions
  commentedExports := if .commentedExports ∈ tables then o.commentedExports else x.commentedExports
  duplicateParameters :=
    if .duplicateParameters ∈ tables then o.duplicateParameters else x.duplicateParameters

theorem Overrides.onto_empty (o x : Overrides) : o.onto ∅ x = x := rfl

/-- A table that is put in first stays, or is put in once more. -/
theorem Overrides.onto_put (o x : Overrides) (t : Table) (tables : Finset Table) :
    o.onto tables (t.put o x) = o.onto (insert t tables) x := by
  cases t <;> simp [onto, Table.put]

theorem Overrides.foldl_put (o : Overrides) (tables : List Table) (x : Overrides) :
    tables.foldl (fun x t => t.put o x) x = o.onto tables.toFinset x := by
  induction tables generalizing x with
  | nil => exact (o.onto_empty x).symm
  | cons t tables ih => rw [List.foldl_cons, ih, o.onto_put, List.toFinset_cons]

/-! ## Forms -/

/-- A set: its members in any order, some of them repeatedly. -/
def setForm : Form SortedSet :=
  fun s w => ∃ members, (∀ x, x ∈ members ↔ x ∈ s) ∧ listForm textForm members w

/-- A map: its entries in any order, some of them repeatedly. -/
def repeatedEntriesForm {α : Type} (value : Form α) : Form (SortedMap α) :=
  fun m w => ∃ entries, (∀ e, e ∈ entries ↔ e ∈ m.entries) ∧ mapForm value entries w

def ruleForm : Form ExtendsRule :=
  fun r => objectOf [
    ⟨"names", setForm r.names, False⟩,
    ⟨"base", textForm r.base, False⟩,
    ⟨"category", nullableForm textForm r.category, r.category = none⟩]

def Table.form (o : Overrides) : Form Table
  | .anyTypes => setForm o.anyTypes
  | .extensions => listForm ruleForm o.extensions
  | .commentedExports => repeatedEntriesForm textForm o.commentedExports
  | .duplicateParameters => listForm textForm o.duplicateParameters

def Table.member (o : Overrides) : Form Table :=
  fun t => memberForm (fun _ t => t.form o) (t.key, t)

/-- A document that writes exactly the given tables, in any order. -/
def overridesForm (o : Overrides) (tables : Finset Table) (w : List Char) : Prop :=
  ∃ order parts ws ws', order.Nodup ∧ order.toFinset = tables ∧
    Parts '}' (Table.member o) true order parts ∧ Blanks ws ∧ Blanks ws' ∧
    w = ws ++ ('{' :: parts ++ ws')

/-! ## Reading -/

theorem reads_set {s : SortedSet} {w : List Char} (h : setForm s w) : Reads textSet s w := by
  obtain ⟨members, hmembers, hw⟩ := h
  rw [← SortedSet.ofList_of_mem_iff hmembers]
  exact reads_textSet hw

theorem reads_repeatedEntries {α : Type} {form : Form α} {value : Reader α}
    (hvalue : ∀ a w, form a w → Reads value a w) {m : SortedMap α} {w : List Char}
    (h : repeatedEntriesForm form m w) : Reads (map value) m w := by
  obtain ⟨entries, hentries, hw⟩ := h
  rw [← SortedMap.ofList_of_mem_iff hentries]
  exact reads_map hvalue hw

theorem reads_rule {r : ExtendsRule} {w : List Char} (h : ruleForm r w) :
    Reads ExtendsRule.record.read r w := by
  have hcategory : ∀ w, nullableForm textForm r.category w →
      Reads (Json.optional text) r.category w := fun w hw =>
    reads_nullable (fun _ _ hname => ⟨reads_text hname, head?_of_textForm hname⟩) hw
  refine RecordType.reads_objectOf h rfl (by decide)
    (.cons (fits_required fun _ => reads_set) <|
      .cons (fits_required fun _ => reads_text) <|
      .cons (fits_defaulted hcategory rfl) .nil)
    ?commute ?complete
  case commute => simp
  case complete => rfl

theorem Table.valueForm_put {o : Overrides} {t : Table} {w : List Char} (h : t.form o w) :
    Overrides.record.valueForm t.key (t.put o) w := by
  cases t with
  | anyTypes =>
      exact RecordType.valueForm_of_field? rfl (Field.reads_defaulted (reads_set h))
  | extensions =>
      exact RecordType.valueForm_of_field? rfl
        (Field.reads_defaulted (reads_list (fun _ _ => reads_rule) h))
  | commentedExports =>
      exact RecordType.valueForm_of_field? rfl
        (Field.reads_defaulted (reads_repeatedEntries (fun _ _ => reads_text) h))
  | duplicateParameters =>
      exact RecordType.valueForm_of_field? rfl
        (Field.reads_defaulted (reads_list (fun _ _ => reads_text) h))

theorem Table.fieldKeys_map (o : Overrides) (tables : List Table) :
    Overrides.record.fieldKeys (tables.map fun t => (t.key, t.put o)) = tables.map key := by
  have hfield : ∀ t : Table, (Overrides.record.field? t.key).isSome = true := by
    intro t
    cases t <;> rfl
  rw [RecordType.fieldKeys, List.map_map]
  refine List.filter_eq_self.mpr fun k hk => ?_
  obtain ⟨t, -, rfl⟩ := List.mem_map.mp hk
  exact hfield t

theorem Overrides.isRequired_eq_false {f : Json.Field Overrides} (h : f ∈ record.fields) :
    f.isRequired = false := by
  have hall : ∀ f ∈ record.fields, f.isRequired = false := by simp [record, Field.defaulted]
  exact hall f h

theorem Overrides.reads_tables {o : Overrides} {order : List Table} {parts : List Char}
    (hdistinct : order.Nodup) (h : Parts '}' (Table.member o) true order parts) :
    Reads record.read (o.onto order.toFinset builtIn) ('{' :: parts) := by
  refine RecordType.reads_record _
    ⟨order.map fun t => (t.key, t.put o), parts, ?_, ?_, ?_, ?_, rfl⟩
  · refine h.map _ fun t w hw => ?_
    obtain ⟨key, ws, ws', v, hkey, hws, hws', hv, rfl⟩ := hw
    exact ⟨key, ws, ws', v, hkey, hws, hws', Table.valueForm_put hv, rfl⟩
  · rw [Table.fieldKeys_map]
    exact hdistinct.map Table.key_injective
  · intro f hf hrequired
    rw [isRequired_eq_false hf] at hrequired
    exact Bool.noConfusion hrequired
  · rw [List.foldl_map]
    exact o.foldl_put order builtIn

/-- **A document replaces the tables that it names and no others.**  A named
table is what the document writes for it and takes nothing from the built-in
one; a table that is not named is the built-in one.  The order and the
repetitions of members, and the order of the tables, make no difference. -/
theorem ofText_of_overridesForm {o : Overrides} {tables : Finset Table} {text : String}
    (h : overridesForm o tables text.toList) :
    Overrides.ofText text = .ok (o.onto tables .builtIn) := by
  obtain ⟨order, parts, ws, ws', hdistinct, rfl, hparts, hws, hws', heq⟩ := h
  obtain rfl : text = String.ofList (ws ++ ('{' :: parts ++ ws')) := by
    rw [← heq, String.ofList_toList]
  exact readAll_of_reads (Overrides.reads_tables hdistinct hparts) hws hws'

/-! ## A document of two tables -/

/-- Tables with one rule for all categories and one note. -/
def writtenTables : Overrides where
  anyTypes := {}
  extensions := [{ names := { toList := ["x", "y"], sorted := by decide }, base := "B" }]
  commentedExports := { entries := [("M", "n")] }
  duplicateParameters := []

/-- The rule with its members out of order and one name twice. -/
def ruleText : String :=
  "\x7b\"category\":null,\"base\":\"B\",\"names\":[\"y\",\"x\",\"y\"]\x7d"

/-- The notes with their one entry twice. -/
def notesText : String :=
  "\x7b\"M\":\"n\",\"M\":\"n\"\x7d"

/-- A document of two tables, the later one in front. -/
def tablesDocument : String :=
  "\x7b\"commented_exports\":" ++ notesText ++ " ,\"extends\":[" ++ ruleText ++ "]\x7d\n"

theorem ruleForm_ruleText : ruleForm ⟨⟨["x", "y"], by decide⟩, "B", none⟩ ruleText.toList := by
  have hcategory : nullableForm textForm (none : Option String) ['n', 'u', 'l', 'l'] := rfl
  have hmembers : ∀ x : String, x ∈ ["y", "x", "y"] ↔ x ∈ ["x", "y"] := by
    intro x
    simp only [List.mem_cons, List.not_mem_nil]
    tauto
  have hnames : setForm ⟨["x", "y"], by decide⟩ "[\"y\",\"x\",\"y\"]".toList :=
    ⟨["y", "x", "y"], hmembers, _,
      .cons (.first .nil) (textForm_layoutText "y")
        (.cons (gap_comma .nil) (textForm_layoutText "x")
          (.cons (gap_comma .nil) (textForm_layoutText "y") (.nil .nil))), rfl⟩
  exact ⟨["category", "base", "names"], _,
    .cons (.first .nil) (memberForm_layoutText hcategory)
      (.cons (gap_comma .nil) (memberForm_layoutText (textForm_layoutText "B"))
        (.cons (gap_comma .nil) (memberForm_layoutText hnames) (.nil .nil))),
    by decide, by simp, by decide +kernel⟩

theorem repeatedEntriesForm_notesText :
    repeatedEntriesForm textForm writtenTables.commentedExports notesText.toList :=
  ⟨[("M", "n"), ("M", "n")], by simp [writtenTables], _,
    .cons (.first .nil) (memberForm_layoutText (textForm_layoutText "n"))
      (.cons (gap_comma .nil) (memberForm_layoutText (textForm_layoutText "n")) (.nil .nil)), rfl⟩

theorem overridesForm_tablesDocument :
    overridesForm writtenTables {.extensions, .commentedExports} tablesDocument.toList := by
  have hblank : Blanks [' '] := by simp [Blanks, isBlank]
  have hfeed : Blanks ['\n'] := by simp [Blanks, isBlank]
  have hrules : listForm ruleForm writtenTables.extensions ('[' :: (ruleText.toList ++ [']'])) :=
    ⟨_, .cons (.first .nil) ruleForm_ruleText (.nil .nil), rfl⟩
  exact ⟨[.commentedExports, .extensions], _, [], ['\n'], by decide, by decide,
    .cons (.first .nil) (memberForm_layoutText repeatedEntriesForm_notesText)
      (.cons (gap_comma hblank) (memberForm_layoutText hrules) (.nil .nil)),
    .nil, hfeed, by decide +kernel⟩

/-- The two tables are those of the document, and the other two are built in. -/
theorem tablesDocument_replaces :
    overridesForm writtenTables {.extensions, .commentedExports} tablesDocument.toList ∧
      Overrides.ofText tablesDocument = .ok { writtenTables with
        anyTypes := Overrides.builtIn.anyTypes
        duplicateParameters := Overrides.builtIn.duplicateParameters } :=
  ⟨overridesForm_tablesDocument, ofText_of_overridesForm overridesForm_tablesDocument⟩

end Ambient
