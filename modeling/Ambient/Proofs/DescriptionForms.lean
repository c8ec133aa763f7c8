import Ambient.Description.Reading
import Ambient.Proofs.JsonLayout
import Ambient.Proofs.JsonRecords

/-!
# Documents of a description

Everything that may be written for a description, told by its content alone:
the members of each object in any order and with others of unknown name among
them, members with their default value left out, the entries of each map in any
order, any kind but an enum for an interface, any escapes, and blanks between
all tokens.

Every one of these documents is read as the description that it writes
(`ofText_of_documentForm`), so that nothing but its content decides what is read.
-/

namespace Ambient

open Json

/-! ## Forms -/

def typeRefForm : Form TypeRef :=
  fun t => objectOf [
    ⟨"name", textForm t.name, t.name = ""⟩,
    ⟨"category", nullableForm textForm t.category, t.category = none⟩]

def propertyForm : Form Property :=
  fun p => objectOf [
    ⟨"name", textForm p.name, False⟩,
    ⟨"type", typeRefForm p.type, p.type = {}⟩,
    ⟨"isDeprecated", booleanForm p.isDeprecated, p.isDeprecated = false⟩]

def parameterForm : Form Parameter :=
  fun p => objectOf [
    ⟨"name", textForm p.name, False⟩,
    ⟨"type", typeRefForm p.type, p.type = {}⟩,
    ⟨"doc", textForm p.doc, p.doc = ""⟩]

def methodForm : Form Method :=
  fun m => objectOf [
    ⟨"name", textForm m.name, False⟩,
    ⟨"params", listForm parameterForm m.parameters, m.parameters = []⟩,
    ⟨"returnType", typeRefForm m.returnType, m.returnType = {}⟩,
    ⟨"docDetailed", textForm m.doc, m.doc = ""⟩,
    ⟨"url", textForm m.url, m.url = ""⟩,
    ⟨"isDeprecated", booleanForm m.isDeprecated, m.isDeprecated = false⟩]

/-- A kind; every text but that of an enum stands for an interface. -/
def kindForm : Form DeclarationKind
  | .enum, w => textForm "enum" w
  | .interface, w => ∃ name, name ≠ "enum" ∧ textForm name w

def declarationForm : Form Declaration :=
  fun d => objectOf [
    ⟨"kind", kindForm d.kind, d.kind = .interface⟩,
    ⟨"doc", textForm d.doc, d.doc = ""⟩,
    ⟨"url", textForm d.url, d.url = ""⟩,
    ⟨"properties", listForm propertyForm d.properties, d.properties = []⟩,
    ⟨"methods", listForm methodForm d.methods, d.methods = []⟩]

def categoryForm : Form Category :=
  fun c => objectOf [
    ⟨"name", nullableForm textForm c.name, c.name = none⟩,
    ⟨"decls", entriesForm (nullableForm declarationForm) c.declarations, c.declarations = {}⟩]

def descriptionForm : Form Description :=
  fun d => objectOf [
    ⟨"categories", entriesForm categoryForm d.categories, d.categories = {}⟩,
    ⟨"services", entriesForm booleanForm d.services.entries, d.services.entries = {}⟩]

/-- A document: a description between blanks. -/
def documentForm : Form Description :=
  fun d w => ∃ ws v ws', Blanks ws ∧ descriptionForm d v ∧ Blanks ws' ∧ w = ws ++ (v ++ ws')

/-! ## Reading

For each record, its fields are filled by the slots of its form one by one; the
changes of different fields commute because they set different fields. -/

theorem reads_nullableText {name : Option String} {w : List Char}
    (h : nullableForm textForm name w) : Reads (Json.optional text) name w :=
  reads_nullable (fun _ _ hname => ⟨reads_text hname, head?_of_textForm hname⟩) h

theorem reads_typeRef {t : TypeRef} {w : List Char} (h : typeRefForm t w) :
    Reads TypeRef.record.read t w := by
  refine RecordType.reads_objectOf h rfl (by decide)
    (.cons (fits_defaulted (fun _ => reads_text) rfl) <|
      .cons (fits_defaulted (fun _ => reads_nullableText) rfl) .nil)
    ?commute ?complete
  case commute => simp
  case complete => rfl

theorem reads_property {p : Property} {w : List Char} (h : propertyForm p w) :
    Reads Property.record.read p w := by
  refine RecordType.reads_objectOf h rfl (by decide)
    (.cons (fits_required fun _ => reads_text) <|
      .cons (fits_defaulted (fun _ => reads_typeRef) rfl) <|
      .cons (fits_defaulted (fun _ => reads_boolean) rfl) .nil)
    ?commute ?complete
  case commute => simp
  case complete => rfl

theorem reads_parameter {p : Parameter} {w : List Char} (h : parameterForm p w) :
    Reads Parameter.record.read p w := by
  refine RecordType.reads_objectOf h rfl (by decide)
    (.cons (fits_required fun _ => reads_text) <|
      .cons (fits_defaulted (fun _ => reads_typeRef) rfl) <|
      .cons (fits_defaulted (fun _ => reads_text) rfl) .nil)
    ?commute ?complete
  case commute => simp
  case complete => rfl

theorem reads_method {m : Method} {w : List Char} (h : methodForm m w) :
    Reads Method.record.read m w := by
  refine RecordType.reads_objectOf h rfl (by decide)
    (.cons (fits_required fun _ => reads_text) <|
      .cons (fits_defaulted (fun _ => reads_list fun _ _ => reads_parameter) rfl) <|
      .cons (fits_defaulted (fun _ => reads_typeRef) rfl) <|
      .cons (fits_defaulted (fun _ => reads_text) rfl) <|
      .cons (fits_defaulted (fun _ => reads_text) rfl) <|
      .cons (fits_defaulted (fun _ => reads_boolean) rfl) .nil)
    ?commute ?complete
  case commute => simp
  case complete => rfl

theorem reads_kindName {name : String} {w : List Char} (h : textForm name w) :
    Reads DeclarationKind.read (.ofName name) w := by
  obtain ⟨body, hbody, rfl⟩ := h
  refine ⟨⟨_, _, rfl, rfl, by decide⟩, fun ws rest hws => ?_⟩
  unfold DeclarationKind.read
  rw [List.cons_append, skipBlanks_append hws rfl, List.append_assoc, List.singleton_append]
  simp only [textBody_append hbody, String.ofList_toList]

theorem reads_kind {kind : DeclarationKind} {w : List Char} (h : kindForm kind w) :
    Reads DeclarationKind.read kind w := by
  cases kind with
  | enum => exact reads_kindName h
  | interface =>
      obtain ⟨name, hname, h⟩ := h
      have hread := reads_kindName h
      rwa [DeclarationKind.ofName, if_neg hname] at hread

theorem reads_declaration {d : Declaration} {w : List Char} (h : declarationForm d w) :
    Reads Declaration.record.read d w := by
  refine RecordType.reads_objectOf h rfl (by decide)
    (.cons (fits_defaulted (fun _ => reads_kind) rfl) <|
      .cons (fits_defaulted (fun _ => reads_text) rfl) <|
      .cons (fits_defaulted (fun _ => reads_text) rfl) <|
      .cons (fits_defaulted (fun _ => reads_list fun _ _ => reads_property) rfl) <|
      .cons (fits_defaulted (fun _ => reads_list fun _ _ => reads_method) rfl) .nil)
    ?commute ?complete
  case commute => simp
  case complete => rfl

theorem reads_nullableDeclaration {d : Option Declaration} {w : List Char}
    (h : nullableForm declarationForm d w) : Reads (Json.optional Declaration.record.read) d w :=
  reads_nullable (fun _ _ hd => ⟨reads_declaration hd, head?_of_objectOf hd⟩) h

theorem reads_category {c : Category} {w : List Char} (h : categoryForm c w) :
    Reads Category.record.read c w := by
  refine RecordType.reads_objectOf h rfl (by decide)
    (.cons (fits_defaulted (fun _ => reads_nullableText) rfl) <|
      .cons (fits_defaulted (fun _ => reads_entries fun _ _ => reads_nullableDeclaration) rfl) .nil)
    ?commute ?complete
  case commute => simp
  case complete => rfl

theorem reads_description {d : Description} {w : List Char} (h : descriptionForm d w) :
    Reads Description.record.read d w := by
  refine RecordType.reads_objectOf h rfl (by decide)
    (.cons (fits_defaulted (fun _ => reads_entries fun _ _ => reads_category) rfl) <|
      .cons (fits_defaulted (fun _ => reads_entries fun _ _ => reads_boolean) rfl) .nil)
    ?commute ?complete
  case commute => simp
  case complete => rfl

/-- **A document is read as the description that it writes.**  So what is read
depends on the content alone, and not on

- the order of members and of entries,
- which members with their default value are left out,
- the members of unknown name and what stands in them,
- the name of a kind that is no enum,
- escapes, and blanks between tokens. -/
theorem ofText_of_documentForm {d : Description} {text : String}
    (h : documentForm d text.toList) : Description.ofText text = .ok d := by
  obtain ⟨ws, v, ws', hws, hv, hws', heq⟩ := h
  obtain rfl : text = String.ofList (ws ++ (v ++ ws')) := by
    rw [← heq, String.ofList_toList]
  rw [Description.ofText, readAll_of_reads (reads_description hv) hws hws']
  rfl

/-! ## A document -/

/-- A category without a name, with a declaration of which nothing is known and
an absent one. -/
def writtenCategory : Category where
  declarations := { entries := [("A", some {}), ("B", none)], sorted := by decide }

/-- A description of one category and one service. -/
def writtenDescription : Description where
  categories := { entries := [("base", writtenCategory)] }
  services := ⟨{ entries := [("u", true)] }⟩

/-- A value under an unknown key. -/
def versionText : String :=
  "[2,\x7b\"of\":null\x7d]"

/-- The declarations out of order: an absent one, and a class under an escaped key. -/
def declarationsText : String :=
  "\x7b\"B\":null ,\"\\u0041\":\x7b\"kind\":\"class\"\x7d\x7d"

/-- The category with its fields out of order. -/
def categoryText : String :=
  "\x7b\"decls\":" ++ declarationsText ++ ",\"name\":null\x7d"

/-- A document with an unknown member in front and a line feed behind. -/
def writtenDocument : String :=
  "\x7b\"version\":" ++ versionText ++ ",\"services\":\x7b\"u\":true\x7d,\"categories\":\x7b\"base\":" ++
    categoryText ++ "\x7d\x7d\n"

theorem wellFormed_versionText : WellFormed .value versionText.toList := by
  have hwhole : IntegerShape ['2'] := .digits (by decide) ⟨by decide, by simp⟩
  have hnumber : WellFormed .value ['2'] := .number (.mk (.inl rfl) hwhole .absent .absent)
  have hof : TextShape ['o', 'f'] :=
    .plain (by decide) (by decide) rfl (.plain (by decide) (by decide) rfl .nil)
  have hobject : WellFormed .value "\x7b\"of\":null\x7d".toList :=
    .bracket (b := .curly) (.part (.first .nil) (.key hof .nil .nil) .null (.close .nil))
  exact .bracket (b := .square)
    (.part (.first .nil) .item hnumber (.part (gap_comma .nil) .item hobject (.close .nil)))

theorem entriesForm_declarationsText :
    entriesForm (nullableForm declarationForm) writtenCategory.declarations
      declarationsText.toList := by
  have habsent : nullableForm declarationForm none ['n', 'u', 'l', 'l'] := rfl
  have hblank : Blanks [' '] := by simp [Blanks, isBlank]
  have hcode : hexValue? '0' '0' '4' '1' = some 0x41 := rfl
  have hescape : CharForm 'A' ['\\', 'u', '0', '0', '4', '1'] := .digits hcode rfl rfl
  have hkey : textForm "A" "\"\\u0041\"".toList := ⟨_, .cons hescape .nil, rfl⟩
  have hkind : kindForm .interface (layoutText "class") :=
    ⟨"class", by decide, textForm_layoutText _⟩
  have hclass : declarationForm {} "\x7b\"kind\":\"class\"\x7d".toList :=
    ⟨["kind"], _, .cons (.first .nil) (memberForm_layoutText hkind) (.nil .nil),
      by decide, by simp, rfl⟩
  have hmember : memberForm (fun _ => nullableForm declarationForm) ("A", some {})
      "\"\\u0041\":\x7b\"kind\":\"class\"\x7d".toList :=
    ⟨_, [], [], _, hkey, .nil, .nil, hclass, rfl⟩
  exact ⟨[("B", none), ("A", some {})], .swap _ _ _, _,
    .cons (.first .nil) (memberForm_layoutText habsent)
      (.cons (gap_comma hblank) hmember (.nil .nil)), rfl⟩

theorem categoryForm_categoryText : categoryForm writtenCategory categoryText.toList := by
  have hname : nullableForm textForm none ['n', 'u', 'l', 'l'] := rfl
  exact ⟨["decls", "name"], _,
    .cons (.first .nil) (memberForm_layoutText entriesForm_declarationsText)
      (.cons (gap_comma .nil) (memberForm_layoutText hname) (.nil .nil)),
    by decide, by simp, by decide +kernel⟩

theorem documentForm_written : documentForm writtenDescription writtenDocument.toList := by
  have hservice : booleanForm true ['t', 'r', 'u', 'e'] := rfl
  have hservices : entriesForm booleanForm writtenDescription.services.entries
      "\x7b\"u\":true\x7d".toList :=
    ⟨[("u", true)], .refl _, _,
      .cons (.first .nil) (memberForm_layoutText hservice) (.nil .nil), rfl⟩
  have hcategories : entriesForm categoryForm writtenDescription.categories _ :=
    ⟨[("base", writtenCategory)], .refl _, _,
      .cons (.first .nil) (memberForm_layoutText categoryForm_categoryText) (.nil .nil), rfl⟩
  have hdescription : descriptionForm writtenDescription _ :=
    ⟨["version", "services", "categories"], _,
      .cons (.first .nil) (memberForm_layoutText wellFormed_versionText)
        (.cons (gap_comma .nil) (memberForm_layoutText hservices)
          (.cons (gap_comma .nil) (memberForm_layoutText hcategories) (.nil .nil))),
      by decide, by simp, rfl⟩
  have hblank : Blanks ['\n'] := by simp [Blanks, isBlank]
  exact ⟨[], _, ['\n'], .nil, hdescription, hblank, by decide +kernel⟩

theorem writtenDocument_read : documentForm writtenDescription writtenDocument.toList ∧
    Description.ofText writtenDocument = .ok writtenDescription :=
  ⟨documentForm_written, ofText_of_documentForm documentForm_written⟩

end Ambient
