import Ambient.Proofs.ByteOrder
import Ambient.Proofs.DescriptionMembers
import Ambient.Proofs.Effects
import Ambient.Proofs.Placement

/-!
# One module for each category, in order

A document names its categories in any order and may name one several times.
Its modules are one for each name, in ascending order of the bytes, each in a
file of its own, and each made of the last category with that name; inside a
module the same goes for the declarations, of which those that are `null` in
the end have no block (`emitAll_follows_document`).

The order is that of the sorted maps, which are filled while the document is
read; which key holds what is told by `Holds` from the text.
-/

namespace Ambient

open Text Json

/-! ## The modules of a description -/

theorem key_of_emitCategory {d : Description} {s : Settings} {key : String} {m : ModuleFile}
    (h : emitCategory d s key = some m) : m.key = key := by
  obtain ⟨c, -, rfl⟩ := Option.map_eq_some_iff.mp h
  rfl

theorem emitCategory_of_mem_emitAll {d : Description} {s : Settings} {m : ModuleFile}
    (h : m ∈ emitAll d s) : emitCategory d s m.key = some m := by
  obtain ⟨key, -, hm⟩ := List.mem_filterMap.mp h
  rwa [key_of_emitCategory hm]

theorem keys_emitAll (d : Description) (s : Settings) :
    (emitAll d s).map (·.key) = d.categories.keys := by
  have hkey : ∀ key ∈ d.categories.keys,
      (emitCategory d s key).map (·.key) = some key := by
    intro key hmem
    obtain ⟨m, hm⟩ := exists_emitCategory s hmem
    rw [hm, Option.map_some, key_of_emitCategory hm]
  rw [emitAll, List.map_filterMap, List.filterMap_congr hkey, List.filterMap_some]

theorem Settings.fileName_injective (s : Settings) : Function.Injective s.fileName := by
  intro key key' h
  have hlist := congrArg String.toList h
  simp only [fileName, String.toList_append, List.append_assoc] at hlist
  exact String.toList_injective
    (List.append_cancel_right (List.append_cancel_left (List.append_cancel_left hlist)))

theorem fileNames_emitAll (d : Description) (s : Settings) :
    (emitAll d s).map (·.fileName) = d.categories.keys.map s.fileName := by
  rw [← keys_emitAll d s, List.map_map]
  exact List.map_congr_left fun m hm => fileName_of_emitCategory (emitCategory_of_mem_emitAll hm)

/-! ## The blocks of a module -/

namespace Scope

/-- What a module shows of the declarations that are written for its category. -/
structure ShowsLast (s : Scope) (c : Category) (ds : List (String × List Char)) : Prop where
  /-- The blocks ascend. -/
  ascending : ((s.draft c).blocks.map Block.key).Pairwise fun a b => utf8Bytes a < utf8Bytes b
  /-- There is one for each key whose last value is not `null`. -/
  present : ∀ key, key ∈ (s.draft c).blocks.map Block.key ↔
    ∃ v, lastUnder ds key = some v ∧ v ≠ ['n', 'u', 'l', 'l']
  /-- Each renders what is read of that value. -/
  rendered : ∀ b ∈ (s.draft c).blocks, ∃ decl v, lastUnder ds b.key = some v ∧
    Taken Declaration.record.read decl v ∧ b.lines = s.declarationLines b.key decl
  /-- Inside the two namespaces the text has the lines of the blocks and nothing else. -/
  lines : splitLines (s.moduleFile c).text.toList =
    (s.draft c).topLines s.settings ++ pieceLines s.settings.outerOpening ++
      (pieceLines (innerOpening c.displayName) ++ (s.draft c).blocks.flatMap Block.textLines ++
        ["  \x7d".toList, "\x7d".toList]) ++ (s.draft c).closingLines s.settings

theorem keys_blocks (s : Scope) (c : Category) :
    (s.draft c).blocks.map Block.key = c.present.map Prod.fst := by
  rw [s.draft_eq c, List.map_map]
  rfl

/-- What is present is told by the last value under its key. -/
theorem mem_keys_present_iff {c : Category} {ds : List (String × List Char)}
    (h : Holds (Json.optional Declaration.record.read) c.declarations ds) (key : String) :
    key ∈ c.present.map Prod.fst ↔ ∃ v, lastUnder ds key = some v ∧ v ≠ ['n', 'u', 'l', 'l'] := by
  have hmem : key ∈ c.present.map Prod.fst ↔
      ∃ decl, c.declarations.get? key = some (some decl) := by
    simp [← Category.mem_present]
  rw [hmem]
  rcases h key with ⟨hget, hlast⟩ | ⟨a, v, hget, hlast, htaken⟩
  · simp [hget, hlast]
  · rcases htaken.of_optional exact_declaration with ⟨rfl, rfl⟩ | ⟨decl, rfl, -, hnull⟩
    · simp [hget, hlast]
    · simp [hget, hlast, hnull]

theorem exists_last_of_present {c : Category} {ds : List (String × List Char)}
    (h : Holds (Json.optional Declaration.record.read) c.declarations ds)
    {e : String × Declaration} (he : e ∈ c.present) :
    ∃ v, lastUnder ds e.1 = some v ∧ Taken Declaration.record.read e.2 v := by
  have hdecl := Category.mem_present.mp he
  rcases h e.1 with ⟨hget, -⟩ | ⟨a, v, hget, hlast, htaken⟩
  · exact nomatch hget.symm.trans hdecl
  · obtain rfl := Option.some.inj (hget.symm.trans hdecl)
    rcases htaken.of_optional exact_declaration with ⟨hnone, -⟩ | ⟨_, hsome, htaken, -⟩
    · exact nomatch hnone
    · obtain rfl := Option.some.inj hsome
      exact ⟨v, hlast, htaken⟩

theorem showsLast (s : Scope) {c : Category} {ds : List (String × List Char)}
    (h : Holds (Json.optional Declaration.record.read) c.declarations ds) : s.ShowsLast c ds where
  ascending := by
    have hkeys : c.present.map Prod.fst = (c.declarations.filterMap id).keys := rfl
    rw [keys_blocks, hkeys]
    exact (c.declarations.filterMap id).pairwise_keys.imp utf8Bytes_lt
  present := by
    rw [keys_blocks]
    exact mem_keys_present_iff h
  rendered := by
    intro b hb
    rw [s.draft_eq c] at hb
    obtain ⟨e, he, rfl⟩ := List.mem_map.mp hb
    obtain ⟨v, hlast, htaken⟩ := exists_last_of_present h he
    exact ⟨e.2, v, hlast, htaken, rfl⟩
  lines := by
    have hname : (s.draft c).displayName = c.displayName := by rw [s.draft_eq c]
    show splitLines ((s.draft c).text s.settings).toList = _
    rw [Draft.splitLines_text, Draft.innerLines, hname]
    rfl

end Scope

/-! ## The modules of a document -/

/-- **One module for each category of a document, in order.**  Of a document
that is an object and is read, with whatever settings:

- the document writes categories in one way only;
- the keys of the modules ascend in the order of the bytes, and are the names of
  the categories, however often one is written;
- no two modules have one file;
- each module is the one that is made by its key, of the last category under the
  key, and if this is an object, it shows the last declarations of it. -/
theorem emitAll_follows_document {text : String} {d : Description} (s : Settings)
    (hread : Description.ofText text = .ok d)
    (hcurly : (skipBlanks text.toList).head? = some '\x7b') :
    ∃ cs, (∀ cs', categoriesForm cs' text.toList ↔ cs' = cs) ∧
      ((emitAll d s).map (·.key)).Pairwise (fun a b => utf8Bytes a < utf8Bytes b) ∧
      (∀ key, key ∈ (emitAll d s).map (·.key) ↔ key ∈ cs.map Prod.fst) ∧
      ((emitAll d s).map (·.fileName)).Nodup ∧
      ∀ m ∈ emitAll d s, emitCategory d s m.key = some m ∧
        ∃ c v, d.category? m.key = some c ∧ m = Scope.moduleFile ⟨d, s, m.key⟩ c ∧
          lastUnder cs m.key = some v ∧ Taken Category.record.read c v ∧
          (v.head? = some '\x7b' → ∃ ds, (∀ ds', declarationsForm ds' v ↔ ds' = ds) ∧
            Scope.ShowsLast ⟨d, s, m.key⟩ c ds) := by
  obtain ⟨cs, hcs, hholds⟩ := exists_categoriesForm hread hcurly
  refine ⟨cs, hcs, ?_, ?_, ?_, fun m hm => ?_⟩
  · rw [keys_emitAll]
    exact d.categories.pairwise_keys.imp utf8Bytes_lt
  · rw [keys_emitAll]
    exact hholds.mem_keys_iff
  · rw [fileNames_emitAll]
    exact d.categories.nodup_keys.map s.fileName_injective
  · have hemit := emitCategory_of_mem_emitAll hm
    refine ⟨hemit, ?_⟩
    obtain ⟨c, hc, hmodule⟩ := Option.map_eq_some_iff.mp hemit
    rcases hholds m.key with ⟨hget, -⟩ | ⟨c', v, hget, hlast, htaken⟩
    · exact nomatch hget.symm.trans hc
    · obtain rfl := Option.some.inj (hget.symm.trans hc)
      refine ⟨c', v, hget, hmodule.symm, hlast, htaken, fun hobject => ?_⟩
      obtain ⟨ds, hds, hshown⟩ := exists_declarations htaken hobject
      exact ⟨ds, hds, Scope.showsLast _ hshown⟩

/-! ## A document that names a category twice -/

theorem membersForm_layoutObject (depth : Nat) {ms : List (String × List Char)}
    (h : ∀ m ∈ ms, WellFormed .value m.2) : membersForm ms (layoutObject depth ms) := by
  have hmembers : List.Forall₂ (fun m t : String × List Char =>
      memberForm (fun _ => asWritten) m (layoutText t.1 ++ [':', ' '] ++ t.2)) ms ms :=
    List.forall₂_same.mpr fun m hm => memberForm_layoutMember ⟨h m hm, rfl⟩
  obtain ⟨parts, hlayout, hparts⟩ := exists_parts_layoutObject depth hmembers
  exact ⟨parts, hparts, hlayout⟩

def emptyObject : List Char :=
  layoutObject 0 []

theorem wellFormed_emptyObject : WellFormed .value emptyObject :=
  wellFormed_of_membersForm (membersForm_layoutObject 0 (fun _ h => absurd h List.not_mem_nil))

/-- Declarations out of order; one is absent at first, and one in the end. -/
def repeatedDeclarations : List (String × List Char) :=
  [("Y", ['n', 'u', 'l', 'l']), ("Z", emptyObject), ("X", emptyObject), ("Y", emptyObject),
    ("Z", ['n', 'u', 'l', 'l'])]

def repeatedCategory : List Char :=
  layoutObject 0 [("decls", layoutObject 0 repeatedDeclarations)]

/-- Categories out of order, of which one is named twice. -/
def repeatedCategories : List (String × List Char) :=
  [("doc", emptyObject), ("base", emptyObject), ("base", repeatedCategory)]

def repeatedObject : List Char :=
  layoutObject 0 [("categories", layoutObject 0 repeatedCategories)]

def repeatedDocument : String :=
  String.ofList repeatedObject

def repeatedDescription : Description where
  categories :=
    { entries := [("base", { declarations :=
        { entries := [("X", some {}), ("Y", some {}), ("Z", none)], sorted := by decide } }),
        ("doc", {})]
      sorted := by decide }

theorem membersForm_repeatedDeclarations :
    membersForm repeatedDeclarations (layoutObject 0 repeatedDeclarations) := by
  refine membersForm_layoutObject 0 ?_
  simp only [repeatedDeclarations, List.forall_mem_cons]
  exact ⟨.null, wellFormed_emptyObject, wellFormed_emptyObject, wellFormed_emptyObject, .null,
    List.forall_mem_nil _⟩

theorem declarationsForm_repeatedCategory :
    declarationsForm repeatedDeclarations repeatedCategory := by
  have hinner := membersForm_repeatedDeclarations
  refine ⟨_, membersForm_layoutObject 0 ?_, .inr ⟨_, rfl, hinner⟩⟩
  exact List.forall_mem_singleton.mpr (wellFormed_of_membersForm hinner)

theorem categoriesForm_repeatedDocument :
    categoriesForm repeatedCategories repeatedDocument.toList := by
  obtain ⟨_, hcategory, -⟩ := declarationsForm_repeatedCategory
  have hinner : membersForm repeatedCategories (layoutObject 0 repeatedCategories) := by
    refine membersForm_layoutObject 0 ?_
    simp only [repeatedCategories, List.forall_mem_cons]
    exact ⟨wellFormed_emptyObject, wellFormed_emptyObject, wellFormed_of_membersForm hcategory,
      List.forall_mem_nil _⟩
  have houter : membersForm _ repeatedObject := membersForm_layoutObject 0
    (List.forall_mem_singleton.mpr (wellFormed_of_membersForm hinner))
  refine ⟨[], repeatedObject, [], .nil, ⟨_, houter, .inr ⟨_, rfl, hinner⟩⟩, .nil, ?_⟩
  rw [repeatedDocument, String.toList_ofList, List.nil_append, List.append_nil]

theorem ofText_repeatedDocument :
    Description.ofText repeatedDocument = .ok repeatedDescription := by
  have hread : Description.record.read repeatedObject = .ok (repeatedDescription, []) := by rfl
  rw [Description.ofText, repeatedDocument, readAll_ofList hread .nil]
  rfl

/-- The category that is named twice has one module, of its last value, with a
block for each declaration that is not absent in the end. -/
theorem repeatedDocument_modules :
    Description.ofText repeatedDocument = .ok repeatedDescription ∧
    (skipBlanks repeatedDocument.toList).head? = some '\x7b' ∧
    (emitAll repeatedDescription {}).map (·.key) = ["base", "doc"] ∧
    (∀ key, key ∈ ["base", "doc"] ↔ key ∈ repeatedCategories.map Prod.fst) ∧
    ∃ c, Scope.ShowsLast ⟨repeatedDescription, {}, "base"⟩ c repeatedDeclarations ∧
      (Scope.draft ⟨repeatedDescription, {}, "base"⟩ c).blocks.map Block.key = ["X", "Y"] := by
  have hcurly : (skipBlanks repeatedDocument.toList).head? = some '\x7b' := by
    rw [repeatedDocument, String.toList_ofList]
    rfl
  have hkeys : (emitAll repeatedDescription {}).map (·.key) = ["base", "doc"] := by
    rw [keys_emitAll]
    rfl
  obtain ⟨cs, hcs, -, hnames, -, hmodules⟩ :=
    emitAll_follows_document {} ofText_repeatedDocument hcurly
  obtain rfl := (hcs _).mp categoriesForm_repeatedDocument
  refine ⟨ofText_repeatedDocument, hcurly, hkeys, hkeys ▸ hnames, ?_⟩
  have hbase : "base" ∈ (emitAll repeatedDescription {}).map (·.key) := hkeys ▸ List.mem_cons_self
  obtain ⟨m, hm, hkey⟩ := List.mem_map.mp hbase
  obtain ⟨-, c, v, hc, -, hlast, -, hshown⟩ := hmodules m hm
  rw [hkey] at hc hlast hshown
  have hv : lastUnder repeatedCategories "base" = some repeatedCategory := rfl
  obtain rfl := Option.some.inj (hlast.symm.trans hv)
  obtain ⟨ds, hds, hshown⟩ := hshown rfl
  obtain rfl := (hds _).mp declarationsForm_repeatedCategory
  refine ⟨c, hshown, ?_⟩
  obtain rfl := Option.some.inj hc
  rw [Scope.keys_blocks]
  rfl

end Ambient
