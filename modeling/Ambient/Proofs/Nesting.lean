import Ambient.Proofs.BraceFree

/-!
# Nested blocks

The braces of a module are opened in five places: the two namespaces of the
module, one namespace for each dot in the key of a declaration, an enum, an
interface on one line, and an interface with members.  None of them knows of the
others.  Here each is a step of `Leads`, from the depth at which it begins to the
depth at which it ends, and the steps are put together along `Draft.lines`.

The result, `emitCategory_wellNested`, is about descriptions and settings without
braces in their texts; a brace in a documentation would count like any other.
-/

namespace Ambient

open Text

/-! ## Depth along lines -/

/-- The characters of some lines, without what stands between them. -/
def written (lines : List String) : List Char :=
  lines.flatMap String.toList

theorem written_append (lines more : List String) :
    written (lines ++ more) = written lines ++ written more :=
  List.flatMap_append

theorem written_cons (line : String) (lines : List String) :
    written (line :: lines) = line.toList ++ written lines :=
  List.flatMap_cons

theorem filter_isBrace_indent (line : String) :
    (indent line).toList.filter isBrace = line.toList.filter isBrace := by
  have hspaces : "    ".toList.filter isBrace = [] := by decide
  unfold indent
  split
  · rename_i hempty
    rw [hempty]
  · rw [String.toList_append, List.filter_append, hspaces, List.nil_append]

namespace Leads

variable {n m k : Nat} {a b : String} {lines more : List String}

theorem text_append (ha : Leads n a.toList m) (hb : Leads m b.toList k) :
    Leads n (a ++ b).toList k := by
  rw [String.toList_append]
  exact ha.append hb

theorem line (h : Leads n a.toList m) : Leads n (written [a]) m := by
  rwa [written, List.flatMap_singleton]

theorem lines_append (h : Leads n (written lines) m) (hmore : Leads m (written more) k) :
    Leads n (written (lines ++ more)) k := by
  rw [written_append]
  exact h.append hmore

theorem lines_cons (ha : Leads n a.toList m) (h : Leads m (written lines) k) :
    Leads n (written (a :: lines)) k := by
  rw [written_cons]
  exact ha.append h

theorem map_indent (h : Leads n (written lines) m) : Leads n (written (lines.map indent)) m := by
  refine h.congr ?_
  rw [written, written, List.filter_flatMap, List.filter_flatMap, List.flatMap_map]
  exact List.flatMap_congr fun line _ => filter_isBrace_indent line

end Leads

theorem leads_braceFree_lines {lines : List String} (h : ∀ l ∈ lines, BraceFree l.toList)
    (n : Nat) : Leads n (written lines) n :=
  .flatMap fun l hl => leads_of_braceFree (h l hl) n

theorem leads_openBrace {head : String} (h : BraceFree head.toList) (n : Nat) :
    Leads n (head ++ openBrace).toList (n + 1) := by
  have hspace : openBrace.toList = [' '] ++ ['\x7b'] := rfl
  rw [String.toList_append, hspace, ← List.append_assoc]
  exact leads_opening (h.append (by decide)) n

theorem leads_closeBrace (n : Nat) : Leads (n + 1) closeBrace.toList n :=
  leads_closing (by decide : BraceFree []) n

/-! ## Declarations -/

section Declarations

variable {s : Scope} {name : String} {d : Declaration}

theorem leads_renderEnum (hname : BraceFree name.toList) (h : NoBraces d.texts) (n : Nat) :
    Leads n (renderEnum name d).toList n := by
  have hconstants : BraceFree (", ".intercalate (d.properties.map (·.name))).toList := by
    refine braceFree_intercalate (by decide) fun t ht => ?_
    obtain ⟨p, hp, rfl⟩ := List.mem_map.mp ht
    simp only [Declaration.texts, NoBraces.cons_iff, NoBraces.append_iff, NoBraces.flatMap_iff,
      Property.texts] at h
    obtain ⟨-, -, hproperties, -⟩ := h
    exact (hproperties p hp).1
  have hspace : ∀ m, Leads m " ".toList m := leads_of_braceFree (by decide)
  have hopen : Leads n ("enum " ++ name ++ openBrace).toList (n + 1) :=
    leads_openBrace (BraceFree.text_append (by decide) hname) n
  exact (((hopen.text_append (hspace _)).text_append (leads_of_braceFree hconstants _)).text_append
    (hspace _)).text_append (leads_closeBrace n)

theorem Scope.leads_interfaceHead (hname : BraceFree name.toList)
    (hs : NoBraces s.settings.overrides.texts) (n : Nat) :
    Leads n (s.interfaceHead name).toList (n + 1) := by
  have hhead : BraceFree ("interface " ++ name).toList := BraceFree.text_append (by decide) hname
  unfold interfaceHead
  cases hbase : s.settings.overrides.base? name s.displayName with
  | none => exact leads_openBrace hhead n
  | some base =>
      exact leads_openBrace
        ((hhead.text_append (by decide)).text_append (Overrides.braceFree_of_base? hs hbase)) n

theorem Scope.leads_interfaceLines (hname : BraceFree name.toList)
    (hs : NoBraces s.settings.overrides.texts) (h : NoBraces d.texts) (n : Nat) :
    Leads n (written (s.interfaceLines name d)) n := by
  have hhead := s.leads_interfaceHead hname hs n
  have hmembers := leads_braceFree_lines (s.braceFree_memberLines h) (n + 1)
  unfold interfaceLines
  split
  · exact ((hhead.text_append (leads_of_braceFree (by decide) _)).text_append
      (leads_closeBrace n)).line
  · exact (hhead.line.lines_append hmembers).lines_append (leads_closeBrace n).line

/-- An enum and an interface end at the depth at which they begin. -/
theorem Scope.leads_bodyLines (hname : BraceFree name.toList)
    (hs : NoBraces s.settings.overrides.texts) (h : NoBraces d.texts) (n : Nat) :
    Leads n (written (s.bodyLines name d)) n := by
  unfold bodyLines
  cases d.kind with
  | enum => exact (leads_renderEnum hname h n).line
  | interface => exact s.leads_interfaceLines hname hs h n

end Declarations

/-! ## Namespaces -/

theorem length_splitOn (x : Char) (cs : List Char) : (cs.splitOn x).length = cs.count x + 1 := by
  induction hn : cs.length using Nat.strongRecOn generalizing cs with
  | ind n ih =>
      obtain ⟨last, hlast, rfl | ⟨above, rfl⟩⟩ := exists_last_piece x cs
      · rw [List.splitOn_eq_singleton hlast, List.count_eq_zero.mpr hlast]
        rfl
      · rw [List.splitOn_append_cons_self, List.splitOn_eq_singleton hlast, List.length_append,
          ih above.length (by simp at hn; omega) above rfl, List.count_append, List.count_cons_self,
          List.count_eq_zero.mpr hlast]
        rfl

theorem KeyPath.length_namespaces (key : String) :
    (ofKey key).namespaces.length = key.toList.count '.' := by
  have hlength := congrArg List.length (parts_eq key)
  rw [List.length_map, length_splitOn, List.length_append, List.length_singleton] at hlength
  omega

theorem leads_openings {names : List String} (h : ∀ name ∈ names, BraceFree name.toList) (n : Nat) :
    Leads n (written (names.map Scope.wrapperOpening)) (n + names.length) := by
  induction names generalizing n with
  | nil => exact .nil n
  | cons name names ih =>
      have hhead : BraceFree ("namespace " ++ name).toList :=
        BraceFree.text_append (by decide) (h name List.mem_cons_self)
      have hrest := ih (fun m hm => h m (List.mem_cons_of_mem name hm)) (n + 1)
      rw [List.length_cons, ← Nat.add_assoc, Nat.add_right_comm]
      exact (leads_openBrace hhead n).lines_cons hrest

theorem leads_closings (names : List String) (n : Nat) :
    Leads (n + names.length) (written (names.map fun _ => closeBrace)) n := by
  induction names with
  | nil => exact .nil n
  | cons name names ih => exact (leads_closeBrace _).lines_cons ih

/-! ## Blocks -/

namespace Scope

variable {s : Scope} {key : String} {d : Declaration}

/-- The lines of a declaration up to its enum or interface lead deeper by one
for each dot in its key. -/
theorem leads_above_bodyLines (hkey : BraceFree key.toList) (h : NoBraces d.texts) (n : Nat) :
    Leads n (written (docBlock d.doc ++ (KeyPath.ofKey key).namespaces.map wrapperOpening))
      (n + key.toList.count '.') := by
  have hdoc : BraceFree d.doc.toList := h _ (by simp [Declaration.texts])
  rw [← KeyPath.length_namespaces]
  exact (leads_braceFree_lines (braceFree_docBlock hdoc) n).lines_append
    (leads_openings (fun name hname => KeyPath.braceFree_part hkey (List.mem_append_left _ hname)) n)

theorem leads_declarationLines (hkey : BraceFree key.toList)
    (hs : NoBraces s.settings.overrides.texts) (h : NoBraces d.texts) (n : Nat) :
    Leads n (written (s.declarationLines key d)) n := by
  have hclosings := leads_closings (KeyPath.ofKey key).namespaces n
  rw [KeyPath.length_namespaces] at hclosings
  exact ((leads_above_bodyLines hkey h n).lines_append
    (s.leads_bodyLines (KeyPath.braceFree_leaf hkey) hs h _)).lines_append hclosings

/-- The first line of a declaration is not empty: both of its words hold an `e`. -/
theorem mem_bodyOpening (s : Scope) (name : String) (d : Declaration) :
    'e' ∈ (s.bodyOpening name d).toList := by
  unfold bodyOpening
  cases d.kind with
  | enum => simp
  | interface => cases s.settings.overrides.base? name s.displayName <;> simp

/-! ## Modules -/

/-- The pieces of a module above its blocks: the header, the directives, an
empty line and the opening of the two namespaces. -/
def piecesAbove (s : Scope) (c : Category) : List String :=
  (if s.settings.header = "" then [] else [s.settings.header]) ++
    (s.draft c).references.keys.map s.settings.directive ++ [""] ++
    [s.settings.outerOpening, innerOpening c.displayName]

/-- The pieces of the blocks of some declarations. -/
def blockPieces (s : Scope) (es : List (String × Declaration)) : List String :=
  es.flatMap fun e => (s.declarationLines e.1 e.2).map indent

/-- The pieces of a module below its blocks and above the bindings. -/
def piecesBelow : List String :=
  ["  " ++ closeBrace, closeBrace, ""]

def bindingPieces (s : Scope) (c : Category) : List String :=
  (exportedNames s.description.services c).toList.flatMap (s.settings.bindingLines c.displayName)

theorem lines_draft (s : Scope) (c : Category) :
    (s.draft c).lines s.settings =
      s.piecesAbove c ++ s.blockPieces c.present ++ piecesBelow ++ s.bindingPieces c := by
  have hblocks : (s.draft c).blocks.flatMap (fun b => b.lines.map indent) =
      s.blockPieces c.present := by
    rw [s.draft_eq c, List.flatMap_map]
    rfl
  have hbindings : (s.draft c).exports.toList.flatMap ((s.draft c).binding s.settings) =
      s.bindingPieces c := by
    rw [funext ((s.draft c).binding_eq s.settings), s.draft_eq c]
    rfl
  have hname : (s.draft c).displayName = c.displayName := by rw [s.draft_eq c]
  -- `unfold` asks for no equation lemmas, whose making would evaluate the literals.
  unfold Draft.lines Draft.body piecesAbove piecesBelow Settings.outerOpening innerOpening
  rw [hblocks, hbindings, hname]
  simp only [List.append_assoc, List.cons_append, List.nil_append]

section Depths

variable {c : Category}

theorem leads_blockPieces {es : List (String × Declaration)}
    (hs : NoBraces s.settings.overrides.texts)
    (h : ∀ e ∈ es, BraceFree e.1.toList ∧ NoBraces e.2.texts) (n : Nat) :
    Leads n (written (s.blockPieces es)) n := by
  rw [written, blockPieces, List.flatMap_assoc]
  exact .flatMap fun e he => (leads_declarationLines (h e he).1 hs (h e he).2 n).map_indent

theorem leads_piecesAbove (hs : NoBraces s.settings.texts) (hc : NoBraces c.texts) :
    Leads 0 (written (s.piecesAbove c)) 2 := by
  have hheader : BraceFree s.settings.header.toList := hs _ (by simp [Settings.texts])
  have houter : BraceFree s.settings.outerNamespace.toList := hs _ (by simp [Settings.texts])
  have htop : ∀ l ∈ (if s.settings.header = "" then [] else [s.settings.header]) ++
      (s.draft c).references.keys.map s.settings.directive ++ [""], BraceFree l.toList := by
    intro l hl
    rcases List.mem_append.mp hl with hl | hl
    · rcases List.mem_append.mp hl with hl | hl
      · split at hl
        · exact absurd hl List.not_mem_nil
        · exact List.mem_singleton.mp hl ▸ hheader
      · obtain ⟨category, hcategory, rfl⟩ := List.mem_map.mp hl
        exact Settings.braceFree_directive hs (s.braceFree_references hs hc category hcategory)
    · exact List.mem_singleton.mp hl ▸ by decide
  have hopen : Leads 0 s.settings.outerOpening.toList 1 :=
    leads_openBrace (BraceFree.text_append (by decide) houter) 0
  have hinner : Leads 1 (innerOpening c.displayName).toList 2 :=
    leads_openBrace (BraceFree.text_append (by decide) c.braceFree_displayName) 1
  exact (leads_braceFree_lines htop 0).lines_append (hopen.lines_cons hinner.line)

theorem leads_piecesBelow : Leads 2 (written piecesBelow) 0 :=
  ((leads_of_braceFree (by decide) 2).text_append (leads_closeBrace 1)).lines_cons
    ((leads_closeBrace 0).lines_cons (leads_of_braceFree (by decide) 0).line)

theorem braceFree_bindingPieces (hs : NoBraces s.settings.texts) (hc : NoBraces c.texts) :
    ∀ l ∈ s.bindingPieces c, BraceFree l.toList := by
  intro l hl
  obtain ⟨name, hname, hl⟩ := List.mem_flatMap.mp hl
  obtain ⟨e, he, -, rfl⟩ := mem_exportedNames.mp hname
  exact Settings.braceFree_bindingLines hs c.braceFree_displayName
    (KeyPath.braceFree_leaf (c.noBraces_present hc he).1) l hl

theorem leads_above_bindings (hs : NoBraces s.settings.texts) (hc : NoBraces c.texts) :
    Leads 0 (written (s.piecesAbove c ++ s.blockPieces c.present ++ piecesBelow)) 0 :=
  ((leads_piecesAbove hs hc).lines_append
    (leads_blockPieces (NoBraces.append_iff.mp hs).2 (fun _ he => c.noBraces_present hc he) 2)
    ).lines_append leads_piecesBelow

/-- A declaration stands in the pieces of a module at the depth that its key says. -/
theorem exists_block_at_depth (hs : NoBraces s.settings.texts) (hc : NoBraces c.texts)
    {e : String × Declaration} (he : e ∈ c.present) :
    ∃ above head more rest below,
      (s.draft c).lines s.settings = above ++ (s.declarationLines e.1 e.2).map indent ++ below ∧
      (s.declarationLines e.1 e.2).map indent =
        head ++ ("    " ++ s.bodyOpening (KeyPath.ofKey e.1).leaf e.2 ++ more) :: rest ∧
      Leads 0 (written (above ++ head)) (2 + e.1.toList.count '.') := by
  have hover := (NoBraces.append_iff.mp hs).2
  obtain ⟨hkey, hdeclaration⟩ := c.noBraces_present hc he
  obtain ⟨before, after, hpresent⟩ := List.append_of_mem he
  have hbefore : ∀ e ∈ before, BraceFree e.1.toList ∧ NoBraces e.2.texts := fun e he =>
    c.noBraces_present hc (hpresent ▸ List.mem_append_left _ he)
  obtain ⟨more, rest, hbody⟩ := s.exists_bodyLines (KeyPath.ofKey e.1).leaf e.2
  have hindent := indent_append_of_mem (s.mem_bodyOpening (KeyPath.ofKey e.1).leaf e.2) more
  refine ⟨s.piecesAbove c ++ s.blockPieces before,
    (docBlock e.2.doc ++ (KeyPath.ofKey e.1).namespaces.map wrapperOpening).map indent, more,
    (rest ++ (KeyPath.ofKey e.1).namespaces.map fun _ => closeBrace).map indent,
    s.blockPieces after ++ piecesBelow ++ s.bindingPieces c, ?_, ?_, ?_⟩
  · rw [lines_draft, hpresent, blockPieces, List.flatMap_append, List.flatMap_cons]
    simp only [blockPieces, List.append_assoc]
  · rw [declarationLines, hbody, ← hindent]
    simp only [List.map_append, List.map_cons, List.append_assoc, List.cons_append]
  · exact ((leads_piecesAbove hs hc).lines_append (leads_blockPieces hover hbefore 2)).lines_append
      (leads_above_bodyLines hkey hdeclaration 2).map_indent

end Depths

end Scope

theorem Draft.filter_isBrace_text (d : Draft) (s : Settings) :
    (d.text s).toList.filter isBrace = (written (d.lines s)).filter isBrace := by
  rw [Draft.text, String.toList_ofList, filter_finish fun _ => isBrace_eq_false rfl rfl,
    toList_intercalate_lineFeed, filter_joinLines rfl, List.flatMap_map, written,
    List.filter_flatMap]

/-- **Blocks are well nested.**  Where no text of the description and of the
settings holds a brace, every brace of a module that is closed is open and every
one that is opened is closed.  Among the pieces of the module

* the lines of each declaration are well nested, and the line with its enum or
  interface begins inside two braces and one more for each dot in its key;
* the bindings stand outside all braces and have none. -/
theorem emitCategory_wellNested (d : Description) (s : Settings) {key : String} {c : Category}
    (hc : d.category? key = some c) (hd : NoBraces d.texts) (hs : NoBraces s.texts) :
    ∃ m, emitCategory d s key = some m ∧ WellNested m.text.toList ∧
      (∀ e ∈ c.present, ∃ b ∈ (Scope.draft ⟨d, s, key⟩ c).blocks, b.key = e.1 ∧
        WellNested (written (b.lines.map indent)) ∧
        ∃ above head more rest below,
          (Scope.draft ⟨d, s, key⟩ c).lines s = above ++ b.lines.map indent ++ below ∧
          b.lines.map indent = head ++
            ("    " ++ Scope.bodyOpening ⟨d, s, key⟩ (KeyPath.ofKey e.1).leaf e.2 ++ more) :: rest ∧
          Leads 0 (written (above ++ head)) (2 + e.1.toList.count '.')) ∧
      ∃ above,
        (Scope.draft ⟨d, s, key⟩ c).lines s =
          above ++ m.exports.flatMap (s.bindingLines c.displayName) ∧
        Leads 0 (written above) 0 ∧
        ∀ l ∈ m.exports.flatMap (s.bindingLines c.displayName), BraceFree l.toList := by
  have hcategory := d.noBraces_category hd hc
  have hbindings := Scope.braceFree_bindingPieces (s := ⟨d, s, key⟩) hs hcategory
  have habove := Scope.leads_above_bindings (s := ⟨d, s, key⟩) hs hcategory
  have hlines := Scope.lines_draft ⟨d, s, key⟩ c
  refine ⟨Scope.moduleFile ⟨d, s, key⟩ c, by rw [emitCategory, hc]; rfl, ?_, fun e he => ?_,
    _, hlines, habove, hbindings⟩
  · have hall := habove.lines_append (leads_braceFree_lines hbindings 0)
    rw [← hlines] at hall
    exact (hall.congr (Draft.filter_isBrace_text _ s)).wellNested
  · obtain ⟨hkey, hdeclaration⟩ := c.noBraces_present hcategory he
    have hblock : Scope.block ⟨d, s, key⟩ e ∈ (Scope.draft ⟨d, s, key⟩ c).blocks := by
      rw [Scope.draft_eq]
      exact List.mem_map_of_mem he
    exact ⟨_, hblock, rfl,
      (Scope.leads_declarationLines hkey (NoBraces.append_iff.mp hs).2 hdeclaration
        0).map_indent.wellNested,
      Scope.exists_block_at_depth hs hcategory he⟩

/-! ## One module -/

/-- A category with an enum inside two namespaces, an interface without members
and a service inside one namespace. -/
def shapesCategory : Category where
  name := some "Shapes"
  declarations := ⟨[
    ("A.B.Side", some { kind := .enum, properties := [{ name := "LEFT" }, { name := "RIGHT" }] }),
    ("Empty", some {}),
    ("Round.Ball", some {
      doc := "A ball.\n\n\n\nIt is round."
      url := "ball"
      properties := [{ name := "size", type := { name := "Number" } }]
      methods := [{ name := "roll", returnType := { name := "Side", category := some "shapes" } }] })],
    by decide⟩

def shapesDescription : Description where
  categories := ⟨[("shapes", shapesCategory)], by decide⟩
  services := ⟨⟨[("ball", true)], by decide⟩⟩

/-- The enum begins inside four braces, and the binding of the service outside all. -/
theorem shapes_module_wellNested :
    shapesDescription.category? "shapes" = some shapesCategory ∧
      NoBraces shapesDescription.texts ∧ NoBraces ({} : Settings).texts ∧
      ∃ m, emitCategory shapesDescription {} "shapes" = some m ∧ WellNested m.text.toList ∧
        (∃ above more rest, (Scope.draft ⟨shapesDescription, {}, "shapes"⟩ shapesCategory).lines {} =
            above ++ ("    enum Side \x7b" ++ more) :: rest ∧ Leads 0 (written above) 4) ∧
        ∃ above, (Scope.draft ⟨shapesDescription, {}, "shapes"⟩ shapesCategory).lines {} =
            above ++ ["declare var Ball: GoogleAppsScript.Shapes.Ball;"] ∧
          Leads 0 (written above) 0 := by
  have hc : shapesDescription.category? "shapes" = some shapesCategory := by rfl
  have hd : NoBraces shapesDescription.texts := by decide +kernel
  have hs : NoBraces ({} : Settings).texts := by decide +kernel
  obtain ⟨m, hm, hnested, hblocks, above, hlines, habove, -⟩ :=
    emitCategory_wellNested shapesDescription {} hc hd hs
  refine ⟨hc, hd, hs, m, hm, hnested, ?_, above, ?_, habove⟩
  · obtain ⟨b, -, -, -, start, head, more, rest, below, hpieces, hblock, hdepth⟩ :=
      hblocks _ List.mem_cons_self
    refine ⟨start ++ head, more, rest ++ below, ?_, hdepth⟩
    rw [hpieces, hblock]
    simp only [List.append_assoc, List.cons_append]
    rfl
  · rw [hlines]
    rw [emitCategory, hc] at hm
    obtain rfl := Option.some.inj hm
    rfl

end Ambient
