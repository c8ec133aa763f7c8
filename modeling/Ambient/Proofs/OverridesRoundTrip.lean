import Ambient.Overrides.Layout
import Ambient.Program
import Ambient.Proofs.Loading
import Ambient.Proofs.OverridesForms

/-!
# Override tables are read back

The written form of override tables is one of the forms in which a document of
tables may be written, the one that names all four in their fixed order
(`Overrides.overridesForm_layout`).  Nothing of the built-in tables remains when
it is read, so the tables that are read are the tables that were written.  What
the program prints is that form and a line feed, and can therefore be saved and
given to the program again.
-/

namespace Ambient

open Json

/-! ## The layout is one of the forms -/

theorem setForm_layoutList (depth : Nat) (s : SortedSet) :
    setForm s (layoutList depth (s.toList.map layoutText)) :=
  ⟨s.toList, fun _ => Iff.rfl, listForm_layoutList textForm_layoutText depth s.toList⟩

theorem ExtendsRule.ruleForm_layout (depth : Nat) (r : ExtendsRule) :
    ruleForm r (r.layout depth) := by
  obtain ⟨names, base, category⟩ := r
  have hnames := setForm_layoutList (depth + 1) names
  have hbase := textForm_layoutText base
  cases category with
  | none =>
      refine objectOf_layoutObject depth ?_ (by simp) (by simp)
      exact List.forall_mem_cons.mpr ⟨hnames, List.forall_mem_singleton.mpr hbase⟩
  | some c =>
      refine objectOf_layoutObject depth ?_ (by simp) (by simp)
      exact List.forall_mem_cons.mpr ⟨hnames, List.forall_mem_cons.mpr ⟨hbase,
        List.forall_mem_singleton.mpr (textForm_layoutText c)⟩⟩

namespace Overrides

def tables : List Table :=
  [.anyTypes, .extensions, .commentedExports, .duplicateParameters]

theorem overridesForm_layout (o : Overrides) {ws : List Char} (hws : Blanks ws) :
    overridesForm o tables.toFinset (o.layout ++ ws) := by
  have hmembers : List.Forall₂ (fun t (m : String × List Char) =>
      Table.member o t (layoutText m.1 ++ [':', ' '] ++ m.2)) tables
      [("any_types", layoutList 1 (o.anyTypes.toList.map layoutText)),
       ("extends", layoutList 1 (o.extensions.map (·.layout 2))),
       ("commented_exports",
         layoutObject 1 (o.commentedExports.entries.map fun e => (e.1, layoutText e.2))),
       ("duplicate_params", layoutList 1 (o.duplicateParameters.map layoutText))] :=
    .cons (memberForm_layoutMember (setForm_layoutList 1 o.anyTypes))
      (.cons (memberForm_layoutMember
          (listForm_layoutList (ExtendsRule.ruleForm_layout 2) 1 o.extensions))
        (.cons (memberForm_layoutMember ⟨_, fun _ => Iff.rfl,
            mapForm_layoutObject textForm_layoutText 1 o.commentedExports.entries⟩)
          (.cons (memberForm_layoutMember
            (listForm_layoutList textForm_layoutText 1 o.duplicateParameters)) .nil)))
  obtain ⟨parts, hlayout, hparts⟩ := exists_parts_layoutObject 0 hmembers
  refine ⟨tables, parts, [], ws, by decide, rfl, hparts, .nil, hws, ?_⟩
  rw [layout, hlayout]
  rfl

theorem ofText_toText_append (o : Overrides) {ws : String} (hws : Blanks ws.toList) :
    Overrides.ofText (o.toText ++ ws) = .ok o := by
  have hform := o.overridesForm_layout hws
  rw [← String.toList_ofList (l := o.layout ++ ws.toList), String.ofList_append,
    String.ofList_toList] at hform
  exact ofText_of_overridesForm hform

end Overrides

/-! ## The program -/

theorem runProgram_printOverrides {args : List String} {opts : Options} {t : FileTree}
    {stdin : ByteArray} {today : Date} {o : Overrides} (setting : Option String)
    (hargs : Options.ofArguments args = .ok opts) (hprint : opts.printOverrides = true)
    (hload : ((t.sources stdin today).overrides opts.overrides).run = .ok o) :
    runProgram args setting stdin today t = ⟨0, o.toText ++ "\n", "", t⟩ := by
  unfold runProgram
  rw [hargs]
  simp only [hprint, if_true, hload]

/-- **Override tables survive being written.**  Reading their written form gives
them back, whatever they hold.  So for all tables that the program loads, what
it prints can be saved and given to the program: it loads the same tables and
prints the same text. -/
theorem overrides_roundTrip :
    (∀ o : Overrides, Overrides.ofText o.toText = .ok o) ∧
    ∀ (args args' : List String) (opts opts' : Options) (setting setting' : Option String)
      (stdin stdin' : ByteArray) (today today' : Date) (t t' : FileTree) (o : Overrides)
      (path : String),
      Options.ofArguments args = .ok opts → opts.printOverrides = true →
      ((t.sources stdin today).overrides opts.overrides).run = .ok o →
      Options.ofArguments args' = .ok opts' → opts'.printOverrides = true →
      opts'.overrides = some path →
      t'.openPath path = .ok (.file (runProgram args setting stdin today t).stdout.toUTF8) →
      ((t'.sources stdin' today').overrides opts'.overrides).run = .ok o ∧
        runProgram args' setting' stdin' today' t' =
          ⟨0, (runProgram args setting stdin today t).stdout, "", t'⟩ := by
  refine ⟨?_, ?_⟩
  · intro o
    have hempty : Blanks "".toList := .nil
    have hread := o.ofText_toText_append hempty
    rwa [String.append_empty] at hread
  · intro args args' opts opts' setting setting' stdin stdin' today today' t t' o path hargs hprint
      hload hargs' hprint' hpath hfile
    have hblank : Blanks "\n".toList := fun c hc => List.mem_singleton.mp hc ▸ rfl
    rw [runProgram_printOverrides setting hargs hprint hload] at hfile ⊢
    have hload' : ((t'.sources stdin' today').overrides opts'.overrides).run = .ok o := by
      rw [hpath]
      exact FileTree.run_overrides stdin' today' hfile (o.ofText_toText_append hblank)
    exact ⟨hload', runProgram_printOverrides setting' hargs' hprint' hload'⟩

/-! ## The built-in tables, printed and given back -/

/-- A tree with the built-in tables as they are printed. -/
def printedTree : FileTree :=
  ⟨[(["tables.json"], .file (Overrides.builtIn.toText ++ "\n").toUTF8)]⟩

def newYear : Date :=
  ⟨2024, 1, 1, by decide⟩

/-- The file that holds them is loaded and printed as they were. -/
theorem builtIn_roundTrip :
    ((printedTree.sources .empty newYear).overrides (some "tables.json")).run = .ok .builtIn ∧
      runProgram ["--print-overrides", "--overrides=tables.json"] none .empty newYear printedTree =
        ⟨0, Overrides.builtIn.toText ++ "\n", "", printedTree⟩ := by
  have hargs : Options.ofArguments ["--print-overrides"] = .ok { printOverrides := true } := by rfl
  have hargs' : Options.ofArguments ["--print-overrides", "--overrides=tables.json"] =
      .ok { printOverrides := true, overrides := some "tables.json" } := by rfl
  have hload : ((FileTree.sources {} .empty newYear).overrides none).run =
      .ok Overrides.builtIn := by rfl
  have hprinted := runProgram_printOverrides none hargs rfl hload
  have hfile : printedTree.openPath "tables.json" =
      .ok (.file (Overrides.builtIn.toText ++ "\n").toUTF8) := by rfl
  have hagain := overrides_roundTrip.2 _ _ _ _ none none .empty .empty newYear newYear {}
    printedTree _ _ hargs rfl hload hargs' rfl rfl (by rw [hprinted]; exact hfile)
  rwa [hprinted] at hagain

end Ambient
