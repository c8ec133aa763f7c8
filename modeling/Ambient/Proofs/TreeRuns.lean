import Ambient.Generation
import Ambient.Proofs.TreeChanges
import Mathlib.Data.Prod.Basic

/-!
# Runs in a tree of files

A run is written over the operations of a system of files and a log.  In a tree
it does what those operations do there, one after the other: a refusal ends it
and leaves the tree as the last step did, and the events stand in the order in
which they were logged.

The equations here are all that later modules use of the run.
-/

namespace Ambient

/-! ## Actions on the tree -/

namespace World

variable {α β : Type}

theorem run_onTree {act : StateM FileTree α} {w : World} {a : α} {t : FileTree}
    (h : act.run w.tree = (a, t)) : (onTree act).run w = (a, { w with tree := t }) := by
  show ((act.run w.tree).1, ({ w with tree := (act.run w.tree).2 } : World)) = _
  rw [h]

theorem onTree_bind (act : StateM FileTree α) (next : α → StateM FileTree β) :
    onTree (act >>= next) = onTree act >>= fun a => onTree (next a) :=
  rfl

theorem keepDirectory_sinks (names : List String) (e : SystemError) :
    sinks.keepDirectory names e = onTree (FileTree.system.keepDirectory names e) := by
  rw [FileSystem.keepDirectory, FileSystem.keepDirectory, onTree_bind]
  refine bind_congr fun there => ?_
  split
  · rfl
  · rfl

theorem ensureDirectory_sinks (names : List String) :
    sinks.ensureDirectory names = onTree (FileTree.system.ensureDirectory names) := by
  rw [FileSystem.ensureDirectory, FileSystem.ensureDirectory, onTree_bind]
  refine bind_congr fun made => ?_
  cases made with
  | ok _ => rfl
  | error e => exact keepDirectory_sinks names e

theorem makeChain_sinks :
    ∀ chain, sinks.makeChain chain = onTree (FileTree.system.makeChain chain)
  | [] => rfl
  | names :: above => by
      rw [FileSystem.makeChain, FileSystem.makeChain, onTree_bind]
      refine bind_congr fun made => ?_
      cases made with
      | ok _ => rfl
      | error e =>
          cases e with
          | noSuchEntry =>
              simp only [onTree_bind]
              rw [makeChain_sinks above]
              refine bind_congr fun grown => ?_
              cases grown with
              | error e => rfl
              | ok _ => exact ensureDirectory_sinks names
          | _ => exact keepDirectory_sinks names _

/-- Creating directories logs nothing, and the log makes no difference to it. -/
theorem createDirectories_sinks (path : String) :
    sinks.createDirectories path = onTree (FileTree.system.createDirectories path) := by
  unfold FileSystem.createDirectories
  split
  · rfl
  · split
    · rfl
    · exact makeChain_sinks _

theorem run_createDirectories (w : World) {path : String} {t : FileTree}
    {made : Except SystemError Unit} (h : w.tree.createDirectories path = (t, made)) :
    (sinks.createDirectories path).run w = (made, { w with tree := t }) := by
  rw [createDirectories_sinks]
  exact run_onTree (Prod.swap_eq_iff_eq_swap.mp h)

end World

/-! ## Writing modules -/

theorem run_liftM_bind {ε α β : Type} (act : StateM World α)
    (next : α → ExceptT ε (StateM World) β) (w : World) :
    (liftM act >>= next).run.run w = (next (act.run w).1).run.run (act.run w).2 :=
  rfl

section Writing

variable {outDir : String} {m : ModuleFile} {t t' : FileTree} {e : SystemError}

theorem run_writeModules_of_refused (w : World) (rest : List ModuleFile)
    (h : w.tree.writeFile (joinPath outDir m.fileName) m.text.toUTF8 = .error e) :
    (World.sinks.writeModules outDir (m :: rest)).run.run w =
      (.error (.unwritable (joinPath outDir m.fileName) e), w) := by
  have hwrite : (World.sinks.writeFile (joinPath outDir m.fileName) m.text.toUTF8).run w =
      (.error e, w) := World.run_onTree (FileTree.run_orKeep_of_error h)
  rw [Sinks.writeModules, run_liftM_bind, hwrite]
  rfl

theorem run_writeModules_of_written (w : World) (rest : List ModuleFile)
    (h : w.tree.writeFile (joinPath outDir m.fileName) m.text.toUTF8 = .ok t') :
    (World.sinks.writeModules outDir (m :: rest)).run.run w =
      (World.sinks.writeModules outDir rest).run.run
        ⟨t', w.events ++ [writtenEvent (joinPath outDir m.fileName)]⟩ := by
  have hwrite : (World.sinks.writeFile (joinPath outDir m.fileName) m.text.toUTF8).run w =
      (.ok (), { w with tree := t' }) := World.run_onTree (FileTree.run_orKeep_of_ok h)
  rw [Sinks.writeModules, run_liftM_bind, hwrite]
  rfl

/-- The events that were logged before stay in front, and make no difference otherwise. -/
theorem run_writeModules (outDir : String) (modules : List ModuleFile) :
    ∀ w : World, (World.sinks.writeModules outDir modules).run.run w =
      ((writeModules outDir w.tree modules).result,
        ⟨(writeModules outDir w.tree modules).tree,
          w.events ++ (writeModules outDir w.tree modules).events⟩) := by
  induction modules with
  | nil =>
      intro w
      show (_, w) = (_, (⟨w.tree, w.events ++ []⟩ : World))
      rw [List.append_nil]
      rfl
  | cons m rest ih =>
      intro w
      unfold writeModules Run.of
      cases hwrite : w.tree.writeFile (joinPath outDir m.fileName) m.text.toUTF8 with
      | error e =>
          rw [run_writeModules_of_refused w rest hwrite,
            run_writeModules_of_refused ⟨w.tree, []⟩ rest hwrite]
          dsimp only
          rw [List.append_nil]
      | ok t' =>
          rw [run_writeModules_of_written w rest hwrite,
            run_writeModules_of_written ⟨w.tree, []⟩ rest hwrite, ih, ih]
          simp only [List.nil_append, List.append_assoc]

theorem writeModules_of_refused (rest : List ModuleFile)
    (h : t.writeFile (joinPath outDir m.fileName) m.text.toUTF8 = .error e) :
    writeModules outDir t (m :: rest) =
      ⟨t, [], .error (.unwritable (joinPath outDir m.fileName) e)⟩ := by
  unfold writeModules Run.of
  rw [run_writeModules_of_refused ⟨t, []⟩ rest h]

theorem writeModules_of_written (rest : List ModuleFile)
    (h : t.writeFile (joinPath outDir m.fileName) m.text.toUTF8 = .ok t') :
    writeModules outDir t (m :: rest) =
      { writeModules outDir t' rest with
        events := writtenEvent (joinPath outDir m.fileName) ::
          (writeModules outDir t' rest).events } := by
  rw [writeModules, Run.of, run_writeModules_of_written ⟨t, []⟩ rest h, run_writeModules]
  rfl

end Writing

/-! ## The run -/

namespace Inputs

variable {i : Inputs} {outDir : String} {t t' : FileTree}

/-- Settings that are refused are refused before anything is touched. -/
theorem run_of_check_eq_error {e : OversizedName} (h : i.settings.check = .error e) :
    i.run outDir t = ⟨t, [loadedEvent i.description], .error (.settings e)⟩ := by
  rw [run, Run.of, carryOut, run_liftM_bind, h]
  rfl

theorem run_of_directory_refused {e : SystemError} (hcheck : i.settings.check = .ok ())
    (hcreate : t.createDirectories outDir = (t', .error e)) :
    i.run outDir t = ⟨t', [loadedEvent i.description], .error (.unwritable outDir e)⟩ := by
  have hlog : (World.sinks.log [loadedEvent i.description]).run ⟨t, []⟩ =
      ((), ⟨t, [loadedEvent i.description]⟩) := rfl
  rw [run, Run.of, carryOut, run_liftM_bind, hlog, hcheck]
  dsimp only
  rw [run_liftM_bind, World.run_createDirectories ⟨t, _⟩ hcreate]
  rfl

theorem run_of_directory_created (hcheck : i.settings.check = .ok ())
    (hcreate : t.createDirectories outDir = (t', .ok ())) :
    i.run outDir t =
      { writeModules outDir t' (emitAll i.description i.settings) with
        events := loadedEvent i.description ::
            (emitAll i.description i.settings).flatMap (moduleEvents i.description) ++
          (writeModules outDir t' (emitAll i.description i.settings)).events } := by
  have hlog : (World.sinks.log [loadedEvent i.description]).run ⟨t, []⟩ =
      ((), ⟨t, [loadedEvent i.description]⟩) := rfl
  rw [run, Run.of, carryOut, run_liftM_bind, hlog, hcheck]
  dsimp only
  rw [run_liftM_bind, World.run_createDirectories ⟨t, _⟩ hcreate]
  dsimp only
  rw [run_liftM_bind, run_writeModules]
  rfl

end Inputs

end Ambient
