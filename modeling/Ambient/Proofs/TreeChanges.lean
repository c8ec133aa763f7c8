import Ambient.FileTree
import Ambient.Proofs.SortedContent
import Mathlib.Data.List.Basic

/-!
# What the operations change in a tree

A write that succeeds changes one location, the one that its path leads to
(`writeFile_eq_ok`); creating directories changes only locations at which
nothing stood (`createDirectories_growsDirectories`).

Neither of them takes a directory away, so a path that could be followed before
can be followed afterwards and leads to the same location (`Extends.walk`).
That is why the location of a path can be told in the tree at the end of several
writes.
-/

namespace Ambient

/-! ## Steps that may be refused -/

theorem ok_of_bind_eq_ok {ε α β : Type} {x : Except ε α} {f : α → Except ε β} {b : β}
    (h : x >>= f = .ok b) : ∃ a, x = .ok a ∧ f a = .ok b := by
  cases x with
  | error e => exact nomatch h
  | ok a => exact ⟨a, rfl, h⟩

/-! ## Entries -/

theorem lookup_setEntry (l : Location) (e : Entry) (l' : Location) :
    ∀ entries : List (Location × Entry),
      (setEntry l e entries).lookup l' = if l' = l then some e else entries.lookup l'
  | [] => lookup_cons_eq_ite l l' e []
  | (k, v) :: rest => by
      rw [setEntry]
      by_cases hk : k = l
      · rw [if_pos hk, lookup_cons_eq_ite, lookup_cons_eq_ite, hk]
        split_ifs <;> rfl
      · rw [if_neg hk, lookup_cons_eq_ite, lookup_cons_eq_ite, lookup_setEntry l e l' rest]
        have hne : l' = k → l' ≠ l := fun h heq => hk (h.symm.trans heq)
        by_cases h : l' = k
        · rw [if_pos h, if_neg (hne h), if_pos h]
        · rw [if_neg h, if_neg h]

namespace FileTree

variable {t t' t'' : FileTree}

theorem entry_set_self {l : Location} (h : l.isAnchor = false) (t : FileTree) (e : Entry) :
    FileTree.entry? (t.set l e) l = some e := by
  unfold entry? set
  rw [h, lookup_setEntry, if_pos rfl]
  rfl

theorem entry_set_of_ne {l l' : Location} (h : l' ≠ l) (t : FileTree) (e : Entry) :
    FileTree.entry? (t.set l e) l' = t.entry? l' := by
  unfold entry? set
  rw [lookup_setEntry, if_neg h]

theorem isAnchor_eq_false {l : Location} (h : t.entry? l ≠ some .directory) :
    l.isAnchor = false := by
  refine Bool.eq_false_iff.mpr fun hanchor => h ?_
  unfold entry?
  rw [hanchor]
  rfl

theorem entry_set_file_ne_directory {l : Location} (h : t.entry? l ≠ some .directory)
    (l' : Location) (content : ByteArray) :
    FileTree.entry? (t.set l' (.file content)) l ≠ some .directory := by
  by_cases heq : l = l'
  · rw [← heq, entry_set_self (isAnchor_eq_false h)]
    exact nofun
  · rwa [entry_set_of_ne heq]

/-! ## Paths -/

theorem checkDirectory_eq_ok {l : Location} :
    t.checkDirectory l = .ok () ↔ t.entry? l = some .directory := by
  unfold checkDirectory
  cases t.entry? l with
  | none => exact ⟨fun h => (nomatch h), fun h => (nomatch h)⟩
  | some e =>
      cases e with
      | directory => exact ⟨fun _ => rfl, fun _ => rfl⟩
      | file content => exact ⟨fun h => (nomatch h), fun h => (nomatch h)⟩

/-- A path text leads to a location. -/
def Reaches (t : FileTree) (path : String) (l : Location) : Prop :=
  checkPath path = .ok () ∧ t.walk (segments path) = .ok l

theorem Reaches.unique {path : String} {l l' : Location} (h : t.Reaches path l)
    (h' : t.Reaches path l') : l = l' :=
  Except.ok.inj (h.2.symm.trans h'.2)

theorem Reaches.openPath {path : String} {l : Location} {e : Entry} (h : t.Reaches path l)
    (he : t.entry? l = some e) : t.openPath path = .ok e := by
  unfold FileTree.openPath
  rw [h.1, h.2]
  dsimp only [bind, Except.bind]
  rw [he]
  rfl

theorem exists_reaches_of_openPath {path : String} {e : Entry} (h : t.openPath path = .ok e) :
    ∃ l, t.Reaches path l ∧ t.entry? l = some e := by
  obtain ⟨⟨⟩, hcheck, hrest⟩ := ok_of_bind_eq_ok h
  obtain ⟨l, hwalk, hentry⟩ := ok_of_bind_eq_ok hrest
  refine ⟨l, ⟨hcheck, hwalk⟩, ?_⟩
  split at hentry
  · rename_i heq
    exact heq.trans (congrArg some (Except.ok.inj hentry))
  · exact nomatch hentry

theorem walk_cons (t : FileTree) {first : String} (h : first ≠ "") (rest : List String) :
    t.walk (first :: rest) = (first :: rest).foldlM t.step [] := by
  unfold walk
  split
  · rename_i heq
    exact absurd (List.cons_eq_cons.mp heq).1 h
  · rfl

/-- Further names are followed from where the first ones lead. -/
theorem walk_append (t : FileTree) {names : List String} (h : names ≠ []) (more : List String) :
    t.walk (names ++ more) = t.walk names >>= fun l => more.foldlM t.step l := by
  obtain ⟨first, rest, rfl⟩ := List.exists_cons_of_ne_nil h
  by_cases hfirst : first = ""
  · subst hfirst
    exact List.foldlM_append
  · rw [List.cons_append, t.walk_cons hfirst, t.walk_cons hfirst, ← List.cons_append]
    exact List.foldlM_append

theorem walk_concat (t : FileTree) (names : List String) {name : String} (h : name ≠ "") :
    t.walk (names ++ [name]) = t.walk names >>= fun l => t.step l name := by
  have hlast : ∀ l, [name].foldlM t.step l = t.step l name := by
    intro l
    rw [List.foldlM_cons]
    exact bind_pure _
  cases names with
  | nil => exact (t.walk_cons h []).trans (hlast [])
  | cons first rest =>
      rw [t.walk_append (List.cons_ne_nil first rest)]
      exact congrArg _ (funext hlast)

/-! ## Trees that keep their directories -/

/-- A later tree: every directory is still one, and nothing is gone. -/
structure Extends (t t' : FileTree) : Prop where
  directory : ∀ l, t.entry? l = some .directory → t'.entry? l = some .directory
  present : ∀ l, (t.entry? l).isSome = true → (t'.entry? l).isSome = true

namespace Extends

theorem refl (t : FileTree) : t.Extends t :=
  ⟨fun _ h => h, fun _ h => h⟩

theorem trans (h : t.Extends t') (h' : t'.Extends t'') : t.Extends t'' :=
  ⟨fun l hl => h'.directory l (h.directory l hl), fun l hl => h'.present l (h.present l hl)⟩

theorem set {l : Location} (h : t.entry? l ≠ some .directory) (e : Entry) :
    t.Extends (t.set l e) := by
  constructor
  · intro l' hl'
    have hne : l' ≠ l := by
      rintro rfl
      exact h hl'
    rwa [entry_set_of_ne hne]
  · intro l' hl'
    by_cases heq : l' = l
    · rw [heq, entry_set_self (isAnchor_eq_false h)]
      rfl
    · rwa [entry_set_of_ne heq]

theorem step {l l' : Location} {name : String} (h : t.Extends t')
    (hstep : t.step l name = .ok l') : t'.step l name = .ok l' := by
  obtain ⟨_, hdirectory, hrest⟩ := ok_of_bind_eq_ok hstep
  have hdirectory' : t'.checkDirectory l = .ok () :=
    checkDirectory_eq_ok.mpr (h.directory l (checkDirectory_eq_ok.mp hdirectory))
  have hnone : (t'.entry? (l ++ [name])).isNone = true → (t.entry? (l ++ [name])).isNone = true := by
    intro h'
    refine Option.isNone_iff_eq_none.mpr (Option.eq_none_iff_forall_ne_some.mpr fun e he => ?_)
    have hsome := h.present _ (Option.isSome_of_mem he)
    simp [Option.isNone_iff_eq_none.mp h'] at hsome
  unfold FileTree.step
  rw [hdirectory']
  show (if name = "" ∨ name = "." then pure l
    else if name = ".." then pure (Location.up l)
    else if longestName < name.utf8ByteSize then throw .nameTooLong
    else if (t'.entry? (l ++ [name])).isNone then throw .noSuchEntry
    else pure (l ++ [name]) : Except SystemError Location) = .ok l'
  split_ifs at hrest ⊢ with hstay hup hlong hnew hold
  · exact hrest
  · exact hrest
  · exact absurd (hnone hnew) hold
  · exact hrest

theorem foldlM_step (h : t.Extends t') :
    ∀ (names : List String) (l l' : Location), names.foldlM t.step l = .ok l' →
      names.foldlM t'.step l = .ok l'
  | [], _, _, hwalk => hwalk
  | name :: names, l, l', hwalk => by
      rw [List.foldlM_cons] at hwalk ⊢
      obtain ⟨m, hm, hrest⟩ := ok_of_bind_eq_ok hwalk
      rw [h.step hm]
      exact h.foldlM_step names m l' hrest

/-- A path leads where it led. -/
theorem walk {names : List String} {l : Location} (h : t.Extends t')
    (hwalk : t.walk names = .ok l) : t'.walk names = .ok l := by
  unfold FileTree.walk at hwalk ⊢
  split at hwalk
  · exact h.foldlM_step _ _ _ hwalk
  · exact h.foldlM_step _ _ _ hwalk

theorem reaches {path : String} {l : Location} (h : t.Extends t') (hpath : t.Reaches path l) :
    t'.Reaches path l :=
  ⟨hpath.1, h.walk hpath.2⟩

end Extends

/-! ## Writing a file -/

/-- A path whose last name can stand for a new entry leads to that entry, once
it is there. -/
theorem walk_of_place {names : List String} {l : Location} {name : String} {e : Entry}
    (hplace : t.place names = .ok (l, name)) (hname : ¬ (name = "" ∨ name = "." ∨ name = ".."))
    (hlong : ¬ longestName < name.utf8ByteSize) (h : t.entry? (l ++ [name]) ≠ some .directory) :
    (t.set (l ++ [name]) e).walk names = .ok (l ++ [name]) := by
  obtain ⟨l', hwalk, hrest⟩ := ok_of_bind_eq_ok hplace
  obtain ⟨_, hdirectory, hpair⟩ := ok_of_bind_eq_ok hrest
  obtain ⟨rfl, hlast⟩ := Prod.mk.inj (Except.ok.inj hpair)
  obtain ⟨hempty, hdot, hup⟩ : name ≠ "" ∧ name ≠ "." ∧ name ≠ ".." := by
    simpa only [not_or] using hname
  have hnames : names.dropLast ++ [name] = names := by
    have hne : names ≠ [] := by
      rintro rfl
      exact hempty hlast.symm
    rw [← hlast, List.getLastD_eq_getLast?, List.getLast?_eq_some_getLast hne]
    exact List.dropLast_append_getLast hne
  have hextends : t.Extends (t.set (l' ++ [name]) e) := .set h e
  have hdirectory' : (t.set (l' ++ [name]) e).checkDirectory l' = .ok () :=
    checkDirectory_eq_ok.mpr (hextends.directory _ (checkDirectory_eq_ok.mp hdirectory))
  have hstep : (t.set (l' ++ [name]) e).step l' name = .ok (l' ++ [name]) := by
    unfold FileTree.step
    rw [hdirectory']
    show (if name = "" ∨ name = "." then _ else _ : Except SystemError Location) = _
    rw [if_neg (not_or.mpr ⟨hempty, hdot⟩), if_neg hup, if_neg hlong,
      entry_set_self (isAnchor_eq_false h)]
    rfl
  have hwhole := walk_concat (t.set (l' ++ [name]) e) names.dropLast hempty
  rw [hnames, hextends.walk hwalk] at hwhole
  exact hwhole.trans hstep

theorem writeFile_eq_ok_iff {path : String} {content : ByteArray} :
    t.writeFile path content = .ok t' ↔ checkPath path = .ok () ∧
      ∃ l name, t.place (segments path) = .ok (l, name) ∧
        ¬ (name = "" ∨ name = "." ∨ name = "..") ∧ ¬ longestName < name.utf8ByteSize ∧
        t.entry? (l ++ [name]) ≠ some .directory ∧ t' = t.set (l ++ [name]) (.file content) := by
  constructor
  · intro h
    obtain ⟨⟨⟩, hcheck, hrest⟩ := ok_of_bind_eq_ok h
    obtain ⟨⟨l, name⟩, hplace, hwrite⟩ := ok_of_bind_eq_ok hrest
    dsimp only at hwrite
    split_ifs at hwrite with hname hlong
    refine ⟨hcheck, l, name, hplace, hname, hlong, ?_⟩
    split at hwrite
    · exact nomatch hwrite
    · rename_i hfree
      exact ⟨hfree, (Except.ok.inj hwrite).symm⟩
  · rintro ⟨hcheck, l, name, hplace, hname, hlong, hfree, rfl⟩
    unfold writeFile
    rw [hcheck, hplace]
    show (if name = "" ∨ name = "." ∨ name = ".." then _ else _ : Except SystemError FileTree) = _
    rw [if_neg hname, if_neg hlong]
    split
    · rename_i hdirectory
      exact absurd hdirectory hfree
    · rfl

/-- **A write that succeeds** puts the file at the location of the path, where no
directory was, and changes nothing else. -/
theorem writeFile_eq_ok {path : String} {content : ByteArray}
    (h : t.writeFile path content = .ok t') :
    ∃ l, t' = t.set l (.file content) ∧ t.entry? l ≠ some .directory ∧ t'.Reaches path l := by
  obtain ⟨hcheck, l, name, hplace, hname, hlong, hfree, rfl⟩ := writeFile_eq_ok_iff.mp h
  exact ⟨l ++ [name], rfl, hfree, hcheck, walk_of_place hplace hname hlong hfree⟩

/-! ## Creating directories -/

/-- A tree with more directories, each where nothing was, and otherwise the same. -/
def GrowsDirectories (t t' : FileTree) : Prop :=
  ∀ l, t'.entry? l = t.entry? l ∨ t.entry? l = none ∧ t'.entry? l = some .directory

namespace GrowsDirectories

theorem refl (t : FileTree) : t.GrowsDirectories t :=
  fun _ => .inl rfl

theorem trans (h : t.GrowsDirectories t') (h' : t'.GrowsDirectories t'') :
    t.GrowsDirectories t'' := by
  intro l
  rcases h l with hl | ⟨hnone, hdirectory⟩
  · rw [← hl]
    exact h' l
  · rcases h' l with hl' | ⟨hnone', -⟩
    · exact .inr ⟨hnone, hl'.trans hdirectory⟩
    · rw [hdirectory] at hnone'
      exact nomatch hnone'

theorem file_iff (h : t.GrowsDirectories t') (l : Location) (content : ByteArray) :
    t'.entry? l = some (.file content) ↔ t.entry? l = some (.file content) := by
  rcases h l with hl | ⟨hnone, hdirectory⟩
  · rw [hl]
  · rw [hnone, hdirectory]
    exact ⟨fun h => (nomatch h), fun h => (nomatch h)⟩

end GrowsDirectories

theorem GrowsDirectories.extends (h : t.GrowsDirectories t') : t.Extends t' where
  directory := fun l hl => by
    rcases h l with heq | ⟨hnone, -⟩
    · rwa [heq]
    · rw [hl] at hnone
      exact nomatch hnone
  present := fun l hl => by
    rcases h l with heq | ⟨-, hdirectory⟩
    · rwa [heq]
    · rw [hdirectory]
      rfl

theorem makeDirectory_eq_ok {names : List String} (h : t.makeDirectory names = .ok t') :
    ∃ l name, t.place (trimSegments names) = .ok (l, name) ∧
      ¬ (name = "" ∨ name = "." ∨ name = "..") ∧ ¬ longestName < name.utf8ByteSize ∧
      t.entry? (l ++ [name]) = none ∧ t' = t.set (l ++ [name]) .directory := by
  obtain ⟨⟨l, name⟩, hplace, hmake⟩ := ok_of_bind_eq_ok h
  replace hmake : (if name = "" ∨ name = "." ∨ name = ".." then throw .alreadyExists
    else if longestName < name.utf8ByteSize then throw .nameTooLong
    else if (t.entry? (l ++ [name])).isSome then throw .alreadyExists
    else pure (t.set (l ++ [name]) .directory) : Except SystemError FileTree) = .ok t' := hmake
  split_ifs at hmake with hname hlong hsome
  exact ⟨l, name, hplace, hname, hlong, Option.not_isSome_iff_eq_none.mp hsome,
    (Except.ok.inj hmake).symm⟩

theorem makeDirectory_growsDirectories {names : List String}
    (h : t.makeDirectory names = .ok t') : t.GrowsDirectories t' := by
  obtain ⟨l, name, -, -, -, hnone, rfl⟩ := makeDirectory_eq_ok h
  have hanchor : Location.isAnchor (l ++ [name]) = false :=
    isAnchor_eq_false (by rw [hnone]; exact nofun)
  intro l'
  by_cases heq : l' = l ++ [name]
  · rw [heq]
    exact .inr ⟨hnone, entry_set_self hanchor t .directory⟩
  · exact .inl (entry_set_of_ne heq t .directory)

/-! ## Directories with those above them -/

section Chains

variable {t t' : FileTree} {operation : FileTree → Except SystemError FileTree} {e : SystemError}

theorem run_orKeep_of_ok (h : operation t = .ok t') : (orKeep operation).run t = (.ok (), t') := by
  show orKeep operation t = _
  rw [orKeep, h]

theorem run_orKeep_of_error (h : operation t = .error e) :
    (orKeep operation).run t = (.error e, t) := by
  show orKeep operation t = _
  rw [orKeep, h]

theorem run_keepDirectory (t : FileTree) (names : List String) (e : SystemError) :
    (system.keepDirectory names e).run t =
      (if e = .alreadyExists ∧ t.isDirectory names then .ok () else .error e, t) := by
  show StateT.run (if e = .alreadyExists ∧ t.isDirectory names then pure (.ok ())
    else pure (.error e) : StateM FileTree (Except SystemError Unit)) t = _
  split_ifs
  · rfl
  · rfl

theorem run_ensureDirectory (t : FileTree) (names : List String) :
    (system.ensureDirectory names).run t =
      match t.makeDirectory names with
      | .ok t' => (.ok (), t')
      | .error e => (if e = .alreadyExists ∧ t.isDirectory names then .ok () else .error e, t) := by
  rw [FileSystem.ensureDirectory, StateT.run_bind]
  cases hmake : t.makeDirectory names with
  | ok t' =>
      rw [show (system.makeDirectory names).run t = _ from run_orKeep_of_ok hmake]
      rfl
  | error e =>
      rw [show (system.makeDirectory names).run t = _ from run_orKeep_of_error hmake]
      exact run_keepDirectory t names e

/-- Only a missing directory above makes the creation go on. -/
theorem run_makeChain_cons (t : FileTree) (names : List String) (above : List (List String)) :
    (system.makeChain (names :: above)).run t =
      match t.makeDirectory names with
      | .ok t' => (.ok (), t')
      | .error .noSuchEntry =>
          match (system.makeChain above).run t with
          | (.error e, t') => (.error e, t')
          | (.ok _, t') => (system.ensureDirectory names).run t'
      | .error e => (if e = .alreadyExists ∧ t.isDirectory names then .ok () else .error e, t) := by
  rw [FileSystem.makeChain, StateT.run_bind]
  cases hmake : t.makeDirectory names with
  | ok t' =>
      rw [show (system.makeDirectory names).run t = _ from run_orKeep_of_ok hmake]
      rfl
  | error e =>
      rw [show (system.makeDirectory names).run t = _ from run_orKeep_of_error hmake]
      cases e with
      | noSuchEntry =>
          refine (StateT.run_bind (system.makeChain above) _ t).trans ?_
          rcases (system.makeChain above).run t with ⟨result, t'⟩
          cases result with
          | error e => rfl
          | ok _ => rfl
      | _ => exact run_keepDirectory t names _

end Chains

theorem ensureDirectory_growsDirectories (t : FileTree) (names : List String) :
    t.GrowsDirectories ((system.ensureDirectory names).run t).2 := by
  rw [run_ensureDirectory]
  split
  · rename_i hmake
    exact makeDirectory_growsDirectories hmake
  · exact .refl t

/-- Also where it gives up, creating directories has only added some. -/
theorem makeChain_growsDirectories :
    ∀ (chain : List (List String)) (t : FileTree),
      t.GrowsDirectories ((system.makeChain chain).run t).2
  | [], t => .refl t
  | names :: above, t => by
      have habove := makeChain_growsDirectories above t
      rw [run_makeChain_cons]
      split
      · rename_i hmake
        exact makeDirectory_growsDirectories hmake
      · split
        · rename_i heq
          rwa [heq] at habove
        · rename_i heq
          rw [heq] at habove
          exact habove.trans (ensureDirectory_growsDirectories _ names)
      · exact .refl t

theorem createDirectories_growsDirectories (t : FileTree) (path : String) :
    t.GrowsDirectories (t.createDirectories path).1 := by
  unfold createDirectories FileSystem.createDirectories
  split_ifs
  · exact .refl t
  · split
    · exact .refl t
    · exact makeChain_growsDirectories _ t

end FileTree

end Ambient
