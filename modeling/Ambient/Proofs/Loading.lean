import Ambient.Generation

/-!
# Reading the inputs of a run

A file that opens and holds a text is read as that text, and its tables or its
description are what the text is read as.  Whatever goes wrong before the
first step on the tree is a failure of an input (`failsOnInput_load`).
-/

namespace Ambient

/-! ## Files that open -/

theorem textOfBytes_toUTF8 (s : String) : textOfBytes s.toUTF8 = .ok s := by
  have hvalid : s.toUTF8.IsValidUTF8 := s.isValidUTF8
  unfold textOfBytes String.fromUTF8?
  rw [dif_pos hvalid]
  rfl

theorem run_bind_of_ok {ε α β : Type} {x : ExceptT ε Id α} {a : α}
    (h : x.run = .ok a) (next : α → ExceptT ε Id β) : (x >>= next).run = (next a).run := by
  rw [ExceptT.run_bind, h]
  rfl

theorem run_bind_of_error {ε α β : Type} {x : ExceptT ε Id α} {e : ε}
    (h : x.run = .error e) (next : α → ExceptT ε Id β) : (x >>= next).run = .error e := by
  rw [ExceptT.run_bind, h]
  rfl

/-- An action that succeeds succeeds in each step. -/
theorem exists_of_run_bind_eq_ok {ε α β : Type} {x : ExceptT ε Id α}
    {next : α → ExceptT ε Id β} {b : β} (h : (x >>= next).run = .ok b) :
    ∃ a, x.run = .ok a ∧ (next a).run = .ok b := by
  cases hx : x.run with
  | error e =>
      rw [run_bind_of_error hx] at h
      exact nomatch h
  | ok a =>
      rw [run_bind_of_ok hx] at h
      exact ⟨a, rfl, h⟩

section Files

variable {t : FileTree} {path text : String}

theorem FileTree.run_file (stdin : ByteArray) (today : Date)
    (h : t.openPath path = .ok (.file text.toUTF8)) :
    (liftM ((t.sources stdin today).file path) :
      ExceptT Failure Id (Except SystemError Content)).run = .ok (.ok (.ok text.toUTF8)) :=
  congrArg (Except.ok ∘ Except.map Entry.bytes) h

theorem FileTree.run_text (stdin : ByteArray) (today : Date)
    (h : t.openPath path = .ok (.file text.toUTF8)) :
    ((t.sources stdin today).text path).run = .ok text := by
  refine (run_bind_of_ok (FileTree.run_file stdin today h) _).trans ?_
  simp only [textOfBytes_toUTF8]
  rfl

theorem FileTree.run_overrides (stdin : ByteArray) (today : Date) {o : Overrides}
    (h : t.openPath path = .ok (.file text.toUTF8)) (ho : Overrides.ofText text = .ok o) :
    ((t.sources stdin today).overrides (some path)).run = .ok o := by
  have htext := FileTree.run_text stdin today h
  unfold Sources.overrides
  simp only [run_bind_of_ok htext, ho]
  rfl

theorem FileTree.run_description (stdin : ByteArray) (today : Date)
    (h : t.openPath path = .ok (.file text.toUTF8)) :
    ((t.sources stdin today).description (some path)).run =
      (Description.ofText text).mapError .description := by
  refine (run_bind_of_ok (FileTree.run_file stdin today h) _).trans ?_
  show (Description.ofBytes text.toUTF8).mapError Failure.description = _
  rw [Description.ofBytes, textOfBytes_toUTF8]

end Files

/-! ## Failures on inputs -/

/-- Whether a failure is one of reading, of decoding or of the settings, and not
one of creating or writing something. -/
def Failure.isOfInput : Failure → Bool
  | .unreadable _ _ => true
  | .description _ => true
  | .overrides _ _ => true
  | .invalidDate _ => true
  | .settings _ => true
  | .unwritable _ _ => false

def FailsOnInput {α : Type} (x : ExceptT Failure Id α) : Prop :=
  ∀ e, x.run = .error e → e.isOfInput = true

namespace FailsOnInput

variable {α β : Type}

theorem pure (a : α) : FailsOnInput (Pure.pure a) :=
  fun _ h => nomatch h

theorem throw {e : Failure} (h : e.isOfInput = true) :
    FailsOnInput (throw e : ExceptT Failure Id α) := by
  intro e' h'
  exact Except.error.inj h' ▸ h

theorem lift (x : Id α) : FailsOnInput (liftM x) :=
  fun _ h => nomatch h

theorem bind {x : ExceptT Failure Id α} {next : α → ExceptT Failure Id β} (h : FailsOnInput x)
    (hnext : ∀ a, FailsOnInput (next a)) : FailsOnInput (x >>= next) := by
  intro e he
  cases hx : x.run with
  | error e' =>
      rw [run_bind_of_error hx] at he
      obtain rfl := Except.error.inj he
      exact h e' hx
  | ok a =>
      rw [run_bind_of_ok hx] at he
      exact hnext a e he

end FailsOnInput

section Failures

variable (s : Sources Id)

theorem failsOnInput_text (path : String) : FailsOnInput (s.text path) := by
  refine (FailsOnInput.lift (s.file path)).bind fun opened => ?_
  split
  · exact .throw rfl
  · exact .throw rfl
  · split
    · exact .throw rfl
    · exact .pure _

theorem failsOnInput_header (path : String) (date : Option String) :
    FailsOnInput (s.header path date) := by
  refine (failsOnInput_text s path).bind fun template => ?_
  cases date with
  | none => exact (FailsOnInput.lift s.today).bind fun d => .pure _
  | some text =>
      dsimp only
      split
      · exact .throw rfl
      · exact .pure _

theorem failsOnInput_overrides (path : Option String) : FailsOnInput (s.overrides path) := by
  unfold Sources.overrides
  cases path with
  | none => exact .pure _
  | some path =>
      refine (failsOnInput_text s path).bind fun text => ?_
      split
      · exact .throw rfl
      · exact .pure _

theorem isOfInput_of_descriptionOf {content : Content} {e : Failure}
    (h : descriptionOf content = .error e) : e.isOfInput = true := by
  unfold descriptionOf at h
  cases content with
  | error e' => exact Except.error.inj h ▸ rfl
  | ok bytes =>
      cases hread : Description.ofBytes bytes with
      | error e' =>
          simp only [hread] at h
          exact Except.error.inj h ▸ rfl
      | ok d =>
          simp only [hread] at h
          exact nomatch h

theorem failsOnInput_description (path : Option String) : FailsOnInput (s.description path) := by
  unfold Sources.description
  cases path with
  | none =>
      refine (FailsOnInput.lift s.standardInput).bind fun content => ?_
      exact fun e h => isOfInput_of_descriptionOf h
  | some path =>
      refine (FailsOnInput.lift (s.file path)).bind fun opened => ?_
      split
      · exact .throw rfl
      · exact fun e h => isOfInput_of_descriptionOf h

theorem failsOnInput_load (r : Request) : FailsOnInput (r.load s) := by
  refine (failsOnInput_header s r.header r.date).bind fun header => ?_
  refine (failsOnInput_overrides s r.overrides).bind fun overrides => ?_
  exact (failsOnInput_description s r.input).bind fun description => .pure _

end Failures

end Ambient
