import Ambient.Overrides

/-!
# Settings

What is the same for all modules of one run.
-/

namespace Ambient

structure Settings where
  /-- The namespace around all categories. -/
  outerNamespace : String := "GoogleAppsScript"
  /-- The text at the top of every module; empty for none. -/
  header : String := ""
  /-- The start of every file name. -/
  filePrefix : String := "google-apps-script"
  /-- The category that every module depends on. -/
  foundational : String := "types"
  overrides : Overrides := .builtIn

def Settings.fileName (s : Settings) (category : String) : String :=
  s.filePrefix ++ "." ++ category ++ ".d.ts"

end Ambient
