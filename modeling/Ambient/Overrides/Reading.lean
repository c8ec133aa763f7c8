import Ambient.Json.Record
import Ambient.Overrides

/-!
# Reading override tables

A document names the tables that it replaces; the others keep their built-in
values.  Unknown tables are refused, unknown keys of a rule are passed over.
-/

namespace Ambient

open Json

def ExtendsRule.record : RecordType ExtendsRule where
  name := "ExtendsRule"
  fields := [
    .required "names" textSet fun v r => { r with names := v },
    .required "base" text fun v r => { r with base := v },
    .defaulted "category" (Json.optional text) fun v r => { r with category := v }]
  default := {}
  isExtensible := true

def Overrides.record : RecordType Overrides where
  name := "Overrides"
  fields := [
    .defaulted "any_types" textSet fun v o => { o with anyTypes := v },
    .defaulted "extends" (list ExtendsRule.record.read) fun v o => { o with extensions := v },
    .defaulted "commented_exports" (map text) fun v o => { o with commentedExports := v },
    .defaulted "duplicate_params" (list text) fun v o => { o with duplicateParameters := v }]
  default := .builtIn
  isExtensible := false

def Overrides.ofText (input : String) : Except Json.Error Overrides :=
  readAll Overrides.record.read input

end Ambient
