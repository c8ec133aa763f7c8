import Ambient.Calendar.Text

/-!
# Header templates

The first date token of a template is replaced by a date; further tokens stay.
-/

namespace Ambient

def dateToken : List Char :=
  ['{', 'd', 'a', 't', 'e', '}']

def replaceFirst (token replacement : List Char) : List Char → List Char
  | [] => []
  | c :: rest =>
      if token.isPrefixOf (c :: rest) then replacement ++ (c :: rest).drop token.length
      else c :: replaceFirst token replacement rest

def fillDate (template : String) (date : Date) : String :=
  String.ofList (replaceFirst dateToken date.text template.toList)

end Ambient
