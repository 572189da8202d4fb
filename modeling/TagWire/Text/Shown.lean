import TagWire.Text.Quoted

/-
  This file defines how a diagnostic puts the texts of the
  parts of something together.

  Key definitions include:
    * `bracketed`
    * `shownParts`
    * `shownText`
-/

namespace TagWire

namespace Text

/- Texts between brackets, with commas between them. -/
def bracketed
    (opening closing : String)
    (parts : List String) :
    String :=
  opening ++ ", ".intercalate parts ++ closing

/- A name with its labelled parts, or alone without any. -/
def shownParts
    (name : String)
    (parts : List (String × String)) :
    String :=
  if parts.isEmpty then
    name
  else
    name ++
      bracketed (" " ++ leftBrace ++ " ") (" " ++ rightBrace)
        (parts.map fun (label, text) => label ++ ": " ++ text)

/- A name around a text. -/
def shownText
    (name : String)
    (text : String) :
    String :=
  s!"{name}({inspect text})"

end Text

end TagWire
