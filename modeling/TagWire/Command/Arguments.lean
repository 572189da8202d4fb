/-
  This file defines how the words of a command line are read
  as options. An option has a letter and a name; its value is
  attached to it or is the next word.

  Key definitions include:
    * `OptionSpec`
    * `Settings`
    * `readSettings?`
    * `splitCommand?`
-/

namespace TagWire

namespace Command

/- An option that a command knows. -/
structure OptionSpec where
  letter : Char
  name : String
  takesValue : Bool
deriving DecidableEq, Repr

/- The options given, by name, with their values. -/
abbrev Settings : Type :=
  List (String × String)

/- Whether a word starts an option and so is no value. -/
def looksLikeOption
    (word : String) :
    Bool :=
  match word.toList with
  | ['-'] => false
  | '-' :: _ => true
  | _ => false

/- What a word of options gives. -/
structure OptionWord where
  /- The options that are complete. -/
  settings : Settings
  /- The name of an option whose value is the next word. -/
  pending : Option String
deriving DecidableEq, Repr

/- The characters behind an equals sign, if one stands first. -/
def dropEquals : List Char → List Char
| '=' :: cs => cs
| cs => cs

/-
  Read the letters behind a single minus. The first one that
  takes a value has the rest of the word for it, or else the
  next word.
-/
def readLetters?
    (specs : List OptionSpec) :
    List Char → Option OptionWord
| [] => some ⟨[], none⟩
| c :: cs =>
    match specs.find? (·.letter == c) with
    | none => none
    | some spec =>
        if spec.takesValue then
          if cs.isEmpty then
            some ⟨[], some spec.name⟩
          else
            some ⟨[(spec.name, String.ofList (dropEquals cs))],
              none⟩
        else do
          let word ← readLetters? specs cs
          return { word with
            settings := (spec.name, "") :: word.settings }

/- Read the name behind two minuses, with or without value. -/
def readName?
    (specs : List OptionSpec)
    (cs : List Char) :
    Option OptionWord :=
  let name := String.ofList (cs.takeWhile (· ≠ '='))
  let value := cs.dropWhile (· ≠ '=')
  match specs.find? (·.name == name) with
  | none => none
  | some spec =>
      match value, spec.takesValue with
      | [], true => some ⟨[], some name⟩
      | [], false => some ⟨[(name, "")], none⟩
      | _ :: text, true =>
          some ⟨[(name, String.ofList text)], none⟩
      | _ :: _, false => none

/- Read a word of options. -/
def readWord?
    (specs : List OptionSpec)
    (word : String) :
    Option OptionWord :=
  match word.toList with
  | '-' :: '-' :: cs => readName? specs cs
  | '-' :: c :: cs => readLetters? specs (c :: cs)
  | _ => none

/-
  Read some words as options and values. Two minuses alone end
  the options, and then nothing may follow.
-/
def readWords?
    (specs : List OptionSpec) :
    Option String → List String → Option Settings
| none, [] => some []
| some _, [] => none
| some name, word :: rest =>
    if looksLikeOption word then
      none
    else do
      let settings ← readWords? specs none rest
      return (name, word) :: settings
| none, word :: rest =>
    if word = "--" then
      if rest.isEmpty then some [] else none
    else do
      let read ← readWord? specs word
      let settings ← readWords? specs read.pending rest
      return read.settings ++ settings

/- Refuse an option that is given twice. -/
def unrepeated?
    (settings : Settings) :
    Option Settings :=
  if (settings.map Prod.fst).Nodup then
    some settings
  else
    none

/- The settings that some words give, each option once. -/
def readSettings?
    (specs : List OptionSpec)
    (words : List String) :
    Option Settings := do
  let settings ← readWords? specs none words
  unrepeated? settings

/-
  The options before the first word that is none, that word,
  and the words behind it. No option here takes a value.
-/
def splitCommand?
    (specs : List OptionSpec) :
    List String → Option (Settings × String × List String)
| [] => none
| word :: rest =>
    if looksLikeOption word then do
      let read ← readWord? specs word
      let (settings, name, rest) ← splitCommand? specs rest
      return (read.settings ++ settings, name, rest)
    else
      some ([], word, rest)

end Command

end TagWire
