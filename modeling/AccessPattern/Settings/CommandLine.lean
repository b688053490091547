import AccessPattern.Settings.Options

/-!
# Command lines

A command line is a list of words. Long options are written `--name` or `--name=value`, short ones
`-n`, `-nvalue` or `-n=value`; several short switches may share a word. An option that asks for a
value and has none in its own word takes the next word, unless that word is an option itself.
There are no other words, and after a `--` nothing may follow.

Reading goes in two steps. `Command.ofWords` finds out what each word is and stops at the first
that can be nothing. `Command.options` then puts the options together. An option with its value in
the next word is only looked at when the word after it is known to make sense, so a value that is
wrong does not hide a later word that is.
-/

namespace AccessPattern.Command

/-- The options that ask for a value. -/
inductive ValueOption where
  | size
  | blockSize
  | pattern
  | seed
  | pageSize
  | channels
  | output
  | settingsFile
deriving DecidableEq, Repr

/-- The options without a value. -/
inductive Switch where
  | manifest
  | verify
  | dryRun
  | debug
  | listPatterns
  | help
  | version
deriving DecidableEq, Repr

/-- An option of either kind. -/
inductive OptionName where
  | takesValue (option : ValueOption)
  | switch (switch : Switch)
deriving DecidableEq, Repr

/-- Why a command line gives no options. -/
inductive Stop where
  /-- The help text was asked for. -/
  | help
  /-- The version was asked for. -/
  | version
  /-- A word is no option, or a value that no option asks for. -/
  | unknownWord
  /-- An option has no value, or an empty one where that makes no sense. -/
  | missingValue
  /-- A value is no number of 64 bits. -/
  | malformedNumber
  /-- An option is given twice that can be given once. -/
  | repeatedOption
  /-- A switch is given a value. -/
  | unwantedValue
deriving DecidableEq, Repr

/-- The long names of the options. -/
def longNames : List (String × OptionName) :=
  [("size", .takesValue .size), ("block-size", .takesValue .blockSize),
    ("pattern", .takesValue .pattern), ("seed", .takesValue .seed),
    ("page-size", .takesValue .pageSize), ("channels", .takesValue .channels),
    ("output", .takesValue .output), ("manifest", .switch .manifest),
    ("verify", .switch .verify), ("config", .takesValue .settingsFile),
    ("dry-run", .switch .dryRun), ("debug", .switch .debug),
    ("list-patterns", .switch .listPatterns), ("help", .switch .help),
    ("version", .switch .version)]

/-- The short names of the options. -/
def shortNames : List (Char × OptionName) :=
  [('s', .takesValue .size), ('b', .takesValue .blockSize), ('p', .takesValue .pattern),
    ('o', .takesValue .output), ('c', .takesValue .settingsFile), ('h', .switch .help),
    ('V', .switch .version)]

/-- An option as it stands on a command line. -/
inductive Item where
  | switch (switch : Switch)
  /-- An option with a value in the same word. -/
  | attached (option : ValueOption) (value : String)
  /-- An option with the next word as its value, or without one. -/
  | following (option : ValueOption) (value : Option String)
deriving DecidableEq, Repr

/-- What an option word says: the options in it, and then either why it makes no sense or the
option at its end that still asks for a value. -/
abbrev Word := List Item × Except Stop (Option ValueOption)

/-- What a long option says, given the text after the two dashes. -/
def longWord (text : List Char) : Word :=
  let name := text.takeWhile (· ≠ '=')
  match longNames.lookup (String.ofList name), text.drop name.length with
  | none, _ => ([], .error .unknownWord)
  | some (.switch switch), [] => ([.switch switch], .ok none)
  | some (.switch _), _ :: _ => ([], .error .unwantedValue)
  | some (.takesValue option), [] => ([], .ok (some option))
  | some (.takesValue option), _ :: value =>
    ([.attached option (String.ofList value)], .ok none)

/-- What a group of short options says, given the text after the dash: switches up to the first
option that asks for a value, which is given the rest of the word. -/
def shortWord : List Char → Word
  | [] => ([], .ok none)
  | letter :: rest =>
    match shortNames.lookup letter with
    | none => ([], .error .unknownWord)
    | some (.switch switch) =>
      let (items, last) := shortWord rest
      (.switch switch :: items, last)
    | some (.takesValue option) =>
      match rest with
      | [] => ([], .ok (some option))
      | '=' :: value => ([.attached option (String.ofList value)], .ok none)
      | value => ([.attached option (String.ofList value)], .ok none)

/-- What the words of a command line are, up to the first that makes no sense. -/
structure Reading where
  items : List Item
  /-- What is wrong with the word at which the reading stopped. -/
  stop : Option Stop

/-- A reading with items before it. -/
def Reading.after (items : List Item) (reading : Reading) : Reading :=
  { reading with items := items ++ reading.items }

/-- Whether a word could be a value: it does not open with a dash, or is one. -/
def isValue (word : String) : Bool :=
  match word.toList with
  | '-' :: _ :: _ => false
  | _ => true

/-- The option that asks for a value and is not given one. -/
def unanswered : Option ValueOption → List Item
  | some option => [.following option none]
  | none => []

/-- Read words, given the option before them that asks for a value. -/
def readWords (asks : Option ValueOption) : List String → Reading
  | [] => ⟨unanswered asks, none⟩
  | word :: rest =>
    if isValue word then
      match asks with
      | some option => (readWords none rest).after [.following option (some word)]
      | none => ⟨[], some .unknownWord⟩
    else if word = "--" then
      ⟨unanswered asks, if rest = [] then none else some .unknownWord⟩
    else
      match optionWord word with
      | (items, .ok next) => (readWords next rest).after (unanswered asks ++ items)
      | (items, .error stop) => ⟨unanswered asks ++ items, some stop⟩
where
  /-- What a word that opens with a dash says. -/
  optionWord (word : String) : Word :=
    match word.toList.drop 1 with
    | '-' :: text => longWord text
    | text => shortWord text

/-- The options that take effect before a reading stops. An option with its value in the next word
does so only when another option or the end comes after it. -/
def Reading.settled (reading : Reading) : List Item :=
  match reading.stop, reading.items.getLast? with
  | some _, some (.following ..) => reading.items.dropLast
  | _, _ => reading.items

/-- Read a command line. -/
def ofWords (words : List String) : Reading :=
  readWords none words

/-- The options put together so far. -/
structure Progress where
  options : Options
  /-- Which options were given. -/
  given : List OptionName

/-- Split a text at every comma. -/
def splitCommas (current : List Char) : List Char → List String
  | [] => [String.ofList current.reverse]
  | ',' :: rest => String.ofList current.reverse :: splitCommas [] rest
  | c :: rest => splitCommas (c :: current) rest

/-- The number of 64 bits that a value stands for. -/
def number (value : String) : Except Stop UInt64 :=
  match Text.word64? value.toList with
  | some n => .ok n
  | none => .error .malformedNumber

/-- A path that is not empty. -/
def path (value : String) : Except Stop String :=
  if value = "" then .error .missingValue else .ok value

/-- Give a value to an option. -/
def assign (o : Options) (value : String) : ValueOption → Except Stop Options
  | .size => pure { o with size := some value }
  | .blockSize => pure { o with blockSizes := o.blockSizes ++ splitCommas [] value.toList }
  | .pattern => pure { o with pattern := some value }
  | .seed => do pure { o with seed := some (← number value) }
  | .pageSize => pure { o with pageSize := some value }
  | .channels => do pure { o with channels := some (← number value) }
  | .output => do pure { o with output := some (← path value) }
  | .settingsFile => do pure { o with settingsFile := some (← path value) }

/-- Turn a switch on. -/
def turnOn (o : Options) : Switch → Except Stop Options
  | .manifest => .ok { o with manifest := true }
  | .verify => .ok { o with verify := true }
  | .dryRun => .ok { o with dryRun := true }
  | .debug => .ok { o with debug := true }
  | .listPatterns => .ok { o with listPatterns := true }
  | .help => .error .help
  | .version => .error .version

/-- Take note of an option; only block sizes can be given more than once. -/
def Progress.note (p : Progress) (name : OptionName) : Except Stop Progress :=
  if name ∈ p.given ∧ name ≠ .takesValue .blockSize then .error .repeatedOption
  else .ok { p with given := name :: p.given }

/-- Let an option with its value take effect. -/
def Progress.give (p : Progress) (option : ValueOption) (value : String) :
    Except Stop Progress := do
  let p ← p.note (.takesValue option)
  pure { p with options := ← assign p.options value option }

/-- Let an item take effect. -/
def Progress.take (p : Progress) : Item → Except Stop Progress
  | .switch switch => do
    let p ← p.note (.switch switch)
    pure { p with options := ← turnOn p.options switch }
  | .attached option value => p.give option value
  | .following option (some value) => p.give option value
  | .following _ none => .error .missingValue

/-- The seed of the environment, if the command line gives none. -/
def addSeed (o : Options) : Option String → Except Stop Options
  | none => .ok o
  | some value =>
    if o.seed.isSome then .ok o else do pure { o with seed := some (← number value) }

/-- The options that a command line gives, with the value that the environment has for the seed. -/
def options (words : List String) (environmentSeed : Option String) : Except Stop Options := do
  let reading := ofWords words
  let progress ← reading.settled.foldlM Progress.take ⟨Options.none, []⟩
  match reading.stop with
  | some stop => .error stop
  | none => addSeed progress.options environmentSeed

end AccessPattern.Command
