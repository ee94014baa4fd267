import StakeSnapshot.Contracts.Catalogue
import StakeSnapshot.Fault
import StakeSnapshot.Number.IntegerText
import StakeSnapshot.Stake.Effective

/-!
# Options

The options of the command line. A long name may be cut short as long as it stays unambiguous, and
its value may be joined to it with an equals sign. Words that look like negative numbers, or that
hold a space, are values.
-/

namespace StakeSnapshot.CommandLine

/-- The options there are. -/
inductive OptionName where
  | help
  | rpcUrl
  | beaconUrl
  | storage
  | slot
  | noScale
  | threads
  | top
  | noCache
  | quiet
  deriving DecidableEq

namespace OptionName

/-- All options, in the order in which they are listed. -/
def all : List OptionName :=
  [help, rpcUrl, beaconUrl, storage, slot, noScale, threads, top, noCache, quiet]

/-- The long name of an option. -/
def long : OptionName → String
  | help => "--help"
  | rpcUrl => "--rpc-url"
  | beaconUrl => "--beacon-url"
  | storage => "--storage"
  | slot => "--slot"
  | noScale => "--no-scale"
  | threads => "--threads"
  | top => "--top"
  | noCache => "--no-cache"
  | quiet => "--quiet"

/-- What an option is called in messages. -/
def shown : OptionName → String
  | help => "-h/--help"
  | name => name.long

/-- Whether an option has a value. -/
def takesValue : OptionName → Bool
  | help | noScale | noCache | quiet => false
  | _ => true

end OptionName

/-- What is asked for on the command line. -/
structure Options where
  rpcUrl : Option String
  beaconUrl : Option String
  storage : String
  slot : Option Int
  noScale : Bool
  threads : Int
  top : Int
  noCache : Bool
  quiet : Bool
  deriving DecidableEq

/-- What holds unless said otherwise. -/
def Options.default : Options :=
  ⟨none, none, Contracts.mainnetStorage, none, false, defaultThreads, 20, false, false⟩

/-- What is wrong with a command line. -/
inductive UsageFault where
  | invalidInteger (name : OptionName) (value : String)
  | missingValue (name : OptionName)
  | unwantedValue (name : OptionName) (value : String)
  | ambiguous (word : String) (names : List String)
  | unrecognized (words : List String)
  deriving DecidableEq

/-- The message about a command line. -/
def UsageFault.message : UsageFault → String
  | invalidInteger name value =>
    "argument " ++ name.shown ++ ": invalid int value: " ++ quotedText value
  | missingValue name => "argument " ++ name.shown ++ ": expected one argument"
  | unwantedValue name value =>
    "argument " ++ name.shown ++ ": ignored explicit argument " ++ quotedText value
  | ambiguous word names =>
    "ambiguous option: " ++ word ++ " could match " ++ String.intercalate ", " names
  | unrecognized words => "unrecognized arguments: " ++ String.intercalate " " words

/-- Why a command line does not give options. -/
inductive Refusal where
  | help
  | usage (fault : UsageFault)
  deriving DecidableEq

/-- How a word of the command line is taken. -/
inductive Word where
  | value
  | separator
  | unknown
  | long (name : OptionName) (attached : Option String)
  | shortHelp (tail : List Char)
  deriving DecidableEq

/-- The part of a word before its first equals sign, and the part behind it. -/
def splitEquals (s : List Char) : List Char × Option String :=
  match s.span (· ≠ '=') with
  | (name, _ :: rest) => (name, some (String.ofList rest))
  | (name, []) => (name, none)

/-- Whether a word looks like a negative number. -/
def isNegativeNumber : List Char → Bool
  | '-' :: s =>
    let digit (c : Char) : Bool := (Text.decimalValue? c).isSome
    let (whole, rest) := s.span digit
    match rest with
    | [] => !whole.isEmpty
    | ['\n'] => !whole.isEmpty
    | '.' :: rest =>
      let (fraction, rest) := rest.span digit
      !fraction.isEmpty && (rest = [] || rest = ['\n'])
    | _ => false
  | _ => false

/-- The options whose long names start with a text. -/
def startingWith (s : List Char) : List OptionName :=
  OptionName.all.filter fun name => s.isPrefixOf name.long.toList

/-- How a word that starts with a dash, and is not a name in full, is taken. -/
def classifyDashed (word : String) (s : List Char) : Except UsageFault Word :=
  let otherwise : Word := if isNegativeNumber s ∨ s.contains ' ' then .value else .unknown
  match s with
  | '-' :: '-' :: _ =>
    let (name, attached) := splitEquals s
    match startingWith name with
    | [] => .ok otherwise
    | [name] => .ok (.long name attached)
    | names =>
      let shown := names.map OptionName.long
      .error (.ambiguous word shown)
  | _ => .ok otherwise

/-- How a word is taken, without regard to the words before it. -/
def classify (word : String) : Except UsageFault Word :=
  let s := word.toList
  match s with
  | '-' :: 'h' :: tail => .ok (.shortHelp tail)
  | '-' :: _ :: _ =>
    let (name, attached) := splitEquals s
    match OptionName.all.find? fun n => n.long.toList = name with
    | some name => .ok (.long name attached)
    | none => classifyDashed word s
  | _ => .ok .value

/-- How each word is taken; behind a separator all are values. -/
def classifyAll : List String → Except UsageFault (List (String × Word))
  | [] => .ok []
  | word :: rest =>
    if word = "--" then .ok ((word, .separator) :: rest.map fun w => (w, .value))
    else do
      let kind ← classify word
      return (word, kind) :: (← classifyAll rest)

/-- An integer as the value of an option. -/
def integerValue (name : OptionName) (value : String) : Except Refusal Int :=
  match Number.readInteger 10 (Text.strip value.toList) with
  | .ok n => .ok n
  | .error _ => .error (.usage (.invalidInteger name value))

/-- The options with the value of one of them set. -/
def setValue (o : Options) (name : OptionName) (value : String) : Except Refusal Options :=
  match name with
  | .rpcUrl => .ok { o with rpcUrl := some value }
  | .beaconUrl => .ok { o with beaconUrl := some value }
  | .storage => .ok { o with storage := value }
  | .slot => (integerValue name value).map fun n => { o with slot := some n }
  | .threads => (integerValue name value).map fun n => { o with threads := n }
  | .top => (integerValue name value).map fun n => { o with top := n }
  | _ => .ok o

/-- The options with one of those set that have no value. -/
def setFlag (o : Options) (name : OptionName) : Except Refusal Options :=
  match name with
  | .help => .error .help
  | .noScale => .ok { o with noScale := true }
  | .noCache => .ok { o with noCache := true }
  | .quiet => .ok { o with quiet := true }
  | _ => .ok o

/-- What the short name of the help option asks for with letters behind it: the same name may
follow again, but neither a value nor a dash. -/
def helpWith : List Char → Refusal
  | '=' :: value => .usage (.unwantedValue .help (String.ofList value))
  | '-' :: rest => .usage (.unwantedValue .help (String.ofList ('-' :: rest)))
  | 'h' :: tail => helpWith tail
  | _ => .help

/-- Takes the words in order. Those that no option claims are gathered. -/
def takeWords : List (String × Word) → Options → (extras : List String) →
    Except Refusal (Options × List String)
  | [], o, extras => .ok (o, extras)
  | (word, .value) :: rest, o, extras => takeWords rest o (extras ++ [word])
  | (word, .separator) :: rest, o, extras => takeWords rest o (extras ++ [word])
  | (word, .unknown) :: rest, o, extras => takeWords rest o (extras ++ [word])
  | (_, .shortHelp tail) :: _, _, _ => .error (helpWith tail)
  | (_, .long name (some value)) :: rest, o, extras =>
    if name.takesValue then do takeWords rest (← setValue o name value) extras
    else .error (.usage (.unwantedValue name value))
  | (_, .long name none) :: (value, .value) :: rest, o, extras => do
    if name.takesValue then takeWords rest (← setValue o name value) extras
    else takeWords ((value, .value) :: rest) (← setFlag o name) extras
  | (_, .long name none) :: rest, o, extras => do
    if name.takesValue then .error (.usage (.missingValue name))
    else takeWords rest (← setFlag o name) extras

/-- The options that a command line gives. -/
def parse (words : List String) : Except Refusal Options := do
  let words ← (classifyAll words).mapError .usage
  let (o, extras) ← takeWords words .default []
  if extras.isEmpty then return o else .error (.usage (.unrecognized extras))

end StakeSnapshot.CommandLine
