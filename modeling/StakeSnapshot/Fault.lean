import StakeSnapshot.Value

/-!
# Faults

Every way in which a reading, a snapshot, a stake calculation or a report fails, with the message
for each. A fault that is raised because of another one keeps it as its cause.
-/

namespace StakeSnapshot

/-- The lists of rows that are stored. -/
inductive RowKind where
  | node
  | minipool
  deriving DecidableEq

/-- The readings of a snapshot that are made at its block. -/
inductive Reading where
  | price
  | minimumFraction
  | maximumFraction
  | rewardIndex
  | interval
  | shares
  | pendingRewards
  | nodes
  | minipools
  | validators
  deriving DecidableEq

/-- What a reading is called in messages. -/
def Reading.label : Reading → String
  | price => "RPL price ratio"
  | minimumFraction => "minimum per minipool stake"
  | maximumFraction => "maximum per minipool stake"
  | rewardIndex => "reward index"
  | interval => "interval duration"
  | shares => "rewards percentages"
  | pendingRewards => "pending RPL rewards"
  | nodes => "node details"
  | minipools => "minipool details"
  | validators => "validator statuses"

/-- Where lists and records are too deep in each other: in a list or in a record that is read, or in a
value that is written. -/
inductive Nesting where
  | list
  | record
  | written
  deriving DecidableEq

/-- A value does not have the shape that is read from it; the type is the one it has. -/
inductive ShapeFault where
  | notInteger (type : String)
  | noFields (type : String)
  | noLookup (type : String)
  | notText (type : String)
  | notList (type : String)
  | notRow (row : RowKind) (type : String)
  | unknownField (row : RowKind) (name : String)
  | absentFields (row : RowKind) (first : String) (others : List String)
  | notKey (type : String)
  | notJoined (position : Nat) (type : String)
  deriving DecidableEq

/-- What a line template does not allow. -/
inductive TemplateFault where
  | tooFewValues
  | tooManyValues
  | needsRecord
  | needsNumber (letter : Char) (type : String)
  | needsInteger (letter : Char) (type : String)
  | needsReal (type : String)
  | needsWidth
  | needsCharacter
  | characterRange
  | widthRange
  | precisionRange
  | incomplete
  | unknownLetter (letter : Char) (position : Nat)
  | notFinite (infinite : Bool)
  | hugeNumber
  | hugeInteger
  deriving DecidableEq

/-- Why an operation fails. -/
inductive Fault where
  -- integers and keys
  | integerText (base : Nat) (shown : String)
  | integerTooLong (digits : Nat)
  | numberTooLong
  | unencodable (points : List CodePoint)
  | integerOfNan
  | integerOfInfinity
  | pubkeyLength (key : String)
  | unknownStatus (shown : String)
  -- values of another shape
  | shape (fault : ShapeFault)
  | missingField (name : String)
  | undecodable (message : String)
  | tooDeep (inside : Nesting)
  -- readings
  | requestFailed (path kind message : String)
  | requestRefused (path : String) (status : Int) (body : String)
  | noPayload (slot : Int)
  | batchSize
  | readFailed (message : String)
  | unregistered (contract : String) (block : Value)
  | hugeCount
  | longKey
  | foreign (kind message : String)
  -- snapshots
  | emptySlot (slot : Int)
  | blockUnavailable (slot : Int) (cause : Fault)
  | unavailable (what : Reading) (block : Value) (slot : Int) (cause : Fault)
  -- stakes
  | priceNotPositive (price : Int) (block : Option Value)
  | intervalNotPositive (seconds : Int)
  | threadLimit (limit : Int)
  | registeredLater (registered time : Int)
  | zeroSlotsPerEpoch
  | nodeStake (address : String) (cause : Fault)
  -- reports
  | amountRange
  | negativePlaces
  | hugePlaces
  | timeRange
  | calendarRange
  | yearRange (year : Int)
  | shareRange
  | template (fault : TemplateFault)
  deriving DecidableEq

/-- An integer as text inside a message. -/
def numberText (n : Int) : String := String.ofList (Number.intText n)

/-- A value as text inside a message. -/
def valueText (v : Value) : String := String.ofList v.plain

@[simp] theorem valueText_int (n : Int) : valueText (.int n) = numberText n := rfl

/-- An integer as text, unless it has too many digits for that. -/
def writeNumber (n : Int) : Except Fault String :=
  if Number.isWritable n then .ok (numberText n) else .error .numberTooLong

/-- A text in quotation marks inside a message. -/
def quotedText (s : String) : String := String.ofList (Text.quoted s.toList)

/-- What a stored row is called in messages. -/
def RowKind.label : RowKind → String
  | node => "NodeDetails"
  | minipool => "MinipoolDetails"

/-- Names in quotation marks, joined with commas and an `and`. -/
def nameList (first : String) : List String → String
  | [] => quotedText first
  | [last] => quotedText first ++ " and " ++ quotedText last
  | others =>
    let quoted := (first :: others).map quotedText
    String.intercalate ", " quoted.dropLast ++ ", and " ++ quoted.getLast?.getD ""

/-- What was being done where the stack had no more room. -/
def Nesting.doing : Nesting → String
  | list => "decoding a JSON array from a unicode string"
  | record => "decoding a JSON object from a unicode string"
  | written => "calling a Python object"

/-- The message of a fault of shape. -/
def ShapeFault.message : ShapeFault → String
  | notInteger type =>
    "int() argument must be a string, a bytes-like object or a real number, not " ++ quotedText type
  | noFields "list" => "list indices must be integers or slices, not str"
  | noFields "str" => "string indices must be integers, not 'str'"
  | noFields "bytes" => "byte indices must be integers or slices, not str"
  | noFields "bytearray" => "bytearray indices must be integers or slices, not str"
  | noFields "memoryview" => "memoryview: invalid slice key"
  | noFields type => quotedText type ++ " object is not subscriptable"
  | noLookup type => quotedText type ++ " object has no attribute 'get'"
  | notText type => quotedText type ++ " object has no attribute 'lower'"
  | notList type => quotedText type ++ " object is not iterable"
  | notRow .node type =>
    "rp_network_state.models.NodeDetails() argument after ** must be a mapping, not " ++ type
  | notRow .minipool type => quotedText type ++ " object is not a mapping"
  | unknownField row name =>
    row.label ++ ".__init__() got an unexpected keyword argument '" ++ name ++ "'"
  | absentFields row first others =>
    row.label ++ ".__init__() missing " ++ numberText (others.length + 1)
      ++ " required positional argument" ++ (if others.isEmpty then ": " else "s: ")
      ++ nameList first others
  | notKey type => "unhashable type: " ++ quotedText type
  | notJoined position type =>
    "sequence item " ++ numberText position ++ ": expected str instance, " ++ type ++ " found"

/-- What is said of an integer that has too many digits to be written. -/
def tooLongMessage : String :=
  "Exceeds the limit (4300 digits) for integer string conversion; use " ++
    "sys.set_int_max_str_digits() to increase the limit"

/-- What is said of a text that no file and no key takes. The surrogates up to the first character after
them are named by their number, or by their places if there are several. -/
def unencodableMessage (points : List CodePoint) : String :=
  let before := points.takeWhile (·.char?.isSome)
  let run := (points.drop before.length).takeWhile (·.char?.isNone)
  let place := numberText before.length
  "'utf-8' codec can't encode character" ++
    (if run.length ≤ 1 then
      " '" ++ String.ofList (CodePoint.shown run) ++ "' in position " ++ place
    else "s in position " ++ place ++ "-" ++ numberText (before.length + run.length - 1)) ++
    ": surrogates not allowed"

/-- The message of a fault of a line template. -/
def TemplateFault.message : TemplateFault → String
  | tooFewValues => "not enough arguments for format string"
  | tooManyValues => "not all arguments converted during string formatting"
  | needsRecord => "format requires a mapping"
  | needsNumber letter type =>
    "%" ++ letter.toString ++ " format: a real number is required, not " ++ type
  | needsInteger letter type =>
    "%" ++ letter.toString ++ " format: an integer is required, not " ++ type
  | needsReal type => "must be real number, not " ++ type
  | needsWidth => "* wants int"
  | needsCharacter => "%c requires int or char"
  | characterRange => "%c arg not in range(0x110000)"
  | widthRange => "width too big"
  | precisionRange => "precision too big"
  | incomplete => "incomplete format"
  | unknownLetter letter position =>
    "unsupported format character '" ++
      (if 31 < letter.toNat ∧ letter.toNat < 127 then letter.toString else "?") ++ "' (0x" ++
      String.ofList (Nat.toDigits 16 letter.toNat) ++ ") at index " ++ numberText position
  | notFinite true => "cannot convert float infinity to integer"
  | notFinite false => "cannot convert float NaN to integer"
  | hugeNumber => "int too large to convert to float"
  | hugeInteger => tooLongMessage

/-- The message of a fault; that of a cause is repeated in what it caused. -/
def Fault.message : Fault → String
  | integerText base shown =>
    "invalid literal for int() with base " ++ numberText base ++ ": " ++ shown
  | integerTooLong digits =>
    "Exceeds the limit (4300 digits) for integer string conversion: value has "
      ++ numberText digits
      ++ " digits; use sys.set_int_max_str_digits() to increase the limit"
  | numberTooLong => tooLongMessage
  | unencodable points => unencodableMessage points
  | integerOfNan => "cannot convert float NaN to integer"
  | integerOfInfinity => "cannot convert float infinity to integer"
  | pubkeyLength key => "invalid validator pubkey length: " ++ key
  | unknownStatus shown => shown ++ " is not a valid MinipoolStatus"
  | shape fault => fault.message
  | missingField name => quotedText name
  | undecodable message => message
  | tooDeep inside => "maximum recursion depth exceeded while " ++ inside.doing
  | requestFailed path _ message => "Beacon request to " ++ path ++ " failed: " ++ message
  | requestRefused path status body =>
    "Beacon request to " ++ path ++ " failed with HTTP " ++ numberText status ++ ": " ++ body
  | noPayload slot =>
    "Beacon block at slot " ++ numberText slot ++ " has no execution payload (pre-merge slot?)"
  | batchSize => "batch_size must be > 0"
  | readFailed message => message
  | unregistered contract block =>
    "contract " ++ contract ++ " is not registered in RocketStorage at block " ++ valueText block
  | hugeCount => "Python int too large to convert to C ssize_t"
  | longKey => "[Errno 36] File name too long"
  | foreign _ message => message
  | emptySlot slot => "slot " ++ numberText slot ++ " did not have a Beacon block"
  | blockUnavailable slot cause =>
    "error getting Beacon block for slot " ++ numberText slot ++ ": " ++ cause.message
  | unavailable what block slot cause =>
    "error getting " ++ what.label ++ " at EL block " ++ valueText block ++ " (slot "
      ++ numberText slot ++ "): " ++ cause.message
  | priceNotPositive price none => "RPL price must be > 0, got " ++ numberText price
  | priceNotPositive price (some block) =>
    "RPL price must be > 0, got " ++ numberText price ++ " (EL block " ++ valueText block ++ ")"
  | intervalNotPositive seconds =>
    "interval duration must be > 0 to scale by participation, got " ++ numberText seconds
  | threadLimit limit => "thread_limit must be >= 1, got " ++ numberText limit
  | registeredLater registered time =>
    "registered at " ++ numberText registered ++ ", after the snapshot time " ++ numberText time
  | zeroSlotsPerEpoch => "integer division or modulo by zero"
  | nodeStake address cause => "node " ++ address ++ ": " ++ cause.message
  | amountRange => "[<class 'decimal.Overflow'>]"
  | negativePlaces => "invalid format string"
  | hugePlaces => "format specification exceeds internal limits of _decimal"
  | timeRange => "timestamp out of range for platform time_t"
  | calendarRange => "[Errno 75] Value too large for defined data type"
  | yearRange year => "year " ++ numberText year ++ " is out of range"
  | shareRange => "integer division result too large for a float"
  | template fault => fault.message

/-- The values that a fault names itself, and that may be of any size. -/
def Fault.named : Fault → List Value
  | noPayload slot | emptySlot slot | blockUnavailable slot _ => [.int slot]
  | unregistered _ block => [block]
  | unavailable _ block slot _ => [block, .int slot]
  | priceNotPositive price block => .int price :: block.toList
  | intervalNotPositive n | threadLimit n => [.int n]
  | registeredLater registered time => [.int registered, .int time]
  | _ => []

/-- What is raised for a fault. Its message is written first, and an integer in it may have too many
digits for that. -/
def Fault.raised (fault : Fault) : Fault :=
  if fault.named.all Value.isWritable then fault else .numberTooLong

theorem Fault.raised_of_writable {fault : Fault}
    (h : ∀ v ∈ fault.named, v.isWritable = true) : fault.raised = fault :=
  if_pos (List.all_eq_true.2 h)

theorem Fault.raised_cases (fault : Fault) :
    (∀ v ∈ fault.named, v.isWritable = true) ∧ fault.raised = fault ∨
      (∃ v ∈ fault.named, v.isWritable = false) ∧ fault.raised = .numberTooLong := by
  unfold raised
  split
  · next h => exact .inl ⟨List.all_eq_true.1 h, rfl⟩
  · next h => exact .inr ⟨by simpa using h, rfl⟩

/-- Whether a fault says that the settings or the parameters make a calculation meaningless. -/
def Fault.isConfiguration : Fault → Bool
  | priceNotPositive .. | intervalNotPositive _ | threadLimit _ => true
  | _ => false

/-- Whether a fault says that a snapshot could not be built. -/
def Fault.isSnapshotFailure : Fault → Bool
  | emptySlot _ | blockUnavailable .. | unavailable .. => true
  | _ => false

/-- Whether a fault says that a node's stake could not be calculated. -/
def Fault.isStakeFailure : Fault → Bool
  | nodeStake .. => true
  | _ => false

/-- The fault of the calculation for a node, which names the node. -/
def Fault.atNode (address : String) (fault : Fault) : Fault :=
  if fault.isStakeFailure then fault else .nodeStake address fault

theorem Fault.isStakeFailure_atNode (address : String) (fault : Fault) :
    (fault.atNode address).isStakeFailure = true := by
  unfold atNode
  split
  · assumption
  · rfl

/-- Whether a fault is a failure of a reading, as against an answer that cannot be understood. -/
def Fault.isReadFailure : Fault → Bool
  | requestFailed .. | requestRefused .. | noPayload _ | readFailed _ | unregistered ..
  | tooDeep _ => true
  | fault => fault.isSnapshotFailure || fault.isStakeFailure

end StakeSnapshot
