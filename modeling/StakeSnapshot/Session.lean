import StakeSnapshot.Log.Line
import StakeSnapshot.Store.Key
import StakeSnapshot.Store

/-!
# Sessions

Readings ask the outside, a beacon node and a chain, and keep what they learn. The outside may
answer differently each time, so its answers depend on all that has been asked before. A session
holds the store, the addresses that have been resolved, and what has been asked and told.
-/

namespace StakeSnapshot

/-- A request to a beacon node, with the keys that it asks for. -/
structure Request where
  base : String
  path : String
  keys : Option (List String)
  timeout : Int
  deriving DecidableEq

/-- The argument of a contract's function. -/
inductive Argument where
  | digest (octets : List UInt8)
  | index (n : Nat)
  | value (v : Value)
  deriving DecidableEq

/-- A call of a contract's function at a block. -/
structure Call where
  address : Value
  function : String
  argument : Option Argument
  block : Value
  deriving DecidableEq

/-- What is asked of the outside. -/
inductive Question where
  | request (r : Request)
  | call (c : Call)
  deriving DecidableEq

/-- How a request ends: with a response, with a failure to get one, or with a fault in making the
request. -/
inductive Reply where
  | response (status : Int) (body : String)
  | failed (kind message : String)
  | broken (fault : Fault)

/-- The flow of work in which something is asked. The two lists are read beside each other. -/
inductive Lane where
  | main
  | nodes
  | minipools
  deriving DecidableEq

/-- The questions asked so far, in order, each with its lane. -/
abbrev History := List (Lane × Question)

/-- The outside: the answer to a question after what has been asked before. -/
structure Outside where
  beacon : History → Request → Reply
  chain : History → Call → Except Fault Value

/-- What lasts from one reading to the next. An address is found by the name of its contract and what
the block is compared as. -/
structure Session where
  store : Store
  addresses : Table (String × Value) Value
  lane : Lane
  history : History
  log : List LogLine

/-- A session in which nothing has happened, over a store. -/
def Session.start (store : Store) : Session := ⟨store, [], .main, [], []⟩

/-- A session in which one more line has been told. -/
def Session.told (line : LogLine) (s : Session) : Session := { s with log := s.log ++ [line] }

/-- Work that may fail and that changes a session. -/
abbrev Reads := EStateM Fault Session

/-- A result that needs no session. -/
instance {σ : Type} : MonadLift (Except Fault) (EStateM Fault σ) where
  monadLift
    | .ok a => pure a
    | .error fault => throw fault

namespace Reads

/-- Asks a beacon node. -/
def request (out : Outside) (r : Request) : Reads Reply := fun s =>
  .ok (out.beacon s.history r) { s with history := s.history ++ [(s.lane, .request r)] }

/-- Asks a contract. -/
def call (out : Outside) (c : Call) : Reads Value := fun s =>
  let asked := { s with history := s.history ++ [(s.lane, .call c)] }
  match out.chain s.history c with
  | .ok v => .ok v asked
  | .error fault => .error fault asked

/-- Looks a reading up in the store, if it is to be used; this creates the store. The text of the key
is made in any case. -/
def lookUp (useStore : Bool) (reading : Store.StoredReading) : Reads (Option Value) := fun s =>
  match reading.keyFault? with
  | none =>
    if useStore then
      match s.store.look reading with
      | .ok v? => .ok v? { s with store := s.store.ensured }
      | .error fault => .error fault { s with store := s.store.ensured }
    else .ok none s
  | some fault => .error fault s

/-- Stores a reading, if the store is to be used. -/
def remember (useStore : Bool) (reading : Store.StoredReading) (v : Value) : Reads Unit := fun s =>
  if useStore then
    match Store.save reading.key v s.store with
    | .ok () store => .ok () { s with store }
    | .error fault store => .error fault { s with store }
  else .ok () s

/-- Does some work in a lane of its own. -/
def within {α : Type} (lane : Lane) (work : Reads α) : Reads α := fun s =>
  match work { s with lane } with
  | .ok a t => .ok a { t with lane := s.lane }
  | .error fault t => .error fault { t with lane := s.lane }

/-- Tells a line of progress. -/
def tell (line : LogLine) : Reads Unit := modify (Session.told line)

end Reads

end StakeSnapshot
