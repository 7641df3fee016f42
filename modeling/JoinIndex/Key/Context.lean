import JoinIndex.Config
import JoinIndex.Key.Encoding
import JoinIndex.Key.Expr

/-!
Key contexts: the key expressions of both sides of a join, the level rows are hashed at, and the
key that was evaluated last.
-/

set_option autoImplicit false

namespace JoinIndex

structure KeyContext where
  buildExprs : List KeyExpr
  probeExprs : List KeyExpr
  storesNulls : Bool
  findsNulls : Bool
  level : Nat
  seeds : Hash.Seeds
  key : List Value

namespace KeyContext

def new (buildExprs probeExprs : List KeyExpr) (storesNulls findsNulls : Bool)
    (seeds : Hash.Seeds) : KeyContext :=
  ⟨buildExprs, probeExprs, storesNulls, findsNulls, 0, seeds, []⟩

/-- The first reason for which no context can be made from the expressions of both sides: the
configuration is not valid, or a side has not as many expressions as it says. -/
def checkExprs (config : Config) (buildExprs probeExprs : List KeyExpr) : Except Error Unit := do
  config.validate
  if buildExprs.length ≠ config.buildKeys then
    throw (.config (.buildKeysExpected config.buildKeys buildExprs.length))
  if probeExprs.length ≠ config.probeKeys then
    throw (.config (.probeKeysExpected config.probeKeys probeExprs.length))

/-- The context for a configuration, whether or not there is room for its seeds. -/
def ofConfig (config : Config) (buildExprs probeExprs : List KeyExpr) :
    Except Error KeyContext := do
  checkExprs config buildExprs probeExprs
  return new buildExprs probeExprs config.storesNulls config.findsNulls config.seeds

/-- Makes the context for a configuration. The seeds are made last, when all else is checked. -/
def create (config : Config) (buildExprs probeExprs : List KeyExpr) :
    Except Fault (Except Error KeyContext) :=
  match checkExprs config buildExprs probeExprs with
  | .error e => .ok (.error e)
  | .ok () => do
    let seeds ← config.createSeeds
    return .ok (new buildExprs probeExprs config.storesNulls config.findsNulls seeds)

/-- The same context before any key was evaluated. -/
def fresh (c : KeyContext) : KeyContext :=
  { c with key := [] }

def seed (c : KeyContext) : UInt32 :=
  (c.seeds.get? c.level).getD 0

/-- Hashes are taken at `level` from now on; those of other levels mean nothing to them. -/
def setLevel (c : KeyContext) (level : Nat) : Except Fault KeyContext :=
  if level < c.seeds.length then .ok { c with level }
  else .error (.levelOutOfRange level c.seeds.length)

/-- The hash function of the level. -/
def hash (c : KeyContext) (seed : UInt32) (bytes : List UInt8) : UInt32 :=
  Hash.hashBytes c.level seed bytes

def keyHasNull (c : KeyContext) : Bool :=
  c.key.any Value.isNull

/-- The hash of the key, each component being hashed with the hash before it for a seed. -/
def keyHash (c : KeyContext) : UInt32 :=
  c.key.foldl (fun hash v ↦ c.hash hash v.keyBytes) c.seed

def evaluate (c : KeyContext) (exprs : List KeyExpr) (row : Row) : KeyContext :=
  { c with key := exprs.map (·.eval row) }

/-- The hash of the key; none if it has a null and nulls take no part. -/
def hashUnless (c : KeyContext) (nullsTakePart : Bool) : Option UInt32 :=
  if c.keyHasNull && !nullsTakePart then none else some c.keyHash

/-- Evaluates the key of a row to be stored and hashes it. A key with a null has a hash only if
nulls are stored. -/
def evaluateBuild (c : KeyContext) (row : Row) : KeyContext × Option UInt32 :=
  let c := c.evaluate c.buildExprs row
  (c, c.hashUnless c.storesNulls)

/-- Evaluates the key of a row to look for and hashes it. A key with a null has a hash only if
nulls are stored and may be found. -/
def evaluateProbe (c : KeyContext) (row : Row) : KeyContext × Option UInt32 :=
  let c := c.evaluate c.probeExprs row
  (c, c.hashUnless (c.storesNulls && c.findsNulls))

/-- Whether the build key of a stored row is the key, compared as far as both go. -/
def equals (c : KeyContext) (stored : Row) : Bool :=
  (c.buildExprs.zip c.key).all fun (e, v) ↦ (e.eval stored).same v

end KeyContext

end JoinIndex
