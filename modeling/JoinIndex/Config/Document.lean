import JoinIndex.Config
import JoinIndex.Toml.Document

/-!
Configurations from TOML documents. Every setting has a default, so that a document names only
those it changes; a key that is no setting is refused.
-/

set_option autoImplicit false

namespace JoinIndex.Config

open Toml

/-- A natural number below a bound. -/
def naturalBelow? (bound : Nat) : Item → Option Nat
  | .integer i => if 0 ≤ i && i < bound then some i.toNat else none
  | _ => none

def boolean? : Item → Option Bool
  | .boolean b => some b
  | _ => none

/-- A name, given as a string or as the only key of a table, under which there is nothing. -/
def name? : Item → Option String
  | .string s => some s
  | .table _ [(key, .table _ [])] => some key
  | .table _ [(key, .array [])] => some key
  | _ => none

/-- Changes the setting that a key names. -/
def setting? (c : Config) (key : String) (item : Item) : Option Config :=
  match key with
  | "initial_num_buckets" =>
    (naturalBelow? Budget.wordRange item).map fun n ↦ { c with initialBuckets := n }
  | "probing_mode" => ((name? item).bind ProbingMode.ofName?).map fun probing ↦ { c with probing }
  | "storage_mode" => ((name? item).bind StorageMode.ofName?).map fun storage ↦ { c with storage }
  | "stores_nulls" => (boolean? item).map fun b ↦ { c with storesNulls := b }
  | "finds_nulls" => (boolean? item).map fun b ↦ { c with findsNulls := b }
  | "num_build_key_exprs" =>
    (naturalBelow? Budget.wordRange item).map fun n ↦ { c with buildKeys := n }
  | "num_probe_key_exprs" =>
    (naturalBelow? Budget.wordRange item).map fun n ↦ { c with probeKeys := n }
  | "num_levels" => (naturalBelow? Budget.wordRange item).map fun n ↦ { c with levels := n }
  | "initial_seed" =>
    (naturalBelow? UInt32.size item).map fun n ↦ { c with initialSeed := n.toUInt32 }
  | "mem_limit_bytes" =>
    (naturalBelow? Budget.wordRange item).map fun n ↦ { c with memoryLimit := some n.toUInt64 }
  | _ => none

def ofEntries? (es : Entries) : Option Config :=
  es.foldlM (fun c (key, item) ↦ c.setting? key item) standard

/-- Why a document gives no configuration. -/
inductive DocumentError where
  | unreadable
  | invalid (cause : Error)

/-- The configuration that a document gives, if it is a valid one. -/
def ofDocument (text : String) : Except DocumentError Config :=
  match (read text).bind ofEntries? with
  | none => .error .unreadable
  | some c =>
    match c.validate with
    | .error cause => .error (.invalid cause)
    | .ok () => .ok c

end JoinIndex.Config
