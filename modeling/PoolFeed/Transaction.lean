import PoolFeed.Base58

/-!
# Transactions

| here | there |
| --- | --- |
| `Transaction`, `Instruction` | `TransactionEnvelope`, `CompiledInstruction` |
| `pick?` | an index into a list, which counts from the end if it is negative |
| `programOf?`, `account` | `TransactionEnvelope.program_id`, `account` |
| `callsTo`, `innerOf` | `instructions_for`, `inner_for` |
| `signatureText` | `signature_b58` |

A transaction as far as the readers need it: its account table, its top-level instructions, and the
inner instructions that each of them triggered. Account references are positions in the table.
-/

namespace PoolFeed

/-- One instruction: the program it calls, its data and its account references. -/
structure Instruction where
  programIndex : Int
  data : Bytes
  accounts : List Int := []
  deriving DecidableEq

structure Transaction where
  signature : Bytes
  slot : Int
  /-- The static keys, then the looked-up writable ones, then the looked-up readonly ones. -/
  keys : List String := []
  instructions : List Instruction := []
  /-- Inner instructions by the position of the top-level instruction. -/
  inner : List (Int × List Instruction) := []
  deriving DecidableEq

/-- The element at a position; a negative position counts from the end. -/
def pick? {α : Type} (l : List α) (i : Int) : Option α :=
  if 0 ≤ i then l[i.toNat]? else if -i ≤ l.length then l[(l.length + i).toNat]? else none

/-- A reference that lies before the start of its table. -/
inductive ReferenceError where
  | beforeStart
  deriving DecidableEq

def ReferenceError.message : ReferenceError → String
  | .beforeStart => "tuple index out of range"

namespace Transaction

/-- The signature in base 58. -/
def signatureText (t : Transaction) : String := Base58.encode t.signature

/-- The program an instruction calls, if its index is in the account table. -/
def programOf? (t : Transaction) (ix : Instruction) : Option String :=
  if 0 ≤ ix.programIndex then t.keys[ix.programIndex.toNat]? else none

/-- The address behind an account reference: none past the end of a table, an error before its
start. -/
def account (t : Transaction) (ix : Instruction) (position : Int) : Except ReferenceError (Option String) :=
  if (ix.accounts.length : Int) ≤ position then .ok none
  else match pick? ix.accounts position with
    | none => .error .beforeStart
    | some key =>
      if (t.keys.length : Int) ≤ key then .ok none
      else match pick? t.keys key with
        | none => .error .beforeStart
        | some address => .ok (some address)

/-- The top-level instructions of a program, with their positions. -/
def callsTo (t : Transaction) (program : String) : List (Nat × Instruction) :=
  (t.instructions.zipIdx.map fun (ix, i) => (i, ix)).filter fun (_, ix) => t.programOf? ix == some program

/-- The inner instructions of the top-level instruction at a position. -/
def innerOf (t : Transaction) (position : Int) : List Instruction := (t.inner.lookup position).getD []

end Transaction

end PoolFeed
