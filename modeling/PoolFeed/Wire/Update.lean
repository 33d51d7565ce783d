import PoolFeed.Transaction
import PoolFeed.Wire.Message

/-!
# Transaction updates

| here | there |
| --- | --- |
| `Update.ofBytes?` | a `SubscribeUpdateTransaction` |
| `Update.toTransaction` | `TransactionEnvelope.from_update` |
| `Call.toInstruction` | `_compile` |

A transaction as the stream delivers it: raw keys in three lists, instructions whose account
references are bytes, and inner instructions in numbered groups. `toTransaction` is the view that the
readers use.
-/

namespace PoolFeed.Wire

structure Call where
  programIndex : Nat := 0
  accounts : Bytes := []
  data : Bytes := []
  deriving DecidableEq

structure CallGroup where
  index : Nat := 0
  calls : List Call := []
  deriving DecidableEq

structure Update where
  slot : Nat := 0
  signature : Bytes := []
  staticKeys : List Bytes := []
  writableKeys : List Bytes := []
  readonlyKeys : List Bytes := []
  calls : List Call := []
  groups : List CallGroup := []
  deriving DecidableEq

/-! ## Schemas -/

/-- Message fields of a compiled instruction. -/
def callSchema : Schema := [(1, .number), (2, .data), (3, .data)]

/-- Message fields of an inner instruction, which also has a stack height. -/
def innerCallSchema : Schema := [(1, .number), (2, .data), (3, .data), (4, .number)]

def bodySchema : Schema := [
  (1, .message [(1, .number), (2, .number), (3, .number)]),
  (2, .data),
  (3, .data),
  (4, .message callSchema),
  (5, .number),
  (6, .message [(1, .data), (2, .data), (3, .data)])]

def metaSchema : Schema := [
  (1, .message [(1, .data)]),
  (2, .number),
  (3, .numbers),
  (4, .numbers),
  (5, .message [(1, .number), (2, .message innerCallSchema)]),
  (6, .text),
  (10, .number),
  (11, .number),
  (12, .data),
  (13, .data),
  (16, .number)]

def infoSchema : Schema := [
  (1, .data),
  (2, .number),
  (3, .message [(1, .data), (2, .message bodySchema)]),
  (4, .message metaSchema),
  (5, .number)]

def updateSchema : Schema := [(1, .message infoSchema), (2, .number)]

/-! ## Reading -/

def Call.ofMessage (m : Message) : Call := ⟨m.number32 1, m.data 2, m.data 3⟩

def CallGroup.ofMessage (m : Message) : CallGroup := ⟨m.number32 1, (m.children 2).map Call.ofMessage⟩

def Update.ofMessage (m : Message) : Update :=
  let info := m.child 1
  let body := (info.child 3).child 2
  let details := info.child 4
  { slot := m.number 2
    signature := info.data 1
    staticKeys := body.allData 2
    writableKeys := details.allData 12
    readonlyKeys := details.allData 13
    calls := (body.children 4).map Call.ofMessage
    groups := (details.children 5).map CallGroup.ofMessage }

def Update.ofBytes? (b : Bytes) : Option Update := (updateSchema.read? b).map Update.ofMessage

/-! ## Writing -/

/-- A field that is left out when it has its default value. -/
def field (number : Nat) (v : Value) (isDefault : Bool) : Message := if isDefault then [] else [(number, v)]

def Call.toMessage (c : Call) : Message :=
  field 1 (.number c.programIndex) (c.programIndex == 0)
    ++ field 2 (.data c.accounts) c.accounts.isEmpty ++ field 3 (.data c.data) c.data.isEmpty

def CallGroup.toMessage (g : CallGroup) : Message :=
  field 1 (.number g.index) (g.index == 0) ++ g.calls.map fun c => (2, .message c.toMessage)

def Update.toMessage (u : Update) : Message :=
  let body : Message := u.staticKeys.map (fun k => (2, .data k)) ++ u.calls.map fun c => (4, .message c.toMessage)
  let details : Message := u.groups.map (fun g => (5, .message g.toMessage))
    ++ u.writableKeys.map (fun k => (12, .data k)) ++ u.readonlyKeys.map fun k => (13, .data k)
  let info : Message := field 1 (.data u.signature) u.signature.isEmpty
    ++ [(3, .message [(2, .message body)]), (4, .message details)]
  (1, .message info) :: field 2 (.number u.slot) (u.slot == 0)

def Update.encode (u : Update) : Bytes := u.toMessage.encode

/-! ## The readers' view -/

def Call.toInstruction (c : Call) : Instruction :=
  ⟨c.programIndex, c.data, c.accounts.map fun a => (a.toNat : Int)⟩

/-- Puts a group in; one with the same index gives way. -/
def putGroup (groups : List (Int × List Instruction)) (g : CallGroup) : List (Int × List Instruction) :=
  let entry := ((g.index : Int), g.calls.map Call.toInstruction)
  if groups.any (·.1 == entry.1) then groups.map fun old => if old.1 = entry.1 then entry else old
  else groups ++ [entry]

/-- The transaction of an update: the keys in base 58, static, then writable, then readonly. -/
def Update.toTransaction (u : Update) : Transaction where
  signature := u.signature
  slot := u.slot
  keys := (u.staticKeys ++ u.writableKeys ++ u.readonlyKeys).map Base58.encode
  instructions := u.calls.map Call.toInstruction
  inner := u.groups.foldl putGroup []

end PoolFeed.Wire
