import GoSchema.Json.Token

/-! # Reading JSON text

A value is built token by token. The state of a reading holds the containers that are still open
and says what may come next; every token moves it on or is refused.
-/

namespace GoSchema.Json

/-- An open container that waits for a value. Items and members stand newest first. -/
inductive Frame where
  | array (items : List Json)
  | member (members : List (String × Json)) (key : String)

/-- What may come next. `outer` holds the open containers, innermost first. -/
inductive Reading where
  | atValue (outer : List Frame)
  /-- The first item of an array, or its end. -/
  | atFirstItem (outer : List Frame)
  | atItem (items : List Json) (outer : List Frame)
  | afterItem (items : List Json) (outer : List Frame)
  | atFirstKey (outer : List Frame)
  | atKey (members : List (String × Json)) (outer : List Frame)
  | atColon (members : List (String × Json)) (key : String) (outer : List Frame)
  | afterMember (members : List (String × Json)) (outer : List Frame)
  /-- Nothing: the value is complete. -/
  | done (value : Json)

/-- How a value is read. A value that is skipped may be nested at any depth, and neither the range
of its numbers nor the pairing of its surrogates is looked at. -/
inductive Care where
  | keep
  | skip
  deriving DecidableEq

namespace Reading

/-- The greatest number of containers inside each other. -/
def maxDepth : Nat :=
  127

def deliver (value : Json) : List Frame → Reading
  | [] => .done value
  | .array items :: outer => .afterItem (value :: items) outer
  | .member members key :: outer => .afterMember ((key, value) :: members) outer

/-- The meaning of a token that is kept, or a stand-in when the token is skipped. -/
def meaning (care : Care) (skipped : α) (m : Except Error α) : Except Error α :=
  match care with
  | .keep => m
  | .skip => .ok skipped

def enter (care : Care) (outer : List Frame) (t : Token) : Except Error Reading :=
  match t.lexeme with
  | .null => .ok (deliver .null outer)
  | .bool b => .ok (deliver (.bool b) outer)
  | .number n => (meaning care (.integer 0) n).map fun n => deliver (.number n) outer
  | .string s => (meaning care "" s).map fun s => deliver (.string s) outer
  | .beginArray => container (.atFirstItem outer)
  | .beginObject => container (.atFirstKey outer)
  | .endArray | .endObject | .colon | .comma => .error ⟨.noValue, t.ahead⟩
where
  container (next : Reading) : Except Error Reading :=
    if care = .keep ∧ maxDepth ≤ outer.length then .error ⟨.nestedTooDeep, t.ahead⟩ else .ok next

def member (care : Care) (members : List (String × Json)) (outer : List Frame) (t : Token) :
    Except Error Reading :=
  match t.lexeme with
  | .string s => (meaning care "" s).map fun s => .atColon members s outer
  | _ => .error ⟨.keyNotString, t.ahead⟩

def step (r : Reading) (care : Care) (t : Token) : Except Error Reading :=
  match r, t.lexeme with
  | .atValue outer, _ => enter care outer t
  | .atFirstItem outer, .endArray => .ok (deliver (.array []) outer)
  | .atFirstItem outer, _ => enter care (.array [] :: outer) t
  | .atItem _ _, .endArray => .error ⟨.trailingComma, t.ahead⟩
  | .atItem items outer, _ => enter care (.array items :: outer) t
  | .afterItem items outer, .comma => .ok (.atItem items outer)
  | .afterItem items outer, .endArray => .ok (deliver (.array items.reverse) outer)
  | .afterItem _ _, _ => .error ⟨.noListSeparator, t.ahead⟩
  | .atFirstKey outer, .endObject => .ok (deliver (.object []) outer)
  | .atFirstKey outer, _ => member care [] outer t
  | .atKey _ _, .endObject => .error ⟨.trailingComma, t.ahead⟩
  | .atKey members outer, _ => member care members outer t
  | .atColon members key outer, .colon => .ok (.atValue (.member members key :: outer))
  | .atColon _ _ _, _ => .error ⟨.noColon, t.ahead⟩
  | .afterMember members outer, .comma => .ok (.atKey members outer)
  | .afterMember members outer, .endObject => .ok (deliver (.object members.reverse) outer)
  | .afterMember _ _, _ => .error ⟨.noObjectSeparator, t.ahead⟩
  | .done _, _ => .error ⟨.trailingCharacters, t.ahead⟩

def outer : Reading → List Frame
  | .atValue outer | .atFirstItem outer | .atItem _ outer | .afterItem _ outer
  | .atFirstKey outer | .atKey _ outer | .atColon _ _ outer | .afterMember _ outer => outer
  | .done _ => []

/-- The value of a finished reading, or the fault when the text ends too early. -/
def atTextEnd (stop : Position) : Reading → Except Error Json
  | .done value => .ok value
  | .atValue _ | .atItem _ _ | .atKey _ _ => .error ⟨.endInValue, stop⟩
  | .atFirstItem _ | .afterItem _ _ => .error ⟨.endInList, stop⟩
  | .atFirstKey _ | .atColon _ _ _ | .afterMember _ _ => .error ⟨.endInObject, stop⟩

/-- The fault when no token fits. Only where a value or a key may come is it the fault of the
token that was begun. -/
def atFault (error : Error) (ahead : Position) (inString : Bool) : Reading → Error
  | .atValue _ | .atFirstItem _ | .atItem _ _ => error
  | .atFirstKey _ | .atKey _ _ => if inString then error else ⟨.keyNotString, ahead⟩
  | .afterItem _ _ => ⟨.noListSeparator, ahead⟩
  | .atColon _ _ _ => ⟨.noColon, ahead⟩
  | .afterMember _ _ => ⟨.noObjectSeparator, ahead⟩
  | .done _ => ⟨.trailingCharacters, ahead⟩

def finish (r : Reading) : Ending → Except Error Json
  | .text stop => r.atTextEnd stop
  | .fault error ahead inString => .error (r.atFault error ahead inString)

end Reading

/-- Read a JSON document as it is written, repeated keys included. How careful to be with a token
may depend on where it stands. -/
def read (care : Reading → Care) (text : String) : Except Error Json := do
  let (ts, ending) := tokens .start text.toList
  let reading ← ts.foldlM (fun (r : Reading) t => r.step (care r) t) (Reading.atValue [])
  reading.finish ending

def parse (text : String) : Except Error Json :=
  (read (fun _ => .keep) text).map settled

end GoSchema.Json
