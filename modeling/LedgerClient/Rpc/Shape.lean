import LedgerClient.Decimal.Shortest
import LedgerClient.Json.Reader
import LedgerClient.Key.Text
import LedgerClient.Rpc.Reply

/-!
# Shapes of replies

A shape lists the alternatives that a reply may take, and decoding is lenient among them: a text
may stand for a number, a truth value or nothing where no text is expected, a whole number may be
written with a fraction or an exponent, and members that a record does not know are skipped.
Texts that are expected as such are never read as anything else.

## Main definitions

* `Rpc.Alternative`, `Rpc.Shape`: what a reply may be
* `Rpc.Shape.reply`: the reply that a document holds
* `Rpc.Shape.decode`: the reply in a text, or the fault of a text of another shape
-/

namespace LedgerClient.Rpc

open Json (Tree Number Obstacle)

/-- A member of a record: its name, its name on the wire, what it may be, and what it is when it
is not sent. -/
structure RecordField (α : Type) where
  /-- The name in the record. -/
  name : String
  /-- The name on the wire. -/
  wire : String
  /-- What the member may be. -/
  shape : List α
  /-- What the member is when it is not sent; a member without default must be sent. -/
  absent : Option Reply

/-- One thing that a reply may be. -/
inductive Alternative
  /-- Any JSON value. -/
  | any
  | null
  | bool
  | int
  | float
  | text
  /-- This text. -/
  | word (word : String)
  | key (kind : KeyKind)
  | blob
  | list (item : List Alternative)
  /-- An object whose members are all alike. -/
  | map (item : List Alternative)
  | record (label : String) (fields : List (RecordField Alternative))

/-- What a reply may be. -/
abbrev Shape := List Alternative

/-- The greatest number up to which each whole number is told from its neighbours. -/
def exactLimit : Nat := 2 * Binary64.exponentUnit

/-- The whole number that a floating-point number is, within the exact range. -/
def whole? (x : Float) : Option Int :=
  let n := Binary64.truncate x
  if Binary64.isWhole x && n.natAbs ≤ exactLimit then some n else none

namespace Shape

/-- The alternative is any value. -/
def takesAny (shape : Shape) : Bool := shape.any fun | .any => true | _ => false

/-- The reply may be nothing. -/
def takesNull (shape : Shape) : Bool := shape.any fun | .null => true | _ => false

/-- The reply may be a truth value. -/
def takesBool (shape : Shape) : Bool := shape.any fun | .bool => true | _ => false

/-- The reply may be a whole number. -/
def takesInt (shape : Shape) : Bool := shape.any fun | .int => true | _ => false

/-- The reply may be a number with a fraction. -/
def takesFloat (shape : Shape) : Bool := shape.any fun | .float => true | _ => false

/-- The reply may be any text. -/
def takesText (shape : Shape) : Bool := shape.any fun | .text => true | _ => false

/-- The reply may be this text. -/
def takesWord (shape : Shape) (word : String) : Bool :=
  shape.any fun | .word w => w == word | _ => false

/-- What the items are if the reply may be a list. -/
def item? (shape : Shape) : Option Shape :=
  shape.findSome? fun | .list item => some item | _ => none

/-- What the members are if the reply may be a map. -/
def entry? (shape : Shape) : Option Shape :=
  shape.findSome? fun | .map item => some item | _ => none

/-- The label and the fields if the reply may be a record. -/
def record? (shape : Shape) : Option (String × List (RecordField Alternative)) :=
  shape.findSome? fun | .record label fields => some (label, fields) | _ => none

/-- How a value becomes a key or a blob, if the reply may be one. -/
def conversion? (shape : Shape) (host : Host) : Option (Json.Value → Except Fault Reply) :=
  shape.findSome? fun
    | .key kind => some fun
      | .str text => .key kind <$> Key.ofBase58 kind text
      | _ => throw (.misuse .value)
    | .blob => some fun value => .blob <$> Blob.ofJson value host
    | _ => none

end Shape

/-- A number of a reply. -/
def numberReply (shape : Shape) : Number → Except Obstacle Reply
  | .whole n digits =>
    if shape.takesAny ∨ shape.takesInt then
      if Numeral.maxDigits < digits then .error .form else .ok (.plain (.int n))
    else if shape.takesFloat then
      match (Decimal.ofInt n).finite? with
      | some x => .ok (.plain (.float x))
      | none => .error .form
    else if shape.takesBool ∧ (n = 0 ∨ n = 1) then .ok (.plain (.bool (n = 1)))
    else .error .form
  | .decimal d => match d.finite? with
    | none => .error .form
    | some x =>
      if shape.takesAny ∨ shape.takesFloat then .ok (.plain (.float x))
      else match if shape.takesInt then whole? x else none with
        | some n => .ok (.plain (.int n))
        | none => .error .form

/-- The number that a whole text is, if it is one. -/
def numberText? (content : Bytes) : Option Number :=
  match Json.number? content with
  | some (n, []) => some n
  | _ => none

/-- The special number that a text names, if it names one. -/
def specialText? (cs : List Char) : Option Float :=
  match cs with
  | '-' :: cs => Numeral.special? true cs
  | cs => Numeral.special? false cs

/-- The text in small letters, if it is ASCII. -/
def smallLetters (content : Bytes) : String :=
  String.ofList (content.map fun b => (Char.ofNat b.toNat).toLower)

/-- What a text stands for where no text is expected. -/
def standIn (shape : Shape) (content : Bytes) : Except Obstacle Reply :=
  let small := smallLetters content
  let takesNumber := shape.takesInt || shape.takesFloat
  if shape.takesBool ∧ (small = "0" ∨ small = "false") then .ok (.plain (.bool false))
  else if shape.takesBool ∧ (small = "1" ∨ small = "true") then .ok (.plain (.bool true))
  else if shape.takesNull ∧ small = "null" then .ok .null
  else match if takesNumber then numberText? content else none with
    | some n => numberReply (shape.filter fun | .int | .float => true | _ => false) n
    | none => match if takesNumber then specialText? small.toList else none with
      | some x => if shape.takesFloat then .ok (.plain (.float x)) else .error .form
      | none =>
        let word := (Utf8.decode content).toOption.getD ""
        if shape.takesWord word then .ok (.plain (.str word)) else .error .form

/-- The members of a record in the order of its fields, from those that were sent. -/
def completeRecord (sent : List (String × Reply)) :
    List (RecordField Alternative) → Except Obstacle (List (String × Reply))
  | [] => .ok []
  | field :: fields => do
    let reply ← match sent.reverse.find? (·.1 == field.name), field.absent with
      | some (_, reply), _ => pure reply
      | none, some reply => pure reply
      | none, none => throw .form
    return (field.name, reply) :: (← completeRecord sent fields)

/-- The value of a document as a key or a blob. -/
def convert (shape : Shape) (conversion : Json.Value → Except Fault Reply) (tree : Tree) :
    Except Obstacle Reply := do
  match ← tree.value with
  | .null => if shape.takesNull then return .null else throw .form
  | value => (conversion value).mapError fun _ => .form

mutual

/-- The reply that a document holds. -/
def Shape.reply (shape : Shape) (host : Host) : Tree → Except Obstacle Reply
  | .broken why => .error why
  | .null =>
    if shape.takesAny ∨ shape.takesNull then .ok .null else .error .form
  | .bool b => match shape.conversion? host with
    | some _ => .error .form
    | none =>
      if shape.takesAny ∨ shape.takesBool then .ok (.plain (.bool b)) else .error .form
  | .number n => match shape.conversion? host with
    | some conversion => convert shape conversion (.number n)
    | none => numberReply shape n
  | .str content => match shape.conversion? host with
    | some conversion => convert shape conversion (.str content)
    | none =>
      if shape.takesAny ∨ shape.takesText then (.plain ∘ .str) <$> Json.text content
      else standIn shape content
  | .arr items => match shape.conversion? host, shape.item? with
    | some conversion, _ => convert shape conversion (.arr items)
    | none, some item =>
      if shape.takesAny then .plain <$> Tree.value (.arr items)
      else .list <$> itemReplies host item items
    | none, none =>
      if shape.takesAny then .plain <$> Tree.value (.arr items) else .error .form
  | .obj members => match shape.conversion? host, shape.record?, shape.entry? with
    | some conversion, _, _ => convert shape conversion (.obj members)
    | none, some (label, fields), _ => do
      let sent ← memberReplies host fields members
      .record label <$> completeRecord sent fields
    | none, none, some entry => do
      let entries ← entryReplies host entry members
      return .map (Keyed.putAll Prod.fst entries [])
    | none, none, none =>
      if shape.takesAny then .plain <$> Tree.value (.obj members) else .error .form

/-- The replies that the items of a list hold. -/
def itemReplies (host : Host) (shape : Shape) : List Tree → Except Obstacle (List Reply)
  | [] => .ok []
  | item :: items => do
    let reply ← shape.reply host item
    let replies ← itemReplies host shape items
    return reply :: replies

/-- The replies that the known members of a record hold, by name. -/
def memberReplies (host : Host) (fields : List (RecordField Alternative)) :
    List (Bytes × Bytes × Tree) → Except Obstacle (List (String × Reply))
  | [] => .ok []
  | (name, _, tree) :: members => do
    match fields.find? fun field => Utf8.encode field.wire == name with
    | some field =>
      let reply ← Shape.reply field.shape host tree
      let replies ← memberReplies host fields members
      return (field.name, reply) :: replies
    | none => match tree.mark? with
      | none => memberReplies host fields members
      | some why => throw why

/-- The names and replies of the members of a map. -/
def entryReplies (host : Host) (shape : Shape) :
    List (Bytes × Bytes × Tree) → Except Obstacle (List (String × Reply))
  | [] => .ok []
  | (name, _, tree) :: members => do
    let name ← Json.text name
    let reply ← shape.reply host tree
    let replies ← entryReplies host shape members
    return (name, reply) :: replies

end

/-- The reply in a text that a host reads. -/
def Shape.decode (shape : Shape) (text : Bytes) (host : Host := .plain) : Except Fault Reply :=
  ((Json.Document.read text host.nesting).using (shape.reply host)).mapError fun
    | .form => .codec .unexpectedShape
    | .text flaw => .misuse (.text flaw)

end LedgerClient.Rpc
