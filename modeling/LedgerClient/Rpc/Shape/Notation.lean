import LedgerClient.Rpc.Records

/-!
# Shapes written as text

A shape can be named by a text: the name of a record or of a scalar, a bracketed shape for lists,
maps and values with context, and alternatives between bars, as in `list[Reward | None]`.

## Main definitions

* `Rpc.Shape.ofText?`: the shape that a text names
-/

namespace LedgerClient.Rpc

/-- A sign of a shape's text. -/
inductive ShapeToken
  | name (name : String)
  | open
  | close
  | bar
  | comma
  deriving DecidableEq, Repr

namespace ShapeToken

/-- The character may stand in a name. -/
def isNameChar (c : Char) : Bool :=
  c.isAlphanum || c == '_' || c == '"'

/-- Puts a character before the name that the signs start with. -/
def extend (c : Char) (joined : Bool) : List ShapeToken → List ShapeToken
  | .name word :: tokens =>
    if joined then .name (String.ofList (c :: word.toList)) :: tokens
    else .name (String.ofList [c]) :: .name word :: tokens
  | tokens => .name (String.ofList [c]) :: tokens

/-- The signs of a text; characters that are no sign are skipped. -/
def scan : List Char → List ShapeToken
  | [] => []
  | c :: cs =>
    if c = '[' then .open :: scan cs
    else if c = ']' then .close :: scan cs
    else if c = '|' then .bar :: scan cs
    else if c = ',' then .comma :: scan cs
    else if isNameChar c then extend c (cs.head?.any isNameChar) (scan cs)
    else scan cs

end ShapeToken

namespace Shape

/-- The shape of a name without brackets. -/
def ofName? (name : String) : Option Shape :=
  match name with
  | "Any" => some anything
  | "None" => some [.null]
  | "int" => some int
  | "float" => some float
  | "str" => some text
  | "bool" => some bool
  | "PublicKey" => some publicKey
  | "Hash" => some hash
  | "Signature" => some signature
  | "SolData" => some blob
  | _ => (named.find? (·.1 == name)).map (·.2)

mutual

/-- The shape at the front, alternatives included, and the signs after it. -/
def parse (fuel : Nat) (tokens : List ShapeToken) : Option (Shape × List ShapeToken) :=
  match fuel with
  | 0 => none
  | fuel + 1 => do
    let (shape, rest) ← parseOne fuel tokens
    match rest with
    | .bar :: rest =>
      let (others, rest) ← parse fuel rest
      return (shape ++ others, rest)
    | _ => return (shape, rest)

/-- The shape at the front up to the next bar, and the signs after it. -/
def parseOne (fuel : Nat) (tokens : List ShapeToken) : Option (Shape × List ShapeToken) :=
  match fuel with
  | 0 => none
  | fuel + 1 => match tokens with
    | .name "list" :: .open :: rest => do
      let (item, .close :: rest) ← parse fuel rest | none
      return (item.many, rest)
    | .name "dict" :: .open :: .name "str" :: .comma :: rest => do
      let (item, .close :: rest) ← parse fuel rest | none
      return (item.mapOf, rest)
    | .name "WithContext" :: .open :: rest => do
      let (item, .close :: rest) ← parse fuel rest | none
      return (item.withContext, rest)
    | .name "Literal" :: .open :: .name word :: .close :: rest =>
      some ([.word (String.ofList (word.toList.filter (· != '"')))], rest)
    | .name name :: rest => (ofName? name).map (·, rest)
    | _ => none

end

/-- The shape that a text names. -/
def ofText? (text : String) : Option Shape :=
  let tokens := ShapeToken.scan text.toList
  match parse (2 * tokens.length + 2) tokens with
  | some (shape, []) => some shape
  | _ => none

end Shape

end LedgerClient.Rpc
