import LedgerClient.Decimal.Nearest
import LedgerClient.Text.Numeral
import LedgerClient.Text.Utf8

/-!
# JSON texts

The structure of a JSON text before anything is expected of it: strings are bytes that need not
be UTF-8 yet, numbers are known by their digits, and the members of an object keep the exact text
of their values. Where the text breaks off or breaks the grammar, and where values nest deeper than
they are read, the structure holds a mark in the place of what cannot be read, so that what stands
before the mark can still be looked at first.

## Main definitions

* `Json.Flaw`, `Json.Obstacle`: why a text cannot be read
* `Json.Number`: a number as written, whole or not
* `Json.Tree`: the structure of a text
* `Json.Document`: the structure of a whole text and whether anything follows it
* `Json.Document.read`: the document of a byte string
-/

namespace LedgerClient.Json

/-- What is wrong with a text that cannot be read at all. -/
inductive Flaw
  /-- A string in it is not UTF-8. -/
  | string (flaw : Utf8.Flaw)
  /-- Values in it nest deeper than they are read. -/
  | nesting
  deriving DecidableEq, Repr

/-- The wording of a flaw. -/
def Flaw.message : Flaw → String
  | .string flaw => flaw.message
  | .nesting => "maximum recursion depth exceeded while deserializing an object"

/-- Why no value can be read. -/
inductive Obstacle
  /-- The text or a value in it has another form than expected. -/
  | form
  /-- The text cannot be read at all. -/
  | text (flaw : Flaw)
  deriving DecidableEq, Repr

/-- A number as written. -/
inductive Number
  /-- Digits only, with their count. -/
  | whole (value : Int) (digits : Nat)
  /-- A number with a fraction or an exponent. -/
  | decimal (value : Decimal)
  deriving DecidableEq, Repr

/-- The structure of a JSON text. -/
inductive Tree
  | null
  | bool (b : Bool)
  | number (n : Number)
  /-- A string, its escapes resolved. -/
  | str (content : Bytes)
  | arr (items : List Tree)
  /-- An object: name, exact text and structure of each member. -/
  | obj (members : List (Bytes × Bytes × Tree))
  /-- Nothing can be read here. -/
  | broken (why : Obstacle)
  deriving Inhabited

/-- Something read, and what follows; nothing follows where reading stopped. -/
abbrev Reading (α : Type) := α × Option Bytes

/-- The byte is one of the four blanks of JSON. -/
def isSpace (b : UInt8) : Bool :=
  b == 0x20 || b == 0x09 || b == 0x0A || b == 0x0D

/-- A byte string without the blanks at its front. -/
def skipSpace (bs : Bytes) : Bytes :=
  bs.dropWhile isSpace

/-- The byte is an ASCII digit. -/
def isDigit (b : UInt8) : Bool :=
  48 ≤ b && b ≤ 57

/-- The number written by digits. -/
def ofDigits (bs : Bytes) : Nat :=
  bs.foldl (fun n b => 10 * n + (b.toNat - 48)) 0

/-- The digits at the front, of which there must be one, and the rest. -/
def someDigits? (bs : Bytes) : Option (Bytes × Bytes) :=
  match bs.takeWhile isDigit with
  | [] => none
  | ds => some (ds, bs.dropWhile isDigit)

/-- The whole part at the front: a single zero or digits that do not start with zero. -/
def wholePart? (bs : Bytes) : Option (Bytes × Bytes) :=
  match someDigits? bs with
  | some (0x30 :: _ :: _, _) => none
  | other => other

/-- The fraction at the front, if a point starts one. -/
def fraction? : Bytes → Option (Option Bytes × Bytes)
  | 0x2E :: bs => (someDigits? bs).map fun (ds, rest) => (some ds, rest)
  | bs => some (none, bs)

/-- The exponent at the front, if the letter `e` starts one. -/
def exponent? (bs : Bytes) : Option (Option Int × Bytes) :=
  match bs with
  | [] => some (none, [])
  | b :: tail =>
    if b = 0x65 ∨ b = 0x45 then
      let (negative, digits) := match tail with
        | 0x2D :: ds => (true, ds)
        | 0x2B :: ds => (false, ds)
        | ds => (false, ds)
      (someDigits? digits).map fun (ds, rest) =>
        (some (if negative then -(ofDigits ds : Int) else ofDigits ds), rest)
    else some (none, bs)

/-- The number at the front and the rest. -/
def number? (bs : Bytes) : Option (Number × Bytes) := do
  let (negative, body) := match bs with
    | 0x2D :: body => (true, body)
    | body => (false, body)
  let (whole, rest) ← wholePart? body
  let (fraction, rest) ← fraction? rest
  let (exponent, rest) ← exponent? rest
  match fraction, exponent with
  | none, none =>
    let size : Int := ofDigits whole
    return (.whole (if negative then -size else size) whole.length, rest)
  | _, _ =>
    let digits := fraction.getD []
    return (.decimal ⟨negative, ofDigits (whole ++ digits),
      exponent.getD 0 - digits.length⟩, rest)

/-- The number of four hexadecimal digits at the front and the rest. -/
def unit? : Bytes → Option (Nat × Bytes)
  | a :: b :: c :: d :: rest => do
    let a ← Bytes.hexValue? a.toNat
    let b ← Bytes.hexValue? b.toNat
    let c ← Bytes.hexValue? c.toNat
    let d ← Bytes.hexValue? d.toNat
    return (((a * 16 + b) * 16 + c) * 16 + d, rest)
  | _ => none

/-- The character of a numeric escape, after its `u`; two surrogates make one character. -/
def numericEscape? (bs : Bytes) : Option (Char × Bytes) := do
  let (high, rest) ← unit? bs
  if high < 0xD800 ∨ 0xDFFF < high then return (Char.ofNat high, rest)
  else if 0xDC00 ≤ high then none
  else match rest with
    | 0x5C :: 0x75 :: rest =>
      let (low, rest) ← unit? rest
      if 0xDC00 ≤ low ∧ low ≤ 0xDFFF then
        return (Char.ofNat (0x10000 + (high - 0xD800) * 0x400 + (low - 0xDC00)), rest)
      else none
    | _ => none

/-- The bytes of an escape, after its backslash, and the rest. -/
def escape? : Bytes → Option (Bytes × Bytes)
  | [] => none
  | b :: rest =>
    if b = 0x22 ∨ b = 0x5C ∨ b = 0x2F then some ([b], rest)
    else if b = 0x62 then some ([0x08], rest)
    else if b = 0x66 then some ([0x0C], rest)
    else if b = 0x6E then some ([0x0A], rest)
    else if b = 0x72 then some ([0x0D], rest)
    else if b = 0x74 then some ([0x09], rest)
    else if b = 0x75 then
      (numericEscape? rest).map fun (c, rest) => (String.utf8EncodeChar c, rest)
    else none

/-- The content of a string, after its opening quote, onto the content read so far, latest
first. -/
def stringOnto : (fuel : Nat) → (content : Bytes) → Bytes → Option (Bytes × Bytes)
  | 0, _, _ => none
  | _ + 1, _, [] => none
  | fuel + 1, content, b :: rest =>
    if b = 0x22 then some (content.reverse, rest)
    else if b = 0x5C then
      match escape? rest with
      | some (bs, rest) => stringOnto fuel (bs.reverse ++ content) rest
      | none => none
    else if b < 0x20 then none
    else stringOnto fuel (b :: content) rest

/-- The content of a string, after its opening quote, and the rest. -/
def string? (bs : Bytes) : Option (Bytes × Bytes) :=
  stringOnto (bs.length + 1) [] bs

/-- A scalar whose text is `word`, if the text follows. -/
def literal (word : String) (tree : Tree) (bs : Bytes) : Reading Tree :=
  let expected := Utf8.encode word
  if expected.isPrefixOf bs then (tree, some (bs.drop expected.length))
  else (.broken .form, none)

mutual

/-- The value at the front, after blanks. Lists and objects in it are read to this depth. -/
def readValue : (fuel depth : Nat) → Bytes → Reading Tree
  | 0, _, _ => (.broken .form, none)
  | fuel + 1, depth, bs =>
    match skipSpace bs with
    | [] => (.broken .form, none)
    | b :: rest =>
      if b = 0x22 then
        match string? rest with
        | some (content, rest) => (.str content, some rest)
        | none => (.broken .form, none)
      else if b = 0x5B then
        match depth, skipSpace rest with
        | 0, _ => (.arr [.broken (.text .nesting)], none)
        | _ + 1, 0x5D :: rest => (.arr [], some rest)
        | depth + 1, rest =>
          let (items, rest) := readItems fuel depth rest
          (.arr items, rest)
      else if b = 0x7B then
        match depth, skipSpace rest with
        | 0, _ => (.obj [([], [], .broken (.text .nesting))], none)
        | _ + 1, 0x7D :: rest => (.obj [], some rest)
        | depth + 1, rest =>
          let (members, rest) := readMembers fuel depth rest
          (.obj members, rest)
      else if b = 0x6E then literal "null" .null (b :: rest)
      else if b = 0x74 then literal "true" (.bool true) (b :: rest)
      else if b = 0x66 then literal "false" (.bool false) (b :: rest)
      else match number? (b :: rest) with
        | some (n, rest) => (.number n, some rest)
        | none => (.broken .form, none)

/-- The items of a list from the next one on, up to its closing bracket. -/
def readItems : (fuel depth : Nat) → Bytes → Reading (List Tree)
  | 0, _, _ => ([.broken .form], none)
  | fuel + 1, depth, bs =>
    match readValue fuel depth bs with
    | (item, none) => ([item], none)
    | (item, some rest) =>
      match skipSpace rest with
      | 0x5D :: rest => ([item], some rest)
      | 0x2C :: rest =>
        let (items, rest) := readItems fuel depth rest
        (item :: items, rest)
      | _ => ([item, .broken .form], none)

/-- The members of an object from the next one on, up to its closing brace. -/
def readMembers : (fuel depth : Nat) → Bytes → Reading (List (Bytes × Bytes × Tree))
  | 0, _, _ => ([([], [], .broken .form)], none)
  | fuel + 1, depth, bs =>
    match skipSpace bs with
    | 0x22 :: rest =>
      match string? rest with
      | none => ([([], [], .broken .form)], none)
      | some (name, rest) =>
        match skipSpace rest with
        | 0x3A :: rest =>
          let rest := skipSpace rest
          match readValue fuel depth rest with
          | (tree, none) => ([(name, rest, tree)], none)
          | (tree, some after) =>
            let text := rest.take (rest.length - after.length)
            match skipSpace after with
            | 0x7D :: after => ([(name, text, tree)], some after)
            | 0x2C :: after =>
              let (members, after) := readMembers fuel depth after
              ((name, text, tree) :: members, after)
            | _ => ([(name, text, tree), ([], [], .broken .form)], none)
        | _ => ([(name, [], .broken .form)], none)
    | _ => ([([], [], .broken .form)], none)

end

/-! ## Marks -/

/-- Why a structure is not what is expected of it: its mark if it is one, otherwise its form. -/
def Tree.mismatch : Tree → Obstacle
  | .broken why => why
  | _ => .form

mutual

/-- The first mark in the structure, if there is one. -/
def Tree.mark? : Tree → Option Obstacle
  | .broken why => some why
  | .arr items => itemsMark? items
  | .obj members => membersMark? members
  | _ => none

/-- The first mark in the items, if there is one. -/
def itemsMark? : List Tree → Option Obstacle
  | [] => none
  | item :: items => item.mark?.or (itemsMark? items)

/-- The first mark in the members, if there is one. -/
def membersMark? : List (Bytes × Bytes × Tree) → Option Obstacle
  | [] => none
  | (_, _, tree) :: members => tree.mark?.or (membersMark? members)

end

/-! ## Documents -/

/-- The structure of a whole text, and whether only blanks follow it. -/
structure Document where
  /-- The structure. -/
  tree : Tree
  /-- Only blanks follow. -/
  complete : Bool

/-- The document of a byte string, read to a depth. Nothing nests deeper than there are bytes. -/
def Document.read (bs : Bytes) (depth : Nat := bs.length) : Document :=
  match readValue (2 * bs.length + 2) depth bs with
  | (tree, some rest) => ⟨tree, (skipSpace rest).isEmpty⟩
  | (tree, none) => ⟨tree, false⟩

end LedgerClient.Json
