import LedgerClient.Rpc.Call

/-!
# Feeds

A feed is what a client subscribes to over the duplex channel: a method with parameters, like a
call, and the shape of its notifications. Unless another one is given, a feed is ended by the
method whose name says so.

## Main definitions

* `Rpc.Feed`: a feed
* `Rpc.Feed.ending`: the method that ends a feed
* one function for each feed, such as `Rpc.Feed.account`
-/

namespace LedgerClient.Rpc

/-- What a client subscribes to. -/
structure Feed where
  /-- The method that subscribes. -/
  method : String
  /-- The parameters. -/
  params : List Param
  /-- What a notification may be. -/
  shape : Shape

/-- A text with every occurrence of a word replaced, from the front on. -/
def replaceWord (word replacement : List Char) : (fuel : Nat) → List Char → List Char
  | 0, cs => cs
  | _ + 1, [] => []
  | fuel + 1, c :: cs =>
    if word.isPrefixOf (c :: cs) then
      replacement ++ replaceWord word replacement fuel ((c :: cs).drop word.length)
    else c :: replaceWord word replacement fuel cs

namespace Feed

/-- The method that ends a feed. -/
def ending (feed : Feed) : String :=
  let name := feed.method.toList
  String.ofList (replaceWord "Subscribe".toList "Unsubscribe".toList name.length name)

/-- The changes of an account. -/
def account (account : PublicKey) (settings : Option Settings := none) : Feed :=
  ⟨"accountSubscribe",
    withSettings [Call.key account] (settings.getD (Call.inBase64 .accountSubscribe)),
    Shape.accountNotification⟩

/-- The changes of the accounts of a program. -/
def program (program : PublicKey) (settings : Option Settings := none) : Feed :=
  ⟨"programSubscribe",
    withSettings [Call.key program] (settings.getD (Call.inBase64 .programSubscribe)),
    Shape.programNotification⟩

/-- The logs of transactions: those that a word or a filter names. -/
def logs (about : Param := .plain (.str "all")) (settings : Option Settings := none) : Feed :=
  ⟨"logsSubscribe", withSettings [about] settings, Shape.logsNotification⟩

/-- The fate of a signature. -/
def signature (signature : Signature) (settings : Option Settings := none) : Feed :=
  ⟨"signatureSubscribe", withSettings [.key .signature signature] settings,
    Shape.signatureNotification⟩

/-- New blocks: those that a word or a filter names. -/
def block (about : Param := .plain (.str "all")) (settings : Option Settings := none) : Feed :=
  ⟨"blockSubscribe", withSettings [about] settings, Shape.blockNotification⟩

/-- New slots. -/
def slot : Feed := ⟨"slotSubscribe", [], Shape.slotInfo⟩

/-- New roots. -/
def root : Feed := ⟨"rootSubscribe", [], Shape.int⟩

end Feed

end LedgerClient.Rpc
