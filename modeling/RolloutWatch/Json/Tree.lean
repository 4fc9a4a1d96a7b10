import RolloutWatch.Json.Token

/-!
Documents as trees of what is written: numerals and texts in their written form, members in
their order with repetitions. A pushdown machine over the tokens builds the tree, so nesting
may be of any depth; how much depth a reader allows is the reader's affair.
-/

namespace RolloutWatch.Json

inductive Tree where
  | null
  | bool (b : Bool)
  | number (n : Numeral)
  | text (t : WrittenText)
  | array (items : List Tree)
  | object (members : List (WrittenText × Tree))

namespace Tree

/-- A container around the value being read, with what it holds so far in reverse. -/
inductive Frame where
  | item (before : List Tree)
  | member (before : List (WrittenText × Tree)) (key : WrittenText)

inductive State where
  | value (stack : List Frame)
  | firstItem (stack : List Frame)
  | nextItem (before : List Tree) (stack : List Frame)
  | firstKey (stack : List Frame)
  | key (before : List (WrittenText × Tree)) (stack : List Frame)
  | colon (before : List (WrittenText × Tree)) (key : WrittenText) (stack : List Frame)
  | nextMember (before : List (WrittenText × Tree)) (stack : List Frame)
  | finished (tree : Tree)

def give (tree : Tree) : List Frame → State
  | [] => .finished tree
  | .item before :: stack => .nextItem (tree :: before) stack
  | .member before key :: stack => .nextMember ((key, tree) :: before) stack

def beginValue? (token : Token) (stack : List Frame) : Option State :=
  match token with
  | .null => some (give .null stack)
  | .bool b => some (give (.bool b) stack)
  | .number n => some (give (.number n) stack)
  | .text t => some (give (.text t) stack)
  | .openArray => some (.firstItem stack)
  | .openObject => some (.firstKey stack)
  | _ => none

def step? : State → Token → Option State
  | .value stack, token => beginValue? token stack
  | .firstItem stack, .closeArray => some (give (.array []) stack)
  | .firstItem stack, token => beginValue? token (.item [] :: stack)
  | .nextItem before stack, .comma => some (.value (.item before :: stack))
  | .nextItem before stack, .closeArray => some (give (.array before.reverse) stack)
  | .nextItem _ _, _ => none
  | .firstKey stack, .closeObject => some (give (.object []) stack)
  | .firstKey stack, .text key => some (.colon [] key stack)
  | .firstKey _, _ => none
  | .key before stack, .text key => some (.colon before key stack)
  | .key _ _, _ => none
  | .colon before key stack, .colon => some (.value (.member before key :: stack))
  | .colon _ _ _, _ => none
  | .nextMember before stack, .comma => some (.key before stack)
  | .nextMember before stack, .closeObject => some (give (.object before.reverse) stack)
  | .nextMember _ _, _ => none
  | .finished _, _ => none

def run? : State → List Token → Option Tree
  | .finished tree, [] => some tree
  | _, [] => none
  | state, token :: rest => (step? state token).bind fun next => run? next rest

def ofTokens? (tokens : List Token) : Option Tree :=
  run? (.value []) tokens

def ofBytes? (bytes : List UInt8) : Option Tree :=
  (Token.ofBytes? bytes).bind ofTokens?

end Tree

end RolloutWatch.Json
