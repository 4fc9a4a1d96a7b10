import RolloutWatch.Text.Utf8
import RolloutWatch.Toml.Quoted
import RolloutWatch.Toml.Scalar

/-!
Settings documents: lines with a key and a value, and headers that say which table the next
lines belong to. The reader gives the entries of the whole document, or the line at which it
cannot be read.
-/

namespace RolloutWatch.Toml

def comment (text : List Char) : List Char :=
  match text with
  | '#' :: rest => rest.dropWhile isPlain
  | other => other

def skipLines : Nat → List Char → List Char
  | 0, text => text
  | fuel + 1, text =>
      let text := skipSpace text
      match text with
      | '#' :: _ =>
          match newline? (comment text) with
          | some rest => skipLines fuel rest
          | none => comment text
      | _ =>
          match newline? text with
          | some rest => skipLines fuel rest
          | none => text

def splitKey (steps : List String) : List String × String :=
  (steps.dropLast, steps.getLast?.getD "")

mutual

/-- A value. Depth counts the containers that may still be opened. -/
def value : Nat → Nat → Reader Node
  | 0, _, _ => none
  | fuel + 1, depth, text =>
      match text with
      | '"' :: _ => (quotedText text).map fun (s, rest) => (.text s, rest)
      | '\'' :: _ => (quotedText text).map fun (s, rest) => (.text s, rest)
      | '[' :: rest =>
          match depth with
          | 0 => none
          | depth + 1 => arrayItems fuel depth [] rest
      | first :: rest =>
          if first.toNat = 0x7B then
            match depth with
            | 0 => none
            | depth + 1 =>
                match skipSpace rest with
                | [] => none
                | second :: after =>
                    if second.toNat = 0x7D then some (.braces Node.named [], after)
                    else braceEntries fuel depth [] (second :: after)
          else scalar text
      | [] => none

def arrayItems : Nat → Nat → List Node → Reader Node
  | 0, _, _, _ => none
  | fuel + 1, depth, before, text => do
      let text := skipLines text.length text
      match text with
      | ']' :: rest => pure (.array before.reverse, rest)
      | _ => do
          let (item, rest) ← value fuel depth text
          match skipLines rest.length rest with
          | ',' :: more => arrayItems fuel depth (item :: before) more
          | ']' :: more => pure (.array (item :: before).reverse, more)
          | _ => none

def braceEntries : Nat → Nat → Entries → Reader Node
  | 0, _, _, _ => none
  | fuel + 1, depth, entries, text => do
      let (steps, rest) ← key text
      let (_, rest) ← Reader.literal '=' rest
      let (item, rest) ← value fuel depth (skipSpace rest)
      let (path, last) := splitKey steps
      let entries ← Node.insertDotted true path last item entries
      match skipSpace rest with
      | ',' :: more => braceEntries fuel depth entries more
      | c :: more => if c.toNat = 0x7D then pure (.braces Node.named entries, more) else none
      | [] => none

end

def lineEnd (text : List Char) : Option (List Char) :=
  let text := comment (skipSpace text)
  match text with
  | [] => some []
  | other => newline? other

def entry : Reader (List String × Node) := fun text => do
  let (steps, rest) ← key text
  let (_, rest) ← Reader.literal '=' rest
  let (item, rest) ← value (2 * rest.length + 2) (depthLimit - 1) (skipSpace rest)
  let rest ← lineEnd rest
  pure ((steps, item), rest)

/-- A header, to the end of the line. The flag tells double brackets. -/
def header : Reader (Bool × List String) := fun text =>
  match text with
  | '[' :: '[' :: rest => do
      let (steps, rest) ← key rest
      let (_, rest) ← Reader.word [']', ']'] rest
      let rest ← lineEnd rest
      pure ((true, steps), rest)
  | '[' :: rest => do
      let (steps, rest) ← key rest
      let (_, rest) ← Reader.literal ']' rest
      let rest ← lineEnd rest
      pure ((false, steps), rest)
  | _ => none

/-- The entries so far and the path of the table that lines belong to. -/
structure Progress where
  root : Entries
  here : List String

def line (p : Progress) (text : List Char) : Option (Progress × List Char) :=
  let text := skipSpace text
  match text with
  | [] => some (p, [])
  | '#' :: _ => (lineEnd text).map fun rest => (p, rest)
  | '[' :: _ => do
      let ((double, steps), rest) ← header text
      let (path, last) := splitKey steps
      let change := if double then Node.openItem last else Node.openTable last
      let root ← Node.atPath change path p.root
      pure ({ root, here := steps }, rest)
  | _ =>
      match newline? text with
      | some rest => some (p, rest)
      | none => do
          let ((steps, item), rest) ← entry text
          let (path, last) := splitKey steps
          let root ←
            Node.atPath (Node.insertDotted false path last item) p.here p.root
          pure ({ p with root }, rest)

/-- Lines up to the end. Each line takes a character, so their count is fuel enough. A
failure tells how much of the document was left. -/
def lines : Nat → Progress → List Char → Except Nat Entries
  | 0, p, _ => .ok p.root
  | fuel + 1, p, text =>
      match text with
      | [] => .ok p.root
      | _ =>
          match line p text with
          | some (p, rest) => lines fuel p rest
          | none => .error text.length

def document (text : List Char) : Except Nat Entries :=
  let text := match text with
    | c :: rest => if c.toNat = 0xFEFF then rest else c :: rest
    | [] => []
  match lines (text.length + 1) { root := [], here := [] } text with
  | .ok entries => .ok entries
  | .error left =>
      .error (1 + ((text.take (text.length - left)).filter (· = '\n')).length)

end RolloutWatch.Toml
