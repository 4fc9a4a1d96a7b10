import RolloutWatch.Keyed
import RolloutWatch.Number.Binary64

/-!
Settings documents as trees, and the rules by which tables grow. A table knows whether it has
been named by a header of its own and whether dotted keys made it: only tables that nothing
but longer headers have touched may still get a header, and only tables that dotted keys
made may get more dotted keys. Tables written inside braces are closed.
-/

namespace RolloutWatch.Toml

/-- How a table came into being. -/
structure Origin where
  implicit : Bool
  dotted : Bool
  deriving DecidableEq

inductive Node where
  | text (s : String)
  | integer (i : Int)
  | real (x : Binary64)
  | bool (b : Bool)
  | moment
  | array (items : List Node)
  | braces (origin : Origin) (entries : List (String × Node))
  | table (origin : Origin) (entries : List (String × Node))
  | tables (items : List (List (String × Node)))

abbrev Entries := List (String × Node)

namespace Node

/-- A table that a header names. -/
def named : Origin :=
  { implicit := false, dotted := false }

/-- A table on the way of a longer header. -/
def passed : Origin :=
  { implicit := true, dotted := false }

/-- A table on the way of a dotted key. -/
def dottedWay : Origin :=
  { implicit := true, dotted := true }

def find? (key : String) (entries : Entries) : Option Node :=
  Keyed.get? key entries

def set (key : String) (node : Node) : Entries → Entries
  | [] => [(key, node)]
  | (k, n) :: rest => if k = key then (key, node) :: rest else (k, n) :: set key node rest

def setLast {α : Type} (items : List α) (last : α) : List α :=
  items.dropLast ++ [last]

/-- Puts a value under a dotted key into a table. The flag says whether this happens between
braces. -/
def insertDotted (brace : Bool) :
    List String → String → Node → Entries → Option Entries
  | [], key, value, entries =>
      match find? key entries with
      | none => some (set key value entries)
      | some _ => none
  | step :: path, key, value, entries =>
      let wrap (o : Origin) (es : Entries) : Node := if brace then .braces o es else .table o es
      match find? step entries with
      | none =>
          (insertDotted brace path key value []).map fun inner =>
            set step (wrap dottedWay inner) entries
      | some (.table o inner) =>
          if brace || !o.implicit || (path.isEmpty && !o.dotted) then none
          else
            (insertDotted brace path key value inner).map fun inner =>
              set step (.table o inner) entries
      | some (.braces o inner) =>
          if !brace || !o.implicit || (path.isEmpty && !o.dotted) then none
          else
            (insertDotted brace path key value inner).map fun inner =>
              set step (.braces o inner) entries
      | some (.tables items) =>
          match items.getLast? with
          | none => none
          | some last =>
              if path.isEmpty then none
              else
                (insertDotted brace path key value last).map fun last =>
                  set step (.tables (setLast items last)) entries
      | some _ => none

/-- Changes the table that a header's path leads to, making the tables on the way. -/
def atPath (change : Entries → Option Entries) : List String → Entries → Option Entries
  | [], entries => change entries
  | step :: path, entries =>
      match find? step entries with
      | none =>
          (atPath change path []).map fun inner => set step (.table passed inner) entries
      | some (.table o inner) =>
          (atPath change path inner).map fun inner => set step (.table o inner) entries
      | some (.tables items) =>
          match items.getLast? with
          | none => none
          | some last =>
              (atPath change path last).map fun last =>
                set step (.tables (setLast items last)) entries
      | some _ => none

/-- A header makes its table, or takes one that only longer headers have made. -/
def openTable (key : String) (entries : Entries) : Option Entries :=
  match find? key entries with
  | none => some (set key (.table named []) entries)
  | some (.table o inner) =>
      if o.implicit && !o.dotted then some (set key (.table named inner) entries) else none
  | some _ => none

/-- A header in double brackets puts one more table into its list. -/
def openItem (key : String) (entries : Entries) : Option Entries :=
  match find? key entries with
  | none => some (set key (.tables [[]]) entries)
  | some (.tables items) => some (set key (.tables (items ++ [[]])) entries)
  | some _ => none

end Node

end RolloutWatch.Toml
