import RolloutWatch.Keyed
import RolloutWatch.Program.Host

/-!
A machine as a value: a tree of files, variables, a network and a supply. Paths lead from one
root, and names that are empty or a single dot do not count.
-/

namespace RolloutWatch

inductive FileNode where
  | file (bytes : List UInt8)
  | directory
  deriving DecidableEq

structure Workspace where
  nodes : List (String × FileNode)
  environment : List (String × String)
  network : Network
  supply : Supply

namespace Workspace

def names (path : String) : List String :=
  (path.splitOn "/").filter fun name => name ≠ "" ∧ name ≠ "."

def ancestors : List String → List (List String)
  | [] => []
  | [_] => []
  | name :: rest => [name] :: (ancestors rest).map (name :: ·)

def key (names : List String) : String :=
  "/".intercalate names

def node? (w : Workspace) (names : List String) : Option FileNode :=
  if names = [] then some .directory else Keyed.get? (key names) w.nodes

def putNode (w : Workspace) (names : List String) (node : FileNode) : Workspace :=
  { w with nodes := Keyed.put (key names) node w.nodes }

def obstacle? (w : Workspace) : List (List String) → Option FileFault
  | [] => none
  | place :: rest =>
      match w.node? place with
      | none => some .notFound
      | some (.file _) => some .notDirectory
      | some .directory => w.obstacle? rest

def read (path : String) (w : Workspace) : Except FileFault (List UInt8) :=
  let place := names path
  match w.obstacle? (ancestors place), w.node? place with
  | some fault, _ => .error fault
  | none, none => .error .notFound
  | none, some .directory => .error .isDirectory
  | none, some (.file bytes) => .ok bytes

def write (path : String) (bytes : List UInt8) (w : Workspace) : Except FileFault Workspace :=
  let place := names path
  match w.obstacle? (ancestors place), w.node? place with
  | some fault, _ => .error fault
  | none, some .directory => .error .isDirectory
  | none, _ => .ok (w.putNode place (.file bytes))

/-- Makes directories one below the other. A file in the place of the last one is there
already; in the place of another one it leads nowhere. -/
def makeAll : List (List String) → Workspace → Except FileFault Workspace
  | [], w => .ok w
  | place :: rest, w =>
      match w.node? place with
      | none => makeAll rest (w.putNode place .directory)
      | some .directory => makeAll rest w
      | some (.file _) =>
          match rest with
          | [] => .error .alreadyExists
          | _ => .error .notDirectory

def makeDirectories (path : String) (w : Workspace) : Except FileFault Workspace :=
  makeAll (ancestors (names path)) w

def change (attempt : Workspace → Except FileFault Workspace) :
    StateM Workspace (Except FileFault Unit) := fun w =>
  match attempt w with
  | .ok w => (.ok (), w)
  | .error fault => (.error fault, w)

instance : Host (StateM Workspace) where
  readFile path := fun w => (w.read path, w)
  writeFile path bytes := change (write path bytes)
  makeDirectories path := change (makeDirectories path)
  valueOf name := fun w => (w.environment.lookup name, w)
  network := fun w => (w.network, w)
  takeSupply := fun w => (w.supply, w)
  returnSupply supply := fun w => ((), { w with supply })

end Workspace

end RolloutWatch
